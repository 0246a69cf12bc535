import Mathlib.Data.List.Basic

/-! A paged database behind a redo log. The log holds page images in the order they
were published; a checkpoint copies them into the database file, and once all of
them are copied the log may start again from nothing. -/

namespace Literaft.Library

variable {P : Type}

/-- Pages are numbered from one. What `page` says beyond `size` has no meaning. -/
structure Database (P : Type) where
  size : Nat
  page : Nat → P

structure Change (P : Type) where
  pages : List (Nat × P)
  size : Nat

def newest : List (Nat × P) → Nat → Option P
  | [], _ => none
  | (number, image) :: rest, p => (newest rest p).or (if number = p then some image else none)

theorem newest_append (first last : List (Nat × P)) (p : Nat) :
    newest (first ++ last) p = (newest last p).or (newest first p) := by
  induction first with
  | nil => simp [newest]
  | cons head rest ih => simp [newest, ih, Option.or_assoc]

theorem newest_isSome {pages : List (Nat × P)} {p : Nat} (member : p ∈ pages.map Prod.fst) :
    (newest pages p).isSome := by
  induction pages with
  | nil => cases member
  | cons head rest ih =>
    rcases List.mem_cons.mp member with rfl | member
    · simp [newest]
    · simp [newest, ih member]

theorem newest_eq_none {pages : List (Nat × P)} {p : Nat} (absent : p ∉ pages.map Prod.fst) :
    newest pages p = none := by
  induction pages with
  | nil => rfl
  | cons head rest ih =>
    simp only [List.map_cons, List.mem_cons, not_or] at absent
    simp [newest, ih absent.2, Ne.symm absent.1]

namespace Database

def Same (left right : Database P) : Prop :=
  left.size = right.size ∧ ∀ p, 1 ≤ p → p ≤ left.size → left.page p = right.page p

theorem Same.refl (database : Database P) : Same database database := ⟨rfl, fun _ _ _ => rfl⟩

theorem Same.symm {left right : Database P} (same : Same left right) : Same right left :=
  ⟨same.1.symm, fun p positive inside => (same.2 p positive (same.1 ▸ inside)).symm⟩

theorem Same.trans {first second third : Database P} (left : Same first second) (right : Same second third) :
    Same first third :=
  ⟨left.1.trans right.1, fun p positive inside =>
    (left.2 p positive inside).trans (right.2 p positive (left.1 ▸ inside))⟩

def apply (database : Database P) (change : Change P) : Database P where
  size := change.size
  page p := (newest change.pages p).getD (database.page p)

/-- A change that grows the database brings every page it adds. -/
def Covers (database : Database P) (change : Change P) : Prop :=
  ∀ p, database.size < p → p ≤ change.size → p ∈ change.pages.map Prod.fst

instance (database : Database P) (change : Change P) : Decidable (database.Covers change) :=
  decidable_of_iff (∀ p ∈ List.range (change.size + 1), database.size < p → p ∈ change.pages.map Prod.fst)
    ⟨fun all p beyond inside => all p (List.mem_range.mpr (Nat.lt_succ_of_le inside)) beyond,
      fun covers p member beyond => covers p beyond (Nat.le_of_lt_succ (List.mem_range.mp member))⟩

theorem Covers.same {left right : Database P} {change : Change P} (same : Same left right)
    (covers : left.Covers change) : right.Covers change :=
  fun p beyond inside => covers p (by have := same.1; omega) inside

theorem Same.apply {left right : Database P} (same : Same left right) {change : Change P}
    (covers : left.Covers change) : Same (left.apply change) (right.apply change) := by
  refine ⟨rfl, ?_⟩
  intro p positive inside
  by_cases changed : p ∈ change.pages.map Prod.fst
  · obtain ⟨image, found⟩ := Option.isSome_iff_exists.mp (newest_isSome changed)
    simp [Database.apply, found]
  · have old : p ≤ left.size := by
      by_contra beyond
      exact changed (covers p (by omega) inside)
    simp [Database.apply, newest_eq_none changed, same.2 p positive old]

end Database

/-- The published part of the log over the database file. `size` is zero as long as
nothing was published since the log last started again. -/
structure PageLog (P : Type) where
  frames : List (Nat × P)
  size : Nat
  backfill : Nat
  file : Database P

namespace PageLog

def visible (log : PageLog P) : Database P where
  size := if log.size = 0 then log.file.size else log.size
  page p := (newest log.frames p).getD (log.file.page p)

theorem visible_congr {log other : PageLog P} (frames : log.frames = other.frames) (size : log.size = other.size)
    (file : log.file = other.file) : log.visible = other.visible := by
  rw [visible, visible, frames, size, file]

def publish (log : PageLog P) (change : Change P) : PageLog P :=
  { log with frames := log.frames ++ change.pages, size := change.size }

/-- A passive checkpoint up to frame `k`: the newest image of every page among those
frames goes into the file, which takes the database's size once all of them have. -/
def checkpoint (log : PageLog P) (k : Nat) : PageLog P :=
  { log with
    backfill := k
    file := {
      size := if k = log.frames.length then log.size
        else max log.file.size (((log.frames.take k).map Prod.fst).foldr max 0)
      page := fun p => (newest (log.frames.take k) p).getD (log.file.page p) } }

/-- The log starts again; `size` is what the restarting writer leaves in its header. -/
def restart (log : PageLog P) (size : Nat) : PageLog P := { log with frames := [], size, backfill := 0 }

/-- What appends, checkpoints and restarts keep true of a log. -/
structure Valid (log : PageLog P) : Prop where
  bounded : log.backfill ≤ log.frames.length
  copied : ∀ p image, newest (log.frames.take log.backfill) p = some image → log.file.page p = image
  covered : log.size ≠ 0 → ∀ p, log.file.size < p → p ≤ log.size → p ∈ log.frames.map Prod.fst
  sized : log.frames ≠ [] → log.size ≠ 0
  settled : log.frames = [] → log.size ≠ 0 → log.size = log.file.size
  full : log.frames ≠ [] → log.backfill = log.frames.length → log.file.size = log.size

/-- The part of `Valid` that keeps the visible database together. It does not need a
growing database to bring the pages it adds. -/
structure Intact (log : PageLog P) : Prop where
  bounded : log.backfill ≤ log.frames.length
  copied : ∀ p image, newest (log.frames.take log.backfill) p = some image → log.file.page p = image
  sized : log.frames ≠ [] → log.size ≠ 0
  full : log.frames ≠ [] → log.backfill = log.frames.length → log.file.size = log.size

theorem Valid.intact {log : PageLog P} (valid : log.Valid) : log.Intact :=
  ⟨valid.bounded, valid.copied, valid.sized, valid.full⟩

theorem Valid.start (file : Database P) : Valid { frames := [], size := 0, backfill := 0, file } := by
  constructor <;> simp [newest]

theorem visible_start (file : Database P) : visible { frames := [], size := 0, backfill := 0, file } = file := rfl

theorem visible_publish (log : PageLog P) (change : Change P) (sized : change.size ≠ 0) :
    (log.publish change).visible = log.visible.apply change := by
  simp only [visible, publish, Database.apply, sized, ↓reduceIte, Database.mk.injEq, true_and]
  funext p
  rw [newest_append]
  cases newest change.pages p <;> simp

theorem Intact.publish {log : PageLog P} (intact : log.Intact) {change : Change P} (sized : change.size ≠ 0)
    (somePage : change.pages ≠ []) : (log.publish change).Intact := by
  have within := intact.bounded
  have longer : 0 < change.pages.length := List.length_pos_iff.mpr somePage
  refine ⟨?_, ?_, fun _ => sized, ?_⟩
  · simp only [PageLog.publish, List.length_append]
    omega
  · intro p image found
    apply intact.copied p image
    simpa only [PageLog.publish, List.take_append_of_le_length within] using found
  · intro _ all
    simp only [PageLog.publish, List.length_append] at all
    omega

theorem Valid.publish {log : PageLog P} (valid : log.Valid) {change : Change P} (sized : change.size ≠ 0)
    (somePage : change.pages ≠ []) (covers : log.visible.Covers change) : (log.publish change).Valid := by
  have intact := valid.intact.publish sized somePage
  refine ⟨intact.bounded, intact.copied, ?_, intact.sized, ?_, intact.full⟩
  · intro _ p beyond inside
    simp only [PageLog.publish, List.map_append, List.mem_append]
    by_cases old : p ≤ log.visible.size
    · left
      by_cases fresh : log.size = 0
      · simp only [visible, fresh, if_true] at old
        simp only [PageLog.publish] at beyond
        omega
      · exact valid.covered fresh p beyond (by simpa only [visible, if_neg fresh] using old)
    · exact Or.inr (covers p (by omega) inside)
  · intro empty
    simp [PageLog.publish, somePage] at empty

theorem visible_checkpoint {log : PageLog P} (intact : log.Intact) (k : Nat) (someFrame : log.frames ≠ []) :
    (log.checkpoint k).visible = log.visible := by
  have sized := intact.sized someFrame
  simp only [visible, checkpoint, sized, ↓reduceIte, Database.mk.injEq, true_and]
  funext p
  have split : newest log.frames p = (newest (log.frames.drop k) p).or (newest (log.frames.take k) p) := by
    rw [← newest_append, List.take_append_drop]
  rw [split]
  cases newest (log.frames.drop k) p <;> cases newest (log.frames.take k) p <;> simp

theorem Intact.checkpoint {log : PageLog P} (intact : log.Intact) {k : Nat} (inside : k ≤ log.frames.length) :
    (log.checkpoint k).Intact := by
  refine ⟨inside, ?_, intact.sized, ?_⟩
  · intro p image found
    have found : newest (log.frames.take k) p = some image := found
    simp [PageLog.checkpoint, found]
  · intro _ all
    have all : k = log.frames.length := all
    simp [PageLog.checkpoint, all]

theorem Valid.checkpoint {log : PageLog P} (valid : log.Valid) {k : Nat} (someFrame : log.frames ≠ [])
    (inside : k ≤ log.frames.length) : (log.checkpoint k).Valid := by
  have intact := valid.intact.checkpoint inside
  refine ⟨intact.bounded, intact.copied, ?_, intact.sized, fun empty => absurd empty someFrame, intact.full⟩
  intro sized p beyond within
  apply valid.covered sized p ?_ within
  simp only [PageLog.checkpoint] at beyond within
  split at beyond <;> omega

/-- Starting again loses nothing when every frame has been copied. -/
theorem visible_restart {log : PageLog P} (intact : log.Intact) (someFrame : log.frames ≠ [])
    (all : log.backfill = log.frames.length) {size : Nat} (kept : size = 0 ∨ size = log.size) :
    (log.restart size).visible = log.visible := by
  have sized := intact.sized someFrame
  have file := intact.full someFrame all
  have whole : log.frames.take log.backfill = log.frames := by rw [all, List.take_length]
  simp only [visible, restart, sized, ↓reduceIte, Database.mk.injEq]
  constructor
  · rcases kept with rfl | rfl
    · simpa using file
    · simp [sized]
  · funext p
    cases found : newest log.frames p with
    | none => simp [newest]
    | some image => simpa [newest] using intact.copied p image (by rw [whole]; exact found)

theorem Intact.restart (log : PageLog P) (size : Nat) : (log.restart size).Intact := by
  refine ⟨Nat.zero_le _, fun p image found => ?_, fun present => absurd rfl present, fun present => absurd rfl present⟩
  simp [PageLog.restart, newest] at found

theorem Valid.restart {log : PageLog P} (valid : log.Valid) (someFrame : log.frames ≠ [])
    (all : log.backfill = log.frames.length) {size : Nat} (kept : size = 0 ∨ size = log.size) :
    (log.restart size).Valid := by
  have file := valid.full someFrame all
  have intact := Intact.restart log size
  refine ⟨intact.bounded, intact.copied, ?_, intact.sized, ?_, intact.full⟩
  · intro sized p beyond inside
    simp only [PageLog.restart] at beyond inside sized
    rcases kept with rfl | rfl
    · exact absurd rfl sized
    · omega
  · intro _ sized
    rcases kept with rfl | rfl
    · exact absurd rfl sized
    · exact file.symm

end PageLog

end Literaft.Library
