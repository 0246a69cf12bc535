import Literaft.Library.PageLog

/-! Changes that are applied a second time. A page no replayed change brings was there all
along: the database never shrank below it, since growing back would have brought it. -/

namespace Literaft.Library.Database

variable {P : Type}

def CoversAll : Database P → List (Change P) → Prop
  | _, [] => True
  | database, change :: rest => database.Covers change ∧ CoversAll (database.apply change) rest

theorem CoversAll.append {database : Database P} {first last : List (Change P)} (covers : database.CoversAll (first ++ last)) :
    (first.foldl apply database).CoversAll last := by
  induction first generalizing database with
  | nil => exact covers
  | cons change rest ih => exact ih covers.2

theorem foldl_apply_page (database : Database P) (changes : List (Change P)) (p : Nat) :
    (changes.foldl apply database).page p = (newest (changes.flatMap Change.pages) p).getD (database.page p) := by
  induction changes generalizing database with
  | nil => rfl
  | cons change rest ih =>
    rw [List.foldl_cons, ih, List.flatMap_cons, newest_append]
    cases newest (rest.flatMap Change.pages) p <;> rfl

theorem foldl_apply_size {left right : Database P} {changes : List (Change P)}
    (same : changes = [] → left.size = right.size) :
    (changes.foldl apply left).size = (changes.foldl apply right).size := by
  induction changes generalizing left right with
  | nil => exact same rfl
  | cons change rest ih => exact ih fun _ => rfl

/-- A page that no change brings was there before them. -/
theorem CoversAll.there_before {database : Database P} {changes : List (Change P)} (covers : database.CoversAll changes)
    {p : Nat} (absent : newest (changes.flatMap Change.pages) p = none) (inside : p ≤ (changes.foldl apply database).size) :
    p ≤ database.size := by
  induction changes generalizing database with
  | nil => exact inside
  | cons change rest ih =>
    rw [List.flatMap_cons, newest_append, Option.or_eq_none_iff] at absent
    have before : p ≤ change.size := ih covers.2 absent.1 inside
    by_contra beyond
    have brought := newest_isSome (covers.1 p (Nat.lt_of_not_le beyond) before)
    rw [absent.2] at brought
    cases brought

/-- Replaying changes over a database that already has some of them ends where the changes
themselves do. -/
theorem replay_same {base database : Database P} {again rest : List (Change P)} (covers : base.CoversAll (again ++ rest))
    (recovered : Same database (again.foldl apply base)) :
    Same ((again ++ rest).foldl apply database) ((again ++ rest).foldl apply base) := by
  have size : ((again ++ rest).foldl apply database).size = ((again ++ rest).foldl apply base).size := by
    apply foldl_apply_size
    intro empty
    rw [(List.append_eq_nil_iff.mp empty).1] at recovered
    exact recovered.1
  refine ⟨size, ?_⟩
  intro p positive inside
  rw [foldl_apply_page, foldl_apply_page]
  cases found : newest ((again ++ rest).flatMap Change.pages) p with
  | some image => rfl
  | none =>
    rw [List.flatMap_append, newest_append, Option.or_eq_none_iff] at found
    rw [size, List.foldl_append] at inside
    have there := covers.append.there_before found.1 inside
    rw [Option.getD_none, Option.getD_none, recovered.2 p positive (recovered.1 ▸ there), foldl_apply_page, found.2,
      Option.getD_none]

def Alike (like : Nat → P → P → Prop) (left right : Database P) : Prop :=
  left.size = right.size ∧ ∀ p, 1 ≤ p → p ≤ left.size → like p (left.page p) (right.page p)

theorem Alike.same {like : Nat → P → P → Prop} {left middle right : Database P} (alike : Alike like left middle)
    (same : Same middle right) : Alike like left right := by
  refine ⟨alike.1.trans same.1, fun p positive inside => ?_⟩
  rw [← same.2 p positive (alike.1 ▸ inside)]
  exact alike.2 p positive inside

theorem Same.alike {like : Nat → P → P → Prop} {left middle right : Database P} (same : Same left middle)
    (alike : Alike like middle right) : Alike like left right := by
  refine ⟨same.1.trans alike.1, fun p positive inside => ?_⟩
  rw [same.2 p positive inside]
  exact alike.2 p positive (same.1 ▸ inside)

/-- Changes that bring the pages they add keep databases alike. -/
theorem Alike.foldl {like : Nat → P → P → Prop} (refl : ∀ p image, like p image image) {left right : Database P}
    (alike : Alike like left right) {changes : List (Change P)} (covers : left.CoversAll changes) :
    Alike like (changes.foldl apply left) (changes.foldl apply right) := by
  have size : (changes.foldl apply left).size = (changes.foldl apply right).size := foldl_apply_size fun _ => alike.1
  refine ⟨size, fun p positive inside => ?_⟩
  rw [foldl_apply_page, foldl_apply_page]
  cases found : newest (changes.flatMap Change.pages) p with
  | some image => exact refl p image
  | none => exact alike.2 p positive (covers.there_before found inside)

end Literaft.Library.Database
