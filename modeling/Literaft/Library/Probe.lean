import Mathlib.Data.Finset.Card
import Mathlib.Data.Finset.Insert
import Mathlib.Data.Nat.Find
import Mathlib.Data.Nat.ModEq

/-! Linear probing in a table of a fixed number of slots. The search visits every slot
once before it would come back to where it began, so it ends exactly when some slot
is free. A lookup follows the used slots and keeps the last entry it asks for; entries
that are put into free slots later do not change it, as long as every entry it asks for
already lay on its way. -/

namespace Literaft.Library

variable {size : Nat}

/-- The first free slot from `slot` on, among the next `count` ones. -/
def probe (size : Nat) (used : Nat → Bool) : Nat → Nat → Option Nat
  | 0, _ => none
  | count + 1, slot => if used slot then probe size used count ((slot + 1) % size) else some slot

def occupied (size : Nat) (used : Nat → Bool) : Nat := ((Finset.range size).filter fun slot => used slot).card

theorem probe_free {used : Nat → Bool} {count slot found : Nat} (finds : probe size used count slot = some found) :
    used found = false := by
  induction count generalizing slot with
  | zero => cases finds
  | succ count ih =>
    unfold probe at finds
    split at finds
    · exact ih finds
    next free =>
      cases finds
      simpa using free

/-- All slots before the one found are in use. -/
theorem probe_run {used : Nat → Bool} {count slot found : Nat} (inside : slot < size)
    (finds : probe size used count slot = some found) :
    ∃ gap < count, found = (slot + gap) % size ∧ ∀ j < gap, used ((slot + j) % size) = true := by
  induction count generalizing slot with
  | zero => cases finds
  | succ count ih =>
    unfold probe at finds
    split at finds
    · next taken =>
      obtain ⟨gap, near, there, before⟩ := ih (Nat.mod_lt _ (Nat.zero_lt_of_lt inside)) finds
      have shifted (j : Nat) : ((slot + 1) % size + j) % size = (slot + (j + 1)) % size := by
        rw [Nat.mod_add_mod, show slot + 1 + j = slot + (j + 1) by omega]
      refine ⟨gap + 1, Nat.succ_lt_succ near, there.trans (shifted gap), fun j inside => ?_⟩
      cases j with
      | zero =>
        rw [Nat.add_zero, Nat.mod_eq_of_lt ‹slot < size›]
        exact taken
      | succ j =>
        rw [← shifted]
        exact before j (by omega)
    · cases finds
      refine ⟨0, Nat.succ_pos count, ?_, fun j none_ => absurd none_ (Nat.not_lt_zero j)⟩
      rw [Nat.add_zero, Nat.mod_eq_of_lt inside]

/-- A free slot that lies `gap` steps ahead is not missed. -/
private theorem probe_reaches {used : Nat → Bool} {count gap slot : Nat} (near : gap < count) (inside : slot < size)
    (free : used ((slot + gap) % size) = false) : (probe size used count slot).isSome := by
  induction count generalizing gap slot with
  | zero => omega
  | succ count ih =>
    unfold probe
    split
    next taken =>
      cases gap with
      | zero =>
        rw [Nat.add_zero, Nat.mod_eq_of_lt inside, taken] at free
        cases free
      | succ gap =>
        apply ih (show gap < count by omega) (Nat.mod_lt _ (Nat.zero_lt_of_lt inside))
        rw [Nat.mod_add_mod, show slot + 1 + gap = slot + (gap + 1) by omega]
        exact free
    · rfl

theorem exists_free {used : Nat → Bool} (room : occupied size used < size) : ∃ slot < size, used slot = false := by
  by_contra full
  push Not at full
  have all : (Finset.range size).filter (fun slot => used slot) = Finset.range size :=
    Finset.filter_true_of_mem fun slot member => by simpa using full slot (Finset.mem_range.mp member)
  rw [occupied, all, Finset.card_range] at room
  exact Nat.lt_irrefl _ room

theorem probe_finds {used : Nat → Bool} {slot : Nat} (inside : slot < size) (room : occupied size used < size) :
    (probe size used size slot).isSome := by
  obtain ⟨free, bound, unused⟩ := exists_free room
  apply probe_reaches (show (free + size - slot) % size < size from Nat.mod_lt _ (by omega)) inside
  rw [Nat.add_mod_mod, show slot + (free + size - slot) = free + size by omega, Nat.add_mod_right, Nat.mod_eq_of_lt bound]
  exact unused

theorem occupied_succ {used after : Nat → Bool} {slot : Nat} (others : ∀ place, place ≠ slot → after place = used place) :
    occupied size after ≤ occupied size used + 1 := by
  have within : (Finset.range size).filter (fun place => after place) ⊆
      insert slot ((Finset.range size).filter fun place => used place) := by
    intro place member
    by_cases same : place = slot
    · exact Finset.mem_insert.mpr (.inl same)
    · rw [Finset.mem_filter, others place same] at member
      exact Finset.mem_insert.mpr (.inr (Finset.mem_filter.mpr member))
  exact (Finset.card_le_card within).trans (Finset.card_insert_le _ _)

theorem occupied_put {used after : Nat → Bool} {slot : Nat} (inside : slot < size) (free : used slot = false)
    (taken : after slot = true) (others : ∀ place, place ≠ slot → after place = used place) :
    occupied size after = occupied size used + 1 := by
  have split : (Finset.range size).filter (fun place => after place) =
      insert slot ((Finset.range size).filter fun place => used place) := by
    ext place
    by_cases same : place = slot
    · simp [same, taken, inside]
    · simp [same, others place same]
  rw [occupied, split, Finset.card_insert_of_notMem (by simp [free])]
  rfl

theorem occupied_le (size : Nat) (used : Nat → Bool) : occupied size used ≤ size :=
  (Finset.card_filter_le _ _).trans_eq (Finset.card_range size)

/-- The search ends exactly when some slot is free. -/
theorem probe_isSome {used : Nat → Bool} {slot : Nat} (inside : slot < size) :
    (probe size used size slot).isSome ↔ occupied size used < size := by
  refine ⟨fun ends => ?_, probe_finds inside⟩
  obtain ⟨found, finds⟩ := Option.isSome_iff_exists.mp ends
  obtain ⟨gap, -, there, -⟩ := probe_run inside finds
  have bound : found < size := by
    rw [there]
    exact Nat.mod_lt _ (Nat.zero_lt_of_lt inside)
  have more := occupied_put bound (probe_free finds) (Function.update_self found true used)
    fun place apart => Function.update_of_ne apart true used
  have all := occupied_le size (Function.update used found true)
  omega

theorem occupied_congr {used after : Nat → Bool} (same : ∀ place, place < size → after place = used place) :
    occupied size after = occupied size used := by
  unfold occupied
  congr 1
  apply Finset.filter_congr
  intro place member
  rw [same place (Finset.mem_range.mp member)]

theorem occupied_none {used : Nat → Bool} (free : ∀ place, place < size → used place = false) : occupied size used = 0 := by
  unfold occupied
  rw [Finset.card_eq_zero, Finset.filter_eq_empty_iff]
  intro place member
  simp [free place (Finset.mem_range.mp member)]

/-- The entry of a slot that is in use is not zero. The lookup gives up after `count` used
slots. -/
def chase (size : Nat) (entry : Nat → Nat) (hit : Nat → Bool) : Nat → Nat → Nat → Option Nat
  | 0, _, _ => none
  | count + 1, slot, found =>
    if entry slot = 0 then some found
    else chase size entry hit count ((slot + 1) % size) (if hit (entry slot) then entry slot else found)

def InRun (size : Nat) (entry : Nat → Nat) (start slot : Nat) : Prop :=
  ∃ gap < size, slot = (start + gap) % size ∧ ∀ j ≤ gap, entry ((start + j) % size) ≠ 0

theorem InRun.grow {entry after : Nat → Nat} {start slot : Nat} (run : InRun size entry start slot)
    (kept : ∀ place, entry place ≠ 0 → after place ≠ 0) : InRun size after start slot := by
  obtain ⟨gap, near, there, between⟩ := run
  exact ⟨gap, near, there, fun j inside => kept _ (between j inside)⟩

section Chase
variable {entry after : Nat → Nat} {hit : Nat → Bool} {count start found gap : Nat}

theorem chase_run (near : gap < count) (inside : start < size) (used : ∀ j < gap, entry ((start + j) % size) ≠ 0)
    (free : entry ((start + gap) % size) = 0) : chase size entry hit count start found =
      some (((List.range gap).map fun j => entry ((start + j) % size)).foldl
        (fun found next => if hit next then next else found) found) := by
  obtain ⟨count, rfl⟩ := Nat.exists_eq_succ_of_ne_zero (show count ≠ 0 by omega)
  induction gap generalizing start found count with
  | zero =>
    rw [Nat.add_zero, Nat.mod_eq_of_lt inside] at free
    rw [chase, if_pos free]
    rfl
  | succ gap ih =>
    obtain ⟨count, rfl⟩ := Nat.exists_eq_succ_of_ne_zero (show count ≠ 0 by omega)
    have zero : (start + 0) % size = start := by rw [Nat.add_zero, Nat.mod_eq_of_lt inside]
    have here : entry start ≠ 0 := by
      have first := used 0 (Nat.succ_pos gap)
      rwa [zero] at first
    have shifted (j : Nat) : ((start + 1) % size + j) % size = (start + (j + 1)) % size := by
      rw [Nat.mod_add_mod, show start + 1 + j = start + (j + 1) by omega]
    rw [chase, if_neg here, List.range_succ_eq_map, List.map_cons, List.foldl_cons, List.map_map, zero,
      ih (Nat.mod_lt _ (Nat.zero_lt_of_lt inside)) (fun j near => by rw [shifted]; exact used (j + 1) (Nat.succ_lt_succ near))
        (by rw [shifted]; exact free) count (by omega)]
    simp only [shifted, Function.comp_def]

theorem first_free (room : ∃ slot < size, entry slot = 0) (inside : start < size) :
    ∃ gap < size, entry ((start + gap) % size) = 0 ∧ ∀ j < gap, entry ((start + j) % size) ≠ 0 := by
  obtain ⟨slot, bound, free⟩ := room
  have ahead : entry ((start + (slot + size - start) % size) % size) = 0 := by
    rw [Nat.add_mod_mod, show start + (slot + size - start) = slot + size by omega, Nat.add_mod_right, Nat.mod_eq_of_lt bound]
    exact free
  have some_ : ∃ gap, entry ((start + gap) % size) = 0 := ⟨_, ahead⟩
  exact ⟨Nat.find some_, Nat.lt_of_le_of_lt (Nat.find_min' some_ ahead) (Nat.mod_lt _ (by omega)), Nat.find_spec some_,
    fun j before => Nat.find_min some_ before⟩

end Chase

end Literaft.Library
