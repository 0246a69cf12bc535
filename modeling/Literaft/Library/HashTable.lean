import Literaft.Library.Probe
import Mathlib.Data.Nat.Find

/-! A table filled by linear probing. Positions `1, 2, …` with a key each are put into the
first free slot from the hash of their key on. Positions of one key then lie in the order
in which they were put, so the last one that a lookup meets is the greatest. -/

namespace Literaft.Library

variable {κ : Type*} {size p : Nat} {hash : κ → Nat} {entry after : Nat → Nat} {key newKey : Nat → κ}

/-- The positions up to `p` have been put into the table and no others. -/
structure Filled (size : Nat) (hash : κ → Nat) (entry : Nat → Nat) (key : Nat → κ) (p : Nat) : Prop where
  named : ∀ slot < size, entry slot ≤ p
  reached : ∀ slot < size, entry slot ≠ 0 → InRun size entry (hash (key (entry slot))) slot
  listed : ∀ position, 1 ≤ position → position ≤ p → ∃ slot < size, entry slot = position
  inOrder : ∀ k near far, near < far → far < size → entry ((hash k + near) % size) ≠ 0 → entry ((hash k + far) % size) ≠ 0 →
    key (entry ((hash k + near) % size)) = k → key (entry ((hash k + far) % size)) = k →
      entry ((hash k + near) % size) < entry ((hash k + far) % size)
  used : occupied size (fun slot => entry slot != 0) = p

theorem filled_empty (free : ∀ slot < size, entry slot = 0) : Filled size hash entry key 0 where
  named slot inside := Nat.le_of_eq (free slot inside)
  reached slot inside used := absurd (free slot inside) used
  listed position positive none_ := absurd positive (by omega)
  inOrder k near far _ inside _ used := absurd (free _ (Nat.mod_lt _ (by omega))) used
  used := occupied_none fun slot inside => by simp [free slot inside]

theorem Filled.congr (filled : Filled size hash entry key p) (slots : ∀ slot < size, after slot = entry slot)
    (keys : ∀ position, 1 ≤ position → position ≤ p → newKey position = key position) : Filled size hash after newKey p := by
  have same (slot : Nat) (inside : slot < size) (used : entry slot ≠ 0) : newKey (entry slot) = key (entry slot) :=
    keys _ (Nat.pos_of_ne_zero used) (filled.named slot inside)
  have within (start j : Nat) (bound : j < size) : (start + j) % size < size := Nat.mod_lt _ (by omega)
  refine ⟨fun slot inside => ?_, fun slot inside used => ?_, fun position positive bound => ?_,
    fun k near far less inside usedNear usedFar => ?_, ?_⟩
  · rw [slots slot inside]
    exact filled.named slot inside
  · rw [slots slot inside] at used ⊢
    rw [same slot inside used]
    obtain ⟨gap, bound, there, between⟩ := filled.reached slot inside used
    refine ⟨gap, bound, there, fun j before => ?_⟩
    rw [slots _ (within _ j (by omega))]
    exact between j before
  · obtain ⟨slot, inside, names⟩ := filled.listed position positive bound
    exact ⟨slot, inside, (slots slot inside).trans names⟩
  · have one := within (hash k) near (by omega)
    have two := within (hash k) far inside
    rw [slots _ one] at usedNear ⊢
    rw [slots _ two] at usedFar ⊢
    rw [same _ one usedNear, same _ two usedFar]
    exact filled.inOrder k near far less inside usedNear usedFar
  · rw [← filled.used]
    exact occupied_congr fun slot inside => by rw [slots slot inside]

theorem gap_unique {start near far : Nat} (one : near < size) (two : far < size)
    (same : (start + near) % size = (start + far) % size) : near = far :=
  Nat.ModEq.eq_of_lt_of_lt (Nat.ModEq.add_left_cancel' start same) one two

section Put
variable {slot : Nat} (filled : Filled size hash entry key p) (inside : hash (newKey (p + 1)) < size)
  (finds : probe size (fun place => entry place != 0) size (hash (newKey (p + 1))) = some slot)
  (taken : after slot = p + 1) (others : ∀ place, place ≠ slot → after place = entry place)
  (keys : ∀ position, 1 ≤ position → position ≤ p → newKey position = key position)
include filled inside finds taken others keys

/-- The next position is put into the first free slot from the hash of its key. -/
theorem Filled.put : Filled size hash after newKey (p + 1) := by
  have free : entry slot = 0 := by simpa using probe_free finds
  obtain ⟨gap, near, there, before⟩ := probe_run inside finds
  have bound : slot < size := by
    rw [there]
    exact Nat.mod_lt _ (by omega)
  have kept (place : Nat) (used : entry place ≠ 0) : after place = entry place := by
    refine others place fun same => used ?_
    rw [same]
    exact free
  have grown (place : Nat) (used : entry place ≠ 0) : after place ≠ 0 := by
    rw [kept place used]
    exact used
  have known (place : Nat) (within : place < size) (used : entry place ≠ 0) : newKey (entry place) = key (entry place) :=
    keys _ (Nat.pos_of_ne_zero used) (filled.named place within)
  refine ⟨fun place within => ?_, fun place within used => ?_, fun position positive small => ?_,
    fun k one two less within usedOne usedTwo keyOne keyTwo => ?_, ?_⟩
  · by_cases same : place = slot
    · rw [same, taken]
    · rw [others place same]
      exact Nat.le_succ_of_le (filled.named place within)
  · by_cases same : place = slot
    · rw [same, taken]
      refine ⟨gap, near, there, fun j inside => ?_⟩
      rcases Nat.lt_or_eq_of_le inside with less | rfl
      · exact grown _ (by simpa using before j less)
      · rw [← there, taken]
        exact Nat.succ_ne_zero p
    · rw [others place same] at used ⊢
      rw [known place within used]
      exact (filled.reached place within used).grow grown
  · rcases Nat.lt_or_eq_of_le small with less | rfl
    · obtain ⟨place, within, names⟩ := filled.listed position positive (Nat.le_of_lt_succ less)
      refine ⟨place, within, (kept place ?_).trans names⟩
      omega
    · exact ⟨slot, bound, taken⟩
  · have inTable (j : Nat) : (hash k + j) % size < size := Nat.mod_lt _ (by omega)
    by_cases last : (hash k + two) % size = slot
    · rw [last, taken]
      have other : (hash k + one) % size ≠ slot := by
        intro same
        have equal := gap_unique (by omega) within (same.trans last.symm)
        omega
      rw [others _ other]
      exact Nat.lt_succ_of_le (filled.named _ (inTable one))
    · rw [others _ last] at usedTwo keyTwo ⊢
      rw [known _ (inTable two) usedTwo] at keyTwo
      by_cases first : (hash k + one) % size = slot
      · -- An entry of the same key behind the first free slot would have left no free slot before it.
        obtain ⟨far, small, same, between⟩ := filled.reached _ (inTable two) usedTwo
        rw [keyTwo] at same between
        obtain rfl := gap_unique within small same
        exact absurd free (by rw [← first]; exact between one (by omega))
      · rw [others _ first] at usedOne keyOne ⊢
        rw [known _ (inTable one) usedOne] at keyOne
        exact filled.inOrder k one two less within usedOne usedTwo keyOne keyTwo
  · rw [← filled.used]
    refine occupied_put bound (by simp [free]) (by simp [taken]) fun place apart => ?_
    rw [others place apart]

end Put

private theorem last_hit (hit : Nat → Bool) (next : Nat → Nat) (found gap : Nat) :
    (((List.range gap).map next).foldl (fun found next => if hit next then next else found) found = found ∧
      ∀ j < gap, hit (next j) = false) ∨
    ∃ j < gap, ((List.range gap).map next).foldl (fun found next => if hit next then next else found) found = next j ∧
      hit (next j) = true ∧ ∀ i, j < i → i < gap → hit (next i) = false := by
  induction gap with
  | zero => exact .inl ⟨rfl, fun j none_ => absurd none_ (Nat.not_lt_zero j)⟩
  | succ gap ih =>
    rw [List.range_succ, List.map_append, List.foldl_append, List.map_singleton, List.foldl_cons, List.foldl_nil]
    by_cases last : hit (next gap) = true
    · rw [if_pos last]
      exact .inr ⟨gap, Nat.lt_succ_self gap, rfl, last, fun i above below => by omega⟩
    · rw [if_neg last]
      have missed (i : Nat) (below : i < gap + 1) (earlier : i < gap → hit (next i) = false) : hit (next i) = false := by
        rcases Nat.lt_or_eq_of_le (Nat.le_of_lt_succ below) with less | rfl
        · exact earlier less
        · simpa using last
      rcases ih with ⟨same, none_⟩ | ⟨j, inside, same, here, later⟩
      · exact .inl ⟨same, fun i below => missed i below fun less => none_ i less⟩
      · exact .inr ⟨j, Nat.lt_succ_of_lt inside, same, here, fun i above below => missed i below fun less => later i above less⟩

/-- A lookup finds the greatest position it asks for. -/
theorem Filled.chase {k : κ} {hit : Nat → Bool} (filled : Filled size hash entry key p) (inside : hash k < size)
    (room : p < size) (asked : ∀ position, hit position = true → key position = k) :
    chase size entry hit (size + 1) (hash k) 0 = some (Nat.findGreatest (fun position => hit position = true) p) := by
  have within (j : Nat) : (hash k + j) % size < size := Nat.mod_lt _ (by omega)
  obtain ⟨slot, bound, free⟩ := exists_free (show occupied size (fun slot => entry slot != 0) < size by rw [filled.used]; exact room)
  obtain ⟨gap, near, ended, run⟩ := first_free ⟨slot, bound, by simpa using free⟩ inside
  -- Every position that is asked for lies in the run.
  have met (position : Nat) (positive : 1 ≤ position) (small : position ≤ p) (wanted : hit position = true) :
      ∃ j < gap, entry ((hash k + j) % size) = position := by
    obtain ⟨place, tabled, names⟩ := filled.listed position positive small
    obtain ⟨j, short, there, between⟩ := filled.reached place tabled (by omega)
    rw [names, asked position wanted] at there between
    refine ⟨j, ?_, by rw [← there, names]⟩
    by_contra beyond
    exact between gap (by omega) ended
  rw [chase_run (by omega) inside run ended, Option.some.injEq, eq_comm, Nat.findGreatest_eq_iff]
  rcases last_hit hit (fun j => entry ((hash k + j) % size)) 0 gap with ⟨same, none_⟩ | ⟨j, short, same, here, later⟩
  · rw [same]
    refine ⟨Nat.zero_le p, fun some_ => absurd rfl some_, fun position positive small wanted => ?_⟩
    obtain ⟨j, short, names⟩ := met position positive small wanted
    have missed := none_ j short
    rw [names, wanted] at missed
    cases missed
  · rw [same]
    refine ⟨filled.named _ (within j), fun _ => here, fun position above small wanted => ?_⟩
    obtain ⟨i, low, names⟩ := met position (by omega) small wanted
    rcases Nat.lt_trichotomy i j with less | rfl | more
    · have sorted := filled.inOrder k i j less (by omega) (run i low) (run j short)
        (by rw [names]; exact asked position wanted) (asked _ here)
      omega
    · omega
    · have missed := later i more low
      rw [names, wanted] at missed
      cases missed

end Literaft.Library
