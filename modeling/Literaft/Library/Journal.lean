import Mathlib.Data.List.Induction

/-! A log whose entries are changes of some state, or nothing that concerns it. Entries
are numbered from one. -/

namespace Literaft.Library

variable {D E : Type} {apply : D → E → D} {start : D}

def replay (apply : D → E → D) (start : D) (log : List (Option E)) : D :=
  log.foldl (fun state item => item.elim state (apply state)) start

def lastChange : List (Option E) → Nat
  | [] => 0
  | item :: rest => if lastChange rest ≠ 0 then lastChange rest + 1 else if item.isSome then 1 else 0

@[simp] theorem replay_append_none (log : List (Option E)) :
    replay apply start (log ++ [none]) = replay apply start log := by
  simp [replay]

@[simp] theorem replay_append_some (log : List (Option E)) (entry : E) :
    replay apply start (log ++ [some entry]) = apply (replay apply start log) entry := by
  simp [replay]

@[simp] theorem lastChange_append_none (log : List (Option E)) : lastChange (log ++ [none]) = lastChange log := by
  induction log with
  | nil => rfl
  | cons item rest ih => simp [lastChange, ih]

@[simp] theorem lastChange_append_some (log : List (Option E)) (entry : E) :
    lastChange (log ++ [some entry]) = log.length + 1 := by
  induction log with
  | nil => rfl
  | cons item rest ih => simp [lastChange, ih]

theorem lastChange_le (log : List (Option E)) : lastChange log ≤ log.length := by
  induction log with
  | nil => exact Nat.le_refl 0
  | cons item rest ih =>
    rw [lastChange, List.length_cons]
    split
    · exact Nat.succ_le_succ ih
    · split <;> omega

/-- What comes after the last change does not matter. -/
theorem replay_take_lastChange (log : List (Option E)) :
    replay apply start (log.take (lastChange log)) = replay apply start log := by
  induction log using List.reverseRecOn with
  | nil => rfl
  | append_singleton log item ih =>
    cases item with
    | none =>
      rw [lastChange_append_none, List.take_append_of_le_length (lastChange_le log), ih, replay_append_none]
    | some entry => rw [lastChange_append_some, List.take_of_length_le (by simp)]

theorem replay_take_of_none {log : List (Option E)} {k : Nat}
    (quiet : ∀ (i : Nat) (entry : E), k ≤ i → log[i]? ≠ some (some entry)) :
    replay apply start (log.take k) = replay apply start log := by
  induction log using List.reverseRecOn with
  | nil => simp
  | append_singleton log item ih =>
    by_cases inside : k ≤ log.length
    · cases item with
      | none =>
        rw [List.take_append_of_le_length inside, replay_append_none]
        refine ih fun i entry later found => quiet i entry later ?_
        rw [List.getElem?_append_left (List.getElem?_eq_some_iff.mp found).choose]
        exact found
      | some entry => exact absurd (by simp) (quiet log.length entry inside)
    · rw [List.take_of_length_le (by rw [List.length_append]; simp; omega)]

theorem take_succ_eq {log : List (Option E)} {k : Nat} {item : Option E} (found : log[k]? = some item) :
    log.take (k + 1) = log.take k ++ [item] := by
  rw [List.take_add_one, found]
  rfl

theorem take_eq_of_grown {log longer : List (Option E)} (grown : log <+: longer) {k : Nat} (inside : k ≤ log.length) :
    longer.take k = log.take k := by
  obtain ⟨rest, rfl⟩ := grown
  exact List.take_append_of_le_length inside

/-- Every change was computed from what the log before it gives. -/
def Chained (apply : D → E → D) (start : D) (source : E → D → Prop) (log : List (Option E)) : Prop :=
  ∀ (i : Nat) (entry : E), log[i]? = some (some entry) → source entry (replay apply start (log.take i))

variable {source : E → D → Prop}

theorem Chained.earlier {log longer : List (Option E)} (chained : Chained apply start source longer)
    (grown : log <+: longer) : Chained apply start source log := by
  intro i entry found
  have inside : i < log.length := (List.getElem?_eq_some_iff.mp found).choose
  rw [← take_eq_of_grown grown (Nat.le_of_lt inside)]
  obtain ⟨rest, rfl⟩ := grown
  exact chained i entry (by rw [List.getElem?_append_left inside]; exact found)

theorem Chained.mono {log : List (Option E)} {source' : E → D → Prop} (chained : Chained apply start source log)
    (weaker : ∀ entry state, source entry state → source' entry state) : Chained apply start source' log :=
  fun i entry found => weaker entry _ (chained i entry found)

theorem Chained.append {log : List (Option E)} {item : Option E} (chained : Chained apply start source log)
    (computed : ∀ entry, item = some entry → source entry (replay apply start log)) :
    Chained apply start source (log ++ [item]) := by
  intro i entry found
  by_cases inside : i < log.length
  · rw [List.getElem?_append_left inside] at found
    rw [List.take_append_of_le_length (Nat.le_of_lt inside)]
    exact chained i entry found
  · have last : i = log.length := by
      have := (List.getElem?_eq_some_iff.mp found).choose
      simp at this
      omega
    subst last
    simp only [List.getElem?_concat_length, Option.some.injEq] at found
    simpa using computed entry found

end Literaft.Library
