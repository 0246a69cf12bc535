import Mathlib.Data.List.Basic

/-! A database table with an integer primary key, as the statements on it see it. -/

namespace Literaft.Library

abbrev Table (ρ : Type) := List (Int × ρ)

namespace Table
variable {ρ : Type}

/-- `INSERT … ON CONFLICT DO UPDATE` of all columns. -/
def upsert (t : Table ρ) (key : Int) (row : ρ) : Table ρ := (key, row) :: t.filter fun entry => entry.1 ≠ key

/-- `SELECT … WHERE key = ?`. -/
def select (t : Table ρ) (key : Int) : Option ρ := (t.find? fun entry => entry.1 = key).map Prod.snd

/-- `DELETE … WHERE key BETWEEN ? AND ?`. -/
def deleteBetween (t : Table ρ) (low high : Int) : Table ρ := t.filter fun entry => ¬ (low ≤ entry.1 ∧ entry.1 ≤ high)

/-- `SELECT MIN(key)`. -/
def minKey (t : Table ρ) : Option Int := (t.map Prod.fst).min?

/-- `SELECT MAX(key)`. -/
def maxKey (t : Table ρ) : Option Int := (t.map Prod.fst).max?

theorem select_upsert (t : Table ρ) (key other : Int) (row : ρ) :
    (t.upsert key row).select other = if other = key then some row else t.select other := by
  unfold upsert select
  by_cases same : other = key
  · subst same
    simp
  · have differs : ¬ key = other := fun equal => same equal.symm
    rw [if_neg same, List.find?_cons_of_neg (by simpa using differs), List.find?_filter]
    congr 2
    funext entry
    by_cases here : entry.1 = other <;> simp [here, same]

theorem select_deleteBetween (t : Table ρ) (low high key : Int) :
    (t.deleteBetween low high).select key = if low ≤ key ∧ key ≤ high then none else t.select key := by
  unfold deleteBetween select
  rw [List.find?_filter]
  split
  · next inside =>
    rw [List.find?_eq_none.mpr, Option.map_none]
    intro entry _
    by_cases here : entry.1 = key <;> simp [here, inside]
  · next outside =>
    congr 2
    funext entry
    by_cases here : entry.1 = key <;> simp [here, outside]

theorem isSome_select_iff {t : Table ρ} {key : Int} : (t.select key).isSome ↔ key ∈ t.map Prod.fst := by
  simp [select, List.find?_isSome]

theorem minKey_eq_some_iff {t : Table ρ} {key : Int} :
    t.minKey = some key ↔ (t.select key).isSome ∧ ∀ other, (t.select other).isSome → key ≤ other := by
  simp only [minKey, List.min?_eq_some_iff, isSome_select_iff]

theorem maxKey_eq_some_iff {t : Table ρ} {key : Int} :
    t.maxKey = some key ↔ (t.select key).isSome ∧ ∀ other, (t.select other).isSome → other ≤ key := by
  simp only [maxKey, List.max?_eq_some_iff, isSome_select_iff]

theorem select_eq_none_iff {t : Table ρ} : (∀ key, t.select key = none) ↔ t = [] := by
  constructor
  · intro empty
    cases t with
    | nil => rfl
    | cons entry rest => simpa [select] using empty entry.1
  · rintro rfl key
    rfl

theorem minKey_eq_none_iff {t : Table ρ} : t.minKey = none ↔ ∀ key, t.select key = none := by
  rw [minKey, List.min?_eq_none_iff, List.map_eq_nil_iff, select_eq_none_iff]

theorem maxKey_eq_none_iff {t : Table ρ} : t.maxKey = none ↔ ∀ key, t.select key = none := by
  rw [maxKey, List.max?_eq_none_iff, List.map_eq_nil_iff, select_eq_none_iff]

end Table

end Literaft.Library
