import Mathlib.Logic.Basic

/-! Machines that take one labelled step at a time. An action that is not enabled
has no successor, so every interleaving of several parties is a list of actions. -/

namespace Literaft.Library

variable {σ α : Type} {step : σ → α → Option σ}

def exec (step : σ → α → Option σ) : σ → List α → Option σ
  | state, [] => some state
  | state, action :: rest => (step state action).bind fun next => exec step next rest

theorem exec_append (state : σ) (actions more : List α) :
    exec step state (actions ++ more) = (exec step state actions).bind fun next => exec step next more := by
  induction actions generalizing state with
  | nil => rfl
  | cons action rest ih =>
    rw [List.cons_append, exec, exec]
    cases step state action with
    | none => rfl
    | some next => exact ih next

/-- What every step preserves, every run preserves. -/
theorem exec_invariant (inv : σ → Prop)
    (preserved : ∀ before action after, inv before → step before action = some after → inv after)
    {before after : σ} {actions : List α} (initial : inv before) (executed : exec step before actions = some after) :
    inv after := by
  induction actions generalizing before with
  | nil =>
    cases executed
    exact initial
  | cons action rest ih =>
    obtain ⟨next, first, remaining⟩ := Option.bind_eq_some_iff.mp executed
    exact ih (preserved _ _ _ initial first) remaining

/-- The same for the runs whose every action meets a condition. -/
theorem exec_invariant_of (meets : α → Prop) (inv : σ → Prop)
    (preserved : ∀ before action after, inv before → meets action → step before action = some after → inv after)
    {before after : σ} {actions : List α} (initial : inv before) (all : ∀ action ∈ actions, meets action)
    (executed : exec step before actions = some after) : inv after := by
  induction actions generalizing before with
  | nil =>
    cases executed
    exact initial
  | cons action rest ih =>
    obtain ⟨next, first, remaining⟩ := Option.bind_eq_some_iff.mp executed
    rw [List.forall_mem_cons] at all
    exact ih (preserved _ _ _ initial all.1 first) all.2 remaining

def restrict (meets : σ → α → Prop) [∀ state action, Decidable (meets state action)]
    (step : σ → α → Option σ) : σ → α → Option σ :=
  fun state action => if meets state action then step state action else none

theorem restrict_eq_some {meets : σ → α → Prop} [∀ state action, Decidable (meets state action)]
    {before after : σ} {action : α} :
    restrict meets step before action = some after ↔ meets before action ∧ step before action = some after := by
  simp [restrict]

section Parties
variable {p : α → Bool} {l : List α} {i j : Nat} {a b : α}

/-- A step of one party of a list counts it anew. -/
theorem countP_set_add (found : l[i]? = some a) (b : α) :
    (l.set i b).countP p + (if p a then 1 else 0) = l.countP p + if p b then 1 else 0 := by
  obtain ⟨inside, rfl⟩ := List.getElem?_eq_some_iff.mp found
  have least := List.boole_getElem_le_countP (p := p) inside
  rw [List.countP_set inside]
  omega

/-- At most one party is in a state of some kind. -/
theorem index_unique (most : l.countP p ≤ 1) (first : l[i]? = some a) (second : l[j]? = some b) (one : p a = true)
    (two : p b = true) : i = j := by
  induction l generalizing i j with
  | nil => simp at first
  | cons x rest ih =>
    have none_ {k : Nat} {c : α} (here : p x = true) (found : rest[k]? = some c) (also : p c = true) : False := by
      have some_ := List.countP_pos_iff.mpr ⟨c, List.mem_of_getElem? found, also⟩
      rw [List.countP_cons_of_pos here] at most
      omega
    cases i with
    | zero =>
      cases j with
      | zero => rfl
      | succ j =>
        obtain rfl : x = a := by simpa using first
        exact (none_ one (by simpa using second) two).elim
    | succ i =>
      cases j with
      | zero =>
        obtain rfl : x = b := by simpa using second
        exact (none_ two (by simpa using first) one).elim
      | succ j =>
        have fewer : rest.countP p ≤ 1 := by
          rw [List.countP_cons] at most
          omega
        have same : i = j := ih fewer (by simpa using first) (by simpa using second)
        rw [same]

end Parties

end Literaft.Library
