import Literaft.Proofs.Visible

/-! The write lock that a handler lends to `Apply`. Nothing makes the handler's release
wait for an `Apply` that has already got the loan, so what `Apply` does under the loan is
safe exactly while that order is kept. -/

namespace Literaft.Proofs.Loans
open Library Fsm Proto Cluster Tracking Visible

variable {ι : Type} [DecidableEq ι] {start : Database Bytes} {s : State ι}

/-- A handler releases only while `Apply` is not between getting its loan and storing
`lastApplied`. -/
def unhurried (s : State ι) : Action ι → Bool
  | .release n id _ _ => (loan (s.nodes n).pc).all (·.id ≠ id)
  | _ => true

/-- The lock is held for what `Apply` is about to write or store, by the handler of the
entry or by `Apply` itself, and `Apply` has not panicked. -/
def Guarded (lock : Option Holder) : ApplyPc → Prop
  | .appending e .loan _ | .appended e .loan => ∃ base hpc, lock = some (.handler e.id base hpc)
  | .appending _ .own _ | .appended _ .own => lock = some .apply
  | .panicked => False
  | _ => True

/-- Whatever `Apply` has got on loan is still held by the handler that lent it. -/
structure Lent (lock : Option Holder) (pc : ApplyPc) : Prop where
  kept : ∀ e, loan pc = some e → ∃ base hpc, lock = some (.handler e.id base hpc)
  running : pc ≠ .panicked

theorem Lent.setLock {lock : Option Holder} {pc : ApplyPc} (lent : Lent lock pc)
    (unlent : ∀ id base hpc, lock ≠ some (.handler id base hpc)) (lock' : Option Holder) : Lent lock' pc := by
  refine ⟨fun e found => ?_, lent.running⟩
  obtain ⟨base, hpc, locked⟩ := lent.kept e found
  exact absurd locked (unlent e.id base hpc)

theorem Lent.handler {id base : Nat} {hpc : HandlerPc} {pc : ApplyPc} (lent : Lent (some (.handler id base hpc)) pc)
    (hpc' : HandlerPc) : Lent (some (.handler id base hpc')) pc := by
  refine ⟨fun e found => ?_, lent.running⟩
  obtain ⟨base', hpc, locked⟩ := lent.kept e found
  cases locked
  exact ⟨base, hpc', rfl⟩

theorem Lent.release {id base : Nat} {hpc : HandlerPc} {pc : ApplyPc} (lent : Lent (some (.handler id base hpc)) pc)
    (done : (loan pc).all (·.id ≠ id) = true) : Lent none pc := by
  refine ⟨fun e found => ?_, lent.running⟩
  obtain ⟨base', hpc, locked⟩ := lent.kept e found
  cases locked
  simp [found] at done

theorem Lent.of_none {lock : Option Holder} {pc : ApplyPc} (nothing : loan pc = none) (running : pc ≠ .panicked) :
    Lent lock pc :=
  ⟨fun e found => by simp [nothing] at found, running⟩

theorem Lent.setPc {lock : Option Holder} {pc pc' : ApplyPc} (lent : Lent lock pc)
    (same : ∀ e, loan pc' = some e → loan pc = some e) (running : pc' ≠ .panicked) : Lent lock pc' :=
  ⟨fun e found => lent.kept e (same e found), running⟩

private theorem Local.lender {ι : Type} {committed : List (Option Entry)} {authors : Nat → Option (Author ι)} {node : Node}
    (local' : Local start committed authors node) {id : Nat} (found : node.fsm.loans id = true) :
    ∃ base hpc, node.lock = some (.handler id base hpc) := by
  have held := local'.held
  generalize node.lock = lock at held ⊢
  match lock, held with
  | none, held | some .opened, held | some (.writer _ _), held => simp [held.2.1] at found
  | some .apply, held => simp [held.2] at found
  | some (.handler other base hpc), held =>
    by_cases same : id = other
    · exact ⟨base, hpc, by rw [same]⟩
    · simp [held.2.1 id same] at found

theorem Lent.validate {node : Node} {e : Entry} (lent : Lent node.lock node.pc) (loaned : node.pc = .loaned e) :
    Lent node.lock (node.validate e).pc := by
  obtain ⟨base, hpc, locked⟩ := lent.kept e (by rw [loaned]; rfl)
  have valid : (node.validate e).pc = .appending e .loan 0 := by simp [Node.validate, locked]
  rw [valid]
  exact lent.setPc (by simp [loaned, loan]) (by simp)

theorem Lent.append {node : Node} {e : Entry} {via : Via} {written : Nat} (lent : Lent node.lock node.pc)
    (appending : node.pc = .appending e via written) : Lent node.lock (node.append e via written).pc := by
  unfold Node.append
  split <;> refine lent.setPc ?_ (by simp) <;> cases via <;> simp [appending, loan]

theorem lent_step {action : Action ι} (everywhere : Everywhere start s) (met : unhurried s action = true)
    (enabled : s.enabled action) (lent : ∀ n, Lent (s.nodes n).lock (s.nodes n).pc) (m : ι) :
    Lent ((s.effect action).nodes m).lock ((s.effect action).nodes m).pc := by
  have at' {s' : State ι} {n : ι} {node : Node} (nodes : s'.nodes = Function.update s.nodes n node)
      (self : Lent node.lock node.pc) : Lent (s'.nodes m).lock (s'.nodes m).pc := by
    rw [nodes]
    by_cases same : m = n
    · subst same
      simpa using self
    · simpa [same] using lent m
  have locks {n : ι} {holder : Option Holder} (held : s.holder n = holder)
      (unlent : ∀ id base hpc, holder ≠ some (.handler id base hpc)) (lock : Option Holder) :
      Lent lock (s.nodes n).pc :=
    (lent n).setLock (fun id base hpc locked => unlent id base hpc (held.symm.trans locked)) lock
  have handles {n : ι} {id base : Nat} {hpc : HandlerPc} (held : s.holder n = some (.handler id base hpc)) :
      Lent (some (.handler id base hpc)) (s.nodes n).pc := held ▸ lent n
  cases action with
  | lock n => exact at' rfl (locks enabled (by simp) _)
  | compute n | accept n | retry n | decline n | lose n | resolve n | publish n =>
    exact at' rfl (locks enabled.1 (by simp) _)
  | mark n | reject n | forward n | await n | finish n => exact at' rfl (locks enabled (by simp) _)
  | unlock n holder =>
    refine at' rfl (locks enabled.1 ?_ _)
    rintro id base hpc ⟨⟩
    cases enabled.2
  | serve id base target => exact at' rfl (locks enabled.2 (by simp) _)
  | dismiss | barrier | drain | commit => exact lent m
  | check n id base | refuse n id base => exact at' rfl ((handles enabled).handler _)
  | take n id base | settle n id base => exact at' rfl ((handles enabled.1).handler _)
  | release n id base taken => exact at' rfl ((handles enabled).release met)
  | skip n => exact at' rfl (lent n)
  | apply n e =>
    refine at' rfl ?_
    unfold Node.apply
    split
    · exact lent n
    · exact .of_none rfl (by simp)
  | getLoan n e =>
    refine at' rfl ⟨fun e' found => ?_, by dsimp only; split <;> simp⟩
    dsimp only at found ⊢
    split at found
    · cases found
      exact Local.lender (everywhere n) (by assumption)
    · cases found
  | validate n e =>
    refine at' rfl ?_
    rw [validate_lock]
    exact (lent n).validate enabled
  | acquire n e => exact at' rfl (.of_none rfl (by simp))
  | append n e via written =>
    refine at' rfl ?_
    rw [append_lock]
    exact (lent n).append enabled
  | store n e via => exact at' rfl (by cases via <;> exact .of_none rfl (by simp [Node.store]))
  | releaseOwn n | snapshot n | backup n => exact at' rfl (.of_none rfl (by simp))
  | elect n | stepDown n => exact at' rfl (lent n)

/-- `Apply` works under its own lock only while it holds it. -/
theorem Local.own {ι : Type} {committed : List (Option Entry)} {authors : Nat → Option (Author ι)} {node : Node}
    (local' : Local start committed authors node) (mine : owns node.pc = true) : node.lock = some .apply := by
  have held := local'.held
  generalize node.lock = lock at held ⊢
  match lock, held with
  | some .apply, _ => rfl
  | none, held | some .opened, held | some (.handler _ _ _), held => cases mine.symm.trans held.2.2
  | some (.writer _ _), held => cases mine.symm.trans held.2.2.1

theorem Lent.guarded {ι : Type} {committed : List (Option Entry)} {authors : Nat → Option (Author ι)} {node : Node}
    (lent : Lent node.lock node.pc) (local' : Local start committed authors node) : Guarded node.lock node.pc := by
  have own (mine : owns node.pc = true) : node.lock = some .apply := Local.own local' mine
  have kept := lent.kept
  have running := lent.running
  generalize node.pc = pc at own kept running ⊢
  cases pc with
  | appending e via written =>
    cases via with
    | loan => exact kept e rfl
    | own => exact own rfl
  | appended e via =>
    cases via with
    | loan => exact kept e rfl
    | own => exact own rfl
  | panicked => exact running rfl
  | _ => trivial

/-- In a run in which no handler releases between `Apply`'s `getLoan` and its store of
`lastApplied`, `Apply` writes and stores under a held lock only, and never panics. -/
theorem apply_guarded {actions : List (Action ι)}
    (executed : exec (restrict (unhurried · ·) State.step) (State.init start) actions = some s) (n : ι) :
    Guarded (s.nodes n).lock (s.nodes n).pc := by
  obtain ⟨-, everywhere, lent⟩ := exec_everywhere (fun s => ∀ n, Lent (s.nodes n).lock (s.nodes n).pc)
    (fun _ => .of_none rfl (by simp [State.init]))
    (fun _ everywhere met enabled lent => lent_step everywhere met enabled lent) executed
  exact (lent n).guarded (everywhere n)

/-- Node `true` forwards entry 1 to `false`, the leader of term 1, which takes it. -/
def forwarded : List (Action Bool) :=
  [.elect false 1 0 0, .lock true, .compute true 1 write, .mark true 1, .forward true 1 false, .serve 1 0 false,
    .check false 1 0, .take false 1 0 1 write]

/-- The entry commits while the handler waits, and `Apply` gets its lock. -/
def lending : List (Action Bool) := [.commit 1 1, .apply false ⟨1, write⟩, .getLoan false ⟨1, write⟩]

theorem lending_guarded :
    ∃ s, exec (restrict (unhurried · ·) State.step) (State.init empty)
        (forwarded ++ lending ++ [.validate false ⟨1, write⟩, .append false ⟨1, write⟩ .loan 0]) = some s ∧
      (s.nodes false).pc = .appended ⟨1, write⟩ .loan ∧ Guarded (s.nodes false).lock (s.nodes false).pc := by
  have found : (exec (restrict (unhurried · ·) State.step) (State.init empty)
      (forwarded ++ lending ++ [.validate false ⟨1, write⟩, .append false ⟨1, write⟩ .loan 0])).map
        (fun s => (s.nodes false).pc) = some (.appended ⟨1, write⟩ .loan) := rfl
  obtain ⟨s, executed, pc⟩ := Option.map_eq_some_iff.mp found
  exact ⟨s, executed, pc, apply_guarded executed false⟩

/-- The leader steps down while the handler waits. The entry commits under the next leader,
and the handler, whose future fails, releases after `Apply` has got the loan. -/
def overtaken : List (Action Bool) :=
  [.stepDown false, .elect true 2 1 1, .commit 2 1, .apply false ⟨1, write⟩, .getLoan false ⟨1, write⟩]

def released : List (Action Bool) := [.settle false 1 0 1 0 false, .release false 1 0 true]

/-- Depending on whether the release comes before or after the check of the loan, `Apply`
panics, or it is about to write with nobody holding the lock. -/
theorem overtaken_unguarded :
    (∃ s, exec State.step (State.init empty) (forwarded ++ overtaken ++ released ++ [.validate false ⟨1, write⟩]) = some s ∧
      (s.nodes false).pc = .panicked ∧ ¬Guarded (s.nodes false).lock (s.nodes false).pc) ∧
    ∃ s, exec State.step (State.init empty) (forwarded ++ overtaken ++ [.validate false ⟨1, write⟩] ++ released) = some s ∧
      (s.nodes false).pc = .appending ⟨1, write⟩ .loan 0 ∧ (s.nodes false).lock = none ∧
      ¬Guarded (s.nodes false).lock (s.nodes false).pc := by
  have panics : (exec State.step (State.init empty)
      (forwarded ++ overtaken ++ released ++ [.validate false ⟨1, write⟩])).map (fun s => (s.nodes false).pc) =
        some .panicked := rfl
  have writes : (exec State.step (State.init empty)
      (forwarded ++ overtaken ++ [.validate false ⟨1, write⟩] ++ released)).map
        (fun s => ((s.nodes false).pc, (s.nodes false).lock)) = some (.appending ⟨1, write⟩ .loan 0, none) := rfl
  obtain ⟨s, executed, pc⟩ := Option.map_eq_some_iff.mp panics
  obtain ⟨s', executed', summary⟩ := Option.map_eq_some_iff.mp writes
  obtain ⟨pc', lock⟩ := Prod.mk.inj summary
  exact ⟨⟨s, executed, pc, by simp [pc, Guarded]⟩, s', executed', pc', lock, by simp [pc', lock, Guarded]⟩

end Literaft.Proofs.Loans
