import Literaft.Leadership

/-! `ready` is worth something only once the notification of the current leadership has
been received and has cleared it. -/

namespace Literaft.Proofs.Fencing
open Library Leadership

def received : Watch → Bool
  | .received _ => true
  | _ => false

/-- A change of leadership that `watchLeadership` has not yet answered by clearing `ready`. -/
def Notifying (s : State) : Prop := s.unposted ≠ none ∨ s.leaderCh ≠ none ∨ received s.watch = true

instance (s : State) : Decidable (Notifying s) := inferInstanceAs (Decidable (_ ∨ _ ∨ _))

def holds : Drain → Bool
  | .locked _ _ | .lockedState _ _ | .lockedTerm _ _ => true
  | _ => false

/-- The barrier of a drain has completed, in its own term or in a later one. -/
def Passed (s : State) (term issued : Nat) : Prop := term ≤ issued ∧ issued ≤ s.term ∧ s.drained issued = true

def Knows (s : State) : Drain → Prop
  | .idle | .entered _ | .stateChecked _ => True
  | .checked term => term ≤ s.term
  | .waiting term issued index =>
    term ≤ issued ∧ issued ≤ s.term ∧ (s.leader = true → issued = s.term → s.elected < index)
  | .completed term issued | .locked term issued => Passed s term issued
  | .lockedState term issued => Passed s term issued ∧ (s.leader = true ∨ Notifying s)
  | .lockedTerm term issued => Passed s term issued ∧ (s.leader = true ∧ s.term = term ∨ Notifying s)

structure Fenced (s : State) : Prop where
  drains : ∀ d, Knows s (s.drains d)
  mutex : ∀ d, holds (s.drains d) = true → s.readyMu = some d
  ready : s.ready = true → Notifying s ∨ s.leader = true ∧ s.drained s.term = true
  past : ∀ term, s.drained term = true → term ≤ s.term
  grown : s.leader = true → s.elected ≤ s.log
  backlog : s.leader = true → s.drained s.term = true → s.elected ≤ s.applied
  proposers : ∀ p term, s.proposers p = .ready term → s.drained term = true

/-- A later state of which every drain knows no less. -/
structure Later (s s' : State) : Prop where
  term : s.term ≤ s'.term
  drained : ∀ term, s.drained term = true → s'.drained term = true
  stint : s'.leader = true → s'.term = s.term → s.leader = true ∧ s'.elected = s.elected
  notifying : Notifying s → Notifying s'
  leads : s.leader = true → s'.leader = true ∧ s'.term = s.term ∨ Notifying s'

/-- The fields named here say nothing about the current leadership. -/
theorem later_aside (s : State) (log applied : Nat) (ready : Bool) (readyMu : Option Nat) (drains : Nat → Drain)
    (proposers : Nat → Proposer) :
    Later s { s with
      log := log, applied := applied, ready := ready, readyMu := readyMu, drains := drains, proposers := proposers } :=
  ⟨Nat.le_refl _, fun _ => id, fun leads _ => ⟨leads, rfl⟩, id, fun leads => .inl ⟨leads, rfl⟩⟩

theorem Passed.later {s s' : State} {term issued : Nat} (passed : Passed s term issued) (later : Later s s') :
    Passed s' term issued :=
  ⟨passed.1, Nat.le_trans passed.2.1 later.term, later.drained _ passed.2.2⟩

theorem Knows.later {s s' : State} {pc : Drain} (knows : Knows s pc) (later : Later s s') : Knows s' pc := by
  cases pc with
  | idle | entered | stateChecked => trivial
  | checked term => exact Nat.le_trans knows later.term
  | waiting term issued index =>
    refine ⟨knows.1, Nat.le_trans knows.2.1 later.term, fun leads current => ?_⟩
    have same : s'.term = s.term := Nat.le_antisymm (current ▸ knows.2.1) later.term
    obtain ⟨led, elected⟩ := later.stint leads same
    rw [elected]
    exact knows.2.2 led (current.trans same)
  | completed term issued | locked term issued => exact Passed.later knows later
  | lockedState term issued =>
    refine ⟨Passed.later knows.1 later, ?_⟩
    rcases knows.2 with leads | notifying
    · exact (later.leads leads).imp And.left fun notifying => notifying
    · exact .inr (later.notifying notifying)
  | lockedTerm term issued =>
    refine ⟨Passed.later knows.1 later, ?_⟩
    rcases knows.2 with ⟨leads, same⟩ | notifying
    · exact (later.leads leads).imp (fun kept => ⟨kept.1, kept.2.trans same⟩) fun notifying => notifying
    · exact .inr (later.notifying notifying)

/-- Outside its critical section a drain does not care about notifications. -/
theorem Knows.cleared {s : State} {pc : Drain} {ready : Bool} {watch : Watch} (knows : Knows s pc)
    (outside : ¬holds pc = true) : Knows { s with ready := ready, watch := watch } pc := by
  cases pc with
  | locked | lockedState | lockedTerm => exact absurd rfl outside
  | _ => exact knows

private theorem ready_later {s s' : State} (ready : s.ready = true → Notifying s ∨ s.leader = true ∧ s.drained s.term = true)
    (later : Later s s') : s.ready = true → Notifying s' ∨ s'.leader = true ∧ s'.drained s'.term = true := by
  intro set
  rcases ready set with notifying | ⟨leads, drained⟩
  · exact .inl (later.notifying notifying)
  · rcases later.leads leads with ⟨kept, same⟩ | notifying
    · exact .inr ⟨kept, same ▸ later.drained _ drained⟩
    · exact .inl notifying

/-- A step of raft or of `watchLeadership` that leaves the drains and `ready` alone. -/
theorem Fenced.later {s s' : State} (fenced : Fenced s) (later : Later s s') (drains : s'.drains = s.drains)
    (readyMu : s'.readyMu = s.readyMu) (ready : s'.ready = s.ready) (proposers : s'.proposers = s.proposers)
    (past : ∀ term, s'.drained term = true → term ≤ s'.term) (grown : s'.leader = true → s'.elected ≤ s'.log)
    (backlog : s'.leader = true → s'.drained s'.term = true → s'.elected ≤ s'.applied) : Fenced s' where
  drains := fun d => drains ▸ (fenced.drains d).later later
  mutex := fun d held => readyMu ▸ fenced.mutex d (drains ▸ held)
  ready := fun set => ready_later fenced.ready later (ready ▸ set)
  past := past
  grown := grown
  backlog := backlog
  proposers := fun p term checked => later.drained term (fenced.proposers p term (proposers ▸ checked))

private theorem setDrain_cases {s : State} {d : Nat} {pc : Drain} (motive : Nat → Drain → Prop) (self : motive d pc)
    (others : ∀ other, motive other (s.drains other)) (other : Nat) :
    motive other ((s.setDrain d pc).drains other) := by
  by_cases same : other = d
  · subst same
    simpa [State.setDrain] using self
  · simpa [State.setDrain, same] using others other

theorem Fenced.setDrain {s : State} (fenced : Fenced s) {d : Nat} {pc : Drain} (knows : Knows s pc)
    (mutex : holds pc = true → s.readyMu = some d) : Fenced (s.setDrain d pc) where
  drains := setDrain_cases (fun _ => Knows _) (knows.later (later_aside s ..)) fun other =>
    (fenced.drains other).later (later_aside s ..)
  mutex := setDrain_cases (fun other pc => holds pc = true → s.readyMu = some other) mutex fenced.mutex
  ready := fenced.ready
  past := fenced.past
  grown := fenced.grown
  backlog := fenced.backlog
  proposers := fenced.proposers

theorem Fenced.setProposer {s : State} (fenced : Fenced s) {p : Nat} {pc : Proposer}
    (drained : ∀ term, pc = .ready term → s.drained term = true) : Fenced (s.setProposer p pc) where
  drains := fenced.drains
  mutex := fenced.mutex
  ready := fenced.ready
  past := fenced.past
  grown := fenced.grown
  backlog := fenced.backlog
  proposers := fun other term checked => by
    by_cases same : other = p
    · subst same
      exact drained term (by simpa [State.setProposer] using checked)
    · exact fenced.proposers other term (by simpa [State.setProposer, same] using checked)

theorem Fenced.unlock {s : State} (fenced : Fenced s) {d : Nat} (held : holds (s.drains d) = true) {set : Bool}
    (ready : set = true → Notifying s ∨ s.leader = true ∧ s.drained s.term = true) : Fenced (s.unlock d set) where
  drains := setDrain_cases (fun _ => Knows _) trivial fun other => (fenced.drains other).later (later_aside s ..)
  mutex := fun other inside => by
    exfalso
    by_cases same : other = d
    · subst same
      simp [State.unlock, State.setDrain, holds] at inside
    · have first := fenced.mutex d held
      have second := fenced.mutex other (by simpa [State.unlock, State.setDrain, same] using inside)
      exact same (Option.some.inj (second.symm.trans first))
  ready := ready
  past := fenced.past
  grown := fenced.grown
  backlog := fenced.backlog
  proposers := fenced.proposers

/-- A leader passes the check of `ready` only when no change of leadership waits to be
answered, and raft takes its entry in the term of that check. -/
def Current (s : State) : Action → Prop
  | .checkReady _ => ¬Notifying s
  | .accept p => s.proposers p = .ready s.term
  | _ => True

instance (s : State) : (action : Action) → Decidable (Current s action)
  | .checkReady _ => inferInstanceAs (Decidable (¬_))
  | .accept _ => inferInstanceAs (Decidable (_ = _))
  | .elect _ _ | .stepDown _ | .observe _ | .post | .apply | .receive | .clear | .spawn _ | .drainState _
  | .drainTerm _ | .barrier _ | .barrierDone _ | .barrierFailed _ | .lockReady _ | .readState _ | .readTerm _
  | .setReady _ | .checkState _ | .checkLeader _ | .reject _ => inferInstanceAs (Decidable True)

private theorem fenced_start : Fenced {} where
  drains := fun _ => trivial
  mutex := fun _ held => by cases held
  ready := fun set => by cases set
  past := fun _ drained => by cases drained
  grown := fun leads => by cases leads
  backlog := fun leads => by cases leads
  proposers := fun _ _ checked => by cases checked

private theorem fenced_raft {s s' : State} {action : Action} (fenced : Fenced s)
    (raft : action matches .elect _ _ | .stepDown _ | .observe _ | .post | .apply)
    (executed : step s action = some s') : Fenced s' := by
  cases action with
  | elect term log =>
    simp only [step, Option.ite_none_right_eq_some, Option.some.injEq] at executed
    obtain ⟨⟨follower, newer, applied⟩, rfl⟩ := executed
    have fresh : s.drained term ≠ true := fun drained => Nat.not_le_of_lt newer (fenced.past term drained)
    refine fenced.later ⟨Nat.le_of_lt newer, fun _ => id, ?_, ?_, ?_⟩ rfl rfl rfl rfl ?_ ?_ ?_
    · intro _ same
      exact absurd same (Nat.ne_of_gt newer)
    · exact fun _ => .inl (by simp)
    · exact fun _ => .inr (.inl (by simp))
    · exact fun older drained => Nat.le_trans (fenced.past older drained) (Nat.le_of_lt newer)
    · exact fun _ => Nat.le_refl log
    · exact fun _ drained => absurd drained fresh
  | stepDown term =>
    simp only [step, Option.ite_none_right_eq_some, Option.some.injEq] at executed
    obtain ⟨⟨led, newer⟩, rfl⟩ := executed
    refine fenced.later ⟨newer, fun _ => id, ?_, ?_, ?_⟩ rfl rfl rfl rfl ?_ ?_ ?_
    · exact fun leads => by cases leads
    · exact fun _ => .inl (by simp)
    · exact fun _ => .inr (.inl (by simp))
    · exact fun older drained => Nat.le_trans (fenced.past older drained) newer
    · exact fun leads => by cases leads
    · exact fun leads => by cases leads
  | observe term =>
    simp only [step, Option.ite_none_right_eq_some, Option.some.injEq] at executed
    obtain ⟨⟨follower, newer⟩, rfl⟩ := executed
    have never {goal : Prop} (leads : s.leader = true) : goal := by simp [follower] at leads
    exact fenced.later ⟨newer, fun _ => id, fun leads => never leads, id, fun leads => never leads⟩ rfl rfl rfl rfl
      (fun older drained => Nat.le_trans (fenced.past older drained) newer) (fun leads => never leads)
      (fun leads => never leads)
  | post =>
    simp only [step, Option.ite_none_right_eq_some, Option.some.injEq] at executed
    obtain ⟨change, rfl⟩ := executed
    refine fenced.later ⟨Nat.le_refl _, fun _ => id, fun leads _ => ⟨leads, rfl⟩, ?_, fun leads => .inl ⟨leads, rfl⟩⟩
      rfl rfl rfl rfl fenced.past fenced.grown fenced.backlog
    exact fun _ => .inr (.inl (by simpa [Option.isSome_iff_ne_none] using change))
  | apply =>
    simp only [step, Option.ite_none_right_eq_some, Option.some.injEq] at executed
    obtain ⟨-, rfl⟩ := executed
    exact fenced.later (later_aside s ..) rfl rfl rfl rfl fenced.past fenced.grown
      (fun leads drained => Nat.le_succ_of_le (fenced.backlog leads drained))
  | _ => cases raft

private theorem fenced_watch {s s' : State} {action : Action} (fenced : Fenced s)
    (watch : action matches .receive | .clear | .spawn _) (executed : step s action = some s') : Fenced s' := by
  cases action with
  | receive =>
    simp only [step] at executed
    split at executed
    · next isLeader posted =>
      simp only [Option.ite_none_right_eq_some, Option.some.injEq] at executed
      obtain ⟨-, rfl⟩ := executed
      exact fenced.later
        ⟨Nat.le_refl _, fun _ => id, fun leads _ => ⟨leads, rfl⟩, fun _ => .inr (.inr rfl), fun leads => .inl ⟨leads, rfl⟩⟩
        rfl rfl rfl rfl fenced.past fenced.grown fenced.backlog
    · cases executed
  | clear =>
    simp only [step] at executed
    split at executed
    · next isLeader answering =>
      simp only [Option.ite_none_right_eq_some, Option.some.injEq] at executed
      obtain ⟨free, rfl⟩ := executed
      exact
        { drains := fun d => (fenced.drains d).cleared (fun held => by simpa [free] using fenced.mutex d held)
          mutex := fenced.mutex
          ready := fun set => by cases set
          past := fenced.past
          grown := fenced.grown
          backlog := fenced.backlog
          proposers := fenced.proposers }
    · cases executed
  | spawn d =>
    simp only [step, Option.ite_none_right_eq_some, Option.some.injEq] at executed
    obtain ⟨⟨cleared, -⟩, rfl⟩ := executed
    have idle : Fenced { s with watch := .idle } :=
      fenced.later ⟨Nat.le_refl _, fun _ => id, fun leads _ => ⟨leads, rfl⟩,
        fun notifying => by simpa [Notifying, cleared, received] using notifying, fun leads => .inl ⟨leads, rfl⟩⟩
        rfl rfl rfl rfl fenced.past fenced.grown fenced.backlog
    exact idle.setDrain trivial fun held => by cases held
  | _ => cases watch

theorem Fenced.grow {s : State} (fenced : Fenced s) : Fenced { s with log := s.log + 1 } :=
  fenced.later (later_aside s ..) rfl rfl rfl rfl fenced.past (fun leads => Nat.le_succ_of_le (fenced.grown leads)) fenced.backlog

theorem Fenced.complete {s : State} (fenced : Fenced s) {issued index : Nat} (past : issued ≤ s.term)
    (first : s.leader = true → issued = s.term → s.elected < index) (applied : index ≤ s.applied) :
    Fenced { s with drained := Function.update s.drained issued true } := by
  have kept (term : Nat) (drained : s.drained term = true) : Function.update s.drained issued true term = true := by
    by_cases same : term = issued <;> simp [same, drained]
  refine fenced.later ⟨Nat.le_refl _, kept, fun leads _ => ⟨leads, rfl⟩, id, fun leads => .inl ⟨leads, rfl⟩⟩
    rfl rfl rfl rfl ?_ fenced.grown ?_
  · intro term drained
    by_cases same : term = issued
    · exact same ▸ past
    · exact fenced.past term (by simpa [same] using drained)
  · intro leads drained
    by_cases same : s.term = issued
    · exact Nat.le_trans (Nat.le_of_lt (first leads same.symm)) applied
    · exact fenced.backlog leads (by simpa [same] using drained)

theorem Fenced.lock {s : State} (fenced : Fenced s) (free : s.readyMu = none) {d term issued : Nat}
    (passed : Passed s term issued) : Fenced ({ s with readyMu := some d }.setDrain d (.locked term issued)) where
  drains := setDrain_cases (fun _ => Knows _)
    (show Knows _ (.locked term issued) from passed) fun other => (fenced.drains other).later (later_aside s ..)
  mutex := setDrain_cases (fun other pc => holds pc = true → some d = some other) (fun _ => rfl) fun other held => by
    simpa [free] using fenced.mutex other held
  ready := fenced.ready
  past := fenced.past
  grown := fenced.grown
  backlog := fenced.backlog
  proposers := fenced.proposers

private theorem fenced_drain {s s' : State} {action : Action} (fenced : Fenced s)
    (drain : action matches .drainState _ | .drainTerm _ | .barrier _ | .barrierDone _ | .barrierFailed _)
    (executed : step s action = some s') : Fenced s' := by
  have outside (d : Nat) {pc : Drain} (free : holds pc = false) : holds pc = true → s.readyMu = some d := by
    simp [free]
  cases action with
  | drainState d =>
    simp only [step] at executed
    split at executed
    · cases executed
      refine fenced.setDrain ?_ (outside d ?_) <;> cases s.leader <;> trivial
    · cases executed
  | drainTerm d =>
    simp only [step] at executed
    split at executed
    · next term checked =>
      cases executed
      by_cases same : s.term = term
      · rw [if_pos same]
        exact fenced.setDrain (Nat.le_of_eq same.symm) (outside d rfl)
      · rw [if_neg same]
        exact fenced.setDrain trivial (outside d rfl)
    · cases executed
  | barrier d =>
    simp only [step] at executed
    split at executed
    · next term checked =>
      simp only [Option.ite_none_right_eq_some, Option.some.injEq] at executed
      obtain ⟨leads, rfl⟩ := executed
      have knows : Knows s (.checked term) := checked ▸ fenced.drains d
      exact fenced.grow.setDrain ⟨knows, Nat.le_refl _, fun leads _ => Nat.lt_succ_of_le (fenced.grown leads)⟩
        (outside d rfl)
    · cases executed
  | barrierDone d =>
    simp only [step] at executed
    split at executed
    · next term issued index waiting =>
      simp only [Option.ite_none_right_eq_some, Option.some.injEq] at executed
      obtain ⟨applied, rfl⟩ := executed
      have knows : Knows s (.waiting term issued index) := waiting ▸ fenced.drains d
      exact (fenced.complete knows.2.1 knows.2.2 applied).setDrain ⟨knows.1, knows.2.1, by simp⟩ (outside d rfl)
    · cases executed
  | barrierFailed d =>
    simp only [step] at executed
    split at executed
    · cases executed
      exact fenced.setDrain trivial (outside d rfl)
    · cases executed
      exact fenced.setDrain trivial (outside d rfl)
    · cases executed
  | _ => cases drain

/-- What a drain found under `readyMu` still stands when it sets `ready`, unless a change
of leadership has been announced since. -/
theorem fenced_critical {s s' : State} {action : Action} (fenced : Fenced s)
    (critical : action matches .lockReady _ | .readState _ | .readTerm _ | .setReady _)
    (executed : step s action = some s') : Fenced s' := by
  cases action with
  | lockReady d =>
    simp only [step] at executed
    split at executed
    · next term issued completed =>
      simp only [Option.ite_none_right_eq_some, Option.some.injEq] at executed
      obtain ⟨free, rfl⟩ := executed
      have knows : Knows s (.completed term issued) := completed ▸ fenced.drains d
      exact fenced.lock free knows
    · cases executed
  | readState d =>
    simp only [step] at executed
    split at executed
    · next term issued locked =>
      have knows : Knows s (.locked term issued) := locked ▸ fenced.drains d
      have held : holds (s.drains d) = true := by rw [locked]; rfl
      split at executed
      · next leads =>
        cases executed
        exact fenced.setDrain ⟨knows, .inl leads⟩ fun _ => fenced.mutex d held
      · cases executed
        exact fenced.unlock held fenced.ready
    · cases executed
  | readTerm d =>
    simp only [step] at executed
    split at executed
    · next term issued locked =>
      have knows : Knows s (.lockedState term issued) := locked ▸ fenced.drains d
      have held : holds (s.drains d) = true := by rw [locked]; rfl
      split at executed
      · next same =>
        cases executed
        exact fenced.setDrain ⟨knows.1, knows.2.imp_left fun leads => ⟨leads, same⟩⟩ fun _ => fenced.mutex d held
      · cases executed
        exact fenced.unlock held fenced.ready
    · cases executed
  | setReady d =>
    simp only [step] at executed
    split at executed
    · next term issued locked =>
      have knows : Knows s (.lockedTerm term issued) := locked ▸ fenced.drains d
      cases executed
      refine fenced.unlock (by rw [locked]; rfl) fun _ => ?_
      obtain ⟨⟨after, before, drained⟩, ⟨leads, same⟩ | notifying⟩ := knows
      · have own : issued = s.term := Nat.le_antisymm before (same ▸ after)
        exact .inr ⟨leads, own ▸ drained⟩
      · exact .inl notifying
    · cases executed
  | _ => cases critical

private theorem fenced_propose {s s' : State} {action : Action} (fenced : Fenced s) (current : Current s action)
    (propose : action matches .checkState _ | .checkLeader _ | .checkReady _ | .accept _ | .reject _)
    (executed : step s action = some s') : Fenced s' := by
  cases action with
  | checkState p | checkLeader p =>
    simp only [step, Option.ite_none_right_eq_some, Option.some.injEq] at executed
    obtain ⟨-, rfl⟩ := executed
    exact fenced.setProposer fun _ ready => by cases ready
  | checkReady p =>
    simp only [step, Option.ite_none_right_eq_some, Option.some.injEq] at executed
    obtain ⟨⟨-, set⟩, rfl⟩ := executed
    refine fenced.setProposer fun term ready => ?_
    cases ready
    rcases fenced.ready set with notifying | ⟨-, drained⟩
    · exact absurd notifying current
    · exact drained
  | accept p =>
    simp only [step] at executed
    split at executed
    · simp only [Option.ite_none_right_eq_some, Option.some.injEq] at executed
      obtain ⟨-, rfl⟩ := executed
      exact fenced.grow.setProposer fun _ ready => by cases ready
    · cases executed
  | reject p =>
    cases executed
    exact fenced.setProposer fun _ ready => by cases ready
  | _ => cases propose

private theorem fenced_step {s s' : State} {action : Action} (fenced : Fenced s) (current : Current s action)
    (executed : step s action = some s') : Fenced s' := by
  cases action with
  | elect | stepDown | observe | post | apply => exact fenced_raft fenced rfl executed
  | receive | clear | spawn => exact fenced_watch fenced rfl executed
  | drainState | drainTerm | barrier | barrierDone | barrierFailed => exact fenced_drain fenced rfl executed
  | lockReady | readState | readTerm | setReady => exact fenced_critical fenced rfl executed
  | checkState | checkLeader | checkReady | accept | reject => exact fenced_propose fenced current rfl executed

/-- In a run whose checks of `ready` and whose acceptances are all current, raft takes an
entry from `proposeEntry` only in a term in which a barrier of this node has completed,
and only once everything the node was elected with is applied. -/
theorem accept_drained {actions : List Action} {s s' : State} {p : Nat}
    (executed : exec (restrict Current step) {} actions = some s)
    (accepted : restrict Current step s (.accept p) = some s') :
    s.drained s.term = true ∧ s.elected ≤ s.applied := by
  have fenced : Fenced s := by
    refine exec_invariant Fenced ?_ fenced_start executed
    intro before action after fenced moved
    obtain ⟨current, moved⟩ := restrict_eq_some.mp moved
    exact fenced_step fenced current moved
  obtain ⟨current, moved⟩ := restrict_eq_some.mp accepted
  have drained : s.drained s.term = true := fenced.proposers p s.term current
  have leads : s.leader = true := by
    simp only [step, show s.proposers p = .ready s.term from current, Option.ite_none_right_eq_some] at moved
    exact moved.1
  exact ⟨drained, fenced.backlog leads drained⟩

def drainedOnce : List Action :=
  [.elect 1 2, .post, .receive, .clear, .spawn 0, .drainState 0, .drainTerm 0, .barrier 0, .apply, .apply, .apply,
    .barrierDone 0, .lockReady 0, .readState 0, .readTerm 0, .setReady 0]

def proposes : List Action := [.checkState 0, .checkLeader 0, .checkReady 0]

/-- The node loses leadership and regains it with a longer log before `watchLeadership` has
read anything. -/
def regained : List Action := [.stepDown 1, .post, .elect 2 5, .post]

theorem drainedOnce_accepts :
    ∃ s s', exec (restrict Current step) {} (drainedOnce ++ proposes) = some s ∧
      restrict Current step s (.accept 0) = some s' ∧ s.drained s.term = true ∧ s.elected ≤ s.applied := by
  have found : (exec (restrict Current step) {} (drainedOnce ++ proposes)).map
      (fun s => (restrict Current step s (.accept 0)).isSome) = some true := rfl
  obtain ⟨s, executed, accepted⟩ := Option.map_eq_some_iff.mp found
  obtain ⟨s', accepted⟩ := Option.isSome_iff_exists.mp accepted
  exact ⟨s, s', executed, accepted, accept_drained executed accepted⟩

/-- The node accepts in term 2, where no barrier of its has completed, with two entries
of its log not applied. -/
theorem regained_undrained :
    ∃ s s', exec step {} (drainedOnce ++ regained ++ proposes) = some s ∧ step s (.accept 0) = some s' ∧
      s.term = 2 ∧ s.elected = 5 ∧ s.applied = 3 ∧ ¬(s.drained s.term = true ∧ s.elected ≤ s.applied) := by
  have found : (exec step {} (drainedOnce ++ regained ++ proposes)).map
      (fun s => ((step s (.accept 0)).isSome, s.drained s.term, s.term, s.elected, s.applied)) =
        some (true, false, 2, 5, 3) := rfl
  obtain ⟨s, executed, summary⟩ := Option.map_eq_some_iff.mp found
  simp only [Prod.mk.injEq] at summary
  obtain ⟨accepted, undrained, term, elected, applied⟩ := summary
  obtain ⟨s', accepted⟩ := Option.isSome_iff_exists.mp accepted
  exact ⟨s, s', executed, accepted, term, elected, applied, by simp [undrained]⟩

end Literaft.Proofs.Fencing
