import Literaft.Proposal

/-! A proposed entry reaches the proposer's own database once: through its own commit
frame when the call returned nil, through `Apply` when it failed. -/

namespace Literaft.Proofs.Materialize
open Library Fsm Gate Proto Proposal

variable {Id : Type} {id : Id} {transport : Bool}

def takings : Request → Nat
  | .handling true => 1
  | .answered true _ => 1
  | _ => 0

theorem takings_le (request : Request) : takings request ≤ 1 := by
  cases request with
  | handling taken => cases taken <;> simp [takings]
  | answered taken response => cases taken <;> simp [takings]
  | _ => simp [takings]

/-- Raft cannot take the entry from the request's handler any more, and never did. -/
def Closed : Request → Prop
  | .unsent | .lost | .answered false _ => True
  | _ => False

theorem Closed.takings {request : Request} (closed : Closed request) : takings request = 0 := by
  cases request with
  | handling => cases closed
  | answered taken =>
    cases taken with
    | false => rfl
    | true => cases closed
  | _ => rfl

/-- A handler that has answered kept to what raft did. -/
def Honest : Request → Prop
  | .answered true response => response.status = .ok ∨ response.status = .ambiguous
  | _ => True

/-- The marker of a call that still waits, and what `Apply` has done. -/
inductive Undecided : Option SkipMarkerState → List Outcome → Prop where
  | pending : Undecided (some .pending) []
  | skipped : Undecided (some .skipped) [.skipped]

/-- All that `Apply` has done or can still do is to append the frames. -/
def Appends (applied : List Outcome) : Prop := applied = [] ∨ applied = [.appended]

def Counts (log : Nat) (request : Request) : Prop := log = takings request ∨ request = .unsent ∧ log ≤ 1

/-- What holds at each point of the call of its marker, of raft's log, of `Apply` and of
the request. -/
inductive Phase : Pc → Option Nat → Option SkipMarkerState → Nat → List Outcome → Request → Prop where
  | start : Phase .start none none 0 [] .unsent
  | proposing : Phase .proposing none (some .pending) 0 [] .unsent
  | accepted {marker applied} (undecided : Undecided marker applied) : Phase .accepted none marker 1 applied .unsent
  | forwarding {attempt leader base} : Phase (.forwarding attempt leader) base (some .pending) 0 [] .unsent
  | sent {attempt base marker applied request} (undecided : Undecided marker applied) (honest : Honest request) :
      Phase (.sent attempt) base marker (takings request) applied request
  | awaiting {cause base marker applied request} (undecided : Undecided marker applied) :
      Phase (.awaiting cause) base marker (takings request) applied request
  | refused {err base request} (closed : Closed request) :
      Phase (.finished (some err)) base (some .pending) 0 [] request
  | failed {err} : Phase (.finished (some err)) none (some .pending) 1 [] .unsent
  | abandoned {err base applied request} (appends : Appends applied) :
      Phase (.finished (some err)) base (some .abandoned) (takings request) applied request
  | succeeded {base request} (counts : Counts 1 request) :
      Phase (.finished none) base (some .skipped) 1 [.skipped] request
  | returnedNil {base request} (counts : Counts 1 request) : Phase (.returned none) base none 1 [.skipped] request
  | returnedError {err base log applied request} (counts : Counts log request) (appends : Appends applied) :
      Phase (.returned (some err)) base none log applied request

structure Sound (id : Id) (c : Call Id) : Prop where
  phase : Phase c.pc c.base (c.fsm.skipMarkers id) c.log c.applied c.request
  fits : c.applied.length ≤ c.log

theorem Counts.le {log : Nat} {request : Request} (counts : Counts log request) : log ≤ 1 := by
  rcases counts with rfl | ⟨-, small⟩
  · exact takings_le request
  · exact small

theorem Counts.handled {log log' : Nat} {request request' : Request} (counts : Counts log request)
    (opened : ¬Closed request) (moved : log' + takings request = log + takings request') : Counts log' request' := by
  rcases counts with rfl | ⟨rfl, -⟩
  · exact .inl (by omega)
  · exact absurd trivial opened

theorem Phase.handled {pc base marker log log' applied request request'} (phase : Phase pc base marker log applied request)
    (opened : ¬Closed request) (honest : Honest request')
    (kept : takings request ≤ takings request') (moved : log' + takings request = log + takings request') :
    Phase pc base marker log' applied request' := by
  have single (counts : Counts 1 request) : log' + takings request = 1 + takings request' → log' = 1 := by
    intro moved
    have taken : takings request = 1 := by
      rcases counts with taken | ⟨rfl, -⟩
      · exact taken.symm
      · exact absurd trivial opened
    have := takings_le request'
    omega
  cases phase with
  | start | proposing | accepted | forwarding | failed => exact absurd trivial opened
  | refused closed => exact absurd closed opened
  | sent undecided _ =>
    obtain rfl : log' = takings request' := by omega
    exact .sent undecided honest
  | awaiting undecided =>
    obtain rfl : log' = takings request' := by omega
    exact .awaiting undecided
  | abandoned appends =>
    obtain rfl : log' = takings request' := by omega
    exact .abandoned appends
  | succeeded counts =>
    obtain rfl := single counts moved
    exact .succeeded (counts.handled opened moved)
  | returnedNil counts =>
    obtain rfl := single counts moved
    exact .returnedNil (counts.handled opened moved)
  | returnedError counts appends => exact .returnedError (counts.handled opened moved) appends

theorem proposeEntry_refused {view : RaftView} (untaken : view.took false = true) :
    ∃ err, proposeEntry view = some err := by
  cases leader : view.leader with
  | false => simp [proposeEntry, leader]
  | true =>
    cases ready : view.ready with
    | false => simp [proposeEntry, leader, ready]
    | true =>
      cases marshal : view.marshal with
      | some cause => simp [proposeEntry, leader, ready, marshal]
      | none =>
        cases future : view.future with
        | ok => simp [RaftView.took, RaftView.proposes, leader, ready, marshal, future] at untaken
        | enqueueTimeout | failed => simp [proposeEntry, leader, ready, marshal, future]

theorem proposeEntry_taken {view : RaftView} (taken : view.took true = true) :
    view.future = .ok ∧ proposeEntry view = none ∨
      view.future ≠ .ok ∧ ∃ cause, proposeEntry view = some (.ambiguous cause) := by
  simp only [RaftView.took, RaftView.proposes, Bool.and_eq_true, Option.isNone_iff_eq_none, decide_eq_true_eq,
    ne_eq] at taken
  obtain ⟨⟨⟨leader, ready⟩, marshal⟩, enqueued⟩ := taken
  cases future : view.future with
  | ok => exact .inl (by simp [proposeEntry, leader, ready, marshal, future])
  | enqueueTimeout => exact absurd future enqueued
  | failed cause => exact .inr (by simp [proposeEntry, leader, ready, marshal, future])

section
variable {attempt log : Nat} {base : Option Nat} {marker : Option SkipMarkerState} {applied : List Outcome} {request : Request}

theorem Phase.refuse (phase : Phase .proposing base marker log applied request) (err : ProposeError) :
    Phase (.finished (some err)) base marker log applied request := by
  cases phase
  exact .refused trivial

theorem Phase.forward (phase : Phase .proposing base marker log applied request) (leader : ServerAddress) (index : Nat) :
    Phase (.forwarding 0 leader) (some index) marker log applied request := by
  cases phase
  exact .forwarding

theorem Phase.create (phase : Phase .start base marker log applied request) :
    Phase .proposing base (some .pending) log applied request := by
  cases phase
  exact .proposing

theorem Phase.accept (phase : Phase .proposing base marker log applied request) :
    Phase .accepted base marker (log + 1) applied request := by
  cases phase
  exact .accepted .pending

theorem Phase.giveUp {leader : ServerAddress} (phase : Phase (.forwarding attempt leader) base marker log applied request)
    (err : ProposeError) : Phase (.finished (some err)) base marker log applied request := by
  cases phase
  exact .refused trivial

theorem Phase.send {leader : ServerAddress} (phase : Phase (.forwarding attempt leader) base marker log applied request) :
    Phase (.sent attempt) base marker log applied .inFlight := by
  cases phase
  exact (.sent .pending trivial : Phase (.sent attempt) base _ (takings .inFlight) _ _)

theorem Phase.lose (phase : Phase (.sent attempt) base marker log applied .inFlight) :
    Phase (.sent attempt) base marker log applied .lost := by
  cases phase with
  | sent undecided => exact (.sent undecided trivial : Phase (.sent attempt) base _ (takings .lost) _ _)

theorem Phase.honest (phase : Phase (.sent attempt) base marker log applied request) : Honest request := by
  cases phase with
  | sent _ honest => exact honest

theorem Phase.succeed (phase : Phase .accepted base marker log applied request) (ran : applied ≠ []) :
    Phase (.finished none) base marker log applied request := by
  cases phase with
  | accepted undecided =>
    cases undecided with
    | pending => exact absurd rfl ran
    | skipped => exact .succeeded (.inr ⟨rfl, Nat.le_refl 1⟩)

theorem Phase.fail (phase : Phase .accepted base marker log applied request) (unapplied : applied = [])
    (err : ProposeError) : Phase (.finished (some err)) base marker log applied request := by
  cases phase with
  | accepted undecided =>
    cases undecided with
    | pending => exact .failed
    | skipped => cases unapplied

theorem Phase.wait (phase : Phase (.sent attempt) base marker log applied request) (cause : Option String) :
    Phase (.awaiting cause) base marker log applied request := by
  cases phase with
  | sent undecided => exact .awaiting undecided

/-- Raft never took the entry of a request that is out of the way, so `Apply` never saw it. -/
theorem Phase.untaken (phase : Phase (.sent attempt) base marker log applied request) (closed : Closed request)
    (fits : applied.length ≤ log) : marker = some .pending ∧ log = 0 ∧ applied = [] := by
  cases phase with
  | sent undecided =>
    rw [closed.takings] at fits
    cases undecided with
    | pending => exact ⟨rfl, closed.takings, rfl⟩
    | skipped => simp at fits

theorem Phase.consume {cause : Option String} (phase : Phase (.awaiting cause) base (some .skipped) log applied request)
    (fits : applied.length ≤ log) : Phase (.finished none) base (some .skipped) log applied request := by
  cases phase with
  | awaiting undecided =>
    cases undecided
    have single : takings request = 1 := Nat.le_antisymm (takings_le request) fits
    rw [single]
    exact .succeeded (.inl single.symm)

private theorem Phase.abandon {cause : Option String} (phase : Phase (.awaiting cause) base marker log applied request)
    (unconsumed : marker ≠ some .skipped) (err : ProposeError) :
    Phase (.finished (some err)) base (some .abandoned) log applied request := by
  cases phase with
  | awaiting undecided =>
    cases undecided with
    | pending => exact .abandoned (.inl rfl)
    | skipped => exact absurd rfl unconsumed

theorem Phase.delete {result : Option ProposeError} (phase : Phase (.finished result) base marker log applied request) :
    Phase (.returned result) base none log applied request := by
  cases phase with
  | refused closed => exact .returnedError (.inl closed.takings.symm) (.inl rfl)
  | failed => exact .returnedError (.inr ⟨rfl, Nat.le_refl 1⟩) (.inl rfl)
  | abandoned appends => exact .returnedError (.inl rfl) appends
  | succeeded counts => exact .returnedNil counts

end

theorem Sound.refuse {c : Call Id} {err : ProposeError} (sound : Sound id c) (proposing : c.pc = .proposing) :
    Sound id (c.resolved transport (some err)) := by
  obtain ⟨phase, fits⟩ := sound
  rw [proposing] at phase
  have refused : Sound id { c with pc := .finished (some err) } := ⟨phase.refuse err, fits⟩
  cases transport with
  | false => exact refused
  | true =>
    cases err with
    | notLeader leader =>
      by_cases unknown : leader = ""
      · simpa [Call.resolved, unknown] using refused
      · simp only [Call.resolved, unknown, if_false]
        exact ⟨phase.forward leader _, fits⟩
    | _ => exact refused

theorem Sound.resolve {c : Call Id} {view : RaftView} (sound : Sound id c) (accepted : c.pc = .accepted)
    (taken : view.took true = true) (future : view.future = .ok ↔ c.applied ≠ []) :
    Sound id (c.resolved transport (proposeEntry view)) := by
  obtain ⟨phase, fits⟩ := sound
  rw [accepted] at phase
  rcases proposeEntry_taken taken with ⟨resolved, returned⟩ | ⟨failed, cause, returned⟩
  · have finished : Sound id { c with pc := .finished none } := ⟨phase.succeed (future.mp resolved), fits⟩
    rw [returned]
    cases transport <;> exact finished
  · have unapplied : c.applied = [] := Decidable.byContradiction fun ran => failed (future.mpr ran)
    have finished : Sound id { c with pc := .finished (some (.ambiguous cause)) } :=
      ⟨phase.fail unapplied _, fits⟩
    rw [returned]
    cases transport <;> exact finished

theorem Sound.next {c : Call Id} {attempt : Nat} {reply : Reply} (sound : Sound id c) (sent : c.pc = .sent attempt)
    (safe : Closed c.request ∨ ∃ cause, forwardToLeader attempt reply = .await cause) :
    Sound id (c.next attempt reply) := by
  obtain ⟨phase, fits⟩ := sound
  rw [sent] at phase
  cases decision : forwardToLeader attempt reply with
  | await cause =>
    simp only [Call.next, decision]
    exact ⟨phase.wait cause, fits⟩
  | fail err =>
    have closed : Closed c.request := by simpa [decision] using safe
    obtain ⟨marked, empty, nothing⟩ := phase.untaken closed fits
    simp only [Call.next, decision]
    refine ⟨?_, fits⟩
    simp only [marked, empty, nothing]
    exact .refused closed
  | retry leader =>
    have closed : Closed c.request := by simpa [decision] using safe
    obtain ⟨marked, empty, nothing⟩ := phase.untaken closed fits
    simp only [Call.next, decision]
    refine ⟨?_, fits⟩
    simp only [marked, empty, nothing]
    exact .forwarding

/-- Nil is returned exactly when `Apply` skipped the frames, and after an error all that
`Apply` does is to append them. -/
def ExactlyOnce (c : Call Id) : Prop :=
  ∀ result, c.pc = .returned result →
    (result = none ↔ c.applied = [.skipped]) ∧ (result ≠ none → c.applied = [] ∨ c.applied = [.appended])

theorem Sound.exactlyOnce {c : Call Id} (sound : Sound id c) : ExactlyOnce c := by
  intro result returned
  have phase := sound.phase
  rw [returned] at phase
  generalize c.base = base, c.fsm.skipMarkers id = marker, c.log = log, c.applied = applied, c.request = request at phase ⊢
  cases phase with
  | returnedNil => simp
  | returnedError _ appends => rcases appends with rfl | rfl <;> simp

theorem sound_start {f : FSM Id} (fresh : f.skipMarkers id = none) : Sound id { fsm := f } := by
  refine ⟨?_, Nat.le_refl 0⟩
  rw [fresh]
  exact .start

variable [DecidableEq Id] {transaction : LogEntryTransaction}

theorem Sound.expire {c : Call Id} {cause : Option String} (sound : Sound id c) (awaiting : c.pc = .awaiting cause) :
    Sound id (({ c with fsm := (c.fsm.expireSkipMarker id).1 } : Call Id).awaited cause
      (c.fsm.expireSkipMarker id).2) := by
  obtain ⟨phase, fits⟩ := sound
  rw [awaiting] at phase
  refine ⟨?_, fits⟩
  by_cases marked : c.fsm.skipMarkers id = some .skipped
  · simp only [FSM.expireSkipMarker, marked, if_true, Call.awaited]
    exact (marked ▸ phase).consume fits
  · simp only [FSM.expireSkipMarker, marked, if_false, Call.awaited, Function.update_self]
    exact phase.abandon marked _

private theorem apply_pending {f : FSM Id} (index : Nat) (pending : f.skipMarkers id = some .pending) :
    (apply f id index).1.skipMarkers id = some .skipped ∧ (apply f id index).2 = .skipped := by
  simp [apply, FSM.tryConsumeSkipMarker, pending]

private theorem apply_settled {f : FSM Id} (index : Nat) (settled : f.skipMarkers id ≠ some .pending) :
    (apply f id index).1.skipMarkers id = f.skipMarkers id ∧ (apply f id index).2 = .appended := by
  simp [apply, FSM.tryConsumeSkipMarker, settled, FSM.store]

/-- The call has failed and its marker is still there to be consumed. -/
def Late (marker : Option SkipMarkerState) : Pc → Prop
  | .finished (some _) => marker = some .pending
  | _ => False

instance (marker : Option SkipMarkerState) : (pc : Pc) → Decidable (Late marker pc)
  | .finished (some _) => inferInstanceAs (Decidable (_ = _))
  | .finished none | .start | .proposing | .accepted | .forwarding _ _ | .sent _ | .awaiting _ | .returned _ =>
    inferInstanceAs (Decidable False)

theorem Undecided.apply {f : FSM Id} {index log : Nat} {applied : List Outcome}
    (undecided : Undecided (f.skipMarkers id) applied) (room : applied.length < log) (once : log ≤ 1) :
    Undecided ((Proposal.apply f id index).1.skipMarkers id) (applied ++ [(Proposal.apply f id index).2]) := by
  generalize marked : f.skipMarkers id = marker at undecided
  cases undecided with
  | pending =>
    obtain ⟨marker, outcome⟩ := apply_pending index marked
    rw [marker, outcome]
    exact .skipped
  | skipped => simp at room; omega

theorem Appends.apply {f : FSM Id} {index log : Nat} {applied : List Outcome} (appends : Appends applied)
    (settled : f.skipMarkers id ≠ some .pending) (room : applied.length < log) (once : log ≤ 1) :
    Appends (applied ++ [(Proposal.apply f id index).2]) := by
  rcases appends with rfl | rfl
  · exact .inr (by simp [(apply_settled index settled).2])
  · simp at room; omega

/-- `Apply` keeps the call sound unless it comes late. -/
theorem Phase.apply {pc base f log applied request index}
    (phase : Phase pc base (FSM.skipMarkers f id) log applied request) (room : applied.length < log)
    (timely : ¬Late (FSM.skipMarkers f id) pc) :
    Phase pc base ((Proposal.apply f id index).1.skipMarkers id) log (applied ++ [(Proposal.apply f id index).2])
      request := by
  generalize marked : f.skipMarkers id = marker at phase timely
  cases phase with
  | start | proposing | forwarding | refused => simp at room
  | accepted undecided => exact .accepted ((marked ▸ undecided).apply room (Nat.le_refl 1))
  | sent undecided honest => exact .sent ((marked ▸ undecided).apply room (takings_le _)) honest
  | awaiting undecided => exact .awaiting ((marked ▸ undecided).apply room (takings_le _))
  | failed => exact absurd rfl timely
  | abandoned appends =>
    have settled : f.skipMarkers id ≠ some .pending := by simp [marked]
    rw [(apply_settled index settled).1, marked]
    exact .abandoned (appends.apply settled room (takings_le _))
  | succeeded | returnedNil => simp at room
  | returnedError counts appends =>
    have settled : f.skipMarkers id ≠ some .pending := by simp [marked]
    rw [(apply_settled index settled).1, marked]
    exact .returnedError counts (appends.apply settled room counts.le)

/-- Every step keeps a call sound, except an `Apply` that comes late. -/
theorem sound_step {c c' : Call Id} {action : Action} (sound : Sound id c)
    (timely : ∀ index, action = .apply index → ¬Late (c.fsm.skipMarkers id) c.pc)
    (executed : step id transaction transport c action = some c') : Sound id c' := by
  have phase := sound.phase
  have fits := sound.fits
  cases action with
  | createSkipMarker =>
    obtain ⟨start, rfl⟩ := by simpa [step] using executed
    rw [start] at phase
    refine ⟨?_, fits⟩
    simpa using phase.create
  | accept =>
    obtain ⟨proposing, rfl⟩ := by simpa [step] using executed
    rw [proposing] at phase
    exact ⟨phase.accept, Nat.le_succ_of_le fits⟩
  | resolve view =>
    simp only [step, Option.ite_none_right_eq_some, Option.some.injEq] at executed
    obtain ⟨⟨proposing, untaken⟩ | ⟨accepted, taken, future⟩, rfl⟩ := executed
    · obtain ⟨err, refused⟩ := proposeEntry_refused untaken
      rw [refused]
      exact sound.refuse proposing
    · exact sound.resolve accepted taken future
  | send =>
    simp only [step] at executed
    split at executed
    · next attempt leader forwarding =>
      rw [forwarding] at phase
      split at executed
      · cases executed
        exact ⟨phase.giveUp _, fits⟩
      · cases executed
        exact ⟨phase.send, fits⟩
    · cases executed
  | deliver =>
    obtain ⟨inFlight, rfl⟩ := by simpa [step] using executed
    rw [inFlight] at phase
    exact ⟨phase.handled not_false trivial (Nat.le_refl 0) rfl, fits⟩
  | take =>
    obtain ⟨handling, rfl⟩ := by simpa [step] using executed
    rw [handling] at phase
    exact ⟨phase.handled not_false trivial (Nat.zero_le 1) rfl, Nat.le_succ_of_le fits⟩
  | answer view =>
    simp only [step] at executed
    split at executed
    · next taken base handling built =>
      rw [handling] at phase
      simp only [Option.ite_none_right_eq_some, Option.some.injEq] at executed
      obtain ⟨view, rfl⟩ := executed
      refine ⟨phase.handled not_false ?_ ?_ ?_, fits⟩
      · cases taken with
        | false => trivial
        | true => exact handleRequest_took view
      · cases taken <;> exact Nat.le_refl _
      · cases taken <;> rfl
    · cases executed
  | receive =>
    simp only [step] at executed
    split at executed
    · next attempt taken response sent answered =>
      cases executed
      apply sound.next sent
      rw [answered]
      cases taken with
      | false => exact .inl trivial
      | true =>
        rw [sent, answered] at phase
        exact .inr (forwardToLeader_awaits phase.honest)
    · cases executed
  | undelivered reason =>
    simp only [step] at executed
    split at executed
    · next attempt sent inFlight =>
      cases executed
      rw [sent, inFlight] at phase
      refine Sound.next ⟨?_, fits⟩ sent (.inl trivial)
      rw [sent]
      exact phase.lose
    · cases executed
  | unanswered cause =>
    simp only [step] at executed
    split at executed
    · next attempt sent =>
      cases executed
      exact sound.next sent (.inr ⟨some cause, rfl⟩)
    · cases executed
  | deadline =>
    cases executed
    exact ⟨phase, fits⟩
  | consumed =>
    simp only [step] at executed
    split at executed
    · next cause awaiting =>
      simp only [Option.ite_none_right_eq_some, Option.some.injEq] at executed
      obtain ⟨marked, rfl⟩ := executed
      rw [awaiting, marked] at phase
      refine ⟨?_, fits⟩
      simp only [Call.awaited, marked]
      exact phase.consume fits
    · cases executed
  | expire =>
    simp only [step] at executed
    split at executed
    · next cause awaiting =>
      simp only [Option.ite_none_right_eq_some, Option.some.injEq] at executed
      obtain ⟨-, rfl⟩ := executed
      exact sound.expire awaiting
    · cases executed
  | deleteSkipMarker =>
    simp only [step] at executed
    split at executed
    · next result finished =>
      cases executed
      rw [finished] at phase
      refine ⟨?_, fits⟩
      simpa using phase.delete
    · cases executed
  | apply index =>
    obtain ⟨room, rfl⟩ := by simpa [step] using executed
    refine ⟨phase.apply room (timely index rfl), ?_⟩
    rw [List.length_append]
    exact room

/-- `Apply` does not run the entry between the failure of the call and the deletion of
its marker. -/
def Timely (id : Id) (c : Call Id) : Action → Prop
  | .apply _ => ¬Late (c.fsm.skipMarkers id) c.pc
  | _ => True

instance (c : Call Id) : (action : Action) → Decidable (Timely id c action)
  | .apply _ => inferInstanceAs (Decidable (¬_))
  | .createSkipMarker | .accept | .resolve _ | .send | .deliver | .take | .answer _ | .receive | .undelivered _
  | .unanswered _ | .deadline | .consumed | .expire | .deleteSkipMarker => inferInstanceAs (Decidable True)

/-- In a run in which `Apply` never comes late, a call that has returned had its entry
materialized exactly once as far as `Apply` has got with it. -/
theorem timely_exactly_once {f : FSM Id} (fresh : f.skipMarkers id = none) {actions : List Action} {c : Call Id}
    (executed : exec (restrict (Timely id) (step id transaction transport)) { fsm := f } actions = some c) :
    ExactlyOnce c := by
  refine (exec_invariant (Sound id) ?_ (sound_start fresh) executed).exactlyOnce
  intro before action after sound moved
  obtain ⟨timely, moved⟩ := restrict_eq_some.mp moved
  refine sound_step sound ?_ moved
  rintro index rfl
  exact timely

def lost : RaftView where
  leader := true
  hint := ""
  ready := true
  marshal := none
  future := .failed "leadership lost while committing log"

/-- The later leader commits the entry before the failed call has deleted its marker. -/
def overtaken : List Action := [.createSkipMarker, .accept, .resolve lost, .apply 7, .deleteSkipMarker]

/-- The same steps, with `Apply` after the deletion. -/
def orderly : List Action := [.createSkipMarker, .accept, .resolve lost, .deleteSkipMarker, .apply 7]

theorem orderly_exactly_once :
    ∃ c, exec (restrict (Timely 0) (step 0 {} true)) { fsm := {} } orderly = some c ∧
      (c.pc, c.applied) = (.returned (some (.ambiguous "leadership lost while committing log")), [.appended]) ∧
      ExactlyOnce c := by
  have found : (exec (restrict (Timely 0) (step 0 {} true)) { fsm := {} } orderly).map (fun c => (c.pc, c.applied)) =
      some (.returned (some (.ambiguous "leadership lost while committing log")), [.appended]) := rfl
  obtain ⟨c, executed, ended⟩ := Option.map_eq_some_iff.mp found
  exact ⟨c, executed, ended, timely_exactly_once rfl executed⟩

/-- The call returns an error and `Apply` skips the frames. -/
theorem overtaken_neither :
    ∃ c, exec (step 0 {} true) { fsm := {} } overtaken = some c ∧
      (c.pc, c.applied) = (.returned (some (.ambiguous "leadership lost while committing log")), [.skipped]) ∧
      ¬ExactlyOnce c := by
  have found : (exec (step 0 {} true) { fsm := {} } overtaken).map (fun c => (c.pc, c.applied)) =
      some (.returned (some (.ambiguous "leadership lost while committing log")), [.skipped]) := rfl
  obtain ⟨c, executed, ended⟩ := Option.map_eq_some_iff.mp found
  refine ⟨c, executed, ended, fun once => ?_⟩
  have nil := (once _ (congrArg Prod.fst ended)).1.mpr (congrArg Prod.snd ended)
  cases nil

/-- A call that ended without a request. -/
def Ended (c : Call Id) : Prop := c.base = none ∧ ∃ result, c.pc = .finished result ∨ c.pc = .returned result

/-- A call that has built its request is sound; one that has not may have met `Apply`
late, but then it never forwards. -/
def Settles (id : Id) (c : Call Id) : Prop := Sound id c ∨ Ended c

theorem Phase.late {pc base marker log applied request} (phase : Phase pc base marker log applied request)
    (late : Late marker pc) (room : applied.length < log) : base = none ∧ ∃ result, pc = .finished result := by
  cases phase with
  | refused => simp at room
  | failed => exact ⟨rfl, _, rfl⟩
  | abandoned => cases late
  | _ => exact late.elim

theorem ended_step {c c' : Call Id} {action : Action} (ended : Ended c)
    (executed : step id transaction transport c action = some c') : Ended c' := by
  obtain ⟨direct, result, final⟩ := ended
  cases action with
  | deleteSkipMarker =>
    rcases final with finished | returned
    · simp only [step, finished, Option.some.injEq] at executed
      subst executed
      exact ⟨direct, result, .inr rfl⟩
    · simp [step, returned] at executed
  | deliver | take | apply index =>
    simp only [step, Option.ite_none_right_eq_some, Option.some.injEq] at executed
    obtain ⟨-, rfl⟩ := executed
    exact ⟨direct, result, final⟩
  | deadline =>
    cases executed
    exact ⟨direct, result, final⟩
  | _ => rcases final with final | final <;> simp [step, final, direct] at executed

theorem settles_step {c c' : Call Id} {action : Action} (settles : Settles id c)
    (executed : step id transaction transport c action = some c') : Settles id c' := by
  rcases settles with sound | ended
  · by_cases late : (∃ index, action = .apply index) ∧ Late (c.fsm.skipMarkers id) c.pc
    · obtain ⟨⟨index, rfl⟩, late⟩ := late
      have room : c.applied.length < c.log := by
        by_contra full
        simp [step, full] at executed
      obtain ⟨direct, result, finished⟩ := sound.phase.late late room
      exact .inr (ended_step ⟨direct, result, .inl finished⟩ executed)
    · refine .inl (sound_step sound ?_ executed)
      rintro index rfl overdue
      exact late ⟨⟨index, rfl⟩, overdue⟩
  · exact .inr (ended_step ended executed)

/-- A forwarded call that has returned had its entry materialized exactly once, however
the transport, the handler, the deadline and `Apply` fall. -/
theorem forwarded_exactly_once {f : FSM Id} (fresh : f.skipMarkers id = none) {actions : List Action} {c : Call Id}
    (executed : exec (step id transaction transport) { fsm := f } actions = some c) (forwarded : c.base ≠ none) :
    ExactlyOnce c := by
  rcases exec_invariant (Settles id) (fun _ _ _ => settles_step) (.inl (sound_start fresh)) executed with
    sound | ⟨direct, -⟩
  · exact sound.exactlyOnce
  · exact absurd direct forwarded

def follower : RaftView where
  leader := false
  hint := "n2"
  ready := false
  marshal := none
  future := .ok

def leading : HandlerView where
  leader := true
  hint := "n2"
  lock := none
  lastApplied := 0
  propose := { leader := true, hint := "n2", ready := true, marshal := none, future := .ok }
  after := 1

/-- The answer is lost on its way back, and the deadline finds the marker consumed. -/
def unconfirmed : List Action :=
  [.createSkipMarker, .resolve follower, .send, .deliver, .take, .answer leading, .unanswered "connection reset",
    .deadline, .apply 1, .expire, .deleteSkipMarker]

def onePage : LogEntryTransaction := ⟨[⟨1, [0]⟩], 1⟩

theorem unconfirmed_exactly_once :
    ∃ c, exec (step 0 onePage true) { fsm := {} } unconfirmed = some c ∧
      (c.pc, c.base, c.applied) = (.returned none, some 0, [.skipped]) ∧ ExactlyOnce c := by
  have found : (exec (step 0 onePage true) { fsm := {} } unconfirmed).map (fun c => (c.pc, c.base, c.applied)) =
      some (.returned none, some 0, [.skipped]) := rfl
  obtain ⟨c, executed, ended⟩ := Option.map_eq_some_iff.mp found
  have forwarded : c.base = some 0 := congrArg (fun end' => end'.2.1) ended
  exact ⟨c, executed, ended, forwarded_exactly_once rfl executed (by simp [forwarded])⟩

end Literaft.Proofs.Materialize
