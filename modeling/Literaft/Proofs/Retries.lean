import Literaft.Proofs.Materialize

/-! How often raft takes the entry of one call, over all nodes: once at most, and never
when the call returns an error that is safe to retry. -/

namespace Literaft.Proofs.Retries
open Library Fsm Gate Proto Proposal Materialize

variable {Id : Type} {id : Id} {transport : Bool}

/-- An error that is safe to retry says that raft has not taken the entry and cannot any more. -/
def Untaken (result : Option ProposeError) (log : Nat) (request : Request) : Prop :=
  ∀ err, result = some err → err.safeToRetry = true → log = 0 ∧ Closed request

/-- How often raft took the entry, at each point of the call. -/
inductive Account : Pc → Nat → Request → Prop where
  | start : Account .start 0 .unsent
  | proposing : Account .proposing 0 .unsent
  | accepted : Account .accepted 1 .unsent
  | forwarding {attempt leader} : Account (.forwarding attempt leader) 0 .unsent
  | sent {attempt request} (honest : Honest request) : Account (.sent attempt) (takings request) request
  | awaiting {cause request} : Account (.awaiting cause) (takings request) request
  | finished {result log request} (counts : Counts log request) (untaken : Untaken result log request) :
      Account (.finished result) log request
  | returned {result log request} (counts : Counts log request) (untaken : Untaken result log request) :
      Account (.returned result) log request

section
variable {pc : Pc} {attempt log log' : Nat} {request request' : Request}

theorem Account.le (account : Account pc log request) : log ≤ 1 := by
  cases account with
  | start | proposing | forwarding => exact Nat.zero_le 1
  | accepted => exact Nat.le_refl 1
  | sent | awaiting => exact takings_le request
  | finished counts | returned counts => exact counts.le

theorem Untaken.opened {result : Option ProposeError} (untaken : Untaken result log request) (opened : ¬Closed request) :
    Untaken result log' request' :=
  fun err failed safe => absurd (untaken err failed safe).2 opened

theorem Account.handled (account : Account pc log request) (opened : ¬Closed request) (honest : Honest request')
    (moved : log' + takings request = log + takings request') : Account pc log' request' := by
  cases account with
  | start | proposing | accepted | forwarding => exact absurd trivial opened
  | sent =>
    obtain rfl : log' = takings request' := by omega
    exact .sent honest
  | awaiting =>
    obtain rfl : log' = takings request' := by omega
    exact .awaiting
  | finished counts untaken => exact .finished (counts.handled opened moved) (untaken.opened opened)
  | returned counts untaken => exact .returned (counts.handled opened moved) (untaken.opened opened)

theorem Account.create (account : Account .start log request) : Account .proposing log request := by
  cases account
  exact .proposing

theorem Account.accept (account : Account .proposing log request) : Account .accepted (log + 1) request := by
  cases account
  exact .accepted

theorem Account.refuse (account : Account .proposing log request) (err : ProposeError) :
    Account (.finished (some err)) log request := by
  cases account
  exact .finished (.inl rfl) fun _ _ _ => ⟨rfl, trivial⟩

theorem Account.forward (account : Account .proposing log request) (leader : ServerAddress) :
    Account (.forwarding 0 leader) log request := by
  cases account
  exact .forwarding

/-- Raft took the entry from the caller, whose error then is not safe to retry. -/
theorem Account.resolve (account : Account .accepted log request) {result : Option ProposeError}
    (doubtful : ∀ err, result = some err → err.safeToRetry = false) : Account (.finished result) log request := by
  cases account
  refine .finished (.inr ⟨rfl, Nat.le_refl 1⟩) fun err failed safe => ?_
  cases (doubtful err failed).symm.trans safe

theorem Account.giveUp {leader : ServerAddress} (account : Account (.forwarding attempt leader) log request) :
    Account (.finished (some (.notLeader ""))) log request := by
  cases account
  exact .finished (.inl rfl) fun _ _ _ => ⟨rfl, trivial⟩

theorem Account.send {leader : ServerAddress} (account : Account (.forwarding attempt leader) log request) :
    Account (.sent attempt) log .inFlight := by
  have honest : Honest .inFlight := trivial
  cases account
  exact .sent honest

theorem Account.lose (account : Account (.sent attempt) log .inFlight) : Account (.sent attempt) log .lost := by
  have honest : Honest .lost := trivial
  cases account
  exact .sent honest

theorem Account.honest (account : Account (.sent attempt) log request) : Honest request := by
  cases account with
  | sent honest => exact honest

theorem Account.closed (account : Account (.sent attempt) log request) (closed : Closed request) : log = 0 := by
  cases account with
  | sent => exact closed.takings

theorem Account.wait (account : Account (.sent attempt) log request) (cause : Option String) :
    Account (.awaiting cause) log request := by
  cases account
  exact .awaiting

theorem Account.await {cause : Option String} (account : Account (.awaiting cause) log request)
    {result : Option ProposeError} (doubtful : ∀ err, result = some err → err.safeToRetry = false) :
    Account (.finished result) log request := by
  cases account
  refine .finished (.inl rfl) fun err failed safe => ?_
  cases (doubtful err failed).symm.trans safe

theorem Account.delete {result : Option ProposeError} (account : Account (.finished result) log request) :
    Account (.returned result) log request := by
  cases account with
  | finished counts untaken => exact .returned counts untaken

end

private theorem account_next {c : Call Id} {attempt : Nat} {reply : Reply} (account : Account c.pc c.log c.request)
    (sent : c.pc = .sent attempt) (safe : Closed c.request ∨ ∃ cause, forwardToLeader attempt reply = .await cause) :
    Account (c.next attempt reply).pc (c.next attempt reply).log (c.next attempt reply).request := by
  rw [sent] at account
  cases decision : forwardToLeader attempt reply with
  | await cause =>
    simp only [Call.next, decision]
    exact account.wait cause
  | fail err =>
    have closed : Closed c.request := by simpa [decision] using safe
    simp only [Call.next, decision, account.closed closed]
    exact .finished (.inl closed.takings.symm) fun _ _ _ => ⟨rfl, closed⟩
  | retry leader =>
    have closed : Closed c.request := by simpa [decision] using safe
    simp only [Call.next, decision, account.closed closed]
    exact .forwarding

private theorem account_resolved {c : Call Id} {view : RaftView} (account : Account c.pc c.log c.request)
    (views : c.pc = .proposing ∧ view.took false ∨ c.pc = .accepted ∧ view.took true) :
    Account (c.resolved transport (proposeEntry view)).pc (c.resolved transport (proposeEntry view)).log
      (c.resolved transport (proposeEntry view)).request := by
  rcases views with ⟨proposing, untaken⟩ | ⟨accepted, taken⟩
  · obtain ⟨err, refused⟩ := proposeEntry_refused untaken
    rw [proposing] at account
    rw [refused]
    unfold Call.resolved
    split
    · split
      · exact account.refuse _
      · exact account.forward _
    · exact account.refuse err
  · rw [accepted] at account
    rcases proposeEntry_taken taken with ⟨-, returned⟩ | ⟨-, cause, returned⟩ <;> rw [returned]
    · have finished : Account (.finished none) c.log c.request := account.resolve fun err failed => by cases failed
      cases transport <;> exact finished
    · have finished : Account (.finished (some (.ambiguous cause))) c.log c.request :=
        account.resolve fun err failed => by cases failed; rfl
      cases transport <;> exact finished

variable [DecidableEq Id] {transaction : LogEntryTransaction}

theorem account_step {c c' : Call Id} {action : Action} (account : Account c.pc c.log c.request)
    (executed : step id transaction transport c action = some c') : Account c'.pc c'.log c'.request := by
  have awaits {cause : Option String} (awaiting : c.pc = .awaiting cause) (consumed : Bool) (f : FSM Id) :
      Account ((({ c with fsm := f } : Call Id).awaited cause consumed).pc) c.log c.request := by
    rw [awaiting] at account
    refine account.await fun err failed => ?_
    cases consumed with
    | true => cases failed
    | false => cases failed; rfl
  cases action with
  | createSkipMarker =>
    obtain ⟨start, rfl⟩ := by simpa [step] using executed
    rw [start] at account
    exact account.create
  | accept =>
    obtain ⟨proposing, rfl⟩ := by simpa [step] using executed
    rw [proposing] at account
    exact account.accept
  | resolve view =>
    simp only [step, Option.ite_none_right_eq_some, Option.some.injEq] at executed
    obtain ⟨views, rfl⟩ := executed
    exact account_resolved account (views.imp_right fun taken => ⟨taken.1, taken.2.1⟩)
  | send =>
    simp only [step] at executed
    split at executed
    · next attempt leader forwarding =>
      rw [forwarding] at account
      split at executed
      · cases executed
        exact account.giveUp
      · cases executed
        exact account.send
    · cases executed
  | deliver =>
    obtain ⟨inFlight, rfl⟩ := by simpa [step] using executed
    rw [inFlight] at account
    exact account.handled not_false trivial rfl
  | take =>
    obtain ⟨handling, rfl⟩ := by simpa [step] using executed
    rw [handling] at account
    exact account.handled not_false trivial rfl
  | answer view =>
    simp only [step] at executed
    split at executed
    · next taken base handling built =>
      rw [handling] at account
      simp only [Option.ite_none_right_eq_some, Option.some.injEq] at executed
      obtain ⟨view, rfl⟩ := executed
      cases taken with
      | false => exact account.handled not_false trivial rfl
      | true => exact account.handled not_false (handleRequest_took view) rfl
    · cases executed
  | receive =>
    simp only [step] at executed
    split at executed
    · next attempt taken response sent answered =>
      cases executed
      apply account_next account sent
      rw [answered]
      cases taken with
      | false => exact .inl trivial
      | true =>
        rw [sent, answered] at account
        exact .inr (forwardToLeader_awaits account.honest)
    · cases executed
  | undelivered reason =>
    simp only [step] at executed
    split at executed
    · next attempt sent inFlight =>
      cases executed
      rw [sent, inFlight] at account
      refine account_next ?_ sent (.inl trivial)
      rw [sent]
      exact account.lose
    · cases executed
  | unanswered cause =>
    simp only [step] at executed
    split at executed
    · next attempt sent =>
      cases executed
      exact account_next account sent (.inr ⟨some cause, rfl⟩)
    · cases executed
  | deadline =>
    cases executed
    exact account
  | consumed =>
    simp only [step] at executed
    split at executed
    · next cause awaiting =>
      obtain ⟨-, rfl⟩ := by simpa using executed
      exact awaits awaiting true c.fsm
    · cases executed
  | expire =>
    simp only [step] at executed
    split at executed
    · next cause awaiting =>
      obtain ⟨-, rfl⟩ := by simpa using executed
      exact awaits awaiting _ _
    · cases executed
  | deleteSkipMarker =>
    simp only [step] at executed
    split at executed
    · next result finished =>
      cases executed
      rw [finished] at account
      exact account.delete
    · cases executed
  | apply index =>
    obtain ⟨-, rfl⟩ := by simpa [step] using executed
    exact account

theorem returned_step {result : Option ProposeError} {c c' : Call Id} {action : Action} (returned : c.pc = .returned result)
    (executed : step id transaction transport c action = some c') : c'.pc = .returned result := by
  cases action with
  | deliver | take | apply index =>
    simp only [step, Option.ite_none_right_eq_some, Option.some.injEq] at executed
    obtain ⟨-, rfl⟩ := executed
    exact returned
  | answer view =>
    simp only [step] at executed
    split at executed
    · simp only [Option.ite_none_right_eq_some, Option.some.injEq] at executed
      obtain ⟨-, rfl⟩ := executed
      exact returned
    · cases executed
  | deadline =>
    cases executed
    exact returned
  | _ => simp [step, returned] at executed

/-- Raft takes the entry of a call at most once, and after an error that is safe to retry
it has not taken it and does not take it later. -/
theorem proposed_at_most_once {f : FSM Id} {actions later : List Action} {c c' : Call Id}
    (executed : exec (step id transaction transport) { fsm := f } actions = some c)
    (continued : exec (step id transaction transport) c later = some c') :
    c'.log ≤ 1 ∧ ∀ err, c.pc = .returned (some err) → err.safeToRetry = true → c'.log = 0 := by
  have account : Account c.pc c.log c.request :=
    exec_invariant (fun c => Account c.pc c.log c.request) (fun _ _ _ => account_step) .start executed
  have account' : Account c'.pc c'.log c'.request :=
    exec_invariant (fun c => Account c.pc c.log c.request) (fun _ _ _ => account_step) account continued
  refine ⟨account'.le, fun err returned safe => ?_⟩
  have still : c'.pc = .returned (some err) :=
    exec_invariant (fun c => c.pc = .returned (some err)) (fun _ _ _ => returned_step) returned continued
  rw [still] at account'
  cases account' with
  | returned counts untaken => exact (untaken err rfl safe).1

def deposed : HandlerView := { leading with leader := false, hint := "n3" }

def ahead : HandlerView := { leading with lastApplied := 5 }

/-- A follower is redirected once and then finds that its base is stale. -/
def redirected : List Action :=
  [.createSkipMarker, .resolve follower, .send, .deliver, .answer deposed, .receive, .send, .deliver, .answer ahead,
    .receive, .deleteSkipMarker]

theorem redirected_untaken :
    ∃ c c', exec (step 0 onePage true) { fsm := {} } redirected = some c ∧
      (∃ err, c.pc = .returned (some err) ∧ err.safeToRetry = true) ∧
      exec (step 0 onePage true) c [.deadline] = some c' ∧ c'.log = 0 := by
  have found : (exec (step 0 onePage true) { fsm := {} } redirected).map (fun c => c.pc) =
      some (.returned (some (.notApplied
        "forwarded write lost to a concurrent write (leader applied index 5)" none))) := rfl
  obtain ⟨c, executed, returned⟩ := Option.map_eq_some_iff.mp found
  have continued : exec (step 0 onePage true) c [.deadline] = some { c with expired := true } := rfl
  exact ⟨c, _, executed, ⟨_, returned, rfl⟩, continued, (proposed_at_most_once executed continued).2 _ returned rfl⟩

end Literaft.Proofs.Retries
