import Literaft.Proofs.Forward

/-! `ProposeTransaction` over the reference transport, step by step a run of the model whose
transport only promises not to deliver what it reports as not applied. So what is proved of that
model holds here: raft takes an entry once at most, and a retry is safe where the error says so. -/

namespace Literaft.Proofs.Forwarding
open Library Fsm Gate Proto Literaft.Forward Proofs.Forward Retries Materialize

variable {Id : Type} {setup : Setup} {transaction : LogEntryTransaction}

def isSent : Proposal.Pc → Bool
  | .sent _ => true
  | _ => false

/-- The call has not come to `Propose`, or comes back to it. -/
def isEarly : Proposal.Pc → Bool
  | .start | .proposing | .accepted | .forwarding _ _ => true
  | _ => false

/-- What a call of the transport is to `forwardToLeader`. -/
def outcome (sent taken : Bool) (call : Call) : Proposal.Request :=
  match call.handled with
  | (_, response) :: _ => .answered taken response
  | [] => match call.runs with
    | .handling _ :: _ => .handling taken
    | _ => match call.sender with
      | .returned (.notApplied _) => if sent then .inFlight else .lost
      | _ => .inFlight

def legTaken (s : System Id) : Bool := s.leg.any fun i => s.taken.contains (i, 0)

/-- The state of the model: all that the node has, and what the current attempt's call is to it. -/
def view (s : System Id) : Proposal.Call Id :=
  { s.node with request := (s.call.map (outcome (isSent s.node.pc) (legTaken s))).getD .unsent }

/-- The current attempt's call carries the own request and is still running exactly while the node
waits for it. The handlers of earlier attempts are done. -/
structure Legal (setup : Setup) (transaction : LogEntryTransaction) (s : System Id) : Prop where
  wire : ∀ call ∈ s.wire.calls, Faithful setup call
  early : isEarly s.node.pc = true → s.leg = none
  sent : isSent s.node.pc = true → s.leg ≠ none
  leg : ∀ i, s.leg = some i → ∃ call base, s.wire.calls[i]? = some call ∧ s.node.base = some base ∧
    call.request = ⟨base, some transaction⟩
  returned : ∀ call, s.call = some call → isSent s.node.pc = false → ∃ reply, call.sender = .returned reply
  past : ∀ i ∈ s.past, ∃ call res, s.wire.calls[i]? = some call ∧ call.runs = [.replied res]
  taken : ∀ i run, (i, run) ∈ s.taken → ∃ call, s.wire.calls[i]? = some call ∧ call.runs ≠ []

section Own
variable [DecidableEq Id] {id : Id} {c c' : Proposal.Call Id} {action : Proposal.Action}

private theorem own_request (isOwn : own action = true) (stepped : Proposal.step id transaction true c action = some c')
    (request : Proposal.Request) :
    Proposal.step id transaction true { c with request := request } action = some { c' with request := request } := by
  cases action with
  | createSkipMarker | accept | apply index =>
    simp only [Proposal.step, Option.ite_none_right_eq_some, Option.some.injEq] at stepped ⊢
    obtain ⟨now, rfl⟩ := stepped
    exact ⟨now, rfl⟩
  | resolve seen =>
    simp only [Proposal.step, Option.ite_none_right_eq_some, Option.some.injEq] at stepped ⊢
    obtain ⟨now, rfl⟩ := stepped
    refine ⟨now, ?_⟩
    unfold Proposal.Call.resolved
    split
    · split <;> rfl
    · rfl
  | deadline =>
    cases stepped
    rfl
  | consumed =>
    simp only [Proposal.step] at stepped ⊢
    split at stepped
    · next cause awaiting =>
      split at stepped <;> cases stepped
      next marked =>
      simp [marked, Proposal.Call.awaited]
    · cases stepped
  | expire =>
    simp only [Proposal.step] at stepped ⊢
    split at stepped
    · next cause awaiting =>
      split at stepped <;> cases stepped
      next passed =>
      simp [passed, Proposal.Call.awaited]
    · cases stepped
  | deleteSkipMarker =>
    simp only [Proposal.step] at stepped ⊢
    split at stepped <;> cases stepped
    next result finished =>
    simp
  | _ => cases isOwn

private theorem own_pc (isOwn : own action = true) (stepped : Proposal.step id transaction true c action = some c') :
    isSent c'.pc = isSent c.pc ∧ (isEarly c'.pc = true → isEarly c.pc = true) ∧
      (c'.base = c.base ∨ isEarly c.pc = true) := by
  cases action with
  | createSkipMarker | accept =>
    simp only [Proposal.step, Option.ite_none_right_eq_some, Option.some.injEq] at stepped
    obtain ⟨now, rfl⟩ := stepped
    rw [now]
    exact ⟨rfl, fun _ => rfl, .inl rfl⟩
  | resolve seen =>
    simp only [Proposal.step, Option.ite_none_right_eq_some, Option.some.injEq] at stepped
    obtain ⟨now, rfl⟩ := stepped
    have before : isSent c.pc = false ∧ isEarly c.pc = true := by
      obtain ⟨proposing, _⟩ | ⟨accepted, _⟩ := now
      · rw [proposing]
        exact ⟨rfl, rfl⟩
      · rw [accepted]
        exact ⟨rfl, rfl⟩
    refine ⟨?_, fun _ => before.2, .inr before.2⟩
    rw [before.1]
    unfold Proposal.Call.resolved
    split
    · split <;> rfl
    · rfl
  | deadline =>
    cases stepped
    exact ⟨rfl, fun early => early, .inl rfl⟩
  | consumed | expire =>
    simp only [Proposal.step] at stepped
    split at stepped
    · next cause awaiting =>
      split at stepped <;> cases stepped
      rw [awaiting]
      exact ⟨rfl, fun early => (by cases early), .inl rfl⟩
    · cases stepped
  | deleteSkipMarker =>
    simp only [Proposal.step] at stepped
    split at stepped <;> cases stepped
    next result finished =>
    rw [finished]
    exact ⟨rfl, fun early => (by cases early), .inl rfl⟩
  | apply index =>
    simp only [Proposal.step, Option.ite_none_right_eq_some, Option.some.injEq] at stepped
    obtain ⟨_, rfl⟩ := stepped
    exact ⟨rfl, fun early => early, .inl rfl⟩
  | _ => cases isOwn

end Own

section Outcome
variable {sent taken : Bool} {call next : Call} {action : Action}

private theorem outcome_silent (none_ : call.handled = []) (idle : ∀ request rest, call.runs ≠ .handling request :: rest)
    (kept : sent = true ∨ ∀ reason, call.sender ≠ .returned (.notApplied reason)) : outcome sent taken call = .inFlight := by
  have quiet : (match call.sender with
      | .returned (.notApplied _) => if sent then Proposal.Request.inFlight else .lost
      | _ => .inFlight) = .inFlight := by
    split
    · next reason lost =>
      obtain rfl | never := kept
      · rfl
      · exact absurd lost (never _)
    · rfl
  unfold outcome
  rw [none_]
  cases runs : call.runs with
  | nil => exact quiet
  | cons run rest =>
    cases run with
    | handling request => exact absurd runs (idle request rest)
    | replied res => exact quiet

private theorem outcome_handling {request : LeaderRequest} (none_ : call.handled = [])
    (handling : call.runs = [.handling request]) :
    outcome sent taken call = .handling taken := by
  unfold outcome
  rw [none_, handling]

private theorem outcome_answered {request : LeaderRequest} {response : LeaderResponse}
    (handled : call.handled = [(request, response)]) :
    outcome sent taken call = .answered taken response := by
  unfold outcome
  rw [handled]

private theorem outcome_sent (never : ∀ reason, call.sender ≠ .returned (.notApplied reason)) :
    outcome true taken call = outcome false taken call := by
  unfold outcome
  cases call.handled with
  | cons entry rest => rfl
  | nil =>
    have same : (match call.sender with
        | .returned (.notApplied _) => if true then Proposal.Request.inFlight else .lost
        | _ => .inFlight) = match call.sender with
        | .returned (.notApplied _) => if false then Proposal.Request.inFlight else .lost
        | _ => .inFlight := by
      split
      · next reason lost => exact absurd lost (never _)
      · rfl
    cases call.runs with
    | nil => exact same
    | cons run rest =>
      cases run with
      | handling request => rfl
      | replied res => exact same

private theorem not_lost (faithful : Faithful setup call) (sending : call.sent ≠ none) (reason : String) :
    call.sender ≠ .returned (.notApplied reason) := by
  intro lost
  exact sending (faithful.quiet (by rw [lost]; rfl))

theorem outcome_sender (waits : sent = true) (sender : Sender) (payload : Option Bytes) :
    outcome sent taken { call with sender := sender, sent := payload } = outcome sent taken call := by
  obtain ⟨leader, request, before, given, runs, handled⟩ := call
  cases handled with
  | cons entry rest => rfl
  | nil =>
    by_cases handling : ∃ request rest, runs = .handling request :: rest
    · obtain ⟨request, rest, rfl⟩ := handling
      rfl
    · have silent (sender : Sender) (payload : Option Bytes) :
          outcome sent taken ⟨leader, request, sender, payload, runs, []⟩ = .inFlight :=
        outcome_silent rfl (fun request rest same => handling ⟨request, rest, same⟩) (.inl waits)
      exact (silent sender payload).trans (silent before given).symm

/-- A step of the transport other than the handler's answer changes nothing for
`forwardToLeader`, or hands the request to the handler. -/
theorem outcome_goes (unary : setup.grpc.Unary) (taken : Bool) (faithful : Faithful setup call)
    (goes : Goes setup action call next)
    (other : ∀ i run response, action ≠ .respond i run response)
    (running : sent = false → ∃ reply, call.sender = .returned reply) :
    outcome sent taken next = outcome sent taken call ∨
      call.runs = [] ∧ outcome sent taken call = .inFlight ∧ outcome sent taken next = .handling taken := by
  have inside {sender : Sender} (now : call.sender = sender) (busy : ∀ reply, sender ≠ .returned reply) : sent = true := by
    cases known : sent with
    | true => rfl
    | false =>
      obtain ⟨reply, returned⟩ := running known
      exact absurd (now.symm.trans returned) (busy reply)
  have silent {payload : Bytes} (delivered : setup.grpc.delivers call payload = true) :
      call.runs = [] ∧ call.handled = [] ∧ outcome sent taken call = .inFlight ∧
        ∀ reason, call.sender ≠ .returned (.notApplied reason) := by
    have none_ := unary.once _ _ delivered
    have unhandled := faithful.served.none none_
    have kept := not_lost faithful (by rw [unary.intact _ _ delivered]; exact Option.some_ne_none _)
    exact ⟨none_, unhandled, outcome_silent unhandled (by simp [none_]) (.inr kept), kept⟩
  cases goes with
  | undelivered reason resolving => exact .inl (outcome_sender (inside resolving fun _ same => (by cases same)) _ _)
  | connected client resolving => exact .inl (outcome_sender (inside resolving fun _ same => (by cases same)) _ _)
  | refused cause marshaling => exact .inl (outcome_sender (inside marshaling fun _ same => (by cases same)) _ _)
  | marshaled marshaling made => exact .inl (outcome_sender (inside marshaling fun _ same => (by cases same)) _ _)
  | transmit calling => exact .inl (outcome_sender (inside calling fun _ same => (by cases same)) _ _)
  | reject err delivered =>
    obtain ⟨none_, unhandled, before, kept⟩ := silent delivered
    refine .inl (Eq.trans ?_ before.symm)
    exact outcome_silent unhandled (by simp [none_]) (.inr kept)
  | dispatch delivered read =>
    obtain ⟨none_, unhandled, before, -⟩ := silent delivered
    exact .inr ⟨none_, before, outcome_handling unhandled (by rw [none_]; rfl)⟩
  | respond handling sent => exact absurd rfl (other _ _ _)
  | receive waiting replied => exact .inl (outcome_sender (inside waiting fun _ same => (by cases same)) _ _)
  | fail err before =>
    refine .inl (outcome_sender ?_ _ _)
    obtain ⟨client, payload, calling⟩ | waiting := before
    · exact inside calling fun _ same => (by cases same)
    · exact inside waiting fun _ same => (by cases same)

end Outcome

section Goes
variable {call next : Call} {action : Action} {reply : Reply}

private theorem goes_request (goes : Goes setup action call next) : next.request = call.request := by
  cases goes <;> rfl

private theorem goes_returned (goes : Goes setup action call next) (returned : call.sender = .returned reply) :
    next.sender = .returned reply := by
  cases goes with
  | reject err flying => exact returned
  | dispatch flying read => exact returned
  | respond handling sent => exact returned
  | undelivered reason now => cases now.symm.trans returned
  | connected client now => cases now.symm.trans returned
  | refused cause now => cases now.symm.trans returned
  | marshaled now made => cases now.symm.trans returned
  | transmit now => cases now.symm.trans returned
  | receive now replied => cases now.symm.trans returned
  | fail err before =>
    obtain ⟨client, payload, now⟩ | now := before
    · cases now.symm.trans returned
    · cases now.symm.trans returned

private theorem goes_runs (goes : Goes setup action call next) (some_ : call.runs ≠ []) : next.runs ≠ [] := by
  cases goes with
  | reject err delivered => simp
  | dispatch delivered read => simp
  | respond handling sent => simpa using some_
  | _ => exact some_

private theorem goes_over (unary : setup.grpc.Unary) (goes : Goes setup action call next) {res : Except String Bytes}
    (over_ : call.runs = [.replied res]) : next.runs = [.replied res] := by
  cases goes with
  | reject err delivered => cases over_.symm.trans (unary.once _ _ delivered)
  | dispatch delivered read => cases over_.symm.trans (unary.once _ _ delivered)
  | respond busy sent =>
    rw [over_] at busy
    cases List.mem_singleton.mp (List.mem_of_getElem? busy)
  | _ => exact over_

end Goes

section Step
variable {s t : System Id} {action : Action} {wire : State} {call : Call} {i : Nat}

private theorem call_of_leg (leg : s.leg = some i) : s.call = s.wire.calls[i]? := by
  rw [System.call, leg]
  rfl

/-- A step of the transport leaves a call, or is a step of it. -/
theorem wire_call (found : s.wire.calls[i]? = some call) (stepped : step setup s.wire action = some wire) :
    wire.calls[i]? = some call ∨
      ∃ next, action.call = some i ∧ Goes setup action call next ∧ wire.calls[i]? = some next := by
  have inside := (List.getElem?_eq_some_iff.mp found).1
  obtain ⟨leader, request, _, rfl⟩ | ⟨_, same, _⟩ | ⟨k, other, next, mine, there, goes, after, _⟩ := step_cases stepped
  · exact .inl ((List.getElem?_append_left inside).trans found)
  · rw [same]
    exact .inl found
  · rw [after]
    by_cases same : k = i
    · subst same
      cases there.symm.trans found
      exact .inr ⟨next, mine, goes, List.getElem?_set_self inside⟩
    · exact .inl ((List.getElem?_set_ne same).trans found)

theorem wire_keeps (kept : Call → Prop) (keeps : ∀ {next}, kept call → Goes setup action call next → kept next)
    (found : s.wire.calls[i]? = some call) (stepped : step setup s.wire action = some wire) (now : kept call) :
    ∃ next, wire.calls[i]? = some next ∧ kept next := by
  obtain same | ⟨next, _, goes, after⟩ := wire_call found stepped
  · exact ⟨call, same, now⟩
  · exact ⟨next, after, keeps now goes⟩

/-- A step of the transport keeps the current attempt legal. -/
theorem legal_wire (unary : setup.grpc.Unary) (legal : Legal setup transaction s)
    (stepped : step setup s.wire action = some wire) :
    Legal setup transaction { s with wire } := by
  refine ⟨faithful_step unary legal.wire stepped, legal.early, legal.sent, ?_, ?_, ?_, ?_⟩
  · intro i leg
    obtain ⟨call, base, there, based, carries⟩ := legal.leg i leg
    obtain ⟨next, after, same⟩ := wire_keeps (fun next => next.request = ⟨base, some transaction⟩)
      (fun now goes => (goes_request goes).trans now) there stepped carries
    exact ⟨next, base, after, based, same⟩
  · intro next after idle
    obtain ⟨i, leg, there⟩ := Option.bind_eq_some_iff.mp after
    obtain ⟨call, base, before, _, _⟩ := legal.leg i leg
    obtain ⟨reply, returned⟩ := legal.returned call ((call_of_leg (s := s) leg).trans before) idle
    obtain ⟨other, now, kept⟩ := wire_keeps (fun next => next.sender = .returned reply)
      (fun now goes => goes_returned goes now) before stepped returned
    cases there.symm.trans now
    exact ⟨reply, kept⟩
  · intro i member
    obtain ⟨call, res, there, over_⟩ := legal.past i member
    obtain ⟨next, after, kept⟩ := wire_keeps (fun next => next.runs = [.replied res])
      (fun now goes => goes_over unary goes now) there stepped over_
    exact ⟨next, res, after, kept⟩
  · intro i run member
    obtain ⟨call, there, some_⟩ := legal.taken i run member
    exact wire_keeps (fun next => next.runs ≠ []) (fun now goes => goes_runs goes now) there stepped some_

private theorem view_call (s : System Id) {call : Call} (found : s.call = some call) :
    view s = { s.node with request := outcome (isSent s.node.pc) (legTaken s) call } := by
  rw [view, found]
  rfl

private theorem view_unsent (s : System Id) (leg : s.leg = none) : view s = { s.node with request := .unsent } := by
  rw [view, System.call, leg]
  rfl

private theorem view_next (found : s.call = some call) (attempt : Nat) (reply : Reply) :
    view (s.next attempt reply) =
      ({ s.node with request := outcome false (legTaken s) call } : Proposal.Call Id).next attempt reply := by
  unfold System.next Proposal.Call.next
  cases forwardToLeader attempt reply with
  | fail err => exact view_call { s with node := { s.node with pc := .finished (some err) } } found
  | await cause => exact view_call { s with node := { s.node with pc := .awaiting cause } } found
  | retry leader => rfl

private theorem retry_response {attempt : Nat} {reply : Reply} {leader : ServerAddress}
    (retried : forwardToLeader attempt reply = .retry leader) : ∃ response, reply = .response response := by
  cases reply with
  | response response => exact ⟨response, rfl⟩
  | notApplied reason => cases retried
  | error cause => cases retried

private theorem legal_next {attempt : Nat} {reply : Reply} (legal : Legal setup transaction s) (found : s.call = some call)
    (returned : call.sender = .returned reply) : Legal setup transaction (s.next attempt reply) := by
  have heard : ∀ other, s.call = some other → ∃ reply, other.sender = .returned reply := by
    intro other there
    cases found.symm.trans there
    exact ⟨reply, returned⟩
  unfold System.next Proposal.Call.next
  cases went : forwardToLeader attempt reply with
  | fail err =>
    exact ⟨legal.wire, fun early => (by cases early), fun now => (by cases now), legal.leg, fun other there _ => heard other there,
      legal.past, legal.taken⟩
  | await cause =>
    exact ⟨legal.wire, fun early => (by cases early), fun now => (by cases now), legal.leg, fun other there _ => heard other there,
      legal.past, legal.taken⟩
  | retry leader =>
    refine ⟨legal.wire, fun _ => rfl, fun now => (by cases now), fun _ some_ => (by cases some_), fun _ some_ => (by cases some_), ?_,
      legal.taken⟩
    intro i member
    obtain ⟨k, leg, there⟩ := Option.bind_eq_some_iff.mp found
    rw [leg, Option.toList_some, List.singleton_append] at member
    obtain rfl | before := List.mem_cons.mp member
    · obtain ⟨response, rfl⟩ := retry_response went
      have faithful := legal.wire call (List.mem_of_getElem? there)
      have handled := faithful.answered response returned
      have served := faithful.served
      rw [handled] at served
      generalize runs : call.runs = runs at served
      cases served with
      | answered sent => exact ⟨call, _, there, runs⟩
    · exact legal.past i before

/-- The next attempt is a new call, which carries the own request. -/
theorem legal_sent {base : Nat} (legal : Legal setup transaction s) (attempt : Nat) (leader : ServerAddress)
    (based : s.node.base = some base) : Legal setup transaction { s with
      node := { s.node with pc := .sent attempt }
      wire := { s.wire with calls := s.wire.calls ++ [{ leader, request := ⟨base, some transaction⟩ }] }
      leg := some s.wire.calls.length } := by
  have grown {i : Nat} {call : Call} (found : s.wire.calls[i]? = some call) :
      (s.wire.calls ++ [({ leader, request := ⟨base, some transaction⟩ } : Call)])[i]? = some call :=
    (List.getElem?_append_left (List.getElem?_eq_some_iff.mp found).1).trans found
  refine ⟨?_, fun early => (by cases early), fun _ unsent => (by cases unsent), ?_, fun _ _ quiet => (by cases quiet), ?_, ?_⟩
  · intro call member
    obtain before | new := List.mem_append.mp member
    · exact legal.wire call before
    · rw [List.mem_singleton.mp new]
      exact faithful_new _ _
  · rintro i ⟨⟩
    exact ⟨_, base, List.getElem?_concat_length, based, rfl⟩
  · intro i member
    obtain ⟨call, res, found, over_⟩ := legal.past i member
    exact ⟨call, res, grown found, over_⟩
  · intro i run member
    obtain ⟨call, found, some_⟩ := legal.taken i run member
    exact ⟨call, grown found, some_⟩

/-- A run in which a handler works is the one of the current attempt. -/
theorem run_leg {run : Nat} {request : LeaderRequest} (legal : Legal setup transaction s)
    (busy : s.run i run = some (.handling request)) :
    run = 0 ∧ s.leg = some i ∧ ∃ call base, s.wire.calls[i]? = some call ∧ s.call = some call ∧ s.node.base = some base ∧
      call.request = ⟨base, some transaction⟩ ∧ request = call.request ∧ call.runs = [.handling call.request] ∧ call.handled = [] := by
  unfold System.run at busy
  split at busy
  · next carries =>
    obtain ⟨call, there, running⟩ := Option.bind_eq_some_iff.mp busy
    obtain ⟨rfl, own, alone, unhandled⟩ := (legal.wire call (List.mem_of_getElem? there)).served.busy running
    obtain now | before := Bool.or_eq_true_iff.mp carries
    · have leg := of_decide_eq_true now
      obtain ⟨other, base, same, based, asked⟩ := legal.leg i leg
      cases there.symm.trans same
      exact ⟨rfl, leg, call, base, there, (call_of_leg leg).trans there, based, asked, own, alone, unhandled⟩
    · obtain ⟨other, res, same, over_⟩ := legal.past i (of_decide_eq_true before)
      cases there.symm.trans same
      cases alone.symm.trans over_
  · cases busy

private theorem untaken_of_unserved {i : Nat} {call : Call} (legal : Legal setup transaction s)
    (there : s.wire.calls[i]? = some call)
    (unserved : call.runs = []) (run : Nat) : (i, run) ∉ s.taken := by
  intro member
  obtain ⟨other, same, some_⟩ := legal.taken i run member
  cases there.symm.trans same
  exact some_ unserved

end Step

section Simulation
variable [DecidableEq Id] {id : Id} {s t : System Id}

def Follows (id : Id) (transaction : LogEntryTransaction) (s t : System Id) : Prop :=
  view t = view s ∨ ∃ action, Proposal.step id transaction true (view s) action = some (view t)

private theorem own_follows {action : Proposal.Action} {node : Proposal.Call Id} (legal : Legal setup transaction s)
    (isOwn : own action = true) (stepped : Proposal.step id transaction true s.node action = some node) :
    Legal setup transaction { s with node } ∧ Follows id transaction s { s with node } := by
  obtain ⟨sent, early, based⟩ := own_pc isOwn stepped
  refine ⟨⟨legal.wire, fun now => legal.early (early now), ?_, ?_, ?_, legal.past, legal.taken⟩, .inr ⟨action, ?_⟩⟩
  · intro now
    exact legal.sent (sent.symm.trans now)
  · intro i leg
    obtain ⟨call, base, there, known, carries⟩ := legal.leg i leg
    obtain same | before := based
    · exact ⟨call, base, there, same.trans known, carries⟩
    · cases (legal.early before).symm.trans leg
  · intro call found idle
    exact legal.returned call found (sent.symm.trans idle)
  · have same : view { s with node } = { node with request := (view s).request } := by
      simp only [view, sent]
      rfl
    rw [same]
    exact own_request isOwn stepped (view s).request

private theorem wire_follows {action : Action} {wire : State} (unary : setup.grpc.Unary) (legal : Legal setup transaction s)
    (other : s.answers action = false) (stepped : step setup s.wire action = some wire) :
    Follows id transaction s { s with wire } := by
  obtain leg | ⟨i, leg⟩ := Option.eq_none_or_eq_some s.leg
  · refine .inl ?_
    rw [view_unsent s leg]
    exact view_unsent _ leg
  · obtain ⟨call, base, there, _, _⟩ := legal.leg i leg
    have found : s.call = some call := (call_of_leg leg).trans there
    have moved (next : Call) (after : wire.calls[i]? = some next) :
        view { s with wire } = { s.node with request := outcome (isSent s.node.pc) (legTaken s) next } :=
      view_call { s with wire } ((call_of_leg (s := { s with wire }) leg).trans after)
    obtain same | ⟨next, mine, goes, after⟩ := wire_call there stepped
    · refine .inl ?_
      rw [moved _ same, view_call s found]
    · have foreign : ∀ k run response, action ≠ .respond k run response := by
        rintro k run response rfl
        cases mine
        simp [System.answers, System.carries, leg] at other
      have faithful := legal.wire call (List.mem_of_getElem? there)
      obtain same | ⟨unserved, before, now⟩ := outcome_goes unary (legTaken s) faithful goes foreign (legal.returned call found)
      · refine .inl ?_
        rw [moved _ after, view_call s found, same]
      · have untaken : legTaken s = false := by
          simpa [legTaken, leg] using untaken_of_unserved legal there unserved 0
        refine .inr ⟨.deliver, ?_⟩
        rw [moved _ after, view_call s found, before, now, untaken]
        rfl

private theorem send_follows (legal : Legal setup transaction s) (stepped : s.step setup id transaction .send = some t) :
    Legal setup transaction t ∧ Follows id transaction s t := by
  simp only [System.step] at stepped
  split at stepped
  · next attempt leader base forwarding based =>
    have leg := legal.early (by rw [forwarding]; rfl)
    split at stepped
    · next unknown =>
      cases stepped
      subst unknown
      refine ⟨⟨legal.wire, fun _ => leg, fun now => (by cases now), ?_, ?_, legal.past, legal.taken⟩, .inr ⟨.send, ?_⟩⟩
      · intro i some_
        cases leg.symm.trans some_
      · intro call found
        obtain ⟨i, some_, _⟩ := Option.bind_eq_some_iff.mp found
        cases leg.symm.trans some_
      · have after := view_unsent { s with node := { s.node with pc := .finished (some (.notLeader "")) } } leg
        rw [view_unsent s leg, after]
        simp [Proposal.step, forwarding]
    · next known =>
      cases stepped
      refine ⟨legal_sent legal attempt leader based, .inr ⟨.send, ?_⟩⟩
      have after := view_call { s with
        node := { s.node with pc := .sent attempt }
        wire := { s.wire with calls := s.wire.calls ++ [{ leader, request := ⟨base, some transaction⟩ }] }
        leg := some s.wire.calls.length } List.getElem?_concat_length
      rw [view_unsent s leg]
      refine Eq.trans ?_ (congrArg some after.symm)
      simp only [Proposal.step, forwarding, if_neg known]
      rfl
  · cases stepped

private theorem take_follows {i run : Nat} (legal : Legal setup transaction s)
    (stepped : s.step setup id transaction (.take i run) = some t) :
    Legal setup transaction t ∧ Follows id transaction s t := by
  simp only [System.step] at stepped
  split at stepped
  · next request busy =>
    obtain ⟨rfl, leg, call, base, there, found, -, -, -, alone, none_⟩ := run_leg legal busy
    split at stepped
    · cases stepped
    · next untaken =>
      cases stepped
      refine ⟨⟨legal.wire, legal.early, legal.sent, legal.leg, legal.returned, legal.past, ?_⟩, .inr ⟨.take, ?_⟩⟩
      · intro k other member
        obtain new | before := List.mem_cons.mp member
        · cases new
          exact ⟨call, there, by rw [alone]; exact List.cons_ne_nil _ _⟩
        · exact legal.taken k other before
      · have after := view_call { s with taken := (i, 0) :: s.taken, node := { s.node with log := s.node.log + 1 } } found
        have now : legTaken ({ s with taken := (i, 0) :: s.taken, node := { s.node with log := s.node.log + 1 } } : System Id) = true := by
          simp [legTaken, leg]
        have before : legTaken s = false := by simpa [legTaken, leg] using untaken
        rw [view_call s found, after, outcome_handling none_ alone, outcome_handling none_ alone, now, before]
        simp [Proposal.step]
  · cases stepped

private theorem answer_follows {i run : Nat} {seen : HandlerView} (unary : setup.grpc.Unary) (legal : Legal setup transaction s)
    (stepped : s.step setup id transaction (.answer i run seen) = some t) :
    Legal setup transaction t ∧ Follows id transaction s t := by
  simp only [System.step] at stepped
  split at stepped
  · next request busy =>
    obtain ⟨rfl, leg, call, base, there, found, based, carries, rfl, alone, none_⟩ := run_leg legal busy
    split at stepped
    · next took =>
      obtain ⟨wire, moved, rfl⟩ := Option.map_eq_some_iff.mp stepped
      refine ⟨legal_wire unary legal moved, .inr ⟨.answer seen, ?_⟩⟩
      have inside := (List.getElem?_eq_some_iff.mp there).1
      obtain ⟨next, after, answered⟩ : ∃ next : Call, ({ s with wire } : System Id).call = some next ∧
          next.handled = [(call.request, handleRequest seen call.request)] := by
        rw [call_of_leg (s := { s with wire }) leg]
        simp only [step, Action.call, Option.bind_some, there, Call.step, alone, List.getElem?_cons_zero, Option.some.injEq] at moved
        subst moved
        exact ⟨_, List.getElem?_set_self inside, by rw [none_]; rfl⟩
      have same : legTaken ({ s with wire } : System Id) = legTaken s := rfl
      have flag : legTaken s = decide ((i, 0) ∈ s.taken) := by simp [legTaken, leg]
      rw [view_call s found, view_call _ after, outcome_handling none_ alone, outcome_answered answered, same]
      rw [carries, ← flag] at took
      rw [carries]
      simp only [Proposal.step, based, if_pos took]
    · cases stepped
  · cases stepped

private theorem returned_follows {attempt : Nat} {reply : Reply} {call : Call} (legal : Legal setup transaction s)
    (sent : s.node.pc = .sent attempt) (found : s.call = some call) (returned : call.sender = .returned reply) :
    Follows id transaction s (s.next attempt reply) := by
  obtain ⟨i, leg, there⟩ := Option.bind_eq_some_iff.mp found
  have faithful := legal.wire call (List.mem_of_getElem? there)
  have before := view_call s found
  cases reply with
  | notApplied reason =>
    have unserved := faithful.unsent (faithful.quiet (by rw [returned]; rfl))
    have none_ := faithful.served.none unserved
    have flying : outcome true (legTaken s) call = .inFlight := outcome_silent none_ (by simp [unserved]) (.inl rfl)
    have lost : outcome false (legTaken s) call = .lost := by
      unfold outcome
      rw [none_, unserved, returned]
      rfl
    refine .inr ⟨.undelivered reason, ?_⟩
    rw [view_next found, before, sent, lost]
    change Proposal.step id transaction true { s.node with request := outcome true (legTaken s) call } _ = _
    simp only [Proposal.step, sent, flying]
  | error cause =>
    have same : outcome true (legTaken s) call = outcome false (legTaken s) call :=
      outcome_sent (by intro _ lost; cases returned.symm.trans lost)
    refine .inr ⟨.unanswered cause, ?_⟩
    rw [view_next found, before, sent, ← same]
    simp only [Proposal.step, sent]
    rfl
  | response res =>
    have answered := faithful.answered res returned
    refine .inr ⟨.receive, ?_⟩
    rw [view_next found, before, outcome_answered answered, outcome_answered answered]
    simp only [Proposal.step, sent]

private theorem proposed_follows (legal : Legal setup transaction s) (stepped : s.step setup id transaction .proposed = some t) :
    Legal setup transaction t ∧ Follows id transaction s t := by
  simp only [System.step] at stepped
  split at stepped
  · next attempt reply sent heard =>
    cases stepped
    obtain ⟨call, found, returned⟩ := Option.map_eq_some_iff.mp heard
    refine ⟨legal_next legal found returned, returned_follows legal sent found returned⟩
  · cases stepped

theorem system_step {event : Event} (unary : setup.grpc.Unary) (legal : Legal setup transaction s)
    (stepped : s.step setup id transaction event = some t) : Legal setup transaction t ∧ Follows id transaction s t := by
  cases event with
  | own action =>
    simp only [System.step] at stepped
    split at stepped
    · next isOwn =>
      obtain ⟨node, moved, rfl⟩ := Option.map_eq_some_iff.mp stepped
      exact own_follows legal isOwn moved
    · cases stepped
  | send => exact send_follows legal stepped
  | wire action =>
    simp only [System.step] at stepped
    split at stepped
    · cases stepped
    · next other =>
      obtain ⟨wire, moved, rfl⟩ := Option.map_eq_some_iff.mp stepped
      exact ⟨legal_wire unary legal moved, wire_follows unary legal (by simpa using other) moved⟩
  | take i run => exact take_follows legal stepped
  | answer i run seen => exact answer_follows unary legal stepped
  | proposed => exact proposed_follows legal stepped

theorem system_run {events : List Event} (unary : setup.grpc.Unary) (legal : Legal setup transaction s)
    (executed : exec (System.step setup id transaction) s events = some t) :
    Legal setup transaction t ∧ ∃ actions, exec (Proposal.step id transaction true) (view s) actions = some (view t) := by
  induction events generalizing s with
  | nil =>
    cases executed
    exact ⟨legal, [], rfl⟩
  | cons event rest ih =>
    obtain ⟨next, first, remaining⟩ := Option.bind_eq_some_iff.mp executed
    obtain ⟨kept, same | ⟨action, stepped⟩⟩ := system_step unary legal first
    · rw [← same]
      exact ih kept remaining
    · obtain ⟨done, actions, ran⟩ := ih kept remaining
      refine ⟨done, action :: actions, ?_⟩
      rw [exec, stepped]
      exact ran

end Simulation

theorem legal_start (f : FSM Id) : Legal setup transaction { node := { fsm := f } } :=
  ⟨fun _ member => (by cases member), fun _ => rfl, fun now => (by cases now), fun _ some_ => (by cases some_),
    fun _ some_ => (by cases some_), fun _ member => (by cases member), fun _ _ member => (by cases member)⟩

variable [DecidableEq Id] {id : Id} {f : FSM Id}

/-- Whatever `ProposeTransaction` goes through over the reference transport, with other calls,
`Handle` and `Close` in between, the model goes through with it: what it has at the end is a state
of the model, and an event that may come next is no step of the model or one. -/
theorem forwarding_refines (unary : setup.grpc.Unary) {events : List Event} {s : System Id}
    (executed : exec (System.step setup id transaction) { node := { fsm := f } } events = some s) :
    (∃ actions, exec (Proposal.step id transaction true) { fsm := f } actions = some (view s)) ∧
    (∃ request, view s = { s.node with request }) ∧
    ∀ event t, s.step setup id transaction event = some t →
      view t = view s ∨ ∃ action, Proposal.step id transaction true (view s) action = some (view t) := by
  obtain ⟨legal, ran⟩ := system_run unary (legal_start f) executed
  exact ⟨ran, ⟨_, rfl⟩, fun _ _ stepped => (system_step unary legal stepped).2⟩

def deposed : HandlerView := { leading with leader := false, hint := "n3" }

/-- The first call is redirected, and the answer to the second is lost on its way back. The deadline
finds the marker consumed. -/
def unheard : List Event :=
  [.own .createSkipMarker, .own (.resolve follower), .wire (.handle "n2"), .wire (.handle "n3"), .send, .wire (.conn 0 none),
    .wire (.marshal 0), .wire (.transmit 0), .wire (.dispatch 0 []), .answer 0 0 deposed, .wire (.receive 0 []), .proposed,
    .send, .wire (.conn 1 none), .wire (.marshal 1), .wire (.transmit 1), .wire (.dispatch 1 []), .take 1 0, .answer 1 0 leading,
    .wire (.fail 1 "connection reset"), .proposed, .own .deadline, .own (.apply 1), .own .expire, .own .deleteSkipMarker]

theorem forwarding_refines_unheard : ∃ s : System Nat, exec (System.step direct 0 onePage)
    { node := { fsm := {} } } unheard = some s ∧
    (s.node.pc, s.node.log, s.node.applied, s.past) = (.returned none, 1, [.skipped], [0]) ∧
    ∃ actions, exec (Proposal.step 0 onePage true) { fsm := {} } actions = some (view s) := by
  have found : (exec (System.step direct 0 onePage) { node := { fsm := {} } } unheard).map
      (fun s => (s.node.pc, s.node.log, s.node.applied, s.past)) = some (.returned none, 1, [.skipped], [0]) := rfl
  obtain ⟨s, executed, seen⟩ := Option.map_eq_some_iff.mp found
  exact ⟨s, executed, seen, (forwarding_refines reliable_unary executed).1⟩

theorem untaken_later (unary : setup.grpc.Unary) {events later : List Event} {s t : System Id}
    (executed : exec (System.step setup id transaction) { node := { fsm := f } } events = some s)
    (continued : exec (System.step setup id transaction) s later = some t) :
    t.node.log ≤ 1 ∧ ∀ err, s.node.pc = .returned (some err) → err.safeToRetry = true → t.node.log = 0 := by
  obtain ⟨legal, actions, ran⟩ := system_run unary (legal_start f) executed
  obtain ⟨_, more, went⟩ := system_run unary legal continued
  have account : Account (view s).pc (view s).log (view s).request :=
    exec_invariant (fun c => Account c.pc c.log c.request) (fun _ _ _ => account_step) .start ran
  have after : Account (view t).pc (view t).log (view t).request :=
    exec_invariant (fun c => Account c.pc c.log c.request) (fun _ _ _ => account_step) account went
  refine ⟨after.le, ?_⟩
  intro err returned safe
  have still : (view t).pc = .returned (some err) :=
    exec_invariant (fun c => c.pc = .returned (some err)) (fun _ _ _ => returned_step) returned went
  rw [still] at after
  cases after with
  | returned counts untaken => exact (untaken err rfl safe).1

/-- Over the reference transport raft takes the entry of a write once at most. If the error is
safe to retry then raft has not taken the entry and never does. Whenever a forwarded write that has
returned is committed it is materialized exactly once: by the writer if the call has returned nil,
and by `Apply` otherwise. -/
theorem forwarded_write_sound (unary : setup.grpc.Unary) (fresh : f.skipMarkers id = none) {events later : List Event}
    {s t : System Id}
    (executed : exec (System.step setup id transaction) { node := { fsm := f } } events = some s)
    (continued : exec (System.step setup id transaction) s later = some t) :
    t.node.log ≤ 1 ∧ (∀ err, s.node.pc = .returned (some err) → err.safeToRetry = true → t.node.log = 0) ∧
    (s.node.base ≠ none → ExactlyOnce s.node) := by
  obtain ⟨once, untaken⟩ := untaken_later unary executed continued
  refine ⟨once, untaken, ?_⟩
  intro forwarded
  obtain ⟨_, actions, ran⟩ := system_run unary (legal_start f) executed
  obtain sound | ⟨direct, _⟩ := exec_invariant (Settles id) (fun _ _ _ => settles_step) (.inl (sound_start fresh)) ran
  · exact sound.exactlyOnce
  · exact absurd direct forwarded

def closedFirst : List Event :=
  [.own .createSkipMarker, .own (.resolve follower), .wire .close, .send, .wire (.conn 0 none), .proposed,
    .own .deleteSkipMarker]

theorem forwarded_write_sound_closed : (∃ s t : System Nat,
    exec (System.step direct 0 onePage) { node := { fsm := {} } } closedFirst = some s ∧
      (∃ err, s.node.pc = .returned (some err) ∧ err.safeToRetry = true) ∧
      exec (System.step direct 0 onePage) s [.own .deadline] = some t ∧ t.node.log = 0) ∧
    ∃ s : System Nat, exec (System.step direct 0 onePage) { node := { fsm := {} } } unheard = some s ∧
      s.node.pc = .returned none ∧ s.node.applied = [.skipped] := by
  have found : (exec (System.step direct 0 onePage) { node := { fsm := {} } } closedFirst).map (fun s => s.node.pc) =
      some (.returned (some (.notApplied
        "forward request not delivered to the leader: forward transport closed" none))) := rfl
  have heard : (exec (System.step direct 0 onePage) { node := { fsm := {} } } unheard).map (fun s => (s.node.pc, s.node.base)) =
      some (.returned none, some 0) := rfl
  obtain ⟨s, executed, returned⟩ := Option.map_eq_some_iff.mp found
  obtain ⟨u, ran, ended⟩ := Option.map_eq_some_iff.mp heard
  obtain ⟨done, forwarded⟩ := Prod.mk.inj ended
  have continued : exec (System.step direct 0 onePage) s [.own .deadline] =
      some { s with node := { s.node with expired := true } } := rfl
  have once := (forwarded_write_sound reliable_unary rfl ran (show exec _ u [] = some u from rfl)).2.2 (by rw [forwarded]; simp)
  exact ⟨⟨s, _, executed, ⟨_, returned, rfl⟩, continued,
    (forwarded_write_sound reliable_unary rfl executed continued).2.1 _ returned rfl⟩, u, ran, done, (once none done).1.mp rfl⟩

end Literaft.Proofs.Forwarding
