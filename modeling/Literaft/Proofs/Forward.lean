import Literaft.Forward
import Literaft.Proofs.Retries
import Mathlib.Data.List.Nodup

/-! The reference transport keeps the promises that the gate relies on, as far as gRPC does for a
unary call. A request it reports as not applied was never sent, a response is the one that a
handler gave to this very request, and no handler is called twice for it. -/

namespace Literaft.Proofs.Forward
open Library Gate Proto Literaft.Forward

variable {setup : Setup}

inductive Goes (setup : Setup) : Action → Call → Call → Prop where
  | undelivered {i fault call} (reason : String) : call.sender = .resolving →
      Goes setup (.conn i fault) call { call with sender := .returned (.notApplied reason) }
  | connected {i fault call} (client : Nat) : call.sender = .resolving →
      Goes setup (.conn i fault) call { call with sender := .marshaling client }
  | refused {i call client} (cause : String) : call.sender = .marshaling client →
      Goes setup (.marshal i) call { call with sender := .returned (.error cause) }
  | marshaled {i call client payload} : call.sender = .marshaling client → setup.request.marshal call.request = .ok payload →
      Goes setup (.marshal i) call { call with sender := .calling client payload }
  | transmit {i call client payload} : call.sender = .calling client payload →
      Goes setup (.transmit i) call { call with sender := .waiting, sent := some payload }
  | reject {i call payload} (err : String) : setup.grpc.delivers call payload = true →
      Goes setup (.dispatch i payload) call { call with runs := call.runs ++ [.replied (.error err)] }
  | dispatch {i call payload request} : setup.grpc.delivers call payload = true → setup.request.unmarshal payload = .ok request →
      Goes setup (.dispatch i payload) call { call with runs := call.runs ++ [.handling request] }
  | respond {i run call request response res} : call.runs[run]? = some (.handling request) →
      (∀ payload, res = .ok payload → setup.response.marshal response = .ok payload) →
      Goes setup (.respond i run response) call
        { call with handled := call.handled ++ [(request, response)], runs := call.runs.set run (.replied res) }
  | receive {i call payload} : call.sender = .waiting → setup.grpc.returns call payload = true →
      Goes setup (.receive i payload) call { call with sender := .returned (received setup.response.unmarshal payload) }
  | fail {i call} (err : String) : (∃ client payload, call.sender = .calling client payload) ∨ call.sender = .waiting →
      Goes setup (.fail i err) call { call with sender := .returned (.error err) }

section Step
variable {s t : State} {action : Action} {i : Nat} {call : Call}

/-- What an action of one call does. Only `conn` changes the transport. -/
theorem call_cases (stepped : call.step setup s i action = some t) :
    ∃ next, Goes setup action call next ∧ t = { s.put i next with transport := t.transport } ∧
      (t.transport = s.transport ∨ call.sender = .resolving ∧
        ∃ fault, t.transport = (s.transport.conn (setup.resolve call.leader) fault).1) := by
  cases action with
  | propose leader request => cases stepped
  | handle addr => cases stepped
  | close => cases stepped
  | conn k fault =>
    simp only [Call.step] at stepped
    split at stepped <;> cases stepped
    next resolving =>
    cases connected : (s.transport.conn (setup.resolve call.leader) fault).2 with
    | error err => exact ⟨_, .undelivered _ resolving, rfl, .inr ⟨resolving, fault, rfl⟩⟩
    | ok client => exact ⟨_, .connected client resolving, rfl, .inr ⟨resolving, fault, rfl⟩⟩
  | marshal k =>
    simp only [Call.step] at stepped
    split at stepped <;> cases stepped
    next client marshaling =>
    cases marshaled : setup.request.marshal call.request with
    | error err => exact ⟨_, .refused _ marshaling, rfl, .inl rfl⟩
    | ok payload => exact ⟨_, .marshaled marshaling marshaled, rfl, .inl rfl⟩
  | transmit k =>
    simp only [Call.step] at stepped
    split at stepped
    · next client payload calling =>
      split at stepped <;> cases stepped
      exact ⟨_, .transmit calling, rfl, .inl rfl⟩
    · cases stepped
  | dispatch k payload =>
    simp only [Call.step] at stepped
    split at stepped <;> cases stepped
    next delivered =>
    unfold Run.start
    split
    · exact ⟨_, .reject _ delivered, rfl, .inl rfl⟩
    · cases unmarshaled : setup.request.unmarshal payload with
      | error err => exact ⟨_, .reject _ delivered, rfl, .inl rfl⟩
      | ok request => exact ⟨_, .dispatch delivered unmarshaled, rfl, .inl rfl⟩
  | respond k run response =>
    simp only [Call.step] at stepped
    split at stepped <;> cases stepped
    next request handling =>
    refine ⟨_, .respond handling ?_, rfl, .inl rfl⟩
    intro payload sent
    cases marshaled : setup.response.marshal response with
    | error err => simp [marshaled, Except.mapError] at sent
    | ok bytes => simpa [marshaled, Except.mapError] using sent
  | receive k payload =>
    simp only [Call.step] at stepped
    split at stepped
    · next waiting =>
      split at stepped <;> cases stepped
      next given => exact ⟨_, .receive waiting given, rfl, .inl rfl⟩
    · cases stepped
  | fail k err =>
    simp only [Call.step] at stepped
    split at stepped <;> cases stepped
    · next client payload calling => exact ⟨_, .fail err (.inl ⟨client, payload, calling⟩), rfl, .inl rfl⟩
    · next waiting => exact ⟨_, .fail err (.inr waiting), rfl, .inl rfl⟩

/-- What an action does: a call begins, no call goes on, or the action's call does. -/
theorem step_cases (stepped : step setup s action = some t) :
    (∃ leader request, action = .propose leader request ∧ t = { s with calls := s.calls ++ [{ leader, request }] }) ∨
    (action.call = none ∧ t.calls = s.calls ∧ (t.transport = s.transport ∨ t.transport = s.transport.close.1)) ∨
    ∃ i call next, action.call = some i ∧ s.calls[i]? = some call ∧ Goes setup action call next ∧
      t = { s.put i next with transport := t.transport } ∧
      (t.transport = s.transport ∨ ∃ addr fault, t.transport = (s.transport.conn addr fault).1) := by
  have goes (i : Nat) (mine : action.call = some i)
      (turned : (action.call.bind fun i => s.calls[i]?.bind fun call => call.step setup s i action) = some t) :
      ∃ i call next, action.call = some i ∧ s.calls[i]? = some call ∧ Goes setup action call next ∧
        t = { s.put i next with transport := t.transport } ∧
        (t.transport = s.transport ∨ ∃ addr fault, t.transport = (s.transport.conn addr fault).1) := by
    rw [mine, Option.bind_some] at turned
    obtain ⟨call, found, stepped⟩ := Option.bind_eq_some_iff.mp turned
    obtain ⟨next, goes, after, transport⟩ := call_cases stepped
    refine ⟨i, call, next, mine, found, goes, after, ?_⟩
    obtain same | ⟨_, fault, made⟩ := transport
    · exact .inl same
    · exact .inr ⟨_, fault, made⟩
  cases action with
  | propose leader request =>
    cases stepped
    exact .inl ⟨leader, request, rfl, rfl⟩
  | handle addr =>
    cases stepped
    exact .inr (.inl ⟨rfl, rfl, .inl rfl⟩)
  | close =>
    cases stepped
    exact .inr (.inl ⟨rfl, rfl, .inr rfl⟩)
  | conn i fault => exact .inr (.inr (goes i rfl stepped))
  | marshal i => exact .inr (.inr (goes i rfl stepped))
  | transmit i => exact .inr (.inr (goes i rfl stepped))
  | dispatch i payload => exact .inr (.inr (goes i rfl stepped))
  | respond i run response => exact .inr (.inr (goes i rfl stepped))
  | receive i payload => exact .inr (.inr (goes i rfl stepped))
  | fail i err => exact .inr (.inr (goes i rfl stepped))

end Step

/-- The call has got as far as sending its request. -/
def Sender.out : Sender → Bool
  | .waiting | .returned (.response _) | .returned (.error _) => true
  | _ => false

/-- What the server has made of a call: nothing, or one run with the call's own request. -/
inductive Served (setup : Setup) (request : LeaderRequest) : List Run → List (LeaderRequest × LeaderResponse) → Prop where
  | unserved : Served setup request [] []
  | handling : Served setup request [.handling request] []
  | rejected (err : String) : Served setup request [.replied (.error err)] []
  | answered {response res} : (∀ payload, res = .ok payload → setup.response.marshal response = .ok payload) →
      Served setup request [.replied res] [(request, response)]

/-- What is on the wire is the call's own request and the answer to it. -/
structure Faithful (setup : Setup) (call : Call) : Prop where
  quiet : Sender.out call.sender = false → call.sent = none
  payload : ∀ client payload, call.sender = .calling client payload → setup.request.marshal call.request = .ok payload
  sent : ∀ payload, call.sent = some payload → setup.request.marshal call.request = .ok payload
  unsent : call.sent = none → call.runs = []
  served : Served setup call.request call.runs call.handled
  answered : ∀ response, call.sender = .returned (.response response) → call.handled = [(call.request, response)]

section Served
variable {request : LeaderRequest} {runs : List Run} {handled : List (LeaderRequest × LeaderResponse)} {run : Nat}

theorem Served.none (served : Served setup request runs handled) (none_ : runs = []) : handled = [] := by
  subst none_
  cases served
  rfl

theorem Served.busy (served : Served setup request runs handled) {other : LeaderRequest}
    (busy : runs[run]? = some (.handling other)) :
    run = 0 ∧ other = request ∧ runs = [.handling request] ∧ handled = [] := by
  cases served with
  | unserved => cases List.mem_of_getElem? busy
  | handling =>
    obtain ⟨inside, same⟩ := List.getElem?_eq_some_iff.mp busy
    obtain rfl : run = 0 := by simpa using inside
    cases same
    exact ⟨rfl, rfl, rfl, rfl⟩
  | rejected err => cases List.mem_singleton.mp (List.mem_of_getElem? busy)
  | answered sent => cases List.mem_singleton.mp (List.mem_of_getElem? busy)

/-- The payload of a run came from the handler. -/
theorem Served.reply (served : Served setup request runs handled) {payload : Bytes} (replied : .replied (.ok payload) ∈ runs) :
    ∃ response, handled = [(request, response)] ∧ runs = [.replied (.ok payload)] ∧ setup.response.marshal response = .ok payload := by
  cases served with
  | unserved => cases replied
  | handling => simp at replied
  | rejected err => simp at replied
  | answered sent =>
    obtain rfl := Run.replied.inj (List.mem_singleton.mp replied)
    exact ⟨_, rfl, rfl, sent payload rfl⟩

theorem Served.once (served : Served setup request runs handled) :
    handled = [] ∨ ∃ response, handled = [(request, response)] := by
  cases served with
  | answered sent => exact .inr ⟨_, rfl⟩
  | _ => exact .inl rfl

end Served

section Faithful
variable {s t : State} {action : Action} {call next : Call} {actions : List Action}

private theorem received_out (unmarshal : Bytes → Except String LeaderResponse) (payload : Bytes) :
    Sender.out (.returned (received unmarshal payload)) = true := by
  unfold received
  cases unmarshal payload <;> rfl

private theorem received_response {unmarshal : Bytes → Except String LeaderResponse} {payload : Bytes} {response : LeaderResponse}
    (got : received unmarshal payload = .response response) : unmarshal payload = .ok response := by
  unfold received at got
  cases read : unmarshal payload with
  | error err => simp [read] at got
  | ok other =>
    simp only [read, Reply.response.injEq] at got
    rw [got]

theorem faithful_new (leader : ServerAddress) (request : LeaderRequest) : Faithful setup { leader, request } :=
  ⟨fun _ => rfl, fun _ _ calling => (by cases calling), fun _ sent => (by cases sent), fun _ => rfl, .unserved,
    fun _ got => (by cases got)⟩

/-- The first run of a call, which has no other. -/
theorem Faithful.dispatched {payload : Bytes} {run : Run} (unary : setup.grpc.Unary) (faithful : Faithful setup call)
    (delivered : setup.grpc.delivers call payload = true) (first : Served setup call.request [run] []) :
    Faithful setup { call with runs := call.runs ++ [run] } := by
  have none_ := unary.once _ _ delivered
  have handled := faithful.served.none none_
  refine ⟨faithful.quiet, faithful.payload, faithful.sent, ?_, ?_, faithful.answered⟩
  · intro never
    cases (unary.intact _ _ delivered).symm.trans never
  · rw [none_, handled]
    exact first

private theorem faithful_goes (unary : setup.grpc.Unary) (faithful : Faithful setup call) (goes : Goes setup action call next) :
    Faithful setup next := by
  have ⟨quiet, payload, sent, unsent, served, answered⟩ := faithful
  cases goes with
  | undelivered reason resolving =>
    rw [resolving] at quiet
    exact ⟨fun _ => quiet rfl, fun _ _ calling => (by cases calling), sent, unsent, served, fun _ got => (by cases got)⟩
  | connected client resolving =>
    rw [resolving] at quiet
    exact ⟨fun _ => quiet rfl, fun _ _ calling => (by cases calling), sent, unsent, served, fun _ got => (by cases got)⟩
  | refused cause marshaling =>
    exact ⟨fun early => (by cases early), fun _ _ calling => (by cases calling), sent, unsent, served, fun _ got => (by cases got)⟩
  | marshaled marshaling made =>
    rw [marshaling] at quiet
    refine ⟨fun _ => quiet rfl, ?_, sent, unsent, served, fun _ got => (by cases got)⟩
    rintro client bytes ⟨⟩
    exact made
  | transmit calling =>
    refine ⟨fun early => (by cases early), fun _ _ again => (by cases again), ?_, fun none_ => (by cases none_), served,
      fun _ got => (by cases got)⟩
    rintro bytes ⟨⟩
    exact payload _ _ calling
  | reject err delivered => exact faithful.dispatched unary delivered (.rejected err)
  | dispatch delivered read =>
    have same := setup.request.faithful _ _ (sent _ (unary.intact _ _ delivered))
    rw [read] at same
    cases same
    exact faithful.dispatched unary delivered .handling
  | respond busy made =>
    obtain ⟨rfl, rfl, alone, unhandled⟩ := served.busy busy
    refine ⟨quiet, payload, sent, ?_, ?_, ?_⟩
    · intro never
      cases alone.symm.trans (unsent never)
    · rw [alone, unhandled]
      exact .answered made
    · intro response got
      cases unhandled.symm.trans (answered response got)
  | receive waiting returned =>
    refine ⟨?_, fun _ _ calling => (by cases calling), sent, unsent, served, ?_⟩
    · intro before
      rw [received_out] at before
      cases before
    · intro response got
      have read := received_response (Sender.returned.inj got)
      obtain ⟨given, handled, -, marshaled⟩ := served.reply (unary.matched _ _ returned)
      have same := setup.response.faithful _ _ marshaled
      rw [read] at same
      cases same
      exact handled
  | fail err before =>
    exact ⟨fun early => (by cases early), fun _ _ calling => (by cases calling), sent, unsent, served, fun _ got => (by cases got)⟩

theorem faithful_step (unary : setup.grpc.Unary) (all : ∀ call ∈ s.calls, Faithful setup call)
    (stepped : step setup s action = some t) : ∀ call ∈ t.calls, Faithful setup call := by
  obtain ⟨leader, request, _, rfl⟩ | ⟨_, same, _⟩ | ⟨i, call, next, _, found, goes, after, _⟩ := step_cases stepped
  · intro call member
    obtain before | new := List.mem_append.mp member
    · exact all call before
    · rw [List.mem_singleton.mp new]
      exact faithful_new leader request
  · rwa [same]
  · rw [after]
    intro other member
    obtain before | rfl := List.mem_or_eq_of_mem_set member
    · exact all other before
    · exact faithful_goes unary (all call (List.mem_of_getElem? found)) goes

private theorem run_faithful (unary : setup.grpc.Unary) (executed : exec (step setup) {} actions = some s) :
    ∀ call ∈ s.calls, Faithful setup call := by
  refine exec_invariant (fun s => ∀ call ∈ s.calls, Faithful setup call) (fun _ _ _ => faithful_step unary) ?_ executed
  intro call member
  cases member

end Faithful

/-- However the calls on a transport interleave with each other, with `Handle` and with `Close`, and
if gRPC does as is asked of it: a handler is called at most once for a request and gets exactly that
request, a request that is reported as not applied has not left the node, and a response is the one
that the handler gave. -/
theorem delivered_once (unary : setup.grpc.Unary) {actions : List Action} {s : State}
    (executed : exec (step setup) {} actions = some s) {call : Call} (member : call ∈ s.calls) :
    (call.handled = [] ∨ ∃ response, call.handled = [(call.request, response)]) ∧
    (∀ reason, call.sender = .returned (.notApplied reason) → call.sent = none ∧ call.runs = [] ∧ call.handled = []) ∧
    ∀ response, call.sender = .returned (.response response) → call.handled = [(call.request, response)] := by
  have faithful := run_faithful unary executed call member
  refine ⟨faithful.served.once, ?_, faithful.answered⟩
  intro reason returned
  have unsent := faithful.quiet (by rw [returned]; rfl)
  have none_ := faithful.unsent unsent
  exact ⟨unsent, none_, faithful.served.none none_⟩

/-- A codec that knows some messages, and sends as many bytes as there are before the one. -/
def codec {α : Type} [DecidableEq α] (messages : List α) : Codec α where
  marshal value := if value ∈ messages then .ok (List.replicate (messages.idxOf value) 0) else .error "unknown message"
  unmarshal payload := messages[payload.length]?.elim (.error "unknown payload") .ok
  faithful := by
    intro value payload made
    split at made
    · next known =>
      cases made
      rw [List.length_replicate, List.getElem?_eq_getElem (List.idxOf_lt_length_iff.mpr known), List.getElem_idxOf]
      rfl
    · cases made

def forwardedRequest : LeaderRequest := ⟨0, some Materialize.onePage⟩

def accepted : LeaderResponse := { status := .ok, lastAppliedIndex := 1 }

def Run.gives (payload : Bytes) : Run → Bool
  | .replied (.ok bytes) => bytes = payload
  | _ => false

/-- gRPC that makes one run of what was sent, and returns what the run gives. -/
def reliable : Grpc where
  delivers call payload := call.runs.isEmpty && call.sent = some payload
  returns call payload := call.runs.any (Run.gives payload)

theorem reliable_unary : reliable.Unary where
  once call payload delivered := List.isEmpty_iff.mp (Bool.and_eq_true_iff.mp delivered).1
  intact call payload delivered := of_decide_eq_true (Bool.and_eq_true_iff.mp delivered).2
  matched call payload returned := by
    obtain ⟨run, member, gives⟩ := List.any_eq_true.mp returned
    unfold Run.gives at gives
    split at gives
    · rw [← of_decide_eq_true gives]
      exact member
    · cases gives

def redirected : LeaderResponse := { status := .notLeader, leaderAddr := "n3" }

def direct : Setup := ⟨codec [forwardedRequest], codec [redirected, accepted], id, reliable⟩

/-- One call is answered, and another finds the transport closed. -/
def answeredThenClosed : List Action :=
  [.handle "n2", .propose "n2" forwardedRequest, .conn 0 none, .marshal 0, .transmit 0, .dispatch 0 [], .respond 0 0 accepted,
    .receive 0 [0], .close, .propose "n2" forwardedRequest, .conn 1 none]

theorem delivered_once_answered : ∃ s first second, exec (step direct) {} answeredThenClosed = some s ∧
    s.calls = [first, second] ∧ first.sender = .returned (.response accepted) ∧
    second.sender = .returned (.notApplied "forward request not delivered to the leader: forward transport closed") ∧
    first.handled = [(forwardedRequest, accepted)] ∧ second.handled = [] := by
  have found : (exec (step direct) {} answeredThenClosed).map State.calls =
      some [⟨"n2", forwardedRequest, .returned (.response accepted), some [], [.replied (.ok [0])], [(forwardedRequest, accepted)]⟩,
        ⟨"n2", forwardedRequest, .returned (.notApplied "forward request not delivered to the leader: forward transport closed"),
          none, [], []⟩] := rfl
  obtain ⟨s, executed, calls⟩ := Option.map_eq_some_iff.mp found
  refine ⟨s, _, _, executed, calls, rfl, rfl, ?_, ?_⟩
  · exact (delivered_once reliable_unary executed (by rw [calls]; exact List.mem_cons_self)).2.2 accepted rfl
  · exact ((delivered_once reliable_unary executed (by rw [calls]; exact .tail _ (.head _))).2.1 _ rfl).2.2

/-- The map has exactly the open clients, each under its address. -/
structure Cached (t : Transport) : Prop where
  found : ∀ entry ∈ t.conns, t.clients[entry.2]? = some ⟨entry.1, false⟩
  kept : ∀ (client : Nat) c, t.clients[client]? = some c → c.closed = false → (c.addr, client) ∈ t.conns
  distinct : (t.conns.map Prod.fst).Nodup
  shut : t.closed = true → t.conns = []

section Cached
variable {t : Transport}

private theorem lookup_none {addr : String} (missing : t.conns.lookup addr = none) :
    addr ∉ t.conns.map Prod.fst := by
  intro member
  obtain ⟨entry, inside, rfl⟩ := List.mem_map.mp member
  have differs := List.lookup_eq_none_iff.mp missing entry inside
  simp at differs

private theorem Cached.clients_distinct (cached : Cached t) : (t.conns.map Prod.snd).Nodup := by
  refine List.Nodup.map_on ?_ (List.Nodup.of_map _ cached.distinct)
  intro first one second two same
  have left := cached.found first one
  have right := cached.found second two
  rw [same, right] at left
  exact Prod.ext (by simpa using left.symm) same

private theorem cached_conn (cached : Cached t) (addr : String) (fault : Option String) : Cached (t.conn addr fault).1 := by
  unfold Transport.conn
  split
  · exact cached
  · next still =>
    split
    · exact cached
    · next missing =>
      split
      · exact cached
      · refine ⟨?_, ?_, ?_, ?_⟩
        · intro entry member
          obtain rfl | before := List.mem_cons.mp member
          · exact List.getElem?_concat_length
          · have old := cached.found entry before
            rw [List.getElem?_append_left (List.getElem?_eq_some_iff.mp old).1]
            exact old
        · intro client c there open_
          by_cases old : client < t.clients.length
          · rw [List.getElem?_append_left old] at there
            exact List.mem_cons_of_mem _ (cached.kept client c there open_)
          · rw [List.getElem?_append_right (Nat.le_of_not_lt old)] at there
            obtain ⟨inside, rfl⟩ := List.getElem?_eq_some_iff.mp there
            have last : client = t.clients.length := by
              rw [List.length_singleton] at inside
              omega
            subst last
            simp
        · exact List.nodup_cons.mpr ⟨lookup_none missing, cached.distinct⟩
        · intro closed
          exact absurd closed still

private theorem closeClient_foldl {numbers : List Nat} {clients : List Client} (errs : List String) (distinct : numbers.Nodup)
    (open_ : ∀ n ∈ numbers, ∃ addr, clients[n]? = some ⟨addr, false⟩) :
    (numbers.foldl Transport.closeClient (clients, errs)).2 = errs ∧
    ∀ n, (numbers.foldl Transport.closeClient (clients, errs)).1[n]? =
      clients[n]?.map fun c => if n ∈ numbers then { c with closed := true } else c := by
  induction numbers generalizing clients with
  | nil => exact ⟨rfl, fun n => by simp⟩
  | cons m rest ih =>
    obtain ⟨addr, here⟩ := open_ m List.mem_cons_self
    obtain ⟨fresh, others⟩ := List.nodup_cons.mp distinct
    have closes : Transport.closeClient (clients, errs) m = (clients.set m ⟨addr, true⟩, errs) := by
      simp [Transport.closeClient, here]
    have inside := (List.getElem?_eq_some_iff.mp here).1
    have other (n : Nat) (member : n ∈ rest) : (clients.set m ⟨addr, true⟩)[n]? = clients[n]? := by
      rw [List.getElem?_set_ne]
      rintro rfl
      exact fresh member
    obtain ⟨failed, done⟩ := ih others fun n member => by
      rw [other n member]
      exact open_ n (List.mem_cons_of_mem _ member)
    rw [List.foldl_cons, closes]
    refine ⟨failed, fun n => ?_⟩
    rw [done n]
    by_cases first : n = m
    · subst first
      rw [List.getElem?_set_self inside, here]
      simp [fresh]
    · rw [List.getElem?_set_ne (Ne.symm first)]
      simp [first]

private theorem close_cases (cached : Cached t) :
    t.close.2 = [] ∧ ∀ n : Nat, t.close.1.clients[n]? = t.clients[n]?.map fun c => { c with closed := true } := by
  have open_ : ∀ n ∈ t.conns.map Prod.snd, ∃ addr, t.clients[n]? = some ⟨addr, false⟩ := by
    intro n member
    obtain ⟨entry, inside, rfl⟩ := List.mem_map.mp member
    exact ⟨_, cached.found entry inside⟩
  obtain ⟨failed, done⟩ := closeClient_foldl [] cached.clients_distinct open_
  refine ⟨failed, fun n => ?_⟩
  refine (done n).trans ?_
  cases there : t.clients[n]? with
  | none => rfl
  | some c =>
    obtain ⟨addr, closed⟩ := c
    cases closed with
    | true => simp
    | false =>
      have member : n ∈ t.conns.map Prod.snd := List.mem_map.mpr ⟨_, cached.kept n _ there rfl, rfl⟩
      simp [member]

private theorem cached_close (cached : Cached t) : Cached t.close.1 := by
  refine ⟨nofun, ?_, List.nodup_nil, fun _ => rfl⟩
  intro client c there open_
  rw [(close_cases cached).2] at there
  obtain ⟨before, _, rfl⟩ := Option.map_eq_some_iff.mp there
  cases open_

private theorem cached_step {s t : State} {action : Action} (cached : Cached s.transport)
    (stepped : step setup s action = some t) :
    Cached t.transport := by
  obtain ⟨leader, request, _, rfl⟩ | ⟨_, _, same | closed⟩ | ⟨i, call, next, _, _, _, _, same | ⟨addr, fault, made⟩⟩ :=
    step_cases stepped
  · exact cached
  · rwa [same]
  · rw [closed]
    exact cached_close cached
  · rwa [same]
  · rw [made]
    exact cached_conn cached addr fault

end Cached

/-- At any time a transport has one open client at most for an address, and that client is the
one it reuses. `Close` fails on no client and leaves none open, and none is opened after it. -/
theorem clients_cached {actions : List Action} {s : State} (executed : exec (step setup) {} actions = some s) :
    (∀ (i j : Nat) (first second : Client), s.transport.clients[i]? = some first → s.transport.clients[j]? = some second →
      first.closed = false → second.closed = false → first.addr = second.addr → i = j) ∧
    s.transport.close.2 = [] ∧ (s.transport.closed = true → ∀ client ∈ s.transport.clients, client.closed = true) := by
  have cached : Cached s.transport := by
    refine exec_invariant (fun s : State => Cached s.transport) (fun _ _ _ => cached_step) ?_ executed
    exact ⟨nofun, nofun, List.nodup_nil, fun _ => rfl⟩
  refine ⟨?_, (close_cases cached).1, ?_⟩
  · intro i j first second one two open_ also same
    have left := cached.kept i first one open_
    have right := cached.kept j second two also
    rw [same] at left
    exact congrArg Prod.snd (List.inj_on_of_nodup_map cached.distinct left right rfl)
  · intro closed client member
    obtain ⟨i, there⟩ := List.getElem?_of_mem member
    cases still : client.closed with
    | true => rfl
    | false =>
      have left := cached.kept i client there still
      rw [cached.shut closed] at left
      cases left

def reused : List Action :=
  [.propose "n2" forwardedRequest, .propose "n3" forwardedRequest, .propose "n2" forwardedRequest, .conn 0 none, .conn 1 none,
    .conn 2 none]

theorem clients_cached_reused : ∃ s, exec (step direct) {} reused = some s ∧
    s.transport.clients = [⟨"n2", false⟩, ⟨"n3", false⟩] ∧ s.transport.close.2 = [] :=
  ⟨_, rfl, rfl, (@clients_cached direct reused _ rfl).2.1⟩

end Literaft.Proofs.Forward
