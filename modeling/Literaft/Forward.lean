import Literaft.Proposal

/-! The reference transport for forwarded writes, and `ProposeTransaction` on top of it. A
transport keeps one client for each address until it is closed. What gRPC does between a client
and a server is a parameter. A call may fail on its own side at any time while the server still
works on the request. -/

namespace Literaft.Forward
open Library Gate Proto

/-- `proto.Marshal` and `proto.Unmarshal` of one type of message. -/
structure Codec (α : Type) where
  marshal : α → Except String Bytes
  unmarshal : Bytes → Except String α
  faithful : ∀ value payload, marshal value = .ok payload → unmarshal payload = .ok value

structure Client where
  addr : String
  closed : Bool := false
  deriving DecidableEq, Repr

/-- `conns` is a map from addresses to clients, which have numbers in the order of their making. -/
structure Transport where
  clients : List Client := []
  conns : List (String × Nat) := []
  closed : Bool := false
  deriving DecidableEq, Repr

namespace Transport

/-- `grpc.NewClient` may fail. -/
def conn (t : Transport) (addr : String) (fault : Option String) : Transport × Except String Nat :=
  if t.closed then (t, .error "forward transport closed")
  else match t.conns.lookup addr with
    | some client => (t, .ok client)
    | none => match fault with
      | some err => (t, .error s!"dial forward target {addr}: {err}")
      | none =>
        ({ t with clients := t.clients ++ [{ addr }], conns := (addr, t.clients.length) :: t.conns }, .ok t.clients.length)

/-- `ClientConn.Close`, which fails on a client that is closed. -/
def closeClient (state : List Client × List String) (client : Nat) : List Client × List String :=
  match state.1[client]? with
  | some c =>
    if c.closed then (state.1, state.2 ++ ["rpc error: code = Canceled desc = grpc: the client connection is closing"])
    else (state.1.set client { c with closed := true }, state.2)
  | none => state

/-- The transport after `Close`, and the errors that it joins. -/
def close (t : Transport) : Transport × List String :=
  let done := (t.conns.map Prod.snd).foldl closeClient (t.clients, [])
  ({ clients := done.1, conns := [], closed := true }, done.2)

end Transport

/-- Where a call of `Transport.Propose` stands. In `waiting` its request is on the way. -/
inductive Sender where
  | resolving
  | marshaling (client : Nat)
  | calling (client : Nat) (payload : Bytes)
  | waiting
  | returned (reply : Reply)
  deriving DecidableEq, Repr

/-- One run of `server.Propose`. The handler has the request, or gRPC has the result, where an error
is the status for the client. -/
inductive Run where
  | handling (request : LeaderRequest)
  | replied (res : Except String Bytes)

/-- `sent` is the payload that gRPC was given, `runs` are the runs of `server.Propose` that it made of
the call, and `handled` has what the handler was called with, and what it returned. -/
structure Call where
  leader : ServerAddress
  request : LeaderRequest
  sender : Sender := .resolving
  sent : Option Bytes := none
  runs : List Run := []
  handled : List (LeaderRequest × LeaderResponse) := []

/-- gRPC is not part of the repository. With a call as it stands it may run `server.Propose` on some
payload, and it may return some payload to the client. -/
structure Grpc where
  delivers : Call → Bytes → Bool
  returns : Call → Bytes → Bool

/-- What is asked of gRPC for a unary call: `server.Propose` runs at most once for it, with the
payload that was sent, and the client gets a payload only from that run. -/
structure Grpc.Unary (grpc : Grpc) : Prop where
  once : ∀ call payload, grpc.delivers call payload = true → call.runs = []
  intact : ∀ call payload, grpc.delivers call payload = true → call.sent = some payload
  matched : ∀ call payload, grpc.returns call payload = true → .replied (.ok payload) ∈ call.runs

structure Setup where
  request : Codec LeaderRequest
  response : Codec LeaderResponse
  resolve : ServerAddress → String
  grpc : Grpc

/-- `handlers` are the addresses of the servers on which `Handle` has been called. -/
structure State where
  transport : Transport := {}
  handlers : List String := []
  calls : List Call := []

inductive Action where
  | propose (leader : ServerAddress) (request : LeaderRequest)
  | handle (addr : String)
  | close
  | conn (i : Nat) (fault : Option String)
  | marshal (i : Nat)
  | transmit (i : Nat)
  | dispatch (i : Nat) (payload : Bytes)
  | respond (i run : Nat) (response : LeaderResponse)
  | receive (i : Nat) (payload : Bytes)
  | fail (i : Nat) (err : String)

/-- `Propose` after `conn`. No client means that nothing was sent. -/
def Call.connected (call : Call) : Except String Nat → Call
  | .error err => { call with sender := .returned (.notApplied s!"forward request not delivered to the leader: {err}") }
  | .ok client => { call with sender := .marshaling client }

def Call.marshaled (call : Call) (client : Nat) : Except String Bytes → Call
  | .error err => { call with sender := .returned (.error s!"marshal forward request: {err}") }
  | .ok payload => { call with sender := .calling client payload }

/-- `server.Propose` up to the call of the handler. -/
def Run.start (registered : Bool) (request : Except String LeaderRequest) : Run :=
  if registered = false then .replied (.error "rpc error: code = Unavailable desc = forward handler not registered")
  else match request with
    | .error err => .replied (.error s!"rpc error: code = InvalidArgument desc = unmarshal forward request: {err}")
    | .ok request => .handling request

def Run.finish (payload : Except String Bytes) : Run :=
  .replied (payload.mapError fun err => s!"rpc error: code = Internal desc = marshal forward response: {err}")

/-- What `Propose` makes of a payload from the server. -/
def received (unmarshal : Bytes → Except String LeaderResponse) (payload : Bytes) : Reply :=
  match unmarshal payload with
  | .error err => .error s!"unmarshal forward response: {err}"
  | .ok response => .response response

def State.put (s : State) (i : Nat) (call : Call) : State := { s with calls := s.calls.set i call }

/-- The steps of call `i`. Nothing is sent through a client that is closed. An error may be the
status of a run or one of gRPC's own, and comes at any time. -/
def Call.step (setup : Setup) (s : State) (i : Nat) (call : Call) : Action → Option State
  | .conn _ fault =>
    match call.sender with
    | .resolving =>
      let found := s.transport.conn (setup.resolve call.leader) fault
      some { s.put i (call.connected found.2) with transport := found.1 }
    | _ => none
  | .marshal _ =>
    match call.sender with
    | .marshaling client => some (s.put i (call.marshaled client (setup.request.marshal call.request)))
    | _ => none
  | .transmit _ =>
    match call.sender with
    | .calling client payload =>
      if (s.transport.clients[client]?.map Client.closed) = some false then
        some (s.put i { call with sender := .waiting, sent := some payload })
      else none
    | _ => none
  | .dispatch _ payload =>
    if setup.grpc.delivers call payload then
      some (s.put i { call with
        runs := call.runs ++ [.start (setup.resolve call.leader ∈ s.handlers) (setup.request.unmarshal payload)] })
    else none
  | .respond _ run response =>
    match call.runs[run]? with
    | some (.handling request) =>
      some (s.put i { call with
        handled := call.handled ++ [(request, response)]
        runs := call.runs.set run (.finish (setup.response.marshal response)) })
    | _ => none
  | .receive _ payload =>
    match call.sender with
    | .waiting =>
      if setup.grpc.returns call payload then
        some (s.put i { call with sender := .returned (received setup.response.unmarshal payload) })
      else none
    | _ => none
  | .fail _ err =>
    match call.sender with
    | .calling _ _ | .waiting => some (s.put i { call with sender := .returned (.error err) })
    | _ => none
  | _ => none

def Action.call : Action → Option Nat
  | .propose _ _ | .handle _ | .close => none
  | .conn i _ | .marshal i | .transmit i | .dispatch i _ | .respond i _ _ | .receive i _ | .fail i _ => some i

def step (setup : Setup) (s : State) (action : Action) : Option State :=
  match action with
  | .propose leader request => some { s with calls := s.calls ++ [{ leader, request }] }
  | .handle addr => some { s with handlers := addr :: s.handlers }
  | .close => some { s with transport := s.transport.close.1 }
  | action => action.call.bind fun i => s.calls[i]?.bind fun call => call.step setup s i action

/-! `ProposeTransaction` over this transport. -/

/-- `leg` is the call that carries the current attempt, `past` are those of the attempts before it,
and `taken` names the runs from whose handlers raft took the entry. The request in `node` stays
unused. -/
structure System (Id : Type) where
  node : Proposal.Call Id
  wire : State := {}
  leg : Option Nat := none
  past : List Nat := []
  taken : List (Nat × Nat) := []

def own : Proposal.Action → Bool
  | .createSkipMarker | .accept | .resolve _ | .deadline | .consumed | .expire | .deleteSkipMarker | .apply _ => true
  | _ => false

inductive Event where
  | own (action : Proposal.Action)
  | send
  | wire (action : Action)
  | take (i run : Nat)
  | answer (i run : Nat) (view : HandlerView)
  | proposed

namespace System
variable {Id : Type}

def call (s : System Id) : Option Call := s.leg.bind fun i => s.wire.calls[i]?

def carries (s : System Id) (i : Nat) : Bool := s.leg = some i || i ∈ s.past

def run (s : System Id) (i run : Nat) : Option Run :=
  if s.carries i then s.wire.calls[i]?.bind fun call => call.runs[run]? else none

/-- An answer to the own request comes from `handleRequest` alone. -/
def answers (s : System Id) : Action → Bool
  | .respond i _ _ => s.carries i
  | _ => false

/-- `forwardToLeader` after `Propose`: a redirect is another call of the transport. -/
def next (s : System Id) (attempt : Nat) (reply : Reply) : System Id :=
  match forwardToLeader attempt reply with
  | .retry _ => { s with node := s.node.next attempt reply, leg := none, past := s.leg.toList ++ s.past }
  | _ => { s with node := s.node.next attempt reply }

variable [DecidableEq Id]

def step (setup : Setup) (id : Id) (transaction : LogEntryTransaction) (s : System Id) : Event → Option (System Id)
  | .own action =>
    if own action then (Proposal.step id transaction true s.node action).map fun node => { s with node } else none
  | .send =>
    match s.node.pc, s.node.base with
    | .forwarding attempt leader, some base =>
      if leader = "" then some { s with node := { s.node with pc := .finished (some (.notLeader "")) } }
      else (Forward.step setup s.wire (.propose leader ⟨base, some transaction⟩)).map fun wire =>
        { s with node := { s.node with pc := .sent attempt }, wire, leg := some s.wire.calls.length }
    | _, _ => none
  | .wire action =>
    if s.answers action then none else (Forward.step setup s.wire action).map fun wire => { s with wire }
  | .take i run =>
    match s.run i run with
    | some (.handling _) =>
      if (i, run) ∈ s.taken then none
      else some { s with taken := (i, run) :: s.taken, node := { s.node with log := s.node.log + 1 } }
    | _ => none
  | .answer i run view =>
    match s.run i run with
    | some (.handling request) =>
      if view.took request ((i, run) ∈ s.taken) then
        (Forward.step setup s.wire (.respond i run (handleRequest view request))).map fun wire => { s with wire }
      else none
    | _ => none
  | .proposed =>
    match s.node.pc, s.call.map Call.sender with
    | .sent attempt, some (.returned reply) => some (s.next attempt reply)
    | _, _ => none

end System

end Literaft.Forward
