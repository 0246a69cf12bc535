import Literaft.Gate
import Literaft.Library.Machine
import Mathlib.Logic.Function.Basic

/-! The control plane of a cluster: nodes join and leave through any member, and a member that is
not the leader passes the call on to the leader it knows. A node that starts again asks for its
place only when its address has changed. -/

namespace Literaft.Membership
open Library Gate

abbrev ServerID := String

structure Server where
  id : ServerID
  address : ServerAddress
  deriving DecidableEq, Repr

inductive Request where
  | addVoter (id : ServerID) (address : ServerAddress)
  | removeVoter (id : ServerID)
  deriving DecidableEq, Repr

/-- How raft makes one configuration of another, which is not part of the repository. A server that
is added is there with its address, one that is removed is not there, and no other server is added. -/
structure Raft where
  configure : List Server → Request → List Server
  adds : ∀ servers id address, ⟨id, address⟩ ∈ configure servers (.addVoter id address) ∧
    ∀ server ∈ configure servers (.addVoter id address), server.id = id → server.address = address
  removes : ∀ servers id, ∀ server ∈ configure servers (.removeVoter id), server.id ≠ id
  others : ∀ servers request, ∀ server ∈ configure servers request,
    (∃ old ∈ servers, old.id = server.id) ∨ ∃ address, request = .addVoter server.id address

inductive Code where
  | unavailable
  | internal
  | other (name : String)
  deriving DecidableEq, Repr

structure Status where
  code : Code
  message : String
  deriving DecidableEq, Repr

def leaderClient (leader : ServerAddress) (fault : Option String) : Except Status ServerAddress :=
  if leader = "" then .error ⟨.unavailable, "no known leader to forward to"⟩
  else match fault with
    | some err => .error ⟨.unavailable, s!"dial leader {leader}: {err}"⟩
    | none => .ok leader

def Request.refusal (err : String) : Request → Status
  | .addVoter id _ => ⟨.internal, s!"add voter {id}: {err}"⟩
  | .removeVoter id => ⟨.internal, s!"remove voter {id}: {err}"⟩

structure Recovered where
  recorded : ServerAddress := ""
  inConfig : Bool := false
  peers : List ServerAddress := []

def Recovered.add (id : ServerID) (found : Recovered) (server : Server) : Recovered :=
  if server.id = id then { found with recorded := server.address, inConfig := true }
  else { found with peers := found.peers ++ [server.address] }

def reannounceTargets (servers : List Server) (id : ServerID) (bindAddr joinAddr : ServerAddress) :
    Bool × List ServerAddress :=
  let found := servers.foldl (Recovered.add id) {}
  if found.inConfig = false ∨ found.recorded = bindAddr then (false, [])
  else if joinAddr ≠ "" then (true, joinAddr :: found.peers)
  else (true, found.peers)

/-- How a node comes up: in a cluster of its own, by a `Join` through one of the targets after the
other, or with nothing to ask for. -/
inductive Starting where
  | bootstrap (servers : List Server)
  | join (targets : List ServerAddress)
  | nothing
  | alone (bindAddr : ServerAddress)
  deriving DecidableEq, Repr

/-- `run` up to the point where the node listens. `servers` is the configuration it recovers. -/
def starting (hasState : Bool) (servers : List Server) (id : ServerID) (bindAddr joinAddr : ServerAddress) : Starting :=
  if hasState = false then
    if joinAddr = "" then .bootstrap [⟨id, bindAddr⟩] else .join [joinAddr]
  else
    let moved := reannounceTargets servers id bindAddr joinAddr
    if moved.1 = false then .nothing
    else if moved.2 = [] then .alone bindAddr
    else .join moved.2

/-- Where the handler of a call stands. In `raft` it waits for the future. -/
inductive Handler where
  | idle
  | raft
  | forwarding (call : Nat)
  | answered (res : Except Status Unit)

/-- A call of `AddVoter` or `RemoveVoter` at some member. `asked` and `made` say whether raft has
been asked for the change and has made it, `result` is what the caller got, and `since` is the
number of changes made when the call was sent. -/
structure Call where
  request : Request
  handler : Handler := .idle
  asked : Bool := false
  made : Bool := false
  result : Option (Except Status Unit) := none
  since : Nat

inductive JoinError where
  | dial (err : String)
  | status (err : Status)
  | timedOut (err : Status)
  deriving DecidableEq, Repr

inductive Pc where
  | dialing
  | calling (call : Nat)
  | sleeping (err : Status)
  | done
  | failed
  | gone
  deriving DecidableEq, Repr

/-- A run of `Join` in the process of the node `owner`, which goes from one target to the next
until one takes it, or a run of `Leave`, which has no owner. -/
structure Client where
  owner : Option ServerID
  targets : List ServerAddress
  request : Request
  pc : Pc := .dialing
  errs : List (ServerAddress × JoinError) := []
  since : Nat

/-- `known` is the newest configuration in the log of a node. -/
structure Node where
  running : Bool := false
  hasState : Bool := false
  known : Option Nat := none
  deriving DecidableEq, Repr

/-- `history` has the configurations that raft has committed, and `changes` has what made each of
them of the one before. -/
structure State where
  history : List (List Server) := []
  changes : List Request := []
  nodes : ServerID → Node := fun _ => {}
  calls : List Call := []
  clients : List Client := []

inductive Action where
  | start (id : ServerID) (bindAddr joinAddr : ServerAddress)
  | stop (id : ServerID)
  | persist (id : ServerID)
  | learn (id : ServerID) (k : Nat)
  | leave (addr : ServerAddress) (id : ServerID)
  | command (index : Nat) (request : Request)
  | dial (j : Nat) (fault : Option String)
  | handle (c : Nat) (isLeader : Bool) (leader : ServerAddress) (fault : Option String)
  | commit (c : Nat)
  | future (c : Nat) (err : Option String)
  | forwarded (c : Nat)
  | reply (c : Nat)
  | broken (c : Nat) (err : Status)
  | heard (j : Nat)
  | retry (j : Nat)
  | timeout (j : Nat)
  deriving DecidableEq, Repr

namespace Client

/-- One target has not taken the call. -/
def fail (client : Client) (err : JoinError) : Client :=
  match client.targets with
  | [] => { client with pc := .failed }
  | target :: rest =>
    { client with targets := rest, pc := if rest = [] then .failed else .dialing, errs := client.errs ++ [(target, err)] }

/-- `Join` tries again after `Unavailable`, and `Leave` does not. -/
def hear (client : Client) : Except Status Unit → Client
  | .ok _ => { client with pc := .done }
  | .error err =>
    if client.owner.isSome ∧ err.code = .unavailable then { client with pc := .sleeping err } else client.fail (.status err)

/-- Ends what runs in the process of a node. -/
def stop (id : ServerID) (client : Client) : Client :=
  if client.owner = some id then { client with pc := .gone } else client

end Client

namespace State

def setNode (s : State) (id : ServerID) (node : Node) : State := { s with nodes := Function.update s.nodes id node }
def setCall (s : State) (c : Nat) (call : Call) : State := { s with calls := s.calls.set c call }
def setClient (s : State) (j : Nat) (client : Client) : State := { s with clients := s.clients.set j client }

def recovered (s : State) (id : ServerID) : List Server := ((s.nodes id).known.bind (s.history[·]?)).getD []

def send (s : State) (request : Request) : State := { s with calls := s.calls ++ [{ request, since := s.changes.length }] }

def begin (s : State) (owner : Option ServerID) (targets : List ServerAddress) (request : Request) (pc : Pc) : State :=
  { s with clients := s.clients ++ [{ owner, targets, request, pc, since := s.changes.length }] }

def change (s : State) (raft : Raft) (request : Request) : Option State :=
  s.history.getLast?.map fun servers =>
    { s with history := s.history ++ [raft.configure servers request], changes := s.changes ++ [request] }

def start (s : State) (id : ServerID) (bindAddr joinAddr : ServerAddress) : Option State :=
  let node := s.nodes id
  let up := s.setNode id { node with running := true }
  if node.running then none
  else match starting node.hasState (s.recovered id) id bindAddr joinAddr with
    | .bootstrap servers =>
      -- with no state and no one to join, a second node would be another cluster
      if s.history = [] then some { s.setNode id { running := true, hasState := true, known := some 0 } with history := [servers] }
      else none
    | .join targets => some (up.begin (some id) targets (.addVoter id bindAddr) .dialing)
    | .nothing | .alone _ => some up

end State

def step (raft : Raft) (s : State) : Action → Option State
  | .start id bindAddr joinAddr => s.start id bindAddr joinAddr
  | .stop id => some { s.setNode id { s.nodes id with running := false } with clients := s.clients.map (Client.stop id) }
  | .persist id => some (s.setNode id { s.nodes id with hasState := true })
  | .learn id k =>
    if k < s.history.length ∧ (s.nodes id).known.all (· ≤ k) then
      some (s.setNode id { s.nodes id with hasState := true, known := some k })
    else none
  | .leave addr id => some (s.begin none [addr] (.removeVoter id) .dialing)
  | .command index request =>
    -- raft refuses when the configuration that the command has read is not the newest one
    if index = s.history.length then (s.begin none [] request .done).change raft request else none
  | .dial j fault => s.clients[j]?.bind fun client =>
    if client.pc = .dialing then
      match fault with
      | some err => some (s.setClient j (client.fail (.dial err)))
      | none => some ((s.send client.request).setClient j { client with pc := .calling s.calls.length })
    else none
  | .handle c isLeader leader fault => s.calls[c]?.bind fun call =>
    match call.handler with
    | .idle =>
      if isLeader then some (s.setCall c { call with handler := .raft, asked := true })
      else match leaderClient leader fault with
        | .error err => some (s.setCall c { call with handler := .answered (.error err) })
        | .ok _ => some ((s.send call.request).setCall c { call with handler := .forwarding s.calls.length })
    | _ => none
  | .commit c => s.calls[c]?.bind fun call =>
    -- a future that has failed does not say that the change will not be made
    if call.asked ∧ call.made = false then (s.setCall c { call with made := true }).change raft call.request else none
  | .future c err => s.calls[c]?.bind fun call =>
    match call.handler, err with
    | .raft, none => if call.made then some (s.setCall c { call with handler := .answered (.ok ()) }) else none
    | .raft, some err => some (s.setCall c { call with handler := .answered (.error (call.request.refusal err)) })
    | _, _ => none
  | .forwarded c => s.calls[c]?.bind fun call =>
    match call.handler with
    | .forwarding next => (s.calls[next]?.bind (·.result)).map fun res => s.setCall c { call with handler := .answered res }
    | _ => none
  | .reply c => s.calls[c]?.bind fun call =>
    match call.handler, call.result with
    | .answered res, none => some (s.setCall c { call with result := some res })
    | _, _ => none
  | .broken c err => s.calls[c]?.bind fun call =>
    if call.result.isNone then some (s.setCall c { call with result := some (.error err) }) else none
  | .heard j => s.clients[j]?.bind fun client =>
    match client.pc with
    | .calling c => (s.calls[c]?.bind (·.result)).map fun res => s.setClient j (client.hear res)
    | _ => none
  | .retry j => s.clients[j]?.bind fun client =>
    match client.pc with
    | .sleeping _ => some ((s.send client.request).setClient j { client with pc := .calling s.calls.length })
    | _ => none
  | .timeout j => s.clients[j]?.bind fun client =>
    match client.pc with
    | .sleeping err => some (s.setClient j (client.fail (.timedOut err)))
    | _ => none

end Literaft.Membership
