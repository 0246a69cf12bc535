import Literaft.Fsm
import Literaft.Gate
import Literaft.Library.Machine

/-! One call of `ProposeTransaction` on the node it was made on, interleaved with the
handler its request may reach, the transport between them, the call's deadline, and this
node's `Apply` of the entry. -/

namespace Literaft.Proposal
open Library Fsm Gate Proto

/-- Where the call stands. `finished` has its result but not yet run the deferred
`DeleteSkipMarker`; `sent` is inside `leaderTransport.Propose`. -/
inductive Pc where
  | start
  | proposing
  | accepted
  | forwarding (attempt : Nat) (leader : ServerAddress)
  | sent (attempt : Nat)
  | awaiting (cause : Option String)
  | finished (result : Option ProposeError)
  | returned (result : Option ProposeError)
  deriving DecidableEq, Repr

/-- The request of the current attempt. A handler that has answered is done, so an
earlier attempt's request needs no place of its own. `taken` says that raft took the
entry from this handler. -/
inductive Request where
  | unsent
  | inFlight
  | lost
  | handling (taken : Bool)
  | answered (taken : Bool) (response : LeaderResponse)
  deriving DecidableEq, Repr

/-- `log` counts how often raft took the entry, and `applied` is what `Apply` did with it
each time. `base` is set once the request is built. -/
structure Call (Id : Type) where
  fsm : FSM Id
  pc : Pc := .start
  base : Option Nat := none
  request : Request := .unsent
  expired : Bool := false
  log : Nat := 0
  applied : List Outcome := []

inductive Action where
  | createSkipMarker
  | accept
  | resolve (view : RaftView)
  | send
  | deliver
  | take
  | answer (view : HandlerView)
  | receive
  | undelivered (reason : String)
  | unanswered (cause : String)
  | deadline
  | consumed
  | expire
  | deleteSkipMarker
  | apply (index : Nat)

variable {Id : Type} [DecidableEq Id]

namespace Call

/-- `ProposeTransaction` after `proposeEntry`. -/
def resolved (transport : Bool) (c : Call Id) (err : Option ProposeError) : Call Id :=
  match transport, err with
  | true, some (.notLeader leader) =>
    if leader = "" then { c with pc := .finished err }
    else { c with pc := .forwarding 0 leader, base := some c.fsm.lastApplied }
  | _, _ => { c with pc := .finished err }

/-- `forwardToLeader` after `Propose`. -/
def next (c : Call Id) (attempt : Nat) (reply : Reply) : Call Id :=
  match forwardToLeader attempt reply with
  | .fail err => { c with pc := .finished (some err) }
  | .await cause => { c with pc := .awaiting cause }
  | .retry leader => { c with pc := .forwarding (attempt + 1) leader, request := .unsent }

/-- `awaitFSMApplied` once `AwaitSkipMarkerConsumed` has returned. -/
def awaited (c : Call Id) (cause : Option String) (consumed : Bool) : Call Id :=
  { c with pc := .finished (if consumed then none else some (.ambiguous (cause.getD "context deadline exceeded"))) }

end Call

/-- The body of `Apply`: the frames are skipped when the marker was still pending. -/
def apply (f : FSM Id) (id : Id) (index : Nat) : FSM Id × Outcome :=
  if (f.tryConsumeSkipMarker id index).2 then ((f.tryConsumeSkipMarker id index).1, .skipped)
  else (f.store index, .appended)

/-- Raft hands an entry to `Apply` after it took it, as often as it took it. A future
resolves with nil once `Apply` has run for it; one that fails was not handed to `Apply`
before. The transport loses a request it reports as not applied. -/
def step (id : Id) (transaction : LogEntryTransaction) (transport : Bool) (c : Call Id) : Action → Option (Call Id)
  | .createSkipMarker =>
    if c.pc = .start then some { c with pc := .proposing, fsm := c.fsm.createSkipMarker id } else none
  | .accept => if c.pc = .proposing then some { c with pc := .accepted, log := c.log + 1 } else none
  | .resolve view =>
    if c.pc = .proposing ∧ view.took false ∨
        c.pc = .accepted ∧ view.took true ∧ (view.future = .ok ↔ c.applied ≠ []) then
      some (c.resolved transport (proposeEntry view))
    else none
  | .send =>
    match c.pc with
    | .forwarding attempt leader =>
      if leader = "" then some { c with pc := .finished (some (.notLeader "")) }
      else some { c with pc := .sent attempt, request := .inFlight }
    | _ => none
  | .deliver => if c.request = .inFlight then some { c with request := .handling false } else none
  | .take =>
    if c.request = .handling false then some { c with request := .handling true, log := c.log + 1 } else none
  | .answer view =>
    match c.request, c.base with
    | .handling taken, some base =>
      if view.took ⟨base, some transaction⟩ taken then
        some { c with request := .answered taken (handleRequest view ⟨base, some transaction⟩) }
      else none
    | _, _ => none
  | .receive =>
    match c.pc, c.request with
    | .sent attempt, .answered _ response => some (c.next attempt (.response response))
    | _, _ => none
  | .undelivered reason =>
    match c.pc, c.request with
    | .sent attempt, .inFlight => some (({ c with request := .lost } : Call Id).next attempt (.notApplied reason))
    | _, _ => none
  | .unanswered cause =>
    match c.pc with
    | .sent attempt => some (c.next attempt (.error cause))
    | _ => none
  | .deadline => some { c with expired := true }
  | .consumed =>
    match c.pc with
    | .awaiting cause => if c.fsm.skipMarkers id = some .skipped then some (c.awaited cause true) else none
    | _ => none
  | .expire =>
    match c.pc with
    | .awaiting cause =>
      if c.expired then
        some (({ c with fsm := (c.fsm.expireSkipMarker id).1 } : Call Id).awaited cause (c.fsm.expireSkipMarker id).2)
      else none
    | _ => none
  | .deleteSkipMarker =>
    match c.pc with
    | .finished result => some { c with pc := .returned result, fsm := c.fsm.deleteSkipMarker id }
    | _ => none
  | .apply index =>
    if c.applied.length < c.log then
      some { c with fsm := (apply c.fsm id index).1, applied := c.applied ++ [(apply c.fsm id index).2] }
    else none

end Literaft.Proposal
