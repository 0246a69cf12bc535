import Literaft.Library.Machine
import Mathlib.Logic.Function.Basic

/-! How a node that gains leadership holds writes back until its apply backlog is
drained: raft, the goroutine of `watchLeadership`, the `drain` goroutines it starts, and
calls of `proposeEntry`. -/

namespace Literaft.Leadership
open Library

/-- `received` has read a value from `LeaderCh`; `cleared` has set `ready` to false after
a gain of leadership and is about to read the term for a new `drain`. -/
inductive Watch where
  | idle
  | received (isLeader : Bool)
  | cleared
  deriving DecidableEq, Repr

/-- A run of `drain(term)`. `stateChecked` and `checked` are inside its first condition,
`waiting` is inside `Barrier`, which raft took in term `issued` at index `index`, and the
`locked` ones hold `readyMu`. -/
inductive Drain where
  | idle
  | entered (term : Nat)
  | stateChecked (term : Nat)
  | checked (term : Nat)
  | waiting (term issued index : Nat)
  | completed (term issued : Nat)
  | locked (term issued : Nat)
  | lockedState (term issued : Nat)
  | lockedTerm (term issued : Nat)
  deriving DecidableEq, Repr

/-- A run of `proposeEntry`: past its own look at the state, past the one of
`leaderReady`, and past `ready`, which it read in term `term`. -/
inductive Proposer where
  | idle
  | stateChecked
  | leaderChecked
  | ready (term : Nat)
  deriving DecidableEq, Repr

/-- `unposted` is a change of leadership raft has yet to post, and `leaderCh` the last one
posted and not received. `log` and `applied` count this node's log entries and those its
state machine has applied, `elected` is the length of the log it was elected with, and
`drained` says in which terms a barrier of this node has completed. -/
structure State where
  leader : Bool := false
  term : Nat := 0
  unposted : Option Bool := none
  leaderCh : Option Bool := none
  log : Nat := 0
  elected : Nat := 0
  applied : Nat := 0
  drained : Nat → Bool := fun _ => false
  ready : Bool := false
  readyMu : Option Nat := none
  watch : Watch := .idle
  drains : Nat → Drain := fun _ => .idle
  proposers : Nat → Proposer := fun _ => .idle

inductive Action where
  | elect (term log : Nat)
  | stepDown (term : Nat)
  | observe (term : Nat)
  | post
  | apply
  | receive
  | clear
  | spawn (d : Nat)
  | drainState (d : Nat)
  | drainTerm (d : Nat)
  | barrier (d : Nat)
  | barrierDone (d : Nat)
  | barrierFailed (d : Nat)
  | lockReady (d : Nat)
  | readState (d : Nat)
  | readTerm (d : Nat)
  | setReady (d : Nat)
  | checkState (p : Nat)
  | checkLeader (p : Nat)
  | checkReady (p : Nat)
  | accept (p : Nat)
  | reject (p : Nat)

namespace State

def setDrain (s : State) (d : Nat) (pc : Drain) : State := { s with drains := Function.update s.drains d pc }

def setProposer (s : State) (p : Nat) (pc : Proposer) : State :=
  { s with proposers := Function.update s.proposers p pc }

def unlock (s : State) (d : Nat) (ready : Bool) : State := { s.setDrain d .idle with readyMu := none, ready := ready }

end State

/-- A node is elected with every committed entry in its log, so with all it has applied.
A barrier completes once everything before it is applied. A leader's log grows with what
raft takes from it. -/
def step (s : State) : Action → Option State
  | .elect term log =>
    if s.leader = false ∧ s.term < term ∧ s.applied ≤ log then
      some { s with leader := true, term := term, unposted := some true, log := log, elected := log }
    else none
  | .stepDown term =>
    if s.leader = true ∧ s.term ≤ term then some { s with leader := false, term := term, unposted := some false }
    else none
  | .observe term => if s.leader = false ∧ s.term ≤ term then some { s with term := term } else none
  | .post =>
    if s.unposted.isSome then some { s with leaderCh := s.unposted, unposted := none } else none
  | .apply =>
    if s.leader = false ∨ s.applied < s.log then some { s with applied := s.applied + 1 } else none
  | .receive =>
    match s.leaderCh with
    | some isLeader => if s.watch = .idle then some { s with watch := .received isLeader, leaderCh := none } else none
    | none => none
  | .clear =>
    match s.watch with
    | .received isLeader =>
      if s.readyMu = none then some { s with ready := false, watch := if isLeader then .cleared else .idle } else none
    | _ => none
  | .spawn d =>
    if s.watch = .cleared ∧ s.drains d = .idle then some ({ s with watch := .idle }.setDrain d (.entered s.term))
    else none
  | .drainState d =>
    match s.drains d with
    | .entered term => some (s.setDrain d (if s.leader then .stateChecked term else .idle))
    | _ => none
  | .drainTerm d =>
    match s.drains d with
    | .stateChecked term => some (s.setDrain d (if s.term = term then .checked term else .idle))
    | _ => none
  | .barrier d =>
    match s.drains d with
    | .checked term =>
      if s.leader then some ({ s with log := s.log + 1 }.setDrain d (.waiting term s.term (s.log + 1))) else none
    | _ => none
  | .barrierDone d =>
    match s.drains d with
    | .waiting term issued index =>
      if index ≤ s.applied then
        some ({ s with drained := Function.update s.drained issued true }.setDrain d (.completed term issued))
      else none
    | _ => none
  | .barrierFailed d =>
    match s.drains d with
    | .checked term => some (s.setDrain d (.entered term))
    | .waiting term _ _ => some (s.setDrain d (.entered term))
    | _ => none
  | .lockReady d =>
    match s.drains d with
    | .completed term issued =>
      if s.readyMu = none then some ({ s with readyMu := some d }.setDrain d (.locked term issued)) else none
    | _ => none
  | .readState d =>
    match s.drains d with
    | .locked term issued =>
      if s.leader then some (s.setDrain d (.lockedState term issued)) else some (s.unlock d s.ready)
    | _ => none
  | .readTerm d =>
    match s.drains d with
    | .lockedState term issued =>
      if s.term = term then some (s.setDrain d (.lockedTerm term issued)) else some (s.unlock d s.ready)
    | _ => none
  | .setReady d =>
    match s.drains d with
    | .lockedTerm _ _ => some (s.unlock d true)
    | _ => none
  | .checkState p =>
    if s.proposers p = .idle ∧ s.leader = true then some (s.setProposer p .stateChecked) else none
  | .checkLeader p =>
    if s.proposers p = .stateChecked ∧ s.leader = true then some (s.setProposer p .leaderChecked) else none
  | .checkReady p =>
    if s.proposers p = .leaderChecked ∧ s.ready = true then some (s.setProposer p (.ready s.term)) else none
  | .accept p =>
    match s.proposers p with
    | .ready _ => if s.leader then some ({ s with log := s.log + 1 }.setProposer p .idle) else none
    | _ => none
  | .reject p => some (s.setProposer p .idle)

end Literaft.Leadership
