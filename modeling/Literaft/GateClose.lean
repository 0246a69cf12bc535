import Literaft.Leadership

/-! `Close` of a gate beside its goroutines: `watchLeadership`, the runs of `drain`, and any number
of callers of `Close`, which wait until the goroutines have ended. -/

namespace Literaft.GateClose
open Library Leadership

/-- Where a call of `Close` stands. `closing` and `waiting` are inside the function that
`closeOnce` runs. -/
inductive Closer where
  | calling
  | closing
  | waiting
  | returned
  deriving DecidableEq, Repr

/-- `wg` is the counter of the wait group, `once` says that `closeOnce` has begun its function and
`onceDone` that it is done. A drain that is `retrying` waits after a barrier that failed. -/
structure State where
  gate : Leadership.State := {}
  stop : Bool := false
  watching : Bool := true
  retrying : Nat → Bool := fun _ => false
  wg : Nat := 1
  once : Bool := false
  onceDone : Bool := false
  closers : List Closer := []

inductive Action where
  | gate (action : Leadership.Action)
  | stopWatch
  | retry (d : Nat)
  | stopDrain (d : Nat)
  | close
  | enter (i : Nat)
  | closeStop (i : Nat)
  | waited (i : Nat)

def drainOf : Leadership.Action → Option Nat
  | .spawn d | .drainState d | .drainTerm d | .barrier d | .barrierDone d | .barrierFailed d | .lockReady d | .readState d
  | .readTerm d | .setReady d => some d
  | _ => none

/-- `wg.Go` counts a goroutine until it returns. -/
def tally (wg : Nat) (before after : Drain) : Nat :=
  match before, after with
  | .idle, .idle => wg
  | .idle, _ => wg + 1
  | _, .idle => wg - 1
  | _, _ => wg

def failing : Leadership.Action → Option Nat
  | .barrierFailed d => some d
  | _ => none

namespace State

def put (s : State) (i : Nat) (closer : Closer) : State := { s with closers := s.closers.set i closer }

/-- A watcher that has returned receives nothing, and a drain that waits does nothing else. -/
def blocks (s : State) : Leadership.Action → Bool
  | .receive => !s.watching
  | action => (drainOf action).elim false s.retrying

def act (s : State) (action : Leadership.Action) : Option State :=
  if s.blocks action then none
  else (Leadership.step s.gate action).map fun next =>
    { s with
      gate := next
      wg := (drainOf action).elim s.wg fun d => tally s.wg (s.gate.drains d) (next.drains d)
      retrying := (failing action).elim s.retrying fun d => Function.update s.retrying d true }

end State

def step (s : State) : Action → Option State
  | .gate action => s.act action
  | .stopWatch =>
    if s.stop ∧ s.watching ∧ s.gate.watch = .idle then some { s with watching := false, wg := s.wg - 1 } else none
  | .retry d => if s.retrying d then some { s with retrying := Function.update s.retrying d false } else none
  | .stopDrain d =>
    if s.stop ∧ s.retrying d then
      some { s with gate := s.gate.setDrain d .idle, wg := s.wg - 1, retrying := Function.update s.retrying d false }
    else none
  | .close => some { s with closers := s.closers ++ [.calling] }
  | .enter i =>
    if s.closers[i]? = some .calling then
      if s.once = false then some { s.put i .closing with once := true }
      else if s.onceDone then some (s.put i .returned) else none
    else none
  | .closeStop i => if s.closers[i]? = some .closing then some { s.put i .waiting with stop := true } else none
  | .waited i =>
    if s.closers[i]? = some .waiting ∧ s.wg = 0 then some { s.put i .returned with onceDone := true } else none

end Literaft.GateClose
