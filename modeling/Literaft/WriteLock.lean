import Literaft.Library.Machine

/-! The write lock of an appender: a channel with one token in front of the operating system's
lock, whose holders within one handle do not exclude each other. Any number of goroutines
acquire and release it, and other processes take the operating system's lock in between. -/

namespace Literaft.WriteLock

inductive Owner where
  | free
  | appender
  | other
  deriving DecidableEq, Repr

/-- The context of a call. The first has no `Done` channel. -/
inductive Context where
  | background
  | live
  | cancelled
  deriving DecidableEq, Repr

/-- Where a goroutine stands in `AcquireWriteLock` or, with the lock it got, in `Release`. -/
inductive Phase where
  | waiting
  | locking
  | returning
  | failed
  | held
  | releasing
  | unlocked
  | sent
  | released
  deriving DecidableEq, Repr

/-- `begun` says that the call came from `BeginHeldApply`, and `once` that the function it
returned has run. -/
structure Caller where
  phase : Phase := .waiting
  ctx : Context
  begun : Bool
  once : Bool := false
  deriving DecidableEq, Repr

structure State where
  lockCh : Nat := 1
  os : Owner := .free
  callers : List Caller := []
  deriving DecidableEq, Repr

inductive Action where
  | acquireWriteLock (ctx : Context) (begun : Bool)
  | cancel (i : Nat)
  | takeToken (i : Nat)
  | giveUp (i : Nat)
  | lock (i : Nat)
  | poll (i : Nat)
  | lockFails (i : Nat)
  | returnToken (i : Nat)
  | release (i : Nat)
  | releaseHeldApply (i : Nat)
  | unlock (i : Nat) (done : Bool)
  | sendToken (i : Nat)
  | finish (i : Nat)
  | otherLocks
  | otherUnlocks
  deriving DecidableEq, Repr

def capacity : Nat := 1

def State.put (s : State) (i : Nat) (c : Caller) : State := { s with callers := s.callers.set i c }

/-- `Release` of a lock that is released does nothing. -/
def Caller.release (c : Caller) : Option Caller :=
  match c.phase with
  | .held => some { c with phase := .releasing }
  | .released => some c
  | _ => none

/-- The steps of goroutine `i`. With a context that has no `Done` channel `lockOFD` waits for the
lock or fails; with another it tries again until that context is done. -/
def Caller.step (s : State) (i : Nat) (c : Caller) : Action → Option State
  | .cancel _ => if c.ctx = .live then some (s.put i { c with ctx := .cancelled }) else none
  | .takeToken _ =>
    if c.phase = .waiting ∧ 0 < s.lockCh then some { s.put i { c with phase := .locking } with lockCh := s.lockCh - 1 } else none
  | .giveUp _ => if c.phase = .waiting ∧ c.ctx = .cancelled then some (s.put i { c with phase := .failed }) else none
  | .lock _ =>
    if c.phase = .locking ∧ s.os ≠ .other then some { s.put i { c with phase := .held } with os := .appender } else none
  | .poll _ => if c.phase = .locking ∧ c.ctx ≠ .background then some s else none
  | .lockFails _ => if c.phase = .locking ∧ c.ctx ≠ .live then some (s.put i { c with phase := .returning }) else none
  | .returnToken _ =>
    if c.phase = .returning ∧ s.lockCh < capacity then some { s.put i { c with phase := .failed } with lockCh := s.lockCh + 1 }
    else none
  | .release _ => c.release.map fun d => s.put i d
  | .releaseHeldApply _ =>
    if c.begun = false then none
    else if c.once then some s
    else c.release.map fun d => s.put i { d with once := true }
  | .unlock _ done =>
    if c.phase = .releasing then
      some { s.put i { c with phase := .unlocked } with os := if done ∧ s.os = .appender then .free else s.os }
    else none
  | .sendToken _ =>
    if c.phase = .unlocked ∧ s.lockCh < capacity then some { s.put i { c with phase := .sent } with lockCh := s.lockCh + 1 }
    else none
  | .finish _ => if c.phase = .sent then some (s.put i { c with phase := .released }) else none
  | _ => none

def Action.caller : Action → Option Nat
  | .acquireWriteLock _ _ | .otherLocks | .otherUnlocks => none
  | .cancel i | .takeToken i | .giveUp i | .lock i | .poll i | .lockFails i | .returnToken i | .release i | .releaseHeldApply i
  | .unlock i _ | .sendToken i | .finish i => some i

def step (s : State) (action : Action) : Option State :=
  match action with
  | .acquireWriteLock ctx begun => some { s with callers := s.callers ++ [{ ctx, begun }] }
  | .otherLocks => if s.os = .free then some { s with os := .other } else none
  | .otherUnlocks => if s.os = .other then some { s with os := .free } else none
  | action => action.caller.bind fun i => s.callers[i]?.bind fun c => c.step s i action

def Caller.acquiring (c : Caller) : Bool := c.phase = .locking ∨ c.phase = .returning

def Caller.unreleased (c : Caller) : Bool := c.phase = .held

def Caller.releasing (c : Caller) : Bool := c.phase = .releasing ∨ c.phase = .unlocked

end Literaft.WriteLock
