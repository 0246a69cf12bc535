import Mathlib.Logic.Function.Basic

/-! What proposers, handlers and `Apply` share on one node: the index of the last
materialized entry, the skip markers and the write locks on loan. Every function here
runs under one mutex, so it is one step. -/

namespace Literaft.Fsm

inductive SkipMarkerState where
  | pending
  | skipped
  | abandoned
  deriving DecidableEq, Repr

/-- A marker's channel `done` is closed exactly while the marker is `skipped`. The lock
a handler lends is known by the id of the entry it is lent for. -/
structure FSM (Id : Type) where
  lastApplied : Nat := 0
  skipMarkers : Id → Option SkipMarkerState := fun _ => none
  loans : Id → Bool := fun _ => false

inductive Outcome where
  | skipped
  | appended
  deriving DecidableEq, Repr

namespace FSM

variable {Id : Type}

def store (f : FSM Id) (index : Nat) : FSM Id := { f with lastApplied := index }

variable [DecidableEq Id]

def createSkipMarker (f : FSM Id) (id : Id) : FSM Id :=
  { f with skipMarkers := Function.update f.skipMarkers id (some .pending) }

def deleteSkipMarker (f : FSM Id) (id : Id) : FSM Id :=
  { f with skipMarkers := Function.update f.skipMarkers id none }

def tryConsumeSkipMarker (f : FSM Id) (id : Id) (index : Nat) : FSM Id × Bool :=
  if f.skipMarkers id = some .pending then
    ({ f with skipMarkers := Function.update f.skipMarkers id (some .skipped), lastApplied := index }, true)
  else (f, false)

/-- The `ctx.Done()` branch of `AwaitSkipMarkerConsumed`; `true` when it returns nil. -/
def expireSkipMarker (f : FSM Id) (id : Id) : FSM Id × Bool :=
  if f.skipMarkers id = some .skipped then (f, true)
  else ({ f with skipMarkers := Function.update f.skipMarkers id (some .abandoned) }, false)

def lend (f : FSM Id) (id : Id) : FSM Id := { f with loans := Function.update f.loans id true }

def endLoan (f : FSM Id) (id : Id) : FSM Id := { f with loans := Function.update f.loans id false }

@[simp] theorem createSkipMarker_skipMarkers (f : FSM Id) (id : Id) :
    (f.createSkipMarker id).skipMarkers = Function.update f.skipMarkers id (some .pending) := rfl

@[simp] theorem deleteSkipMarker_skipMarkers (f : FSM Id) (id : Id) :
    (f.deleteSkipMarker id).skipMarkers = Function.update f.skipMarkers id none := rfl

@[simp] theorem expireSkipMarker_lastApplied (f : FSM Id) (id : Id) :
    (f.expireSkipMarker id).1.lastApplied = f.lastApplied := by
  unfold expireSkipMarker
  split <;> rfl

@[simp] theorem expireSkipMarker_loans (f : FSM Id) (id : Id) : (f.expireSkipMarker id).1.loans = f.loans := by
  unfold expireSkipMarker
  split <;> rfl

end FSM

end Literaft.Fsm
