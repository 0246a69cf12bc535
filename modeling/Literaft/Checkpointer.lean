import Literaft.Library.Machine

/-! The checkpoints of an appender: the ticker's goroutine and every `Release` may ask for one on
the same connection, and `Close` closes that connection. Which goroutine has the write lock does
not matter here, so any number of them may hold it. -/

namespace Literaft.Checkpointer

/-- Who called `checkpoint`. -/
inductive Origin where
  | release
  | ticker
  deriving DecidableEq, Repr

/-- Where a goroutine stands: with the write lock, in `Release`, in `runCheckpointer`, in
`checkpoint`, or in `Close`. -/
inductive Phase where
  | held
  | released
  | ticking
  | locking (origin : Origin)
  | checking (origin : Origin)
  | running (origin : Origin)
  | unlocking (origin : Origin)
  | stopped
  | closing
  | marked
  | unlocked
  | done
  deriving DecidableEq, Repr

/-- The fields of a `WALAppender`, and what became of the counts that a `Release` set back:
`swept` has each of them, `ran` and `skipped` say for how many a checkpoint began and how many
found the appender closed. -/
structure State where
  dirtyPageCount : Nat := 0
  checkpointMu : Bool := false
  closed : Bool := false
  dbClosed : Bool := false
  callers : List Phase := []
  appended : Nat := 0
  swept : List Nat := []
  ran : Nat := 0
  skipped : Nat := 0
  deriving DecidableEq, Repr

/-- The goroutine of `runCheckpointer` exists if the interval is positive. -/
def opened (checkpointInterval : Int) : State :=
  { callers := if 0 < checkpointInterval then [.ticking] else [] }

inductive Action where
  | acquireWriteLock
  | close
  | addFrame (i : Nat)
  | turn (i : Nat)
  deriving DecidableEq, Repr

def State.put (s : State) (i : Nat) (phase : Phase) : State := { s with callers := s.callers.set i phase }

/-- `maybeThresholdCheckpoint` up to the call of `checkpoint`. -/
def State.maybeThresholdCheckpoint (checkpointThresholdPages : Int) (s : State) (i : Nat) : State :=
  if checkpointThresholdPages ≤ s.dirtyPageCount then
    { s.put i (.locking .release) with dirtyPageCount := 0, swept := s.swept ++ [s.dirtyPageCount] }
  else s.put i .done

/-- `checkpoint` with its mutex locked, up to the call of `WALCheckpoint`. -/
def State.checkpoint (s : State) (i : Nat) : Origin → State
  | .release =>
    if s.closed then { s.put i (.unlocking .release) with skipped := s.skipped + 1 }
    else { s.put i (.running .release) with ran := s.ran + 1 }
  | .ticker => if s.closed then s.put i (.unlocking .ticker) else s.put i (.running .ticker)

/-- A stopped ticker does not close its channel, so its goroutine waits for the next tick forever. -/
def Origin.next : Origin → Phase
  | .release => .done
  | .ticker => .ticking

def State.turn (checkpointThresholdPages : Int) (s : State) (i : Nat) : Phase → Option State
  | .held => some (s.put i .released)
  | .released => some (s.maybeThresholdCheckpoint checkpointThresholdPages i)
  | .ticking => some (s.put i (.locking .ticker))
  | .locking origin => if s.checkpointMu then none else some { s.put i (.checking origin) with checkpointMu := true }
  | .checking origin => some (s.checkpoint i origin)
  | .running origin => some (s.put i (.unlocking origin))
  | .unlocking origin => some { s.put i origin.next with checkpointMu := false }
  | .stopped => if s.checkpointMu then none else some { s.put i .closing with checkpointMu := true }
  | .closing => some { s.put i .marked with closed := true }
  | .marked => some { s.put i .unlocked with checkpointMu := false }
  | .unlocked => some { s.put i .done with dbClosed := true }
  | .done => none

def step (checkpointThresholdPages : Int) (s : State) : Action → Option State
  | .acquireWriteLock => some { s with callers := s.callers ++ [.held] }
  | .close => some { s with callers := s.callers ++ [.stopped] }
  | .addFrame i =>
    if s.callers[i]? = some .held then some { s with dirtyPageCount := s.dirtyPageCount + 1, appended := s.appended + 1 }
    else none
  | .turn i => s.callers[i]?.bind (s.turn checkpointThresholdPages i)

/-- A goroutine between `checkpointMu.Lock` and `Unlock`. -/
def Phase.inside : Phase → Bool
  | .checking _ | .running _ | .unlocking _ | .closing | .marked => true
  | _ => false

def Phase.checkpointing : Phase → Bool
  | .running _ => true
  | _ => false

/-- A goroutine that has set a count back and not yet come to its checkpoint. -/
def Phase.owes : Phase → Bool
  | .locking .release | .checking .release => true
  | _ => false

/-- A goroutine that may still add frames, or has yet to compare the count with the threshold. -/
def Phase.writing : Phase → Bool
  | .held | .released => true
  | _ => false

end Literaft.Checkpointer
