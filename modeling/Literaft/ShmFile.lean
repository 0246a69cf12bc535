import Literaft.Library.FileLock
import Literaft.Library.Machine
import Literaft.Shm

/-! `Open` and `Close` of the -shm file, its regions and its locks. Openers of all processes share
the file; each is an open file description of its own. The byte behind the locks of the wal-index
is the dead man's switch, which everybody who is attached holds for reading. -/

namespace Literaft.ShmFile
open Library Shm

def checkpointInfoNReaders : Nat := 5
def lockBaseOffset : Nat := checkpointInfoOffset + checkpointInfoNReaders * 4 + 4
def dmsOffset : Nat := lockBaseOffset + checkpointInfoNReaders + 3

/-- Where an opener stands in `Open`. `claiming` and `joining` have tested the switch and try to
lock it, the one for writing and the other for reading; `wiped` has cut the file. -/
inductive Phase where
  | closed
  | opened
  | claiming
  | claimed
  | wiped
  | joining
  | attached
  deriving DecidableEq, Repr

/-- `mapping` is set within `mapRegion`, behind `Stat`: whether the file has to be made longer. -/
structure Opener where
  phase : Phase := .closed
  regions : Nat := 0
  mapping : Option Bool := none
  deriving DecidableEq, Repr

/-- `stale` as long as nobody has cut the file since it last was without an opener. -/
structure State (Owner : Type) where
  locks : FileLocks Owner := fun _ => []
  size : Nat := 0
  openers : Owner → Opener := fun _ => {}
  stale : Bool := true

/-- One step of an opener; `err` is an error of the system call. -/
inductive Action (Owner : Type) where
  | openFile (o : Owner)
  | testLock (o : Owner) (err : Bool)
  | writeLock (o : Owner)
  | truncate (o : Owner) (err : Bool)
  | readLock (o : Owner)
  | giveUp (o : Owner)
  | stat (o : Owner) (err : Bool)
  | grow (o : Owner) (err : Bool)
  | extend (o : Owner)
  | mmap (o : Owner) (err : Bool)
  | lock (o : Owner) (kind : LockKind) (index n : Nat)
  | unlock (o : Owner) (index n : Nat)
  | close (o : Owner)
  deriving DecidableEq, Repr

variable {Owner : Type} [DecidableEq Owner]

namespace State

def put (s : State Owner) (o : Owner) (opener : Opener) : State Owner :=
  { s with openers := Function.update s.openers o opener }

def release (s : State Owner) (o : Owner) : State Owner :=
  { s.put o {} with locks := s.locks.close o, stale := s.stale || (s.locks.close o dmsOffset).isEmpty }

/-- One attempt at the switch; a refused one is repeated. -/
def attempt (s : State Owner) (o : Owner) (kind : LockKind) (phase : Phase) : State Owner :=
  match s.locks.setLock o kind dmsOffset 1 with
  | some locks => { s.put o { s.openers o with phase } with locks }
  | none => s

end State

def Opener.wanted (opener : Opener) : Nat := opener.regions * regionSize + regionSize

/-- The test of the switch. An opener that finds it free will cut the file, one that finds it held
for reading joins the others. -/
def State.tested (s : State Owner) (o : Owner) : State Owner :=
  match s.locks.testLock o dmsOffset with
  | some .write => s.release o
  | some .read => s.put o { s.openers o with phase := .joining }
  | none => s.put o { s.openers o with phase := .claiming }

/-- `extend` is how SQLite's own connections make the file longer: they never cut it. -/
def step (s : State Owner) : Action Owner → Option (State Owner)
  | .openFile o => if (s.openers o).phase = .closed then some (s.put o { phase := .opened }) else none
  | .testLock o err => if (s.openers o).phase = .opened then some (if err then s.release o else s.tested o) else none
  | .writeLock o => if (s.openers o).phase = .claiming then some (s.attempt o .write .claimed) else none
  | .truncate o err =>
    if (s.openers o).phase = .claimed then
      some (if err then s.release o else { s.put o { s.openers o with phase := .wiped } with size := 0, stale := false })
    else none
  | .readLock o =>
    if (s.openers o).phase = .wiped ∨ (s.openers o).phase = .joining then some (s.attempt o .read .attached) else none
  | .giveUp o =>
    if (s.openers o).phase = .claiming ∨ (s.openers o).phase = .wiped ∨ (s.openers o).phase = .joining then some (s.release o)
    else none
  | .stat o err =>
    if (s.openers o).phase = .attached ∧ (s.openers o).mapping = none then
      some (if err then s else s.put o { s.openers o with mapping := some (decide (s.size < (s.openers o).wanted)) })
    else none
  | .grow o err =>
    if (s.openers o).phase = .attached ∧ (s.openers o).mapping = some true then
      some (if err then s.put o { s.openers o with mapping := none }
        else { s.put o { s.openers o with mapping := some false } with size := (s.openers o).wanted })
    else none
  | .extend o =>
    if (s.openers o).phase = .attached ∧ (s.openers o).mapping = some true then
      some { s.put o { s.openers o with mapping := some false } with size := max s.size (s.openers o).wanted }
    else none
  | .mmap o err =>
    if (s.openers o).phase = .attached ∧ (s.openers o).mapping = some false then
      some (s.put o { s.openers o with regions := if err then (s.openers o).regions else (s.openers o).regions + 1, mapping := none })
    else none
  | .lock o kind index n =>
    if (s.openers o).phase = .attached ∧ index + n ≤ checkpointInfoNReaders + 3 then
      some ((s.locks.setLock o kind (lockBaseOffset + index) n).elim s fun locks => { s with locks })
    else none
  | .unlock o index n =>
    if (s.openers o).phase = .attached ∧ index + n ≤ checkpointInfoNReaders + 3 then
      some { s with locks := s.locks.unlock o (lockBaseOffset + index) n }
    else none
  | .close o => if (s.openers o).phase = .attached then some (s.release o) else none

/-- A file that is made longer by `Truncate` has not become longer than that in the meantime. -/
def timely (s : State Owner) : Action Owner → Bool
  | .grow o false => s.size ≤ (s.openers o).wanted
  | _ => true

/-- Who joins others still finds one of them when it locks the switch. -/
def accompanied (s : State Owner) : Action Owner → Bool
  | .readLock o => (s.openers o).phase = .wiped ∨ !(s.locks dmsOffset).isEmpty
  | _ => true

end Literaft.ShmFile
