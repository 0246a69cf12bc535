import Literaft.Faults
import Literaft.Library.Channel

/-! The frame channel of `AppendFramesUnderLockChan`. The call takes frames only in its loop;
an error on the way there is returned with the channel as it is. -/

namespace Literaft.FrameChannel
open Library Wal Shm WalAppender Faults

def restoreFrameBufferSize : Nat := 4

def call (a : WALAppender) (held : Bool) (chance : Chance) (faults : EarlyFaults) :
    Service Delivery Cursor (WALAppender × Option String) where
  enter := (enter a held chance faults).map fun start =>
    match start.2 with
    | .error err => .error (start.1, some err)
    | .ok hdr => .ok (Cursor.start start.1 hdr)
  take := appendFrame
  finish c := (c.appender, c.retErr)

def step (a : WALAppender) (held : Bool) (chance : Chance) (faults : EarlyFaults) (capacity : Nat) :=
  Channel.step (call a held chance faults) capacity

def start (frames : List Delivery) : Channel Delivery Cursor (WALAppender × Option String) := { unsent := frames }

/-- The way to the loop is free: the lock is held, the header is read, and the rewind is not
due or none of its steps fails. -/
structure Enters (a : WALAppender) (held : Bool) (chance : Chance) (faults : EarlyFaults) : Prop where
  held : held = true
  header : faults.readHeader = none
  rewind : ∃ hdr, a.shm.readHeader = some hdr ∧
    (chance.reading = true ∨ faults.readInfo = none ∧
      ((hdr.maxFrame = 0 ∨ a.shm.readCheckpointInfo.nBackfill < hdr.maxFrame) ∨
        faults.initHeader = none ∧ faults.walHeader = none ∧ faults.writeHeader = none ∧ faults.writeInfo = none))

end Literaft.FrameChannel
