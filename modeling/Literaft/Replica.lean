import Literaft.Sqlite
import Literaft.WalAppender

/-! A connection that is the only writer of its log, and a follower that applies what
the connection's gate approved. -/

namespace Literaft.Replica
open Library Wal Vfs Sqlite WalAppender

/-- The writer's gated file and log, with the end SQLite has published, the frames that
were copied into the database file, and that file. -/
structure Writer where
  gated : GatedWALFile
  wal : Storage
  mxFrame : Nat
  nPage : Nat
  nBackfill : Nat
  db : Database Bytes

inductive Event where
  | checkpoint (k : Nat)
  | restart (header : Bytes)
  | txn (t : Transaction)

def written (wal : Storage) (effects : List Effect) : Storage :=
  effects.foldl (fun wal effect => match effect with
    | .write off p => wal.write off p
    | .propose _ _ => wal) wal

def approved (effects : List Effect) : List (List Frame) :=
  (proposals effects).filterMap fun proposal => if proposal.2 then some proposal.1 else none

namespace Writer

def log (pageSize : UInt32) (w : Writer) : PageLog Bytes where
  frames := logFrames pageSize w.wal w.mxFrame
  size := w.nPage
  backfill := w.nBackfill
  file := w.db

/-- Checkpoints copy published frames, a restart follows only once all of them are
copied, and a transaction never goes back to a savepoint and brings every page it adds.
A log gets its header before its first frame. -/
def legal (pageSize : UInt32) (w : Writer) : Event → Prop
  | .checkpoint k => w.mxFrame ≠ 0 ∧ k ≤ w.mxFrame
  | .restart header => w.nBackfill = w.mxFrame ∧ header.length = walHeaderSize ∧
      (WALHeader.ofBytes header).pageSize = pageSize
  | .txn t => w.gated.pageSize ≠ 0 ∧ t.Legal pageSize ∧ (∀ op ∈ t.body, op.rollsBack = false) ∧
      ∀ c ∈ t.commit, (w.log pageSize).visible.Covers (change t.frames c.header.nTruncate)

instance (pageSize : UInt32) (w : Writer) : (event : Event) → Decidable (w.legal pageSize event)
  | .checkpoint _ => inferInstanceAs (Decidable (_ ∧ _))
  | .restart _ => inferInstanceAs (Decidable (_ ∧ _))
  | .txn _ => inferInstanceAs (Decidable (_ ∧ _))

def played (pageSize : UInt32) (w : Writer) : Event → Played
  | .checkpoint _ => ⟨w.gated, [], []⟩
  | .restart header => play w.gated [⟨header, 0, none⟩]
  | .txn t => play w.gated (t.calls pageSize (w.mxFrame + 1))

def publish (w : Writer) (t : Transaction) : Writer :=
  match t.commit with
  | none => w
  | some c => if c.answer.isNone then
      { w with mxFrame := w.mxFrame + t.frames.length, nPage := c.header.nTruncate.toNat } else w

def step (pageSize : UInt32) (w : Writer) (event : Event) : Writer :=
  let played := w.played pageSize event
  let w' := { w with gated := played.file, wal := written w.wal played.effects }
  match event with
  | .checkpoint k => { w' with nBackfill := k, db := ((w.log pageSize).checkpoint k).file }
  | .restart _ => { w' with mxFrame := 0, nBackfill := 0 }
  | .txn t => w'.publish t

def run (pageSize : UInt32) (w : Writer) (events : List Event) : Writer := events.foldl (step pageSize) w

def entries (pageSize : UInt32) : Writer → List Event → List (List Frame)
  | _, [] => []
  | w, event :: rest => approved (w.played pageSize event).effects ++ entries pageSize (w.step pageSize event) rest

def legalRun (pageSize : UInt32) : Writer → List Event → Prop
  | _, [] => True
  | w, event :: rest => w.legal pageSize event ∧ legalRun pageSize (w.step pageSize event) rest

instance legalRun.decidable (pageSize : UInt32) : (w : Writer) → (events : List Event) → Decidable (legalRun pageSize w events)
  | _, [] => inferInstanceAs (Decidable True)
  | w, event :: rest =>
    have := legalRun.decidable pageSize (w.step pageSize event) rest
    inferInstanceAs (Decidable (_ ∧ _))

end Writer

/-- What happens around one append of the follower; the checkpoints follow it. -/
structure Around where
  chance : Chance
  checkpoints : List UInt32

def deliver (a : WALAppender) (frames : List Frame) (around : Around) : Option (WALAppender × Option String) :=
  (a.appendFramesLocked around.chance (Proto.newLogEntryTransaction frames).frames).map fun done =>
    (around.checkpoints.foldl WALAppender.checkpoint done.1, done.2)

/-- `none` as soon as an append does not return or returns an error. -/
def follow (a : WALAppender) : List (List Frame) → (Nat → Around) → Option WALAppender
  | [], _ => some a
  | frames :: rest, around =>
    (deliver a frames (around 0)).bind fun done =>
      if done.2.isSome then none else follow done.1 rest fun n => around (n + 1)

/-- Frame numbers of the follower's log stay within 32 bits. -/
def fits (a : WALAppender) : List (List Frame) → (Nat → Around) → Prop
  | [], _ => True
  | frames :: rest, around =>
    (∀ hdr, a.shm.readHeader = some hdr → hdr.maxFrame.toNat + frames.length < 2 ^ 32) ∧
      ∀ done, deliver a frames (around 0) = some done → fits done.1 rest fun n => around (n + 1)

end Literaft.Replica
