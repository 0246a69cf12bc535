import Literaft.Epoch
import Literaft.Library.Copy
import Literaft.Library.Machine
import Literaft.Library.Replay
import Literaft.Restore

/-! `Snapshotter.Snapshot`, and `Persist` and `Release` of what it returns. SQLite copies the
database into a temporary file, which stays until the snapshot is released; a sink gets the
header and then that file. -/

namespace Literaft.Persist
open Library Restore

def newSnapshotHeader (lastAppliedIndex : UInt64) : SnapshotHeader :=
  ⟨be32 currentMagic ++ (be32 currentVersion ++ be64 lastAppliedIndex), rfl⟩

structure TempFiles where
  next : Nat := 0
  files : Nat → Option Bytes := fun _ => none
  opened : Nat → Bool := fun _ => false

namespace TempFiles

/-- `os.CreateTemp`; the name is new. -/
def create (t : TempFiles) : TempFiles where
  next := t.next + 1
  files := Function.update t.files t.next (some [])
  opened := Function.update t.opened t.next true

def write (t : TempFiles) (name : Nat) (content : Bytes) : TempFiles :=
  { t with files := Function.update t.files name (some content) }

def close (t : TempFiles) (name : Nat) : TempFiles := { t with opened := Function.update t.opened name false }

def remove (t : TempFiles) (name : Nat) (err : Option String) : TempFiles :=
  if err.isSome then t else { t with files := Function.update t.files name none }

end TempFiles

/-- What one call of `Snapshot` meets. `image` is what the backup leaves in the file, be it whole
or not. -/
structure Capture where
  image : Bytes
  openErr : Option String := none
  createErr : Option String := none
  backupErr : Option String := none
  seekErr : Option String := none
  closeErr : Option String := none
  removeErr : Option String := none

/-- An `io.MultiReader` over the header and the temporary file, and how far it has been read. Once the
file has come to its end the reader has let go of it, and stays at EOF. -/
structure HeaderedReader where
  header : SnapshotHeader
  tmp : Nat
  position : Nat := 0
  ended : Bool := false

/-- `errors.Join` of an error and those that clearing up brings. -/
def joinAll (err : String) (more : List (Option String)) : String := "\n".intercalate (err :: more.filterMap id)

/-- Both are called in an argument list, so the file is removed even if it cannot be closed. -/
def discard (t : TempFiles) (tmp : Nat) (c : Capture) (err : String) : TempFiles × Except String HeaderedReader :=
  ((t.close tmp).remove tmp c.removeErr, .error (joinAll err [c.closeErr, c.removeErr]))

end Literaft.Persist

namespace Literaft.Restore.Snapshotter
open Persist

def snapshot (s : Snapshotter) (index : UInt64) (t : TempFiles) (c : Capture) : TempFiles × Except String HeaderedReader :=
  match c.openErr, c.createErr with
  | some err, _ => (t, .error s!"failed to open database at path `{s.dbPath}`: {err}")
  | none, some err => (t, .error s!"failed to create temp file: {err}")
  | none, none =>
    let tmp := t.next
    let t := t.create.write tmp c.image
    match c.backupErr, c.seekErr with
    | some err, _ => discard t tmp c s!"failed to backup up database at path `{s.dbPath}`: {err}"
    | none, some err => discard t tmp c s!"failed to rewind snapshot temp file: {err}"
    | none, none => (t, .ok { header := newSnapshotHeader index, tmp })

end Literaft.Restore.Snapshotter

namespace Literaft.Persist
open Library Restore Apply

/-- `FSM.Snapshot`. -/
def snapshot {Id : Type} (s : Snapshotter) (n : Node Id) (t : TempFiles) (c : Capture) :
    TempFiles × Except String HeaderedReader :=
  let captured := s.snapshot (UInt64.ofNat n.fsm.lastApplied) t c
  (captured.1, captured.2.mapError fun err => s!"failed to capture snapshot: {err}")

namespace HeaderedReader

/-- What is left to read. `fault` is a read of the file that fails, and how much of it can be read
before; a file that has been closed cannot be read at all. -/
def reader (rc : HeaderedReader) (t : TempFiles) (fault : Option (Nat × String)) : Reader :=
  if rc.ended then ⟨[], none⟩
  else
    let content := (t.files rc.tmp).getD []
    match t.opened rc.tmp, fault with
    | false, _ => ⟨rc.header.val.drop rc.position, some "file already closed"⟩
    | true, some (count, err) => ⟨(rc.header.val ++ content.take count).drop rc.position, some err⟩
    | true, none => ⟨(rc.header.val ++ content).drop rc.position, none⟩

def after (rc : HeaderedReader) (source : Reader) (copied : Copied) : HeaderedReader :=
  { rc with position := rc.position + (source.bytes.length - copied.left.length), ended := copied.err.isNone }

/-- `tempFileReader.Close`. A file that does not exist any more is no error. -/
def close (rc : HeaderedReader) (t : TempFiles) (closeErr removeErr : Option String) : TempFiles × Option String :=
  let closeErr := if t.opened rc.tmp then closeErr else some "file already closed"
  let removeErr := (if (t.files rc.tmp).isSome then removeErr else none).map fun err =>
    s!"failed to remove temp file {rc.tmp}: {err}"
  ((t.close rc.tmp).remove rc.tmp removeErr, joinErrors closeErr removeErr)

/-- `fsmSnapshot.Release`. -/
def release (rc : HeaderedReader) (t : TempFiles) (closeErr removeErr : Option String) : TempFiles :=
  (rc.close t closeErr removeErr).1

end HeaderedReader

/-- How raft's sink was left. Only a sink that was closed without an error becomes a snapshot. -/
inductive SinkState where
  | closed
  | notClosed
  | cancelled
  deriving DecidableEq, Repr

structure Sink where
  bytes : Bytes
  state : SinkState

structure Persisting where
  turns : List Turn
  fault : Option (Nat × String) := none
  cancelErr : Option String := none
  closeErr : Option String := none

/-- `fsmSnapshot.Persist`; `none` when the turns do not reach the end. -/
def HeaderedReader.persist (rc : HeaderedReader) (t : TempFiles) (p : Persisting) :
    Option (HeaderedReader × Sink × Option String) :=
  let source := rc.reader t p.fault
  (copy p.turns source []).map fun copied =>
    let rc := rc.after source copied
    match copied.err with
    | some err => (rc, ⟨copied.target, .cancelled⟩, joinErrors p.cancelErr (some s!"failed to persist snapshot: {err}"))
    | none => (rc, ⟨copied.target, if p.closeErr.isSome then .notClosed else .closed⟩, p.closeErr)

structure Taken where
  rc : HeaderedReader
  index : UInt64
  image : Bytes
  released : Bool := false

def Taken.stream (taken : Taken) : Bytes := (newSnapshotHeader taken.index).val ++ taken.image

structure Process where
  temp : TempFiles := {}
  taken : Nat → Option Taken := fun _ => none

inductive Action where
  | snapshot (index : UInt64) (c : Capture)
  | persist (name : Nat) (p : Persisting)
  | release (name : Nat) (closeErr removeErr : Option String)

/-- Snapshots may overlap, and nothing keeps a caller from persisting or releasing one twice or from
persisting one that has been released. -/
def step (s : Snapshotter) (process : Process) : Action → Option Process
  | .snapshot index c =>
    let captured := s.snapshot index process.temp c
    match captured.2 with
    | .ok rc => some ⟨captured.1, Function.update process.taken rc.tmp (some { rc, index, image := c.image })⟩
    | .error _ => some { process with temp := captured.1 }
  | .persist name p => (process.taken name).bind fun taken => (taken.rc.persist process.temp p).map fun persisted =>
    { process with taken := Function.update process.taken name (some { taken with rc := persisted.1 }) }
  | .release name closeErr removeErr => (process.taken name).map fun taken =>
    ⟨taken.rc.release process.temp closeErr removeErr, Function.update process.taken name (some { taken with released := true })⟩

def removes : Action → Bool
  | .snapshot _ c => c.removeErr.isNone
  | .persist _ _ => true
  | .release _ _ removeErr => removeErr.isNone

def persists (name : Nat) : Action → Bool
  | .persist other _ => other == name
  | _ => false

/-- The part of page one that is SQLite's database header; other pages have none. -/
def databaseHeader (p : Nat) : Nat := if p = 1 then 100 else 0

/-- Equal up to the database header, in which SQLite's backup sets fields of its own. -/
def Alike (p : Nat) (left right : Bytes) : Prop := left.drop (databaseHeader p) = right.drop (databaseHeader p)

/-- What a backup of `database` leaves in the file. -/
structure Copies (pageSize : UInt32) (database : Database Bytes) (image : Bytes) : Prop where
  positive : 1 ≤ database.size
  length : image.length = database.size * pageSize.toNat
  encoded : ∃ high low, (image.take pageSize.toNat)[16]? = some high ∧ (image.take pageSize.toNat)[17]? = some low ∧
    encodedPageSize high low = pageSize
  pages : ∀ p, 1 ≤ p → p ≤ database.size →
    Alike p (database.page p) ((image.drop ((p - 1) * pageSize.toNat)).take pageSize.toNat)

/-- A TRUNCATE checkpoint that is not kept from it: all frames are copied, the log starts again and
its file is cut off. -/
def truncate (salt2 : UInt32) (a : WalAppender.WALAppender) : WalAppender.WALAppender :=
  a.shm.readHeader.elim a fun hdr =>
    if hdr.maxFrame = 0 then a else Epoch.truncated (Epoch.restarted (a.checkpoint hdr.maxFrame) hdr salt2).1

end Literaft.Persist
