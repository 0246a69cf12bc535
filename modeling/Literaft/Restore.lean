import Literaft.Apply
import Literaft.FrameChannel
import Literaft.Library.Stream

/-! `Snapshotter.Restore` and the `Restore` of the FSM. The pages of a snapshot are read one
ahead, because only the end of the stream tells which of them is the last; what was read is
appended to the log at the same time, under one write lock. -/

namespace Literaft.Restore
open Library Wal Shm WalAppender Faults FrameChannel Apply

def snapshotHeaderSize : Nat := 16
def currentMagic : UInt32 := 0x4C524654
def currentVersion : UInt32 := 1

abbrev SnapshotHeader := { bytes : Bytes // bytes.length = snapshotHeaderSize }

namespace SnapshotHeader

def magic (h : SnapshotHeader) : UInt32 := beUint32 h.val 0
def version (h : SnapshotHeader) : UInt32 := beUint32 h.val 4
def lastAppliedIndex (h : SnapshotHeader) : UInt64 := beUint64 h.val 8

/-- `%X` of the source. -/
def hex (word : UInt32) : String := String.ofList ((Nat.toDigits 16 word.toNat).map Char.toUpper)

def validate (h : SnapshotHeader) : Except String Unit :=
  if h.magic ≠ currentMagic then .error s!"invalid snapshot magic: got 0x{hex h.magic}, want 0x{hex currentMagic}"
  else if h.version ≠ currentVersion then .error s!"unsupported snapshot version: got {h.version}, want {currentVersion}"
  else .ok ()

end SnapshotHeader

structure Snapshotter where
  dbPath : String
  pageSize : UInt32

inductive Failure where
  | error (text : String)
  | panic
  deriving DecidableEq, Repr

def Shows (a : WALAppender) (database : Database Bytes) : Prop :=
  ∃ hdr, a.shm.readHeader = some hdr ∧ (a.log hdr).visible.Same database

/-- What a checkpoint of SQLite's does to the files. It may copy as much as it likes, or
decline, as it does on a connection that has read nothing yet. -/
structure Checkpoint where
  run : WALAppender → WALAppender
  keeps : ∀ {a hdr}, a.shm.readHeader = some hdr → (a.log hdr).Intact → Shows (run a) (a.log hdr).visible

/-- What one `Restore` meets: the log file and the random salts for a log that has not been
started, what the append finds, and the steps that fail. -/
structure Surroundings where
  walSize : Nat
  salt1 : UInt32
  salt2 : UInt32
  chance : Chance
  checkpoint : Checkpoint
  openErr : Option String := none
  early : EarlyFaults := {}
  frame : Nat → Option FrameFault := fun _ => none
  reopenErr : Option String := none
  checkpointErr : Option String := none

structure Surroundings.Quiet (w : Surroundings) : Prop where
  opens : w.openErr = none
  early : w.early = {}
  frames : ∀ i, w.frame i = none
  reopens : w.reopenErr = none
  checkpoints : w.checkpointErr = none

def readHeader (r : Reader) : Except String (SnapshotHeader × Reader) :=
  match r.readFull snapshotHeaderSize with
  | .error err => .error s!"failed to read snapshot header: {err.text}"
  | .ok (header, rest) =>
    ((SnapshotHeader.validate header).mapError fun err => s!"failed to validate snapshot header: {err}").map fun _ => (header, rest)

/-- The page size a database header names; one stands for 65536. -/
def encodedPageSize (high low : UInt8) : UInt32 :=
  let pageSize := UInt32.ofNat (high.toNat * 2 ^ 8 + low.toNat)
  if pageSize = 1 then 65536 else pageSize

/-- `errors.Join` -/
def joinErrors : Option String → Option String → Option String
  | some first, some second => some s!"{first}\n{second}"
  | some first, none => some first
  | none, second => second

/-- The sender has more frames than the channel takes and the appender gave up before its
first frame. -/
def blocked (a : WALAppender) (w : Surroundings) (frames : List Frame) : Bool :=
  match enter a true w.chance w.early with
  | some (_, .error _) => restoreFrameBufferSize < frames.length
  | _ => false

/-- The frames with what they meet on their way. -/
def deliveries (faults : Nat → Option FrameFault) (frames : List Frame) : List Delivery :=
  frames.mapIdx fun i frame => ⟨frame, faults i⟩

namespace Snapshotter
variable (b : Snapshotter)

/-- `walappender.Open`; the files are those of `a`, and `none` is the use of a nil header. -/
def openAppender (a : WALAppender) (w : Surroundings) : Option (Except String WALAppender) :=
  match w.openErr with
  | some err => some (.error err)
  | none => ({ a with pageSize := b.pageSize }.maybeBootstrap w.walSize w.salt1 w.salt2).map
    (Except.mapError fun err => s!"failed to bootstrap WAL: {err}")

/-- The first page is checked before anything is locked. The slice of a page of less than 18
bytes is out of range. -/
def readFirstPage (r : Reader) : Except Failure (Bytes × Reader) :=
  match r.readFull b.pageSize.toNat with
  | .error err => .error (.error s!"failed to first page from snapshot: {err.text}")
  | .ok (page, rest) =>
    match page.val[16]?, page.val[17]? with
    | some high, some low =>
      let pageSize := encodedPageSize high low
      if pageSize ≠ b.pageSize then
        .error (.error s!"snapshot page size {pageSize} does not match cluster page size {b.pageSize}")
      else .ok (page.val, rest)
    | _, _ => .error .panic

/-- The frames that are sent for page `nPages` and those behind it, and the error that ends
them. Page `nPages` is `curPage`; the stream stands behind it. -/
def sendPages : Nat → Reader → UInt32 → Bytes → Option (List Frame × Option String)
  | 0, _, _, _ => none
  | fuel + 1, r, nPages, curPage =>
    match r.readFull b.pageSize.toNat with
    | .error .eof =>
      let frame : Frame := ⟨{ pgNo := nPages, nTruncate := nPages }, curPage⟩
      if 0 < nPages then some ([frame], none)
      else (sendPages fuel r (nPages + 1) (List.replicate b.pageSize.toNat 0)).map fun sent => (frame :: sent.1, sent.2)
    | .error err => some ([], some s!"failed to read page {nPages + 1} from snapshot: {err.text}")
    | .ok (nextPage, rest) =>
      let frame : Frame := ⟨{ pgNo := nPages }, curPage⟩
      (sendPages fuel rest (nPages + 1) nextPage.val).map fun sent => (frame :: sent.1, sent.2)

/-- The pages from the first on go through the channel. `none` when the append or the sender
does not come to its end. -/
def appendPages (a : WALAppender) (w : Surroundings) (r : Reader) (firstPage : Bytes) : Option (WALAppender × Option String) :=
  (b.sendPages (r.bytes.length + 1) r 1 firstPage).bind fun sent =>
    if blocked a w sent.1 then none
    else (appendFramesUnderLockChan a true w.chance w.early (deliveries w.frame sent.1)).map fun appended =>
      (appended.1, joinErrors sent.2 appended.2)

def checkpoint (a : WALAppender) (w : Surroundings) : WALAppender × Option String :=
  match w.reopenErr with
  | some err => (a, some s!"failed to open database at path `{b.dbPath}`: {err}")
  | none => (w.checkpoint.run a, w.checkpointErr.map fun err => s!"failed to checkpoint database at path `{b.dbPath}`: {err}")

def finish (w : Surroundings) (header : SnapshotHeader) (appended : WALAppender × Option String) :
    WALAppender × Except Failure SnapshotHeader :=
  match appended.2 with
  | some err => (appended.1, .error (.error s!"failed to append frames to WAL at path `{b.dbPath}`: {err}"))
  | none =>
    let ended := b.checkpoint appended.1 w
    (ended.1, match ended.2 with
      | some err => .error (.error err)
      | none => .ok header)

def restore (r : Reader) (a : WALAppender) (w : Surroundings) : Option (WALAppender × Except Failure SnapshotHeader) :=
  match readHeader r with
  | .error err => some (a, .error (.error err))
  | .ok (header, r) =>
    (b.openAppender a w).bind fun opened =>
      match opened with
      | .error err => some (a, .error (.error s!"failed to open WAL at path `{b.dbPath}`: {err}"))
      | .ok a =>
        match b.readFirstPage r with
        | .error failure => some (a, .error failure)
        | .ok (firstPage, r) => (b.appendPages a w r firstPage).map (b.finish w header)

end Snapshotter

/-- `FSM.Restore`: the index is stored after everything else. -/
def restore {Id : Type} (b : Snapshotter) (n : Node Id) (rc : Reader) (w : Surroundings) : Option (Node Id × Except Failure Unit) :=
  (b.restore rc n.walAppender w).map fun restored =>
    match restored.2 with
    | .error (.error err) => ({ n with walAppender := restored.1 }, .error (.error s!"failed to restore snapshot: {err}"))
    | .error .panic => ({ n with walAppender := restored.1 }, .error .panic)
    | .ok header => (⟨n.fsm.store header.lastAppliedIndex.toNat, restored.1⟩, .ok ())

structure Format (pageSize : UInt32) (stream : Bytes) (n : Nat) : Prop where
  positive : 1 ≤ n
  length : stream.length = snapshotHeaderSize + n * pageSize.toNat
  magic : beUint32 stream 0 = currentMagic
  version : beUint32 stream 4 = currentVersion
  encoded : ∃ high low, ((stream.drop snapshotHeaderSize).take pageSize.toNat)[16]? = some high ∧
    ((stream.drop snapshotHeaderSize).take pageSize.toNat)[17]? = some low ∧ encodedPageSize high low = pageSize

def snapshot (pageSize : UInt32) (stream : Bytes) (n : Nat) : Database Bytes where
  size := n
  page p := (stream.drop (snapshotHeaderSize + (p - 1) * pageSize.toNat)).take pageSize.toNat

/-- The wal-index has been set up, or its header is still blank. -/
def Prepared (hdr : Header) : Prop := (hdr.isInit = true ∧ 0 < hdr.pageSize) ∨ hdr.maxFrame = 0 ∧ hdr.pageCount = 0

/-- A frame that meets this does not fail. An error of `WriteHeader` can only meet the last. -/
def passes (last : Bool) : Option FrameFault → Bool
  | none => true
  | some (.publish _) => !last
  | some _ => false

def Harmless (n : Nat) (faults : Nat → Option FrameFault) : Prop :=
  ∀ i < n, passes (decide (i + 1 = n)) (faults i) = true

/-- The stream is a whole snapshot of `n` pages, and nothing fails up to the last of them. -/
structure Installs (b : Snapshotter) (r : Reader) (a : WALAppender) (hdr : Header) (w : Surroundings) (n : Nat) : Prop where
  eof : r.fault = none
  format : Format b.pageSize r.bytes n
  opens : w.openErr = none
  starts : (hdr.isInit = true ∧ 0 < hdr.pageSize) ∨ w.walSize ≤ walHeaderSize
  enters : Enters a true w.chance w.early
  frames : Harmless n w.frame

/-- The visible database and the applied index have moved together: to those of the snapshot, or
not at all. -/
structure Together {Id : Type} (b : Snapshotter) (rc : Reader) (before after : Node Id) (prior : Database Bytes)
    (result : Except Failure Unit) : Prop where
  failed : ∀ failure, result = .error failure →
    Shows after.walAppender prior ∧ after.fsm.lastApplied = before.fsm.lastApplied
  restored : result = .ok () → ∃ n, Format b.pageSize rc.bytes n ∧ Shows after.walAppender (snapshot b.pageSize rc.bytes n) ∧
    after.fsm.lastApplied = (beUint64 rc.bytes 8).toNat

end Literaft.Restore
