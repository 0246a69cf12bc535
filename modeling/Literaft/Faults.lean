import Literaft.Lookup

/-! The appender when the system lets it down. A write may fail after some of its bytes, a
region of the wal-index may not be mapped, and no salts may be had; each error ends what
the source ends there. -/

namespace Literaft.Faults
open Library Wal Shm WalAppender Lookup

/-- Where the handling of one frame breaks off, with the text of the error. -/
inductive FrameFault where
  | header (written : Nat) (err : String)
  | data (written : Nat) (err : String)
  | index (err : String)
  | publish (err : String)

structure Delivery where
  frame : Frame
  fault : Option FrameFault := none

structure EarlyFaults where
  readHeader : Option String := none
  readInfo : Option String := none
  initHeader : Option String := none
  walHeader : Option (Nat × String) := none
  writeHeader : Option String := none
  writeInfo : Option String := none

/-- The body of the loop. An error of `WriteHeader` can only meet a commit frame. -/
def appendFrame (c : Cursor) (d : Delivery) : Option Cursor :=
  if c.retErr.isSome ∨ d.frame.data.length ≠ c.appender.pageSize.toNat then c.appendFrame d.frame
  else
    let f := c.chained d.frame
    let number := c.currentFrameIdx + 1
    let taken := { c with
      currentFrameIdx := number, lastFrameChecksum1 := f.header.checksum1, lastFrameChecksum2 := f.header.checksum2 }
    match d.fault with
    | some (.header written err) =>
      let message := s!"failed to write header for frame frame {number}: {err}"
      some { taken with
        appender.f := c.appender.f.write c.currentOffset (f.header.bytes.take written), retErr := some message }
    | some (.data written err) =>
      let message := s!"failed to write data for frame {number}: {err}"
      some { taken with
        appender.f := (c.appender.f.write c.currentOffset f.header.bytes).write (c.currentOffset + frameHeaderSize)
          (f.data.take written)
        retErr := some message }
    | some (.index err) =>
      let message := s!"failed to add frame {number} to wal-index: {err}"
      some { c.advance f c.appender.shm with retErr := some message }
    | some (.publish err) =>
      if f.header.nTruncate ≠ 0 then
        let message := s!"failed to write wal-index header: {err}"
        (c.appender.shm.addFrame number f.header.pgNo).map fun shm => { c.advance f shm with
          hdr := { c.hdr with
            maxFrame := number
            pageCount := f.header.nTruncate
            lastFrameChecksum1 := f.header.checksum1
            lastFrameChecksum2 := f.header.checksum2
            changeCounter := c.hdr.changeCounter + 1 }
          retErr := some message }
      else c.appendFrame d.frame
    | none => c.appendFrame d.frame

/-- The part of `rewindLogIfBackfilled` behind its checks. -/
def rewind (a : WALAppender) (hdr : Header) (chance : Chance) (faults : EarlyFaults) : WALAppender × Except String Header :=
  match faults.initHeader with
  | some err =>
    (a, .error (s!"failed to write -wal file header: failed to initialize -wal file header: " ++
      s!"failed to generate random salt for WAL header: {err}"))
  | none =>
    let walHdr := WALHeader.initHeader a.pageSize chance.salt1 chance.salt2
    match faults.walHeader with
    | some (written, err) =>
      ({ a with f := a.f.write 0 (walHdr.bytes.take written) },
        .error s!"failed to write -wal file header: failed to write -wal file header: {err}")
    | none =>
      let started := a.writeWALFileHeader chance.salt1 chance.salt2
      match faults.writeHeader with
      | some err => (started.1, .error s!"failed to write wal-index header: {err}")
      | none =>
        let written := started.1.shm.writeHeader { hdr with
          maxFrame := 0
          pageCount := 0
          lastFrameChecksum1 := started.2.checksum1
          lastFrameChecksum2 := started.2.checksum2
          salt1 := started.2.salt1
          salt2 := started.2.salt2
          changeCounter := hdr.changeCounter + 1 }
        match faults.writeInfo with
        | some err => ({ started.1 with shm := written.1 }, .error s!"failed to write checkpoint info: {err}")
        | none =>
          ({ started.1 with shm := written.1.writeCheckpointInfo a.shm.readCheckpointInfo.resetForRewind }, .ok written.2)

def rewindLogIfBackfilled (a : WALAppender) (hdr : Header) (chance : Chance) (faults : EarlyFaults) :
    WALAppender × Except String Header :=
  if chance.reading then (a, .ok hdr)
  else match faults.readInfo with
    | some err => (a, .error s!"failed to read checkpoint info: {err}")
    | none =>
      if hdr.maxFrame = 0 ∨ a.shm.readCheckpointInfo.nBackfill < hdr.maxFrame then (a, .ok hdr)
      else rewind a hdr chance faults

/-- What `AppendFramesUnderLockChan` does before it takes its first frame. `held` says that
the lock it was given is this appender's and not released; `none` is the use of a nil header. -/
def enter (a : WALAppender) (held : Bool) (chance : Chance) (faults : EarlyFaults) :
    Option (WALAppender × Except String Header) :=
  if held = false then
    some (a, .error "AppendFramesUnderLockChan called without a valid held lock for this appender")
  else match faults.readHeader with
    | some err => some (a, .error s!"failed to read wal-index header: {err}")
    | none => a.shm.readHeader.map fun hdr =>
      match rewindLogIfBackfilled a hdr chance faults with
      | (b, .error err) => (b, .error s!"failed to rewind WAL log: {err}")
      | (b, .ok hdr) => (b, .ok hdr)

/-- An error on the way to the loop takes no frame; in the loop all of them are taken. -/
def appendFramesUnderLockChan (a : WALAppender) (held : Bool) (chance : Chance) (faults : EarlyFaults) (frames : List Delivery) :
    Option (WALAppender × Option String) :=
  (enter a held chance faults).bind fun start =>
    match start.2 with
    | .error err => some (start.1, some err)
    | .ok hdr => (frames.foldlM appendFrame (Cursor.start start.1 hdr)).map fun c => (c.appender, c.retErr)

def Delivery.fails (pageSize : UInt32) (d : Delivery) : Bool :=
  d.frame.data.length != pageSize.toNat ||
    match d.fault with
    | none => false
    | some (.publish _) => d.frame.header.nTruncate != 0
    | some _ => true

/-- The frames before the first that fails. -/
def processed (pageSize : UInt32) (frames : List Delivery) : List Frame :=
  (frames.takeWhile fun d => !d.fails pageSize).map Delivery.frame

/-- The image of a page that a reader finds through the wal-index. `none` is the error for a
hash table without a free slot. -/
def readPage (a : WALAppender) (hdr : Header) (pgNo : UInt32) : Option Bytes :=
  (findFrame a.shm 1 hdr.maxFrame pgNo).map fun n =>
    if n = 0 then a.db.page pgNo.toNat else (logFrame a.pageSize a.f n).2

/-- Readers see the database that the log and its header say. -/
def Reads (a : WALAppender) (hdr : Header) : Prop :=
  ∀ pgNo, readPage a hdr pgNo = some ((a.log hdr).visible.page pgNo.toNat)

/-- A log in use: appends that may break off anywhere, and checkpoints. -/
inductive Event where
  | append (chance : Chance) (faults : EarlyFaults) (frames : List Delivery)
  | checkpoint (k : UInt32)

/-- What a call that broke off has written stays. -/
def step (a : WALAppender) : Event → Option WALAppender
  | .append chance faults frames => (appendFramesUnderLockChan a true chance faults frames).map Prod.fst
  | .checkpoint k => some (a.checkpoint k)

def plain : Store.Operation → Event
  | .append chance frames => .append chance {} (frames.map fun f => ⟨f, none⟩)
  | .checkpoint k => .checkpoint k

/-- A run while a reader holds its slot. Frame numbers stay within 32 bits, and no append
fills the hash table of the mark. -/
def watched (mark : UInt32) : WALAppender → List Event → Prop
  | _, [] => True
  | a, event :: rest =>
    (∀ chance faults frames hdr, event = .append chance faults frames → a.shm.readHeader = some hdr →
      chance.reading = true ∧ hdr.maxFrame.toNat + frames.length < 2 ^ 32 ∧
        (mark ≠ 0 → slotsUsed a.shm (regionForFrame mark) + landing mark hdr.maxFrame frames.length < hashtableSlotCount)) ∧
      ∀ b, step a event = some b → watched mark b rest

end Literaft.Faults
