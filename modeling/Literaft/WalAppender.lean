import Literaft.Shm
import Literaft.Proto

/-! The appender through which replicated transactions enter the log of a node. Writes
to files are taken to succeed; checkpoints and the readers that stand in the way of a
rewind belong to the surroundings. -/

namespace Literaft.WalAppender
open Library Wal Shm

/-- The files of a node: the log, its shared memory and the database. -/
structure WALAppender where
  pageSize : UInt32
  f : Storage
  shm : SharedMemory
  db : Database Bytes

/-- What one append finds: whether a reader holds one of the slots, and the random
salts of a new log header. -/
structure Chance where
  reading : Bool
  salt1 : UInt32
  salt2 : UInt32

structure Cursor where
  appender : WALAppender
  hdr : Header
  currentFrameIdx : UInt32
  currentOffset : Nat
  checksumEnc : ByteOrder
  lastFrameChecksum1 : UInt32
  lastFrameChecksum2 : UInt32
  retErr : Option String := none

namespace WALAppender

def writeWALFileHeader (a : WALAppender) (salt1 salt2 : UInt32) : WALAppender × WALHeader :=
  let hdr := WALHeader.initHeader a.pageSize salt1 salt2
  ({ a with f := a.f.write 0 hdr.bytes }, hdr)

/-- The part of `rewindLogIfBackfilled` behind its checks. -/
def rewind (a : WALAppender) (hdr : Header) (chance : Chance) : WALAppender × Header :=
  let checkpointInfo := a.shm.readCheckpointInfo
  let started := a.writeWALFileHeader chance.salt1 chance.salt2
  let written := started.1.shm.writeHeader { hdr with
    maxFrame := 0
    pageCount := 0
    lastFrameChecksum1 := started.2.checksum1
    lastFrameChecksum2 := started.2.checksum2
    salt1 := started.2.salt1
    salt2 := started.2.salt2
    changeCounter := hdr.changeCounter + 1 }
  ({ started.1 with shm := written.1.writeCheckpointInfo checkpointInfo.resetForRewind }, written.2)

def rewindLogIfBackfilled (a : WALAppender) (hdr : Header) (chance : Chance) : WALAppender × Header :=
  if chance.reading then (a, hdr)
  else if hdr.maxFrame = 0 ∨ a.shm.readCheckpointInfo.nBackfill < hdr.maxFrame then (a, hdr)
  else a.rewind hdr chance

end WALAppender

namespace Cursor

def start (a : WALAppender) (hdr : Header) : Cursor where
  appender := a
  hdr := hdr
  currentFrameIdx := hdr.maxFrame
  currentOffset := walHeaderSize + hdr.maxFrame.toNat * (frameHeaderSize + a.pageSize.toNat)
  checksumEnc := if hdr.bigEndianChecksum != 0 then .bigEndian else .littleEndian
  lastFrameChecksum1 := hdr.lastFrameChecksum1
  lastFrameChecksum2 := hdr.lastFrameChecksum2

def publish (c : Cursor) (nTruncate : UInt32) : Cursor :=
  let written := c.appender.shm.writeHeader { c.hdr with
    maxFrame := c.currentFrameIdx
    pageCount := nTruncate
    lastFrameChecksum1 := c.lastFrameChecksum1
    lastFrameChecksum2 := c.lastFrameChecksum2
    changeCounter := c.hdr.changeCounter + 1 }
  { c with hdr := written.2, appender.shm := written.1 }

/-- A frame with the salts of this log and checksums that continue those before it. -/
def chained (c : Cursor) (f : Frame) : Frame :=
  Frame.updateChecksums { f with header.salt1 := c.hdr.salt1, header.salt2 := c.hdr.salt2 }
    c.checksumEnc c.lastFrameChecksum1 c.lastFrameChecksum2

/-- The frame is in the log file and in the wal-index. -/
def advance (c : Cursor) (f : Frame) (shm : SharedMemory) : Cursor :=
  { c with
    appender.f := (c.appender.f.write c.currentOffset f.header.bytes).write (c.currentOffset + frameHeaderSize) f.data
    appender.shm := shm
    currentFrameIdx := c.currentFrameIdx + 1
    currentOffset := c.currentOffset + (frameHeaderSize + c.appender.pageSize.toNat)
    lastFrameChecksum1 := f.header.checksum1
    lastFrameChecksum2 := f.header.checksum2 }

/-- After a first error the remaining frames are only taken from the channel. `none` when
the frame cannot be added to the wal-index. -/
def appendFrame (c : Cursor) (f : Frame) : Option Cursor :=
  if c.retErr.isSome then some c
  else if f.data.length ≠ c.appender.pageSize.toNat then
    let message :=
      s!"frame for page {f.header.pgNo} is {f.data.length} bytes, cluster page size is {c.appender.pageSize} bytes"
    some { c with retErr := some message }
  else
    let f := c.chained f
    (c.appender.shm.addFrame (c.currentFrameIdx + 1) f.header.pgNo).map fun shm =>
      let c := c.advance f shm
      if f.header.nTruncate ≠ 0 then c.publish f.header.nTruncate else c

end Cursor

namespace WALAppender

/-- `none` when the source does not return: it would use a nil header, or a probe for a
free hash slot would never end. -/
def appendFramesLocked (a : WALAppender) (chance : Chance) (frames : List Frame) : Option (WALAppender × Option String) :=
  a.shm.readHeader.bind fun hdr =>
    let rewound := a.rewindLogIfBackfilled hdr chance
    (frames.foldlM Cursor.appendFrame (Cursor.start rewound.1 rewound.2)).map fun c => (c.appender, c.retErr)

/-- `none` for the nil header; `walSize` is the length of the log file. -/
def maybeBootstrap (a : WALAppender) (walSize : Nat) (salt1 salt2 : UInt32) : Option (Except String WALAppender) :=
  a.shm.readHeader.map fun hdr =>
    if hdr.isInit = true ∧ (0 : UInt32) < hdr.pageSize then .ok a
    else if walHeaderSize < walSize then
      .error s!"-wal file already has {walSize} bytes but the wal-index is uninitialized; recovery from an existing WAL is not supported"
    else
      let started := a.writeWALFileHeader salt1 salt2
      let idxHdr := Shm.initHeader a.pageSize started.2.checksum1 started.2.checksum2 started.2.salt1 started.2.salt2
      .ok { started.1 with shm := (started.1.shm.writeHeader idxHdr).1 }

/-- What a published header makes of the files. -/
def log (a : WALAppender) (hdr : Header) : PageLog Bytes where
  frames := logFrames a.pageSize a.f hdr.maxFrame.toNat
  size := hdr.pageCount.toNat
  backfill := a.shm.readCheckpointInfo.nBackfill.toNat
  file := a.db

def published (a : WALAppender) : Option (PageLog Bytes) := a.shm.readHeader.map a.log

def copied (a : WALAppender) (hdr : Header) (k : UInt32) : WALAppender :=
  { a with
    shm := a.shm.writeCheckpointInfo { a.shm.readCheckpointInfo with nBackfill := k, nBackfillAttempted := k }
    db := ((a.log hdr).checkpoint k.toNat).file }

/-- SQLite's passive checkpoint of the first `k` frames, if there are that many. -/
def checkpoint (a : WALAppender) (k : UInt32) : WALAppender :=
  a.shm.readHeader.elim a fun hdr => if hdr.maxFrame = 0 ∨ hdr.maxFrame < k then a else a.copied hdr k

/-- A node before its first append: no log file and no shared memory yet. -/
def fresh (pageSize : UInt32) (db : Database Bytes) : WALAppender where
  pageSize := pageSize
  f := fun _ => 0
  shm := fun _ _ => 0
  db := db

end WALAppender

end Literaft.WalAppender
