import Literaft.WalAppender

/-! The single writes of an append to the log file, in their order, and what a crash
after some of them leaves of the file. The same for the bytes of the wal-index header. -/

namespace Literaft.Crash
open Library Wal WalAppender

/-- A frame as it is written: the salts of this log, and checksums that continue `before`. -/
def stamped (enc : ByteOrder) (salt1 salt2 : UInt32) (before : UInt32 × UInt32) (f : Frame) : Frame :=
  Frame.updateChecksums { f with header.salt1 := salt1, header.salt2 := salt2 } enc before.1 before.2

/-- The writes of the loop over the frames of an append, which stops at a frame of a
wrong size. -/
def frameWrites (pageSize : UInt32) (enc : ByteOrder) (salt1 salt2 : UInt32) :
    Nat → UInt32 × UInt32 → List Frame → List (Nat × Bytes)
  | _, _, [] => []
  | offset, before, f :: rest =>
    if f.data.length ≠ pageSize.toNat then []
    else
      let f := stamped enc salt1 salt2 before f
      (offset, f.header.bytes) :: (offset + frameHeaderSize, f.data) ::
        frameWrites pageSize enc salt1 salt2 (offset + (frameHeaderSize + pageSize.toNat)) (f.header.checksum1, f.header.checksum2) rest

/-- The checks of `rewindLogIfBackfilled`. -/
def rewinds (a : WALAppender) (hdr : Shm.Header) (chance : Chance) : Bool :=
  !chance.reading && !decide (hdr.maxFrame = 0 ∨ a.shm.readCheckpointInfo.nBackfill < hdr.maxFrame)

def loopWrites (c : Cursor) (frames : List Frame) : List (Nat × Bytes) :=
  frameWrites c.appender.pageSize c.checksumEnc c.hdr.salt1 c.hdr.salt2 c.currentOffset
    (c.lastFrameChecksum1, c.lastFrameChecksum2) frames

def writes (a : WALAppender) (hdr : Shm.Header) (chance : Chance) (frames : List Frame) : List (Nat × Bytes) :=
  let started := a.rewindLogIfBackfilled hdr chance
  (if rewinds a hdr chance then [(0, (WALHeader.initHeader a.pageSize chance.salt1 chance.salt2).bytes)] else []) ++
    loopWrites (Cursor.start started.1 started.2) frames

def crashed (wal : Storage) (writes : List (Nat × Bytes)) (count : Nat) : Storage :=
  (writes.take count).foldl (fun wal write => wal.write write.1 write.2) wal

/-- The wal-index after the first `count` bytes that `WriteHeader` copies. -/
def tornHeader (s : Shm.SharedMemory) (h : Shm.Header) (count : Nat) : Shm.SharedMemory :=
  let h := h.updateChecksums
  Function.update s 0 (((s 0).write Shm.headerCopySize (h.bytes.take count)).write 0
    (h.bytes.take (count - Shm.headerCopySize)))

/-- Both copies are those of this header, and its checksum is right. -/
structure Published (s : Shm.SharedMemory) (old : Shm.Header) : Prop where
  first : (s 0).read 0 Shm.headerCopySize = old.bytes
  second : (s 0).read Shm.headerCopySize Shm.headerCopySize = old.bytes
  checked : Shm.checkedHeader old.bytes = some old

/-- A copy with the first `count` bytes of the new header over the old one. -/
def mixture (old new : Shm.Header) (count : Nat) : Bytes := new.bytes.take count ++ old.bytes.drop count

/-- A mixture that is neither of the two headers has a wrong checksum. -/
def NoCollision (old new : Shm.Header) : Prop :=
  ∀ count, mixture old new count ≠ old.bytes → mixture old new count ≠ new.bytes →
    Shm.checkedHeader (mixture old new count) = none

end Literaft.Crash
