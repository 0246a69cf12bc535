import Literaft.Recovery

/-! A new epoch of the log that SQLite opens, and what an append into it has to leave. -/

namespace Literaft.Epoch
open Library Wal Shm WalAppender Recovery

def swapped (word : UInt32) : UInt32 := beUint32 (le32 word) 0

/-- `walRestartHdr` of SQLite. It keeps the salts as bytes, adds one to the first of them
as a big-endian number, and leaves the checksum of the last frame as it was. -/
def restarted (a : WALAppender) (hdr : Header) (salt2 : UInt32) : WALAppender × Header :=
  let written := a.shm.writeHeader { hdr with maxFrame := 0, salt1 := swapped (swapped hdr.salt1 + 1), salt2 }
  ({ a with shm := written.1.writeCheckpointInfo a.shm.readCheckpointInfo.resetForRewind }, written.2)

def truncated (a : WALAppender) : WALAppender := { a with f := fun _ => 0 }

/-- The file header that SQLite writes for an epoch; the bytes of the salts are copied. -/
def epochHeader (pageSize : UInt32) (hdr : Header) (nCkpt : UInt32) : WALHeader :=
  WALHeader.updateChecksums
    { magic := if hdr.order = .bigEndian then walHeaderMagicBE else walHeaderMagicLE, version := walHeaderVersion, pageSize,
      checkpointSeq := nCkpt, salt1 := swapped hdr.salt1, salt2 := swapped hdr.salt2, checksum1 := 0, checksum2 := 0 }

/-- The log file after a writer that got no further than the file header. -/
def opened (a : WALAppender) (hdr : Header) (nCkpt : UInt32) : WALAppender :=
  { a with f := a.f.write 0 (epochHeader a.pageSize hdr nCkpt).bytes }

/-- Nothing is published in this epoch, and the log file has no valid header, or one of
this database. -/
structure Reopened (a : WALAppender) (hdr : Header) : Prop where
  header : a.shm.readHeader = some hdr
  empty : hdr.maxFrame = 0
  file : (fileHeader a.f).sound = true → (fileHeader a.f).pageSize = a.pageSize ∧ (fileHeader a.f).enc = hdr.order

/-- The log file starts with a header of the salts that its frames have, their checksums
continue the header's, and recovery finds all that is published. -/
structure Recoverable (b : WALAppender) (latest : Header) : Prop where
  sound : (fileHeader b.f).sound = true
  salts : ∀ n, 1 ≤ n → n ≤ latest.maxFrame.toNat →
    (storedFrame b.pageSize b.f n).header.salt1 = (fileHeader b.f).salt1 ∧
      (storedFrame b.pageSize b.f n).header.salt2 = (fileHeader b.f).salt2
  chained : (storedFrame b.pageSize b.f 1).sums (fileHeader b.f).enc ((fileHeader b.f).checksum1, (fileHeader b.f).checksum2) =
    ((storedFrame b.pageSize b.f 1).header.checksum1, (storedFrame b.pageSize b.f 1).header.checksum2)
  found : ∀ slots, latest.maxFrame.toNat ≤ slots → latest.maxFrame.toNat ≤ (recover b.f slots).mxFrame

/-- The header of the log file and that of the wal-index agree as the appender reads them: the
words of the first are big-endian, those of the second little-endian. SQLite copies the salts
as bytes, so a header that it has written for an epoch does not agree in this sense (`swapped`). -/
structure Agree (file : WALHeader) (hdr : Header) : Prop where
  salt1 : file.salt1 = hdr.salt1
  salt2 : file.salt2 = hdr.salt2
  checksum1 : file.checksum1 = hdr.lastFrameChecksum1
  checksum2 : file.checksum2 = hdr.lastFrameChecksum2

/-- The wal-index goes on from the header of the log file. -/
structure Seeded (a : WALAppender) (hdr : Header) : Prop extends Agree (fileHeader a.f) hdr where
  sound : (fileHeader a.f).sound = true

/-- The wal-index header and the header of the log file describe the same empty epoch. -/
structure OneEpoch (b : WALAppender) (latest : Header) : Prop extends Agree (fileHeader b.f) latest where
  published : b.shm.readHeader = some latest
  order : (fileHeader b.f).enc = latest.order
  maxFrame : latest.maxFrame = 0
  nBackfill : b.shm.readCheckpointInfo.nBackfill = 0

/-- The checksum that frame `n + 1` has to continue. -/
def seed (pageSize : UInt32) (wal : Storage) (n : Nat) : UInt32 × UInt32 :=
  if n = 0 then ((fileHeader wal).checksum1, (fileHeader wal).checksum2)
  else ((storedFrame pageSize wal n).header.checksum1, (storedFrame pageSize wal n).header.checksum2)

/-- The frame has the salts of the log file's header and a checksum in its byte order. -/
structure Fits (h : WALHeader) (before : UInt32 × UInt32) (f : Frame) : Prop where
  salt1 : f.header.salt1 = h.salt1
  salt2 : f.header.salt2 = h.salt2
  sums : f.sums h.enc before = (f.header.checksum1, f.header.checksum2)

/-- A reader of the log file's header accepts the first `n` frames. -/
def Validates (pageSize : UInt32) (wal : Storage) (n : Nat) : Prop :=
  ∀ m < n, Fits (fileHeader wal) (seed pageSize wal m) (storedFrame pageSize wal (m + 1))

end Literaft.Epoch
