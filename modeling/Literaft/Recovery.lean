import Literaft.Library.Scan
import Literaft.WalAppender

/-! What SQLite makes of a log file whose wal-index is gone: it takes frames in order
while their salts are those of the file header and their checksums continue the one
before, and keeps them up to the last commit frame. -/

namespace Literaft.Wal
open Library

def pageSizes : List UInt32 := [512, 1024, 2048, 4096, 8192, 16384, 32768, 65536]

def WALHeader.enc (h : WALHeader) : ByteOrder := if h.magic = walHeaderMagicBE then .bigEndian else .littleEndian

def WALHeader.sound (h : WALHeader) : Bool :=
  (h.magic = walHeaderMagicLE || h.magic = walHeaderMagicBE) && h.version = walHeaderVersion && pageSizes.contains h.pageSize &&
    computeChecksums h.enc (h.bytes.take 24) 0 0 = (h.checksum1, h.checksum2)

/-- The checksum over the page number, the size and the data, on top of the one before. -/
def Frame.sums (f : Frame) (enc : ByteOrder) (before : UInt32 × UInt32) : UInt32 × UInt32 :=
  computeChecksums enc (be32 f.header.pgNo ++ be32 f.header.nTruncate ++ f.data) before.1 before.2

end Literaft.Wal

namespace Literaft.Shm
open Wal

def Header.order (hdr : Header) : ByteOrder := if hdr.bigEndianChecksum != 0 then .bigEndian else .littleEndian

end Literaft.Shm

namespace Literaft.Recovery
open Library Wal WalAppender

/-- The next checksum, if the frame belongs to this log and continues it. -/
def decodeFrame (h : WALHeader) (before : UInt32 × UInt32) (f : Frame) : Option (UInt32 × UInt32) :=
  if f.header.salt1 = h.salt1 ∧ f.header.salt2 = h.salt2 ∧ f.header.pgNo ≠ 0 ∧
      f.sums h.enc before = (f.header.checksum1, f.header.checksum2) then
    some (f.header.checksum1, f.header.checksum2)
  else none

/-- What recovery writes into the wal-index. Without a commit frame the checksum is the
one that the first frame has to continue. -/
structure Recovered where
  mxFrame : Nat := 0
  nPage : UInt32 := 0
  frameChecksum : UInt32 × UInt32 := (0, 0)
  deriving DecidableEq, Repr

def fileHeader (wal : Storage) : WALHeader := WALHeader.ofBytes (wal.read 0 walHeaderSize)

/-- `slots` is the number of whole frames that fit into the length of the file. -/
def recover (wal : Storage) (slots : Nat) : Recovered :=
  let h := fileHeader wal
  if h.sound = true then
    let record := storedFrame h.pageSize wal
    let kept := scan (decodeFrame h) (fun f => f.header.isCommit) record slots 0 (h.checksum1, h.checksum2)
      (0, h.checksum1, h.checksum2)
    ⟨kept.1, if kept.1 = 0 then 0 else (record kept.1).header.nTruncate, kept.2⟩
  else {}

/-- The recovered log over a database file. -/
def Recovered.log (r : Recovered) (pageSize : UInt32) (wal : Storage) (db : Database Bytes) : PageLog Bytes where
  frames := logFrames pageSize wal r.mxFrame
  size := r.nPage.toNat
  backfill := 0
  file := db

end Literaft.Recovery
