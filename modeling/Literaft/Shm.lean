import Literaft.Wal
import Literaft.Library.Probe

/-! The shared memory of a database: the wal-index header in two copies, the checkpoint
information, and per region the page numbers of its frames with a hash table over them.
A region that was never mapped reads as zeros. -/

namespace Literaft.Shm
open Library Wal

def headerCopySize : Nat := 48
def checkpointInfoSize : Nat := 40
def checkpointInfoOffset : Nat := 2 * headerCopySize
def headerSize : Nat := checkpointInfoOffset + checkpointInfoSize
def hashtablePageCount : Nat := 4096
def hashtableHash1 : UInt32 := 383
def hashtableSlotCount : Nat := hashtablePageCount * 2
def hashtableRegion0PageCount : Nat := hashtablePageCount - headerSize / 4
def readMarkNotUsed : UInt32 := 0xffffffff
def regionSize : Nat := 32768

/-- The fields of the header's 48 bytes. `unused` and any byte but zero in a flag are
kept as they are read. -/
structure Header where
  version : UInt32 := 0
  unused : UInt32 := 0
  changeCounter : UInt32 := 0
  init : UInt8 := 0
  bigEndianChecksum : UInt8 := 0
  pageSizeField : UInt16 := 0
  maxFrame : UInt32 := 0
  pageCount : UInt32 := 0
  lastFrameChecksum1 : UInt32 := 0
  lastFrameChecksum2 : UInt32 := 0
  salt1 : UInt32 := 0
  salt2 : UInt32 := 0
  checksum1 : UInt32 := 0
  checksum2 : UInt32 := 0
  deriving DecidableEq, Repr

namespace Header

def bytes (h : Header) : Bytes :=
  le32 h.version ++ (le32 h.unused ++ (le32 h.changeCounter ++ ([h.init, h.bigEndianChecksum] ++ (le16 h.pageSizeField ++
    (le32 h.maxFrame ++ (le32 h.pageCount ++ (le32 h.lastFrameChecksum1 ++ (le32 h.lastFrameChecksum2 ++
      (le32 h.salt1 ++ (le32 h.salt2 ++ (le32 h.checksum1 ++ le32 h.checksum2)))))))))))

def ofBytes (p : Bytes) : Header where
  version := leUint32 p 0
  unused := leUint32 p 4
  changeCounter := leUint32 p 8
  init := p.getD 12 0
  bigEndianChecksum := p.getD 13 0
  pageSizeField := leUint16 p 14
  maxFrame := leUint32 p 16
  pageCount := leUint32 p 20
  lastFrameChecksum1 := leUint32 p 24
  lastFrameChecksum2 := leUint32 p 28
  salt1 := leUint32 p 32
  salt2 := leUint32 p 36
  checksum1 := leUint32 p 40
  checksum2 := leUint32 p 44

def isInit (h : Header) : Bool := h.init != 0

def pageSize (h : Header) : UInt32 := if h.pageSizeField = 1 then 65536 else h.pageSizeField.toUInt32

def setPageSize (h : Header) (size : UInt32) : Header :=
  { h with pageSizeField := (if size = 65536 then 1 else size).toUInt16 }

def setChecksums (h : Header) (sums : UInt32 × UInt32) : Header := { h with checksum1 := sums.1, checksum2 := sums.2 }

def updateChecksums (h : Header) : Header :=
  h.setChecksums (computeChecksums .littleEndian (h.bytes.take 40) 0 0)

@[simp] theorem bytes_length (h : Header) : h.bytes.length = headerCopySize := rfl

@[simp] theorem ofBytes_bytes (h : Header) : ofBytes h.bytes = h := by
  cases h
  simp only [ofBytes, mk.injEq]
  exact ⟨leUint32_at rfl, leUint32_at rfl, leUint32_at rfl, rfl, rfl, leUint16_at rfl, leUint32_at rfl, leUint32_at rfl,
    leUint32_at rfl, leUint32_at rfl, leUint32_at rfl, leUint32_at rfl, leUint32_at rfl, leUint32_at rfl⟩

end Header

def initHeader (pageSize lastFrameChecksum1 lastFrameChecksum2 salt1 salt2 : UInt32) : Header :=
  Header.setPageSize
    { version := walHeaderVersion, init := 1, lastFrameChecksum1, lastFrameChecksum2, salt1, salt2 } pageSize

/-- `lock1` and `lock2` are the eight bytes whose addresses serve as lock names. -/
structure CheckpointInfo where
  nBackfill : UInt32
  readMark0 : UInt32
  readMark1 : UInt32
  readMark2 : UInt32
  readMark3 : UInt32
  readMark4 : UInt32
  lock1 : UInt32
  lock2 : UInt32
  nBackfillAttempted : UInt32
  unused : UInt32
  deriving DecidableEq, Repr

namespace CheckpointInfo

def bytes (c : CheckpointInfo) : Bytes :=
  le32 c.nBackfill ++ (le32 c.readMark0 ++ (le32 c.readMark1 ++ (le32 c.readMark2 ++ (le32 c.readMark3 ++
    (le32 c.readMark4 ++ (le32 c.lock1 ++ (le32 c.lock2 ++ (le32 c.nBackfillAttempted ++ le32 c.unused))))))))

def ofBytes (p : Bytes) : CheckpointInfo where
  nBackfill := leUint32 p 0
  readMark0 := leUint32 p 4
  readMark1 := leUint32 p 8
  readMark2 := leUint32 p 12
  readMark3 := leUint32 p 16
  readMark4 := leUint32 p 20
  lock1 := leUint32 p 24
  lock2 := leUint32 p 28
  nBackfillAttempted := leUint32 p 32
  unused := leUint32 p 36

def resetForRewind (c : CheckpointInfo) : CheckpointInfo :=
  { c with
    nBackfill := 0
    readMark1 := 0
    readMark2 := readMarkNotUsed
    readMark3 := readMarkNotUsed
    readMark4 := readMarkNotUsed
    nBackfillAttempted := 0 }

@[simp] theorem bytes_length (c : CheckpointInfo) : c.bytes.length = checkpointInfoSize := rfl

@[simp] theorem ofBytes_bytes (c : CheckpointInfo) : ofBytes c.bytes = c := by
  cases c
  simp only [ofBytes, mk.injEq]
  exact ⟨leUint32_at rfl, leUint32_at rfl, leUint32_at rfl, leUint32_at rfl, leUint32_at rfl, leUint32_at rfl,
    leUint32_at rfl, leUint32_at rfl, leUint32_at rfl, leUint32_at rfl⟩

end CheckpointInfo

abbrev SharedMemory := Nat → Storage

def regionForFrame (frameIdx : UInt32) : Nat :=
  (frameIdx.toNat + hashtablePageCount - hashtableRegion0PageCount - 1) / hashtablePageCount

def frameZeroForRegion (regionID : Nat) : UInt32 :=
  if regionID = 0 then 0 else UInt32.ofNat (hashtableRegion0PageCount + (regionID - 1) * hashtablePageCount)

def hashSlotForPage (pgNo : UInt32) : Nat :=
  (pgNo * hashtableHash1).toNat &&& (hashtableSlotCount - 1)

/-- Where the page numbers and the hash slots of a region begin. -/
def hashTableOffsets (regionID : Nat) : Nat × Nat :=
  (if regionID = 0 then headerSize else 0, hashtablePageCount * 4)

/-- A slot is in use when it holds a position other than zero. -/
def slotUsed (region : Storage) (hashOff slot : Nat) : Bool := leUint16 (region.read (hashOff + slot * 2) 2) 0 != 0

/-- A copy of the header, if its checksum is right. -/
def checkedHeader (c : Bytes) : Option Header :=
  let sums := computeChecksums .littleEndian (c.take 40) 0 0
  let hdr := Header.ofBytes c
  if sums.1 = hdr.checksum1 ∧ sums.2 = hdr.checksum2 then some hdr else none

/-- `clear(region[off:])`. -/
def clearFrom (region : Storage) (off : Nat) : Storage := fun address =>
  if off ≤ address ∧ address < regionSize then 0 else region address

namespace SharedMemory

/-- The first copy with a valid checksum; `none` is the nil header. -/
def readHeader (s : SharedMemory) : Option Header :=
  (checkedHeader ((s 0).read 0 headerCopySize)).or (checkedHeader ((s 0).read headerCopySize headerCopySize))

/-- The second copy is written first. The caller's header gets the new checksum. -/
def writeHeader (s : SharedMemory) (h : Header) : SharedMemory × Header :=
  let h := h.updateChecksums
  (Function.update s 0 (((s 0).write headerCopySize h.bytes).write 0 h.bytes), h)

def readCheckpointInfo (s : SharedMemory) : CheckpointInfo :=
  CheckpointInfo.ofBytes ((s 0).read checkpointInfoOffset checkpointInfoSize)

def writeCheckpointInfo (s : SharedMemory) (info : CheckpointInfo) : SharedMemory :=
  Function.update s 0 ((s 0).write checkpointInfoOffset info.bytes)

/-- `none` when every slot is in use: the probe loop of the source then never ends. -/
def addFrame (s : SharedMemory) (frameIdx pgNo : UInt32) : Option SharedMemory :=
  let regionID := regionForFrame frameIdx
  let region := s regionID
  let (pgNoOff, hashOff) := hashTableOffsets regionID
  let idx := (frameIdx - frameZeroForRegion regionID).toNat
  let region := if idx = 1 then clearFrom region pgNoOff else region
  let region := region.write (pgNoOff + (idx - 1) * 4) (le32 pgNo)
  (probe hashtableSlotCount (slotUsed region hashOff) hashtableSlotCount (hashSlotForPage pgNo)).map fun slot =>
    Function.update s regionID (region.write (hashOff + slot * 2) (le16 (UInt16.ofNat idx)))

end SharedMemory

end Literaft.Shm
