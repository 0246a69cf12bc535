import Literaft.Library.Bytes
import Literaft.Library.PageLog

/-! The on-disk write-ahead log: frame headers, the file header and the cumulative
checksum. A header is kept as its fields; `bytes` and `ofBytes` are its byte array. -/

namespace Literaft.Wal
open Library

inductive ByteOrder where
  | littleEndian
  | bigEndian
  deriving DecidableEq, Repr

def ByteOrder.uint32 (enc : ByteOrder) (data : Bytes) (off : Nat) : UInt32 :=
  match enc with
  | .littleEndian => leUint32 data off
  | .bigEndian => beUint32 data off

/-- Eight bytes are folded at a time. A shorter tail never reaches the loop: callers
refuse data whose length is not a multiple of eight. -/
def computeChecksums (enc : ByteOrder) : Bytes → UInt32 → UInt32 → UInt32 × UInt32
  | a :: b :: c :: d :: e :: f :: g :: h :: rest, prevChecksum1, prevChecksum2 =>
    let checksum1 := prevChecksum1 + (enc.uint32 [a, b, c, d] 0 + prevChecksum2)
    let checksum2 := prevChecksum2 + (enc.uint32 [e, f, g, h] 0 + checksum1)
    computeChecksums enc rest checksum1 checksum2
  | _, prevChecksum1, prevChecksum2 => (prevChecksum1, prevChecksum2)

def frameHeaderSize : Nat := 24

structure FrameHeader where
  pgNo : UInt32 := 0
  nTruncate : UInt32 := 0
  salt1 : UInt32 := 0
  salt2 : UInt32 := 0
  checksum1 : UInt32 := 0
  checksum2 : UInt32 := 0
  deriving DecidableEq, Repr

namespace FrameHeader

def bytes (h : FrameHeader) : Bytes :=
  be32 h.pgNo ++ be32 h.nTruncate ++ be32 h.salt1 ++ be32 h.salt2 ++ be32 h.checksum1 ++ be32 h.checksum2

def ofBytes (p : Bytes) : FrameHeader where
  pgNo := beUint32 p 0
  nTruncate := beUint32 p 4
  salt1 := beUint32 p 8
  salt2 := beUint32 p 12
  checksum1 := beUint32 p 16
  checksum2 := beUint32 p 20

def isCommit (h : FrameHeader) : Bool := h.nTruncate != 0

@[simp] theorem bytes_length (h : FrameHeader) : h.bytes.length = frameHeaderSize := rfl

@[simp] theorem ofBytes_bytes (h : FrameHeader) : ofBytes h.bytes = h := by
  cases h
  simp only [ofBytes, mk.injEq]
  exact ⟨beUint32_at rfl, beUint32_at rfl, beUint32_at rfl, beUint32_at rfl, beUint32_at rfl, beUint32_at rfl⟩

end FrameHeader

structure Frame where
  header : FrameHeader
  data : Bytes
  deriving DecidableEq, Repr

/-- The salts are not covered by a frame's checksum. Data of a length the loop
cannot fold leaves the header as it was; the caller drops the error. -/
def Frame.updateChecksums (f : Frame) (enc : ByteOrder) (prevChecksum1 prevChecksum2 : UInt32) : Frame :=
  let data := be32 f.header.pgNo ++ be32 f.header.nTruncate ++ f.data
  if data.length % 8 ≠ 0 then f else
  let sums := computeChecksums enc data prevChecksum1 prevChecksum2
  { f with header.checksum1 := sums.1, header.checksum2 := sums.2 }

def walHeaderSize : Nat := 32
def walHeaderMagicLE : UInt32 := 0x377f0682
def walHeaderMagicBE : UInt32 := 0x377f0683
def walHeaderVersion : UInt32 := 3007000

structure WALHeader where
  magic : UInt32
  version : UInt32
  pageSize : UInt32
  checkpointSeq : UInt32
  salt1 : UInt32
  salt2 : UInt32
  checksum1 : UInt32
  checksum2 : UInt32
  deriving DecidableEq, Repr

namespace WALHeader

def bytes (h : WALHeader) : Bytes :=
  be32 h.magic ++ be32 h.version ++ be32 h.pageSize ++ be32 h.checkpointSeq ++ be32 h.salt1 ++ be32 h.salt2 ++
    be32 h.checksum1 ++ be32 h.checksum2

def ofBytes (p : Bytes) : WALHeader where
  magic := beUint32 p 0
  version := beUint32 p 4
  pageSize := beUint32 p 8
  checkpointSeq := beUint32 p 12
  salt1 := beUint32 p 16
  salt2 := beUint32 p 20
  checksum1 := beUint32 p 24
  checksum2 := beUint32 p 28

@[simp] theorem bytes_length (h : WALHeader) : h.bytes.length = walHeaderSize := rfl

@[simp] theorem ofBytes_bytes (h : WALHeader) : ofBytes h.bytes = h := by
  cases h
  simp only [ofBytes, mk.injEq]
  exact ⟨beUint32_at rfl, beUint32_at rfl, beUint32_at rfl, beUint32_at rfl, beUint32_at rfl, beUint32_at rfl, beUint32_at rfl,
    beUint32_at rfl⟩

def updateChecksums (h : WALHeader) : WALHeader :=
  let enc := if h.magic = walHeaderMagicBE then ByteOrder.bigEndian else .littleEndian
  let sums := computeChecksums enc (h.bytes.take 24) 0 0
  { h with checksum1 := sums.1, checksum2 := sums.2 }

/-- The two salts are the random bytes of the source. -/
def initHeader (pageSize salt1 salt2 : UInt32) : WALHeader :=
  updateChecksums
    { magic := walHeaderMagicLE, version := walHeaderVersion, pageSize, checkpointSeq := 0,
      salt1, salt2, checksum1 := 0, checksum2 := 0 }

end WALHeader

def isFrameHeaderOffset (pageSize : UInt32) (offset : Nat) : Bool :=
  decide (walHeaderSize ≤ offset ∧ (offset - walHeaderSize) % (frameHeaderSize + pageSize.toNat) = 0)

def isFrameDataOffset (pageSize : UInt32) (offset : Nat) : Bool :=
  decide (walHeaderSize + frameHeaderSize ≤ offset ∧
    (offset - walHeaderSize - frameHeaderSize) % (frameHeaderSize + pageSize.toNat) = 0)

/-- The offset of the header of frame `n`, counting from one. -/
def frameOffset (pageSize : UInt32) (n : Nat) : Nat :=
  walHeaderSize + (n - 1) * (frameHeaderSize + pageSize.toNat)

def Frame.image (frame : Frame) : Nat × Bytes := (frame.header.pgNo.toNat, frame.data)

/-- What frames do to a database that has `size` pages after them. -/
def change (frames : List Frame) (size : UInt32) : Change Bytes := ⟨frames.map Frame.image, size.toNat⟩

/-- What stands in the place of frame `n`. -/
def storedFrame (pageSize : UInt32) (wal : Storage) (n : Nat) : Frame where
  header := FrameHeader.ofBytes (wal.read (frameOffset pageSize n) frameHeaderSize)
  data := wal.read (frameOffset pageSize n + frameHeaderSize) pageSize.toNat

def logFrame (pageSize : UInt32) (wal : Storage) (n : Nat) : Nat × Bytes :=
  ((FrameHeader.ofBytes (wal.read (frameOffset pageSize n) frameHeaderSize)).pgNo.toNat,
    wal.read (frameOffset pageSize n + frameHeaderSize) pageSize.toNat)

def logFrames (pageSize : UInt32) (wal : Storage) (count : Nat) : List (Nat × Bytes) :=
  (List.range count).map fun i => logFrame pageSize wal (i + 1)

section Offsets
variable {pageSize : UInt32}

theorem page_positive (sized : pageSize ≠ 0) : 0 < pageSize.toNat := by
  apply Nat.pos_of_ne_zero
  intro zero
  exact sized (UInt32.toNat_inj.mp zero)

theorem frameOffset_pos (pageSize : UInt32) (n : Nat) : 0 < frameOffset pageSize n := by
  simp only [frameOffset, walHeaderSize]
  omega

@[simp] theorem isFrameHeaderOffset_frameOffset (n : Nat) :
    isFrameHeaderOffset pageSize (frameOffset pageSize n) = true := by
  simp [isFrameHeaderOffset, frameOffset]

@[simp] theorem isFrameDataOffset_frameOffset (n : Nat) :
    isFrameDataOffset pageSize (frameOffset pageSize n + frameHeaderSize) = true := by
  have same : walHeaderSize + (n - 1) * (frameHeaderSize + pageSize.toNat) + frameHeaderSize - walHeaderSize -
      frameHeaderSize = (n - 1) * (frameHeaderSize + pageSize.toNat) := by omega
  simp only [isFrameDataOffset, frameOffset, same, Nat.mul_mod_left, and_true, decide_eq_true_eq]
  omega

/-- A page holds at least one byte, so the place of its data is never a header's. -/
@[simp] theorem isFrameHeaderOffset_data (n : Nat) (pages : 0 < pageSize.toNat) :
    isFrameHeaderOffset pageSize (frameOffset pageSize n + frameHeaderSize) = false := by
  have same : walHeaderSize + (n - 1) * (frameHeaderSize + pageSize.toNat) + frameHeaderSize - walHeaderSize =
      frameHeaderSize + (frameHeaderSize + pageSize.toNat) * (n - 1) := by rw [Nat.mul_comm]; omega
  have left : (frameHeaderSize + (frameHeaderSize + pageSize.toNat) * (n - 1)) % (frameHeaderSize + pageSize.toNat) =
      frameHeaderSize := by
    rw [Nat.add_mul_mod_self_left, Nat.mod_eq_of_lt (by omega)]
  simp only [isFrameHeaderOffset, frameOffset, same, left, decide_eq_false_iff_not, not_and]
  intro _
  decide

theorem frameOffset_lt (pageSize : UInt32) {first last : Nat} (positive : 1 ≤ first) (later : first < last) :
    frameOffset pageSize first + frameHeaderSize + pageSize.toNat ≤ frameOffset pageSize last := by
  obtain ⟨gap, rfl⟩ := Nat.exists_eq_add_of_lt later
  obtain ⟨first, rfl⟩ := Nat.exists_eq_add_of_le' positive
  simp only [frameOffset, Nat.add_sub_cancel, show first + 1 + gap + 1 - 1 = first + (gap + 1) by omega, Nat.add_mul]
  omega

theorem frameOffset_inj {first last : Nat} (positive : 1 ≤ first) (also : 1 ≤ last)
    (same : frameOffset pageSize first = frameOffset pageSize last) : first = last := by
  rcases Nat.lt_trichotomy first last with before | equal | after
  · have := frameOffset_lt pageSize positive before
    simp only [frameHeaderSize] at this
    omega
  · exact equal
  · have := frameOffset_lt pageSize also after
    simp only [frameHeaderSize] at this
    omega

theorem frameOffset_le_iff (pageSize : UInt32) {first last : Nat} (positive : 1 ≤ first) (also : 1 ≤ last) :
    frameOffset pageSize first ≤ frameOffset pageSize last ↔ first ≤ last := by
  constructor
  · intro bounded
    by_contra later
    have := frameOffset_lt pageSize also (Nat.lt_of_not_le later)
    simp only [frameHeaderSize] at this
    omega
  · intro ordered
    rcases Nat.lt_or_eq_of_le ordered with before | rfl
    · have := frameOffset_lt pageSize positive before
      omega
    · exact Nat.le_refl _

end Offsets

end Literaft.Wal
