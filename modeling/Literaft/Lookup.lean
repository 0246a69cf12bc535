import Literaft.Store

/-! How a reader of SQLite finds a page through the wal-index: it goes down the regions
from that of its mark, follows the hash slots of each, and takes the last frame of the
page at or below the mark. -/

namespace Literaft.Lookup
open Library Wal Shm WalAppender Store

/-- The position in a hash slot, zero if the slot is free. -/
def entry (region : Storage) (slot : Nat) : Nat := (leUint16 (region.read (hashtablePageCount * 4 + slot * 2) 2) 0).toNat

/-- The page number under a position, counting from zero. -/
def pageEntry (s : SharedMemory) (regionID position : Nat) : UInt32 :=
  leUint32 ((s regionID).read ((hashTableOffsets regionID).1 + position * 4) 4) 0

/-- The frames between `minFrame` and `iLast` that hold a page, by their positions. -/
def hit (s : SharedMemory) (regionID : Nat) (minFrame iLast pgNo : UInt32) (position : Nat) : Bool :=
  let iFrame := (frameZeroForRegion regionID).toNat + position
  decide (iFrame ≤ iLast.toNat ∧ minFrame.toNat ≤ iFrame ∧ pageEntry s regionID ((position - 1) % hashtablePageCount) = pgNo)

/-- The frame found in one region, zero if there is none. `none` is the error for a table
without a free slot. -/
def findInRegion (s : SharedMemory) (minFrame iLast pgNo : UInt32) (regionID : Nat) : Option Nat :=
  (chase hashtableSlotCount (entry (s regionID)) (hit s regionID minFrame iLast pgNo) (hashtableSlotCount + 1)
    (hashSlotForPage pgNo) 0).map fun position => if position = 0 then 0 else (frameZeroForRegion regionID).toNat + position

/-- The regions from `regionID` down, `count` of them. -/
def search (s : SharedMemory) (minFrame iLast pgNo : UInt32) : Nat → Nat → Option Nat
  | 0, _ => some 0
  | count + 1, regionID => (findInRegion s minFrame iLast pgNo regionID).bind fun iRead =>
    if iRead ≠ 0 then some iRead else search s minFrame iLast pgNo count (regionID - 1)

/-- `walFindFrame` of SQLite. -/
def findFrame (s : SharedMemory) (minFrame iLast pgNo : UInt32) : Option Nat :=
  if iLast = 0 then some 0
  else search s minFrame iLast pgNo (regionForFrame iLast + 1 - regionForFrame minFrame) (regionForFrame iLast)

def slotsUsed (s : SharedMemory) (regionID : Nat) : Nat :=
  occupied hashtableSlotCount (slotUsed (s regionID) (hashtablePageCount * 4))

def framePage (s : SharedMemory) (frameIdx : UInt32) : UInt32 :=
  pageEntry s (regionForFrame frameIdx) ((frameIdx - frameZeroForRegion (regionForFrame frameIdx)).toNat - 1)

/-- How many of `count` frames behind `maxFrame` are numbered within the region of `mark`. -/
def landing (mark maxFrame : UInt32) (count : Nat) : Nat :=
  min count (hashtableRegion0PageCount + regionForFrame mark * hashtablePageCount - maxFrame.toNat)

/-- The hash tables have slots for `count` frames behind `maxFrame`: the first of them clears its
region, or its region has a free slot for each of them that falls into it. Regions behind that
one are cleared on the way. -/
def FreeSlots (s : SharedMemory) (maxFrame : UInt32) (count : Nat) : Prop :=
  let next := maxFrame + 1
  next.toNat = (frameZeroForRegion (regionForFrame next)).toNat + 1 ∨
    slotsUsed s (regionForFrame next) + landing next maxFrame count ≤ hashtableSlotCount

instance (s : SharedMemory) (maxFrame : UInt32) (count : Nat) : Decidable (FreeSlots s maxFrame count) :=
  inferInstanceAs (Decidable (_ ∨ _))

/-- The header can be read, and an append of `count` frames finds a slot for each of them. -/
def HasSlots (a : WALAppender) (chance : Chance) (count : Nat) : Prop :=
  ∃ hdr, a.shm.readHeader = some hdr ∧
    FreeSlots (a.rewindLogIfBackfilled hdr chance).1.shm (a.rewindLogIfBackfilled hdr chance).2.maxFrame count

/-- The next frame is the first of its region, or no slot of its region names a frame that is
not published. -/
def Clear (s : SharedMemory) (maxFrame : UInt32) : Prop :=
  let next := maxFrame + 1
  next.toNat = (frameZeroForRegion (regionForFrame next)).toNat + 1 ∨
    ∀ slot < hashtableSlotCount,
      (frameZeroForRegion (regionForFrame next)).toNat + entry (s (regionForFrame next)) slot ≤ maxFrame.toNat

end Literaft.Lookup
