import Literaft.Lookup

/-! The wal-index under batches of frames. A batch adds its frames behind the published
ones and publishes the last of them or is given up; a rewind starts again at frame one. -/

namespace Literaft.Batches
open Library Wal Shm WalAppender Lookup

/-- `pages` has the page of every published frame. -/
structure WalIndex where
  shm : SharedMemory
  pages : List UInt32

inductive Batch where
  | append (pages : List UInt32) (publish : Option Header)
  | rewind (hdr : Header) (info : CheckpointInfo)

def addFrames (s : SharedMemory) (n : Nat) : List UInt32 → Option SharedMemory
  | [] => some s
  | pgNo :: rest => (s.addFrame (UInt32.ofNat (n + 1)) pgNo).bind fun t => addFrames t (n + 1) rest

/-- Frame numbers have 32 bits. `none` also when a frame finds no free slot. -/
def step (x : WalIndex) : Batch → Option WalIndex
  | .append pages publish =>
    let maxFrame := x.pages.length + pages.length
    if maxFrame < 2 ^ 32 then
      (addFrames x.shm x.pages.length pages).map fun shm => publish.elim ⟨shm, x.pages⟩ fun hdr =>
        ⟨(shm.writeHeader { hdr with maxFrame := UInt32.ofNat maxFrame }).1, x.pages ++ pages⟩
    else none
  | .rewind hdr info => some ⟨(x.shm.writeHeader { hdr with maxFrame := 0 }).1.writeCheckpointInfo info, []⟩

/-- Nothing of a batch that was given up lies in the way of the next frame. -/
def Clean (x : WalIndex) : Prop := Clear x.shm (UInt32.ofNat x.pages.length)

/-- Every batch that adds a frame finds nothing left of one that was given up. -/
def cleanRun : WalIndex → List Batch → Prop
  | _, [] => True
  | x, batch :: rest =>
    (∀ pages publish, batch = .append pages publish → pages ≠ [] → Clean x) ∧ ∀ y, step x batch = some y → cleanRun y rest

/-- A frame is added within its region, its page number below the slots. -/
structure Confined (frameIdx : UInt32) (s t : SharedMemory) : Prop where
  others : ∀ regionID ≠ regionForFrame frameIdx, t regionID = s regionID
  inside : ∀ address, address < (hashTableOffsets (regionForFrame frameIdx)).1 ∨ regionSize ≤ address →
    t (regionForFrame frameIdx) address = s (regionForFrame frameIdx) address
  numbered : 1 ≤ (frameIdx - frameZeroForRegion (regionForFrame frameIdx)).toNat
  apart : (hashTableOffsets (regionForFrame frameIdx)).1 + (frameIdx - frameZeroForRegion (regionForFrame frameIdx)).toNat * 4 ≤
    (hashTableOffsets (regionForFrame frameIdx)).2
  slots : (hashTableOffsets (regionForFrame frameIdx)).2 + hashtableSlotCount * 2 ≤ regionSize

/-- The greatest frame up to `bound` that holds the page, zero if there is none. -/
def lastFrame (pages : List UInt32) (pgNo : UInt32) (bound : Nat) : Nat :=
  Nat.findGreatest (fun n => 1 ≤ n ∧ pages[n - 1]? = some pgNo) bound

def callFrames (a : WALAppender) (chance : Chance) (frames : List Frame) : List UInt32 :=
  a.shm.readHeader.elim [] fun hdr =>
    (List.range' ((a.rewindLogIfBackfilled hdr chance).2.maxFrame.toNat + 1)
      (frames.takeWhile fun f => f.data.length = a.pageSize.toNat).length).map UInt32.ofNat

/-- The frames that a run of the appender adds to the wal-index, published or not. -/
def addedFrames : WALAppender → List Store.Operation → List UInt32
  | _, [] => []
  | a, operation :: rest =>
    (match operation with
      | .append chance frames => callFrames a chance frames
      | .checkpoint _ => []) ++ (Store.step a operation).elim [] fun b => addedFrames b rest

/-- One more frame in a region, counted from its first frame on. -/
def tally (regionID count : Nat) (frameIdx : UInt32) : Nat :=
  if regionForFrame frameIdx = regionID then
    if (frameIdx - frameZeroForRegion regionID).toNat = 1 then 1 else count + 1
  else count

end Literaft.Batches
