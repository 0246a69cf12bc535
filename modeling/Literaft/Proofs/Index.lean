import Literaft.Lookup

/-! The wal-index as its parts: the header and the checkpoint information do not touch
each other or the frame tables. A frame takes one slot of its region, which the first frame
of the region clears; frames are taken one after another as long as there are free slots. -/

namespace Literaft.Proofs.Index
open Library Wal Shm Literaft.Lookup

/-- The checksum covers the first forty bytes only. -/
private theorem setChecksums_take (h : Header) (sums : UInt32 × UInt32) :
    (h.setChecksums sums).bytes.take 40 = h.bytes.take 40 := rfl

theorem checkedHeader_updateChecksums (h : Header) :
    checkedHeader h.updateChecksums.bytes = some h.updateChecksums := by
  unfold checkedHeader
  rw [Header.ofBytes_bytes]
  exact if_pos (by rw [Header.updateChecksums, setChecksums_take]; exact ⟨rfl, rfl⟩)

theorem readHeader_writeHeader (s : SharedMemory) (h : Header) :
    (s.writeHeader h).1.readHeader = some h.updateChecksums := by
  have first : ((s.writeHeader h).1 0).read 0 headerCopySize = h.updateChecksums.bytes := by
    simp only [SharedMemory.writeHeader, Function.update_self]
    exact Storage.read_write_same _ 0 h.updateChecksums.bytes
  rw [SharedMemory.readHeader, first, checkedHeader_updateChecksums, Option.some_or]

/-- Both parts of the header page lie below the frame tables. -/
theorem readHeader_congr {s t : SharedMemory} (same : ∀ address, address < checkpointInfoOffset → s 0 address = t 0 address) :
    s.readHeader = t.readHeader := by
  have first : (s 0).read 0 headerCopySize = (t 0).read 0 headerCopySize :=
    Storage.read_congr fun i inside => same _ (by simp only [checkpointInfoOffset, headerCopySize] at *; omega)
  have second : (s 0).read headerCopySize headerCopySize = (t 0).read headerCopySize headerCopySize :=
    Storage.read_congr fun i inside => same _ (by simp only [checkpointInfoOffset, headerCopySize] at *; omega)
  simp only [SharedMemory.readHeader, first, second]

theorem readCheckpointInfo_congr {s t : SharedMemory}
    (same : ∀ address, checkpointInfoOffset ≤ address → address < headerSize → s 0 address = t 0 address) :
    s.readCheckpointInfo = t.readCheckpointInfo := by
  have info : (s 0).read checkpointInfoOffset checkpointInfoSize = (t 0).read checkpointInfoOffset checkpointInfoSize :=
    Storage.read_congr fun i inside => same _ (Nat.le_add_right _ _) (by simp only [headerSize]; omega)
  simp only [SharedMemory.readCheckpointInfo, info]

@[simp] theorem readCheckpointInfo_writeHeader (s : SharedMemory) (h : Header) :
    (s.writeHeader h).1.readCheckpointInfo = s.readCheckpointInfo := by
  apply readCheckpointInfo_congr
  intro address above _
  simp only [checkpointInfoOffset, headerCopySize] at above
  have outside : ¬ address < 48 := by omega
  have beyond : ¬ (48 ≤ address ∧ address < 48 + 48) := by omega
  simp [SharedMemory.writeHeader, Storage.write, headerCopySize, outside, beyond]

@[simp] theorem readCheckpointInfo_writeCheckpointInfo (s : SharedMemory) (info : CheckpointInfo) :
    (s.writeCheckpointInfo info).readCheckpointInfo = info := by
  have same : ((s.writeCheckpointInfo info) 0).read checkpointInfoOffset checkpointInfoSize = info.bytes := by
    simp only [SharedMemory.writeCheckpointInfo, Function.update_self]
    exact Storage.read_write_same _ checkpointInfoOffset info.bytes
  simp only [SharedMemory.readCheckpointInfo, same, CheckpointInfo.ofBytes_bytes]

@[simp] theorem readHeader_writeCheckpointInfo (s : SharedMemory) (info : CheckpointInfo) :
    (s.writeCheckpointInfo info).readHeader = s.readHeader := by
  apply readHeader_congr
  intro address below
  have outside : ¬ (checkpointInfoOffset ≤ address ∧ address < checkpointInfoOffset + checkpointInfoSize) := by omega
  simp only [SharedMemory.writeCheckpointInfo, Function.update_self, Storage.write, CheckpointInfo.bytes_length, outside,
    if_false]

/-- The region a frame is indexed in, the frames before that region, and the frame's
position in it, counting from one. -/
def segment (n : Nat) : Nat := (n + 33) / 4096

def before (region : Nat) : Nat := if region = 0 then 0 else 4062 + (region - 1) * 4096

def place (n : Nat) : Nat := n - before (segment n)

theorem place_bounds {n : Nat} (positive : 1 ≤ n) :
    before (segment n) < n ∧ 1 ≤ place n ∧ (if segment n = 0 then 34 else 0) + place n ≤ 4096 := by
  unfold place before segment
  split <;> omega

theorem place_succ {n : Nat} (positive : 1 ≤ n) :
    segment (n + 1) = segment n ∧ place (n + 1) = place n + 1 ∨ place (n + 1) = 1 := by
  unfold place before segment
  split <;> split <;> omega

theorem before_succ (regionID : Nat) : before (regionID + 1) = hashtableRegion0PageCount + regionID * hashtablePageCount := by
  rw [before, if_neg (Nat.succ_ne_zero regionID), Nat.add_sub_cancel]
  rfl

private theorem left_bounds {n : Nat} (positive : 1 ≤ n) : n ≤ before (segment n + 1) ∧ place n +
    (before (segment n + 1) - n) ≤ 4096 := by
  have same : before (segment n + 1) = 4062 + segment n * 4096 := before_succ (segment n)
  rw [same]
  unfold place before segment
  split <;> omega

private theorem left_fresh {n : Nat} (positive : 1 ≤ n) (fresh : place (n + 1) = 1) : before (segment n + 1) = n := by
  have same : before (segment n + 1) = 4062 + segment n * 4096 := before_succ (segment n)
  rw [same]
  unfold place before segment at *
  split at fresh <;> omega

theorem regionForFrame_eq (frameIdx : UInt32) : regionForFrame frameIdx = segment frameIdx.toNat := by
  simp only [regionForFrame, segment, hashtablePageCount, hashtableRegion0PageCount, headerSize, checkpointInfoOffset,
    checkpointInfoSize, headerCopySize]
  omega

theorem frameZero_before {region : Nat} (small : before region < 2 ^ 32) : (frameZeroForRegion region).toNat = before region := by
  unfold frameZeroForRegion
  by_cases first : region = 0
  · simp [first, before]
  · have same : before region = 4062 + (region - 1) * 4096 := by simp [before, first]
    rw [if_neg first, UInt32.toNat_ofNat']
    show (4062 + (region - 1) * 4096) % 2 ^ 32 = _
    rw [same] at small ⊢
    exact Nat.mod_eq_of_lt small

theorem frameZero_place {frameIdx : UInt32} (positive : 1 ≤ frameIdx.toNat) :
    (frameIdx - frameZeroForRegion (segment frameIdx.toNat)).toNat = place frameIdx.toNat := by
  have bound := frameIdx.toNat_lt
  have earlier := (place_bounds positive).1
  have zero := frameZero_before (show before (segment frameIdx.toNat) < 2 ^ 32 by omega)
  rw [UInt32.toNat_sub_of_le _ _ (UInt32.le_iff_toNat_le.mpr (by omega)), zero]
  rfl

theorem hashSlotForPage_lt (pgNo : UInt32) : hashSlotForPage pgNo < hashtableSlotCount :=
  Nat.lt_of_le_of_lt Nat.and_le_right (by decide)

/-- Neither the header nor the checkpoint information touches the frame tables. -/
theorem writeHeader_high (s : SharedMemory) (h : Header) {region address : Nat} (above : region = 0 → headerSize ≤ address) :
    (s.writeHeader h).1 region address = s region address := by
  by_cases first : region = 0
  · have high := above first
    simp only [headerSize, checkpointInfoOffset, checkpointInfoSize, headerCopySize] at high
    have outside : ¬ (48 ≤ address ∧ address < 48 + 48) := by omega
    have beyond : ¬ address < 48 := by omega
    subst first
    simp [SharedMemory.writeHeader, Storage.write, headerCopySize, outside, beyond]
  · simp [SharedMemory.writeHeader, first]

theorem writeCheckpointInfo_high (s : SharedMemory) (info : CheckpointInfo) {region address : Nat}
    (above : region = 0 → headerSize ≤ address) : (s.writeCheckpointInfo info) region address = s region address := by
  by_cases first : region = 0
  · have outside : ¬ (checkpointInfoOffset ≤ address ∧ address < checkpointInfoOffset + checkpointInfoSize) := by
      have high := above first
      simp only [headerSize] at high
      omega
    subst first
    simp only [SharedMemory.writeCheckpointInfo, Function.update_self, Storage.write, CheckpointInfo.bytes_length, outside,
      if_false]
  · simp [SharedMemory.writeCheckpointInfo, first]

theorem place_fits {n : Nat} (positive : 1 ≤ n) : (hashTableOffsets (segment n)).1 + place n * 4 ≤ hashtablePageCount * 4 := by
  obtain ⟨-, -, high⟩ := place_bounds positive
  simp only [hashTableOffsets, headerSize, checkpointInfoOffset, checkpointInfoSize, headerCopySize, hashtablePageCount]
  split <;> split at high <;> omega

theorem offset_low (regionID : Nat) : (hashTableOffsets regionID).1 ≤ hashtablePageCount * 4 := by
  simp only [hashTableOffsets, headerSize, checkpointInfoOffset, checkpointInfoSize, headerCopySize, hashtablePageCount]
  split <;> omega

theorem high_address {region address : Nat} (above : (hashTableOffsets region).1 ≤ address) (first : region = 0) :
    headerSize ≤ address := by
  rw [first] at above
  exact above

theorem writeHeader_tables (s : SharedMemory) (h : Header) (regionID address : Nat)
    (above : (hashTableOffsets regionID).1 ≤ address) :
    (s.writeHeader h).1 regionID address = s regionID address :=
  writeHeader_high s h (high_address above)

theorem writeCheckpointInfo_tables (s : SharedMemory) (info : CheckpointInfo) (regionID address : Nat)
    (above : (hashTableOffsets regionID).1 ≤ address) : (s.writeCheckpointInfo info) regionID address = s regionID address :=
  writeCheckpointInfo_high s info (high_address above)

section Slots
variable {region other : Storage} {slot : Nat}

theorem slotUsed_entry (region : Storage) (slot : Nat) :
    slotUsed region (hashtablePageCount * 4) slot = (entry region slot != 0) := by
  rw [slotUsed, entry]
  generalize leUint16 (region.read (hashtablePageCount * 4 + slot * 2) 2) 0 = word
  by_cases zero : word = 0
  · rw [zero]
    rfl
  · have positive : word.toNat ≠ 0 := fun same => zero (UInt16.toNat_inj.mp same)
    rw [bne_iff_ne.mpr zero, bne_iff_ne.mpr positive]

theorem entry_congr (same : ∀ address, hashtablePageCount * 4 + slot * 2 ≤ address →
    address < hashtablePageCount * 4 + slot * 2 + 2 → region address = other address) : entry region slot = entry other slot := by
  rw [entry, entry, Storage.read_congr fun i inside => same _ (Nat.le_add_right _ _) (by omega)]

theorem entry_taken (region : Storage) (slot : Nat) (word : UInt16) :
    entry (region.write (hashtablePageCount * 4 + slot * 2) (le16 word)) slot = word.toNat := by
  have stored := Storage.read_write_same region (hashtablePageCount * 4 + slot * 2) (le16 word)
  rw [show (le16 word).length = 2 from rfl] at stored
  rw [entry, stored, leUint16_at]
  rfl

theorem entry_apart (region : Storage) {slot other : Nat} (word : UInt16) (apart : other ≠ slot) :
    entry (region.write (hashtablePageCount * 4 + slot * 2) (le16 word)) other = entry region other := by
  apply entry_congr
  intro address above below
  have outside : ¬ (hashtablePageCount * 4 + slot * 2 ≤ address ∧ address < hashtablePageCount * 4 + slot * 2 + 2) := by
    omega
  simp only [Storage.write, show (le16 word).length = 2 from rfl, outside, if_false]

theorem entry_numbered (region : Storage) {off : Nat} (fits : off + 4 ≤ hashtablePageCount * 4) (pgNo : UInt32) (slot : Nat) :
    entry (region.write off (le32 pgNo)) slot = entry region slot := by
  apply entry_congr
  intro address above _
  have outside : ¬ (off ≤ address ∧ address < off + 4) := by omega
  simp only [Storage.write, le32_length, outside, if_false]

theorem entry_cleared {off : Nat} (low : off ≤ hashtablePageCount * 4) (inside : slot < hashtableSlotCount) :
    entry (clearFrom region off) slot = 0 := by
  have zeros : entry (clearFrom region off) slot = entry (fun _ => 0) slot := by
    refine entry_congr fun address above below => ?_
    have cleared : off ≤ address ∧ address < regionSize := by
      simp only [hashtableSlotCount, hashtablePageCount, regionSize] at *
      omega
    simp only [clearFrom, cleared, and_self, if_true]
  rw [zeros, entry, Storage.read_zeros]
  rfl

theorem occupied_entries (same : ∀ slot < hashtableSlotCount, entry region slot = entry other slot) :
    occupied hashtableSlotCount (slotUsed region (hashtablePageCount * 4)) =
      occupied hashtableSlotCount (slotUsed other (hashtablePageCount * 4)) :=
  occupied_congr fun slot inside => by rw [slotUsed_entry, slotUsed_entry, same slot inside]

end Slots

theorem slotsUsed_tables {s t : SharedMemory}
    (same : ∀ regionID address, (hashTableOffsets regionID).1 ≤ address → t regionID address = s regionID address)
    (regionID : Nat) : slotsUsed t regionID = slotsUsed s regionID := by
  have low := offset_low regionID
  exact occupied_entries fun slot _ => entry_congr fun address above _ => same _ address (by omega)

theorem slotsUsed_le (s : SharedMemory) (regionID : Nat) : slotsUsed s regionID ≤ hashtableSlotCount := occupied_le _ _

/-- The region of a frame after its page number has been put in place. -/
def entered (s : SharedMemory) (n : Nat) (pgNo : UInt32) : Storage :=
  (if place n = 1 then clearFrom (s (segment n)) (hashTableOffsets (segment n)).1 else s (segment n)).write
    ((hashTableOffsets (segment n)).1 + (place n - 1) * 4) (le32 pgNo)

theorem addFrame_eq (s : SharedMemory) {frameIdx : UInt32} (positive : 1 ≤ frameIdx.toNat) (pgNo : UInt32) :
    s.addFrame frameIdx pgNo =
      (probe hashtableSlotCount (slotUsed (entered s frameIdx.toNat pgNo) (hashtablePageCount * 4)) hashtableSlotCount
        (hashSlotForPage pgNo)).map fun slot => Function.update s (segment frameIdx.toNat)
          ((entered s frameIdx.toNat pgNo).write (hashtablePageCount * 4 + slot * 2)
            (le16 (UInt16.ofNat (place frameIdx.toNat)))) := by
  simp only [SharedMemory.addFrame, regionForFrame_eq, frameZero_place positive, entered]
  rfl

private theorem entered_header (s : SharedMemory) {n : Nat} (first : segment n = 0) (pgNo : UInt32) {address : Nat}
    (below : address < headerSize) : entered s n pgNo address = s 0 address := by
  have outside : ¬ (headerSize + (place n - 1) * 4 ≤ address ∧ address < headerSize + (place n - 1) * 4 + 4) := by omega
  have kept : ¬ (headerSize ≤ address ∧ address < regionSize) := by omega
  simp only [entered, first, hashTableOffsets, if_true, Storage.write, le32_length, outside, if_false]
  split
  · simp only [clearFrom, kept, if_false]
  · rfl

theorem addFrame_low {s t : SharedMemory} {frameIdx : UInt32} (positive : 1 ≤ frameIdx.toNat) {pgNo : UInt32}
    (added : s.addFrame frameIdx pgNo = some t) (address : Nat) (below : address < headerSize) : t 0 address = s 0 address := by
  rw [addFrame_eq s positive] at added
  obtain ⟨slot, -, rfl⟩ := Option.map_eq_some_iff.mp added
  by_cases first : segment frameIdx.toNat = 0
  · have outside : ¬ (hashtablePageCount * 4 + slot * 2 ≤ address ∧ address < hashtablePageCount * 4 + slot * 2 + 2) := by
      simp only [headerSize, checkpointInfoOffset, checkpointInfoSize, headerCopySize] at below
      simp only [hashtablePageCount]
      omega
    rw [first, Function.update_self]
    simp only [Storage.write, show ∀ entry, (le16 entry).length = 2 from fun _ => rfl, outside, if_false]
    exact entered_header s first pgNo below
  · rw [Function.update_of_ne (Ne.symm first)]

section AddFrame
variable {s t : SharedMemory} {frameIdx pgNo : UInt32}

private theorem occupied_entered (positive : 1 ≤ frameIdx.toNat) (pgNo : UInt32) :
    occupied hashtableSlotCount (slotUsed (entered s frameIdx.toNat pgNo) (hashtablePageCount * 4)) =
      if place frameIdx.toNat = 1 then 0 else slotsUsed s (segment frameIdx.toNat) := by
  have low := (place_bounds positive).2.1
  have fits := place_fits positive
  rw [entered, occupied_entries fun slot _ => entry_numbered _ (by omega) pgNo slot]
  split
  · refine occupied_none fun slot inside => ?_
    rw [slotUsed_entry, entry_cleared (offset_low _) inside]
    rfl
  · rfl

/-- `AddFrame` returns when the region is cleared for the frame or has a free slot. -/
theorem addFrame_isSome (positive : 1 ≤ frameIdx.toNat) : (s.addFrame frameIdx pgNo).isSome ↔
    place frameIdx.toNat = 1 ∨ slotsUsed s (segment frameIdx.toNat) < hashtableSlotCount := by
  rw [addFrame_eq s positive, Option.isSome_map, probe_isSome (hashSlotForPage_lt pgNo), occupied_entered positive]
  split
  · next first => simp [first, hashtableSlotCount, hashtablePageCount]
  · next further => simp [further]

/-- A frame takes one slot of its region, after the others if it is not the first there. -/
theorem addFrame_used (positive : 1 ≤ frameIdx.toNat) (added : s.addFrame frameIdx pgNo = some t) (regionID : Nat) :
    slotsUsed t regionID = if segment frameIdx.toNat = regionID then
      (if place frameIdx.toNat = 1 then 0 else slotsUsed s regionID) + 1 else slotsUsed s regionID := by
  rw [addFrame_eq s positive] at added
  obtain ⟨slot, finds, rfl⟩ := Option.map_eq_some_iff.mp added
  split
  · next current =>
    subst current
    obtain ⟨gap, -, there, -⟩ := probe_run (hashSlotForPage_lt pgNo) finds
    have bound : slot < hashtableSlotCount := by
      rw [there]
      exact Nat.mod_lt _ (by decide)
    have small : place frameIdx.toNat < 2 ^ 16 := by
      have fits := place_fits positive
      simp only [hashtablePageCount] at fits
      omega
    have low := (place_bounds positive).2.1
    have taken : slotUsed ((entered s frameIdx.toNat pgNo).write (hashtablePageCount * 4 + slot * 2)
        (le16 (UInt16.ofNat (place frameIdx.toNat)))) (hashtablePageCount * 4) slot = true := by
      rw [slotUsed_entry, entry_taken, UInt16.toNat_ofNat', Nat.mod_eq_of_lt small]
      simpa using Nat.ne_of_gt low
    have more := occupied_put bound (probe_free finds) taken fun place apart => by
      rw [slotUsed_entry, slotUsed_entry, entry_apart _ _ apart]
    rw [slotsUsed, Function.update_self, more, occupied_entered positive]
  · next apart => rw [slotsUsed, slotsUsed, Function.update_of_ne (Ne.symm apart)]

end AddFrame

section FreeSlots
variable {s t : SharedMemory} {m : UInt32} {count : Nat}

theorem landing_eq (mark maxFrame : UInt32) (count : Nat) :
    landing mark maxFrame count = min count (before (segment mark.toNat + 1) - maxFrame.toNat) := by
  rw [landing, regionForFrame_eq, before, if_neg (Nat.succ_ne_zero _), Nat.add_sub_cancel]
  rfl

private theorem next_toNat (room : m.toNat + 1 < 2 ^ 32) : (m + 1).toNat = m.toNat + 1 := by
  rw [UInt32.toNat_add, show (1 : UInt32).toNat = 1 from rfl, Nat.mod_eq_of_lt room]

/-- A frame is the first of its region exactly if its place is the first. -/
private theorem first_iff (room : m.toNat + 1 < 2 ^ 32) :
    (m + 1).toNat = (frameZeroForRegion (regionForFrame (m + 1))).toNat + 1 ↔ place (m.toNat + 1) = 1 := by
  obtain ⟨early, -, -⟩ := place_bounds (Nat.le_add_left 1 m.toNat)
  rw [regionForFrame_eq, next_toNat room, frameZero_before (by omega), place]
  omega

theorem clear_iff (room : m.toNat + 1 < 2 ^ 32) : Clear s m ↔ place (m.toNat + 1) = 1 ∨
    ∀ slot < hashtableSlotCount, before (segment (m.toNat + 1)) + entry (s (segment (m.toNat + 1))) slot ≤ m.toNat := by
  obtain ⟨early, -, -⟩ := place_bounds (Nat.le_add_left 1 m.toNat)
  rw [← first_iff room, ← frameZero_before (show before (segment (m.toNat + 1)) < 2 ^ 32 by omega), ← next_toNat room,
    ← regionForFrame_eq]
  rfl

theorem freeSlots_iff (room : m.toNat + 1 < 2 ^ 32) : FreeSlots s m count ↔ place (m.toNat + 1) = 1 ∨
    slotsUsed s (segment (m.toNat + 1)) + min count (before (segment (m.toNat + 1) + 1) - m.toNat) ≤ hashtableSlotCount := by
  rw [← first_iff room, ← next_toNat room, ← landing_eq, ← regionForFrame_eq]
  rfl

theorem freeSlots_zero (s : SharedMemory) (m : UInt32) : FreeSlots s m 0 := by
  have none_ : landing (m + 1) m 0 = 0 := Nat.zero_min _
  refine .inr ?_
  simp only [none_, Nat.add_zero]
  exact slotsUsed_le s _

theorem freeSlots_start (s : SharedMemory) (count : Nat) : FreeSlots s 0 count := .inl rfl

/-- The last frame number has no successor, and needs no slot for one. -/
private theorem freeSlots_last (s : SharedMemory) (last : m.toNat + 1 = 2 ^ 32) (count : Nat) : FreeSlots s m count := by
  have wraps : m + 1 = 0 := UInt32.toNat_inj.mp (by rw [UInt32.toNat_add, show (1 : UInt32).toNat = 1 from rfl, last]; rfl)
  refine .inr ?_
  have none_ : landing (m + 1) m count = 0 := by
    have first : before (segment (0 : UInt32).toNat + 1) = 4062 := rfl
    rw [wraps, landing_eq, first]
    omega
  simp only [none_, Nat.add_zero]
  exact slotsUsed_le s _

theorem freeSlots_mono {fewer : Nat} (free : FreeSlots s m count) (less : fewer ≤ count) : FreeSlots s m fewer := by
  refine free.imp_right fun few => ?_
  have smaller : landing (m + 1) m fewer ≤ landing (m + 1) m count := by
    rw [landing, landing]
    omega
  omega

theorem freeSlots_tables (free : FreeSlots s m count)
    (same : ∀ regionID address, (hashTableOffsets regionID).1 ≤ address → t regionID address = s regionID address) :
    FreeSlots t m count := by
  refine free.imp_right fun few => ?_
  rw [slotsUsed_tables same]
  exact few

/-- A frame that finds a slot leaves those of the frames behind it. -/
theorem freeSlots_addFrame (room : m.toNat + 1 < 2 ^ 32) (free : FreeSlots s m (count + 1)) (pgNo : UInt32) :
    ∃ t, s.addFrame (m + 1) pgNo = some t ∧ FreeSlots t (m + 1) count := by
  have next := next_toNat room
  have positive : 1 ≤ (m + 1).toNat := by omega
  obtain ⟨within, left⟩ := left_bounds (Nat.le_add_left 1 m.toNat)
  rw [freeSlots_iff room] at free
  obtain ⟨t, added⟩ := Option.isSome_iff_exists.mp ((@addFrame_isSome s (m + 1) pgNo positive).mpr (by
    rw [next]
    exact free.imp_right fun few => by omega))
  refine ⟨t, added, ?_⟩
  by_cases last : (m + 1).toNat + 1 = 2 ^ 32
  · exact freeSlots_last t last count
  rw [freeSlots_iff (by omega), next]
  rcases place_succ (Nat.le_add_left 1 m.toNat) with ⟨same, further⟩ | fresh
  · refine .inr ?_
    rw [same, addFrame_used positive added, next, if_pos rfl]
    split
    · next first =>
      -- A region has half as many places as slots.
      simp only [hashtableSlotCount, hashtablePageCount]
      omega
    · next behind =>
      have few := free.resolve_left behind
      omega
  · exact .inl fresh

/-- A slot that was found was free. -/
theorem freeSlots_of_addFrame {pgNo : UInt32} (room : m.toNat + 1 + count < 2 ^ 32) (added : s.addFrame (m + 1) pgNo = some t)
    (free : FreeSlots t (m + 1) count) : FreeSlots s m (count + 1) := by
  have next := @next_toNat m (by omega)
  have positive : 1 ≤ (m + 1).toNat := by omega
  rw [freeSlots_iff (by omega)]
  by_cases first : place (m.toNat + 1) = 1
  · exact .inl first
  refine .inr ?_
  have used := addFrame_used positive added (segment (m.toNat + 1))
  rw [next, if_pos rfl, if_neg first] at used
  have full := slotsUsed_le t (segment (m.toNat + 1))
  by_cases none_ : count = 0
  · omega
  rw [freeSlots_iff (by omega), next] at free
  rcases place_succ (Nat.le_add_left 1 m.toNat) with ⟨same, further⟩ | fresh
  · rw [same] at free
    have low := (place_bounds (Nat.le_add_left 1 m.toNat)).2.1
    have few := free.resolve_left (by omega)
    omega
  · have ended := left_fresh (Nat.le_add_left 1 m.toNat) fresh
    omega

end FreeSlots

end Literaft.Proofs.Index
