import Literaft.Lookup
import Literaft.Proofs.Calls

/-! What a reader finds through the wal-index stays the same while frames are added behind
its mark, if the entries up to the mark were in order when it took it. -/

namespace Literaft.Proofs.Lookup
open Library Wal Shm WalAppender Literaft.Lookup Literaft.Store Index Appender Calls

variable {s t : SharedMemory} {mark : UInt32} {k : Nat}

theorem pageEntry_congr {regionID position : Nat}
    (same : ∀ address, (hashTableOffsets regionID).1 + position * 4 ≤ address →
      address < (hashTableOffsets regionID).1 + position * 4 + 4 → s regionID address = t regionID address) :
    pageEntry s regionID position = pageEntry t regionID position := by
  rw [pageEntry, pageEntry, Storage.read_congr fun i inside => same _ (Nat.le_add_right _ _) (by omega)]

/-- Nothing at or below `mark` has moved, and at most `k` more slots are in use in the table
that holds the mark. -/
structure Unmoved (mark : UInt32) (k : Nat) (s t : SharedMemory) : Prop where
  regions : ∀ region < Index.segment mark.toNat, ∀ address, (hashTableOffsets region).1 ≤ address → t region address = s region address
  pages : ∀ position < place mark.toNat, pageEntry t (Index.segment mark.toNat) position = pageEntry s (Index.segment mark.toNat) position
  kept : ∀ slot < hashtableSlotCount, entry (s (Index.segment mark.toNat)) slot ≠ 0 →
    entry (t (Index.segment mark.toNat)) slot = entry (s (Index.segment mark.toNat)) slot
  beyond : ∀ slot < hashtableSlotCount, entry (s (Index.segment mark.toNat)) slot = 0 → entry (t (Index.segment mark.toNat)) slot ≠ 0 →
    mark.toNat < before (Index.segment mark.toNat) + entry (t (Index.segment mark.toNat)) slot
  used : slotsUsed t (Index.segment mark.toNat) ≤ slotsUsed s (Index.segment mark.toNat) + k

theorem Unmoved.refl (mark : UInt32) (s : SharedMemory) : Unmoved mark 0 s s :=
  ⟨fun _ _ _ _ => rfl, fun _ _ => rfl, fun _ _ _ => rfl, fun _ _ zero used => absurd zero used,
    Nat.le_add_right _ _⟩

theorem Unmoved.trans {u : SharedMemory} {l : Nat} (first : Unmoved mark k s t) (last : Unmoved mark l t u) :
    Unmoved mark (k + l) s u where
  regions region below address above := (last.regions region below address above).trans (first.regions region below address above)
  pages position inside := (last.pages position inside).trans (first.pages position inside)
  kept slot inside used := by
    have same := first.kept slot inside used
    rw [last.kept slot inside (by rw [same]; exact used), same]
  beyond slot inside free used := by
    by_cases also : entry (t (Index.segment mark.toNat)) slot = 0
    · exact last.beyond slot inside also used
    · rw [last.kept slot inside also]
      exact first.beyond slot inside free also
  used := by
    have one := first.used
    have two := last.used
    omega

theorem Unmoved.mono {l : Nat} (unmoved : Unmoved mark k s t) (more : k ≤ l) : Unmoved mark l s t :=
  { unmoved with used := Nat.le_trans unmoved.used (Nat.add_le_add_left more _) }

theorem unmoved_tables (same : ∀ region ≤ Index.segment mark.toNat, ∀ address, (hashTableOffsets region).1 ≤ address →
    t region address = s region address) : Unmoved mark 0 s t := by
  have entries (slot : Nat) : entry (t (Index.segment mark.toNat)) slot = entry (s (Index.segment mark.toNat)) slot := by
    refine entry_congr fun address above _ => same _ (Nat.le_refl _) address ?_
    simp only [hashTableOffsets, headerSize, checkpointInfoOffset, checkpointInfoSize, headerCopySize]
    simp only [hashtablePageCount] at above
    split <;> omega
  refine ⟨fun region below => same region (Nat.le_of_lt below), fun position _ => ?_, fun slot _ _ => entries slot,
    fun slot _ zero used => ?_, ?_⟩
  · exact pageEntry_congr fun address above _ => same _ (Nat.le_refl _) address (by omega)
  · rw [entries slot] at used
    exact absurd zero used
  · refine Nat.le_trans (Nat.le_of_eq (occupied_congr fun slot _ => ?_)) (Nat.le_add_right _ _)
    rw [slotUsed_entry, slotUsed_entry, entries]

private theorem place_segment {m n : Nat} (positive : 1 ≤ m) (later : m < n) :
    Index.segment m < Index.segment n ∨ Index.segment m = Index.segment n ∧ place m < place n ∧ n = before (Index.segment n) + place n := by
  have first := (place_bounds positive).1
  have second := (place_bounds (show 1 ≤ n by omega)).1
  have ordered : Index.segment m ≤ Index.segment n := Nat.div_le_div_right (by omega)
  rcases Nat.lt_or_eq_of_le ordered with below | same
  · exact .inl below
  · refine .inr ⟨same, ?_, ?_⟩
    · rw [place, place, same]
      rw [same] at first
      omega
    · rw [place]
      omega

private theorem unmoved_region {slot idx : Nat} (free : entry (s (Index.segment mark.toNat)) slot = 0)
    (later : place mark.toNat < idx)
    (fits : (hashTableOffsets (Index.segment mark.toNat)).1 + idx * 4 ≤ hashtablePageCount * 4)
    (further : mark.toNat < before (Index.segment mark.toNat) + idx) (pgNo : UInt32) :
    Unmoved mark 1 s (Function.update s (Index.segment mark.toNat)
      (((s (Index.segment mark.toNat)).write ((hashTableOffsets (Index.segment mark.toNat)).1 + (idx - 1) * 4) (le32 pgNo)).write
        (hashtablePageCount * 4 + slot * 2) (le16 (UInt16.ofNat idx)))) := by
  have small : idx < 2 ^ 16 := by
    simp only [hashtablePageCount] at fits
    omega
  have numbered (region : Storage) := entry_numbered region
    (show (hashTableOffsets (Index.segment mark.toNat)).1 + (idx - 1) * 4 + 4 ≤ _ by omega) pgNo
  refine ⟨fun region below address _ => ?_, fun position inside => ?_, fun other _ used => ?_, fun other _ zero used => ?_, ?_⟩
  · rw [Function.update_of_ne (by omega)]
  · refine pageEntry_congr fun address above below => ?_
    have first : ¬ (hashtablePageCount * 4 + slot * 2 ≤ address ∧ address < hashtablePageCount * 4 + slot * 2 + 2) := by omega
    have second : ¬ ((hashTableOffsets (Index.segment mark.toNat)).1 + (idx - 1) * 4 ≤ address ∧
        address < (hashTableOffsets (Index.segment mark.toNat)).1 + (idx - 1) * 4 + 4) := by omega
    rw [Function.update_self]
    simp only [Storage.write, show ∀ word, (le16 word).length = 2 from fun _ => rfl, le32_length, first, second, if_false]
  · have apart : other ≠ slot := by
      rintro rfl
      exact used free
    rw [Function.update_self, entry_apart _ _ apart, numbered]
  · rw [Function.update_self] at used ⊢
    by_cases taken : other = slot
    · rw [taken, entry_taken, UInt16.toNat_ofNat', Nat.mod_eq_of_lt small]
      exact further
    · rw [entry_apart _ _ taken, numbered] at used
      exact absurd zero used
  · rw [slotsUsed, Function.update_self]
    refine occupied_succ fun other (apart : other ≠ slot) => ?_
    rw [slotUsed_entry, slotUsed_entry, entry_apart _ _ apart, numbered]

/-- A frame that is added behind the mark moves nothing at or below it. -/
theorem addFrame_unmoved {frameIdx pgNo : UInt32} (positive : 1 ≤ mark.toNat) (later : mark.toNat < frameIdx.toNat)
    (added : s.addFrame frameIdx pgNo = some t) :
    Unmoved mark (if frameIdx.toNat ≤ before (Index.segment mark.toNat + 1) then 1 else 0) s t := by
  rw [addFrame_eq s (by omega)] at added
  obtain ⟨slot, finds, rfl⟩ := Option.map_eq_some_iff.mp added
  rcases place_segment positive later with above | ⟨same, further, number⟩
  · refine (unmoved_tables fun region below address _ => ?_).mono (Nat.zero_le _)
    rw [Function.update_of_ne (by omega)]
  · have near : frameIdx.toNat ≤ before (Index.segment mark.toNat + 1) := by
      rw [same, before, Index.segment, if_neg (Nat.succ_ne_zero _)]
      omega
    have fits := place_fits (show 1 ≤ frameIdx.toNat by omega)
    have low := (place_bounds positive).2.1
    have numbered : entered s frameIdx.toNat pgNo = (s (Index.segment mark.toNat)).write
        ((hashTableOffsets (Index.segment mark.toNat)).1 + (place frameIdx.toNat - 1) * 4) (le32 pgNo) := by
      rw [entered, if_neg (by omega), same]
    have free := probe_free finds
    rw [← same] at fits number
    rw [numbered, slotUsed_entry, entry_numbered _ (by omega)] at free
    rw [numbered, ← same, if_pos near]
    exact unmoved_region (by simpa using free) further fits (by omega) pgNo

private theorem entries_below (unmoved : Unmoved mark k s t) {region : Nat} (below : region < Index.segment mark.toNat) :
    entry (t region) = entry (s region) := by
  funext slot
  refine entry_congr fun address above _ => unmoved.regions region below address ?_
  simp only [hashTableOffsets, headerSize, checkpointInfoOffset, checkpointInfoSize, headerCopySize]
  simp only [hashtablePageCount] at above
  split <;> omega

section Find
variable (minFrame pgNo : UInt32)

end Find

theorem Unmoved.slots (unmoved : Unmoved mark k s t) {region slot : Nat} (below : region ≤ Index.segment mark.toNat)
    (bound : slot < hashtableSlotCount) (used : entry (s region) slot ≠ 0) : entry (t region) slot = entry (s region) slot := by
  rcases Nat.lt_or_eq_of_le below with less | rfl
  · exact congrFun (entries_below unmoved less) slot
  · exact unmoved.kept slot bound used

theorem Unmoved.framePage (unmoved : Unmoved mark k s t) {n : UInt32} (positive : 1 ≤ n.toNat) (inside : n.toNat ≤ mark.toNat) :
    framePage t n = framePage s n := by
  have low := (place_bounds positive).2.1
  have ordered : Index.segment n.toNat ≤ Index.segment mark.toNat := Nat.div_le_div_right (by omega)
  rw [Lookup.framePage, Lookup.framePage, regionForFrame_eq, frameZero_place positive]
  rcases Nat.lt_or_eq_of_le ordered with less | same
  · exact pageEntry_congr fun address above _ => unmoved.regions _ less address (by omega)
  · have near : place n.toNat ≤ place mark.toNat := by
      rw [place, place, same]
      exact Nat.sub_le_sub_right inside _
    rw [same]
    exact unmoved.pages _ (by omega)

theorem nonzero (positive : 1 ≤ mark.toNat) : mark ≠ 0 := by
  rintro rfl
  cases positive

end Literaft.Proofs.Lookup
