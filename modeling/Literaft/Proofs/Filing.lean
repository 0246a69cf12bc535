import Literaft.Library.HashTable
import Literaft.Proofs.Lookup

/-! The wal-index of a log whose frames were added one after another. The table of every
region lists the frames it was given and no others, in the order they came in, so a
lookup finds the last frame of a page. -/

namespace Literaft.Proofs.Filing
open Library Wal Shm Literaft.Lookup Index Lookup

theorem findGreatest_congr {P Q : Nat → Prop} [DecidablePred P] [DecidablePred Q] {bound : Nat}
    (same : ∀ m, m ≤ bound → (P m ↔ Q m)) : Nat.findGreatest P bound = Nat.findGreatest Q bound := by
  obtain ⟨small, here, later⟩ := Nat.findGreatest_eq_iff.mp (rfl : Nat.findGreatest Q bound = _)
  refine Nat.findGreatest_eq_iff.mpr ⟨small, fun some_ => (same _ small).mpr (here some_), fun m above within wanted => ?_⟩
  exact later above within ((same m within).mp wanted)

section Region
variable {region other : Storage} {off p : Nat}

/-- The page number of a position of a region, counting from one. -/
def pageIn (region : Storage) (off position : Nat) : UInt32 :=
  leUint32 (region.read (off + (position - 1) % hashtablePageCount * 4) 4) 0

/-- The table of a region lists its first `p` positions. -/
def Filed (region : Storage) (off p : Nat) : Prop :=
  Filled hashtableSlotCount hashSlotForPage (entry region) (pageIn region off) p

private theorem filed_cleared (low : off ≤ hashtablePageCount * 4) : Filed (clearFrom region off) off 0 :=
  filled_empty fun _ inside => entry_cleared low inside

private theorem pageIn_congr {position : Nat} (positive : 1 ≤ position) (inside : position ≤ hashtablePageCount)
    (same : ∀ address, off + (position - 1) * 4 ≤ address → address < off + position * 4 → region address = other address) :
    pageIn region off position = pageIn other off position := by
  rw [pageIn, pageIn, Nat.mod_eq_of_lt (by omega),
    Storage.read_congr fun i short => same _ (Nat.le_add_right _ _) (by omega)]

theorem Filed.congr (filed : Filed region off p) (low : off ≤ hashtablePageCount * 4) (small : p ≤ hashtablePageCount)
    (same : ∀ address, off ≤ address → other address = region address) : Filed other off p := by
  refine Filled.congr filed (fun slot _ => ?_) fun position positive inside => ?_
  · exact entry_congr fun address above _ => same address (by omega)
  · exact pageIn_congr positive (by omega) fun address above _ => same address (by omega)

section Put
variable {pgNo : UInt32} {slot : Nat}

theorem pageIn_taken {position : Nat} {word : UInt16} (positive : 1 ≤ position)
    (fits : off + position * 4 ≤ hashtablePageCount * 4) :
    pageIn (region.write (hashtablePageCount * 4 + slot * 2) (le16 word)) off position = pageIn region off position := by
  refine pageIn_congr positive (by omega) fun address _ below => ?_
  have outside : ¬ (hashtablePageCount * 4 + slot * 2 ≤ address ∧ address < hashtablePageCount * 4 + slot * 2 + 2) := by omega
  simp only [Storage.write, show (le16 word).length = 2 from rfl, outside, if_false]

private theorem pageIn_numbered (region : Storage) (fits : off + (p + 1) * 4 ≤ hashtablePageCount * 4) :
    pageIn (region.write (off + p * 4) (le32 pgNo)) off (p + 1) = pgNo := by
  have stored := Storage.read_write_same region (off + p * 4) (le32 pgNo)
  rw [le32_length] at stored
  rw [pageIn, Nat.add_sub_cancel, Nat.mod_eq_of_lt (by omega), stored, leUint32_at]
  rfl

private theorem pageIn_before {position : Nat} (positive : 1 ≤ position) (below : position ≤ p) (small : p ≤ hashtablePageCount) :
    pageIn (region.write (off + p * 4) (le32 pgNo)) off position = pageIn region off position := by
  refine pageIn_congr positive (by omega) fun address _ near => ?_
  have outside : ¬ (off + p * 4 ≤ address ∧ address < off + p * 4 + 4) := by omega
  simp only [Storage.write, le32_length, outside, if_false]

private theorem filed_put (filed : Filed region off p) (fits : off + (p + 1) * 4 ≤ hashtablePageCount * 4)
    (finds : probe hashtableSlotCount (slotUsed (region.write (off + p * 4) (le32 pgNo)) (hashtablePageCount * 4)) hashtableSlotCount
      (hashSlotForPage pgNo) = some slot) :
    Filed ((region.write (off + p * 4) (le32 pgNo)).write (hashtablePageCount * 4 + slot * 2) (le16 (UInt16.ofNat (p + 1)))) off
      (p + 1) := by
  have small : p + 1 < 2 ^ 16 := by
    simp only [hashtablePageCount] at fits
    omega
  have numbered (place : Nat) := entry_numbered region (show off + p * 4 + 4 ≤ _ by omega) pgNo place
  have newPage : pageIn ((region.write (off + p * 4) (le32 pgNo)).write (hashtablePageCount * 4 + slot * 2)
      (le16 (UInt16.ofNat (p + 1)))) off (p + 1) = pgNo := by
    rw [pageIn_taken (Nat.le_add_left 1 p) fits, pageIn_numbered region fits]
  have used : slotUsed (region.write (off + p * 4) (le32 pgNo)) (hashtablePageCount * 4) = fun place => entry region place != 0 := by
    funext place
    rw [slotUsed_entry, numbered]
  rw [used, ← newPage] at finds
  refine Filled.put filed (hashSlotForPage_lt _) finds ?_ (fun place apart => ?_) fun position positive inside => ?_
  · rw [entry_taken, UInt16.toNat_ofNat', Nat.mod_eq_of_lt small]
  · rw [entry_apart _ _ apart, numbered]
  · rw [pageIn_taken positive (by omega), pageIn_before positive inside (by omega)]

end Put

end Region

private theorem before_span (regionID : Nat) : before (regionID + 1) ≤ before regionID + hashtablePageCount := by
  rw [before_succ, before]
  simp only [hashtableRegion0PageCount, headerSize, checkpointInfoOffset, checkpointInfoSize, headerCopySize, hashtablePageCount]
  split <;> omega

theorem place_mem {n regionID : Nat} (above : before regionID < n) (below : n ≤ before (regionID + 1)) :
    Index.segment n = regionID ∧ place n = n - before regionID := by
  have same : Index.segment n = regionID := by
    rw [before, if_neg (Nat.succ_ne_zero regionID), Nat.add_sub_cancel] at below
    unfold before at above
    unfold Index.segment
    split at above <;> omega
  rw [place, same]
  exact ⟨rfl, rfl⟩

/-- How many of the first `n` frames belong to a region. -/
def held (n regionID : Nat) : Nat := min n (before (regionID + 1)) - before regionID

theorem held_segment {n : Nat} (positive : 1 ≤ n) : held n (Index.segment n) = place n := by
  obtain ⟨early, -, high⟩ := place_bounds positive
  unfold held place before Index.segment at *
  split <;> omega

private theorem held_le (n regionID : Nat) : held n regionID ≤ hashtablePageCount := by
  unfold held before hashtablePageCount
  split <;> split <;> omega

private theorem held_full {n m regionID : Nat} (one : before (regionID + 1) ≤ n) (two : before (regionID + 1) ≤ m) :
    held n regionID = held m regionID := by
  unfold held
  omega

private theorem before_lt {regionID n : Nat} (positive : 1 ≤ n) (below : regionID ≤ Index.segment n) : before regionID < n := by
  unfold before Index.segment at *
  split <;> omega

section Log
variable {s t : SharedMemory} {n : Nat}

/-- The regions up to that of frame `n` list the frames up to `n`. -/
def Ordered (s : SharedMemory) (n : Nat) : Prop := 1 ≤ n → ∀ regionID ≤ Index.segment n,
  Filed (s regionID) (hashTableOffsets regionID).1 (held n regionID)

theorem ordered_start (s : SharedMemory) : Ordered s 0 := fun none_ => absurd none_ (Nat.not_lt_zero 0)

theorem Ordered.tables (ordered : Ordered s n)
    (same : ∀ regionID address, (hashTableOffsets regionID).1 ≤ address → t regionID address = s regionID address) : Ordered t n :=
  fun some_ regionID below => (ordered some_ regionID below).congr (offset_low regionID) (held_le n regionID) (same regionID)

theorem Ordered.earlier {m : Nat} (ordered : Ordered s m) (fewer : n ≤ m) (fresh : place (n + 1) = 1) : Ordered s n := by
  intro positive regionID below
  have full : before (regionID + 1) ≤ n := by
    have last := (place_bounds positive).1
    unfold place before Index.segment at *
    split at fresh <;> split at last <;> split <;> omega
  have within : regionID ≤ Index.segment m := Nat.le_trans below (Nat.div_le_div_right (by omega))
  rw [held_full full (Nat.le_trans full fewer)]
  exact ordered (by omega) regionID within

theorem Ordered.addFrame {frameIdx pgNo : UInt32} (ordered : Ordered s n) (number : frameIdx.toNat = n + 1)
    (added : s.addFrame frameIdx pgNo = some t) : Ordered t (n + 1) := by
  rw [addFrame_eq s (by omega), number] at added
  obtain ⟨slot, finds, rfl⟩ := Option.map_eq_some_iff.mp added
  obtain ⟨-, low, high⟩ := place_bounds (Nat.le_add_left 1 n)
  intro positive regionID below
  by_cases current : regionID = Index.segment (n + 1)
  · have base : Filed (if place (n + 1) = 1 then clearFrom (s (Index.segment (n + 1))) (hashTableOffsets (Index.segment (n + 1))).1
        else s (Index.segment (n + 1))) (hashTableOffsets (Index.segment (n + 1))).1 (place (n + 1) - 1) := by
      split
      · next first =>
        rw [first]
        exact filed_cleared (offset_low _)
      · next further =>
        have positive : 1 ≤ n := Nat.one_le_iff_ne_zero.mpr fun start => further (by rw [start]; rfl)
        obtain ⟨sameRegion, following⟩ := (place_succ positive).resolve_right further
        have filed := ordered positive (Index.segment n) (Nat.le_refl _)
        rw [held_segment positive] at filed
        rw [following, Nat.add_sub_cancel, sameRegion]
        exact filed
    have put := filed_put base (by
      rw [Nat.sub_add_cancel low]
      exact place_fits (Nat.le_add_left 1 n)) finds
    rw [Nat.sub_add_cancel low] at put
    rw [current, Function.update_self, held_segment positive]
    exact put
  · have earlier : regionID < Index.segment (n + 1) := by omega
    have full : before (regionID + 1) ≤ n := by
      unfold before Index.segment at *
      split <;> omega
    have some_ : 1 ≤ n := by
      unfold Index.segment at earlier
      omega
    have within : regionID ≤ Index.segment n := by
      unfold Index.segment at earlier ⊢
      omega
    rw [Function.update_of_ne current, held_full (Nat.le_succ_of_le full) full]
    exact ordered some_ regionID within

/-- Frames beyond the first `n` of which nothing is left in the tables, or which the next
frame clears away. -/
theorem Ordered.clear {m : Nat} {maxFrame : UInt32} (ordered : Ordered s m) (beyond : maxFrame.toNat ≤ m)
    (room : maxFrame.toNat + 1 < 2 ^ 32) (clear : Clear s maxFrame) : Ordered s maxFrame.toNat := by
  obtain ⟨early, low, -⟩ := place_bounds (Nat.le_add_left 1 maxFrame.toNat)
  rcases (clear_iff room).mp clear with first | nothing
  · exact ordered.earlier beyond first
  · rcases Nat.lt_or_eq_of_le beyond with more | same
    · have within : Index.segment (maxFrame.toNat + 1) ≤ Index.segment m := Nat.div_le_div_right (by omega)
      have held : place (maxFrame.toNat + 1) ≤ held m (Index.segment (maxFrame.toNat + 1)) := by
        rw [← held_segment (Nat.le_add_left 1 _), Filing.held, Filing.held]
        omega
      obtain ⟨slot, bound, names⟩ := (ordered (by omega) _ within).listed _ low held
      have unpublished := nothing slot bound
      rw [names, place] at unpublished
      omega
    · rw [same]
      exact ordered

theorem Ordered.used (ordered : Ordered s n) (positive : 1 ≤ n) {regionID : Nat} (below : regionID ≤ Index.segment n) :
    slotsUsed s regionID = held n regionID := by
  rw [← (ordered positive regionID below).used]
  exact occupied_congr fun slot _ => slotUsed_entry (s regionID) slot

/-- A table is never filled by frames that are added in order. -/
theorem Ordered.room {mark maxFrame : UInt32} (ordered : Ordered s maxFrame.toNat) (positive : 1 ≤ mark.toNat)
    (marked : mark.toNat ≤ maxFrame.toNat) (count : Nat) :
    slotsUsed s (regionForFrame mark) + landing mark maxFrame count < hashtableSlotCount := by
  have within : Index.segment mark.toNat ≤ Index.segment maxFrame.toNat := Nat.div_le_div_right (by omega)
  have early := (place_bounds positive).1
  rw [landing_eq, regionForFrame_eq, ordered.used (by omega) within]
  unfold held before hashtableSlotCount hashtablePageCount at *
  split at early <;> split <;> omega

section Find
variable {minFrame iLast pgNo : UInt32} {regionID : Nat}

def pageOf (s : SharedMemory) (m : Nat) : UInt32 := pageEntry s (Index.segment m) (place m - 1)

def Wanted (s : SharedMemory) (minFrame pgNo : UInt32) (m : Nat) : Prop := 1 ≤ m ∧ minFrame.toNat ≤ m ∧ pageOf s m = pgNo

instance : DecidablePred (Wanted s minFrame pgNo) := fun m => inferInstanceAs (Decidable (1 ≤ m ∧ minFrame.toNat ≤ m ∧ _))

private theorem hit_wanted (zero : (frameZeroForRegion regionID).toNat = before regionID) {position : Nat}
    (positive : 1 ≤ position)
    (inside : before regionID + position ≤ before (regionID + 1)) : hit s regionID minFrame iLast pgNo position = true ↔
      before regionID + position ≤ iLast.toNat ∧ Wanted s minFrame pgNo (before regionID + position) := by
  obtain ⟨same, there⟩ := place_mem (show before regionID < before regionID + position by omega) inside
  have span := before_span regionID
  rw [Wanted, pageOf, same, there, Nat.add_sub_cancel_left, hit, decide_eq_true_eq, zero, Nat.mod_eq_of_lt (by omega)]
  constructor
  · rintro ⟨last, first, page⟩
    exact ⟨last, by omega, first, page⟩
  · rintro ⟨last, -, first, page⟩
    exact ⟨last, first, page⟩

private theorem findInRegion_last (ordered : Ordered s n) (positive : 1 ≤ iLast.toNat) (last : iLast.toNat ≤ n)
    (below : regionID ≤ Index.segment iLast.toNat) :
    ∃ found, findInRegion s minFrame iLast pgNo regionID = some found ∧
      (found ≠ 0 → before regionID < found ∧ found ≤ min iLast.toNat (before (regionID + 1)) ∧ Wanted s minFrame pgNo found) ∧
      ∀ m, found < m → before regionID < m → m ≤ min iLast.toNat (before (regionID + 1)) → ¬ Wanted s minFrame pgNo m := by
  have within : regionID ≤ Index.segment n := Nat.le_trans below (Nat.div_le_div_right (by omega))
  have filed := ordered (by omega) regionID within
  have start := before_lt positive below
  have zero := frameZero_before (Nat.lt_trans start iLast.toNat_lt)
  have few := held_le n regionID
  have room : held n regionID < hashtableSlotCount := Nat.lt_of_le_of_lt few (by decide)
  have asked (position : Nat) (found : hit s regionID minFrame iLast pgNo position = true) :
      pageIn (s regionID) (hashTableOffsets regionID).1 position = pgNo := by
    simp only [hit, decide_eq_true_eq] at found
    exact found.2.2
  have looked := Filled.chase filed (hashSlotForPage_lt pgNo) room asked
  rw [findInRegion, looked, Option.map_some, zero]
  refine ⟨_, rfl, ?_⟩
  generalize greatest : Nat.findGreatest (fun position => hit s regionID minFrame iLast pgNo position = true) (held n regionID) = pos
  obtain ⟨bound, here, later⟩ := Nat.findGreatest_eq_iff.mp greatest
  have inside {position : Nat} (few : position ≤ held n regionID) (some_ : 1 ≤ position) :
      before regionID + position ≤ before (regionID + 1) := by
    unfold held at few
    omega
  refine ⟨fun some_ => ?_, fun m above further small wanted => ?_⟩
  · by_cases none_ : pos = 0
    · exact absurd (if_pos none_) some_
    · have positive : 1 ≤ pos := Nat.pos_of_ne_zero none_
      obtain ⟨behind, wanted⟩ := (hit_wanted zero positive (inside bound positive)).mp (here none_)
      rw [if_neg none_]
      exact ⟨by omega, Nat.le_min.mpr ⟨behind, inside bound positive⟩, wanted⟩
  · obtain ⟨position, rfl⟩ := Nat.exists_eq_add_of_lt further
    have short : position + 1 ≤ held n regionID := by
      unfold held
      omega
    have fits := inside short (Nat.le_add_left 1 position)
    refine later ?_ short ((hit_wanted zero (Nat.le_add_left 1 position) fits).mpr ⟨by omega, wanted⟩)
    by_cases none_ : pos = 0
    · omega
    · rw [if_neg none_] at above
      omega

private theorem search_last (ordered : Ordered s n) (positive : 1 ≤ iLast.toNat) (last : iLast.toNat ≤ n) {count : Nat}
    (below : regionID ≤ Index.segment iLast.toNat) (counted : count = regionID + 1 - Index.segment minFrame.toNat) :
    search s minFrame iLast pgNo count regionID =
      some (Nat.findGreatest (Wanted s minFrame pgNo) (min iLast.toNat (before (regionID + 1)))) := by
  induction count generalizing regionID with
  | zero =>
    rw [search, Option.some.injEq, eq_comm, Nat.findGreatest_eq_zero_iff]
    intro m _ small wanted
    have early : before (regionID + 1) < minFrame.toNat := by
      rw [before, if_neg (Nat.succ_ne_zero _)]
      unfold Index.segment at counted
      omega
    have first := wanted.2.1
    omega
  | succ count ih =>
    obtain ⟨found, looked, here, later⟩ := @findInRegion_last s n minFrame iLast pgNo regionID ordered positive last below
    rw [search, looked, Option.bind_some]
    by_cases none_ : found = 0
    · rw [if_neg (not_not.mpr none_)]
      rw [none_] at later
      cases regionID with
      | zero =>
        obtain rfl : count = 0 := by omega
        rw [search, Option.some.injEq, eq_comm, Nat.findGreatest_eq_zero_iff]
        exact fun m some_ small => later m some_ some_ small
      | succ regionID =>
        rw [Nat.add_sub_cancel, ih (by omega) (by omega), Option.some.injEq, eq_comm, Nat.findGreatest_eq_iff]
        have span : before (regionID + 1) ≤ before (regionID + 1 + 1) := by
          rw [before_succ, before_succ]
          exact Nat.add_le_add_left (Nat.mul_le_mul_right _ (Nat.le_succ _)) _
        have found := Nat.findGreatest_le (P := Wanted s minFrame pgNo) (min iLast.toNat (before (regionID + 1)))
        refine ⟨by omega, fun some_ => Nat.findGreatest_of_ne_zero rfl some_, fun m above small wanted => ?_⟩
        by_cases here : before (regionID + 1) < m
        · exact later m (by omega) here small wanted
        · exact Nat.findGreatest_is_greatest above (by omega) wanted
    · obtain ⟨_, small, wanted⟩ := here none_
      rw [if_pos none_, Option.some.injEq, eq_comm, Nat.findGreatest_eq_iff]
      exact ⟨small, fun _ => wanted, fun m above within => later m above (by omega) within⟩

/-- A lookup finds the last frame it asks for. -/
theorem findFrame_last (ordered : Ordered s n) (positive : 1 ≤ iLast.toNat) (last : iLast.toNat ≤ n) :
    findFrame s minFrame iLast pgNo = some (Nat.findGreatest (Wanted s minFrame pgNo) iLast.toNat) := by
  have inside : iLast.toNat ≤ before (Index.segment iLast.toNat + 1) := by
    rw [before, if_neg (Nat.succ_ne_zero _), Index.segment]
    omega
  rw [findFrame, if_neg (nonzero positive), regionForFrame_eq, regionForFrame_eq,
    search_last ordered positive last (Nat.le_refl _) rfl, Nat.min_eq_left inside]

end Find

section Pages
variable {frameIdx pgNo : UInt32}

theorem pageOf_tables
    (same : ∀ regionID address, (hashTableOffsets regionID).1 ≤ address → t regionID address = s regionID address)
    (m : Nat) : pageOf t m = pageOf s m :=
  pageEntry_congr fun address above _ => same _ address (by omega)

private theorem pageOf_framePage {m : Nat} (positive : 1 ≤ m) (small : m < 2 ^ 32) : pageOf s m = framePage s
    (UInt32.ofNat m) := by
  have same : (UInt32.ofNat m).toNat = m := UInt32.toNat_ofNat_of_lt' small
  rw [framePage, regionForFrame_eq, frameZero_place (by omega), same, pageOf]

theorem pageOf_addFrame (number : frameIdx.toNat = n + 1) (added : s.addFrame frameIdx pgNo = some t) {m : Nat}
    (positive : 1 ≤ m) (earlier : m ≤ n) : pageOf t m = pageOf s m := by
  have bound := frameIdx.toNat_lt
  have same : (UInt32.ofNat n).toNat = n := UInt32.toNat_ofNat_of_lt' (show n < 2 ^ 32 by omega)
  have number' : (UInt32.ofNat m).toNat = m := UInt32.toNat_ofNat_of_lt' (show m < 2 ^ 32 by omega)
  have unmoved : Unmoved (UInt32.ofNat n) _ s t := addFrame_unmoved (by omega) (by omega) added
  rw [pageOf_framePage positive (by omega), pageOf_framePage positive (by omega)]
  exact unmoved.framePage (by omega) (by omega)

theorem pageOf_added (number : frameIdx.toNat = n + 1) (added : s.addFrame frameIdx pgNo = some t) : pageOf t (n + 1) = pgNo := by
  rw [addFrame_eq s (by omega), number] at added
  obtain ⟨slot, -, rfl⟩ := Option.map_eq_some_iff.mp added
  obtain ⟨-, low, -⟩ := place_bounds (Nat.le_add_left 1 n)
  have fits := place_fits (Nat.le_add_left 1 n)
  have small : place (n + 1) - 1 < hashtablePageCount := by omega
  have inRegion (region : Storage) : leUint32 (region.read ((hashTableOffsets (Index.segment (n + 1))).1 + (place (n + 1) - 1) * 4) 4) 0 =
      pageIn region (hashTableOffsets (Index.segment (n + 1))).1 (place (n + 1)) := by
    rw [pageIn, Nat.mod_eq_of_lt small]
  have numbered (region : Storage) : pageIn (region.write ((hashTableOffsets (Index.segment (n + 1))).1 + (place (n + 1) - 1) * 4)
      (le32 pgNo)) (hashTableOffsets (Index.segment (n + 1))).1 (place (n + 1) - 1 + 1) = pgNo :=
    pageIn_numbered region (by rw [Nat.sub_add_cancel low]; exact fits)
  rw [Nat.sub_add_cancel low] at numbered
  rw [pageOf, pageEntry, Function.update_self, inRegion, pageIn_taken low fits, entered, numbered]

end Pages

end Log

end Literaft.Proofs.Filing
