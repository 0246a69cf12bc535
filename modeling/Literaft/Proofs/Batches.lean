import Literaft.Batches
import Literaft.Proofs.Filing

/-! What the wal-index of a run of batches lists. Each batch that finds nothing left of one
that was given up keeps the tables in the order of the frames, and then a lookup finds
the last frame of a page. -/

namespace Literaft.Proofs.Batches
open Library Wal Shm Literaft.Lookup Literaft.Batches Index Lookup Filing

variable {s t : SharedMemory} {n : Nat} {x y : WalIndex}

private theorem addFrames_ordered {pages : List UInt32} (ordered : Ordered s n) (small : n + pages.length < 2 ^ 32)
    (added : addFrames s n pages = some t) :
    Ordered t (n + pages.length) ∧ (∀ m, 1 ≤ m → m ≤ n → pageOf t m = pageOf s m) ∧
      ∀ (j : Nat) (pgNo : UInt32), pages[j]? = some pgNo → pageOf t (n + j + 1) = pgNo := by
  induction pages generalizing s n with
  | nil =>
    cases added
    exact ⟨ordered, fun _ _ _ => rfl, fun j pgNo none_ => by simp at none_⟩
  | cons pgNo rest ih =>
    rw [List.length_cons] at small ⊢
    obtain ⟨middle, first, remaining⟩ := Option.bind_eq_some_iff.mp added
    have number : (UInt32.ofNat (n + 1)).toNat = n + 1 := UInt32.toNat_ofNat_of_lt' (show n + 1 < 2 ^ 32 by omega)
    obtain ⟨filed, kept, paged⟩ := ih (ordered.addFrame number first) (by omega) remaining
    refine ⟨?_, fun m positive earlier => ?_, fun j other found => ?_⟩
    · rw [show n + (rest.length + 1) = n + 1 + rest.length by omega]
      exact filed
    · rw [kept m positive (by omega)]
      exact pageOf_addFrame number first positive earlier
    · cases j with
      | zero =>
        cases found
        rw [Nat.add_zero, kept (n + 1) (Nat.le_add_left 1 n) (Nat.le_refl _)]
        exact pageOf_added number first
      | succ j =>
        rw [show n + (j + 1) + 1 = n + 1 + j + 1 by omega]
        exact paged j other found

/-- The tables are in order, up to the published frames or beyond. -/
structure Sorted (x : WalIndex) : Prop where
  small : x.pages.length < 2 ^ 32
  filed : ∃ m, x.pages.length ≤ m ∧ Ordered x.shm m
  pages : ∀ (j : Nat) (pgNo : UInt32), x.pages[j]? = some pgNo → pageOf x.shm (j + 1) = pgNo

theorem Sorted.clean (sorted : Sorted x) (clean : Clean x) (room : x.pages.length + 1 < 2 ^ 32) :
    Ordered x.shm x.pages.length := by
  obtain ⟨m, beyond, ordered⟩ := sorted.filed
  have number : (UInt32.ofNat x.pages.length).toNat = x.pages.length := UInt32.toNat_ofNat_of_lt' (show _ < 2 ^ 32 by omega)
  have filed := ordered.clear (by rw [number]; exact beyond) (by rw [number]; exact room) clean
  rw [number] at filed
  exact filed

private theorem sorted_start (s : SharedMemory) : Sorted ⟨s, []⟩ :=
  ⟨Nat.zero_lt_succ _, ⟨0, Nat.le_refl _, ordered_start s⟩, fun j pgNo none_ => by simp at none_⟩

theorem Sorted.tables {pages : List UInt32} (sorted : Sorted ⟨s, pages⟩)
    (same : ∀ regionID address, (hashTableOffsets regionID).1 ≤ address → t regionID address = s regionID address) : Sorted ⟨t, pages⟩ := by
  obtain ⟨m, beyond, ordered⟩ := sorted.filed
  refine ⟨sorted.small, ⟨m, beyond, ordered.tables same⟩, fun j pgNo found => ?_⟩
  rw [pageOf_tables same]
  exact sorted.pages j pgNo found

theorem Sorted.append {pages : List UInt32} (sorted : Sorted x) (clean : pages ≠ [] → Clean x)
    (room : x.pages.length + pages.length < 2 ^ 32) (added : addFrames x.shm x.pages.length pages = some t) :
    Sorted ⟨t, x.pages⟩ ∧ Sorted ⟨t, x.pages ++ pages⟩ := by
  cases pages with
  | nil =>
    cases added
    rw [List.append_nil]
    exact ⟨sorted, sorted⟩
  | cons pgNo rest =>
    have ordered := sorted.clean (clean (List.cons_ne_nil _ _)) (by rw [List.length_cons] at room; omega)
    obtain ⟨filed, kept, paged⟩ := addFrames_ordered ordered room added
    have old (j : Nat) (other : UInt32) (found : x.pages[j]? = some other) : pageOf t (j + 1) = other := by
      obtain ⟨inside, -⟩ := List.getElem?_eq_some_iff.mp found
      rw [kept (j + 1) (Nat.le_add_left 1 j) inside]
      exact sorted.pages j other found
    refine ⟨⟨sorted.small, ⟨_, Nat.le_add_right _ _, filed⟩, old⟩, ⟨?_, ⟨_, ?_, filed⟩, fun j other found => ?_⟩⟩
    · rw [List.length_append]
      exact room
    · rw [List.length_append]
    · by_cases inside : j < x.pages.length
      · rw [List.getElem?_append_left inside] at found
        exact old j other found
      · rw [List.getElem?_append_right (Nat.le_of_not_lt inside)] at found
        have shifted := paged (j - x.pages.length) other found
        rw [Nat.add_sub_cancel' (Nat.le_of_not_lt inside)] at shifted
        exact shifted

theorem Sorted.step {batch : Batch} (sorted : Sorted x)
    (clean : ∀ pages publish, batch = .append pages publish → pages ≠ [] → Clean x) (stepped : step x batch = some y) : Sorted y := by
  cases batch with
  | rewind hdr info =>
    rw [Batches.step, Option.some.injEq] at stepped
    subst stepped
    exact sorted_start _
  | append pages publish =>
    rw [Batches.step] at stepped
    split at stepped
    · next room =>
      obtain ⟨shm, added, ended⟩ := Option.map_eq_some_iff.mp stepped
      obtain ⟨abandoned, published⟩ := sorted.append (clean pages publish rfl) room added
      cases publish with
      | none =>
        cases ended
        exact abandoned
      | some hdr =>
        cases ended
        exact published.tables (writeHeader_tables _ _)
    · cases stepped

theorem Sorted.exec {batches : List Batch} (sorted : Sorted x) (run : cleanRun x batches)
    (executed : exec Batches.step x batches = some y) : Sorted y := by
  induction batches generalizing x with
  | nil =>
    cases executed
    exact sorted
  | cons batch rest ih =>
    obtain ⟨middle, first, remaining⟩ := Option.bind_eq_some_iff.mp executed
    exact ih (sorted.step run.1 first) (run.2 middle first) remaining

theorem Sorted.lookup (sorted : Sorted x) {iLast : UInt32} (pgNo : UInt32) (positive : 1 ≤ iLast.toNat)
    (last : iLast.toNat ≤ x.pages.length) :
    findFrame x.shm 1 iLast pgNo = some (lastFrame x.pages pgNo iLast.toNat) := by
  obtain ⟨m, beyond, ordered⟩ := sorted.filed
  rw [findFrame_last ordered positive (by omega), lastFrame]
  refine congrArg some (findGreatest_congr fun n small => ?_)
  have page (some_ : 1 ≤ n) (other : UInt32) (found : x.pages[n - 1]? = some other) : pageOf x.shm n = other := by
    have same := sorted.pages (n - 1) other found
    rw [Nat.sub_add_cancel some_] at same
    exact same
  refine ⟨fun ⟨some_, _, here⟩ => ⟨some_, ?_⟩, fun ⟨some_, here⟩ => ⟨some_, some_, page some_ pgNo here⟩⟩
  have inside : n - 1 < x.pages.length := by omega
  rw [← here, page some_ _ (List.getElem?_eq_getElem inside)]
  exact List.getElem?_eq_getElem inside

private theorem addFrame_confined {frameIdx pgNo : UInt32} (positive : 1 ≤ frameIdx.toNat)
    (added : s.addFrame frameIdx pgNo = some t) :
    Confined frameIdx s t := by
  have low := (place_bounds positive).2.1
  have fits := place_fits positive
  have small := offset_low (Index.segment frameIdx.toNat)
  rw [addFrame_eq s positive] at added
  obtain ⟨slot, finds, rfl⟩ := Option.map_eq_some_iff.mp added
  obtain ⟨gap, -, there, -⟩ := probe_run (hashSlotForPage_lt pgNo) finds
  have bound : slot < hashtableSlotCount := by
    rw [there]
    exact Nat.mod_lt _ (by decide)
  rw [← frameZero_place positive] at low fits
  constructor
  all_goals rw [regionForFrame_eq]
  · intro regionID other
    rw [Function.update_of_ne other]
  · intro address outside
    have high : hashtablePageCount * 4 + hashtableSlotCount * 2 = regionSize := by decide
    rw [frameZero_place positive] at fits low
    have first : ¬ (hashtablePageCount * 4 + slot * 2 ≤ address ∧ address < hashtablePageCount * 4 + slot * 2 + 2) := by omega
    have second : ¬ ((hashTableOffsets (Index.segment frameIdx.toNat)).1 + (place frameIdx.toNat - 1) * 4 ≤ address ∧
        address < (hashTableOffsets (Index.segment frameIdx.toNat)).1 + (place frameIdx.toNat - 1) * 4 + 4) := by omega
    have third : ¬ ((hashTableOffsets (Index.segment frameIdx.toNat)).1 ≤ address ∧ address < regionSize) := by omega
    rw [Function.update_self, entered]
    simp only [Storage.write, show ∀ word, (le16 word).length = 2 from fun _ => rfl, le32_length, first, second, if_false]
    split
    · simp only [clearFrom, third, if_false]
    · rfl
  · exact low
  · exact fits
  · simp only [hashTableOffsets, hashtablePageCount, hashtableSlotCount, regionSize]
    omega

private theorem clean_ordered (ordered : Ordered x.shm x.pages.length) (room : x.pages.length + 1 < 2 ^ 32) : Clean x := by
  have number : (UInt32.ofNat x.pages.length).toNat = x.pages.length := UInt32.toNat_ofNat_of_lt' (show _ < 2 ^ 32 by omega)
  rw [Clean, clear_iff (by rw [number]; exact room), number]
  by_cases first : place (x.pages.length + 1) = 1
  · exact .inl first
  · have positive : 1 ≤ x.pages.length := Nat.one_le_iff_ne_zero.mpr fun none_ => first (by rw [none_]; rfl)
    obtain ⟨same, -⟩ := (place_succ positive).resolve_right first
    have start := (place_bounds positive).1
    refine .inr fun slot bound => ?_
    rw [same]
    have named := (ordered positive _ (Nat.le_refl _)).named slot bound
    rw [held_segment positive, place] at named
    omega

/-- A run whose batches are all published is clean. -/
theorem published_clean {batches : List Batch} (ordered : Ordered x.shm x.pages.length)
    (published : ∀ pages, Batch.append pages none ∉ batches) (executed : exec Batches.step x batches = some y) :
    cleanRun x batches := by
  induction batches generalizing x with
  | nil => trivial
  | cons batch rest ih =>
    obtain ⟨middle, first, remaining⟩ := Option.bind_eq_some_iff.mp executed
    have later (pages : List UInt32) : Batch.append pages none ∉ rest := fun member =>
      published pages (List.mem_cons_of_mem _ member)
    have next (y : WalIndex) (stepped : Batches.step x batch = some y) (filed : Ordered middle.shm middle.pages.length) :
        cleanRun y rest := by
      obtain rfl : middle = y := Option.some.inj (first.symm.trans stepped)
      exact ih filed later remaining
    cases batch with
    | rewind hdr info =>
      refine ⟨fun _ _ => nofun, fun y stepped => next y stepped ?_⟩
      rw [Batches.step, Option.some.injEq] at first
      subst first
      exact ordered_start _
    | append pages publish =>
      have commits : publish ≠ none := by
        rintro rfl
        exact published pages List.mem_cons_self
      obtain ⟨hdr, rfl⟩ := Option.ne_none_iff_exists'.mp commits
      have stepped := first
      rw [Batches.step] at stepped
      split at stepped
      · next room =>
        obtain ⟨shm, added, rfl⟩ := Option.map_eq_some_iff.mp stepped
        refine ⟨fun others _ same some_ => ?_, fun y stepped => next y stepped ?_⟩
        · cases same
          exact clean_ordered ordered (by
            have more := List.length_pos_iff.mpr some_
            omega)
        · obtain ⟨filed, -⟩ := addFrames_ordered ordered room added
          rw [Option.elim_some, List.length_append]
          exact filed.tables (writeHeader_tables _ _)
      · cases stepped

/-- In every state of a run in which no batch meets what another left behind, a lookup finds
the last frame of a page, and wherever a frame is added it stays in its region. -/
theorem lookup_correct {batches : List Batch} (run : cleanRun ⟨s, []⟩ batches)
    (executed : exec Batches.step ⟨s, []⟩ batches = some x) :
    (∀ pgNo iLast : UInt32, 1 ≤ iLast.toNat → iLast.toNat ≤ x.pages.length →
      findFrame x.shm 1 iLast pgNo = some (lastFrame x.pages pgNo iLast.toNat)) ∧
    ∀ (before after : SharedMemory) (frameIdx pgNo : UInt32), 1 ≤ frameIdx.toNat → before.addFrame frameIdx pgNo = some after →
      Confined frameIdx before after := by
  have sorted := (sorted_start s).exec run executed
  exact ⟨fun pgNo iLast positive last => sorted.lookup pgNo positive last,
    fun _ _ _ _ positive added => addFrame_confined positive added⟩

def epochs : List Batch :=
  [.append [5, 1] (some {}), .append [1, 1] (some {}), .rewind {} ⟨0, 0, 0, 0, 0, 0, 0, 0, 0, 0⟩, .append [2, 1] (some {}),
    .append [7, 1, 7] (some {})]

theorem lookup_epochs : ∃ x, exec Batches.step ⟨fun _ _ => 0, []⟩ epochs = some x ∧ cleanRun ⟨fun _ _ => 0, []⟩ epochs ∧
    x.pages = [2, 1, 7, 1, 7] ∧ findFrame x.shm 1 5 1 = some 4 ∧ findFrame x.shm 1 3 1 = some 2 ∧ findFrame x.shm 1 5 6 = some 0 := by
  have run : (exec Batches.step ⟨fun _ _ => 0, []⟩ epochs).map WalIndex.pages = some [2, 1, 7, 1, 7] := by decide +kernel
  obtain ⟨x, executed, pages⟩ := Option.map_eq_some_iff.mp run
  have clean := published_clean (ordered_start _) (by simp [epochs]) executed
  obtain ⟨found, -⟩ := lookup_correct clean executed
  rw [pages] at found
  refine ⟨x, executed, clean, pages, ?_, ?_, ?_⟩
  · exact found 1 5 (by decide) (by decide)
  · exact found 1 3 (by decide) (by decide)
  · exact found 6 5 (by decide) (by decide)

/-- Page 7038 is added as frame 2 and given up. Its slot still says 2 when frame 2 holds
page 1, and frame 4 fills the gap between the two. -/
def leftover : List Batch :=
  [.append [2] (some {}), .append [7038] none, .append [1, 1] (some {}), .append [7423] (some {})]

theorem leftover_found : ∃ x, exec Batches.step ⟨fun _ _ => 0, []⟩ leftover = some x ∧ x.pages = [2, 1, 1, 7423] ∧
    findFrame x.shm 1 4 1 = some 2 ∧ lastFrame x.pages 1 4 = 3 := by
  have run : (exec Batches.step ⟨fun _ _ => 0, []⟩ leftover).map (fun x => (x.pages, findFrame x.shm 1 4 1)) =
      some ([2, 1, 1, 7423], some 2) := by decide +kernel
  obtain ⟨x, executed, seen⟩ := Option.map_eq_some_iff.mp run
  obtain ⟨pages, found⟩ := Prod.mk.inj seen
  refine ⟨x, executed, pages, found, ?_⟩
  rw [pages]
  decide

end Literaft.Proofs.Batches
