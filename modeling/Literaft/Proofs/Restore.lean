import Literaft.Restore
import Literaft.Proofs.Faults
import Literaft.Proofs.FrameChannel

/-! A restore from beginning to end. The frames it sends carry one commit mark, on the last
page, so an append of them that breaks off anywhere shows nothing, and a whole one replaces
every page. What comes after the append can fail with the new database in place. -/

namespace Literaft.Proofs.Restore
open Library Wal Shm WalAppender Literaft.Faults Literaft.FrameChannel Literaft.Restore LogFile Index Appender Calls Faults
open Literaft.Apply Literaft.Lookup Proofs.FrameChannel Proofs.Store Slots

section Header
variable {data : Bytes} {off len : Nat}

theorem beUint32_take (inside : off + 4 ≤ len) : beUint32 (data.take len) off = beUint32 data off := by
  have same (i : Nat) (bound : i < len) : (data.take len).getD i 0 = data.getD i 0 := by
    rw [List.getD_eq_getElem?_getD, List.getD_eq_getElem?_getD, List.getElem?_take_of_lt bound]
  rw [beUint32, beUint32, same _ (by omega), same _ (by omega), same _ (by omega), same _ (by omega)]

private theorem beUint64_take (inside : off + 8 ≤ len) : beUint64 (data.take len) off = beUint64 data off := by
  rw [beUint64, beUint64, beUint32_take (by omega), beUint32_take (by omega)]

private theorem validate_cases (h : SnapshotHeader) :
    (∃ err, h.validate = .error err ∧ ¬ (h.magic = currentMagic ∧ h.version = currentVersion)) ∨
      h.validate = .ok () ∧ h.magic = currentMagic ∧ h.version = currentVersion := by
  unfold SnapshotHeader.validate
  split
  · next wrong => exact .inl ⟨_, rfl, fun right => wrong right.1⟩
  · next magic =>
    split
    · next wrong => exact .inl ⟨_, rfl, fun right => wrong right.2⟩
    · next version => exact .inr ⟨rfl, not_not.mp magic, not_not.mp version⟩

private theorem readHeader_eq {r : Reader} (enough : snapshotHeaderSize ≤ r.bytes.length) :
    readHeader r = ((SnapshotHeader.validate ⟨r.bytes.take snapshotHeaderSize, List.length_take_of_le enough⟩).mapError
      fun err => s!"failed to validate snapshot header: {err}").map fun _ =>
        (⟨r.bytes.take snapshotHeaderSize, List.length_take_of_le enough⟩, { r with bytes := r.bytes.drop snapshotHeaderSize }) := by
  unfold readHeader
  rw [Reader.readFull_ok enough]

private theorem readHeader_cases (r : Reader) :
    (∃ err, readHeader r = .error err ∧
      ¬ (snapshotHeaderSize ≤ r.bytes.length ∧ beUint32 r.bytes 0 = currentMagic ∧ beUint32 r.bytes 4 = currentVersion)) ∨
    ∃ h, readHeader r = .ok (h, { r with bytes := r.bytes.drop snapshotHeaderSize }) ∧
      h.lastAppliedIndex = beUint64 r.bytes 8 ∧
      snapshotHeaderSize ≤ r.bytes.length ∧ beUint32 r.bytes 0 = currentMagic ∧ beUint32 r.bytes 4 = currentVersion := by
  by_cases enough : snapshotHeaderSize ≤ r.bytes.length
  · have first : beUint32 (r.bytes.take snapshotHeaderSize) 0 = beUint32 r.bytes 0 := beUint32_take (by decide)
    have second : beUint32 (r.bytes.take snapshotHeaderSize) 4 = beUint32 r.bytes 4 := beUint32_take (by decide)
    have index : beUint64 (r.bytes.take snapshotHeaderSize) 8 = beUint64 r.bytes 8 := beUint64_take (by decide)
    rw [readHeader_eq enough]
    rcases validate_cases ⟨r.bytes.take snapshotHeaderSize, List.length_take_of_le enough⟩ with
      ⟨err, invalid, wrong⟩ | ⟨valid, magic, version⟩
    · rw [invalid]
      exact .inl ⟨_, rfl, fun ⟨_, magic, version⟩ => wrong ⟨first.trans magic, second.trans version⟩⟩
    · rw [valid]
      exact .inr ⟨_, rfl, index, enough, first.symm.trans magic, second.symm.trans version⟩
  · refine .inl ?_
    unfold readHeader
    rcases Reader.readFull_short (Nat.not_le.mp enough) with ⟨read, -⟩ | ⟨err, read, -⟩
    · rw [read]
      exact ⟨_, rfl, fun ⟨also, _⟩ => enough also⟩
    · rw [read]
      exact ⟨_, rfl, fun ⟨also, _⟩ => enough also⟩

end Header

section Pages
variable {b : Snapshotter} {r : Reader} {fuel : Nat} {nPages : UInt32} {curPage : Bytes}

/-- The frames of pages from `n` on, the last of them with the commit mark. -/
def numbered : UInt32 → List Bytes → List Frame
  | _, [] => []
  | n, page :: rest => ⟨{ pgNo := n, nTruncate := if rest.isEmpty then n else 0 }, page⟩ :: numbered (n + 1) rest

theorem toNat_succ {n : UInt32} (room : n.toNat + 1 < 2 ^ 32) : (n + 1).toNat = n.toNat + 1 := by
  rw [UInt32.toNat_add, show (1 : UInt32).toNat = 1 from rfl, Nat.mod_eq_of_lt room]

theorem numbered_length (n : UInt32) (pages : List Bytes) : (numbered n pages).length = pages.length := by
  induction pages generalizing n with
  | nil => rfl
  | cons page rest ih => rw [numbered, List.length_cons, List.length_cons, ih]

theorem numbered_data {n : UInt32} {pages : List Bytes} {f : Frame} (member : f ∈ numbered n pages) : f.data ∈ pages := by
  induction pages generalizing n with
  | nil => cases member
  | cons page rest ih =>
    rcases List.mem_cons.mp member with rfl | member
    · exact List.mem_cons_self
    · exact List.mem_cons_of_mem _ (ih member)

/-- A whole stream is sent page by page. -/
theorem sendPages_whole (sized : 0 < b.pageSize.toNat) (enough : r.bytes.length < fuel) (ends : r.EndsWhole b.pageSize.toNat)
    (positive : 0 < nPages.toNat) (room : nPages.toNat + r.bytes.length / b.pageSize.toNat < 2 ^ 32) :
    b.sendPages fuel r nPages curPage =
      some (numbered nPages (curPage :: chunks b.pageSize.toNat (r.bytes.length / b.pageSize.toNat) r.bytes), none) := by
  induction fuel generalizing r nPages curPage with
  | zero => cases enough
  | succ fuel ih =>
    unfold Snapshotter.sendPages
    by_cases more : b.pageSize.toNat ≤ r.bytes.length
    · have count : r.bytes.length / b.pageSize.toNat = (r.bytes.length - b.pageSize.toNat) / b.pageSize.toNat + 1 :=
        Nat.div_eq_sub_div sized more
      have next := toNat_succ (n := nPages) (Nat.lt_of_le_of_lt (Nat.add_le_add_left (Nat.div_pos more sized) _) room)
      rw [count] at room ⊢
      have sent := @ih { r with bytes := r.bytes.drop b.pageSize.toNat } (nPages + 1) (r.bytes.take b.pageSize.toNat)
        (by simp only [List.length_drop]; omega)
        ((Reader.endsWhole_drop more).mpr ends) (by omega) (by simp only [List.length_drop, next]; omega)
      simp only [Reader.readFull_ok more, sent, Option.map_some, List.length_drop, chunks]
      rfl
    · have none_ : r.bytes = [] := List.eq_nil_of_length_eq_zero (Nat.eq_zero_of_dvd_of_lt ends.whole (Nat.not_le.mp more))
      have eof : r.readFull b.pageSize.toNat = .error .eof := by
        rw [Reader.readFull, dif_neg more, ends.eof]
        simp [none_]
      have above : 0 < nPages := UInt32.lt_iff_toNat_lt.mpr positive
      simp only [eof, if_pos above, none_, List.length_nil, Nat.zero_div, chunks]
      rfl

/-- A stream that breaks off is sent without a commit mark. -/
theorem sendPages_broken (nPages : UInt32) (sized : 0 < b.pageSize.toNat) (enough : r.bytes.length < fuel)
    (broken : ¬ r.EndsWhole b.pageSize.toNat)
    (full : curPage.length = b.pageSize.toNat) :
    ∃ frames err, b.sendPages fuel r nPages curPage = some (frames, some err) ∧
      frames.length ≤ r.bytes.length / b.pageSize.toNat ∧
      ∀ f ∈ frames, f.header.nTruncate = 0 ∧ f.data.length = b.pageSize.toNat := by
  induction fuel generalizing r nPages curPage with
  | zero => cases enough
  | succ fuel ih =>
    unfold Snapshotter.sendPages
    by_cases more : b.pageSize.toNat ≤ r.bytes.length
    · obtain ⟨frames, err, sent, fewer, plain⟩ := @ih { r with bytes := r.bytes.drop b.pageSize.toNat }
        (r.bytes.take b.pageSize.toNat) (nPages + 1) (by simp only [List.length_drop]; omega)
        (fun ends => broken ((Reader.endsWhole_drop more).mp ends)) (List.length_take_of_le more)
      refine ⟨⟨{ pgNo := nPages }, curPage⟩ :: frames, err, by simp only [Reader.readFull_ok more, sent, Option.map_some], ?_, ?_⟩
      · rw [List.length_cons, Nat.div_eq_sub_div sized more]
        rw [List.length_drop] at fewer
        exact Nat.succ_le_succ fewer
      · intro f member
        rcases List.mem_cons.mp member with rfl | member
        · exact ⟨rfl, full⟩
        · exact plain f member
    · rcases Reader.readFull_short (Nat.not_le.mp more) with ⟨-, eof, none_⟩ | ⟨err, read, notEof, -⟩
      · exact absurd ⟨eof, by rw [none_]; exact Nat.dvd_zero _⟩ broken
      · refine ⟨[], s!"failed to read page {nPages + 1} from snapshot: {err.text}", ?_, Nat.zero_le _, fun f member => nomatch member⟩
        rw [read]
        cases err with
        | eof => exact absurd rfl notEof
        | unexpectedEOF => rfl
        | other err => rfl

end Pages

section Numbered
variable {n : UInt32} {pages : List Bytes}

/-- All frames of a snapshot are one transaction, which leaves as many pages as there are frames. -/
theorem committed_numbered (some_ : pages ≠ []) (positive : 0 < n.toNat) (room : n.toNat + pages.length ≤ 2 ^ 32) :
    ∃ size, committed (numbered n pages) = some (numbered n pages, size) ∧ size.toNat + 1 = n.toNat + pages.length := by
  induction pages generalizing n with
  | nil => exact absurd rfl some_
  | cons page rest ih =>
    rw [List.length_cons] at room ⊢
    cases rest with
    | nil =>
      have marked : n ≠ 0 := fun zero => by simp [zero] at positive
      exact ⟨n, by simp [numbered, committed, marked], rfl⟩
    | cons next rest =>
      rw [List.length_cons] at room
      have above := toNat_succ (n := n) (by omega)
      obtain ⟨size, found, count⟩ := ih (n := n + 1) (List.cons_ne_nil _ _) (by omega) (by rw [List.length_cons]; omega)
      refine ⟨size, ?_, by omega⟩
      rw [numbered, committed, found]

private theorem numbered_above (room : n.toNat + pages.length ≤ 2 ^ 32) {f : Frame} (member : f ∈ numbered n pages) :
    n.toNat ≤ f.header.pgNo.toNat := by
  induction pages generalizing n with
  | nil => cases member
  | cons page rest ih =>
    rw [List.length_cons] at room
    rcases List.mem_cons.mp member with rfl | member
    · exact Nat.le_refl _
    · have more : 0 < rest.length := by
        rw [← numbered_length (n + 1) rest]
        exact List.length_pos_of_mem member
      have above := toNat_succ (n := n) (by omega)
      have further := ih (n := n + 1) (by omega) member
      omega

private theorem newest_numbered {i : Nat} (inside : i < pages.length) (room : n.toNat + pages.length ≤ 2 ^ 32) :
    newest ((numbered n pages).map Frame.image) (n.toNat + i) = pages[i]? := by
  induction pages generalizing n i with
  | nil => cases inside
  | cons page rest ih =>
    rw [List.length_cons] at inside room
    rw [numbered, List.map_cons, newest]
    cases rest with
    | nil =>
      obtain rfl : i = 0 := by simpa using inside
      simp [numbered, newest, Frame.image]
    | cons next rest =>
      have above := toNat_succ (n := n) (by rw [List.length_cons] at room; omega)
      cases i with
      | zero =>
        have absent : n.toNat ∉ ((numbered (n + 1) (next :: rest)).map Frame.image).map Prod.fst := by
          intro member
          obtain ⟨image, found, number⟩ := List.mem_map.mp member
          obtain ⟨f, sent, rfl⟩ := List.mem_map.mp found
          have further := numbered_above (n := n + 1) (by omega) sent
          have number : f.header.pgNo.toNat = n.toNat := number
          omega
        simp [newest_eq_none absent, Frame.image]
      | succ i =>
        have later := ih (n := n + 1) (i := i) (by omega) (by omega)
        rw [above, Nat.add_right_comm, Nat.add_assoc] at later
        rw [later, List.getElem?_cons_succ, List.getElem?_eq_getElem (by omega), Option.some_or]

private theorem apply_numbered (prior : Database Bytes) {size : UInt32} (count : size.toNat + 1 = 1 + pages.length) :
    (prior.apply (change (numbered 1 pages) size)).size = pages.length ∧
      ∀ p, 1 ≤ p → p ≤ pages.length → pages[p - 1]? = some ((prior.apply (change (numbered 1 pages) size)).page p) := by
  have bound := size.toNat_lt
  refine ⟨by simp only [Database.apply, change]; omega, fun p positive inside => ?_⟩
  have found := @newest_numbered 1 pages (p - 1) (by omega)
    (by rw [show (1 : UInt32).toNat = 1 from rfl]; omega)
  rw [show (1 : UInt32).toNat = 1 from rfl, Nat.add_sub_cancel' positive] at found
  simp only [Database.apply, change, found]
  rw [List.getElem?_eq_getElem (by omega), Option.getD_some]

end Numbered

section Deliveries
variable {pageSize n : UInt32} {pages : List Bytes} {faults : Nat → Option FrameFault}

private theorem committed_plain {frames : List Frame} (plain : ∀ f ∈ frames, f.header.nTruncate = 0) :
    committed frames = none := by
  induction frames with
  | nil => rfl
  | cons f rest ih =>
    rw [committed, ih fun g member => plain g (List.mem_cons_of_mem _ member)]
    simp [plain f List.mem_cons_self]

private theorem whole_plain {frames : List Delivery} (plain : ∀ d ∈ frames, d.frame.header.nTruncate = 0) :
    whole pageSize frames = [] := by
  have none_ : committed (processed pageSize frames) = none := by
    apply committed_plain
    intro f member
    obtain ⟨d, front, rfl⟩ := List.mem_map.mp member
    exact plain d (List.takeWhile_subset _ front)
  rw [whole, none_, Option.elim_none]

private theorem deliveries_cons (faults : Nat → Option FrameFault) (f : Frame) (rest : List Frame) :
    deliveries faults (f :: rest) = ⟨f, faults 0⟩ :: deliveries (fun i => faults (i + 1)) rest :=
  List.mapIdx_cons

theorem deliveries_frames (faults : Nat → Option FrameFault) (frames : List Frame) :
    (deliveries faults frames).map Delivery.frame = frames := by
  induction frames generalizing faults with
  | nil => rfl
  | cons f rest ih => rw [deliveries_cons, List.map_cons, ih]

private theorem deliveries_length (faults : Nat → Option FrameFault) (frames : List Frame) :
    (deliveries faults frames).length = frames.length :=
  List.length_mapIdx

private theorem fails_eq_false_iff {d : Delivery} : d.fails pageSize = false ↔
    d.frame.data.length = pageSize.toNat ∧ passes (d.frame.header.nTruncate != 0) d.fault = true := by
  obtain ⟨frame, fault⟩ := d
  rcases fault with _ | (_ | _ | _ | _) <;> simp [Delivery.fails, passes]

private theorem harmless_succ {count : Nat} : Harmless (count + 1) faults ↔
    passes (decide (count = 0)) (faults 0) = true ∧ Harmless count fun i => faults (i + 1) := by
  simp only [Harmless, Nat.forall_lt_succ_left, Nat.add_right_cancel_iff, eq_comm (a := 0)]

/-- The frames of a snapshot all get to their end exactly if none meets a fault of its own. -/
theorem numbered_fine_iff (full : ∀ page ∈ pages, page.length = pageSize.toNat) (positive : 0 < n.toNat)
    (room : n.toNat + pages.length ≤ 2 ^ 32) :
    (∀ d ∈ deliveries faults (numbered n pages), d.fails pageSize = false) ↔ Harmless pages.length faults := by
  induction pages generalizing n faults with
  | nil => simp [numbered, deliveries, Harmless]
  | cons page rest ih =>
    rw [List.length_cons] at room ⊢
    rw [List.forall_mem_cons] at full
    rw [numbered, deliveries_cons, List.forall_mem_cons, fails_eq_false_iff, harmless_succ]
    have first : passes ((if rest.isEmpty then n else 0) != 0) (faults 0) = passes (decide (rest.length = 0)) (faults 0) := by
      have marked : (n != 0) = true := bne_iff_ne.mpr fun zero => by simp [zero] at positive
      cases rest <;> simp [marked]
    have later : (∀ d ∈ deliveries (fun i => faults (i + 1)) (numbered (n + 1) rest), d.fails pageSize = false) ↔
        Harmless rest.length fun i => faults (i + 1) := by
      cases rest with
      | nil => simp [numbered, deliveries, Harmless]
      | cons next rest =>
        have above := toNat_succ (n := n) (by rw [List.length_cons] at room; omega)
        exact ih full.2 (by omega) (by omega)
    rw [later, ← first]
    exact and_congr_left fun _ => and_iff_right full.1

private theorem plain_fine {frames : List Frame} {count : Nat} (harmless : Harmless count faults) (fewer : frames.length < count)
    (plain : ∀ f ∈ frames, f.header.nTruncate = 0 ∧ f.data.length = pageSize.toNat) :
    ∀ d ∈ deliveries faults frames, d.fails pageSize = false := by
  intro d member
  obtain ⟨i, inside, rfl⟩ := List.mem_mapIdx.mp member
  obtain ⟨noMark, length⟩ := plain frames[i] (List.getElem_mem inside)
  have passed := harmless i (by omega)
  rw [decide_eq_false (by omega)] at passed
  refine fails_eq_false_iff.mpr ⟨length, ?_⟩
  simpa only [noMark, bne_self_eq_false] using passed

private theorem whole_numbered_failed (failed : ¬ ∀ d ∈ deliveries faults (numbered n pages), d.fails pageSize = false) :
    whole pageSize (deliveries faults (numbered n pages)) = [] := by
  induction pages generalizing n faults with
  | nil => rfl
  | cons page rest ih =>
    rw [numbered, deliveries_cons, List.forall_mem_cons] at failed
    rw [numbered, deliveries_cons]
    cases fails : Delivery.fails pageSize
        ⟨⟨{ pgNo := n, nTruncate := if rest.isEmpty then n else 0 }, page⟩, faults 0⟩ with
    | true => exact whole_fails fails
    | false =>
      have later := fun fine => failed ⟨fails, fine⟩
      have more : rest ≠ [] := by
        rintro rfl
        exact later fun d member => nomatch member
      rw [whole_cons fails, ih later]
      simp [more]

private theorem whole_numbered (some_ : pages ≠ []) (positive : 0 < n.toNat) (room : n.toNat + pages.length ≤ 2 ^ 32)
    (fine : ∀ d ∈ deliveries faults (numbered n pages), d.fails pageSize = false) :
    whole pageSize (deliveries faults (numbered n pages)) = numbered n pages := by
  have all : processed pageSize (deliveries faults (numbered n pages)) = numbered n pages := by
    rw [processed, List.takeWhile_eq_self_iff.mpr fun d member => by simp [fine d member], deliveries_frames]
  obtain ⟨size, found, -⟩ := committed_numbered some_ positive room
  rw [whole, all, found, Option.elim_some]

private theorem foldlM_fine {frames : List Delivery} (fine : ∀ d ∈ frames, d.fails pageSize = false) (c : Cursor) :
    frames.foldlM appendFrame c = (frames.map Delivery.frame).foldlM Cursor.appendFrame c := by
  induction frames generalizing c with
  | nil => rfl
  | cons d rest ih =>
    rw [List.forall_mem_cons] at fine
    have same : appendFrame c d = c.appendFrame d.frame := by
      obtain ⟨-, passed⟩ := fails_eq_false_iff.mp fine.1
      unfold appendFrame
      split
      · rfl
      · split
        · next met => simp [met, passes] at passed
        · next met => simp [met, passes] at passed
        · next met => simp [met, passes] at passed
        · next met =>
          have plain : d.frame.header.nTruncate = 0 := by simpa [met, passes] using passed
          rw [if_neg (by rw [(chained_kept c d.frame).2, plain]; simp)]
        · rfl
    rw [List.map_cons, List.foldlM_cons, List.foldlM_cons, same]
    exact congrArg (c.appendFrame d.frame).bind (funext (ih fine.2))

end Deliveries

section Append
variable {a c : WALAppender} {hdr latest : Header} {chance : Chance} {early : EarlyFaults} {frames : List Delivery}
  {err : Option String}

/-- The bytes in front of the frames do not show. -/
theorem log_header {bytes : Bytes} (within : bytes.length ≤ walHeaderSize) (a : WALAppender) (hdr : Header) :
    { a with f := a.f.write 0 bytes }.log hdr = a.log hdr := by
  have same : logFrames a.pageSize (a.f.write 0 bytes) hdr.maxFrame.toNat = logFrames a.pageSize a.f hdr.maxFrame.toNat :=
    logFrames_congr fun m _ _ => congrArg Frame.image (storedFrame_header within a.f m)
  simp only [WALAppender.log, same]

private theorem rewind_error {text : String} (header : a.shm.readHeader = some hdr) (intact : (a.log hdr).Intact)
    (due : ¬ (hdr.maxFrame = 0 ∨ a.shm.readCheckpointInfo.nBackfill < hdr.maxFrame))
    (broken : rewind a hdr chance early = (c, .error text)) :
    ∃ latest, c.shm.readHeader = some latest ∧ (c.log latest).visible = (a.log hdr).visible := by
  unfold rewind at broken
  split at broken
  · cases broken
    exact ⟨hdr, header, rfl⟩
  · dsimp only at broken
    split at broken
    · cases broken
      refine ⟨hdr, header, congrArg PageLog.visible (log_header ?_ a hdr)⟩
      exact Nat.le_trans (List.length_take_le' _ _) (Nat.le_of_eq (WALHeader.bytes_length _))
    · split at broken
      · cases broken
        exact ⟨hdr, header, congrArg PageLog.visible (log_header (Nat.le_of_eq (WALHeader.bytes_length _)) a hdr)⟩
      · split at broken
        · cases broken
          refine ⟨_, readHeader_writeHeader _ _, ?_⟩
          -- the log is empty, and all it held is in the file
          obtain ⟨some_, all⟩ := not_or.mp due
          have copied : (a.log hdr).frames.length ≤ (a.log hdr).backfill := by
            rw [log_length]
            exact UInt32.le_iff_toNat_le.mp (UInt32.not_lt.mp all)
          rw [← PageLog.visible_restart intact (log_nonempty a some_) (Nat.le_antisymm intact.bounded copied) (.inl rfl)]
          exact PageLog.visible_congr rfl rfl rfl
        · cases broken

private theorem enter_error {text : String} (header : a.shm.readHeader = some hdr) (intact : (a.log hdr).Intact)
    (entered : enter a true chance early = some (c, .error text)) :
    ∃ latest, c.shm.readHeader = some latest ∧ (c.log latest).visible = (a.log hdr).visible := by
  unfold enter at entered
  rw [if_neg (by decide)] at entered
  split at entered
  · cases entered
    exact ⟨hdr, header, rfl⟩
  · rw [header, Option.map_some] at entered
    split at entered
    · next broken =>
      cases entered
      unfold rewindLogIfBackfilled at broken
      split at broken
      · cases broken
      · split at broken
        · cases broken
          exact ⟨hdr, header, rfl⟩
        · split at broken
          · cases broken
          · next due => exact rewind_error header intact due broken
    · cases entered

private theorem append_entered_eq (enters : Enters a true chance early) (frames : List Delivery) :
    appendFramesUnderLockChan a true chance early frames = appendFramesUnderLockChan a true chance {} frames := by
  obtain ⟨start, first, entered⟩ := enter_ok_iff.mpr enters
  rw [appendFramesUnderLockChan, appendFramesUnderLockChan, entered, enter_ok entered]

/-- A call that gets to its loop, in which no frame fails, is the append of the frames. -/
theorem append_fine (header : a.shm.readHeader = some hdr) (enters : Enters a true chance early) {pageSize : UInt32}
    (fine : ∀ d ∈ frames, d.fails pageSize = false) :
    appendFramesUnderLockChan a true chance early frames = a.appendFramesLocked chance (frames.map Delivery.frame) := by
  rw [append_entered_eq enters, appendFramesUnderLockChan_eq header, foldlM_fine fine]
  simp only [WALAppender.appendFramesLocked, header, Option.bind_some]

/-- A call that gets to its loop shows the whole transactions before the first frame that fails. -/
theorem append_entered (header : a.shm.readHeader = some hdr) (intact : (a.log hdr).Intact)
    (room : hdr.maxFrame.toNat + frames.length < 2 ^ 32) (enters : Enters a true chance early)
    (ran : appendFramesUnderLockChan a true chance early frames = some (c, err)) :
    (err = none ↔ ∀ d ∈ frames, d.fails a.pageSize = false) ∧
      ∃ latest, c.shm.readHeader = some latest ∧ (c.log latest).Intact ∧
        (c.log latest).visible =
          (transaction a.pageSize (whole a.pageSize frames)).elim (a.log hdr).visible (a.log hdr).visible.apply := by
  rw [append_entered_eq enters] at ran
  obtain ⟨outcome, w, latest, appended, published, trails⟩ := call_whole header room ran
  have fewer := accepted_le a.pageSize (whole a.pageSize frames)
  have shorter := whole_le a.pageSize frames
  obtain ⟨-, -, found, stored, still, visible⟩ := call_visible header intact (by omega) appended
  obtain rfl : found = latest := Option.some.inj (stored.symm.trans published)
  refine ⟨outcome, found, trails.header.trans published, ?_⟩
  rw [trails.log (Nat.le_refl _)]
  exact ⟨still, visible⟩

/-- A call that does not get to its loop fails and shows nothing new. -/
theorem append_rejected (header : a.shm.readHeader = some hdr) (intact : (a.log hdr).Intact)
    (rejected : ¬ Enters a true chance early) (ran : appendFramesUnderLockChan a true chance early frames = some (c, err)) :
    err ≠ none ∧ ∃ latest, c.shm.readHeader = some latest ∧ (c.log latest).visible = (a.log hdr).visible := by
  obtain ⟨⟨start, outcome⟩, entered, ended⟩ := Option.bind_eq_some_iff.mp ran
  cases outcome with
  | ok first => exact absurd (enter_ok_iff.mp ⟨start, first, entered⟩) rejected
  | error text =>
    cases ended
    exact ⟨by simp, enter_error header intact entered⟩

end Append

section Stages
variable {b : Snapshotter} {r : Reader} {a c : WALAppender} {hdr : Header} {w : Surroundings} {firstPage : Bytes}

private theorem log_empty (a : WALAppender) (empty : hdr.maxFrame = 0) (noPages : hdr.pageCount = 0) :
    a.log hdr = { frames := [], size := 0, backfill := a.shm.readCheckpointInfo.nBackfill.toNat, file := a.db } := by
  rw [WALAppender.log, empty, noPages]
  rfl

private theorem maybeBootstrap_blank {walSize : Nat} (salt1 salt2 : UInt32) (header : a.shm.readHeader = some hdr)
    (blank : ¬ (hdr.isInit = true ∧ 0 < hdr.pageSize)) (short : walSize ≤ walHeaderSize) :
    ∃ opened first, a.maybeBootstrap walSize salt1 salt2 = some (.ok opened) ∧ opened.pageSize = a.pageSize ∧ opened.db = a.db ∧
      opened.shm.readCheckpointInfo = a.shm.readCheckpointInfo ∧ opened.shm.readHeader = some first ∧ first.maxFrame = 0 ∧
      first.pageCount = 0 := by
  rw [WALAppender.maybeBootstrap, header, Option.map_some, if_neg blank, if_neg (Nat.not_lt.mpr short)]
  exact ⟨_, _, rfl, rfl, rfl, readCheckpointInfo_writeHeader _ _, readHeader_writeHeader _ _, rfl, rfl⟩

private theorem enters_empty (header : a.shm.readHeader = some hdr) (empty : hdr.maxFrame = 0) :
    Enters a true w.chance w.early ↔ w.early.readHeader = none ∧ (w.chance.reading = true ∨ w.early.readInfo = none) := by
  constructor
  · rintro ⟨-, read, _, -, free⟩
    exact ⟨read, free.imp_right And.left⟩
  · rintro ⟨read, free⟩
    exact ⟨rfl, read, hdr, header, free.imp_right fun info => ⟨info, .inl (.inl empty)⟩⟩

private theorem openAppender_cases (size : a.pageSize = b.pageSize) (header : a.shm.readHeader = some hdr)
    (prepared : Prepared hdr) :
    (∃ err, b.openAppender a w = some (.error err) ∧
      ¬ (w.openErr = none ∧ ((hdr.isInit = true ∧ 0 < hdr.pageSize) ∨ w.walSize ≤ walHeaderSize))) ∨
    (w.openErr = none ∧ ((hdr.isInit = true ∧ 0 < hdr.pageSize) ∨ w.walSize ≤ walHeaderSize)) ∧
      ∃ opened first, b.openAppender a w = some (.ok opened) ∧ opened.pageSize = b.pageSize ∧
        opened.shm.readHeader = some first ∧ opened.log first = a.log hdr ∧ first.maxFrame = hdr.maxFrame ∧
        (Enters opened true w.chance w.early ↔ Enters a true w.chance w.early) := by
  have same : { a with pageSize := b.pageSize } = a := by rw [← size]
  unfold Snapshotter.openAppender
  rw [same]
  cases w.openErr with
  | some err => exact .inl ⟨err, rfl, by simp⟩
  | none =>
    simp only [true_and]
    by_cases started : hdr.isInit = true ∧ 0 < hdr.pageSize
    · have same : a.maybeBootstrap w.walSize w.salt1 w.salt2 = some (.ok a) := by
        rw [WALAppender.maybeBootstrap, header, Option.map_some, if_pos started]
      rw [same]
      exact .inr ⟨.inl started, a, hdr, rfl, size, header, rfl, rfl, Iff.rfl⟩
    · by_cases short : w.walSize ≤ walHeaderSize
      · obtain ⟨opened, first, booted, sized, db, info, published, none_, noPages⟩ :=
          maybeBootstrap_blank w.salt1 w.salt2 header started short
        obtain ⟨empty, blank⟩ := prepared.resolve_left started
        rw [booted]
        refine .inr ⟨.inr short, opened, first, rfl, sized.trans size, published, ?_, none_.trans empty.symm, ?_⟩
        · rw [log_empty opened none_ noPages, log_empty a empty blank, info, db]
        · rw [enters_empty published none_, enters_empty header empty]
      · rw [WALAppender.maybeBootstrap, header, Option.map_some, if_neg started, if_pos (Nat.not_le.mp short)]
        exact .inl ⟨_, rfl, fun starts => starts.elim started short⟩

theorem openAppender_started (size : a.pageSize = b.pageSize) (header : a.shm.readHeader = some hdr)
    (started : hdr.isInit = true ∧ 0 < hdr.pageSize) (opens : w.openErr = none) {opened : WALAppender}
    (ran : b.openAppender a w = some (.ok opened)) : opened = a := by
  have kept : { a with pageSize := b.pageSize } = a := by rw [← size]
  rw [Snapshotter.openAppender, opens, kept] at ran
  simp only [WALAppender.maybeBootstrap, header, Option.map_some, if_pos started] at ran
  cases ran
  rfl

private theorem readFirstPage_cases (b : Snapshotter) (r : Reader) :
    (∃ failure, b.readFirstPage r = .error failure ∧
      ¬ (b.pageSize.toNat ≤ r.bytes.length ∧ ∃ high low, (r.bytes.take b.pageSize.toNat)[16]? = some high ∧
        (r.bytes.take b.pageSize.toNat)[17]? = some low ∧ encodedPageSize high low = b.pageSize)) ∨
    b.readFirstPage r = .ok (r.bytes.take b.pageSize.toNat, { r with bytes := r.bytes.drop b.pageSize.toNat }) ∧
      b.pageSize.toNat ≤ r.bytes.length ∧ ∃ high low, (r.bytes.take b.pageSize.toNat)[16]? = some high ∧
        (r.bytes.take b.pageSize.toNat)[17]? = some low ∧ encodedPageSize high low = b.pageSize := by
  unfold Snapshotter.readFirstPage
  by_cases enough : b.pageSize.toNat ≤ r.bytes.length
  · rw [Reader.readFull_ok enough]
    dsimp only
    split
    · next high low one two =>
      split
      · next wrong =>
        refine .inl ⟨_, rfl, fun ⟨_, high', low', first, second, right⟩ => wrong ?_⟩
        obtain rfl := Option.some.inj (one.symm.trans first)
        obtain rfl := Option.some.inj (two.symm.trans second)
        exact right
      · next right => exact .inr ⟨rfl, enough, high, low, one, two, not_not.mp right⟩
    · next missing => exact .inl ⟨_, rfl, fun ⟨_, high, low, first, second, _⟩ => missing high low first second⟩
  · refine .inl ?_
    rcases Reader.readFull_short (Nat.not_le.mp enough) with ⟨read, -⟩ | ⟨err, read, -⟩
    · rw [read]
      exact ⟨_, rfl, fun ⟨also, _⟩ => enough also⟩
    · rw [read]
      exact ⟨_, rfl, fun ⟨also, _⟩ => enough also⟩

theorem joinErrors_none_iff {first second : Option String} : joinErrors first second = none ↔ first = none ∧ second = none := by
  cases first <;> cases second <;> simp [joinErrors]

/-- A stream that ends behind a whole page is sent as frames of whole pages, numbered from one. -/
theorem sendPages_pages (sized : 0 < b.pageSize.toNat) (full : firstPage.length = b.pageSize.toNat)
    (ends : r.EndsWhole b.pageSize.toNat) (room : r.bytes.length / b.pageSize.toNat + 1 < 2 ^ 32) :
    ∃ pages, firstPage :: chunks b.pageSize.toNat (r.bytes.length / b.pageSize.toNat) r.bytes = pages ∧
      b.sendPages (r.bytes.length + 1) r 1 firstPage = some (numbered 1 pages, none) ∧
      pages.length = r.bytes.length / b.pageSize.toNat + 1 ∧ pages ≠ [] ∧
      (∀ page ∈ pages, page.length = b.pageSize.toNat) ∧ (1 : UInt32).toNat + pages.length ≤ 2 ^ 32 := by
  have one : (1 : UInt32).toNat = 1 := rfl
  have count : (firstPage :: chunks b.pageSize.toNat (r.bytes.length / b.pageSize.toNat) r.bytes).length =
      r.bytes.length / b.pageSize.toNat + 1 := by rw [List.length_cons, chunks_length]
  refine ⟨_, rfl, ?_, count, List.cons_ne_nil _ _, ?_, ?_⟩
  · exact sendPages_whole sized (Nat.lt_succ_self _) ends (by decide) (by rw [one]; omega)
  · exact List.forall_mem_cons.mpr ⟨full, chunks_size (Nat.div_mul_le_self _ _)⟩
  · rw [count, one]
    omega

/-- The pages are all shown if the stream ends behind a whole page and nothing fails, and none is
otherwise. -/
theorem appendPages_cases {err : Option String} (size : a.pageSize = b.pageSize) (header : a.shm.readHeader = some hdr)
    (intact : (a.log hdr).Intact) (sized : 0 < b.pageSize.toNat) (full : firstPage.length = b.pageSize.toNat)
    (room : hdr.maxFrame.toNat + (r.bytes.length / b.pageSize.toNat + 1) < 2 ^ 32)
    (ran : b.appendPages a w r firstPage = some (c, err)) :
    (r.EndsWhole b.pageSize.toNat ∧ Enters a true w.chance w.early ∧
        Harmless (r.bytes.length / b.pageSize.toNat + 1) w.frame ∧ err = none ∧
        ∃ latest, c.shm.readHeader = some latest ∧ (c.log latest).Intact ∧
          (c.log latest).visible.size = r.bytes.length / b.pageSize.toNat + 1 ∧
          ∀ p, 1 ≤ p → p ≤ r.bytes.length / b.pageSize.toNat + 1 →
            (firstPage :: chunks b.pageSize.toNat (r.bytes.length / b.pageSize.toNat) r.bytes)[p - 1]? =
              some ((c.log latest).visible.page p)) ∨
    ¬ (r.EndsWhole b.pageSize.toNat ∧ Enters a true w.chance w.early ∧
        Harmless (r.bytes.length / b.pageSize.toNat + 1) w.frame) ∧ err ≠ none ∧
      ∃ latest, c.shm.readHeader = some latest ∧ (c.log latest).visible = (a.log hdr).visible := by
  obtain ⟨⟨frames, readErr⟩, sent, appended⟩ := Option.bind_eq_some_iff.mp ran
  dsimp only at appended
  split at appended
  · cases appended
  obtain ⟨⟨d, resErr⟩, call, ended⟩ := Option.map_eq_some_iff.mp appended
  obtain ⟨rfl, rfl⟩ := Prod.mk.inj ended
  by_cases whole_ : r.EndsWhole b.pageSize.toNat
  · obtain ⟨pages, listed, whole, count, some_, pageful, fits⟩ := sendPages_pages sized full whole_ (by omega)
    rw [← size] at pageful
    cases whole.symm.trans sent
    rw [listed]
    rw [← count] at room ⊢
    by_cases enters : Enters a true w.chance w.early
    · obtain ⟨outcome, latest, published, still, visible⟩ := append_entered header intact
        (by rw [deliveries_length, numbered_length]; exact room) enters call
      rw [numbered_fine_iff pageful (by decide) fits] at outcome
      by_cases harmless : Harmless pages.length w.frame
      · left
        have fine := (numbered_fine_iff pageful (by decide) fits).mpr harmless
        obtain ⟨size, found, total⟩ := committed_numbered some_ (by decide) fits
        have accepts : accepted a.pageSize (numbered 1 pages) = numbered 1 pages :=
          accepted_eq_self.mpr fun f member => pageful f.data (numbered_data member)
        rw [whole_numbered some_ (by decide) fits fine, transaction, accepts, found] at visible
        obtain ⟨sized, each⟩ := apply_numbered (a.log hdr).visible total
        refine ⟨whole_, enters, harmless, outcome.mpr harmless, latest, published, still, ?_⟩
        rw [visible]
        exact ⟨sized, each⟩
      · right
        rw [whole_numbered_failed fun fine => harmless ((numbered_fine_iff pageful (by decide) fits).mp fine)] at visible
        exact ⟨fun all => harmless all.2.2, fun none_ => harmless (outcome.mp none_), latest, published, visible⟩
    · obtain ⟨failed, shown⟩ := append_rejected header intact enters call
      exact .inr ⟨fun all => enters all.2.1, failed, shown⟩
  · right
    obtain ⟨sentFrames, text, broken, fewer, marks⟩ := sendPages_broken 1 sized (Nat.lt_succ_self _) whole_ full
    rw [broken] at sent
    cases sent
    refine ⟨fun all => whole_ all.1, fun none_ => (by cases (joinErrors_none_iff.mp none_).1), ?_⟩
    by_cases enters : Enters a true w.chance w.early
    · obtain ⟨-, latest, published, -, visible⟩ := append_entered header intact
        (by rw [deliveries_length]; omega) enters call
      have nothing : whole a.pageSize (deliveries w.frame frames) = [] := by
        apply whole_plain
        intro d member
        refine (marks d.frame ?_).1
        rw [← deliveries_frames w.frame frames]
        exact List.mem_map_of_mem member
      rw [nothing] at visible
      exact ⟨latest, published, visible⟩
    · exact (append_rejected header intact enters call).2

private theorem checkpoint_shows {latest : Header} (b : Snapshotter) (w : Surroundings) (header : a.shm.readHeader = some latest)
    (intact : (a.log latest).Intact) : Shows (b.checkpoint a w).1 (a.log latest).visible := by
  unfold Snapshotter.checkpoint
  split
  · exact ⟨latest, header, .refl _⟩
  · exact w.checkpoint.keeps header intact

private theorem checkpoint_none_iff (b : Snapshotter) (a : WALAppender) (w : Surroundings) :
    (b.checkpoint a w).2 = none ↔ w.reopenErr = none ∧ w.checkpointErr = none := by
  unfold Snapshotter.checkpoint
  cases w.reopenErr <;> simp

/-- Without faults the append of the pages returns. -/
theorem appendPages_returns (size : a.pageSize = b.pageSize) (header : a.shm.readHeader = some hdr)
    (sized : 0 < b.pageSize.toNat) (full : firstPage.length = b.pageSize.toNat)
    (room : hdr.maxFrame.toNat + (r.bytes.length / b.pageSize.toNat + 1) < 2 ^ 32) (enters : Enters a true w.chance w.early)
    (harmless : Harmless (r.bytes.length / b.pageSize.toNat + 1) w.frame)
    (slots : HasSlots a w.chance (r.bytes.length / b.pageSize.toNat + 1)) :
    ∃ c err, b.appendPages a w r firstPage = some (c, err) := by
  have sent : ∃ frames err, b.sendPages (r.bytes.length + 1) r 1 firstPage = some (frames, err) ∧
      frames.length ≤ r.bytes.length / b.pageSize.toNat + 1 ∧
      ∀ d ∈ deliveries w.frame frames, d.fails a.pageSize = false := by
    rw [size]
    by_cases whole_ : r.EndsWhole b.pageSize.toNat
    · obtain ⟨pages, -, sent, count, -, pageful, fits⟩ := sendPages_pages sized full whole_ (by omega)
      refine ⟨numbered 1 pages, none, sent, Nat.le_of_eq ((numbered_length _ _).trans count), ?_⟩
      exact (numbered_fine_iff pageful (by decide) fits).mpr (count ▸ harmless)
    · obtain ⟨frames, text, sent, fewer, plain⟩ := sendPages_broken 1 sized (Nat.lt_succ_self _) whole_ full
      exact ⟨frames, some text, sent, Nat.le_succ_of_le fewer, plain_fine harmless (Nat.lt_succ_of_le fewer) plain⟩
  obtain ⟨frames, readErr, sent, fewer, fine⟩ := sent
  obtain ⟨start, first, entered⟩ := enter_ok_iff.mpr enters
  have free : blocked a w frames = false := by rw [blocked, entered]
  have short := accepted_le a.pageSize frames
  have returned := (appendFramesLocked_isSome_iff header (by omega)).mpr (hasSlots_mono slots (Nat.le_trans short fewer))
  rw [← deliveries_frames w.frame frames, ← append_fine header enters fine] at returned
  obtain ⟨⟨c, resErr⟩, appended⟩ := Option.isSome_iff_exists.mp returned
  refine ⟨c, joinErrors readErr resErr, ?_⟩
  simp only [Snapshotter.appendPages, sent, Option.bind_some, free, appended, Option.map_some]
  rfl

end Stages

section Format
variable {pageSize : UInt32} {stream : Bytes} {n : Nat}

theorem format_sized (format : Format pageSize stream n) : 0 < pageSize.toNat := by
  obtain ⟨high, low, first, -, -⟩ := format.encoded
  by_contra none_
  rw [Nat.eq_zero_of_not_pos none_] at first
  simp at first

theorem format_split (format : Format pageSize stream n) :
    snapshotHeaderSize ≤ stream.length ∧ pageSize.toNat ≤ (stream.drop snapshotHeaderSize).length ∧
      ((stream.drop snapshotHeaderSize).drop pageSize.toNat).length = (n - 1) * pageSize.toNat := by
  have length := format.length
  obtain ⟨k, rfl⟩ := Nat.exists_eq_add_of_le' format.positive
  rw [Nat.succ_mul] at length
  simp only [List.length_drop, Nat.add_sub_cancel]
  omega

theorem format_count (format : Format pageSize stream n) :
    ((stream.drop snapshotHeaderSize).drop pageSize.toNat).length / pageSize.toNat + 1 = n := by
  rw [(format_split format).2.2, Nat.mul_div_cancel _ (format_sized format)]
  exact Nat.sub_add_cancel format.positive

private theorem format_of_split (enough : snapshotHeaderSize ≤ stream.length) (magic : beUint32 stream 0 = currentMagic)
    (version : beUint32 stream 4 = currentVersion) (first : pageSize.toNat ≤ (stream.drop snapshotHeaderSize).length)
    (encoded : ∃ high low, ((stream.drop snapshotHeaderSize).take pageSize.toNat)[16]? = some high ∧
      ((stream.drop snapshotHeaderSize).take pageSize.toNat)[17]? = some low ∧ encodedPageSize high low = pageSize)
    (whole_ : pageSize.toNat ∣ ((stream.drop snapshotHeaderSize).drop pageSize.toNat).length) :
    Format pageSize stream (((stream.drop snapshotHeaderSize).drop pageSize.toNat).length / pageSize.toNat + 1) := by
  refine ⟨Nat.le_add_left 1 _, ?_, magic, version, encoded⟩
  rw [Nat.succ_mul, Nat.div_mul_cancel whole_]
  rw [List.length_drop] at first
  simp only [List.length_drop]
  omega

theorem snapshot_page {p : Nat} (positive : 1 ≤ p) (inside : p ≤ n + 1) :
    ((stream.drop snapshotHeaderSize).take pageSize.toNat ::
      chunks pageSize.toNat n ((stream.drop snapshotHeaderSize).drop pageSize.toNat))[p - 1]? =
      some ((snapshot pageSize stream (n + 1)).page p) := by
  have listed := @chunks_get pageSize.toNat (n + 1) (p - 1) (stream.drop snapshotHeaderSize) (by omega)
  rw [chunks] at listed
  rw [listed, List.drop_drop]
  rfl

end Format

section Whole
variable {b : Snapshotter} {r : Reader} {a c : WALAppender} {hdr : Header} {w : Surroundings} {n : Nat}

theorem pages_le (first : b.pageSize.toNat ≤ (r.bytes.drop snapshotHeaderSize).length) (sized : 0 < b.pageSize.toNat) :
    ((r.bytes.drop snapshotHeaderSize).drop b.pageSize.toNat).length / b.pageSize.toNat + 1 ≤
      r.bytes.length / b.pageSize.toNat := by
  rw [List.length_drop, ← Nat.div_eq_sub_div sized first, List.length_drop]
  exact Nat.div_le_div_right (Nat.sub_le _ _)

/-- A restore has come to its append: the header was accepted, the log opened, and the first page
read. -/
structure Reaches (b : Snapshotter) (r : Reader) (a : WALAppender) (hdr : Header) (w : Surroundings) (h : SnapshotHeader)
    (opened : WALAppender) (first : Header) : Prop where
  index : h.lastAppliedIndex = beUint64 r.bytes 8
  enough : snapshotHeaderSize ≤ r.bytes.length
  magic : beUint32 r.bytes 0 = currentMagic
  version : beUint32 r.bytes 4 = currentVersion
  opens : w.openErr = none
  starts : (hdr.isInit = true ∧ 0 < hdr.pageSize) ∨ w.walSize ≤ walHeaderSize
  ran : b.openAppender a w = some (.ok opened)
  size : opened.pageSize = b.pageSize
  published : opened.shm.readHeader = some first
  log : opened.log first = a.log hdr
  frames : first.maxFrame = hdr.maxFrame
  enters : Enters opened true w.chance w.early ↔ Enters a true w.chance w.early
  long : b.pageSize.toNat ≤ (r.bytes.drop snapshotHeaderSize).length
  encoded : ∃ high low, ((r.bytes.drop snapshotHeaderSize).take b.pageSize.toNat)[16]? = some high ∧
    ((r.bytes.drop snapshotHeaderSize).take b.pageSize.toNat)[17]? = some low ∧ encodedPageSize high low = b.pageSize

def behind (b : Snapshotter) (r : Reader) : Reader :=
  { r with bytes := (r.bytes.drop snapshotHeaderSize).drop b.pageSize.toNat }

theorem Reaches.sized {h : SnapshotHeader} {opened : WALAppender} {first : Header}
    (reaches : Reaches b r a hdr w h opened first) :
    0 < b.pageSize.toNat := by
  obtain ⟨high, low, byte, -, -⟩ := reaches.encoded
  by_contra none_
  rw [Nat.eq_zero_of_not_pos none_] at byte
  simp at byte

/-- What comes before the append leaves the log as it is, whether or not there is an error. -/
theorem restore_reaches (r : Reader) (w : Surroundings) (size : a.pageSize = b.pageSize) (header : a.shm.readHeader = some hdr)
    (prepared : Prepared hdr) :
    (∃ c failure, b.restore r a w = some (c, .error failure) ∧ Shows c (a.log hdr).visible ∧ ¬ ∃ n, Installs b r a hdr w n) ∨
    ∃ h opened first, Reaches b r a hdr w h opened first ∧ b.restore r a w =
      (b.appendPages opened w (behind b r) ((r.bytes.drop snapshotHeaderSize).take b.pageSize.toNat)).map (b.finish w h) := by
  unfold Snapshotter.restore
  rcases readHeader_cases r with ⟨err, read, wrong⟩ | ⟨h, read, index, enough, magic, version⟩
  · rw [read]
    refine .inl ⟨_, _, rfl, ⟨hdr, header, .refl _⟩, fun ⟨n, installs⟩ => wrong ?_⟩
    exact ⟨(format_split installs.format).1, installs.format.magic, installs.format.version⟩
  rw [read]
  dsimp only
  rcases openAppender_cases (w := w) size header prepared with
    ⟨err, failed, closed⟩ | ⟨⟨opens, starts⟩, opened, first, open_, sizes, published, log, frames, enters⟩
  · rw [failed]
    refine .inl ⟨_, _, rfl, ⟨hdr, header, .refl _⟩, fun ⟨n, installs⟩ => closed ⟨installs.opens, installs.starts⟩⟩
  rw [open_, Option.bind_some]
  dsimp only
  rcases readFirstPage_cases b { r with bytes := r.bytes.drop snapshotHeaderSize } with
    ⟨failure, failed, wrong⟩ | ⟨page, long, encoded⟩
  · rw [failed]
    refine .inl ⟨_, _, rfl, ⟨first, published, by rw [log]; exact .refl _⟩, fun ⟨n, installs⟩ => wrong ?_⟩
    exact ⟨(format_split installs.format).2.1, installs.format.encoded⟩
  rw [page]
  exact .inr ⟨h, opened, first, ⟨index, enough, magic, version, opens, starts, open_, sizes, published, log, frames, enters, long,
    encoded⟩, rfl⟩

/-- How a restore ends. Either the whole snapshot was installed, and the outcome is that of the
steps behind the append, or nothing was, and there is an error. -/
theorem restore_cases {result : Except Failure SnapshotHeader} (size : a.pageSize = b.pageSize)
    (header : a.shm.readHeader = some hdr) (prepared : Prepared hdr) (intact : (a.log hdr).Intact)
    (room : hdr.maxFrame.toNat + r.bytes.length / b.pageSize.toNat < 2 ^ 32) (ran : b.restore r a w = some (c, result)) :
    (∃ n, Installs b r a hdr w n ∧ Shows c (snapshot b.pageSize r.bytes n) ∧
      (((w.reopenErr = none ∧ w.checkpointErr = none) ∧ ∃ h, result = .ok h ∧ h.lastAppliedIndex = beUint64 r.bytes 8) ∨
        ¬ (w.reopenErr = none ∧ w.checkpointErr = none) ∧ ∃ failure, result = .error failure)) ∨
    (¬ ∃ n, Installs b r a hdr w n) ∧ (∃ failure, result = .error failure) ∧ Shows c (a.log hdr).visible := by
  rcases restore_reaches r w size header prepared with ⟨d, failure, failed, shows_, never⟩ | ⟨h, opened, first, reaches, reached⟩
  · rw [failed] at ran
    cases ran
    exact .inr ⟨never, ⟨_, rfl⟩, shows_⟩
  rw [reached] at ran
  obtain ⟨⟨d, err⟩, appended, ended⟩ := Option.map_eq_some_iff.mp ran
  have fits : first.maxFrame.toNat + ((behind b r).bytes.length / b.pageSize.toNat + 1) < 2 ^ 32 := by
    rw [reaches.frames]
    exact Nat.lt_of_le_of_lt (Nat.add_le_add_left (pages_le reaches.long reaches.sized) _) room
  rw [← reaches.log] at intact ⊢
  rcases appendPages_cases reaches.size reaches.published intact reaches.sized (List.length_take_of_le reaches.long) fits appended with
    ⟨whole_, loop, harmless, rfl, latest, stored, good, count, each⟩ | ⟨broken, failed, latest, stored, visible⟩
  · left
    have format := format_of_split reaches.enough reaches.magic reaches.version reaches.long reaches.encoded whole_.whole
    refine ⟨_, ⟨whole_.eof, format, reaches.opens, reaches.starts, reaches.enters.mp loop, harmless⟩, ?_⟩
    have same : (d.log latest).visible.Same
        (snapshot b.pageSize r.bytes ((behind b r).bytes.length / b.pageSize.toNat + 1)) :=
      ⟨count, fun p positive inside =>
        Option.some.inj ((each p positive (count ▸ inside)).symm.trans (snapshot_page positive (count ▸ inside)))⟩
    have shows_ : Shows (b.checkpoint d w).1
        (snapshot b.pageSize r.bytes ((behind b r).bytes.length / b.pageSize.toNat + 1)) := by
      obtain ⟨final, after, kept⟩ := checkpoint_shows b w stored good
      exact ⟨final, after, kept.trans same⟩
    unfold Snapshotter.finish at ended
    cases outcome : (b.checkpoint d w).2 with
    | none =>
      simp only [outcome] at ended
      cases ended
      exact ⟨shows_, .inl ⟨(checkpoint_none_iff b d w).mp outcome, h, rfl, reaches.index⟩⟩
    | some text =>
      simp only [outcome] at ended
      cases ended
      refine ⟨shows_, .inr ⟨fun fine => ?_, _, rfl⟩⟩
      cases outcome.symm.trans ((checkpoint_none_iff b d w).mpr fine)
  · right
    refine ⟨fun ⟨n, installs⟩ => broken ⟨⟨installs.eof, n - 1, ?_⟩, reaches.enters.mpr installs.enters, ?_⟩, ?_⟩
    · exact (format_split installs.format).2.2.trans (Nat.mul_comm _ _)
    · have count : (behind b r).bytes.length / b.pageSize.toNat + 1 = n := format_count installs.format
      rw [count]
      exact installs.frames
    · cases err with
      | none => exact absurd rfl failed
      | some text =>
        cases ended
        exact ⟨⟨_, rfl⟩, latest, stored, by rw [visible]; exact .refl _⟩

/-- A restore returns if the append gets to its frames, none of them meets a fault, and the hash
tables have room for all. -/
theorem restore_returns (size : a.pageSize = b.pageSize) (header : a.shm.readHeader = some hdr) (prepared : Prepared hdr)
    (room : hdr.maxFrame.toNat + r.bytes.length / b.pageSize.toNat < 2 ^ 32) (enters : Enters a true w.chance w.early)
    (harmless : Harmless ((behind b r).bytes.length / b.pageSize.toNat + 1) w.frame)
    (slots : ∀ opened, b.openAppender a w = some (.ok opened) → HasSlots opened w.chance (r.bytes.length / b.pageSize.toNat)) :
    ∃ c result, b.restore r a w = some (c, result) := by
  rcases restore_reaches r w size header prepared with ⟨d, failure, failed, -⟩ | ⟨h, opened, first, reaches, reached⟩
  · exact ⟨d, _, failed⟩
  have fewer : (behind b r).bytes.length / b.pageSize.toNat + 1 ≤ r.bytes.length / b.pageSize.toNat :=
    pages_le reaches.long reaches.sized
  obtain ⟨c, err, appended⟩ := appendPages_returns reaches.size reaches.published reaches.sized
    (List.length_take_of_le reaches.long) (by rw [reaches.frames]; omega) (reaches.enters.mpr enters) harmless
    (hasSlots_mono (slots opened reaches.ran) fewer)
  rw [reached, appended]
  exact ⟨_, _, rfl⟩

/-- Through the channel the pages come to the same end, in whatever order it is filled and
emptied. -/
theorem appendPages_channel {firstPage : Bytes} {err : Option String} (ran : b.appendPages a w r firstPage = some (c, err)) :
    ∃ frames readErr resErr, b.sendPages (r.bytes.length + 1) r 1 firstPage = some (frames, readErr) ∧
      err = joinErrors readErr resErr ∧
      ∀ actions s result,
        exec (step a true w.chance w.early restoreFrameBufferSize) (start (deliveries w.frame frames)) actions = some s →
        s.receiver = .returned result → result = (c, resErr) := by
  obtain ⟨⟨frames, readErr⟩, sent, appended⟩ := Option.bind_eq_some_iff.mp ran
  dsimp only at appended
  split at appended
  · cases appended
  obtain ⟨⟨d, resErr⟩, call, ended⟩ := Option.map_eq_some_iff.mp appended
  obtain ⟨rfl, rfl⟩ := Prod.mk.inj ended
  refine ⟨frames, readErr, resErr, sent, rfl, fun actions s result executed returned => ?_⟩
  exact Option.some.inj ((channel_result executed returned).symm.trans call)

/-- The sender is blocked exactly if it cannot always get to its end. -/
theorem blocked_iff {frames : List Frame} (header : a.shm.readHeader = some hdr)
    (room : hdr.maxFrame.toNat + frames.length < 2 ^ 32) (slots : HasSlots a w.chance frames.length) :
    blocked a w frames = true ↔ ¬ ∀ actions s,
      exec (step a true w.chance w.early restoreFrameBufferSize) (start (deliveries w.frame frames)) actions = some s →
        s.Finishable (call a true w.chance w.early) restoreFrameBufferSize := by
  rw [← deliveries_length w.frame frames] at room slots
  rw [sender_finishes_iff (loop_ends header room slots), deliveries_length, ← enter_ok_iff, blocked]
  cases entered : enter a true w.chance w.early with
  | none =>
    unfold enter at entered
    rw [if_neg (by decide)] at entered
    split at entered
    · cases entered
    · rw [header] at entered
      cases entered
  | some found =>
    obtain ⟨start, outcome⟩ := found
    cases outcome with
    | ok latest => simp
    | error text => simp

end Whole

section Outcome
variable {b : Snapshotter} {a : WALAppender} {hdr : Header} {w : Surroundings}

theorem quiet_enters (quiet : w.Quiet) (header : a.shm.readHeader = some hdr) : Enters a true w.chance w.early := by
  rw [quiet.early]
  exact ⟨rfl, rfl, hdr, header, .inr ⟨rfl, .inr ⟨rfl, rfl, rfl, rfl⟩⟩⟩

theorem quiet_harmless (quiet : w.Quiet) (count : Nat) : Harmless count w.frame := by
  intro i _
  rw [quiet.frames i]
  rfl

/-- With everything around it in order, a restore succeeds on exactly the streams in the format.
It then returns their index and shows their pages alone; any other stream, wherever it breaks
off, leaves the visible database as it was. -/
theorem restore_succeeds_iff {stream : Bytes} (size : a.pageSize = b.pageSize) (header : a.shm.readHeader = some hdr)
    (started : hdr.isInit = true ∧ 0 < hdr.pageSize) (intact : (a.log hdr).Intact) (quiet : w.Quiet)
    (room : hdr.maxFrame.toNat + stream.length / b.pageSize.toNat < 2 ^ 32)
    (slots : HasSlots a w.chance (stream.length / b.pageSize.toNat)) :
    ∃ c result, b.restore ⟨stream, none⟩ a w = some (c, result) ∧
      ((∃ h, result = .ok h) ↔ ∃ n, Format b.pageSize stream n) ∧
      (∀ n, Format b.pageSize stream n → Shows c (snapshot b.pageSize stream n) ∧
        ∃ h, result = .ok h ∧ h.lastAppliedIndex = beUint64 stream 8) ∧
      ((¬ ∃ n, Format b.pageSize stream n) → Shows c (a.log hdr).visible) := by
  have enters := quiet_enters quiet header
  have harmless := quiet_harmless quiet
  have installs (n : Nat) : Installs b ⟨stream, none⟩ a hdr w n ↔ Format b.pageSize stream n :=
    ⟨fun found => found.format, fun format => ⟨rfl, format, quiet.opens, .inl started, enters, harmless n⟩⟩
  obtain ⟨c, result, ran⟩ := restore_returns (r := ⟨stream, none⟩) size header (.inl started)
    room enters (harmless _) fun opened ran => openAppender_started size header started quiet.opens ran ▸ slots
  refine ⟨c, result, ran, ?_⟩
  rcases restore_cases size header (.inl started) intact room ran with ⟨n, found, shows_, ended⟩ | ⟨never, failed, shows_⟩
  · obtain ⟨h, rfl, index⟩ := (ended.resolve_right fun late => late.1 ⟨quiet.reopens, quiet.checkpoints⟩).2
    have format := (installs n).mp found
    refine ⟨⟨fun _ => ⟨n, format⟩, fun _ => ⟨h, rfl⟩⟩, fun m also => ⟨?_, h, rfl, index⟩, fun none_ => absurd ⟨n, format⟩ none_⟩
    rw [← (format_count also).symm.trans (format_count format)] at shows_
    exact shows_
  · simp only [installs] at never
    obtain ⟨failure, rfl⟩ := failed
    exact ⟨⟨fun ⟨h, ok⟩ => (nomatch ok), fun found => absurd found never⟩, fun n format => absurd ⟨n, format⟩ never, fun _ => shows_⟩

/-- The checkpoint of a connection that has read nothing yet, which declines. -/
def declined : Checkpoint := ⟨id, fun header _ => ⟨_, header, .refl _⟩⟩

/-- A snapshot of one page, taken at index 7. -/
def onePageStream : Bytes :=
  be32 currentMagic ++ be32 currentVersion ++ [0, 0, 0, 0, 0, 0, 0, 7] ++ List.replicate 16 0 ++ [2, 0] ++ List.replicate 494 0

/-- The same with two more pages. -/
def threePageStream : Bytes := onePageStream ++ List.replicate 512 8 ++ List.replicate 512 9

theorem format_threePage : Format 512 threePageStream 3 :=
  ⟨by decide, by decide +kernel, by decide +kernel, by decide +kernel, 2, 0, by decide +kernel, by decide +kernel, by decide⟩

def small : Snapshotter := ⟨"db", 512⟩

def calm : Surroundings := { walSize := 0, salt1 := 1, salt2 := 2, chance := ⟨false, 0, 0⟩, checkpoint := declined }

theorem room_threePage {hdr : Header} (one : hdr.maxFrame = 1) :
    hdr.maxFrame.toNat + threePageStream.length / small.pageSize.toNat < 2 ^ 32 := by
  rw [one]
  decide +kernel

/-- Three pages behind a published frame and one that was given up. -/
theorem restore_threePage : ∃ start a c h, (WALAppender.fresh 512 twoPages).maybeBootstrap 0 1 2 = some (.ok start) ∧
    exec Store.step start [.append ⟨true, 0, 0⟩ [image 1 1 2], givenUp] = some a ∧
    small.restore ⟨threePageStream, none⟩ a calm = some (c, .ok h) ∧ h.lastAppliedIndex = 7 ∧
    Shows c (snapshot 512 threePageStream 3) := by
  obtain ⟨start, a, hdr, booted, executed, ready, -, size, one, started, intact, -⟩ := abandoned
  obtain ⟨c, result, ran, -, done, -⟩ := @restore_succeeds_iff small a hdr calm threePageStream size ready.header started intact
    ⟨rfl, rfl, fun _ => rfl, rfl, rfl⟩ (room_threePage one) (ready.hasSlots _ _)
  obtain ⟨shows_, h, rfl, index⟩ := done 3 format_threePage
  have seven : beUint64 threePageStream 8 = 7 := by decide +kernel
  exact ⟨start, a, c, h, booted, executed, ran, by rw [index, seven], shows_⟩

variable {Id : Type} {node : Node Id} {rc : Reader}

private theorem restore_node {after : Node Id} {result : Except Failure Unit} (ran : restore b node rc w = some (after, result)) :
    ∃ c outcome, b.restore rc node.walAppender w = some (c, outcome) ∧ after.walAppender = c ∧
      ((∃ h, outcome = .ok h ∧ result = .ok () ∧ after.fsm.lastApplied = h.lastAppliedIndex.toNat) ∨
        ∃ first failure, outcome = .error first ∧ result = .error failure ∧ after.fsm.lastApplied = node.fsm.lastApplied) := by
  obtain ⟨⟨c, outcome⟩, restored, ended⟩ := Option.map_eq_some_iff.mp ran
  refine ⟨c, outcome, restored, ?_⟩
  cases outcome with
  | ok h =>
    cases ended
    exact ⟨rfl, .inl ⟨h, rfl, rfl, rfl⟩⟩
  | error failure =>
    cases failure <;>
    · cases ended
      exact ⟨rfl, .inr ⟨_, _, rfl, rfl, rfl⟩⟩

private theorem shows_same {first second : Database Bytes} (one : Shows a first) (two : Shows a second) : first.Same second := by
  obtain ⟨hdr, header, same⟩ := one
  obtain ⟨latest, again, also⟩ := two
  obtain rfl := Option.some.inj (header.symm.trans again)
  exact same.symm.trans also

/-- The database and the applied index move together exactly if the database can be opened again
and the checkpoint does not fail, or if the pages that are in place by then, if any, are those
that were there before. -/
theorem restore_together_iff (size : node.walAppender.pageSize = b.pageSize) (header : node.walAppender.shm.readHeader = some hdr)
    (prepared : Prepared hdr) (intact : (node.walAppender.log hdr).Intact)
    (room : hdr.maxFrame.toNat + rc.bytes.length / b.pageSize.toNat < 2 ^ 32)
    (slots : ∀ opened, b.openAppender node.walAppender w = some (.ok opened) →
      HasSlots opened w.chance (rc.bytes.length / b.pageSize.toNat)) :
    (∀ after result, restore b node rc w = some (after, result) →
      Together b rc node after (node.walAppender.log hdr).visible result) ↔
      (w.reopenErr = none ∧ w.checkpointErr = none) ∨
        ∀ n, Installs b rc node.walAppender hdr w n →
          (snapshot b.pageSize rc.bytes n).Same (node.walAppender.log hdr).visible := by
  constructor
  · intro together
    by_cases fine : w.reopenErr = none ∧ w.checkpointErr = none
    · exact .inl fine
    · refine .inr fun n installs => ?_
      have count : (behind b rc).bytes.length / b.pageSize.toNat + 1 = n := format_count installs.format
      obtain ⟨c, outcome, ran⟩ := restore_returns size header prepared room installs.enters
        (count ▸ installs.frames) slots
      rcases restore_cases size header prepared intact room ran with ⟨m, again, shows_, ended⟩ | ⟨never, -⟩
      · obtain ⟨failure, rfl⟩ := (ended.resolve_left fun early => fine early.1).2
        have restored : ∃ after failed, restore b node rc w = some (after, .error failed) ∧ after.walAppender = c := by
          cases failure <;> exact ⟨_, _, congrArg (Option.map _) ran, rfl⟩
        obtain ⟨after, failed, returned, rfl⟩ := restored
        obtain rfl : m = n := (format_count again.format).symm.trans (format_count installs.format)
        exact shows_same shows_ ((together after _ returned).failed failed rfl).1
      · exact absurd ⟨n, installs⟩ never
  · intro safe after result ran
    obtain ⟨c, outcome, restored, rfl, ended⟩ := restore_node ran
    rcases restore_cases size header prepared intact room restored with ⟨n, installs, shows_, late⟩ | ⟨-, ⟨failed, rfl⟩, shows_⟩
    · rcases ended with ⟨h, rfl, rfl, index⟩ | ⟨first, failure, rfl, rfl, index⟩
      · refine ⟨fun failure wrong => (nomatch wrong), fun _ => ⟨n, installs.format, shows_, ?_⟩⟩
        rcases late with ⟨-, h', same, number⟩ | ⟨-, failure, wrong⟩
        · cases same
          rw [index, number]
        · cases wrong
      · refine ⟨fun _ _ => ⟨?_, index⟩, fun wrong => (nomatch wrong)⟩
        have broken : ¬ (w.reopenErr = none ∧ w.checkpointErr = none) := by
          rcases late with ⟨-, h, wrong, -⟩ | ⟨broken, -⟩
          · cases wrong
          · exact broken
        obtain ⟨latest, published, same⟩ := shows_
        exact ⟨latest, published, same.trans ((safe.resolve_left broken) n installs)⟩
    · obtain ⟨h, wrong, -⟩ | ⟨first, failure, -, rfl, index⟩ := ended
      · cases wrong
      · exact ⟨fun _ _ => ⟨shows_, index⟩, fun wrong => (nomatch wrong)⟩

def idle (a : WALAppender) : Node Nat := ⟨{}, a⟩

theorem restore_together_threePage : ∃ start a after, (WALAppender.fresh 512 twoPages).maybeBootstrap 0 1 2 = some (.ok start) ∧
    exec Store.step start [.append ⟨true, 0, 0⟩ [image 1 1 2], givenUp] = some a ∧
    restore small (idle a) ⟨threePageStream, none⟩ calm = some (after, .ok ()) ∧ after.fsm.lastApplied = 7 ∧
    ∃ n, Shows after.walAppender (snapshot 512 threePageStream n) := by
  obtain ⟨start, a, hdr, booted, executed, ready, -, size, one, started, intact, -⟩ := abandoned
  have found : ((exec Store.step start [.append ⟨true, 0, 0⟩ [image 1 1 2], givenUp]).bind fun a =>
      (restore small (idle a) ⟨threePageStream, none⟩ calm).map fun done => done.2.toOption) = some (some ()) := by
    rw [bootstrap_eq booted]
    decide +kernel
  rw [executed, Option.bind_some] at found
  obtain ⟨⟨after, result⟩, ran, ok⟩ := Option.map_eq_some_iff.mp found
  obtain rfl : result = .ok () := by
    cases result with
    | ok value => rfl
    | error failure => cases ok
  have slots : HasSlots a calm.chance (threePageStream.length / small.pageSize.toNat) := ready.hasSlots _ _
  obtain ⟨n, -, shows_, index⟩ := ((@restore_together_iff small hdr calm Nat (idle a) ⟨threePageStream, none⟩ size ready.header
    (.inl started) intact (by dsimp only; exact room_threePage one) fun opened open_ => by
      rw [openAppender_started size ready.header started rfl open_]
      dsimp only
      exact slots).mpr (.inl ⟨rfl, rfl⟩) after (.ok ()) ran).restored rfl
  have seven : (beUint64 threePageStream 8).toNat = 7 := by decide +kernel
  exact ⟨start, a, after, booted, executed, ran, by rw [index, seven], n, shows_⟩

/-- The database cannot be opened again when its new pages are in place. -/
def unopened : Surroundings := { calm with reopenErr := some "unable to open database file" }

theorem restore_apart : ∃ a hdr after latest, (WALAppender.fresh 512 twoPages).maybeBootstrap 0 1 2 = some (.ok a) ∧
    a.shm.readHeader = some hdr ∧ (a.log hdr).visible.size = 2 ∧
    restore small (idle a) ⟨onePageStream, none⟩ unopened = some (after, .error (.error
      "failed to restore snapshot: failed to open database at path `db`: unable to open database file")) ∧
    after.fsm.lastApplied = (idle a).fsm.lastApplied ∧ after.walAppender.shm.readHeader = some latest ∧
    (after.walAppender.log latest).visible.size = 1 := by
  obtain ⟨a, booted⟩ := bootstrap_fresh 512 1 2 twoPages (Nat.zero_le _)
  obtain ⟨hdr, ready, -, log⟩ := bootstrap_ready booted
  have visible : (a.log hdr).visible = twoPages := by
    rw [log]
    exact PageLog.visible_start twoPages
  have found : ((restore small (idle a) ⟨onePageStream, none⟩ unopened).bind fun done =>
      done.1.walAppender.shm.readHeader.map fun latest =>
        (match done.2 with
          | .error failure => some failure
          | .ok _ => none, done.1.fsm.lastApplied, (done.1.walAppender.log latest).visible.size)) =
      some (some (.error "failed to restore snapshot: failed to open database at path `db`: unable to open database file"), 0, 1) := by
    rw [bootstrap_eq booted]
    decide +kernel
  obtain ⟨⟨after, result⟩, ran, found⟩ := Option.bind_eq_some_iff.mp found
  obtain ⟨latest, published, found⟩ := Option.map_eq_some_iff.mp found
  simp only [Prod.mk.injEq] at found
  obtain ⟨failed, index, size⟩ := found
  cases result with
  | ok value => cases failed
  | error failure =>
    cases failed
    exact ⟨a, hdr, after, latest, booted, ready.header, by rw [visible]; rfl, ran, index, published, size⟩

end Outcome

end Literaft.Proofs.Restore
