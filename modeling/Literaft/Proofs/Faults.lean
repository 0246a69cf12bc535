import Literaft.Faults
import Literaft.Proofs.Slots
import Literaft.Proofs.Views

/-! Calls of the appender that break off. Frames behind the last commit frame leave their
bytes in the log file and their entries in the wal-index, but the header and the frames it
publishes are those of the whole transactions, and the next call goes on from there. -/

namespace Literaft.Proofs.Faults
open Library Wal Shm WalAppender Literaft.Lookup Literaft.Store Literaft.Faults LogFile Index Appender Calls Lookup Filing
open Slots Views Proofs.Store
open Literaft.Batches (tally)

/-- The whole transactions before the first frame that fails. -/
def whole (pageSize : UInt32) (frames : List Delivery) : List Frame :=
  (committed (processed pageSize frames)).elim [] Prod.fst

/-- `b` has gone on from `w` behind frame `k` without publishing anything. -/
structure Trails (k : Nat) (w b : WALAppender) : Prop where
  pageSize : b.pageSize = w.pageSize
  db : b.db = w.db
  header : b.shm.readHeader = w.shm.readHeader
  info : b.shm.readCheckpointInfo = w.shm.readCheckpointInfo
  frames : ∀ m, 1 ≤ m → m ≤ k → logFrame w.pageSize b.f m = logFrame w.pageSize w.f m
  slots : ∀ regionID, before regionID < k → slotsUsed w.shm regionID ≤ slotsUsed b.shm regionID

namespace Trails
variable {k : Nat} {a b c : WALAppender}

theorem refl (k : Nat) (a : WALAppender) : Trails k a a :=
  ⟨rfl, rfl, rfl, rfl, fun _ _ _ => rfl, fun _ _ => Nat.le_refl _⟩

theorem trans (first : Trails k a b) (last : Trails k b c) : Trails k a c where
  pageSize := last.pageSize.trans first.pageSize
  db := last.db.trans first.db
  header := last.header.trans first.header
  info := last.info.trans first.info
  frames m positive inside := by
    have later := last.frames m positive inside
    rw [first.pageSize] at later
    exact later.trans (first.frames m positive inside)
  slots regionID early := Nat.le_trans (first.slots regionID early) (last.slots regionID early)

theorem mono {l : Nat} (trails : Trails k a b) (fewer : l ≤ k) : Trails l a b :=
  { trails with
    frames := fun m positive inside => trails.frames m positive (Nat.le_trans inside fewer)
    slots := fun regionID early => trails.slots regionID (Nat.lt_of_lt_of_le early fewer) }

theorem log (trails : Trails k a b) {hdr : Header} (published : hdr.maxFrame.toNat ≤ k) : b.log hdr = a.log hdr := by
  have frames : logFrames a.pageSize b.f hdr.maxFrame.toNat = logFrames a.pageSize a.f hdr.maxFrame.toNat :=
    logFrames_congr fun m positive inside => trails.frames m positive (Nat.le_trans inside published)
  simp only [WALAppender.log, trails.pageSize, trails.db, trails.info, frames]

end Trails

private theorem tally_le {regionID count n : Nat} {frameIdx : UInt32} (number : frameIdx.toNat = n + 1)
    (early : before regionID < n) :
    count ≤ tally regionID count frameIdx := by
  unfold tally
  split
  · next here =>
    rw [regionForFrame_eq] at here
    have further : (frameIdx - frameZeroForRegion regionID).toNat ≠ 1 := by
      rw [← here, frameZero_place (by omega), place, here]
      omega
    rw [if_neg further]
    exact Nat.le_succ count
  · exact Nat.le_refl count

section Frame
variable {n : Nat} {stored : Header} {c e : Cursor} {d : Delivery}

private theorem addFrame_trails {shm : SharedMemory} {pgNo : UInt32} (loop : Loop n stored c) (room : n + 1 < 2 ^ 32)
    (added : c.appender.shm.addFrame (c.currentFrameIdx + 1) pgNo = some shm) :
    shm.readHeader = c.appender.shm.readHeader ∧ shm.readCheckpointInfo = c.appender.shm.readCheckpointInfo ∧
      ∀ regionID, before regionID < n → slotsUsed c.appender.shm regionID ≤ slotsUsed shm regionID := by
  have number := loop.next room
  have low := addFrame_low (by omega) added
  refine ⟨readHeader_congr fun address below => low address (by simp only [headerSize]; omega),
    readCheckpointInfo_congr fun address _ below => low address below, fun regionID early => ?_⟩
  rw [addFrame_slots (by omega) added]
  exact tally_le number early

private theorem appendFrame_trails {f : Frame} (loop : Loop n stored c) (fine : c.retErr = none)
    (length : f.data.length = c.appender.pageSize.toNat) (room : n + 1 < 2 ^ 32) (plain : f.header.nTruncate = 0)
    (appended : c.appendFrame f = some e) : Trails n c.appender e.appender := by
  obtain ⟨-, kept, -⟩ := loop.append fine length room appended
  rcases appendFrame_cases appended with ⟨failed, -⟩ | ⟨-, wrong, -⟩ | ⟨-, -, shm, added, shape⟩
  · simp [fine] at failed
  · exact absurd length wrong
  · rw [if_neg (not_not.mpr plain)] at shape
    obtain ⟨header, -, slots⟩ := addFrame_trails loop room added
    refine ⟨kept.pageSize, kept.db, ?_, kept.info, kept.below, fun regionID early => ?_⟩
    · rw [shape]
      exact header
    · rw [shape]
      exact slots regionID early

/-- What a frame that fails leaves behind: part of its bytes, or all of them and its entry in
the wal-index. -/
inductive Broken (c : Cursor) (d : Delivery) (a : WALAppender) : Prop where
  | written (first second : Bytes) (header : first.length ≤ frameHeaderSize) (data : second.length ≤ c.appender.pageSize.toNat)
      (left : a = { c.appender with
        f := (c.appender.f.write c.currentOffset first).write (c.currentOffset + frameHeaderSize) second })
  | indexed (shm : SharedMemory) (length : (c.chained d.frame).data.length = c.appender.pageSize.toNat)
      (added : c.appender.shm.addFrame (c.currentFrameIdx + 1) (c.chained d.frame).header.pgNo = some shm)
      (left : a = (c.advance (c.chained d.frame) shm).appender)

private theorem write_nil (store : Storage) (off : Nat) : store.write off [] = store := by
  funext address
  have outside : ¬ (off ≤ address ∧ address < off + ([] : Bytes).length) := by
    rw [List.length_nil]
    omega
  simp only [Storage.write, outside, if_false]

/-- What happens to a frame in the loop: nothing after an error, an error, or its end. -/
theorem delivery_cases (appended : appendFrame c d = some e) :
    c.retErr.isSome = true ∧ e = c ∨
    c.retErr = none ∧ d.fails c.appender.pageSize = true ∧ e.retErr.isSome = true ∧ Broken c d e.appender ∨
    c.retErr = none ∧ d.fails c.appender.pageSize = false ∧ d.frame.data.length = c.appender.pageSize.toNat ∧
      c.appendFrame d.frame = some e := by
  unfold appendFrame at appended
  split at appended
  · next early =>
    rcases appendFrame_cases appended with ⟨failed, rfl⟩ | ⟨fine, wrong, message, rfl⟩ | ⟨fine, length, -⟩
    · exact .inl ⟨failed, rfl⟩
    · refine .inr (.inl ⟨fine, by simp [Delivery.fails, wrong], rfl, .written [] [] (Nat.zero_le _) (Nat.zero_le _) ?_⟩)
      rw [write_nil, write_nil]
    · exact absurd length (early.resolve_left (by simp [fine]))
  · next good =>
    obtain ⟨fine, length⟩ := not_or.mp good
    have fine : c.retErr = none := by simpa using fine
    have length : d.frame.data.length = c.appender.pageSize.toNat := not_not.mp length
    obtain ⟨image, size⟩ := chained_kept c d.frame
    have data : (c.chained d.frame).data.length = c.appender.pageSize.toNat := by
      rw [show (c.chained d.frame).data = d.frame.data from congrArg Prod.snd image, length]
    have short (written : Nat) : ((c.chained d.frame).header.bytes.take written).length ≤ frameHeaderSize :=
      Nat.le_trans (List.length_take_le' _ _) (Nat.le_of_eq (FrameHeader.bytes_length _))
    cases fault : d.fault with
    | none =>
      rw [fault] at appended
      exact .inr (.inr ⟨fine, by simp [Delivery.fails, length, fault], length, appended⟩)
    | some kind =>
      rw [fault] at appended
      cases kind with
      | header written err =>
        cases appended
        refine .inr (.inl ⟨fine, by simp [Delivery.fails, fault], rfl, .written _ [] (short written) (Nat.zero_le _) ?_⟩)
        rw [write_nil]
      | data written err =>
        cases appended
        refine .inr (.inl ⟨fine, by simp [Delivery.fails, fault], rfl, .written _ _
          (Nat.le_of_eq (FrameHeader.bytes_length _)) ?_ rfl⟩)
        exact Nat.le_trans (List.length_take_le' _ _) (Nat.le_of_eq data)
      | index err =>
        cases appended
        exact .inr (.inl ⟨fine, by simp [Delivery.fails, fault], rfl, .written _ _
          (Nat.le_of_eq (FrameHeader.bytes_length _)) (Nat.le_of_eq data) rfl⟩)
      | publish err =>
        simp only [size] at appended
        split at appended
        · next marked =>
          obtain ⟨shm, added, rfl⟩ := Option.map_eq_some_iff.mp appended
          exact .inr (.inl ⟨fine, by simp [Delivery.fails, fault, marked], rfl, .indexed shm data added rfl⟩)
        · next plain =>
          exact .inr (.inr ⟨fine, by simp [Delivery.fails, fault, length, not_not.mp plain], length, appended⟩)

theorem Broken.trails {a : WALAppender} (broken : Broken c d a) (loop : Loop n stored c) (room : n + 1 < 2 ^ 32) :
    Trails n c.appender a := by
  have apart (m : Nat) (inside : m ≤ n) : m ≠ n + 1 := by omega
  cases broken with
  | written first second header data left =>
    subst left
    refine ⟨rfl, rfl, rfl, rfl, fun m positive inside => ?_, fun _ _ => Nat.le_refl _⟩
    rw [loop.offset]
    exact (logFrame_write_other positive (Nat.le_add_left 1 n) (apart m inside) (Nat.le_add_right _ _) (by omega)).trans
      (logFrame_write_other positive (Nat.le_add_left 1 n) (apart m inside) (Nat.le_refl _) (by omega))
  | indexed shm length added left =>
    subst left
    obtain ⟨header, info, slots⟩ := addFrame_trails loop room added
    obtain ⟨-, kept, -⟩ := loop.advance length room (addFrame_low (by rw [loop.next room]; omega) added)
    exact ⟨rfl, rfl, header, info, kept.below, slots⟩

theorem Broken.agrees {a : WALAppender} (broken : Broken c d a) (loop : Loop n stored c) (room : n + 1 < 2 ^ 32)
    (agrees : Agrees c.appender n) : ∃ m, n ≤ m ∧ Agrees a m := by
  have trails := broken.trails loop room
  cases broken with
  | written first second header data left =>
    subst left
    refine ⟨n, Nat.le_refl n, agrees.ordered, fun m positive inside => ?_⟩
    exact (agrees.pages m positive inside).trans (congrArg Prod.fst (trails.frames m positive inside)).symm
  | indexed shm length added left =>
    subst left
    exact ⟨n + 1, Nat.le_succ n, Agrees.advance loop room agrees length added⟩

end Frame

section Whole
variable {pageSize : UInt32} {d : Delivery} {frames : List Delivery}

theorem whole_fails (fails : d.fails pageSize = true) : whole pageSize (d :: frames) = [] := by
  simp [whole, processed, fails, committed]

theorem whole_cons (fine : d.fails pageSize = false) :
    whole pageSize (d :: frames) = if whole pageSize frames ≠ [] ∨ d.frame.header.nTruncate ≠ 0 then
      d.frame :: whole pageSize frames else [] := by
  have split : processed pageSize (d :: frames) = d.frame :: processed pageSize frames := by simp [processed, fine]
  rw [whole, whole, split, committed]
  cases found : committed (processed pageSize frames) with
  | none =>
    simp only [Option.elim_none, ne_eq, not_true_eq_false, false_or]
    split <;> rfl
  | some last =>
    have some_ := (committed_front found).2.1
    simp [some_]

theorem whole_le (pageSize : UInt32) (frames : List Delivery) : (whole pageSize frames).length ≤ frames.length := by
  induction frames with
  | nil => exact Nat.le_refl 0
  | cons d rest ih =>
    cases fails : d.fails pageSize with
    | true =>
      rw [whole_fails fails]
      exact Nat.zero_le _
    | false =>
      rw [whole_cons fails]
      split
      · exact Nat.succ_le_succ ih
      · exact Nat.zero_le _

end Whole

section Run
variable {frames : List Delivery} {n : Nat} {stored : Header} {c d : Cursor}

theorem failed_takes (failed : c.retErr.isSome = true) : frames.foldlM appendFrame c = some c := by
  induction frames with
  | nil => rfl
  | cons f rest ih =>
    have step : appendFrame c f = some c := by
      rw [appendFrame, if_pos (.inl failed), Cursor.appendFrame, if_pos failed]
    rw [List.foldlM_cons, step]
    exact ih

/-- The loop with its errors against the same loop over the whole transactions alone. -/
theorem run_trails (loop : Loop n stored c) (behind : stored.maxFrame.toNat ≤ n) (fine : c.retErr = none)
    (room : n + frames.length < 2 ^ 32) (ran : frames.foldlM appendFrame c = some d) :
    (d.retErr = none ↔ ∀ x ∈ frames, x.fails c.appender.pageSize = false) ∧
      ∃ g latest, (whole c.appender.pageSize frames).foldlM Cursor.appendFrame c = some g ∧ g.retErr = none ∧
        Loop (n + (whole c.appender.pageSize frames).length) latest g ∧
        latest.maxFrame.toNat ≤ n + (whole c.appender.pageSize frames).length ∧
        Trails (n + (whole c.appender.pageSize frames).length) g.appender d.appender := by
  induction frames generalizing n stored c with
  | nil =>
    cases ran
    exact ⟨⟨fun _ x member => (nomatch member), fun _ => fine⟩, _, stored, rfl, fine, loop, behind, .refl n _⟩
  | cons x rest ih =>
    rw [List.foldlM_cons] at ran
    rw [List.length_cons] at room
    obtain ⟨e, appended, remaining⟩ := Option.bind_eq_some_iff.mp ran
    rcases delivery_cases appended with ⟨failed, -⟩ | ⟨-, fails, failed, broken⟩ | ⟨-, fails, length, plainly⟩
    · simp [fine] at failed
    · obtain rfl := Option.some.inj ((failed_takes failed).symm.trans remaining)
      have trails := broken.trails loop (by omega)
      rw [whole_fails fails]
      refine ⟨⟨fun none_ => ?_, fun all => ?_⟩, c, stored, rfl, fine, loop, behind, trails⟩
      · simp [none_] at failed
      · rw [all x List.mem_cons_self] at fails
        cases fails
    · obtain ⟨good, kept, -, middle, next, plain, marked⟩ := loop.append fine length (by omega) plainly
      have further : middle.maxFrame.toNat ≤ n + 1 := by
        by_cases commit : x.frame.header.nTruncate = 0
        · rw [plain commit]
          exact Nat.le_succ_of_le behind
        · exact Nat.le_of_eq (marked commit).1
      obtain ⟨outcome, g, latest, looped, ended, last, bound, trails⟩ := ih next further good (by omega) remaining
      have size : e.appender.pageSize = c.appender.pageSize := kept.pageSize
      rw [size] at outcome looped last bound trails
      refine ⟨outcome.trans ?_, ?_⟩
      · simp [fails]
      rw [whole_cons fails]
      split
      · rw [List.length_cons, Nat.add_comm _ 1, ← Nat.add_assoc]
        refine ⟨g, latest, ?_, ended, last, bound, trails⟩
        rw [List.foldlM_cons, plainly]
        exact looped
      · next unfinished =>
        obtain ⟨none_, plain⟩ := not_or.mp unfinished
        rw [not_not.mp none_] at looped trails
        obtain rfl : e = g := Option.some.inj looped
        exact ⟨c, stored, rfl, fine, loop, behind,
          (appendFrame_trails loop fine length (by omega) (not_not.mp plain) plainly).trans (trails.mono (Nat.le_succ n))⟩

private theorem run_agrees (loop : Loop n stored c) (fine : c.retErr = none) (room : n + frames.length < 2 ^ 32)
    (agrees : Agrees c.appender n) (ran : frames.foldlM appendFrame c = some d) :
    ∃ m, n + (whole c.appender.pageSize frames).length ≤ m ∧ Agrees d.appender m := by
  induction frames generalizing n stored c with
  | nil =>
    cases ran
    exact ⟨n, Nat.le_refl n, agrees⟩
  | cons x rest ih =>
    rw [List.foldlM_cons] at ran
    rw [List.length_cons] at room
    obtain ⟨e, appended, remaining⟩ := Option.bind_eq_some_iff.mp ran
    rcases delivery_cases appended with ⟨failed, -⟩ | ⟨-, fails, failed, broken⟩ | ⟨-, fails, length, plainly⟩
    · simp [fine] at failed
    · obtain rfl := Option.some.inj ((failed_takes failed).symm.trans remaining)
      have listed := broken.agrees loop (by omega) agrees
      rw [whole_fails fails]
      exact listed
    · obtain ⟨good, kept, -, middle, next, -⟩ := loop.append fine length (by omega) plainly
      obtain ⟨m, beyond, after⟩ := ih next good (by omega) (Agrees.append loop (by omega) agrees fine length plainly) remaining
      rw [show e.appender.pageSize = c.appender.pageSize from kept.pageSize] at beyond
      refine ⟨m, ?_, after⟩
      rw [whole_cons fails]
      split
      · rw [List.length_cons]
        omega
      · rw [List.length_nil]
        omega

end Run

private theorem addFrame_fuller {n : Nat} {s s' t t' : SharedMemory} {frameIdx pgNo : UInt32} (number : frameIdx.toNat = n + 1)
    (added : s.addFrame frameIdx pgNo = some s') (also : t.addFrame frameIdx pgNo = some t')
    (fewer : ∀ regionID, before regionID < n → slotsUsed s regionID ≤ slotsUsed t regionID) (regionID : Nat)
    (early : before regionID < n + 1) : slotsUsed s' regionID ≤ slotsUsed t' regionID := by
  rw [addFrame_slots (by omega) added, addFrame_slots (by omega) also]
  unfold tally
  split
  · next here =>
    rw [regionForFrame_eq] at here
    split
    · exact Nat.le_refl 1
    · next further =>
      rw [← here, frameZero_place (by omega), place, here, number] at further
      exact Nat.succ_le_succ (fewer regionID (by omega))
  · next other =>
    rw [regionForFrame_eq, number] at other
    refine fewer regionID (Nat.lt_of_le_of_ne (Nat.le_of_lt_succ early) fun last => other ?_)
    refine (place_mem early ?_).1
    rw [← last, before_succ, before]
    simp only [hashtableRegion0PageCount, headerSize, checkpointInfoOffset, checkpointInfoSize, headerCopySize, hashtablePageCount]
    split <;> omega

private theorem addFrame_returns {n : Nat} {s t t' : SharedMemory} {frameIdx pgNo : UInt32} (number : frameIdx.toNat = n + 1)
    (also : t.addFrame frameIdx pgNo = some t')
    (fewer : ∀ regionID, before regionID < n → slotsUsed s regionID ≤ slotsUsed t regionID) :
    ∃ s', s.addFrame frameIdx pgNo = some s' := by
  have found : (t.addFrame frameIdx pgNo).isSome := by rw [also]; rfl
  refine Option.isSome_iff_exists.mp ((addFrame_isSome (by omega)).mpr ?_)
  by_cases first : place frameIdx.toNat = 1
  · exact .inl first
  · have free := ((addFrame_isSome (by omega)).mp found).resolve_left first
    obtain ⟨start, -, -⟩ := place_bounds (show 1 ≤ frameIdx.toNat by omega)
    rw [place] at first
    exact .inr (Nat.lt_of_le_of_lt (fewer _ (by omega)) free)

/-- The same place of the loop on another appender. -/
def on (c : Cursor) (b : WALAppender) : Cursor := { c with appender := b }

section Twin
variable {n : Nat} {stored : Header} {c e : Cursor} {b : WALAppender}

/-- The loop has come to the same place on two appenders, the second with more behind it. -/
structure Twin (n : Nat) (stored : Header) (c : Cursor) (b : WALAppender) : Prop where
  first : Loop n stored c
  second : Loop n stored (on c b)
  published : stored.maxFrame.toNat ≤ n
  trails : Trails n c.appender b

theorem Twin.publish (twin : Twin n stored c b) (nTruncate : UInt32) :
    Twin n (c.publish nTruncate).hdr (c.publish nTruncate) ((on c b).publish nTruncate).appender := by
  obtain ⟨-, first, number, -⟩ := twin.first.publish nTruncate
  obtain ⟨-, second, -⟩ := twin.second.publish nTruncate
  have trails := twin.trails
  refine ⟨first, second, Nat.le_of_eq number, trails.pageSize, trails.db,
      second.header.trans first.header.symm, ?_, trails.frames, fun regionID early => ?_⟩
  · exact (readCheckpointInfo_writeHeader _ _).trans (trails.info.trans (readCheckpointInfo_writeHeader _ _).symm)
  · have fewer := trails.slots regionID early
    have same := slotsUsed_tables (writeHeader_tables c.appender.shm
      { c.hdr with
        maxFrame := c.currentFrameIdx, pageCount := nTruncate, lastFrameChecksum1 := c.lastFrameChecksum1
        lastFrameChecksum2 := c.lastFrameChecksum2, changeCounter := c.hdr.changeCounter + 1 }) regionID
    have also := slotsUsed_tables (writeHeader_tables b.shm
      { c.hdr with
        maxFrame := c.currentFrameIdx, pageCount := nTruncate, lastFrameChecksum1 := c.lastFrameChecksum1
        lastFrameChecksum2 := c.lastFrameChecksum2, changeCounter := c.hdr.changeCounter + 1 }) regionID
    rw [← same, ← also] at fewer
    exact fewer

private theorem advance_on (size : b.pageSize = c.appender.pageSize) (f : Frame) (shm other : SharedMemory) :
    (on c b).advance f other = on (c.advance f shm) ((on c b).advance f other).appender := by
  simp only [on, Cursor.advance, size]

theorem Twin.advance {f : Frame} {shm other : SharedMemory} (twin : Twin n stored c b)
    (length : f.data.length = c.appender.pageSize.toNat) (room : n + 1 < 2 ^ 32)
    (added : c.appender.shm.addFrame (c.currentFrameIdx + 1) f.header.pgNo = some shm)
    (also : b.shm.addFrame (c.currentFrameIdx + 1) f.header.pgNo = some other) :
    Twin (n + 1) stored (c.advance f shm) ((on c b).advance f other).appender := by
  have number := twin.first.next room
  have trails := twin.trails
  have size : b.pageSize = c.appender.pageSize := trails.pageSize
  have length' : f.data.length = (on c b).appender.pageSize.toNat := length.trans (congrArg UInt32.toNat size.symm)
  obtain ⟨first, kept, here⟩ := twin.first.advance length room (addFrame_low (by omega) added)
  obtain ⟨second, kept', here'⟩ := twin.second.advance length' room (addFrame_low (by omega) also)
  refine ⟨first, by rw [← advance_on size]; exact second, Nat.le_succ_of_le twin.published, size,
      trails.db, second.header.trans first.header.symm, ?_,
    fun m positive inside => ?_, addFrame_fuller number added also trails.slots⟩
  · exact kept'.info.trans (trails.info.trans kept.info.symm)
  · have place : logFrame c.appender.pageSize ((on c b).advance f other).appender.f m =
        logFrame b.pageSize ((on c b).advance f other).appender.f m := by rw [size]
    by_cases last : m = n + 1
    · subst last
      exact place.trans (here'.trans here.symm)
    · have below : logFrame b.pageSize b.f m = logFrame c.appender.pageSize c.appender.f m := by
        rw [size]
        exact trails.frames m positive (by omega)
      exact place.trans ((kept'.below m positive (by omega)).trans (below.trans (kept.below m positive (by omega)).symm))

theorem Twin.append {f : Frame} (twin : Twin n stored c b) (room : n + 1 < 2 ^ 32) (appended : (on c b).appendFrame f = some e) :
    ∃ g m latest, c.appendFrame f = some g ∧ e = on g e.appender ∧ Twin m latest g e.appender ∧ m ≤ n + 1 := by
  have size : b.pageSize = c.appender.pageSize := twin.trails.pageSize
  rcases appendFrame_cases appended with ⟨failed, rfl⟩ | ⟨fine, wrong, -⟩ | ⟨fine, length, shm, also, shape⟩
  · exact ⟨c, n, stored, if_pos failed, rfl, twin, Nat.le_succ n⟩
  · have fine : c.retErr = none := fine
    have failed : ¬ (on c b).retErr.isSome = true := by simp [on, fine]
    have also : f.data.length ≠ c.appender.pageSize.toNat := fun length => wrong (length.trans (congrArg UInt32.toNat size.symm))
    rw [Cursor.appendFrame, if_neg failed, if_pos wrong] at appended
    cases appended
    rw [Cursor.appendFrame, if_neg (show ¬ c.retErr.isSome = true from failed), if_pos also, ← size]
    exact ⟨_, n, stored, rfl, rfl, ⟨⟨twin.first.number, twin.first.offset, twin.first.header⟩,
      ⟨twin.second.number, twin.second.offset, twin.second.header⟩, twin.published, twin.trails⟩, Nat.le_succ n⟩
  · have fine : c.retErr = none := fine
    have length : f.data.length = c.appender.pageSize.toNat := by rw [← size]; exact length
    have also : b.shm.addFrame (c.currentFrameIdx + 1) (c.chained f).header.pgNo = some shm := also
    obtain ⟨image, sized⟩ := chained_kept c f
    have data : (c.chained f).data.length = c.appender.pageSize.toNat := by
      rw [show (c.chained f).data = f.data from congrArg Prod.snd image, length]
    obtain ⟨other, added⟩ := addFrame_returns (twin.first.next room) also twin.trails.slots
    have ran : c.appendFrame f = some (if f.header.nTruncate ≠ 0 then (c.advance (c.chained f) other).publish f.header.nTruncate
        else c.advance (c.chained f) other) := by
      rw [Cursor.appendFrame, if_neg (by simp [fine]), if_neg (not_not.mpr length)]
      simp only [added, Option.map_some, sized]
    have next := twin.advance data room added also
    have moved : (on c b).advance ((on c b).chained f) shm =
        on (c.advance (c.chained f) other) ((on c b).advance (c.chained f) shm).appender := advance_on size _ _ _
    rw [ran, shape, moved]
    split
    · exact ⟨_, n + 1, _, rfl, rfl, next.publish _, Nat.le_refl _⟩
    · exact ⟨_, n + 1, _, rfl, rfl, next, Nat.le_refl _⟩

theorem Twin.run {frames : List Frame} (twin : Twin n stored c b) (room : n + frames.length < 2 ^ 32)
    (ran : frames.foldlM Cursor.appendFrame (on c b) = some e) :
    ∃ g m latest, frames.foldlM Cursor.appendFrame c = some g ∧ e = on g e.appender ∧ Twin m latest g e.appender := by
  induction frames generalizing n stored c b with
  | nil =>
    cases ran
    exact ⟨c, n, stored, rfl, rfl, twin⟩
  | cons f rest ih =>
    rw [List.length_cons] at room
    rw [List.foldlM_cons] at ran
    obtain ⟨d, appended, remaining⟩ := Option.bind_eq_some_iff.mp ran
    obtain ⟨g, m, latest, first, same, next, near⟩ := twin.append (by omega) appended
    rw [same] at remaining
    obtain ⟨last, m', latest', looped, ended, after⟩ := ih next (by omega) remaining
    refine ⟨last, m', latest', ?_, ended, after⟩
    rw [List.foldlM_cons, first]
    exact looped

end Twin

theorem appendFramesUnderLockChan_eq {a : WALAppender} {hdr : Header} (header : a.shm.readHeader = some hdr) (chance : Chance)
    (frames : List Delivery) : appendFramesUnderLockChan a true chance {} frames =
      (frames.foldlM appendFrame (Cursor.start (a.rewindLogIfBackfilled hdr chance).1 (a.rewindLogIfBackfilled hdr chance).2)).map
        fun c => (c.appender, c.retErr) := by
  have same : rewindLogIfBackfilled a hdr chance {} =
      ((a.rewindLogIfBackfilled hdr chance).1, .ok (a.rewindLogIfBackfilled hdr chance).2) := by
    unfold rewindLogIfBackfilled WALAppender.rewindLogIfBackfilled
    split
    · rfl
    · simp only
      split <;> rfl
  simp only [appendFramesUnderLockChan, enter, header, Option.map_some, same, Option.bind_some, if_neg (show ¬ true = false by simp)]

private theorem rewind_trails {w b : WALAppender} {hdr : Header} (trails : Trails hdr.maxFrame.toNat w b) (chance : Chance) :
    (b.rewindLogIfBackfilled hdr chance).2 = (w.rewindLogIfBackfilled hdr chance).2 ∧
      Trails (w.rewindLogIfBackfilled hdr chance).2.maxFrame.toNat (w.rewindLogIfBackfilled hdr chance).1
        (b.rewindLogIfBackfilled hdr chance).1 := by
  unfold WALAppender.rewindLogIfBackfilled
  rw [trails.info]
  split
  · exact ⟨rfl, trails⟩
  split
  · exact ⟨rfl, trails⟩
  · have same : (b.rewind hdr chance).2 = (w.rewind hdr chance).2 := by
      simp only [WALAppender.rewind, WALAppender.writeWALFileHeader, SharedMemory.writeHeader, trails.pageSize]
    refine ⟨same, trails.pageSize, trails.db, ?_, ?_, ?_, ?_⟩
    · have one : (w.rewind hdr chance).1.shm.readHeader = some (w.rewind hdr chance).2 :=
        (readHeader_writeCheckpointInfo _ _).trans (readHeader_writeHeader _ _)
      have two : (b.rewind hdr chance).1.shm.readHeader = some (b.rewind hdr chance).2 :=
        (readHeader_writeCheckpointInfo _ _).trans (readHeader_writeHeader _ _)
      rw [one, two, same]
    · have one : (w.rewind hdr chance).1.shm.readCheckpointInfo = w.shm.readCheckpointInfo.resetForRewind :=
        readCheckpointInfo_writeCheckpointInfo _ _
      have two : (b.rewind hdr chance).1.shm.readCheckpointInfo = b.shm.readCheckpointInfo.resetForRewind :=
        readCheckpointInfo_writeCheckpointInfo _ _
      rw [one, two, trails.info]
    · intro m positive inside
      exact absurd (Nat.le_trans positive inside) (Nat.not_succ_le_zero 0)
    · intro regionID early
      exact absurd early (Nat.not_lt_zero _)

/-- The next call on an appender that has gone on, and on the one it has gone on from. -/
theorem call_trails {w b c : WALAppender} {hdr : Header} {chance : Chance} {frames : List Frame} {err : Option String}
    (header : w.shm.readHeader = some hdr) (trails : Trails hdr.maxFrame.toNat w b)
    (room : hdr.maxFrame.toNat + frames.length < 2 ^ 32) (ran : b.appendFramesLocked chance frames = some (c, err)) :
    ∃ d latest, w.appendFramesLocked chance frames = some (d, err) ∧ d.shm.readHeader = some latest ∧
      c.shm.readHeader = some latest ∧ c.log latest = d.log latest := by
  have header' : b.shm.readHeader = some hdr := trails.header.trans header
  obtain ⟨same, rewound⟩ := rewind_trails trails chance
  have started := started_rewindLogIfBackfilled header chance
  have fewer := started.fewer
  simp only [WALAppender.appendFramesLocked, header', Option.bind_some, same] at ran
  obtain ⟨e, looped, ended⟩ := Option.map_eq_some_iff.mp ran
  cases ended
  have moved : Cursor.start (b.rewindLogIfBackfilled hdr chance).1 (w.rewindLogIfBackfilled hdr chance).2 =
      on (Cursor.start (w.rewindLogIfBackfilled hdr chance).1 (w.rewindLogIfBackfilled hdr chance).2)
        (b.rewindLogIfBackfilled hdr chance).1 := by
    simp only [on, Cursor.start, rewound.pageSize]
  have second := loop_start (started_rewindLogIfBackfilled header' chance).header
  rw [same, moved] at second
  rw [moved] at looped
  obtain ⟨g, m, latest, ran', shape, after⟩ :=
    Twin.run ⟨loop_start started.header, second, Nat.le_refl _, rewound⟩ (by omega) looped
  refine ⟨g.appender, latest, ?_, after.first.header, after.second.header, after.trails.log after.published⟩
  have outcome : e.retErr = g.retErr := by rw [shape, on]
  simp only [WALAppender.appendFramesLocked, header, Option.bind_some, ran', Option.map_some, outcome]

private theorem appendFrame_delivered (c : Cursor) (f : Frame) : appendFrame c ⟨f, none⟩ = c.appendFrame f := by
  unfold appendFrame
  split <;> rfl

theorem foldlM_delivered (frames : List Frame) (c : Cursor) :
    (frames.map fun f => (⟨f, none⟩ : Delivery)).foldlM appendFrame c = frames.foldlM Cursor.appendFrame c := by
  induction frames generalizing c with
  | nil => rfl
  | cons f rest ih =>
    rw [List.map_cons, List.foldlM_cons, List.foldlM_cons, appendFrame_delivered]
    exact congrArg (c.appendFrame f).bind (funext ih)

theorem appendFramesUnderLockChan_plain {a : WALAppender} {hdr : Header} (header : a.shm.readHeader = some hdr) (chance : Chance)
    (frames : List Frame) : appendFramesUnderLockChan a true chance {} (frames.map fun f => ⟨f, none⟩) =
      a.appendFramesLocked chance frames := by
  rw [appendFramesUnderLockChan_eq header, foldlM_delivered]
  simp only [WALAppender.appendFramesLocked, header, Option.bind_some]

section Reads
variable {a b : WALAppender} {hdr : Header} {chance : Chance}

private theorem rewind_agrees {m : Nat} (agrees : Agrees a m) (more : hdr.maxFrame.toNat ≤ m) (chance : Chance) :
    ∃ k, (a.rewindLogIfBackfilled hdr chance).2.maxFrame.toNat ≤ k ∧ Agrees (a.rewindLogIfBackfilled hdr chance).1 k ∧
      (m = hdr.maxFrame.toNat → k = (a.rewindLogIfBackfilled hdr chance).2.maxFrame.toNat) := by
  unfold WALAppender.rewindLogIfBackfilled
  split
  · exact ⟨m, more, agrees, id⟩
  split
  · exact ⟨m, more, agrees, id⟩
  · exact ⟨0, Nat.le_refl 0, agrees_start _, fun _ => rfl⟩

/-- A call with or without errors, from tables that list the published frames. -/
theorem call_agrees {frames : List Delivery} {err : Option String} {latest : Header} (header : a.shm.readHeader = some hdr)
    (agrees : Agrees a hdr.maxFrame.toNat) (room : hdr.maxFrame.toNat + frames.length < 2 ^ 32)
    (ran : appendFramesUnderLockChan a true chance {} frames = some (b, err)) (published : b.shm.readHeader = some latest) :
    ∃ m, latest.maxFrame.toNat ≤ m ∧ Agrees b m := by
  obtain ⟨k, -, rewound, exactly⟩ := rewind_agrees agrees (Nat.le_refl _) chance
  obtain rfl := exactly rfl
  have started := started_rewindLogIfBackfilled header chance
  have fewer := started.fewer
  rw [appendFramesUnderLockChan_eq header] at ran
  obtain ⟨d, looped, ended⟩ := Option.map_eq_some_iff.mp ran
  cases ended
  obtain ⟨-, g, found, -, -, last, bound, trails⟩ := run_trails (loop_start started.header) (Nat.le_refl _) rfl (by omega) looped
  obtain ⟨m, beyond, after⟩ := run_agrees (loop_start started.header) rfl (by omega) rewound looped
  obtain rfl : found = latest := Option.some.inj ((trails.header.trans last.header).symm.trans published)
  exact ⟨m, Nat.le_trans bound beyond, after⟩

private theorem call_reads {frames : List Frame} {err : Option String} {latest : Header} (header : a.shm.readHeader = some hdr)
    (agrees : Agrees a hdr.maxFrame.toNat) (room : hdr.maxFrame.toNat + frames.length < 2 ^ 32)
    (ran : a.appendFramesLocked chance frames = some (b, err)) (published : b.shm.readHeader = some latest) : Reads b latest := by
  have delivered := (appendFramesUnderLockChan_plain header chance frames).trans ran
  obtain ⟨m, more, after⟩ := call_agrees header agrees (by rw [List.length_map]; exact room) delivered published
  exact after.reads more

/-- The next call, from tables that may list more than the published frames, if nothing of
that is in its way. -/
theorem retry_reads {m : Nat} {frames : List Frame} {err : Option String} {latest : Header} (header : a.shm.readHeader = some hdr)
    (agrees : Agrees a m) (more : hdr.maxFrame.toNat ≤ m) (clear : Clear a.shm hdr.maxFrame)
    (room : hdr.maxFrame.toNat + frames.length < 2 ^ 32) (ran : a.appendFramesLocked chance frames = some (b, err))
    (published : b.shm.readHeader = some latest) : Reads b latest := by
  cases frames with
  | nil =>
    obtain ⟨k, above, rewound, -⟩ := rewind_agrees agrees more chance
    have started := started_rewindLogIfBackfilled header chance
    simp only [WALAppender.appendFramesLocked, header, Option.bind_some] at ran
    cases ran
    obtain rfl : (a.rewindLogIfBackfilled hdr chance).2 = latest := Option.some.inj (started.header.symm.trans published)
    exact rewound.reads above
  | cons f rest =>
    rw [List.length_cons] at room
    have exactly : Agrees a hdr.maxFrame.toNat :=
      ⟨agrees.ordered.clear more (by omega) clear, fun m positive inside => agrees.pages m positive (Nat.le_trans inside more)⟩
    exact call_reads header exactly (by rw [List.length_cons]; omega) ran published

end Reads

/-- A call in which frames fail publishes what the whole transactions before the first failure
alone would. -/
theorem call_whole {a b : WALAppender} {hdr : Header} {chance : Chance} {frames : List Delivery} {err : Option String}
    (header : a.shm.readHeader = some hdr) (room : hdr.maxFrame.toNat + frames.length < 2 ^ 32)
    (ran : appendFramesUnderLockChan a true chance {} frames = some (b, err)) :
    (err = none ↔ ∀ d ∈ frames, d.fails a.pageSize = false) ∧
      ∃ w latest, a.appendFramesLocked chance (whole a.pageSize frames) = some (w, none) ∧
        w.shm.readHeader = some latest ∧ Trails latest.maxFrame.toNat w b := by
  have started := started_rewindLogIfBackfilled header chance
  have fewer := started.fewer
  have size : (a.rewindLogIfBackfilled hdr chance).1.pageSize = a.pageSize := started.pageSize
  rw [appendFramesUnderLockChan_eq header] at ran
  obtain ⟨d, looped, ended⟩ := Option.map_eq_some_iff.mp ran
  cases ended
  obtain ⟨outcome, g, latest, whole_, good, last, bound, trails⟩ :=
    run_trails (loop_start started.header) (Nat.le_refl _) rfl (by omega) looped
  rw [show (Cursor.start (a.rewindLogIfBackfilled hdr chance).1 (a.rewindLogIfBackfilled hdr chance).2).appender.pageSize =
    a.pageSize from size] at outcome whole_ bound trails
  refine ⟨outcome, g.appender, latest, ?_, last.header, trails.mono bound⟩
  simp only [WALAppender.appendFramesLocked, header, Option.bind_some, whole_, Option.map_some, good]

/-- An append in which frames fail publishes what it would have published of the whole
transactions before the first failure alone. A later append gives the same header and log as
if the other frames had never been written, and readers see that log if the wal-index held
nothing of them where it went on. -/
theorem failed_append {a b : WALAppender} {hdr : Header} {chance : Chance} {frames : List Delivery} {err : Option String}
    (header : a.shm.readHeader = some hdr) (room : hdr.maxFrame.toNat + frames.length < 2 ^ 32)
    (ran : appendFramesUnderLockChan a true chance {} frames = some (b, err)) :
    (err = none ↔ ∀ d ∈ frames, d.fails a.pageSize = false) ∧
      ∃ w latest, a.appendFramesLocked chance (whole a.pageSize frames) = some (w, none) ∧
        w.shm.readHeader = some latest ∧ b.shm.readHeader = some latest ∧ b.log latest = w.log latest ∧
        (Agrees a hdr.maxFrame.toNat → Reads b latest) ∧
        ∀ chance' later c err', latest.maxFrame.toNat + later.length < 2 ^ 32 →
          b.appendFramesLocked chance' later = some (c, err') →
            ∃ d final, w.appendFramesLocked chance' later = some (d, err') ∧ d.shm.readHeader = some final ∧
              c.shm.readHeader = some final ∧ c.log final = d.log final ∧
              (Agrees a hdr.maxFrame.toNat → Clear b.shm latest.maxFrame → Reads c final) := by
  obtain ⟨outcome, w, latest, whole_, last, trails⟩ := call_whole header room ran
  have published : b.shm.readHeader = some latest := trails.header.trans last
  have agreed (agrees : Agrees a hdr.maxFrame.toNat) := call_agrees header agrees room ran published
  refine ⟨outcome, w, latest, whole_, last, published, trails.log (Nat.le_refl _), fun agrees => ?_, ?_⟩
  · obtain ⟨m, more, after⟩ := agreed agrees
    exact after.reads more
  · intro chance' later c err' fits next
    obtain ⟨e, final, also, one, two, log⟩ := call_trails last trails fits next
    refine ⟨e, final, also, one, two, log, fun agrees clear => ?_⟩
    obtain ⟨m, more, after⟩ := agreed agrees
    exact retry_reads published after more clear fits next two

def cutOff : List Delivery := [⟨image 2 1 0, none⟩, ⟨image 1 1 2, some (.data 100 "no space left on device")⟩]

theorem failed_append_retried : ∃ start b c hdr final err,
    (WALAppender.fresh 512 twoPages).maybeBootstrap 0 1 2 = some (.ok start) ∧ start.shm.readHeader = some hdr ∧
    appendFramesUnderLockChan start true ⟨false, 0, 0⟩ {} cutOff = some (b, some err) ∧ b.shm.readHeader = some hdr ∧
    b.appendFramesLocked ⟨false, 0, 0⟩ [image 1 2 0, image 1 3 2] = some (c, none) ∧ c.shm.readHeader = some final ∧
    final.maxFrame = 2 ∧ Reads c final := by
  obtain ⟨start, booted⟩ := bootstrap_fresh 512 1 2 twoPages (Nat.zero_le _)
  have explicit := bootstrap_eq booted
  have found : ((appendFramesUnderLockChan start true ⟨false, 0, 0⟩ {} cutOff).bind fun failed =>
      failed.1.shm.readHeader.bind fun latest =>
        (failed.1.appendFramesLocked ⟨false, 0, 0⟩ [image 1 2 0, image 1 3 2]).bind fun next =>
          next.1.shm.readHeader.map fun final =>
            (failed.2.isSome, latest.maxFrame, next.2, final.maxFrame, decide (start.shm.readHeader = some latest))) =
      some (true, 0, none, 2, true) := by
    subst explicit
    decide +kernel
  obtain ⟨⟨b, outcome⟩, failed, found⟩ := Option.bind_eq_some_iff.mp found
  obtain ⟨latest, published, found⟩ := Option.bind_eq_some_iff.mp found
  obtain ⟨⟨c, done⟩, next, found⟩ := Option.bind_eq_some_iff.mp found
  obtain ⟨final, stored, found⟩ := Option.map_eq_some_iff.mp found
  simp only [Prod.mk.injEq, decide_eq_true_eq] at found
  obtain ⟨isError, zero, rfl, two, header⟩ := found
  obtain ⟨err, rfl⟩ := Option.isSome_iff_exists.mp isError
  have agrees : Agrees start latest.maxFrame.toNat := by
    rw [zero]
    exact agrees_start start
  obtain ⟨-, w, other, -, -, same, -, -, retry⟩ := failed_append header (by rw [zero]; decide) failed
  obtain rfl : other = latest := Option.some.inj (same.symm.trans published)
  obtain ⟨d, last, -, -, stored', -, seen⟩ := retry ⟨false, 0, 0⟩ [image 1 2 0, image 1 3 2] c none (by rw [zero]; decide) next
  obtain rfl : last = final := Option.some.inj (stored'.symm.trans stored)
  refine ⟨start, b, c, other, last, err, booted, header, failed, same, next, stored, two, seen agrees (.inl ?_)⟩
  rw [zero]
  decide

def wide : Database Bytes := ⟨8000, fun _ => List.replicate 512 0⟩

/-- The first frame of a call that fails at its second is page 7038, whose entry comes right
behind those of the next call's page 7808. -/
def leftBehind : List Delivery :=
  [⟨image 7038 1 0, none⟩, ⟨image 3 1 8000, some (.header 10 "no space left on device")⟩]

/-- The next call writes page 7808 twice. Its readers find the first of the two. -/
theorem failed_append_seen : ∃ start a b c hdr final err,
    (WALAppender.fresh 512 wide).maybeBootstrap 0 1 2 = some (.ok start) ∧
    start.appendFramesLocked ⟨true, 0, 0⟩ [image 2 1 8000] = some (a, none) ∧ a.shm.readHeader = some hdr ∧
    appendFramesUnderLockChan a true ⟨true, 0, 0⟩ {} leftBehind = some (b, some err) ∧ b.shm.readHeader = some hdr ∧
    b.appendFramesLocked ⟨true, 0, 0⟩ [image 7808 2 8000, image 7808 3 8000] = some (c, none) ∧
    c.shm.readHeader = some final ∧ ((c.log final).visible.page 7808).head? = some 3 ∧
    (readPage c final 7808).map List.head? = some (some 2) := by
  obtain ⟨start, booted⟩ := bootstrap_fresh 512 1 2 wide (Nat.zero_le _)
  have explicit := bootstrap_eq booted
  have found : ((start.appendFramesLocked ⟨true, 0, 0⟩ [image 2 1 8000]).bind fun a => a.1.shm.readHeader.bind fun hdr =>
      (appendFramesUnderLockChan a.1 true ⟨true, 0, 0⟩ {} leftBehind).bind fun b =>
        (b.1.appendFramesLocked ⟨true, 0, 0⟩ [image 7808 2 8000, image 7808 3 8000]).bind fun c =>
          c.1.shm.readHeader.map fun final =>
            (a.2, b.2.isSome, c.2, decide (b.1.shm.readHeader = some hdr ∧
              ((c.1.log final).visible.page 7808).head? = some 3 ∧ (readPage c.1 final 7808).map List.head? = some (some 2)))) =
      some (none, true, none, true) := by
    subst explicit
    decide +kernel
  obtain ⟨⟨a, fine⟩, first, found⟩ := Option.bind_eq_some_iff.mp found
  obtain ⟨hdr, header, found⟩ := Option.bind_eq_some_iff.mp found
  obtain ⟨⟨b, outcome⟩, failed, found⟩ := Option.bind_eq_some_iff.mp found
  obtain ⟨⟨c, done⟩, next, found⟩ := Option.bind_eq_some_iff.mp found
  obtain ⟨final, stored, found⟩ := Option.map_eq_some_iff.mp found
  simp only [Prod.mk.injEq, decide_eq_true_eq] at found
  obtain ⟨rfl, isError, rfl, same, visible, seen⟩ := found
  obtain ⟨err, rfl⟩ := Option.isSome_iff_exists.mp isError
  exact ⟨start, a, b, c, hdr, final, err, booted, first, header, failed, same, next, stored, visible, seen⟩

end Literaft.Proofs.Faults
