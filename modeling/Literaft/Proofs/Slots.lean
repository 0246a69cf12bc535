import Literaft.Proofs.Filing
import Literaft.Proofs.Store
import Literaft.Batches

/-! How full the hash tables get. Every frame that is added takes one slot of its region,
whether it is published or not, and only the first frame of a region gives them back. -/

namespace Literaft.Proofs.Slots
open Library Wal Shm WalAppender Literaft.Lookup Literaft.Store Index Appender Calls Lookup Filing Proofs.Store
open Literaft.Batches (tally callFrames addedFrames)

variable {s t : SharedMemory} {frameIdx pgNo : UInt32}

theorem addFrame_slots (positive : 1 ≤ frameIdx.toNat) (added : s.addFrame frameIdx pgNo = some t) (regionID : Nat) :
    slotsUsed t regionID = tally regionID (slotsUsed s regionID) frameIdx := by
  rw [addFrame_used positive added, tally, regionForFrame_eq]
  split
  · next current =>
    rw [← current, frameZero_place positive]
    split <;> rfl
  · rfl

private theorem loop_slots {frames : List Frame} {n : Nat} {stored : Header} {c d : Cursor} (loop : Loop n stored c)
    (fine : c.retErr = none)
    (room : n + (accepted c.appender.pageSize frames).length < 2 ^ 32) (ran : frames.foldlM Cursor.appendFrame c = some d)
    (regionID : Nat) : slotsUsed d.appender.shm regionID =
      ((List.range' (n + 1) (accepted c.appender.pageSize frames).length).map UInt32.ofNat).foldl (tally regionID)
        (slotsUsed c.appender.shm regionID) := by
  induction frames generalizing n stored c with
  | nil =>
    cases ran
    rw [accepted, List.takeWhile_nil, List.length_nil, List.range'_zero, List.map_nil, List.foldl_nil]
  | cons f rest ih =>
    rw [List.foldlM_cons] at ran
    obtain ⟨e, appended, remaining⟩ := Option.bind_eq_some_iff.mp ran
    by_cases length : f.data.length = c.appender.pageSize.toNat
    · have split : accepted c.appender.pageSize (f :: rest) = f :: accepted c.appender.pageSize rest := by
        simp [accepted, length]
      rw [split, List.length_cons] at room ⊢
      obtain ⟨good, kept, -, latest, next, -⟩ := loop.append fine length (by omega) appended
      rw [ih next good (by rw [kept.pageSize]; omega) remaining, kept.pageSize, List.range'_succ, List.map_cons, List.foldl_cons]
      rcases appendFrame_cases appended with ⟨failed, -⟩ | ⟨-, wrong, -⟩ | ⟨-, -, shm, added, shape⟩
      · simp [fine] at failed
      · exact absurd length wrong
      · have number := loop.next (show n + 1 < 2 ^ 32 by omega)
        have same : c.currentFrameIdx + 1 = UInt32.ofNat (n + 1) := by
          rw [← number, UInt32.ofNat_toNat]
        have more : slotsUsed e.appender.shm regionID = slotsUsed shm regionID := by
          rw [shape]
          split
          · exact slotsUsed_tables (writeHeader_tables _ _) regionID
          · rfl
        rw [more, addFrame_slots (by omega) added, same]
    · have nothing : accepted c.appender.pageSize (f :: rest) = [] := by simp [accepted, length]
      rw [nothing, List.length_nil, List.range'_zero, List.map_nil, List.foldl_nil]
      rcases appendFrame_cases appended with ⟨failed, -⟩ | ⟨-, -, message, rfl⟩ | ⟨-, right, -⟩
      · simp [fine] at failed
      · obtain rfl := Option.some.inj ((failed_returns rfl).symm.trans remaining)
        rfl
      · exact absurd right length

section Run
variable {a b : WALAppender} {hdr : Header}

private theorem rewindLogIfBackfilled_slots (chance : Chance) (regionID : Nat) :
    slotsUsed (a.rewindLogIfBackfilled hdr chance).1.shm regionID = slotsUsed a.shm regionID := by
  unfold WALAppender.rewindLogIfBackfilled
  split
  · rfl
  · split
    · rfl
    · exact (slotsUsed_tables (writeCheckpointInfo_tables _ _) regionID).trans (slotsUsed_tables (writeHeader_tables _ _) regionID)

private theorem call_slots {chance : Chance} {frames : List Frame} {err : Option String} (header : a.shm.readHeader = some hdr)
    (room : hdr.maxFrame.toNat + frames.length < 2 ^ 32) (ran : a.appendFramesLocked chance frames = some (b, err)) (regionID : Nat) :
    slotsUsed b.shm regionID = (callFrames a chance frames).foldl (tally regionID) (slotsUsed a.shm regionID) := by
  have started := started_rewindLogIfBackfilled header chance
  have fewer := started.fewer
  have short := accepted_le a.pageSize frames
  simp only [WALAppender.appendFramesLocked, header, Option.bind_some] at ran
  obtain ⟨d, looped, ended⟩ := Option.map_eq_some_iff.mp ran
  cases ended
  have slots := loop_slots (loop_start started.header) rfl (by
    show _ + (accepted (a.rewindLogIfBackfilled hdr chance).1.pageSize frames).length < _
    rw [started.pageSize]
    omega) looped regionID
  have same := @rewindLogIfBackfilled_slots a hdr chance regionID
  rw [slots, callFrames, header, Option.elim_some, Cursor.start, same, started.pageSize, accepted]

theorem exec_slots {operations : List Operation} (header : a.shm.readHeader = some hdr) (room : fits a operations)
    (executed : exec step a operations = some b) (regionID : Nat) :
    slotsUsed b.shm regionID = (addedFrames a operations).foldl (tally regionID) (slotsUsed a.shm regionID) := by
  induction operations generalizing a hdr with
  | nil =>
    cases executed
    rw [addedFrames, List.foldl_nil]
  | cons operation rest ih =>
    obtain ⟨middle, first, remaining⟩ := Option.bind_eq_some_iff.mp executed
    have later := room.2 middle first
    cases operation with
    | append chance frames =>
      rw [addedFrames, first, Option.elim_some, List.foldl_append]
      have fits := room.1 frames hdr rfl header
      have short := accepted_le a.pageSize frames
      rw [step] at first
      obtain ⟨⟨_, err⟩, ran, rfl⟩ := Option.map_eq_some_iff.mp first
      obtain ⟨-, -, latest, -, published, -⟩ := call_log header (by omega) ran
      rw [ih published later remaining, call_slots header fits ran]
    | checkpoint n =>
      rw [addedFrames, first, Option.elim_some, List.nil_append]
      rw [step, Option.some.injEq] at first
      subst first
      rw [ih ((checkpoint_settles header n).header header) later remaining]
      have same : slotsUsed (a.checkpoint n).shm regionID = slotsUsed a.shm regionID := by
        rw [WALAppender.checkpoint, header, Option.elim_some]
        split
        · rfl
        · exact slotsUsed_tables (writeCheckpointInfo_tables _ _) regionID
      rw [same]

theorem bootstrap_slots {pageSize salt1 salt2 : UInt32} {db : Database Bytes} {walSize : Nat}
    (booted : (WALAppender.fresh pageSize db).maybeBootstrap walSize salt1 salt2 = some (.ok a)) (regionID : Nat) :
    slotsUsed a.shm regionID = 0 := by
  rw [bootstrap_eq booted]
  refine (slotsUsed_tables (writeHeader_tables _ _) regionID).trans (occupied_none fun slot _ => ?_)
  rw [slotUsed, Storage.read_zeros]
  rfl

/-- After any run of appends, the next `AddFrame` returns exactly when the frame is the first
of its region or fewer frames than there are slots were added since the region's first. -/
theorem addFrame_returns_iff {pageSize salt1 salt2 frameIdx pgNo : UInt32} {db : Database Bytes} {walSize : Nat}
    {operations : List Operation} (booted : (WALAppender.fresh pageSize db).maybeBootstrap walSize salt1 salt2 = some (.ok a))
    (room : fits a operations) (executed : exec step a operations = some b) (positive : 1 ≤ frameIdx.toNat) :
    (b.shm.addFrame frameIdx pgNo).isSome ↔ (frameIdx - frameZeroForRegion (regionForFrame frameIdx)).toNat = 1 ∨
      (addedFrames a operations).foldl (tally (regionForFrame frameIdx)) 0 < hashtableSlotCount := by
  obtain ⟨hdr, ready, -⟩ := bootstrap_ready booted
  rw [addFrame_isSome positive, exec_slots ready.header room executed, bootstrap_slots booted, regionForFrame_eq,
    frameZero_place positive]

private theorem append_plain {f : Frame} (header : a.shm.readHeader = some hdr) (length : f.data.length = a.pageSize.toNat)
    (plain : f.header.nTruncate = 0) :
    a.appendFramesLocked ⟨true, 0, 0⟩ [f] = (a.shm.addFrame (hdr.maxFrame + 1) f.header.pgNo).map fun shm =>
      (((Cursor.start a hdr).advance ((Cursor.start a hdr).chained f) shm).appender, none) := by
  have page : ((Cursor.start a hdr).chained f).header.pgNo = f.header.pgNo :=
    UInt32.toNat_inj.mp (congrArg Prod.fst (chained_kept (Cursor.start a hdr) f).1)
  have size := (chained_kept (Cursor.start a hdr) f).2
  have step : (Cursor.start a hdr).appendFrame f = (a.shm.addFrame (hdr.maxFrame + 1) f.header.pgNo).map fun shm =>
      (Cursor.start a hdr).advance ((Cursor.start a hdr).chained f) shm := by
    have fine : ¬ (Cursor.start a hdr).retErr.isSome = true := Bool.false_ne_true
    have right : ¬ f.data.length ≠ (Cursor.start a hdr).appender.pageSize.toNat := not_not.mpr length
    rw [Cursor.appendFrame, if_neg fine, if_neg right]
    simp only [size, plain, ne_eq, not_true_eq_false, if_false, page]
    rfl
  have kept : a.rewindLogIfBackfilled hdr ⟨true, 0, 0⟩ = (a, hdr) := if_pos rfl
  rw [WALAppender.appendFramesLocked, header, Option.bind_some]
  simp only [kept, List.foldlM_cons, List.foldlM_nil, step]
  cases a.shm.addFrame (hdr.maxFrame + 1) f.header.pgNo <;> rfl

end Run

/-- A frame behind the first that is given up again and again. -/
def givenUp : Operation := .append ⟨true, 0, 0⟩ [image 2 1 0]

private theorem givenUp_slots {a : WALAppender} {hdr : Header} (header : a.shm.readHeader = some hdr) (one : hdr.maxFrame = 1)
    (size : a.pageSize = 512) {k : Nat} (room : slotsUsed a.shm 0 + k ≤ hashtableSlotCount) :
    ∃ b, exec step a (List.replicate k givenUp) = some b ∧ b.shm.readHeader = some hdr ∧ b.pageSize = 512 ∧
      slotsUsed b.shm 0 = slotsUsed a.shm 0 + k := by
  induction k generalizing a with
  | zero => exact ⟨a, rfl, header, size, (Nat.add_zero _).symm⟩
  | succ k ih =>
    have two : (hdr.maxFrame + 1).toNat = 2 := by rw [one]; rfl
    have free : (a.shm.addFrame (hdr.maxFrame + 1) (image 2 1 0).header.pgNo).isSome := by
      rw [addFrame_isSome (by omega), two]
      exact .inr (show slotsUsed a.shm 0 < hashtableSlotCount by omega)
    obtain ⟨shm, added⟩ := Option.isSome_iff_exists.mp free
    have ran := append_plain header (f := image 2 1 0) (by rw [size]; exact List.length_replicate) rfl
    rw [added, Option.map_some] at ran
    have more : slotsUsed shm 0 = slotsUsed a.shm 0 + 1 := by
      rw [addFrame_slots (by omega) added 0, one, tally, if_pos (by decide), if_neg (by decide)]
    obtain ⟨b, ran, same⟩ : ∃ b : WALAppender, a.appendFramesLocked ⟨true, 0, 0⟩ [image 2 1 0] = some (b, none) ∧
        b.shm = shm ∧ b.pageSize = 512 := ⟨_, ran, rfl, size⟩
    have stepped : step a givenUp = some b := by rw [givenUp, step, ran, Option.map_some]
    have low := addFrame_low (by omega) added
    have kept : b.shm.readHeader = some hdr := by
      rw [same.1, @readHeader_congr shm a.shm fun address below => low address (by simp only [headerSize]; omega)]
      exact header
    rw [← same.1] at more
    obtain ⟨d, ran, final, still, used⟩ := ih kept same.2 (by omega)
    refine ⟨d, ?_, final, still, by omega⟩
    rw [List.replicate_succ, exec, stepped]
    exact ran

/-- One committed frame and 8191 that are given up fill the first table: the next append
never returns. -/
theorem table_filled : ∃ start b, (WALAppender.fresh 512 twoPages).maybeBootstrap 0 1 2 = some (.ok start) ∧
    exec step start (.append ⟨true, 0, 0⟩ [image 1 1 2] :: List.replicate 8191 givenUp) = some b ∧
    b.shm.addFrame 2 2 = none ∧ b.appendFramesLocked ⟨true, 0, 0⟩ [image 2 1 0] = none := by
  obtain ⟨start, booted⟩ := bootstrap_fresh 512 1 2 twoPages (Nat.zero_le _)
  have explicit := bootstrap_eq booted
  obtain ⟨first, ready, size, log⟩ := bootstrap_ready booted
  have zero : first.maxFrame.toNat = 0 := by rw [← log_length start first, log, List.length_nil]
  have found : ((step start (.append ⟨true, 0, 0⟩ [image 1 1 2])).bind fun a => a.shm.readHeader.map fun hdr =>
      (hdr.maxFrame, addedFrames start [.append ⟨true, 0, 0⟩ [image 1 1 2]], a.pageSize)) = some (1, [1], 512) := by
    subst explicit
    decide +kernel
  obtain ⟨a, stepped, found⟩ := Option.bind_eq_some_iff.mp found
  obtain ⟨hdr, header, found⟩ := Option.map_eq_some_iff.mp found
  simp only [Prod.mk.injEq] at found
  obtain ⟨one, frames, same⟩ := found
  have executed : exec step start [.append ⟨true, 0, 0⟩ [image 1 1 2]] = some a := by rw [exec, stepped]; rfl
  have used := exec_slots ready.header (fits_total ready.header (by rw [zero]; decide)) executed 0
  rw [frames, bootstrap_slots booted, List.foldl_cons, List.foldl_nil, tally, if_pos (by decide), if_pos (by decide)] at used
  obtain ⟨b, ran, still, sized, full⟩ := givenUp_slots header one same
    (show slotsUsed a.shm 0 + 8191 ≤ hashtableSlotCount by rw [used]; decide)
  have none_ : b.shm.addFrame 2 2 = none := by
    refine Option.not_isSome_iff_eq_none.mp fun returns => ?_
    rcases (addFrame_isSome (by decide)).mp returns with fresh | free
    · exact absurd fresh (by decide)
    · have free : slotsUsed b.shm 0 < 8192 := free
      omega
  refine ⟨start, b, booted, ?_, none_, ?_⟩
  · rw [exec, stepped, Option.bind_some, ran]
  · have page : (image 2 1 0).header.pgNo = 2 := rfl
    have two : (1 : UInt32) + 1 = 2 := by decide
    rw [append_plain still (by rw [sized]; exact List.length_replicate) rfl, one, page, two, none_, Option.map_none]

/-- The frame after one that was given up. -/
theorem addFrame_returns_again : ∃ start b, (WALAppender.fresh 512 twoPages).maybeBootstrap 0 1 2 = some (.ok start) ∧
    exec step start [.append ⟨true, 0, 0⟩ [image 1 1 2], givenUp] = some b ∧ (b.shm.addFrame 2 1).isSome := by
  obtain ⟨start, booted⟩ := bootstrap_fresh 512 1 2 twoPages (Nat.zero_le _)
  have explicit := bootstrap_eq booted
  obtain ⟨hdr, ready, -, log⟩ := bootstrap_ready booted
  have zero : hdr.maxFrame.toNat = 0 := by rw [← log_length start hdr, log, List.length_nil]
  have found : ((exec step start [.append ⟨true, 0, 0⟩ [image 1 1 2], givenUp]).map fun _ =>
      addedFrames start [.append ⟨true, 0, 0⟩ [image 1 1 2], givenUp]) = some [1, 2] := by
    subst explicit
    decide +kernel
  obtain ⟨b, executed, frames⟩ := Option.map_eq_some_iff.mp found
  refine ⟨start, b, booted, executed, ?_⟩
  rw [addFrame_returns_iff booted (fits_total ready.header (by rw [zero]; decide)) executed (by decide), frames]
  exact .inr (by decide)

/-- A node whose last append was given up. One frame is published, and the table still has a slot
for every frame that its region can take. -/
theorem abandoned : ∃ start b hdr, (WALAppender.fresh 512 twoPages).maybeBootstrap 0 1 2 = some (.ok start) ∧
    exec step start [.append ⟨true, 0, 0⟩ [image 1 1 2], givenUp] = some b ∧ Ready b hdr ∧ slotsUsed b.shm 0 = 2 ∧
    b.pageSize = 512 ∧ hdr.maxFrame = 1 ∧ (hdr.isInit = true ∧ 0 < hdr.pageSize) ∧ (b.log hdr).Intact ∧
    (b.log hdr).visible = overwrite twoPages [image 1 1 2] := by
  obtain ⟨start, booted⟩ := bootstrap_fresh 512 1 2 twoPages (Nat.zero_le _)
  have explicit := bootstrap_eq booted
  obtain ⟨first, ready, -, log⟩ := bootstrap_ready booted
  have zero : first.maxFrame.toNat = 0 := by rw [← log_length start first, log, List.length_nil]
  have room : fits start [.append ⟨true, 0, 0⟩ [image 1 1 2]] := fits_total ready.header (by rw [zero]; decide)
  have complete : allComplete 512 twoPages (transactions [.append ⟨true, 0, 0⟩ [image 1 1 2]]) :=
    ⟨⟨by decide +kernel, by decide, by decide +kernel⟩, trivial⟩
  obtain ⟨a, appended, stores⟩ := exec_stores (stores_bootstrap booted) complete room
  have found : ((exec step start [.append ⟨true, 0, 0⟩ [image 1 1 2], givenUp]).bind fun b => b.shm.readHeader.map fun hdr =>
      (addedFrames start [.append ⟨true, 0, 0⟩ [image 1 1 2], givenUp], hdr.maxFrame,
        decide (hdr.isInit = true ∧ 0 < hdr.pageSize))) = some ([1, 2], 1, true) := by
    subst explicit
    decide +kernel
  obtain ⟨b, executed, found⟩ := Option.bind_eq_some_iff.mp found
  obtain ⟨hdr, header, found⟩ := Option.map_eq_some_iff.mp found
  simp only [Prod.mk.injEq, decide_eq_true_eq] at found
  obtain ⟨frames, one, started⟩ := found
  have all : fits start [.append ⟨true, 0, 0⟩ [image 1 1 2], givenUp] := fits_total ready.header (by rw [zero]; decide)
  have two : slotsUsed b.shm 0 = 2 := by
    rw [exec_slots ready.header all executed 0, frames, bootstrap_slots booted]
    decide
  have slots (count : Nat) : FreeSlots b.shm hdr.maxFrame count := by
    have region : Index.segment ((1 : UInt32).toNat + 1) = 0 := by decide
    rw [one, freeSlots_iff (by decide), region, two]
    exact .inr (Nat.le_trans (Nat.add_le_add_left (Nat.min_le_right _ _) 2) (by decide))
  obtain ⟨old, kept, valid, visible⟩ := stores.log
  obtain ⟨_, append, rest⟩ := Option.bind_eq_some_iff.mp appended
  cases rest
  obtain ⟨_, again, rest⟩ := Option.bind_eq_some_iff.mp executed
  obtain rfl := Option.some.inj (append.symm.trans again)
  obtain ⟨_, last, rest⟩ := Option.bind_eq_some_iff.mp rest
  cases rest
  rw [givenUp, step] at last
  obtain ⟨⟨_, err⟩, ran, rfl⟩ := Option.map_eq_some_iff.mp last
  have fewer := accepted_le a.pageSize [image 2 1 0]
  have number := (all.2 _ append).1 [image 2 1 0] old rfl kept.header
  obtain ⟨same, -, latest, published, intact, shown⟩ := call_visible kept.header valid.intact (by omega) ran
  obtain rfl := Option.some.inj (header.symm.trans published)
  have nothing : transaction a.pageSize [image 2 1 0] = none := by
    rw [stores.size]
    decide +kernel
  rw [nothing, Option.elim_none, visible] at shown
  exact ⟨start, _, hdr, booted, executed, ⟨header, slots⟩, two, same.trans stores.size, one, started, intact, shown⟩

end Literaft.Proofs.Slots
