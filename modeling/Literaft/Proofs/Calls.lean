import Literaft.Proofs.Appender

/-! A call of the appender refines a page log that publishes one change, the frames up to
the last commit frame that was written, after a restart if there was a rewind. Without
a commit frame it shows nothing new. -/

namespace Literaft.Proofs.Calls
open Library Wal Shm WalAppender Literaft.Lookup LogFile Index Appender

/-- The header can be read, and no number of frames behind it runs out of slots: what is left of
a log whose appends have all been published. -/
structure Ready (a : WALAppender) (hdr : Header) : Prop where
  header : a.shm.readHeader = some hdr
  slots : ∀ count, FreeSlots a.shm hdr.maxFrame count

theorem loop_start {a : WALAppender} {hdr : Header} (header : a.shm.readHeader = some hdr) :
    Loop hdr.maxFrame.toNat hdr (Cursor.start a hdr) :=
  ⟨rfl, rfl, header⟩

private theorem log_rewind (a : WALAppender) (hdr : Header) (chance : Chance) :
    (a.rewind hdr chance).1.log (a.rewind hdr chance).2 = (a.log hdr).restart 0 := by
  have info : (a.rewind hdr chance).1.shm.readCheckpointInfo = a.shm.readCheckpointInfo.resetForRewind :=
    readCheckpointInfo_writeCheckpointInfo _ _
  rw [WALAppender.log, info]
  rfl

theorem log_length (a : WALAppender) (hdr : Header) : (a.log hdr).frames.length = hdr.maxFrame.toNat :=
  logFrames_length _ _

theorem log_nonempty (a : WALAppender) {hdr : Header} (some_ : hdr.maxFrame ≠ 0) : (a.log hdr).frames ≠ [] := by
  rw [← List.length_pos_iff, log_length]
  exact Nat.pos_of_ne_zero fun zero => some_ (UInt32.toNat_inj.mp zero)

/-- What a call with these frames publishes. -/
def transaction (pageSize : UInt32) (frames : List Frame) : Option (Change Bytes) :=
  (committed (accepted pageSize frames)).map fun found => change found.1 found.2

private theorem transaction_some {pageSize : UInt32} {frames : List Frame} {published : Change Bytes}
    (found : transaction pageSize frames = some published) : published.size ≠ 0 ∧ published.pages ≠ [] := by
  obtain ⟨⟨front, size⟩, marked, rfl⟩ := Option.map_eq_some_iff.mp found
  obtain ⟨-, somePage, sized⟩ := committed_front marked
  exact ⟨fun zero => sized (UInt32.toNat_inj.mp zero), by simpa [change] using somePage⟩

private theorem log_run {a : WALAppender} {hdr : Header} {frames : List Frame} {d : Cursor} (header : a.shm.readHeader = some hdr)
    (room : hdr.maxFrame.toNat + (accepted a.pageSize frames).length < 2 ^ 32)
    (ran : frames.foldlM Cursor.appendFrame (Cursor.start a hdr) = some d) :
    d.appender.pageSize = a.pageSize ∧ (d.retErr = none ↔ accepted a.pageSize frames = frames) ∧
      ∃ latest, d.appender.shm.readHeader = some latest ∧
        d.appender.log latest = (transaction a.pageSize frames).elim (a.log hdr) (a.log hdr).publish := by
  obtain ⟨kept, holds, outcome, latest, published, shown⟩ := (loop_start header).run rfl room ran
  have old : logFrames a.pageSize d.appender.f hdr.maxFrame.toNat = logFrames a.pageSize a.f hdr.maxFrame.toNat :=
    logFrames_congr kept.below
  have same : d.appender.pageSize = a.pageSize := kept.pageSize
  have db : d.appender.db = a.db := kept.db
  have info : d.appender.shm.readCheckpointInfo = a.shm.readCheckpointInfo := kept.info
  refine ⟨same, outcome, latest, published, ?_⟩
  have start : (Cursor.start a hdr).appender.pageSize = a.pageSize := rfl
  rw [start] at shown holds
  cases found : committed (accepted a.pageSize frames) with
  | none =>
    rw [found] at shown
    obtain rfl : latest = hdr := shown
    simp only [transaction, found, Option.map_none, Option.elim_none, WALAppender.log, same, old, db, info]
  | some front =>
    rw [found] at shown
    obtain ⟨mxFrame, pageCount⟩ := shown
    have stored : Holds a.pageSize d.appender.f (hdr.maxFrame.toNat + 1) front.1 := holds.take (committed_front found).1
    have all := logFrames_append stored
    rw [old] at all
    simp only [transaction, found, Option.map_some, Option.elim_some, WALAppender.log, PageLog.publish, change, same, mxFrame,
      pageCount, all, db, info]

/-- The page log a call starts from: the old one, or a new one after a rewind. -/
def Base (log base : PageLog Bytes) : Prop :=
  base = log ∨ log.frames ≠ [] ∧ log.frames.length ≤ log.backfill ∧ base = log.restart 0

theorem Base.visible {log base : PageLog Bytes} (found : Base log base) (intact : log.Intact) :
    base.visible = log.visible ∧ base.Intact := by
  rcases found with rfl | ⟨someFrame, copied, rfl⟩
  · exact ⟨rfl, intact⟩
  · exact ⟨PageLog.visible_restart intact someFrame (Nat.le_antisymm intact.bounded copied) (.inl rfl), .restart log 0⟩

theorem Base.valid {log base : PageLog Bytes} (found : Base log base) (valid : log.Valid) : base.Valid := by
  rcases found with rfl | ⟨someFrame, copied, rfl⟩
  · exact valid
  · exact valid.restart someFrame (Nat.le_antisymm valid.bounded copied) (.inl rfl)

structure Started (a : WALAppender) (hdr : Header) (r : WALAppender × Header) : Prop where
  header : r.1.shm.readHeader = some r.2
  pageSize : r.1.pageSize = a.pageSize
  fewer : r.2.maxFrame.toNat ≤ hdr.maxFrame.toNat
  slots : ∀ count, FreeSlots a.shm hdr.maxFrame count → FreeSlots r.1.shm r.2.maxFrame count
  base : Base (a.log hdr) (r.1.log r.2)

theorem started_rewindLogIfBackfilled {a : WALAppender} {hdr : Header} (header : a.shm.readHeader = some hdr) (chance : Chance) :
    Started a hdr (a.rewindLogIfBackfilled hdr chance) := by
  have untouched : Started a hdr (a, hdr) := ⟨header, rfl, Nat.le_refl _, fun _ => id, .inl rfl⟩
  unfold WALAppender.rewindLogIfBackfilled
  split
  · exact untouched
  split
  · exact untouched
  · next all =>
    obtain ⟨some_, all⟩ := not_or.mp all
    refine ⟨(readHeader_writeCheckpointInfo _ _).trans (readHeader_writeHeader _ _), rfl, Nat.zero_le _,
      fun count _ => freeSlots_start _ count, .inr ⟨log_nonempty a some_, ?_, log_rewind a hdr chance⟩⟩
    rw [log_length]
    exact UInt32.le_iff_toNat_le.mp (UInt32.not_lt.mp all)

section Call
variable {a : WALAppender} {hdr : Header} {chance : Chance} {frames : List Frame}

theorem call_log {b : WALAppender} {err : Option String} (header : a.shm.readHeader = some hdr)
    (room : hdr.maxFrame.toNat + (accepted a.pageSize frames).length < 2 ^ 32)
    (ran : a.appendFramesLocked chance frames = some (b, err)) :
    b.pageSize = a.pageSize ∧ (err = none ↔ accepted a.pageSize frames = frames) ∧
      ∃ latest base, b.shm.readHeader = some latest ∧ Base (a.log hdr) base ∧
        base = (a.rewindLogIfBackfilled hdr chance).1.log (a.rewindLogIfBackfilled hdr chance).2 ∧
        b.log latest = (transaction a.pageSize frames).elim base base.publish := by
  have started := started_rewindLogIfBackfilled header chance
  simp only [WALAppender.appendFramesLocked, header, Option.bind_some] at ran
  obtain ⟨d, looped, ended⟩ := Option.map_eq_some_iff.mp ran
  cases ended
  have size := started.pageSize
  have fewer := started.fewer
  obtain ⟨same, outcome, latest, published, log⟩ := log_run started.header (by rw [size]; omega) looped
  rw [size] at same outcome log
  exact ⟨same, outcome, latest, _, published, started.base, rfl, log⟩

theorem accepted_le (pageSize : UInt32) (frames : List Frame) : (accepted pageSize frames).length ≤ frames.length :=
  (List.takeWhile_prefix _).length_le

/-- A call takes as many frame numbers as it was given frames at most. -/
theorem call_grows {b : WALAppender} {err : Option String} {latest : Header} (header : a.shm.readHeader = some hdr)
    (room : hdr.maxFrame.toNat + frames.length < 2 ^ 32) (ran : a.appendFramesLocked chance frames = some (b, err))
    (published : b.shm.readHeader = some latest) : latest.maxFrame.toNat ≤ hdr.maxFrame.toNat + frames.length := by
  have fewer := accepted_le a.pageSize frames
  obtain ⟨-, -, found, base, stored, start, -, log⟩ := call_log header (by omega) ran
  obtain rfl : found = latest := Option.some.inj (stored.symm.trans published)
  have kept : base.frames.length ≤ hdr.maxFrame.toNat := by
    rcases start with rfl | ⟨-, -, rfl⟩
    · exact Nat.le_of_eq (log_length a hdr)
    · exact Nat.zero_le _
  rw [← log_length b found, log]
  cases shown : committed (accepted a.pageSize frames) with
  | none =>
    rw [transaction, shown]
    exact Nat.le_trans kept (Nat.le_add_right _ _)
  | some front =>
    have shorter := (committed_front shown).1.length_le
    simp only [transaction, shown, Option.map_some, Option.elim_some, PageLog.publish, change, List.length_append,
      List.length_map]
    omega

/-- A call shows the change it published, and nothing if there was none. -/
theorem call_visible {b : WALAppender} {err : Option String} (header : a.shm.readHeader = some hdr)
    (intact : (a.log hdr).Intact) (room : hdr.maxFrame.toNat + (accepted a.pageSize frames).length < 2 ^ 32)
    (ran : a.appendFramesLocked chance frames = some (b, err)) :
    b.pageSize = a.pageSize ∧ (err = none ↔ accepted a.pageSize frames = frames) ∧
      ∃ latest, b.shm.readHeader = some latest ∧ (b.log latest).Intact ∧
        (b.log latest).visible = (transaction a.pageSize frames).elim (a.log hdr).visible (a.log hdr).visible.apply := by
  obtain ⟨same, outcome, latest, base, published, found, -, log⟩ := call_log header room ran
  obtain ⟨visible, still⟩ := found.visible intact
  refine ⟨same, outcome, latest, published, ?_⟩
  rw [log]
  cases shown : transaction a.pageSize frames with
  | none => exact ⟨still, visible⟩
  | some published =>
    obtain ⟨sized, somePage⟩ := transaction_some shown
    refine ⟨still.publish sized somePage, ?_⟩
    rw [Option.elim_some, Option.elim_some, PageLog.visible_publish _ _ sized, visible]

theorem hasSlots_iff (header : a.shm.readHeader = some hdr) {count : Nat} : HasSlots a chance count ↔
    FreeSlots (a.rewindLogIfBackfilled hdr chance).1.shm (a.rewindLogIfBackfilled hdr chance).2.maxFrame count := by
  constructor
  · rintro ⟨found, again, free⟩
    cases header.symm.trans again
    exact free
  · intro free
    exact ⟨hdr, header, free⟩

theorem hasSlots_of_free (header : a.shm.readHeader = some hdr) (chance : Chance) {count : Nat}
    (free : FreeSlots a.shm hdr.maxFrame count) : HasSlots a chance count :=
  (hasSlots_iff header).mpr ((started_rewindLogIfBackfilled header chance).slots count free)

theorem hasSlots_mono {count fewer : Nat} (slots : HasSlots a chance count) (less : fewer ≤ count) : HasSlots a chance fewer := by
  obtain ⟨hdr, header, free⟩ := slots
  exact ⟨hdr, header, freeSlots_mono free less⟩

theorem call_returns (header : a.shm.readHeader = some hdr)
    (room : hdr.maxFrame.toNat + (accepted a.pageSize frames).length < 2 ^ 32)
    (slots : HasSlots a chance (accepted a.pageSize frames).length) :
    ∃ b err m, a.appendFramesLocked chance frames = some (b, err) ∧
      UInt32.toNat m = (a.rewindLogIfBackfilled hdr chance).2.maxFrame.toNat + (accepted a.pageSize frames).length ∧
      ∀ count, HasSlots a chance ((accepted a.pageSize frames).length + count) → FreeSlots b.shm m count := by
  have started := started_rewindLogIfBackfilled header chance
  have fewer := started.fewer
  have size : (Cursor.start (a.rewindLogIfBackfilled hdr chance).1 (a.rewindLogIfBackfilled hdr chance).2).appender.pageSize =
    a.pageSize := started.pageSize
  have returns (count : Nat) (slots : HasSlots a chance ((accepted a.pageSize frames).length + count)) :=
    @Loop.returns frames _ count _ _ (loop_start started.header) rfl (by rw [size]; omega)
      (by rw [size]; exact (hasSlots_iff header).mp slots)
  rw [size] at returns
  obtain ⟨d, looped, number, -⟩ := returns 0 slots
  refine ⟨d.appender, d.retErr, d.currentFrameIdx, ?_, number, fun count more => ?_⟩
  · simp only [WALAppender.appendFramesLocked, header, Option.bind_some, looped, Option.map_some]
  · obtain ⟨e, again, -, left⟩ := returns count more
    cases Option.some.inj (looped.symm.trans again)
    exact left

/-- An append comes to its end exactly if each frame it takes finds a slot. -/
theorem appendFramesLocked_isSome_iff (header : a.shm.readHeader = some hdr)
    (room : hdr.maxFrame.toNat + (accepted a.pageSize frames).length < 2 ^ 32) :
    (a.appendFramesLocked chance frames).isSome ↔ HasSlots a chance (accepted a.pageSize frames).length := by
  constructor
  · intro returns
    obtain ⟨⟨b, err⟩, ran⟩ := Option.isSome_iff_exists.mp returns
    have started := started_rewindLogIfBackfilled header chance
    have fewer := started.fewer
    simp only [WALAppender.appendFramesLocked, header, Option.bind_some] at ran
    obtain ⟨d, looped, -⟩ := Option.map_eq_some_iff.mp ran
    rw [hasSlots_iff header, ← started.pageSize]
    refine (loop_start started.header).free rfl ?_ looped
    show _ + (accepted (a.rewindLogIfBackfilled hdr chance).1.pageSize frames).length < _
    rw [started.pageSize]
    omega
  · intro slots
    obtain ⟨b, err, -, ran, -⟩ := call_returns header room slots
    rw [ran]
    rfl

theorem append_published {body : List Frame} {last : Frame} (header : a.shm.readHeader = some hdr)
    (lengths : ∀ f ∈ body ++ [last], f.data.length = a.pageSize.toNat) (marked : last.header.nTruncate ≠ 0)
    (room : hdr.maxFrame.toNat + (body ++ [last]).length < 2 ^ 32) (slots : HasSlots a chance (body ++ [last]).length) :
    ∃ b latest base, a.appendFramesLocked chance (body ++ [last]) = some (b, none) ∧ b.shm.readHeader = some latest ∧
      (∀ count, HasSlots a chance ((body ++ [last]).length + count) → FreeSlots b.shm latest.maxFrame count) ∧
      b.pageSize = a.pageSize ∧ Base (a.log hdr) base ∧
      b.log latest = base.publish (change (body ++ [last]) last.header.nTruncate) := by
  have all := accepted_eq_self.mpr lengths
  rw [← all] at room slots
  obtain ⟨b, err, m, ran, number, left⟩ := call_returns header room slots
  obtain ⟨same, outcome, latest, base, published, found, start, log⟩ := call_log header room ran
  obtain rfl := outcome.mpr all
  rw [transaction, all, committed_marked marked, Option.map_some, Option.elim_some] at log
  have count : latest.maxFrame.toNat = (a.rewindLogIfBackfilled hdr chance).2.maxFrame.toNat + (body ++ [last]).length := by
    rw [← log_length b latest, log, start]
    simp [PageLog.publish, change, log_length]
  rw [all] at number left
  obtain rfl : m = latest.maxFrame := UInt32.toNat_inj.mp (number.trans count.symm)
  exact ⟨b, latest, base, ran, published, left, same, found, log⟩

theorem Ready.hasSlots (ready : Ready a hdr) (chance : Chance) (count : Nat) : HasSlots a chance count :=
  hasSlots_of_free ready.header chance (ready.slots count)

/-- An append of a complete transaction returns without an error, and turns the visible
database into the one with the transaction applied. -/
theorem append_visible {body : List Frame} {last : Frame} (ready : Ready a hdr)
    (valid : (a.log hdr).Valid) (chance : Chance) (lengths : ∀ f ∈ body ++ [last], f.data.length = a.pageSize.toNat)
    (marked : last.header.nTruncate ≠ 0) (room : hdr.maxFrame.toNat + (body ++ [last]).length < 2 ^ 32)
    (covers : (a.log hdr).visible.Covers (change (body ++ [last]) last.header.nTruncate)) :
    ∃ b latest, a.appendFramesLocked chance (body ++ [last]) = some (b, none) ∧ Ready b latest ∧
      b.pageSize = a.pageSize ∧ (b.log latest).Valid ∧
      (b.log latest).visible = (a.log hdr).visible.apply (change (body ++ [last]) last.header.nTruncate) := by
  obtain ⟨b, latest, base, ran, published, left, same, found, log⟩ :=
    append_published ready.header lengths marked room (ready.hasSlots chance _)
  have done : Ready b latest := ⟨published, fun count => left count (ready.hasSlots chance _)⟩
  have sized : (change (body ++ [last]) last.header.nTruncate).size ≠ 0 :=
    fun zero => marked (UInt32.toNat_inj.mp zero)
  have somePage : (change (body ++ [last]) last.header.nTruncate).pages ≠ [] := by simp [change]
  obtain ⟨visible, -⟩ := found.visible valid.intact
  refine ⟨b, latest, ran, done, same, ?_, ?_⟩
  · rw [log]
    exact (found.valid valid).publish sized somePage (by rw [visible]; exact covers)
  · rw [log, PageLog.visible_publish _ _ sized, visible]

end Call

theorem log_copied (a : WALAppender) (hdr : Header) (k : UInt32) :
    (a.copied hdr k).log hdr = (a.log hdr).checkpoint k.toNat := by
  have info : (a.copied hdr k).shm.readCheckpointInfo =
      { a.shm.readCheckpointInfo with nBackfill := k, nBackfillAttempted := k } := readCheckpointInfo_writeCheckpointInfo _ _
  rw [WALAppender.log, info]
  rfl

structure Settles (hdr : Header) (a b : WALAppender) : Prop where
  header : a.shm.readHeader = some hdr → b.shm.readHeader = some hdr
  slots : ∀ m count, FreeSlots a.shm m count → FreeSlots b.shm m count
  pageSize : b.pageSize = a.pageSize
  wal : b.f = a.f
  frames : (b.log hdr).frames = (a.log hdr).frames
  size : (b.log hdr).size = (a.log hdr).size
  valid : (a.log hdr).Valid → (b.log hdr).Valid
  visible : (a.log hdr).Intact → (b.log hdr).Intact ∧ (b.log hdr).visible = (a.log hdr).visible

theorem Settles.refl (hdr : Header) (a : WALAppender) : Settles hdr a a :=
  ⟨id, fun _ _ => id, rfl, rfl, rfl, rfl, id, fun intact => ⟨intact, rfl⟩⟩

theorem Settles.trans {hdr : Header} {a b c : WALAppender} (first : Settles hdr a b) (last : Settles hdr b c) :
    Settles hdr a c where
  header := last.header ∘ first.header
  slots m count := last.slots m count ∘ first.slots m count
  pageSize := last.pageSize.trans first.pageSize
  wal := last.wal.trans first.wal
  frames := last.frames.trans first.frames
  size := last.size.trans first.size
  valid := last.valid ∘ first.valid
  visible intact := by
    obtain ⟨middle, same⟩ := first.visible intact
    obtain ⟨still, also⟩ := last.visible middle
    exact ⟨still, also.trans same⟩

theorem checkpoint_settles {a : WALAppender} {hdr : Header} (header : a.shm.readHeader = some hdr) (k : UInt32) :
    Settles hdr a (a.checkpoint k) := by
  by_cases outside : hdr.maxFrame = 0 ∨ hdr.maxFrame < k
  · have same : a.checkpoint k = a := by rw [WALAppender.checkpoint, header, Option.elim_some, if_pos outside]
    rw [same]
    exact .refl hdr a
  · obtain ⟨some_, within⟩ := not_or.mp outside
    have someFrame := log_nonempty a some_
    have bound : k.toNat ≤ (a.log hdr).frames.length := by
      rw [log_length]
      exact UInt32.le_iff_toNat_le.mp (UInt32.not_lt.mp within)
    have same : a.checkpoint k = a.copied hdr k := by
      rw [WALAppender.checkpoint, header, Option.elim_some, if_neg outside]
    rw [same]
    refine ⟨fun _ => (readHeader_writeCheckpointInfo _ _).trans header, fun _ _ free => freeSlots_tables free (writeCheckpointInfo_tables _ _),
      rfl, rfl, ?_, ?_,
      fun valid => ?_, fun intact => ?_⟩
    · rw [log_copied]
      rfl
    · rw [log_copied]
      rfl
    · rw [log_copied]
      exact valid.checkpoint someFrame bound
    · rw [log_copied]
      exact ⟨intact.checkpoint bound, PageLog.visible_checkpoint intact _ someFrame⟩

theorem checkpoints_settle {a : WALAppender} {hdr : Header} (header : a.shm.readHeader = some hdr) (checkpoints : List UInt32) :
    Settles hdr a (checkpoints.foldl WALAppender.checkpoint a) := by
  induction checkpoints generalizing a with
  | nil => exact .refl hdr a
  | cons k rest ih =>
    have first := checkpoint_settles header k
    have later := ih (first.header header)
    rw [List.foldl_cons]
    exact first.trans later

theorem bootstrap_fresh (pageSize salt1 salt2 : UInt32) (db : Database Bytes) {walSize : Nat} (empty : walSize ≤ walHeaderSize) :
    ∃ a, (WALAppender.fresh pageSize db).maybeBootstrap walSize salt1 salt2 = some (.ok a) := by
  have zeros : (WALAppender.fresh pageSize db).shm.readHeader = some {} := by
    simp only [SharedMemory.readHeader, WALAppender.fresh, Storage.read_zeros]
    rfl
  have uninit : ¬ (({} : Header).isInit = true ∧ (0 : UInt32) < ({} : Header).pageSize) := by decide
  rw [WALAppender.maybeBootstrap, zeros, Option.map_some, if_neg uninit, if_neg (Nat.not_lt.mpr empty)]
  exact ⟨_, rfl⟩

theorem bootstrap_eq {pageSize salt1 salt2 : UInt32} {db : Database Bytes} {walSize : Nat} {a : WALAppender}
    (booted : (WALAppender.fresh pageSize db).maybeBootstrap walSize salt1 salt2 = some (.ok a)) :
    let h := WALHeader.initHeader pageSize salt1 salt2
    a = ⟨pageSize, Storage.write (fun _ => 0) 0 h.bytes,
      (SharedMemory.writeHeader (fun _ _ => 0) (Shm.initHeader pageSize h.checksum1 h.checksum2 h.salt1 h.salt2)).1, db⟩ := by
  have zeros : (WALAppender.fresh pageSize db).shm.readHeader = some {} := by
    simp only [SharedMemory.readHeader, WALAppender.fresh, Storage.read_zeros]
    rfl
  rw [WALAppender.maybeBootstrap, zeros, Option.map_some] at booted
  have uninit : ¬ (({} : Header).isInit = true ∧ (0 : UInt32) < ({} : Header).pageSize) := by decide
  rw [if_neg uninit] at booted
  split at booted
  · cases booted
  · cases booted
    rfl

/-- A node's first start leaves an empty log over its database file. -/
theorem bootstrap_ready {pageSize salt1 salt2 : UInt32} {db : Database Bytes} {walSize : Nat} {a : WALAppender}
    (booted : (WALAppender.fresh pageSize db).maybeBootstrap walSize salt1 salt2 = some (.ok a)) :
    ∃ hdr, Ready a hdr ∧ a.pageSize = pageSize ∧ a.log hdr = { frames := [], size := 0, backfill := 0, file := db } := by
  rw [bootstrap_eq booted]
  refine ⟨_, ⟨readHeader_writeHeader _ _, fun count => freeSlots_start _ count⟩, rfl, ?_⟩
  have info : (SharedMemory.readCheckpointInfo fun _ _ => 0).nBackfill = 0 := by
    rw [SharedMemory.readCheckpointInfo, Storage.read_zeros]
    rfl
  rw [WALAppender.log, readCheckpointInfo_writeHeader]
  exact congrArg (fun backfill : UInt32 => ({ frames := [], size := 0, backfill := backfill.toNat, file := db } :
    PageLog Bytes)) info

end Literaft.Proofs.Calls
