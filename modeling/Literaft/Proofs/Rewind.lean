import Literaft.Proofs.Epoch

/-! What a rewind leaves. The new header of the log file is little-endian whatever the
wal-index says of its byte order, and the frames behind it are written as the wal-index says. -/

namespace Literaft.Proofs.Rewind
open Library Wal Shm WalAppender Literaft.Recovery Literaft.Crash Literaft.Store Literaft.Epoch
open LogFile Index Appender Calls Recovery Writes Consistency Store Epoch

variable {pageSize : UInt32} {wal : Storage} {h : WALHeader} {n : Nat} {sums : UInt32 × UInt32} {frames : List Frame}

private theorem seed_written {f : Frame} (length : f.data.length = pageSize.toNat) {m : Nat} (inside : m ≤ n) :
    seed pageSize (writtenFrame pageSize wal (n + 1) f) m = seed pageSize wal m := by
  unfold seed
  rw [fileHeader_written]
  split
  · rfl
  · next positive =>
    rw [storedFrame_written_other _ length (Nat.pos_of_ne_zero positive) (Nat.le_add_left 1 n) (by omega)]

private theorem validates_write {f : Frame} (valid : Validates pageSize wal n) (header : fileHeader wal = h)
    (seeded : seed pageSize wal n = sums) (sized : pageSize ∈ pageSizes) (length : f.data.length = pageSize.toNat) :
    Validates pageSize (writtenFrame pageSize wal (n + 1) (stamped h.enc h.salt1 h.salt2 sums f)) (n + 1) ∧
      seed pageSize (writtenFrame pageSize wal (n + 1) (stamped h.enc h.salt1 h.salt2 sums f)) (n + 1) = f.sums h.enc sums := by
  have same : (stamped h.enc h.salt1 h.salt2 sums f).data.length = pageSize.toNat := by
    rw [(stamped_kept _ _ _ _ f).1, length]
  have here : storedFrame pageSize (writtenFrame pageSize wal (n + 1) (stamped h.enc h.salt1 h.salt2 sums f)) (n + 1) =
      stamped h.enc h.salt1 h.salt2 sums f := storedFrame_written wal same
  refine ⟨fun m inside => ?_, ?_⟩
  · rw [fileHeader_written, seed_written same (Nat.le_of_lt_succ inside)]
    by_cases last : m = n
    · subst last
      rw [here, stamped_eq sized length, seeded, header]
      exact ⟨rfl, rfl, rfl⟩
    · rw [storedFrame_written_other _ same (Nat.le_add_left 1 m) (Nat.le_add_left 1 n) (by omega)]
      exact valid m (by omega)
  · rw [seed, if_neg (Nat.succ_ne_zero n), here, stamped_eq sized length]

private theorem laid_validates (valid : Validates pageSize wal n) (header : fileHeader wal = h)
    (seeded : seed pageSize wal n = sums)
    (sized : pageSize ∈ pageSizes) :
    Validates pageSize (laid pageSize h wal n sums frames) (n + (accepted pageSize frames).length) := by
  induction frames generalizing wal n sums with
  | nil => exact valid
  | cons f rest ih =>
    by_cases length : f.data.length = pageSize.toNat
    · obtain ⟨next, after⟩ := validates_write valid header seeded sized length
      have more := ih next ((fileHeader_written _ _ _).trans header) after
      have count : n + (accepted pageSize (f :: rest)).length = n + 1 + (accepted pageSize rest).length := by
        rw [accepted, List.takeWhile_cons_of_pos (by simpa using length), List.length_cons, Nat.add_right_comm]
        rfl
      rw [laid_cons sized length, count]
      exact more
    · rw [laid, tail_wrong length, accepted, List.takeWhile_cons_of_neg (by simpa using length)]
      exact valid

section Rewind
variable {a b : WALAppender} {hdr : Header} {chance : Chance}

private theorem order_little_iff : hdr.order = .littleEndian ↔ hdr.bigEndianChecksum = 0 := by
  simp [Header.order]

/-- The file after a call that rewinds. The new header stands before frames in the old byte order. -/
theorem rewound_file {err : Option String} (header : a.shm.readHeader = some hdr) (due : rewinds a hdr chance = true)
    (salt1 : chance.salt1 = h.salt1) (salt2 : chance.salt2 = h.salt2) (enc : hdr.order = h.enc)
    (ran : a.appendFramesLocked chance frames = some (b, err)) :
    b.f = laid a.pageSize h (a.f.write 0 (WALHeader.initHeader a.pageSize chance.salt1 chance.salt2).bytes) 0
      ((WALHeader.initHeader a.pageSize chance.salt1 chance.salt2).checksum1,
        (WALHeader.initHeader a.pageSize chance.salt1 chance.salt2).checksum2) frames := by
  rw [call_file header ran, crashed_all, writes, if_pos due, rewindLogIfBackfilled_eq, if_pos due]
  have order : (a.rewind hdr chance).2.order = h.enc := enc
  rw [loopWrites_start salt1 salt2 order]
  rfl

private theorem rewound_first {err : Option String} {f : Frame} {rest : List Frame} (sized : a.pageSize ∈ pageSizes)
    (header : a.shm.readHeader = some hdr) (due : rewinds a hdr chance = true) (length : f.data.length = a.pageSize.toNat)
    (ran : a.appendFramesLocked chance (f :: rest) = some (b, err)) :
    fileHeader b.f = WALHeader.initHeader a.pageSize chance.salt1 chance.salt2 ∧
      storedFrame a.pageSize b.f 1 = stamped hdr.order chance.salt1 chance.salt2
        ((WALHeader.initHeader a.pageSize chance.salt1 chance.salt2).checksum1,
          (WALHeader.initHeader a.pageSize chance.salt1 chance.salt2).checksum2) f := by
  obtain ⟨h, salt1, salt2, enc⟩ := exists_fileHeader (a.rewind hdr chance).2
  have order : hdr.order = h.enc := enc
  have one : chance.salt1 = h.salt1 := salt1
  have two : chance.salt2 = h.salt2 := salt2
  rw [rewound_file header due one two order ran, order]
  refine ⟨(laid_below sized).1.trans (fileHeader_write _ _), ?_⟩
  rw [laid_first sized length, ← one, ← two]

/-- A rewind leaves one epoch, and frames that its header accepts, exactly if the wal-index
header said little-endian before. -/
theorem rewind_one_epoch_iff (sized : a.pageSize ∈ pageSizes) (header : a.shm.readHeader = some hdr)
    (due : rewinds a hdr chance = true) :
    (OneEpoch (a.rewindLogIfBackfilled hdr chance).1 (a.rewindLogIfBackfilled hdr chance).2 ∧
      ∀ frames b err, a.appendFramesLocked chance frames = some (b, err) →
        fileHeader b.f = fileHeader (a.rewindLogIfBackfilled hdr chance).1.f ∧
          Validates a.pageSize b.f (accepted a.pageSize frames).length) ↔ hdr.bigEndianChecksum = 0 := by
  have rewound : a.rewindLogIfBackfilled hdr chance = a.rewind hdr chance := by rw [rewindLogIfBackfilled_eq, if_pos due]
  have file : fileHeader (a.rewind hdr chance).1.f = WALHeader.initHeader a.pageSize chance.salt1 chance.salt2 :=
    fileHeader_write _ _
  have order : (a.rewind hdr chance).2.order = hdr.order := rfl
  rw [rewound, ← order_little_iff]
  constructor
  · rintro ⟨one, -⟩
    rw [← order, ← one.order, file]
    rfl
  · intro little
    refine ⟨?_, fun frames b err ran => ?_⟩
    · have published : (a.rewind hdr chance).1.shm.readHeader = some (a.rewind hdr chance).2 :=
        rewound ▸ (started_rewindLogIfBackfilled header chance).header
      have info : (a.rewind hdr chance).1.shm.readCheckpointInfo = a.shm.readCheckpointInfo.resetForRewind :=
        readCheckpointInfo_writeCheckpointInfo _ _
      have enc : (fileHeader (a.rewind hdr chance).1.f).enc = (a.rewind hdr chance).2.order := by
        rw [file, order, little]
        rfl
      refine ⟨⟨?_, ?_, ?_, ?_⟩, published, enc, rfl, ?_⟩
      · rw [file]; rfl
      · rw [file]; rfl
      · rw [file]; rfl
      · rw [file]; rfl
      · rw [info]; rfl
    · have none_ : Validates a.pageSize (a.rewind hdr chance).1.f 0 := fun m inside => absurd inside (Nat.not_lt_zero m)
      have seeded : seed a.pageSize (a.rewind hdr chance).1.f 0 =
          ((WALHeader.initHeader a.pageSize chance.salt1 chance.salt2).checksum1,
            (WALHeader.initHeader a.pageSize chance.salt1 chance.salt2).checksum2) := by
        rw [seed, if_pos rfl, file]
      have written : b.f = laid a.pageSize (WALHeader.initHeader a.pageSize chance.salt1 chance.salt2) (a.rewind hdr chance).1.f 0
          ((WALHeader.initHeader a.pageSize chance.salt1 chance.salt2).checksum1,
            (WALHeader.initHeader a.pageSize chance.salt1 chance.salt2).checksum2) frames :=
        rewound_file header due rfl rfl little ran
      rw [written]
      refine ⟨(laid_below sized).1, ?_⟩
      rw [← Nat.zero_add (accepted a.pageSize frames).length]
      exact laid_validates none_ file seeded sized

end Rewind

def backfilled : List Operation := [.append ⟨false, 0, 0⟩ [image 2 1 0, image 1 1 2], .checkpoint 2]

theorem rewind_one_epoch_written : ∃ start a b hdr, (WALAppender.fresh 512 twoPages).maybeBootstrap 0 1 2 = some (.ok start) ∧
    exec step start backfilled = some a ∧ a.shm.readHeader = some hdr ∧ rewinds a hdr ⟨false, 3, 4⟩ = true ∧
    OneEpoch (a.rewindLogIfBackfilled hdr ⟨false, 3, 4⟩).1 (a.rewindLogIfBackfilled hdr ⟨false, 3, 4⟩).2 ∧
    a.appendFramesLocked ⟨false, 3, 4⟩ [image 2 5 0, image 1 6 2] = some (b, none) ∧
    Validates a.pageSize b.f (accepted a.pageSize [image 2 5 0, image 1 6 2]).length := by
  obtain ⟨start, booted⟩ := bootstrap_fresh 512 1 2 twoPages (Nat.zero_le _)
  have explicit := bootstrap_eq booted
  have found : ((exec step start backfilled).bind fun a => a.shm.readHeader.bind fun hdr =>
      (a.appendFramesLocked ⟨false, 3, 4⟩ [image 2 5 0, image 1 6 2]).map fun b =>
        (a.pageSize, rewinds a hdr ⟨false, 3, 4⟩, hdr.bigEndianChecksum, b.2)) = some (512, true, 0, none) := by
    subst explicit
    decide +kernel
  obtain ⟨a, executed, found⟩ := Option.bind_eq_some_iff.mp found
  obtain ⟨hdr, header, found⟩ := Option.bind_eq_some_iff.mp found
  obtain ⟨⟨b, fine⟩, ran, found⟩ := Option.map_eq_some_iff.mp found
  simp only [Prod.mk.injEq] at found
  obtain ⟨size, due, little, rfl⟩ := found
  have sized : a.pageSize ∈ pageSizes := by
    rw [size]
    exact List.mem_cons_self
  obtain ⟨one, valid⟩ := (rewind_one_epoch_iff sized header due).mpr little
  exact ⟨start, a, b, hdr, booted, executed, header, due, one, ran, (valid _ b none ran).2⟩

/-- A log with the byte order that recovery takes over from a big-endian log file. -/
def foreign (a : WALAppender) (hdr : Header) : WALAppender :=
  { a with shm := (a.shm.writeHeader { hdr with bigEndianChecksum := 1 }).1 }

/-- The new log file is little-endian and the frame in it big-endian. -/
theorem rewind_two_orders : ∃ start a b hdr found latest, (WALAppender.fresh 512 twoPages).maybeBootstrap 0 1 2 = some
    (.ok start) ∧
    exec step start backfilled = some a ∧ a.shm.readHeader = some hdr ∧
    (foreign a hdr).shm.readHeader = some found ∧ rewinds (foreign a hdr) found ⟨false, 3, 4⟩ = true ∧
    (foreign a hdr).appendFramesLocked ⟨false, 3, 4⟩ [image 1 6 2] = some (b, none) ∧ b.shm.readHeader = some latest ∧
    (fileHeader b.f).enc = .littleEndian ∧ latest.order = .bigEndian ∧ latest.maxFrame = 1 ∧ ¬ Validates 512 b.f 1 := by
  obtain ⟨start, booted⟩ := bootstrap_fresh 512 1 2 twoPages (Nat.zero_le _)
  have explicit := bootstrap_eq booted
  have found : ((exec step start backfilled).bind fun a => a.shm.readHeader.bind fun hdr =>
      (foreign a hdr).shm.readHeader.bind fun found =>
        ((foreign a hdr).appendFramesLocked ⟨false, 3, 4⟩ [image 1 6 2]).bind fun b => b.1.shm.readHeader.map fun latest =>
          (rewinds (foreign a hdr) found ⟨false, 3, 4⟩, (foreign a hdr).pageSize, found.order, b.2, latest.order, latest.maxFrame)) =
      some (true, 512, .bigEndian, none, .bigEndian, 1) := by
    subst explicit
    decide +kernel
  obtain ⟨a, executed, found⟩ := Option.bind_eq_some_iff.mp found
  obtain ⟨hdr, header, found⟩ := Option.bind_eq_some_iff.mp found
  obtain ⟨other, flagged, found⟩ := Option.bind_eq_some_iff.mp found
  obtain ⟨⟨b, fine⟩, ran, found⟩ := Option.bind_eq_some_iff.mp found
  obtain ⟨latest, published, found⟩ := Option.map_eq_some_iff.mp found
  simp only [Prod.mk.injEq] at found
  obtain ⟨due, size, big, rfl, order, one⟩ := found
  obtain ⟨file, first⟩ := rewound_first (by rw [size]; exact List.mem_cons_self) flagged due
    (List.length_replicate.trans (by rw [size]; rfl)) ran
  rw [size] at file first
  refine ⟨start, a, b, hdr, other, latest, booted, executed, header, flagged, due, ran, published, ?_, order, one, fun valid => ?_⟩
  · rw [file]
    rfl
  · have sums := (valid 0 (Nat.zero_lt_one)).sums
    rw [seed, if_pos rfl, file, first, big] at sums
    revert sums
    decide +kernel

end Literaft.Proofs.Rewind
