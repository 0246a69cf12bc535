import Literaft.Crash
import Literaft.Proofs.Checksum
import Literaft.Proofs.LogFile

/-! The log file as recovery reads it: a chain of frames that continue the file header,
with the last commit frame among them and nothing behind it that recovery would keep. -/

namespace Literaft.Proofs.Recovery
open Library Wal Literaft.Recovery Crash LogFile

variable {pageSize : UInt32} {wal : Storage} {h : WALHeader} {n kept slots : Nat} {sums keptSums : UInt32 × UInt32}

/-- The frame is one of this log, by its salts. -/
def Own (h : WALHeader) (f : Frame) : Prop := f.header.pgNo ≠ 0 ∧ f.header.salt1 = h.salt1 ∧ f.header.salt2 = h.salt2

/-- The checksum of the log file up to frame `n`, if recovery gets that far. -/
def reads (pageSize : UInt32) (wal : Storage) (h : WALHeader) (n : Nat) : Option (UInt32 × UInt32) :=
  running (decodeFrame h) (h.checksum1, h.checksum2) (storedFrame pageSize wal) n

/-- The file header and a chain of `n` frames. -/
structure Linked (pageSize : UInt32) (wal : Storage) (h : WALHeader) (n : Nat) (sums : UInt32 × UInt32) : Prop where
  header : fileHeader wal = h
  sound : h.sound = true
  paged : h.pageSize = pageSize
  last : reads pageSize wal h n = some sums

/-- The last commit frame `kept` of a chain, and no other commit frame of this log behind that. -/
structure Chain (pageSize : UInt32) (wal : Storage) (h : WALHeader) (n : Nat) (sums : UInt32 × UInt32) (kept : Nat)
    (keptSums : UInt32 × UInt32) : Prop extends Linked pageSize wal h n sums where
  found : reads pageSize wal h kept = some keptSums
  inside : kept ≤ n
  ended : kept = 0 ∨ (storedFrame pageSize wal kept).header.nTruncate ≠ 0
  quiet : ∀ m, kept < m → Own h (storedFrame pageSize wal m) → (storedFrame pageSize wal m).header.nTruncate = 0

def sizeAt (pageSize : UInt32) (wal : Storage) (kept : Nat) : UInt32 :=
  if kept = 0 then 0 else (storedFrame pageSize wal kept).header.nTruncate

theorem reads_own {m : Nat} (positive : 1 ≤ m) (fits : (reads pageSize wal h m).isSome) : Own h (storedFrame pageSize wal m) := by
  obtain ⟨m, rfl⟩ := Nat.exists_eq_add_of_le' positive
  obtain ⟨final, fits⟩ := Option.isSome_iff_exists.mp fits
  rw [reads, running] at fits
  obtain ⟨before, -, taken⟩ := Option.bind_eq_some_iff.mp fits
  unfold decodeFrame at taken
  split at taken
  · next own => exact ⟨own.2.2.1, own.1, own.2.1⟩
  · cases taken

/-- Recovery keeps `kept` frames if they can be read, end with a commit frame, and no
commit frame behind them can be read. -/
theorem recover_eq (header : fileHeader wal = h) (sound : h.sound = true) (paged : h.pageSize = pageSize)
    (found : reads pageSize wal h kept = some keptSums) (inside : kept ≤ slots)
    (ended : kept = 0 ∨ (storedFrame pageSize wal kept).header.nTruncate ≠ 0)
    (quiet : ∀ m, kept < m → m ≤ slots → (reads pageSize wal h m).isSome → (storedFrame pageSize wal m).header.nTruncate = 0) :
    recover wal slots = ⟨kept, sizeAt pageSize wal kept, keptSums⟩ := by
  have scanned : scan (decodeFrame h) (fun f => f.header.isCommit) (storedFrame pageSize wal) slots 0 (h.checksum1, h.checksum2)
      (0, h.checksum1, h.checksum2) = (kept, keptSums) := by
    refine scan_eq found inside (ended.imp_right fun commit => ?_) fun m later within fits => ?_
    · simpa [FrameHeader.isCommit] using commit
    · simpa [FrameHeader.isCommit] using quiet m later within fits
  subst paged
  simp only [recover, header, sound, if_true, scanned]
  rfl

/-- Recovery finds at least the chain, if that ends with a commit frame. -/
theorem Linked.le_recover (linked : Linked pageSize wal h n sums) (inside : n ≤ slots)
    (ended : (storedFrame pageSize wal n).header.nTruncate ≠ 0) : n ≤ (recover wal slots).mxFrame := by
  obtain ⟨header, sound, rfl, last⟩ := linked
  simp only [recover, header, sound, if_true]
  refine le_scan last inside (.inr ?_)
  simpa [FrameHeader.isCommit] using ended

theorem Chain.recovers (chain : Chain pageSize wal h n sums kept keptSums) (inside : kept ≤ slots) :
    recover wal slots = ⟨kept, sizeAt pageSize wal kept, keptSums⟩ := by
  refine recover_eq chain.header chain.sound chain.paged chain.found inside chain.ended ?_
  intro m later _ fits
  exact chain.quiet m later (reads_own (by omega) fits)

/-- What lies behind the last commit frame does not matter. -/
theorem Chain.settle (chain : Chain pageSize wal h n sums kept keptSums) : Chain pageSize wal h kept keptSums kept keptSums :=
  { chain with last := chain.found, inside := Nat.le_refl kept }

theorem fileHeader_write (wal : Storage) (h : WALHeader) : fileHeader (wal.write 0 h.bytes) = h := by
  rw [fileHeader, ← WALHeader.bytes_length h, Storage.read_write_same, WALHeader.ofBytes_bytes]

theorem fileHeader_written (wal : Storage) (m : Nat) (f : Frame) : fileHeader
    (writtenFrame pageSize wal m f) = fileHeader wal := by
  have below : walHeaderSize ≤ frameOffset pageSize m := Nat.le_add_right _ _
  rw [fileHeader, writtenFrame, Storage.read_write_disjoint _ _ _ _ _ (.inl (by omega)),
    Storage.read_write_disjoint _ _ _ _ _ (.inl (by omega))]
  rfl

private theorem reads_congr {other : Storage}
    (same : ∀ m, 1 ≤ m → m ≤ n → storedFrame pageSize other m = storedFrame pageSize wal m) :
    reads pageSize other h n = reads pageSize wal h n :=
  running_congr same

section Size
variable (wal : Storage) {g : Frame} (length : g.data.length = pageSize.toNat)
include length

theorem sizeAt_written (inside : kept ≤ n) :
    sizeAt pageSize (writtenFrame pageSize wal (n + 1) g) kept = sizeAt pageSize wal kept := by
  unfold sizeAt
  split
  · rfl
  · next positive =>
    rw [storedFrame_written_other _ length (Nat.pos_of_ne_zero positive) (Nat.le_add_left 1 n) (by omega)]

theorem sizeAt_last (n : Nat) : sizeAt pageSize (writtenFrame pageSize wal (n + 1) g) (n + 1) = g.header.nTruncate := by
  rw [sizeAt, if_neg (Nat.succ_ne_zero n), storedFrame_written _ length]

end Size

theorem Linked.write {f : Frame} {next : UInt32 × UInt32} (linked : Linked pageSize wal h n sums)
    (length : f.data.length = pageSize.toNat) (taken : decodeFrame h sums f = some next) :
    Linked pageSize (writtenFrame pageSize wal (n + 1) f) h (n + 1) next := by
  refine ⟨(fileHeader_written wal (n + 1) f).trans linked.header, linked.sound, linked.paged, ?_⟩
  have old : reads pageSize (writtenFrame pageSize wal (n + 1) f) h n = reads pageSize wal h n :=
    reads_congr fun m positive _ => storedFrame_written_other _ length positive (Nat.le_add_left 1 n) (by omega)
  have step : reads pageSize (writtenFrame pageSize wal (n + 1) f) h (n + 1) =
      (reads pageSize (writtenFrame pageSize wal (n + 1) f) h n).bind fun state =>
        decodeFrame h state (storedFrame pageSize (writtenFrame pageSize wal (n + 1) f) (n + 1)) := rfl
  rw [step, old, linked.last, Option.bind_some, storedFrame_written _ length, taken]

/-- A commit frame that continues the chain is what recovery keeps. -/
theorem Chain.write {f : Frame} {next : UInt32 × UInt32} (chain : Chain pageSize wal h n sums kept keptSums)
    (length : f.data.length = pageSize.toNat) (taken : decodeFrame h sums f = some next) :
    Chain pageSize (writtenFrame pageSize wal (n + 1) f) h (n + 1) next
      (if f.header.nTruncate ≠ 0 then n + 1 else kept) (if f.header.nTruncate ≠ 0 then next else keptSums) := by
  have inside := chain.inside
  have linked := chain.toLinked.write length taken
  have here : storedFrame pageSize (writtenFrame pageSize wal (n + 1) f) (n + 1) = f := storedFrame_written _ length
  have others (m : Nat) (positive : 1 ≤ m) (apart : m ≠ n + 1) :
      storedFrame pageSize (writtenFrame pageSize wal (n + 1) f) m = storedFrame pageSize wal m :=
    storedFrame_written_other _ length positive (Nat.le_add_left 1 n) apart
  refine ⟨linked, ?_, ?_, ?_, ?_⟩
  · split
    · exact linked.last
    · exact (reads_congr fun m positive _ => others m positive (by omega)).trans chain.found
  · split <;> omega
  · split
    · next commit => exact .inr (by rw [here]; exact commit)
    · by_cases zero : kept = 0
      · exact .inl zero
      · rw [others kept (Nat.pos_of_ne_zero zero) (by omega)]
        exact .inr (chain.ended.resolve_left zero)
  · intro m later own
    by_cases same : m = n + 1
    · rw [same, here]
      by_contra commit
      rw [if_pos commit] at later
      omega
    · have beyond : kept < m := by
        split at later <;> omega
      rw [others m (by omega) same] at own ⊢
      exact chain.quiet m beyond own

/-- Another file with the same frames up to the last commit frame is read the same way, if
no commit frame behind it can be read. -/
theorem Chain.recovers_like {other : Storage} (chain : Chain pageSize wal h n sums kept keptSums)
    (header : fileHeader other = fileHeader wal)
    (same : ∀ m, 1 ≤ m → m ≤ kept → storedFrame pageSize other m = storedFrame pageSize wal m) (inside : kept ≤ slots)
    (quiet : ∀ m, kept < m → m ≤ slots → (reads pageSize other h m).isSome →
      (storedFrame pageSize other m).header.nTruncate = 0) :
    recover other slots = ⟨kept, sizeAt pageSize wal kept, keptSums⟩ := by
  have found : reads pageSize other h kept = some keptSums := (reads_congr same).trans chain.found
  by_cases zero : kept = 0
  · rw [recover_eq (header.trans chain.header) chain.sound chain.paged found inside (.inl zero) quiet, sizeAt, sizeAt, if_pos zero,
      if_pos zero]
  · have last := same kept (Nat.pos_of_ne_zero zero) (Nat.le_refl _)
    have ended : kept = 0 ∨ (storedFrame pageSize other kept).header.nTruncate ≠ 0 := by
      rw [last]
      exact chain.ended
    rw [recover_eq (header.trans chain.header) chain.sound chain.paged found inside ended quiet, sizeAt, sizeAt, last]

/-- Only the frames within the length of the file matter. -/
theorem Chain.recovers_within {other : Storage} (chain : Chain pageSize wal h n sums kept keptSums)
    (header : fileHeader other = fileHeader wal) (inside : kept ≤ slots)
    (same : ∀ m, 1 ≤ m → m ≤ slots → storedFrame pageSize other m = storedFrame pageSize wal m) :
    recover other slots = ⟨kept, sizeAt pageSize wal kept, keptSums⟩ := by
  refine chain.recovers_like header (fun m positive bound => same m positive (Nat.le_trans bound inside)) inside ?_
  intro m later within fits
  have early : reads pageSize other h m = reads pageSize wal h m :=
    reads_congr fun k positive bound => same k positive (Nat.le_trans bound within)
  rw [early] at fits
  rw [same m (by omega) within]
  exact chain.quiet m later (reads_own (by omega) fits)

/-- A header whose data is missing counts for nothing, unless it commits and the data
already in its place fits. -/
theorem Chain.torn {header : FrameHeader} (chain : Chain pageSize wal h n sums kept keptSums) (inside : kept ≤ slots)
    (misfit : header.nTruncate ≠ 0 → decodeFrame h sums ⟨header, (storedFrame pageSize wal (n + 1)).data⟩ = none) :
    recover (wal.write (frameOffset pageSize (n + 1)) header.bytes) slots = ⟨kept, sizeAt pageSize wal kept, keptSums⟩ := by
  have bound := chain.inside
  generalize torn : wal.write (frameOffset pageSize (n + 1)) header.bytes = after
  have here : storedFrame pageSize after (n + 1) = ⟨header, (storedFrame pageSize wal (n + 1)).data⟩ := by
    rw [← torn]
    exact storedFrame_write_header _ _ _
  have others (m : Nat) (positive : 1 ≤ m) (apart : m ≠ n + 1) : storedFrame pageSize after m = storedFrame pageSize wal m := by
    rw [← torn]
    exact storedFrame_write_other positive (Nat.le_add_left 1 n) apart (Nat.le_refl _)
      (by rw [FrameHeader.bytes_length]; omega)
  have file : fileHeader after = fileHeader wal := by
    have below : walHeaderSize ≤ frameOffset pageSize (n + 1) := Nat.le_add_right _ _
    rw [← torn, fileHeader, Storage.read_write_disjoint _ _ _ _ _ (.inl (by omega))]
    rfl
  refine chain.recovers_like file (fun m positive before => others m positive (by omega)) inside ?_
  intro m later _ fits
  by_cases same : m = n + 1
  · subst same
    by_contra commit
    rw [here] at commit
    have step : reads pageSize after h (n + 1) = (reads pageSize after h n).bind fun state =>
        decodeFrame h state (storedFrame pageSize after (n + 1)) := rfl
    have old : reads pageSize after h n = some sums :=
      (reads_congr fun k positive _ => others k positive (by omega)).trans chain.last
    rw [step, old, Option.bind_some, here, misfit commit] at fits
    cases fits
  · have own := reads_own (by omega) fits
    rw [others m (by omega) same] at own ⊢
    exact chain.quiet m later own

private theorem initHeader_sound (sized : pageSize ∈ pageSizes) (salt1 salt2 : UInt32) :
    (WALHeader.initHeader pageSize salt1 salt2).sound = true := by
  have listed : pageSizes.contains pageSize = true := List.contains_iff_mem.mpr sized
  have same : (WALHeader.initHeader pageSize salt1 salt2).pageSize = pageSize := rfl
  simp only [WALHeader.sound, same, listed, Bool.and_true, Bool.and_eq_true, Bool.or_eq_true, decide_eq_true_eq]
  exact ⟨⟨.inl rfl, rfl⟩, rfl⟩

/-- No frame left in the file carries these salts. -/
def FreshSalts (pageSize : UInt32) (wal : Storage) (salt1 salt2 : UInt32) : Prop :=
  ∀ m, 1 ≤ m → (storedFrame pageSize wal m).header.pgNo ≠ 0 →
    ¬ ((storedFrame pageSize wal m).header.salt1 = salt1 ∧ (storedFrame pageSize wal m).header.salt2 = salt2)

theorem chain_initHeader {salt1 salt2 : UInt32} (sized : pageSize ∈ pageSizes) (fresh : FreshSalts pageSize wal salt1 salt2) :
    Chain pageSize (wal.write 0 (WALHeader.initHeader pageSize salt1 salt2).bytes) (WALHeader.initHeader pageSize salt1 salt2) 0
      ((WALHeader.initHeader pageSize salt1 salt2).checksum1, (WALHeader.initHeader pageSize salt1 salt2).checksum2) 0
      ((WALHeader.initHeader pageSize salt1 salt2).checksum1, (WALHeader.initHeader pageSize salt1 salt2).checksum2) := by
  refine ⟨⟨fileHeader_write _ _, initHeader_sound sized salt1 salt2, rfl, rfl⟩, rfl, Nat.le_refl 0, .inl rfl, ?_⟩
  intro m later own
  rw [storedFrame_header (Nat.le_of_eq (WALHeader.bytes_length _))] at own
  exact absurd own.2 (fresh m later own.1)

section Stamped
variable {enc : ByteOrder} {salt1 salt2 : UInt32} {before : UInt32 × UInt32} {f : Frame}

theorem stamped_kept (enc : ByteOrder) (salt1 salt2 : UInt32) (before : UInt32 × UInt32) (f : Frame) :
    (stamped enc salt1 salt2 before f).data = f.data ∧ (stamped enc salt1 salt2 before f).header.pgNo = f.header.pgNo ∧
      (stamped enc salt1 salt2 before f).header.nTruncate = f.header.nTruncate := by
  simp only [stamped, Frame.updateChecksums]
  split <;> exact ⟨rfl, rfl, rfl⟩

/-- Page sizes are multiples of eight, so the checksum is always set. -/
theorem stamped_eq (sized : pageSize ∈ pageSizes) (length : f.data.length = pageSize.toNat) :
    stamped enc salt1 salt2 before f = ⟨⟨f.header.pgNo, f.header.nTruncate, salt1, salt2, (f.sums enc before).1,
      (f.sums enc before).2⟩, f.data⟩ := by
  have multiples : ∀ size ∈ pageSizes, size.toNat % 8 = 0 := by simp [pageSizes]
  have multiple := multiples pageSize sized
  have whole : ¬ (be32 f.header.pgNo ++ be32 f.header.nTruncate ++ f.data).length % 8 ≠ 0 := by
    simp only [List.length_append, be32_length, length]
    omega
  simp only [stamped, Frame.updateChecksums, whole, if_false]
  rfl

theorem decodeFrame_stamped (sized : pageSize ∈ pageSizes) (length : f.data.length = pageSize.toNat) (real : f.header.pgNo ≠ 0) :
    decodeFrame h sums (stamped h.enc h.salt1 h.salt2 sums f) = some (f.sums h.enc sums) := by
  rw [stamped_eq sized length, decodeFrame, if_pos ⟨rfl, rfl, real, rfl⟩]

/-- Other data under the header of a frame fits only if the two have the same checksum. -/
theorem decodeFrame_other {old : Bytes} (sized : pageSize ∈ pageSizes) (length : f.data.length = pageSize.toNat)
    (equal : old.length = f.data.length) (differs : computeChecksums h.enc old 0 0 ≠ computeChecksums h.enc f.data 0 0) :
    decodeFrame h sums ⟨(stamped h.enc h.salt1 h.salt2 sums f).header, old⟩ = none := by
  rw [stamped_eq sized length, decodeFrame, if_neg]
  rintro ⟨-, -, -, same⟩
  apply differs
  have same : (⟨f.header, old⟩ : Frame).sums h.enc sums = f.sums h.enc sums := same
  simp only [Frame.sums, be32, List.cons_append, List.nil_append, computeChecksums] at same
  exact Checksum.computeChecksums_same h.enc equal 0 0 same

end Stamped

end Literaft.Proofs.Recovery
