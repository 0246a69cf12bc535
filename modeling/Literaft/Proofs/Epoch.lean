import Literaft.Epoch
import Literaft.Proofs.Store
import Literaft.Proofs.Consistency

/-! Appends into an epoch of the log that SQLite opened. They leave a log that can be
recovered only if the wal-index already went on from the header in the log file. -/

namespace Literaft.Proofs.Epoch
open Library Wal Shm WalAppender Literaft.Lookup Literaft.Recovery Literaft.Crash Literaft.Store Literaft.Epoch
open LogFile Index Appender Calls Recovery Writes Consistency Store

variable {pageSize : UInt32} {wal : Storage} {h : WALHeader} {n : Nat} {sums : UInt32 × UInt32} {frames : List Frame}

/-- The file with the frames of a loop written behind frame `n`. -/
def laid (pageSize : UInt32) (h : WALHeader) (wal : Storage) (n : Nat) (sums : UInt32 × UInt32) (frames : List Frame) : Storage :=
  (tail pageSize h n sums frames).foldl (fun wal write => wal.write write.1 write.2) wal

theorem laid_cons {f : Frame} {rest : List Frame} (sized : pageSize ∈ pageSizes) (length : f.data.length = pageSize.toNat) :
    laid pageSize h wal n sums (f :: rest) =
      laid pageSize h (writtenFrame pageSize wal (n + 1) (stamped h.enc h.salt1 h.salt2 sums f)) (n + 1) (f.sums h.enc sums) rest := by
  rw [laid, tail_cons sized length, List.foldl_cons, List.foldl_cons, written_stamped]
  rfl

theorem laid_below (sized : pageSize ∈ pageSizes) : fileHeader (laid pageSize h wal n sums frames) = fileHeader wal ∧
    ∀ m, 1 ≤ m → m ≤ n → storedFrame pageSize (laid pageSize h wal n sums frames) m = storedFrame pageSize wal m := by
  have below := crashed_below wal h n sums frames sized (tail pageSize h n sums frames).length
  rw [crashed_all] at below
  exact below

private theorem laid_linked (sized : pageSize ∈ pageSizes) (linked : Linked pageSize wal h n sums)
    (lengths : ∀ f ∈ frames, f.data.length = pageSize.toNat) (real : ∀ f ∈ frames, f.header.pgNo ≠ 0) :
    ∃ final, Linked pageSize (laid pageSize h wal n sums frames) h (n + frames.length) final := by
  induction frames generalizing wal n sums with
  | nil => exact ⟨sums, linked⟩
  | cons f rest ih =>
    have length := lengths f List.mem_cons_self
    have taken : decodeFrame h sums (stamped h.enc h.salt1 h.salt2 sums f) = some (f.sums h.enc sums) :=
      decodeFrame_stamped sized length (real f List.mem_cons_self)
    have next := linked.write (by rw [(stamped_kept _ _ _ _ f).1, length]) taken
    obtain ⟨final, linked⟩ := ih next (fun g member => lengths g (List.mem_cons_of_mem _ member))
      (fun g member => real g (List.mem_cons_of_mem _ member))
    rw [laid_cons sized length, List.length_cons, Nat.add_comm rest.length 1, ← Nat.add_assoc]
    exact ⟨final, linked⟩

private theorem laid_last {body : List Frame} {last : Frame} (sized : pageSize ∈ pageSizes)
    (lengths : ∀ f ∈ body ++ [last], f.data.length = pageSize.toNat) :
    (storedFrame pageSize (laid pageSize h wal n sums (body ++ [last])) (n + (body ++ [last]).length)).header.nTruncate =
      last.header.nTruncate := by
  induction body generalizing wal n sums with
  | nil =>
    have length := lengths last List.mem_cons_self
    obtain ⟨data, -, nTruncate⟩ := stamped_kept h.enc h.salt1 h.salt2 sums last
    rw [List.nil_append, laid_cons sized length, List.length_singleton]
    exact (congrArg (fun f : Frame => f.header.nTruncate) (storedFrame_written _ (by rw [data, length]))).trans nTruncate
  | cons f rest ih =>
    rw [List.cons_append, laid_cons sized (lengths f List.mem_cons_self), List.length_cons,
      Nat.add_comm (rest ++ [last]).length 1, ← Nat.add_assoc]
    exact ih fun g member => lengths g (List.mem_cons_of_mem _ member)

private theorem recoverable_linked {b : WALAppender} {latest : Header}
    (linked : Linked b.pageSize b.f h latest.maxFrame.toNat sums)
    (some_ : 1 ≤ latest.maxFrame.toNat)
    (ended : (storedFrame b.pageSize b.f latest.maxFrame.toNat).header.nTruncate ≠ 0) : Recoverable b latest := by
  have fits (m : Nat) (inside : m ≤ latest.maxFrame.toNat) : (reads b.pageSize b.f h m).isSome :=
    running_before (Option.isSome_iff_exists.mpr ⟨sums, linked.last⟩) inside
  have header := linked.header
  refine ⟨by rw [header]; exact linked.sound, fun m positive inside => ?_, ?_, fun slots inside => linked.le_recover inside ended⟩
  · rw [header]
    exact (reads_own positive (fits m inside)).2
  · obtain ⟨first, found⟩ := Option.isSome_iff_exists.mp (fits 1 some_)
    rw [reads, running, running, Option.bind_some, decodeFrame] at found
    split at found
    · next own =>
      rw [header]
      exact own.2.2.2
    · cases found

section Append
variable {a b : WALAppender} {hdr latest : Header} {chance : Chance}

theorem append_laid (reopened : Reopened a hdr) (salt1 : hdr.salt1 = h.salt1) (salt2 : hdr.salt2 = h.salt2)
    (enc : hdr.order = h.enc) (ran : a.appendFramesLocked chance frames = some (b, none)) :
    b.f = laid a.pageSize h a.f 0 (hdr.lastFrameChecksum1, hdr.lastFrameChecksum2) frames := by
  have zero : hdr.maxFrame.toNat = 0 := by rw [reopened.empty]; rfl
  rw [call_file reopened.header ran, writes_kept (rewinds_empty reopened.empty), loopWrites_start salt1 salt2 enc, crashed_all, zero]
  rfl

private theorem append_latest (reopened : Reopened a hdr) (marked : finalSize frames ≠ 0) (room : frames.length < 2 ^ 32)
    (ran : a.appendFramesLocked chance frames = some (b, none)) (published : b.shm.readHeader = some latest) :
    b.pageSize = a.pageSize ∧ (∀ f ∈ frames, f.data.length = a.pageSize.toNat) ∧ latest.maxFrame.toNat = frames.length := by
  have zero : hdr.maxFrame.toNat = 0 := by rw [reopened.empty]; rfl
  have short := accepted_le a.pageSize frames
  obtain ⟨same, outcome, found, base, stored, based, start, log⟩ := call_log reopened.header (by omega) ran
  obtain rfl : found = latest := Option.some.inj (stored.symm.trans published)
  have all := outcome.mp rfl
  obtain ⟨body, last, split, size⟩ := finalSize_split marked
  rw [← size] at marked
  have shown : transaction a.pageSize frames = some (change frames last.header.nTruncate) := by
    rw [transaction, all, split, committed_marked marked]
    rfl
  have nothing : base.frames = [] := by
    rw [start, rewindLogIfBackfilled_eq, rewinds_empty reopened.empty]
    exact List.length_eq_zero_iff.mp ((log_length a hdr).trans zero)
  refine ⟨same, accepted_eq_self.mp all, ?_⟩
  rw [← log_length b found, log, shown, Option.elim_some, PageLog.publish, nothing]
  simp [change]

theorem exists_fileHeader (hdr : Header) : ∃ h : WALHeader, hdr.salt1 = h.salt1 ∧ hdr.salt2 = h.salt2 ∧ hdr.order = h.enc := by
  refine ⟨⟨if hdr.order = .bigEndian then walHeaderMagicBE else walHeaderMagicLE, 0, 0, 0, hdr.salt1, hdr.salt2, 0, 0⟩, rfl, rfl, ?_⟩
  cases hdr.order with
  | littleEndian => rfl
  | bigEndian => rfl

theorem laid_first {f : Frame} {rest : List Frame} (sized : pageSize ∈ pageSizes) (length : f.data.length = pageSize.toNat) :
    storedFrame pageSize (laid pageSize h wal 0 sums (f :: rest)) 1 = stamped h.enc h.salt1 h.salt2 sums f := by
  have whole : (stamped h.enc h.salt1 h.salt2 sums f).data.length = pageSize.toNat := by
    rw [(stamped_kept _ _ _ _ f).1, length]
  rw [laid_cons sized length, (laid_below sized).2 1 (Nat.le_refl 1) (Nat.le_refl 1)]
  exact storedFrame_written _ whole

private theorem append_first {f : Frame} {rest : List Frame} (sized : a.pageSize ∈ pageSizes) (reopened : Reopened a hdr)
    (length : f.data.length = a.pageSize.toNat) (ran : a.appendFramesLocked chance (f :: rest) = some (b, none)) :
    fileHeader b.f = fileHeader a.f ∧ storedFrame a.pageSize b.f 1 =
      stamped hdr.order hdr.salt1 hdr.salt2 (hdr.lastFrameChecksum1, hdr.lastFrameChecksum2) f := by
  obtain ⟨h, salt1, salt2, enc⟩ := exists_fileHeader hdr
  rw [append_laid reopened salt1 salt2 enc ran, salt1, salt2, enc]
  exact ⟨(laid_below sized).1, laid_first sized length⟩

/-- An append into an epoch that SQLite opened leaves a log that can be recovered if and
only if the wal-index went on from the header of the log file. -/
theorem append_recoverable_iff (sized : a.pageSize ∈ pageSizes) (reopened : Reopened a hdr)
    (real : ∀ f ∈ frames, f.header.pgNo ≠ 0)
    (marked : finalSize frames ≠ 0) (room : frames.length < 2 ^ 32)
    (ran : a.appendFramesLocked chance frames = some (b, none)) (published : b.shm.readHeader = some latest) :
    Recoverable b latest ↔ Seeded a hdr := by
  obtain ⟨same, lengths, count⟩ := append_latest reopened marked room ran published
  constructor
  · intro recoverable
    cases frames with
    | nil => exact absurd rfl marked
    | cons f rest =>
      have length := lengths f List.mem_cons_self
      obtain ⟨header, first⟩ := append_first sized reopened length ran
      obtain ⟨sound, salts, chained, -⟩ := recoverable
      obtain ⟨salt1, salt2⟩ := salts 1 (Nat.le_refl 1) (by rw [count]; exact Nat.le_add_left 1 _)
      rw [header] at sound salt1 salt2 chained
      obtain ⟨-, enc⟩ := reopened.file sound
      rw [same, first, stamped_eq sized length] at salt1 salt2 chained
      rw [enc] at chained
      obtain ⟨sum1, sum2⟩ := Checksum.computeChecksums_inj _ chained
      exact ⟨⟨salt1.symm, salt2.symm, sum1, sum2⟩, sound⟩
  · intro seeded
    obtain ⟨paged, enc⟩ := reopened.file seeded.sound
    have file := append_laid reopened seeded.salt1.symm seeded.salt2.symm enc.symm ran
    rw [← seeded.checksum1, ← seeded.checksum2] at file
    have start : Linked a.pageSize a.f (fileHeader a.f) 0 ((fileHeader a.f).checksum1, (fileHeader a.f).checksum2) :=
      ⟨rfl, seeded.sound, paged, rfl⟩
    obtain ⟨final, linked⟩ := laid_linked sized start lengths real
    obtain ⟨body, last, split, size⟩ := finalSize_split marked
    rw [← file, ← same, Nat.zero_add, ← count] at linked
    refine recoverable_linked linked ?_ ?_
    · rw [count, split, List.length_append]
      exact Nat.le_add_left 1 _
    · rw [split] at lengths file count
      have ended := @laid_last a.pageSize a.f (fileHeader a.f) 0 ((fileHeader a.f).checksum1, (fileHeader a.f).checksum2) body last
        sized lengths
      rw [← file, Nat.zero_add, ← count, ← same] at ended
      rw [ended, size]
      exact marked

private theorem append_lost {f : Frame} {rest : List Frame} (sized : a.pageSize ∈ pageSizes) (reopened : Reopened a hdr)
    (length : f.data.length = a.pageSize.toNat) (ran : a.appendFramesLocked chance (f :: rest) = some (b, none))
    (unseeded : ¬ Seeded a hdr) (slots : Nat) : (recover b.f slots).mxFrame = 0 := by
  obtain ⟨header, first⟩ := append_first sized reopened length ran
  cases sound : (fileHeader a.f).sound with
  | false =>
    rw [recover, header, sound]
    rfl
  | true =>
    obtain ⟨paged, enc⟩ := reopened.file sound
    have stops : reads a.pageSize b.f (fileHeader a.f) 1 = none := by
      rw [reads, running, running, Option.bind_some, first, stamped_eq sized length, decodeFrame, if_neg]
      rintro ⟨salt1, salt2, -, chained⟩
      rw [enc] at chained
      obtain ⟨sum1, sum2⟩ := Checksum.computeChecksums_inj _ chained
      exact unseeded ⟨⟨salt1.symm, salt2.symm, sum1, sum2⟩, sound⟩
    have found : recover b.f slots = ⟨0, _, _⟩ := recover_eq header sound paged rfl (Nat.zero_le _) (.inl rfl) fun m positive _ fits => by
      have one := running_before fits positive
      rw [show running _ _ _ _ = _ from stops] at one
      cases one
    rw [found]

theorem restarted_header (a : WALAppender) (hdr : Header) (salt2 : UInt32) :
    (restarted a hdr salt2).1.shm.readHeader = some (restarted a hdr salt2).2 :=
  (readHeader_writeCheckpointInfo _ _).trans (readHeader_writeHeader _ _)

private theorem restarted_salt2 (a : WALAppender) (hdr : Header) (salt2 : UInt32) : (restarted a hdr salt2).2.salt2 = salt2 := rfl

private theorem epochHeader_salt2 (pageSize : UInt32) (hdr : Header) (nCkpt : UInt32) :
    (epochHeader pageSize hdr nCkpt).salt2 = swapped hdr.salt2 := rfl

private theorem blank_unsound : (fileHeader fun _ => 0).sound = false := by
  rw [fileHeader, Storage.read_zeros]
  decide

private theorem not_seeded_truncated (a : WALAppender) (hdr : Header) : ¬ Seeded (truncated a) hdr := by
  intro seeded
  have sound := seeded.sound
  rw [show (truncated a).f = fun _ => 0 from rfl, blank_unsound] at sound
  cases sound

private theorem reopened_truncated (a : WALAppender) (hdr : Header) (salt2 : UInt32) :
    Reopened (truncated (restarted a hdr salt2).1) (restarted a hdr salt2).2 := by
  refine ⟨restarted_header a hdr salt2, rfl, fun sound => ?_⟩
  rw [show (truncated (restarted a hdr salt2).1).f = fun _ => 0 from rfl, blank_unsound] at sound
  cases sound

private theorem fileHeader_opened (a : WALAppender) (hdr : Header) (nCkpt : UInt32) :
    fileHeader (opened a hdr nCkpt).f = epochHeader a.pageSize hdr nCkpt := fileHeader_write a.f _

private theorem reopened_opened (a : WALAppender) (hdr : Header) (salt2 nCkpt : UInt32) :
    Reopened (opened (restarted a hdr salt2).1 (restarted a hdr salt2).2 nCkpt) (restarted a hdr salt2).2 := by
  refine ⟨restarted_header a hdr salt2, rfl, fun _ => ?_⟩
  rw [fileHeader_opened]
  generalize (restarted a hdr salt2).2 = latest
  refine ⟨rfl, ?_⟩
  rw [epochHeader, WALHeader.updateChecksums, WALHeader.enc]
  cases latest.order with
  | littleEndian => rfl
  | bigEndian => rfl

end Append

private theorem append_one_lost {c : WALAppender} {hdr : Header} (size : c.pageSize = 512) (reopened : Reopened c hdr)
    (unseeded : ¬ Seeded c hdr) : ∃ b latest,
      c.appendFramesLocked ⟨false, 3, 4⟩ [image 2 2 2] = some (b, none) ∧ b.shm.readHeader = some latest ∧
        latest.maxFrame = 1 ∧ ∀ slots, (recover b.f slots).mxFrame = 0 := by
  have zero : hdr.maxFrame.toNat = 0 := by rw [reopened.empty]; rfl
  have slots (count : Nat) : HasSlots c ⟨false, 3, 4⟩ count :=
    hasSlots_of_free reopened.header _ (by rw [reopened.empty]; exact freeSlots_start _ count)
  have sized : c.pageSize ∈ pageSizes := by rw [size]; decide
  have lengths : ∀ f ∈ [] ++ [image 2 2 2], f.data.length = c.pageSize.toNat := by
    rw [size]
    decide +kernel
  obtain ⟨b, latest, -, ran, published, -⟩ :=
    append_published reopened.header lengths (by decide) (by rw [zero]; decide) (slots _)
  obtain ⟨-, -, count⟩ := append_latest reopened (by decide) (by decide) ran published
  exact ⟨b, latest, ran, published, UInt32.toNat_inj.mp count,
    append_lost sized reopened (lengths _ List.mem_cons_self) ran unseeded⟩

private theorem restarted_lost {a : WALAppender} (hdr : Header) (size : a.pageSize = 512) :
    ∀ c ∈ [truncated (restarted a hdr 9).1, opened (restarted a hdr 9).1 (restarted a hdr 9).2 1], ∃ b latest,
      c.appendFramesLocked ⟨false, 3, 4⟩ [image 2 2 2] = some (b, none) ∧ b.shm.readHeader = some latest ∧
        latest.maxFrame = 1 ∧ ∀ slots, (recover b.f slots).mxFrame = 0 := by
  intro c member
  rcases List.mem_pair.mp member with rfl | rfl
  · exact append_one_lost size (reopened_truncated a hdr 9) (not_seeded_truncated _ _)
  · refine append_one_lost size (reopened_opened a hdr 9 1) fun seeded => ?_
    have same := seeded.salt2
    rw [fileHeader_opened, epochHeader_salt2, restarted_salt2] at same
    exact absurd same (by decide)

/-- After a copied log of one frame SQLite opens a new epoch. Whether it truncated the file or
wrote a header to it, an append publishes a frame that recovery does not find. -/
theorem epoch_lost : ∃ start a hdr, (WALAppender.fresh 512 twoPages).maybeBootstrap 0 1 2 = some (.ok start) ∧
    exec step start [.append ⟨true, 0, 0⟩ [image 1 1 2], .checkpoint 1] = some a ∧ a.shm.readHeader = some hdr ∧
    ∀ c ∈ [truncated (restarted a hdr 9).1, opened (restarted a hdr 9).1 (restarted a hdr 9).2 1], ∃ b latest,
      c.appendFramesLocked ⟨false, 3, 4⟩ [image 2 2 2] = some (b, none) ∧ b.shm.readHeader = some latest ∧
        latest.maxFrame = 1 ∧ ∀ slots, (recover b.f slots).mxFrame = 0 := by
  obtain ⟨start, booted⟩ := bootstrap_fresh 512 1 2 twoPages (Nat.zero_le _)
  obtain ⟨first, ready, size, log⟩ := bootstrap_ready booted
  have zero : first.maxFrame.toNat = 0 := by rw [← log_length start first, log, List.length_nil]
  have lengths : ∀ f ∈ [] ++ [image 1 1 2], f.data.length = start.pageSize.toNat := by
    rw [size]
    decide +kernel
  obtain ⟨b, hdr, -, ran, published, -, same, -⟩ :=
    append_published ready.header lengths (by decide) (by rw [zero]; decide) (ready.hasSlots ⟨true, 0, 0⟩ _)
  have settled := checkpoint_settles published 1
  have paged := settled.pageSize.trans (same.trans size)
  refine ⟨start, b.checkpoint 1, hdr, booted, ?_, settled.header published, ?_⟩
  · rw [List.nil_append] at ran
    rw [exec, step, ran, Option.map_some, Option.bind_some, exec, step, Option.bind_some, exec]
  · exact restarted_lost hdr paged

private theorem sound_seeded {a : WALAppender} {hdr : Header} (sound : Sound pageSize a hdr h) (empty : hdr.maxFrame = 0) :
    Reopened a hdr ∧ Seeded a hdr := by
  obtain ⟨chain, -, salt1, salt2, enc⟩ := sound.durable
  have last : some (h.checksum1, h.checksum2) = some (hdr.lastFrameChecksum1, hdr.lastFrameChecksum2) := by
    rw [← chain.last, empty]
    rfl
  obtain ⟨sum1, sum2⟩ := Prod.mk.inj (Option.some.inj last)
  refine ⟨⟨sound.header, empty, fun _ => ?_⟩, ⟨?_, ?_, ?_, ?_⟩, ?_⟩
  · rw [chain.header]
    exact ⟨chain.paged, enc.symm⟩
  all_goals rw [chain.header]
  · exact salt1.symm
  · exact salt2.symm
  · exact sum1
  · exact sum2
  · exact chain.sound

/-- Right after the bootstrap the wal-index goes on from the file header. -/
theorem bootstrapped_recoverable : ∃ start b hdr latest, (WALAppender.fresh 512 twoPages).maybeBootstrap 0 1 2 = some
    (.ok start) ∧
    Reopened start hdr ∧ start.appendFramesLocked ⟨false, 3, 4⟩ [image 2 2 0, image 1 2 2] = some (b, none) ∧
    b.shm.readHeader = some latest ∧ Recoverable b latest := by
  have sized : (512 : UInt32) ∈ pageSizes := by decide
  obtain ⟨start, booted⟩ := bootstrap_fresh 512 1 2 twoPages (Nat.zero_le _)
  obtain ⟨hdr, ready, empty, sound⟩ := sound_bootstrap sized booted
  obtain ⟨reopened, seeded⟩ := sound_seeded sound empty
  have size := sound.pageSize
  have lengths : ∀ f ∈ [image 2 2 0] ++ [image 1 2 2], f.data.length = start.pageSize.toNat := by
    rw [size]
    decide +kernel
  obtain ⟨b, latest, -, ran, published, -⟩ :=
    append_published ready.header lengths (by decide) (by rw [empty]; decide) (ready.hasSlots ⟨false, 3, 4⟩ _)
  refine ⟨start, b, hdr, latest, booted, reopened, ran, published, ?_⟩
  exact (append_recoverable_iff (by rw [size]; exact sized) reopened (by decide) (by decide) (by decide) ran published).mpr seeded

end Literaft.Proofs.Epoch
