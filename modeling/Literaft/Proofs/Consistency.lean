import Literaft.Store
import Literaft.Proofs.Writes

/-! The published header and the log file agree: recovery would find what is published.
Appends and checkpoints keep it so, as long as a log that starts again has new salts. -/

namespace Literaft.Proofs.Consistency
open Library Wal Shm WalAppender Literaft.Recovery Literaft.Crash Literaft.Store LogFile Index Appender Calls Recovery Writes

variable {pageSize : UInt32} {h : WALHeader} {slots : Nat} {frames : List Frame}

/-- The log file is what the published header says it is. -/
structure Durable (h : WALHeader) (a : WALAppender) (hdr : Header) : Prop where
  chain : Chain a.pageSize a.f h hdr.maxFrame.toNat (hdr.lastFrameChecksum1, hdr.lastFrameChecksum2) hdr.maxFrame.toNat
    (hdr.lastFrameChecksum1, hdr.lastFrameChecksum2)
  size : hdr.pageCount = sizeAt a.pageSize a.f hdr.maxFrame.toNat
  salt1 : hdr.salt1 = h.salt1
  salt2 : hdr.salt2 = h.salt2
  enc : hdr.order = h.enc

theorem Durable.recovers {a : WALAppender} {hdr : Header} (durable : Durable h a hdr) (inside : hdr.maxFrame.toNat ≤ slots) :
    recover a.f slots =
      ⟨hdr.maxFrame.toNat, hdr.pageCount, hdr.lastFrameChecksum1, hdr.lastFrameChecksum2⟩ := by
  rw [durable.chain.recovers inside, durable.size]

/-- The loop and the log file agree on how far the log has come. -/
structure Sync (h : WALHeader) (c : Cursor) : Prop where
  chain : Chain c.appender.pageSize c.appender.f h c.currentFrameIdx.toNat (c.lastFrameChecksum1, c.lastFrameChecksum2)
    c.hdr.maxFrame.toNat (c.hdr.lastFrameChecksum1, c.hdr.lastFrameChecksum2)
  size : c.hdr.pageCount = sizeAt c.appender.pageSize c.appender.f c.hdr.maxFrame.toNat
  salt1 : c.hdr.salt1 = h.salt1
  salt2 : c.hdr.salt2 = h.salt2
  enc : c.hdr.order = h.enc
  checksums : c.checksumEnc = h.enc
  offset : c.currentOffset = frameOffset c.appender.pageSize (c.currentFrameIdx.toNat + 1)
  header : c.appender.shm.readHeader = some c.hdr

private theorem Durable.sync {a : WALAppender} {hdr : Header} (durable : Durable h a hdr) (header : a.shm.readHeader = some hdr) :
    Sync h (Cursor.start a hdr) :=
  ⟨durable.chain, durable.size, durable.salt1, durable.salt2, durable.enc, durable.enc, rfl, header⟩

theorem Sync.durable {c : Cursor} (sync : Sync h c) : Durable h c.appender c.hdr :=
  ⟨sync.chain.settle, sync.size, sync.salt1, sync.salt2, sync.enc⟩

theorem Sync.loop {c : Cursor} (sync : Sync h c) : Loop c.currentFrameIdx.toNat c.hdr c := ⟨rfl, sync.offset, sync.header⟩

theorem Sync.chained {c : Cursor} (sync : Sync h c) (f : Frame) :
    c.chained f = stamped h.enc h.salt1 h.salt2 (c.lastFrameChecksum1, c.lastFrameChecksum2) f := by
  rw [Cursor.chained, sync.checksums, sync.salt1, sync.salt2]
  rfl

theorem Sync.advance {c : Cursor} {f : Frame} {shm : SharedMemory} (sync : Sync h c) (sized : c.appender.pageSize ∈ pageSizes)
    (length : f.data.length = c.appender.pageSize.toNat) (real : f.header.pgNo ≠ 0) (room : c.currentFrameIdx.toNat + 1 < 2 ^ 32)
    (low : ∀ address, address < headerSize → shm 0 address = c.appender.shm 0 address) :
    Sync h (if f.header.nTruncate ≠ 0 then (c.advance (c.chained f) shm).publish f.header.nTruncate
      else c.advance (c.chained f) shm) := by
  have next := sync.loop.next room
  have file := sync.loop.wal (c.chained f) shm
  have chained := sync.chained f
  obtain ⟨data, -, nTruncate⟩ := stamped_kept h.enc h.salt1 h.salt2 (c.lastFrameChecksum1, c.lastFrameChecksum2) f
  have right : (c.chained f).data.length = c.appender.pageSize.toNat := by rw [chained, data, length]
  have taken : decodeFrame h (c.lastFrameChecksum1, c.lastFrameChecksum2) (c.chained f) =
      some ((c.chained f).header.checksum1, (c.chained f).header.checksum2) := by
    rw [chained, decodeFrame_stamped sized length real, stamped_eq sized length]
  have written := sync.chain.write right taken
  rw [← file, ← next, chained, nTruncate, ← chained] at written
  obtain ⟨⟨-, offset, header⟩, -, -⟩ := sync.loop.advance right room low
  rw [← next] at offset
  split
  · next commit =>
    simp only [if_pos commit] at written
    refine ⟨written, ?_, sync.salt1, sync.salt2, sync.enc, sync.checksums, offset, readHeader_writeHeader _ _⟩
    have last := sizeAt_last c.appender.f right c.currentFrameIdx.toNat
    rw [← file, ← next, chained, nTruncate, ← chained] at last
    exact last.symm
  · next plain =>
    simp only [if_neg plain] at written
    refine ⟨written, ?_, sync.salt1, sync.salt2, sync.enc, sync.checksums, offset, header⟩
    have same := sizeAt_written c.appender.f right sync.chain.inside
    rw [← file] at same
    exact sync.size.trans same.symm

theorem Sync.append {c d : Cursor} {f : Frame} (sync : Sync h c) (sized : c.appender.pageSize ∈ pageSizes)
    (real : f.header.pgNo ≠ 0) (room : c.currentFrameIdx.toNat + 1 < 2 ^ 32) (appended : c.appendFrame f = some d) :
    Sync h d ∧ d.appender.pageSize = c.appender.pageSize ∧ d.currentFrameIdx.toNat ≤ c.currentFrameIdx.toNat + 1 := by
  rcases appendFrame_cases appended with ⟨-, rfl⟩ | ⟨-, -, message, rfl⟩ | ⟨-, length, shm, added, rfl⟩
  · exact ⟨sync, rfl, Nat.le_succ _⟩
  · exact ⟨⟨sync.chain, sync.size, sync.salt1, sync.salt2, sync.enc, sync.checksums, sync.offset, sync.header⟩, rfl,
      Nat.le_succ _⟩
  · have next := sync.loop.next room
    have low := addFrame_low (by rw [next]; exact Nat.le_add_left 1 _) added
    refine ⟨sync.advance sized length real room low, ?_⟩
    split <;> exact ⟨rfl, Nat.le_of_eq next⟩

theorem Sync.run {c d : Cursor} (sync : Sync h c) (sized : c.appender.pageSize ∈ pageSizes)
    (real : ∀ f ∈ frames, f.header.pgNo ≠ 0) (room : c.currentFrameIdx.toNat + frames.length < 2 ^ 32)
    (ran : frames.foldlM Cursor.appendFrame c = some d) : Sync h d := by
  induction frames generalizing c with
  | nil =>
    cases ran
    exact sync
  | cons f rest ih =>
    rw [List.foldlM_cons] at ran
    rw [List.length_cons] at room
    obtain ⟨e, appended, ran⟩ := Option.bind_eq_some_iff.mp ran
    obtain ⟨next, same, further⟩ := sync.append sized (real f List.mem_cons_self) (by omega) appended
    exact ih next (same ▸ sized) (fun g member => real g (List.mem_cons_of_mem _ member)) (by omega) ran

private theorem durable_rewind {a : WALAppender} {hdr : Header} {chance : Chance} (little : hdr.order = .littleEndian)
    (sized : a.pageSize ∈ pageSizes) (fresh : FreshSalts a.pageSize a.f chance.salt1 chance.salt2) :
    Durable (WALHeader.initHeader a.pageSize chance.salt1 chance.salt2) (a.rewind hdr chance).1 (a.rewind hdr chance).2 := by
  have chain := chain_initHeader sized fresh
  have mxFrame : (a.rewind hdr chance).2.maxFrame.toNat = 0 := rfl
  have sum1 : (a.rewind hdr chance).2.lastFrameChecksum1 =
    (WALHeader.initHeader a.pageSize chance.salt1 chance.salt2).checksum1 := rfl
  have sum2 : (a.rewind hdr chance).2.lastFrameChecksum2 =
    (WALHeader.initHeader a.pageSize chance.salt1 chance.salt2).checksum2 := rfl
  have file : (a.rewind hdr chance).1.f =
    a.f.write 0 (WALHeader.initHeader a.pageSize chance.salt1 chance.salt2).bytes := rfl
  have size : (a.rewind hdr chance).1.pageSize = a.pageSize := rfl
  refine ⟨?_, ?_, rfl, rfl, little⟩
  · rw [mxFrame, sum1, sum2, file, size]
    exact chain
  · rw [mxFrame]
    rfl

/-- What an append is asked for: page numbers from one on, frame numbers within 32 bits, and
new salts for a new log. -/
structure Orderly (a : WALAppender) (hdr : Header) (chance : Chance) (frames : List Frame) : Prop where
  real : ∀ f ∈ frames, f.header.pgNo ≠ 0
  room : hdr.maxFrame.toNat + frames.length < 2 ^ 32
  fresh : rewinds a hdr chance = true → FreshSalts a.pageSize a.f chance.salt1 chance.salt2

/-- What every run of orderly appends and checkpoints keeps true of an appender's files. -/
structure Sound (pageSize : UInt32) (a : WALAppender) (hdr : Header) (h : WALHeader) : Prop where
  pageSize : a.pageSize = pageSize
  header : a.shm.readHeader = some hdr
  durable : Durable h a hdr
  little : h.enc = .littleEndian
  intact : (a.log hdr).Intact

section Call
variable {a : WALAppender} {hdr : Header} {chance : Chance}

/-- Behind the rewind, if there was one, the files are in order again. -/
theorem Sound.started (sound : Sound pageSize a hdr h) (sized : pageSize ∈ pageSizes) (orderly : Orderly a hdr chance frames) :
    ∃ h', Sound pageSize (a.rewindLogIfBackfilled hdr chance).1 (a.rewindLogIfBackfilled hdr chance).2 h' := by
  have started := started_rewindLogIfBackfilled sound.header chance
  obtain ⟨-, intact⟩ := started.base.visible sound.intact
  have little : hdr.order = .littleEndian := sound.durable.enc.trans sound.little
  have durable : ∃ h', Durable h' (a.rewindLogIfBackfilled hdr chance).1 (a.rewindLogIfBackfilled hdr chance).2 ∧
      h'.enc = .littleEndian := by
    rw [rewindLogIfBackfilled_eq]
    split
    · next rewinding =>
      exact ⟨_, durable_rewind little (by rw [sound.pageSize]; exact sized) (orderly.fresh rewinding), rfl⟩
    · exact ⟨h, sound.durable, sound.little⟩
  obtain ⟨h', durable, also⟩ := durable
  exact ⟨h', started.pageSize.trans sound.pageSize, started.header, durable, also, intact⟩

theorem Sound.call {b : WALAppender} {err : Option String} (sound : Sound pageSize a hdr h) (sized : pageSize ∈ pageSizes)
    (orderly : Orderly a hdr chance frames) (ran : a.appendFramesLocked chance frames = some (b, err)) :
    ∃ latest h', Sound pageSize b latest h' := by
  obtain ⟨h', started⟩ := sound.started sized orderly
  have fewer := (started_rewindLogIfBackfilled sound.header chance).fewer
  have room := orderly.room
  have short := accepted_le a.pageSize frames
  obtain ⟨size, -, latest, published, intact, -⟩ := call_visible sound.header sound.intact (by omega) ran
  simp only [WALAppender.appendFramesLocked, sound.header, Option.bind_some] at ran
  obtain ⟨d, looped, ended⟩ := Option.map_eq_some_iff.mp ran
  cases ended
  have sync := (started.durable.sync started.header).run (by
    rw [← started.pageSize] at sized
    exact sized) orderly.real (by
    rw [show (Cursor.start _ _).currentFrameIdx.toNat = (a.rewindLogIfBackfilled hdr chance).2.maxFrame.toNat from rfl]
    omega) looped
  obtain rfl : d.hdr = latest := Option.some.inj (sync.header.symm.trans published)
  exact ⟨d.hdr, h', size.trans sound.pageSize, published, sync.durable, started.little, intact⟩

theorem Sound.checkpoint (sound : Sound pageSize a hdr h) (k : UInt32) : Sound pageSize (a.checkpoint k) hdr h := by
  have settled := checkpoint_settles sound.header k
  obtain ⟨chain, size, salt1, salt2, enc⟩ := sound.durable
  refine ⟨settled.pageSize.trans sound.pageSize, settled.header sound.header, ⟨?_, ?_, salt1, salt2, enc⟩, sound.little,
    (settled.visible sound.intact).1⟩
  · rw [settled.pageSize, settled.wal]
    exact chain
  · rw [settled.pageSize, settled.wal]
    exact size

end Call

def OrderlyRun : WALAppender → List Operation → Prop
  | _, [] => True
  | a, operation :: rest =>
    (∀ chance frames hdr, operation = .append chance frames → a.shm.readHeader = some hdr → Orderly a hdr chance frames) ∧
      ∀ b, step a operation = some b → OrderlyRun b rest

theorem Sound.exec {a b : WALAppender} {hdr : Header} {operations : List Operation} (sound : Sound pageSize a hdr h)
    (sized : pageSize ∈ pageSizes) (orderly : OrderlyRun a operations) (executed : exec step a operations = some b) :
    ∃ latest h', Sound pageSize b latest h' := by
  induction operations generalizing a hdr h with
  | nil =>
    cases executed
    exact ⟨hdr, h, sound⟩
  | cons operation rest ih =>
    obtain ⟨next, first, remaining⟩ := Option.bind_eq_some_iff.mp executed
    obtain ⟨here, later⟩ := orderly
    have further := later next first
    cases operation with
    | append chance frames =>
      rw [step] at first
      obtain ⟨⟨_, err⟩, ran, rfl⟩ := Option.map_eq_some_iff.mp first
      obtain ⟨latest, h', kept⟩ := sound.call sized (here chance frames hdr rfl sound.header) ran
      exact ih kept further remaining
    | checkpoint k =>
      rw [step, Option.some.injEq] at first
      subst first
      exact ih (sound.checkpoint k) further remaining

theorem sound_bootstrap {a : WALAppender} {db : Database Bytes} {walSize : Nat} {salt1 salt2 : UInt32}
    (sized : pageSize ∈ pageSizes)
    (booted : (WALAppender.fresh pageSize db).maybeBootstrap walSize salt1 salt2 = some (.ok a)) :
    ∃ hdr, Ready a hdr ∧ hdr.maxFrame = 0 ∧ Sound pageSize a hdr (WALHeader.initHeader pageSize salt1 salt2) := by
  obtain ⟨hdr, ready, size, log⟩ := bootstrap_ready booted
  have intact : (a.log hdr).Intact := by
    rw [log]
    exact (PageLog.Valid.start db).intact
  have fresh : FreshSalts pageSize (fun _ => 0) salt1 salt2 := by
    intro m _ real
    refine absurd ?_ real
    rw [storedFrame, Storage.read_zeros]
    rfl
  have chain := chain_initHeader sized fresh
  have start := bootstrap_eq booted
  subst start
  have header : hdr = (Shm.initHeader pageSize (WALHeader.initHeader pageSize salt1 salt2).checksum1
      (WALHeader.initHeader pageSize salt1 salt2).checksum2 salt1 salt2).updateChecksums :=
    Option.some.inj (ready.header.symm.trans (readHeader_writeHeader _ _))
  subst header
  exact ⟨_, ready, rfl, size, ready.header, ⟨chain, rfl, rfl, rfl, rfl⟩, rfl, intact⟩

end Literaft.Proofs.Consistency
