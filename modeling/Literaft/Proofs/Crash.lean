import Literaft.Proofs.Consistency
import Literaft.Proofs.Store

/-! A crash between two writes of an append. What recovery finds then is what the log
showed after some whole number of the transactions of that append. -/

namespace Literaft.Proofs.Crash
open Library Wal Shm WalAppender Literaft.Recovery Literaft.Crash Literaft.Store LogFile Index Appender Calls Recovery
  Writes Consistency Store

variable {pageSize : UInt32} {wal : Storage} {h : WALHeader} {n kept slots : Nat} {sums keptSums : UInt32 × UInt32}
  {frames : List Frame}

/-- Where a commit frame goes, there is no other page with the same checksum. -/
def Distinct (pageSize : UInt32) (enc : ByteOrder) (wal : Storage) (n : Nat) (frames : List Frame) : Prop :=
  ∀ i f, (accepted pageSize frames)[i]? = some f → f.header.nTruncate ≠ 0 →
    computeChecksums enc (storedFrame pageSize wal (n + 1 + i)).data 0 0 = computeChecksums enc f.data 0 0 →
      (storedFrame pageSize wal (n + 1 + i)).data = f.data

/-- Recovery finds the chain of before and behind it `front`, which is nothing or ends with
a commit frame. -/
structure Leaves (pageSize : UInt32) (wal after : Storage) (slots n kept : Nat) (front : List Frame) : Prop where
  whole : front = [] ∨ finalSize front ≠ 0
  below : ∀ m, 1 ≤ m → m ≤ n → storedFrame pageSize after m = storedFrame pageSize wal m
  holds : Holds pageSize after (n + 1) front
  mxFrame : (recover after slots).mxFrame = if front = [] then kept else n + front.length
  nPage : (recover after slots).nPage = if front = [] then sizeAt pageSize wal kept else finalSize front

private theorem leaves_nothing {after : Storage}
    (below : ∀ m, 1 ≤ m → m ≤ n → storedFrame pageSize after m = storedFrame pageSize wal m)
    (found : recover after slots = ⟨kept, sizeAt pageSize wal kept, keptSums⟩) : Leaves pageSize wal after slots n kept [] :=
  ⟨.inl rfl, below, Holds.nil _ _, by rw [found, if_pos rfl], by rw [found, if_pos rfl]⟩

theorem Leaves.cons {f g : Frame} {front : List Frame} {after : Storage} (length : g.data.length = pageSize.toNat)
    (image : g.image = f.image) (nTruncate : g.header.nTruncate = f.header.nTruncate) (inside : kept ≤ n)
    (leaves : Leaves pageSize (writtenFrame pageSize wal (n + 1) g) after slots (n + 1)
      (if f.header.nTruncate ≠ 0 then n + 1 else kept) front) :
    ∃ front', (front' = [] ∨ ∃ rest, front' = f :: rest ∧ rest <+: front) ∧ Leaves pageSize wal after slots n kept front' := by
  have here : storedFrame pageSize after (n + 1) = g :=
    (leaves.below (n + 1) (Nat.le_add_left 1 n) (Nat.le_refl _)).trans (storedFrame_written _ length)
  have below (m : Nat) (positive : 1 ≤ m) (before : m ≤ n) : storedFrame pageSize after m = storedFrame pageSize wal m :=
    (leaves.below m positive (by omega)).trans
      (storedFrame_written_other _ length positive (Nat.le_add_left 1 n) (by omega))
  have first : logFrame pageSize after (n + 1) = f.image := by
    rw [← storedFrame_image, here, image]
  by_cases empty : front = []
  · subst empty
    by_cases commit : f.header.nTruncate ≠ 0
    · refine ⟨[f], .inr ⟨[], rfl, List.nil_prefix⟩, .inr commit, below, (Holds.nil _ _).cons first, ?_, ?_⟩
      · rw [leaves.mxFrame, if_pos rfl, if_pos commit, if_neg (List.cons_ne_nil _ _), List.length_singleton]
      · rw [leaves.nPage, if_pos rfl, if_pos commit, if_neg (List.cons_ne_nil _ _), sizeAt_last _ length, nTruncate]
        rfl
    · refine ⟨[], .inl rfl, .inl rfl, below, Holds.nil _ _, ?_, ?_⟩
      · rw [leaves.mxFrame, if_pos rfl, if_neg commit, if_pos rfl]
      · rw [leaves.nPage, if_pos rfl, if_neg commit, if_pos rfl, sizeAt_written _ length inside]
  · have last : finalSize (f :: front) = finalSize front := by
      simp [finalSize, List.getLast?_cons, List.getLast?_eq_some_getLast empty]
    refine ⟨f :: front, .inr ⟨front, rfl, List.prefix_refl _⟩, .inr ?_, below, leaves.holds.cons first, ?_, ?_⟩
    · rw [last]
      exact leaves.whole.resolve_left empty
    · rw [leaves.mxFrame, if_neg empty, if_neg (List.cons_ne_nil _ _), List.length_cons]
      omega
    · rw [leaves.nPage, if_neg empty, if_neg (List.cons_ne_nil _ _), last]

theorem Distinct.rest {enc : ByteOrder} {f g : Frame} {rest : List Frame} (distinct : Distinct pageSize enc wal n (f :: rest))
    (right : f.data.length = pageSize.toNat) (length : g.data.length = pageSize.toNat) :
    Distinct pageSize enc (writtenFrame pageSize wal (n + 1) g) (n + 1) rest := by
  intro i later found commit same
  rw [storedFrame_written_other _ length (by omega) (Nat.le_add_left 1 n) (by omega)] at same ⊢
  have further : (accepted pageSize (f :: rest))[i + 1]? = some later := by
    simpa [accepted, right] using found
  rw [show n + 1 + 1 + i = n + 1 + (i + 1) by omega] at same ⊢
  exact distinct (i + 1) later further commit same

/-- A header alone makes a frame of the data that is there already. -/
theorem write_header (wal : Storage) (n : Nat) (header : FrameHeader) : wal.write (frameOffset pageSize n) header.bytes =
    writtenFrame pageSize wal n ⟨header, (storedFrame pageSize wal n).data⟩ := by
  have stored : storedFrame pageSize (wal.write (frameOffset pageSize n) header.bytes) n =
      ⟨header, (storedFrame pageSize wal n).data⟩ := storedFrame_write_header wal n header
  refine (Storage.write_same ?_).symm
  rw [show (storedFrame pageSize wal n).data.length = pageSize.toNat from Storage.read_length _ _ _]
  exact congrArg Frame.data stored

/-- A crash in the loop: after every write, recovery finds whole transactions only. -/
theorem crash_loop (chain : Chain pageSize wal h n sums kept keptSums) (sized : pageSize ∈ pageSizes)
    (real : ∀ f ∈ frames, f.header.pgNo ≠ 0) (distinct : Distinct pageSize h.enc wal n frames) (inside : kept ≤ slots)
    (count : Nat) : ∃ front, front <+: accepted pageSize frames ∧
      Leaves pageSize wal (crashed wal (tail pageSize h n sums frames) count) slots n kept front := by
  induction frames generalizing wal n sums kept keptSums count with
  | nil =>
    rw [show tail pageSize h n sums [] = [] from rfl, crashed_nil]
    exact ⟨[], List.nil_prefix, leaves_nothing (fun _ _ _ => rfl) (chain.recovers inside)⟩
  | cons f rest ih =>
    by_cases near : slots ≤ n
    · obtain ⟨header, below⟩ := crashed_below wal h n sums (f :: rest) sized count
      exact ⟨[], List.nil_prefix, leaves_nothing below (chain.recovers_within header inside
        fun m positive within => below m positive (Nat.le_trans within near))⟩
    by_cases wrong : f.data.length ≠ pageSize.toNat
    · rw [tail_wrong wrong, crashed_nil]
      exact ⟨[], List.nil_prefix, leaves_nothing (fun _ _ _ => rfl) (chain.recovers inside)⟩
    have right := not_not.mp wrong
    obtain ⟨data, pgNo, nTruncate⟩ := stamped_kept h.enc h.salt1 h.salt2 sums f
    have length : (stamped h.enc h.salt1 h.salt2 sums f).data.length = pageSize.toNat := by rw [data, right]
    have image : (stamped h.enc h.salt1 h.salt2 sums f).image = f.image := by rw [Frame.image, Frame.image, data, pgNo]
    have taken : decodeFrame h sums (stamped h.enc h.salt1 h.salt2 sums f) = some (f.sums h.enc sums) :=
      decodeFrame_stamped sized right (real f List.mem_cons_self)
    have written := chain.write length taken
    rw [nTruncate] at written
    have within : (if f.header.nTruncate ≠ 0 then n + 1 else kept) ≤ slots := by
      split <;> omega
    have accepts : accepted pageSize (f :: rest) = f :: accepted pageSize rest := by simp [accepted, right]
    have join {after : Storage} {front : List Frame} (some_ : front <+: accepted pageSize rest)
        (leaves : Leaves pageSize (writtenFrame pageSize wal (n + 1) (stamped h.enc h.salt1 h.salt2 sums f)) after slots (n + 1)
          (if f.header.nTruncate ≠ 0 then n + 1 else kept) front) :
        ∃ front, front <+: accepted pageSize (f :: rest) ∧ Leaves pageSize wal after slots n kept front := by
      obtain ⟨front', shape, leaves⟩ := leaves.cons length image nTruncate chain.inside
      refine ⟨front', ?_, leaves⟩
      rw [accepts]
      rcases shape with rfl | ⟨later, rfl, short⟩
      · exact List.nil_prefix
      · exact (List.prefix_cons_inj f).mpr (short.trans some_)
    rw [tail_cons sized right]
    cases count with
    | zero => exact ⟨[], List.nil_prefix, leaves_nothing (fun _ _ _ => rfl) (chain.recovers inside)⟩
    | succ count =>
      cases count with
      | zero =>
        rw [crashed_cons, crashed_zero]
        by_cases same : (storedFrame pageSize wal (n + 1)).data = f.data
        · have whole := @write_header pageSize wal (n + 1) (stamped h.enc h.salt1 h.salt2 sums f).header
          rw [same, ← data] at whole
          rw [whole]
          exact join List.nil_prefix (leaves_nothing (fun _ _ _ => rfl) (written.recovers within))
        · refine ⟨[], List.nil_prefix, leaves_nothing (fun m positive before => ?_) (chain.torn inside fun commit => ?_)⟩
          · exact storedFrame_write_other positive (Nat.le_add_left 1 n) (by omega) (Nat.le_refl _)
              (by rw [FrameHeader.bytes_length]; omega)
          · rw [nTruncate] at commit
            refine decodeFrame_other sized right (by rw [right]; simp [storedFrame]) fun collides => same ?_
            exact distinct 0 f (by rw [accepts]; rfl) commit collides
      | succ count =>
        rw [crashed_cons, crashed_cons, written_stamped]
        obtain ⟨front, some_, leaves⟩ := ih written (fun g member => real g (List.mem_cons_of_mem _ member))
          (distinct.rest right length) within count
        exact join some_ leaves

/-- The visible database after the transactions in `front`. -/
def shown (before : Database Bytes) (front : List Frame) : Database Bytes :=
  if front = [] then before else overwrite before front

section Call
variable {a : WALAppender} {hdr : Header}

/-- What recovery finds, over the database file, is what the log showed after `front`. -/
theorem Leaves.visible {after : Storage} {front : List Frame}
    (leaves : Leaves a.pageSize a.f after slots hdr.maxFrame.toNat hdr.maxFrame.toNat front) (durable : Durable h a hdr) :
    ((recover after slots).log a.pageSize after a.db).visible = shown (a.log hdr).visible front := by
  have below : logFrames a.pageSize after hdr.maxFrame.toNat = logFrames a.pageSize a.f hdr.maxFrame.toNat :=
    logFrames_congr fun m positive inside => congrArg Frame.image (leaves.below m positive inside)
  have mxFrame := leaves.mxFrame
  have nPage := leaves.nPage
  generalize recover after slots = found at mxFrame nPage ⊢
  by_cases empty : front = []
  · rw [if_pos empty] at mxFrame nPage
    rw [shown, if_pos empty]
    refine PageLog.visible_congr ?_ ?_ rfl
    · rw [Recovered.log, mxFrame, below]
      rfl
    · rw [Recovered.log, nPage, ← durable.size]
      rfl
  · rw [if_neg empty] at mxFrame nPage
    have frames := logFrames_append leaves.holds
    rw [below] at frames
    have sized : (change front (finalSize front)).size ≠ 0 :=
      fun zero => leaves.whole.resolve_left empty (UInt32.toNat_inj.mp zero)
    rw [shown, if_neg empty, overwrite, ← PageLog.visible_publish _ _ sized]
    refine PageLog.visible_congr ?_ ?_ rfl
    · rw [Recovered.log, mxFrame, frames]
      rfl
    · rw [Recovered.log, nPage]
      rfl

/-- A crash in the loop of an append that did not rewind, or behind its rewind. -/
theorem crash_visible (sound : Sound pageSize a hdr h) (sized : pageSize ∈ pageSizes) (real : ∀ f ∈ frames, f.header.pgNo ≠ 0)
    (distinct : Distinct pageSize .littleEndian a.f hdr.maxFrame.toNat frames) (inside : hdr.maxFrame.toNat ≤ slots) (count : Nat) :
    let after := crashed a.f (loopWrites (Cursor.start a hdr) frames) count
    ∃ front, front <+: accepted pageSize frames ∧ (front = [] ∨ finalSize front ≠ 0) ∧
      ((recover after slots).log pageSize after a.db).visible = shown (a.log hdr).visible front := by
  obtain ⟨rfl, header, durable, little, intact⟩ := sound
  rw [loopWrites_start durable.salt1 durable.salt2 durable.enc]
  rw [← little] at distinct
  obtain ⟨front, some_, leaves⟩ := crash_loop durable.chain sized real distinct inside count
  exact ⟨front, some_, leaves.whole, leaves.visible durable⟩

private theorem recovered_visible (sound : Sound pageSize a hdr h) (inside : hdr.maxFrame.toNat ≤ slots) :
    ((recover a.f slots).log pageSize a.f a.db).visible = (a.log hdr).visible := by
  obtain ⟨rfl, -, durable, -, -⟩ := sound
  have nothing : Leaves a.pageSize a.f a.f slots hdr.maxFrame.toNat hdr.maxFrame.toNat [] :=
    leaves_nothing (fun _ _ _ => rfl) (durable.chain.recovers inside)
  exact (nothing.visible durable).trans (if_pos rfl)

end Call

/-- From a bootstrapped log on, through any run of orderly appends and checkpoints: a crash
after any write of a further append leaves a log file from which recovery makes the visible
database after some of the append's transactions, all of them whole, provided that no page
in the place of a commit frame has the commit frame's checksum by accident. After the append
recovery finds exactly what is published. -/
theorem crash_atomic (sized : pageSize ∈ pageSizes) {a start : WALAppender} {db : Database Bytes} {walSize : Nat}
    {salt1 salt2 : UInt32} (booted : (WALAppender.fresh pageSize db).maybeBootstrap walSize salt1 salt2 = some (.ok start))
    {operations : List Operation} (run : OrderlyRun start operations) (executed : exec step start operations = some a)
    {hdr : Header} (header : a.shm.readHeader = some hdr) {chance : Chance} (orderly : Orderly a hdr chance frames)
    (distinct : Distinct pageSize .littleEndian a.f (a.rewindLogIfBackfilled hdr chance).2.maxFrame.toNat frames) :
    (∀ count slots, hdr.maxFrame.toNat ≤ slots →
      let after := crashed a.f (writes a hdr chance frames) count
      ∃ front, front <+: accepted pageSize frames ∧ (front = [] ∨ finalSize front ≠ 0) ∧
        ((recover after slots).log pageSize after a.db).visible = shown (a.log hdr).visible front) ∧
    ∀ b err, a.appendFramesLocked chance frames = some (b, err) →
      b.f = crashed a.f (writes a hdr chance frames) (writes a hdr chance frames).length ∧
      ∃ latest, b.shm.readHeader = some latest ∧ ∀ slots, latest.maxFrame.toNat ≤ slots →
        recover b.f slots = ⟨latest.maxFrame.toNat, latest.pageCount, latest.lastFrameChecksum1, latest.lastFrameChecksum2⟩ := by
  obtain ⟨_, -, -, begun⟩ := sound_bootstrap sized booted
  obtain ⟨found, h, sound⟩ := begun.exec sized run executed
  obtain rfl : found = hdr := Option.some.inj (sound.header.symm.trans header)
  refine ⟨?_, ?_⟩
  · intro count slots inside
    obtain ⟨h', started⟩ := sound.started sized orderly
    have fewer := (started_rewindLogIfBackfilled header chance).fewer
    obtain ⟨visible, -⟩ := (started_rewindLogIfBackfilled header chance).base.visible sound.intact
    have eq := rewindLogIfBackfilled_eq a found chance
    by_cases rewinding : rewinds a found chance = true
    · rw [if_pos rewinding] at eq
      have list : writes a found chance frames = (0, (WALHeader.initHeader a.pageSize chance.salt1 chance.salt2).bytes) ::
          loopWrites (Cursor.start (a.rewind found chance).1 (a.rewind found chance).2) frames := by
        rw [writes, if_pos rewinding, eq, List.singleton_append]
      rw [eq] at started distinct visible fewer
      rw [list]
      cases count with
      | zero => exact ⟨[], List.nil_prefix, .inl rfl, recovered_visible sound inside⟩
      | succ count =>
        have file : (a.rewind found chance).1.f = a.f.write 0 (WALHeader.initHeader a.pageSize chance.salt1 chance.salt2).bytes := rfl
        have db : (a.rewind found chance).1.db = a.db := rfl
        have apart : Distinct pageSize .littleEndian (a.rewind found chance).1.f (a.rewind found chance).2.maxFrame.toNat frames := by
          intro i f
          rw [file, storedFrame_header (Nat.le_of_eq (WALHeader.bytes_length _))]
          exact distinct i f
        have behind := crash_visible started sized orderly.real apart (Nat.le_trans fewer inside) count
        rw [file, db, visible] at behind
        rw [crashed_cons]
        exact behind
    · rw [if_neg rewinding] at eq
      rw [eq] at distinct
      rw [writes_kept (Bool.eq_false_iff.mpr rewinding)]
      exact crash_visible sound sized orderly.real distinct inside count
  · intro b err ran
    obtain ⟨latest, h', after⟩ := sound.call sized orderly ran
    exact ⟨call_file header ran, latest, after.header, fun slots inside => after.durable.recovers inside⟩

private theorem file_watched {a b : WALAppender} {hdr : Header} {chance : Chance} {err : Option String}
    (sound : Sound pageSize a hdr h)
    (watched : chance.reading = true) (ran : a.appendFramesLocked chance frames = some (b, err)) :
    b.f = (tail pageSize h hdr.maxFrame.toNat (hdr.lastFrameChecksum1, hdr.lastFrameChecksum2) frames).foldl
      (fun wal write => wal.write write.1 write.2) a.f := by
  rw [call_file sound.header ran, writes_kept (rewinds_watched watched),
    loopWrites_start sound.durable.salt1 sound.durable.salt2 sound.durable.enc, sound.pageSize, crashed_all]

/-- A page other than zeros with the checksum of zeros. -/
def colliding : Frame :=
  ⟨{ pgNo := 2, nTruncate := 2 }, [1, 0, 0, 0, 0, 0, 0, 0, 254, 255, 255, 255, 255, 255, 255, 255] ++ List.replicate 496 0⟩

private theorem colliding_zeros (rest : Bytes) (s1 s2 : UInt32) :
    computeChecksums .littleEndian (List.replicate 16 0 ++ rest) s1 s2 =
      computeChecksums .littleEndian ([1, 0, 0, 0, 0, 0, 0, 0, 254, 255, 255, 255, 255, 255, 255, 255] ++ rest) s1 s2 := by
  have zero : leUint32 [0, 0, 0, 0] 0 = 0 := by decide
  have one : leUint32 [1, 0, 0, 0] 0 = 1 := by decide
  have third : leUint32 [254, 255, 255, 255] 0 = 0xFFFFFFFE := by decide
  have fourth : leUint32 [255, 255, 255, 255] 0 = 0xFFFFFFFF := by decide
  have unfolded : List.replicate 16 (0 : UInt8) = [0, 0, 0, 0, 0, 0, 0, 0, 0, 0, 0, 0, 0, 0, 0, 0] := rfl
  simp only [unfolded, List.cons_append, List.nil_append, computeChecksums, ByteOrder.uint32, zero, one, third, fourth]
  refine congrArg₂ (computeChecksums .littleEndian rest) ?_ ?_ <;> grind

private theorem sums_colliding (header : FrameHeader) (before : UInt32 × UInt32) :
    (⟨header, List.replicate 512 0⟩ : Frame).sums .littleEndian before = (⟨header, colliding.data⟩ : Frame).sums .littleEndian before := by
  have zeros : List.replicate 512 (0 : UInt8) = List.replicate 16 0 ++ List.replicate 496 0 := List.replicate_add 16 496 0
  rw [Frame.sums, Frame.sums, zeros]
  simp only [be32, List.cons_append, List.nil_append, computeChecksums]
  exact colliding_zeros _ _ _

def short (pgNo : UInt32) : Frame := ⟨{ pgNo, nTruncate := 2 }, []⟩

def fives : Database Bytes := ⟨2, fun _ => List.replicate 512 5⟩

private theorem storedFrame_zeros (pageSize : UInt32) (m : Nat) :
    (storedFrame pageSize (fun _ => 0) m).data = List.replicate pageSize.toNat 0 :=
  Storage.read_zeros (frameOffset pageSize m + frameHeaderSize) _

private theorem orderly_watched {a : WALAppender} {hdr : Header} {chance : Chance} (watched : chance.reading = true)
    (real : ∀ f ∈ frames, f.header.pgNo ≠ 0) (room : hdr.maxFrame.toNat + frames.length < 2 ^ 32) : Orderly a hdr chance frames := by
  refine ⟨real, room, fun rewinding => ?_⟩
  rw [rewinds, watched] at rewinding
  cases rewinding

private theorem orderlyRun_one {a : WALAppender} {hdr : Header} {f : Frame} (header : a.shm.readHeader = some hdr)
    (zero : hdr.maxFrame = 0)
    (real : f.header.pgNo ≠ 0) : OrderlyRun a [.append ⟨true, 0, 0⟩ [f], .checkpoint 1] := by
  refine ⟨?_, fun _ _ => ⟨?_, fun _ _ => trivial⟩⟩
  · intro chance frames other same read
    cases same
    obtain rfl : hdr = other := Option.some.inj (header.symm.trans read)
    exact orderly_watched rfl (by simpa using real) (by rw [zero, List.length_singleton]; decide)
  · intro chance frames other same
    cases same

private theorem file_one {a b : WALAppender} {hdr : Header} {chance : Chance} {err : Option String} {f : Frame}
    (sound : Sound pageSize a hdr h) (sized : pageSize ∈ pageSizes) (watched : chance.reading = true)
    (length : f.data.length = pageSize.toNat) (stops : ∀ g ∈ frames.head?, g.data.length ≠ pageSize.toNat)
    (ran : a.appendFramesLocked chance (f :: frames) = some (b, err)) :
    b.f = writtenFrame pageSize a.f (hdr.maxFrame.toNat + 1)
      (stamped h.enc h.salt1 h.salt2 (hdr.lastFrameChecksum1, hdr.lastFrameChecksum2) f) := by
  have nothing (sums : UInt32 × UInt32) : tail pageSize h (hdr.maxFrame.toNat + 1) sums frames = [] := by
    cases frames with
    | nil => rfl
    | cons g rest => exact tail_wrong (stops g rfl)
  rw [file_watched sound watched ran, tail_cons sized length, nothing, ← written_stamped]
  rfl

/-- A crash between the two writes of a commit frame, with another page of the same checksum
in its place: recovery takes that page. -/
theorem collided_visible {a : WALAppender} {hdr : Header} {f : Frame} {old : Bytes} (sound : Sound pageSize a hdr h)
    (sized : pageSize ∈ pageSizes) (length : f.data.length = pageSize.toNat) (real : f.header.pgNo ≠ 0)
    (commit : f.header.nTruncate ≠ 0) (left : (storedFrame pageSize a.f (hdr.maxFrame.toNat + 1)).data = old)
    (same : ∀ before, (⟨f.header, old⟩ : Frame).sums h.enc before = f.sums h.enc before) :
    let after := crashed a.f (loopWrites (Cursor.start a hdr) [f]) 1
    ((recover after (hdr.maxFrame.toNat + 1)).log pageSize after a.db).visible =
      overwrite (a.log hdr).visible [⟨f.header, old⟩] := by
  obtain ⟨rfl, -, durable, -, -⟩ := sound
  let before := (hdr.lastFrameChecksum1, hdr.lastFrameChecksum2)
  let g : Frame := ⟨(stamped h.enc h.salt1 h.salt2 before f).header, old⟩
  obtain ⟨data, pgNo, nTruncate⟩ := stamped_kept h.enc h.salt1 h.salt2 before f
  have whole : g.data.length = a.pageSize.toNat := by
    rw [show g.data = old from rfl, ← left]
    exact Storage.read_length _ _ _
  have taken : decodeFrame h before g = some (f.sums h.enc before) := by
    rw [show g = ⟨_, old⟩ from rfl, stamped_eq sized length, decodeFrame, if_pos ⟨rfl, rfl, real, same before⟩]
  have torn : crashed a.f (loopWrites (Cursor.start a hdr) [f]) 1 = writtenFrame a.pageSize a.f (hdr.maxFrame.toNat + 1) g := by
    rw [loopWrites_start durable.salt1 durable.salt2 durable.enc, tail_cons sized length, crashed_cons, crashed_zero, write_header, left]
  have chain := durable.chain.write whole taken
  rw [show g.header.nTruncate = f.header.nTruncate from nTruncate, if_pos commit, if_pos commit] at chain
  have found := chain.recovers (Nat.le_refl _)
  have image : logFrame a.pageSize (writtenFrame a.pageSize a.f (hdr.maxFrame.toNat + 1) g) (hdr.maxFrame.toNat + 1) =
      (⟨f.header, old⟩ : Frame).image := by
    rw [← storedFrame_image, storedFrame_written _ whole, Frame.image, Frame.image, ← pgNo]
  have leaves : Leaves a.pageSize a.f (writtenFrame a.pageSize a.f (hdr.maxFrame.toNat + 1) g) (hdr.maxFrame.toNat + 1)
      hdr.maxFrame.toNat hdr.maxFrame.toNat [⟨f.header, old⟩] := by
    refine ⟨.inr commit, fun m positive before => ?_, (Holds.nil _ _).cons image, ?_, ?_⟩
    · exact storedFrame_written_other _ whole positive (Nat.le_add_left 1 _) (by omega)
    · rw [found, if_neg (List.cons_ne_nil _ _), List.length_singleton]
    · rw [found, if_neg (List.cons_ne_nil _ _), sizeAt_last _ whole]
      exact nTruncate
  intro after
  rw [show after = _ from torn, leaves.visible durable, shown, if_neg (List.cons_ne_nil _ _)]

/-- A failed append leaves zeros in the place of the next commit frame, whose page has the
checksum of zeros. A crash between the two writes of that frame then makes page two zeros,
which it never was. -/
theorem stale_page_recovered : ∃ start a hdr, (WALAppender.fresh 512 fives).maybeBootstrap 0 1 2 = some (.ok start) ∧
    exec step start [.append ⟨true, 0, 0⟩ [image 2 0 0, short 2]] = some a ∧ a.shm.readHeader = some hdr ∧
    let after := crashed a.f (writes a hdr ⟨true, 0, 0⟩ [colliding]) 1
    ¬ ∃ front, front <+: accepted 512 [colliding] ∧ (front = [] ∨ finalSize front ≠ 0) ∧
      ((recover after 1).log 512 after a.db).visible = shown (a.log hdr).visible front := by
  have sized : (512 : UInt32) ∈ pageSizes := by decide
  obtain ⟨start, booted⟩ := bootstrap_fresh 512 1 2 fives (Nat.zero_le _)
  obtain ⟨hdr, ready, zero, sound⟩ := sound_bootstrap sized booted
  obtain ⟨other, also, -, log⟩ := bootstrap_ready booted
  obtain rfl : hdr = other := Option.some.inj (ready.header.symm.trans also.header)
  have first : hdr.maxFrame.toNat = 0 := by rw [zero]; rfl
  have room : hdr.maxFrame.toNat + [image 2 0 0, short 2].length < 2 ^ 32 := by rw [first]; decide
  obtain ⟨a, err, -, ran, -⟩ := call_returns ready.header (Nat.lt_of_le_of_lt (Nat.add_le_add_left (accepted_le _ _) _) room)
    (ready.hasSlots ⟨true, 0, 0⟩ _)
  have orderly : Orderly start hdr ⟨true, 0, 0⟩ [image 2 0 0, short 2] := orderly_watched rfl (by decide) room
  have file := file_one sound sized rfl List.length_replicate (by decide) ran
  obtain ⟨latest, h, later⟩ := sound.call sized orderly ran
  have left : (storedFrame 512 a.f (hdr.maxFrame.toNat + 1)).data = List.replicate 512 0 := by
    rw [file, storedFrame_written _ (by rw [(stamped_kept _ _ _ _ _).1]; exact List.length_replicate), (stamped_kept _ _ _ _ _).1]
    rfl
  obtain ⟨-, -, found, base, published, based, -, now⟩ := call_log sound.header
    (Nat.lt_of_le_of_lt (Nat.add_le_add_left (accepted_le _ _) _) room) ran
  obtain rfl : latest = found := Option.some.inj (later.header.symm.trans published)
  have nothing : transaction 512 [image 2 0 0, short 2] = none := by decide +kernel
  rw [sound.pageSize, nothing, Option.elim_none] at now
  rw [log] at based
  obtain rfl : base = _ := based.resolve_right fun restarted => restarted.1 rfl
  have still : latest.maxFrame.toNat = 0 := by rw [← log_length a latest, now, List.length_nil]
  have executed : exec step start [.append ⟨true, 0, 0⟩ [image 2 0 0, short 2]] = some a := by
    rw [exec, step, ran]
    rfl
  refine ⟨start, a, latest, booted, executed, later.header, ?_⟩
  have length : colliding.data.length = (512 : UInt32).toNat := by decide +kernel
  rw [first, ← still] at left
  have zeroed := collided_visible (f := colliding) later sized length (by decide) (by decide) left
    (fun before => by rw [later.little]; exact sums_colliding _ _)
  rw [still, ← writes_kept (@rewinds_watched a latest ⟨true, 0, 0⟩ rfl)] at zeroed
  rintro after ⟨front, some_, -, seen⟩
  have second := congrArg (fun database : Database Bytes => (database.page 2).head?) (seen.symm.trans zeroed)
  have page : ((a.log latest).visible.page 2).head? = some 5 := by rw [now]; rfl
  have taken : accepted 512 [colliding] = [colliding] := accepted_eq_self.mpr (by simpa using length)
  rw [taken] at some_
  rcases List.prefix_cons_iff.mp some_ with rfl | ⟨rest, rfl, nil⟩
  · rw [shown, if_pos rfl, page] at second
    cases second
  · rw [List.prefix_nil.mp nil, shown, if_neg (List.cons_ne_nil _ _)] at second
    cases second

/-- A log that starts again with its old salts still holds its old frames. -/
theorem old_salts_recovered : ∃ start a b hdr latest err, (WALAppender.fresh 512 fives).maybeBootstrap 0 1 2 = some (.ok start) ∧
    exec step start [.append ⟨true, 0, 0⟩ [image 1 1 1], .checkpoint 1] = some a ∧ a.shm.readHeader = some hdr ∧
    a.appendFramesLocked ⟨false, 1, 2⟩ [short 1] = some (b, some err) ∧ b.shm.readHeader = some latest ∧
    latest.maxFrame = 0 ∧ (recover b.f 1).mxFrame = 1 := by
  have sized : (512 : UInt32) ∈ pageSizes := by decide
  obtain ⟨start, booted⟩ := bootstrap_fresh 512 1 2 fives (Nat.zero_le _)
  obtain ⟨hdr, ready, zero, sound⟩ := sound_bootstrap sized booted
  have explicit := bootstrap_eq booted
  have found : ((exec step start [.append ⟨true, 0, 0⟩ [image 1 1 1], .checkpoint 1]).bind fun a =>
      a.shm.readHeader.bind fun hdr => (a.appendFramesLocked ⟨false, 1, 2⟩ [short 1]).bind fun b =>
        b.1.shm.readHeader.map fun latest => (hdr.maxFrame, rewinds a hdr ⟨false, 1, 2⟩, a.f.read 0 32, b.2.isSome,
          latest.maxFrame)) = some (1, true, (WALHeader.initHeader 512 1 2).bytes, true, 0) := by
    subst explicit
    decide +kernel
  obtain ⟨a, executed, found⟩ := Option.bind_eq_some_iff.mp found
  obtain ⟨middle, header, found⟩ := Option.bind_eq_some_iff.mp found
  obtain ⟨⟨b, err⟩, ran, found⟩ := Option.bind_eq_some_iff.mp found
  obtain ⟨latest, published, found⟩ := Option.map_eq_some_iff.mp found
  simp only [Prod.mk.injEq] at found
  obtain ⟨one, rewinding, bytes, failed, none_⟩ := found
  obtain ⟨err, rfl⟩ := Option.isSome_iff_exists.mp failed
  refine ⟨start, a, b, middle, latest, err, booted, executed, header, ran, published, none_, ?_⟩
  obtain ⟨other, h, later⟩ := sound.exec sized (orderlyRun_one ready.header zero (by decide)) executed
  obtain rfl : middle = other := Option.some.inj (header.symm.trans later.header)
  have list : writes a middle ⟨false, 1, 2⟩ [short 1] = [(0, (WALHeader.initHeader 512 1 2).bytes)] := by
    have size := (started_rewindLogIfBackfilled header ⟨false, 1, 2⟩).pageSize.trans later.pageSize
    have wrong : (short 1).data.length ≠ (a.rewindLogIfBackfilled middle ⟨false, 1, 2⟩).1.pageSize.toNat := by
      rw [size]
      decide
    have nothing : loopWrites (Cursor.start (a.rewindLogIfBackfilled middle ⟨false, 1, 2⟩).1
      (a.rewindLogIfBackfilled middle ⟨false, 1, 2⟩).2) [short 1] = [] := if_pos wrong
    rw [writes, if_pos rewinding, later.pageSize, nothing, List.append_nil]
  have file : b.f = a.f := by
    rw [call_file header ran, list]
    exact Storage.write_same bytes
  rw [file, later.durable.recovers (by rw [one]; decide), one]
  rfl

/-- Two ways to lose the chain that checksums and salts make: a page that another page of
the same checksum stands in for, and salts that are not new. -/
theorem collisions_break_recovery :
    (∃ start a hdr, (WALAppender.fresh 512 fives).maybeBootstrap 0 1 2 = some (.ok start) ∧
      exec step start [.append ⟨true, 0, 0⟩ [image 2 0 0, short 2]] = some a ∧ a.shm.readHeader = some hdr ∧
      let after := crashed a.f (writes a hdr ⟨true, 0, 0⟩ [colliding]) 1
      ¬ ∃ front, front <+: accepted 512 [colliding] ∧ (front = [] ∨ finalSize front ≠ 0) ∧
        ((recover after 1).log 512 after a.db).visible = shown (a.log hdr).visible front) ∧
    ∃ start a b hdr latest err, (WALAppender.fresh 512 fives).maybeBootstrap 0 1 2 = some (.ok start) ∧
      exec step start [.append ⟨true, 0, 0⟩ [image 1 1 1], .checkpoint 1] = some a ∧ a.shm.readHeader = some hdr ∧
      a.appendFramesLocked ⟨false, 1, 2⟩ [short 1] = some (b, some err) ∧ b.shm.readHeader = some latest ∧
      latest.maxFrame = 0 ∧ (recover b.f 1).mxFrame = 1 :=
  ⟨stale_page_recovered, old_salts_recovered⟩

/-- The log starts again with new salts, and the transaction of two pages that comes next is
there as a whole or not at all. -/
theorem crash_atomic_rewound : ∃ start a hdr, (WALAppender.fresh 512 fives).maybeBootstrap 0 1 2 = some (.ok start) ∧
    exec step start [.append ⟨true, 0, 0⟩ [image 1 1 1], .checkpoint 1] = some a ∧ a.shm.readHeader = some hdr ∧
    rewinds a hdr ⟨false, 3, 4⟩ = true ∧
    ∀ count slots, hdr.maxFrame.toNat ≤ slots →
      let after := crashed a.f (writes a hdr ⟨false, 3, 4⟩ [image 1 7 0, image 2 8 2]) count
      ∃ front, front <+: accepted 512 [image 1 7 0, image 2 8 2] ∧ (front = [] ∨ finalSize front ≠ 0) ∧
        ((recover after slots).log 512 after a.db).visible = shown (a.log hdr).visible front := by
  have sized : (512 : UInt32) ∈ pageSizes := by decide
  obtain ⟨start, booted⟩ := bootstrap_fresh 512 1 2 fives (Nat.zero_le _)
  obtain ⟨hdr, ready, zero, sound⟩ := sound_bootstrap sized booted
  have explicit := bootstrap_eq booted
  have found : ((exec step start [.append ⟨true, 0, 0⟩ [image 1 1 1], .checkpoint 1]).bind fun a =>
      a.shm.readHeader.map fun hdr => (hdr.maxFrame, rewinds a hdr ⟨false, 3, 4⟩)) = some (1, true) := by
    subst explicit
    decide +kernel
  obtain ⟨a, executed, found⟩ := Option.bind_eq_some_iff.mp found
  obtain ⟨latest, header, found⟩ := Option.map_eq_some_iff.mp found
  obtain ⟨one, rewinding⟩ := Prod.mk.inj found
  obtain ⟨_, first, last⟩ := Option.bind_eq_some_iff.mp executed
  rw [step] at first
  obtain ⟨⟨b, err⟩, ran, rfl⟩ := Option.map_eq_some_iff.mp first
  have none_ : hdr.maxFrame.toNat = 0 := by rw [zero]; rfl
  have file := file_one sound sized rfl List.length_replicate (by decide) ran
  have whole : (image 1 1 1).data.length = (512 : UInt32).toNat := List.length_replicate
  rw [none_, stamped_eq sized whole] at file
  obtain ⟨g, length, salt, file⟩ : ∃ g : Frame, g.data.length = (512 : UInt32).toNat ∧ g.header.salt1 = 1 ∧
      b.f = writtenFrame 512 start.f 1 g := by
    refine ⟨_, ?_, ?_, file⟩
    · exact whole
    · rfl
  have kept : a.f = b.f := by
    obtain ⟨_, _, between⟩ := sound.call sized (orderly_watched rfl (by decide) (by rw [none_]; decide)) ran
    rw [exec, step, Option.bind_some, exec, Option.some.injEq] at last
    rw [← last]
    exact (checkpoint_settles between.header 1).wal
  have blank (m : Nat) (later : 2 ≤ m) : storedFrame 512 a.f m = storedFrame 512 (fun _ => 0) m := by
    rw [kept, file, storedFrame_written_other _ length (by omega) (Nat.le_refl 1) (by omega), explicit]
    exact storedFrame_header (Nat.le_of_eq (WALHeader.bytes_length _)) _ m
  have distinct : Distinct 512 .littleEndian a.f (a.rewindLogIfBackfilled latest ⟨false, 3, 4⟩).2.maxFrame.toNat
      [image 1 7 0, image 2 8 2] := by
    have again : (a.rewindLogIfBackfilled latest ⟨false, 3, 4⟩).2.maxFrame.toNat = 0 := by
      rw [rewindLogIfBackfilled_eq, if_pos rewinding]
      rfl
    have apart : computeChecksums .littleEndian (List.replicate (512 : UInt32).toNat 0) 0 0 ≠
        computeChecksums .littleEndian (image 2 8 2).data 0 0 := by decide +kernel
    have taken : accepted 512 [image 1 7 0, image 2 8 2] = [image 1 7 0, image 2 8 2] := by decide +kernel
    intro i f found commit same
    rw [taken] at found
    rcases i with _ | _ | i
    · rw [List.getElem?_cons_zero, Option.some.injEq] at found
      exact absurd (by rw [← found]; rfl) commit
    · rw [List.getElem?_cons_succ, List.getElem?_cons_zero, Option.some.injEq] at found
      rw [again, blank _ (Nat.le_refl 2), storedFrame_zeros, ← found] at same
      exact absurd same apart
    · cases found
  have size : a.pageSize = 512 := by
    obtain ⟨_, _, later⟩ := sound.exec sized (orderlyRun_one ready.header zero (by decide)) executed
    exact later.pageSize
  have orderly : Orderly a latest ⟨false, 3, 4⟩ [image 1 7 0, image 2 8 2] := by
    refine ⟨by decide, by rw [one]; decide, fun _ m positive real => ?_⟩
    rw [size] at real ⊢
    by_cases first : m = 1
    · rw [first, kept, file, storedFrame_written _ length, salt]
      exact fun same => absurd same.1 (by decide)
    · rw [blank m (by omega), storedFrame, Storage.read_zeros] at real
      exact absurd rfl real
  refine ⟨start, a, latest, booted, executed, header, rewinding, ?_⟩
  exact (crash_atomic sized booted (orderlyRun_one ready.header zero (by decide)) executed header orderly distinct).1

end Literaft.Proofs.Crash
