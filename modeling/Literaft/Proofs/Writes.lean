import Literaft.Proofs.Recovery
import Literaft.Proofs.Calls

/-! The writes of an append, one by one. Those of its loop lie behind the log, the last of
them leaves the file that the append leaves, and a rewind comes before all of them. -/

namespace Literaft.Proofs.Writes
open Library Wal Shm WalAppender Literaft.Recovery Literaft.Crash LogFile Appender Calls Recovery

variable {pageSize : UInt32} {h : WALHeader} {n : Nat} {sums : UInt32 × UInt32} {frames : List Frame}

@[simp] theorem crashed_zero (wal : Storage) (writes : List (Nat × Bytes)) : crashed wal writes 0 = wal := rfl

@[simp] theorem crashed_nil (wal : Storage) (count : Nat) : crashed wal [] count = wal := by
  rw [crashed, List.take_nil, List.foldl_nil]

@[simp] theorem crashed_cons (wal : Storage) (write : Nat × Bytes) (rest : List (Nat × Bytes)) (count : Nat) :
    crashed wal (write :: rest) (count + 1) = crashed (wal.write write.1 write.2) rest count := rfl

/-- The writes of the loop behind frame `n`. -/
def tail (pageSize : UInt32) (h : WALHeader) (n : Nat) (sums : UInt32 × UInt32) (frames : List Frame) : List (Nat × Bytes) :=
  frameWrites pageSize h.enc h.salt1 h.salt2 (frameOffset pageSize (n + 1)) sums frames

theorem tail_cons {f : Frame} {rest : List Frame} (sized : pageSize ∈ pageSizes) (length : f.data.length = pageSize.toNat) :
    tail pageSize h n sums (f :: rest) =
      (frameOffset pageSize (n + 1), (stamped h.enc h.salt1 h.salt2 sums f).header.bytes) ::
        (frameOffset pageSize (n + 1) + frameHeaderSize, f.data) :: tail pageSize h (n + 1) (f.sums h.enc sums) rest := by
  rw [tail, frameWrites, if_neg (not_not.mpr length), frameOffset_succ]
  simp only [stamped_eq sized length]
  rfl

theorem tail_wrong {f : Frame} {rest : List Frame} (wrong : f.data.length ≠ pageSize.toNat) :
    tail pageSize h n sums (f :: rest) = [] := if_pos wrong

theorem written_stamped (wal : Storage) (f : Frame) :
    (wal.write (frameOffset pageSize (n + 1)) (stamped h.enc h.salt1 h.salt2 sums f).header.bytes).write
      (frameOffset pageSize (n + 1) + frameHeaderSize) f.data =
        writtenFrame pageSize wal (n + 1) (stamped h.enc h.salt1 h.salt2 sums f) := by
  rw [writtenFrame, (stamped_kept _ _ _ _ f).1]

theorem crashed_below (wal : Storage) (h : WALHeader) (n : Nat) (sums : UInt32 × UInt32) (frames : List Frame)
    (sized : pageSize ∈ pageSizes) (count : Nat) :
    fileHeader (crashed wal (tail pageSize h n sums frames) count) = fileHeader wal ∧
      ∀ m, 1 ≤ m → m ≤ n → storedFrame pageSize (crashed wal (tail pageSize h n sums frames) count) m =
        storedFrame pageSize wal m := by
  induction frames generalizing wal n sums count with
  | nil =>
    rw [show tail pageSize h n sums [] = [] from rfl, crashed_nil]
    exact ⟨rfl, fun _ _ _ => rfl⟩
  | cons f rest ih =>
    by_cases length : f.data.length = pageSize.toNat
    · rw [tail_cons sized length]
      have same : (stamped h.enc h.salt1 h.salt2 sums f).data.length = pageSize.toNat := by
        rw [(stamped_kept _ _ _ _ f).1, length]
      match count with
      | 0 => exact ⟨rfl, fun _ _ _ => rfl⟩
      | 1 =>
        rw [crashed_cons, crashed_zero]
        refine ⟨?_, fun m positive inside => ?_⟩
        · have below : walHeaderSize ≤ frameOffset pageSize (n + 1) := Nat.le_add_right _ _
          rw [fileHeader, Storage.read_write_disjoint _ _ _ _ _ (.inl (by omega))]
          rfl
        · exact storedFrame_write_other positive (Nat.le_add_left 1 n) (by omega) (Nat.le_refl _)
            (by rw [FrameHeader.bytes_length]; omega)
      | count + 2 =>
        rw [crashed_cons, crashed_cons, written_stamped]
        obtain ⟨header, stored⟩ := ih (writtenFrame pageSize wal (n + 1) (stamped h.enc h.salt1 h.salt2 sums f)) (n + 1) _ count
        refine ⟨header.trans (fileHeader_written _ _ _), fun m positive inside => ?_⟩
        exact (stored m positive (by omega)).trans
          (storedFrame_written_other _ same positive (Nat.le_add_left 1 n) (by omega))
    · rw [tail_wrong length, crashed_nil]
      exact ⟨rfl, fun _ _ _ => rfl⟩

theorem crashed_all (wal : Storage) (writes : List (Nat × Bytes)) :
    crashed wal writes writes.length = writes.foldl (fun wal write => wal.write write.1 write.2) wal := by
  rw [crashed, List.take_length]

private theorem loopWrites_all {c d : Cursor} (fine : c.retErr = none) (ran : frames.foldlM Cursor.appendFrame c = some d) :
    (loopWrites c frames).foldl (fun wal write => wal.write write.1 write.2) c.appender.f = d.appender.f := by
  induction frames generalizing c with
  | nil =>
    cases ran
    rfl
  | cons f rest ih =>
    rw [List.foldlM_cons] at ran
    obtain ⟨e, appended, ran⟩ := Option.bind_eq_some_iff.mp ran
    rcases appendFrame_cases appended with ⟨failed, -⟩ | ⟨-, wrong, message, rfl⟩ | ⟨-, length, shm, -, rfl⟩
    · simp [fine] at failed
    · obtain rfl := Option.some.inj ((failed_returns rfl).symm.trans ran)
      rw [loopWrites, frameWrites, if_pos wrong]
      rfl
    · have split : loopWrites c (f :: rest) = (c.currentOffset, (c.chained f).header.bytes) ::
          (c.currentOffset + frameHeaderSize, (c.chained f).data) :: loopWrites (c.advance (c.chained f) shm) rest := by
        rw [loopWrites, frameWrites, if_neg (not_not.mpr length)]
        rfl
      rw [split]
      by_cases commit : f.header.nTruncate ≠ 0
      · rw [if_pos commit] at ran
        have later : ((c.advance (c.chained f) shm).publish f.header.nTruncate).retErr = none := fine
        exact ih later ran
      · rw [if_neg commit] at ran
        have later : (c.advance (c.chained f) shm).retErr = none := fine
        exact ih later ran

theorem rewindLogIfBackfilled_eq (a : WALAppender) (hdr : Header) (chance : Chance) :
    a.rewindLogIfBackfilled hdr chance = if rewinds a hdr chance then a.rewind hdr chance else (a, hdr) := by
  unfold WALAppender.rewindLogIfBackfilled rewinds
  cases chance.reading with
  | true => rfl
  | false =>
    by_cases behind : hdr.maxFrame = 0 ∨ a.shm.readCheckpointInfo.nBackfill < hdr.maxFrame
    · simp [behind]
    · simp [behind]

section Call
variable {a : WALAppender} {hdr : Header}

theorem loopWrites_start (salt1 : hdr.salt1 = h.salt1) (salt2 : hdr.salt2 = h.salt2) (enc : hdr.order = h.enc)
    (frames : List Frame) : loopWrites (Cursor.start a hdr) frames =
      tail a.pageSize h hdr.maxFrame.toNat (hdr.lastFrameChecksum1, hdr.lastFrameChecksum2) frames := by
  rw [tail, ← salt1, ← salt2, ← enc]
  rfl

theorem call_file {b : WALAppender} {chance : Chance} {err : Option String} (header : a.shm.readHeader = some hdr)
    (ran : a.appendFramesLocked chance frames = some (b, err)) :
    b.f = crashed a.f (writes a hdr chance frames) (writes a hdr chance frames).length := by
  simp only [WALAppender.appendFramesLocked, header, Option.bind_some] at ran
  obtain ⟨d, looped, ended⟩ := Option.map_eq_some_iff.mp ran
  cases ended
  have eq := rewindLogIfBackfilled_eq a hdr chance
  have looped := loopWrites_all rfl looped
  rw [crashed_all, writes, ← looped]
  by_cases rewinding : rewinds a hdr chance = true
  · rw [if_pos rewinding] at eq ⊢
    rw [eq]
    rfl
  · rw [if_neg rewinding] at eq ⊢
    rw [eq]
    rfl

theorem rewinds_watched {chance : Chance} (watched : chance.reading = true) : rewinds a hdr chance = false := by
  rw [rewinds, watched]
  rfl

theorem rewinds_empty {chance : Chance} (empty : hdr.maxFrame = 0) : rewinds a hdr chance = false := by
  simp [rewinds, empty]

theorem writes_kept {chance : Chance} (kept : rewinds a hdr chance = false) :
    writes a hdr chance frames = loopWrites (Cursor.start a hdr) frames := by
  rw [writes, rewindLogIfBackfilled_eq, kept]
  rfl

end Call

end Literaft.Proofs.Writes
