import Literaft.Wal

/-! The frames of a log file as page images. A write to one frame leaves the image in
every other frame as it was. -/

namespace Literaft.Proofs.LogFile
open Library Wal

variable {pageSize : UInt32}

theorem storedFrame_congr {wal other : Storage} {n : Nat}
    (same : ∀ address, frameOffset pageSize n ≤ address →
      address < frameOffset pageSize n + frameHeaderSize + pageSize.toNat → wal address = other address) :
    storedFrame pageSize wal n = storedFrame pageSize other n := by
  have header : wal.read (frameOffset pageSize n) frameHeaderSize = other.read (frameOffset pageSize n) frameHeaderSize :=
    Storage.read_congr fun i inside => same _ (by omega) (by omega)
  have data : wal.read (frameOffset pageSize n + frameHeaderSize) pageSize.toNat =
      other.read (frameOffset pageSize n + frameHeaderSize) pageSize.toNat :=
    Storage.read_congr fun i inside => same _ (by omega) (by omega)
  rw [storedFrame, storedFrame, header, data]

/-- Bytes written inside frame `n` are not part of another frame. -/
theorem storedFrame_write_other {wal : Storage} {m n off : Nat} {p : Bytes} (positive : 1 ≤ m) (also : 1 ≤ n) (apart : m ≠ n)
    (low : frameOffset pageSize n ≤ off) (high : off + p.length ≤ frameOffset pageSize n + frameHeaderSize + pageSize.toNat) :
    storedFrame pageSize (wal.write off p) m = storedFrame pageSize wal m := by
  apply storedFrame_congr
  intro address above below
  have outside : ¬ (off ≤ address ∧ address < off + p.length) := by
    rcases Nat.lt_or_gt_of_ne apart with before | after
    · have := frameOffset_lt pageSize positive before
      omega
    · have := frameOffset_lt pageSize also after
      omega
  simp only [Storage.write, outside, if_false]

theorem storedFrame_write_header (wal : Storage) (n : Nat) (h : FrameHeader) :
    storedFrame pageSize (wal.write (frameOffset pageSize n) h.bytes) n = ⟨h, (storedFrame pageSize wal n).data⟩ := by
  have header : (wal.write (frameOffset pageSize n) h.bytes).read (frameOffset pageSize n) frameHeaderSize = h.bytes :=
    Storage.read_write_same _ _ h.bytes
  have data : (wal.write (frameOffset pageSize n) h.bytes).read (frameOffset pageSize n + frameHeaderSize) pageSize.toNat =
      wal.read (frameOffset pageSize n + frameHeaderSize) pageSize.toNat :=
    Storage.read_write_disjoint _ _ h.bytes _ _ (.inr (Nat.le_refl _))
  rw [storedFrame, header, data, FrameHeader.ofBytes_bytes, storedFrame]

theorem storedFrame_write_data (wal : Storage) (n : Nat) {data : Bytes} (length : data.length = pageSize.toNat) :
    storedFrame pageSize (wal.write (frameOffset pageSize n + frameHeaderSize) data) n =
      ⟨(storedFrame pageSize wal n).header, data⟩ := by
  rw [storedFrame, ← length, Storage.read_write_same, storedFrame, Storage.read_write_disjoint _ _ _ _ _ (.inl (Nat.le_refl _))]

theorem storedFrame_header {header : Bytes} (within : header.length ≤ walHeaderSize) (wal : Storage) (m : Nat) :
    storedFrame pageSize (wal.write 0 header) m = storedFrame pageSize wal m := by
  apply storedFrame_congr
  intro address above _
  have below : walHeaderSize ≤ frameOffset pageSize m := Nat.le_add_right _ _
  have outside : ¬ (0 ≤ address ∧ address < 0 + header.length) := by omega
  simp only [Storage.write, outside, if_false]

def writtenFrame (pageSize : UInt32) (wal : Storage) (n : Nat) (f : Frame) : Storage :=
  (wal.write (frameOffset pageSize n) f.header.bytes).write (frameOffset pageSize n + frameHeaderSize) f.data

section Written
variable (wal : Storage) {n : Nat} {f : Frame} (length : f.data.length = pageSize.toNat)
include length

theorem storedFrame_written : storedFrame pageSize (writtenFrame pageSize wal n f) n = f := by
  rw [writtenFrame, storedFrame_write_data _ _ length, storedFrame_write_header]

theorem storedFrame_written_other {m : Nat} (positive : 1 ≤ m) (also : 1 ≤ n) (apart : m ≠ n) :
    storedFrame pageSize (writtenFrame pageSize wal n f) m = storedFrame pageSize wal m := by
  rw [writtenFrame, storedFrame_write_other positive also apart (Nat.le_add_right _ _) (by omega),
    storedFrame_write_other positive also apart (Nat.le_refl _) (by rw [FrameHeader.bytes_length]; omega)]

end Written

theorem storedFrame_image (wal : Storage) (n : Nat) : (storedFrame pageSize wal n).image = logFrame pageSize wal n := rfl

theorem logFrame_write_other {wal : Storage} {m n off : Nat} {p : Bytes} (positive : 1 ≤ m) (also : 1 ≤ n) (apart : m ≠ n)
    (low : frameOffset pageSize n ≤ off) (high : off + p.length ≤ frameOffset pageSize n + frameHeaderSize + pageSize.toNat) :
    logFrame pageSize (wal.write off p) m = logFrame pageSize wal m :=
  congrArg Frame.image (storedFrame_write_other positive also apart low high)

theorem logFrame_write_header (wal : Storage) (n : Nat) (h : FrameHeader) :
    logFrame pageSize (wal.write (frameOffset pageSize n) h.bytes) n = (h.pgNo.toNat, (logFrame pageSize wal n).2) :=
  congrArg Frame.image (storedFrame_write_header wal n h)

theorem logFrame_write_data (wal : Storage) (n : Nat) {data : Bytes} (length : data.length = pageSize.toNat) :
    logFrame pageSize (wal.write (frameOffset pageSize n + frameHeaderSize) data) n = ((logFrame pageSize wal n).1, data) :=
  congrArg Frame.image (storedFrame_write_data wal n length)

/-- A log file holds the images of `frames` from frame `start` on. -/
def Holds (pageSize : UInt32) (wal : Storage) (start : Nat) (frames : List Frame) : Prop :=
  ∀ i frame, frames[i]? = some frame → logFrame pageSize wal (start + i) = frame.image

theorem Holds.nil (wal : Storage) (start : Nat) : Holds pageSize wal start [] := fun _ _ found => nomatch found

theorem Holds.snoc {wal : Storage} {start : Nat} {frames : List Frame} {frame : Frame}
    (holds : Holds pageSize wal start frames) (last : logFrame pageSize wal (start + frames.length) = frame.image) :
    Holds pageSize wal start (frames ++ [frame]) := by
  intro i found member
  rcases Nat.lt_trichotomy i frames.length with before | rfl | after
  · rw [List.getElem?_append_left before] at member
    exact holds i found member
  · rw [List.getElem?_concat_length] at member
    cases member
    exact last
  · rw [List.getElem?_eq_none (by simp; omega)] at member
    cases member

theorem Holds.cons {wal : Storage} {start : Nat} {frame : Frame} {rest : List Frame}
    (holds : Holds pageSize wal (start + 1) rest) (first : logFrame pageSize wal start = frame.image) :
    Holds pageSize wal start (frame :: rest) := by
  intro i found member
  cases i with
  | zero =>
    obtain rfl : frame = found := by simpa using member
    exact first
  | succ i =>
    have stored := holds i found (by simpa using member)
    rw [show start + (i + 1) = start + 1 + i by omega]
    exact stored

theorem Holds.take {wal : Storage} {start : Nat} {front frames : List Frame} (holds : Holds pageSize wal start frames)
    (first : front <+: frames) : Holds pageSize wal start front := by
  obtain ⟨rest, rfl⟩ := first
  intro i frame found
  have inside := (List.getElem?_eq_some_iff.mp found).1
  exact holds i frame ((List.getElem?_append_left inside).trans found)

theorem Holds.congr {wal other : Storage} {start : Nat} {frames : List Frame} (holds : Holds pageSize wal start frames)
    (same : ∀ i, i < frames.length → logFrame pageSize other (start + i) = logFrame pageSize wal (start + i)) :
    Holds pageSize other start frames := by
  intro i frame found
  rw [same i (List.getElem?_eq_some_iff.mp found).1]
  exact holds i frame found

theorem logFrames_congr {wal other : Storage} {count : Nat}
    (same : ∀ n, 1 ≤ n → n ≤ count → logFrame pageSize other n = logFrame pageSize wal n) :
    logFrames pageSize other count = logFrames pageSize wal count := by
  apply List.map_congr_left
  intro i member
  exact same (i + 1) (Nat.le_add_left 1 i) (List.mem_range.mp member)

theorem logFrames_append {wal : Storage} {count : Nat} {frames : List Frame}
    (holds : Holds pageSize wal (count + 1) frames) :
    logFrames pageSize wal (count + frames.length) = logFrames pageSize wal count ++ frames.map Frame.image := by
  rw [logFrames, List.range_add, List.map_append, List.map_map]
  refine congrArg (logFrames pageSize wal count ++ ·) (List.ext_getElem (by simp) ?_)
  intro i inside also
  have bound : i < frames.length := by simpa using inside
  have stored := holds i _ (List.getElem?_eq_getElem bound)
  rw [show count + 1 + i = count + i + 1 by omega] at stored
  simpa using stored

@[simp] theorem logFrames_length (wal : Storage) (count : Nat) : (logFrames pageSize wal count).length = count := by
  simp [logFrames]

end Literaft.Proofs.LogFile
