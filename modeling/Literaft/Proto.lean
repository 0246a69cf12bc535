import Literaft.Wal

/-! The transaction of a log entry: page images in the order of their frames, and the
size of the database after them. -/

namespace Literaft.Proto
open Library Wal

structure Page where
  pgNo : UInt32
  data : Bytes
  deriving DecidableEq, Repr

structure LogEntryTransaction where
  pages : List Page := []
  nTruncate : UInt32 := 0
  deriving DecidableEq, Repr

/-- The body of the loop of `newLogEntryTransaction`. -/
def LogEntryTransaction.add (tx : LogEntryTransaction) (frame : Frame) : LogEntryTransaction where
  pages := tx.pages ++ [⟨frame.header.pgNo, frame.data⟩]
  nTruncate := if 0 < frame.header.nTruncate then frame.header.nTruncate else tx.nTruncate

def newLogEntryTransaction (frames : List Frame) : LogEntryTransaction := frames.foldl LogEntryTransaction.add {}

/-- Only the last frame carries the size. -/
def LogEntryTransaction.frames (t : LogEntryTransaction) : List Frame :=
  t.pages.mapIdx fun i page =>
    ⟨{ pgNo := page.pgNo, nTruncate := if i = t.pages.length - 1 then t.nTruncate else 0 }, page.data⟩

theorem LogEntryTransaction.frames_images (t : LogEntryTransaction) :
    t.frames.map Frame.image = t.pages.map fun page => (page.pgNo.toNat, page.data) := by
  apply List.ext_getElem (by simp [LogEntryTransaction.frames])
  intro i _ _
  simp [LogEntryTransaction.frames, Frame.image]

theorem LogEntryTransaction.frames_split {t : LogEntryTransaction} (somePage : t.pages ≠ []) :
    ∃ body last, t.frames = body ++ [last] ∧ last.header.nTruncate = t.nTruncate := by
  have nonempty : t.frames ≠ [] := by simpa [LogEntryTransaction.frames] using somePage
  refine ⟨_, _, (List.dropLast_append_getLast nonempty).symm, ?_⟩
  simp only [LogEntryTransaction.frames, List.getLast_mapIdx, if_true]

private theorem foldl_plain (frames : List Frame) (tx : LogEntryTransaction)
    (plain : ∀ frame ∈ frames, frame.header.nTruncate = 0) :
    frames.foldl LogEntryTransaction.add tx =
      { tx with pages := tx.pages ++ frames.map fun frame => ⟨frame.header.pgNo, frame.data⟩ } := by
  induction frames generalizing tx with
  | nil => simp
  | cons frame rest ih =>
    rw [List.foldl_cons, ih _ fun later member => plain later (List.mem_cons_of_mem _ member)]
    simp [LogEntryTransaction.add, plain frame List.mem_cons_self]

/-- What a committed transaction's frames become on their way through a log entry: the
same pages in the same order, the last of them marked. -/
theorem frames_newLogEntryTransaction {body : List Frame} {last : Frame}
    (plain : ∀ frame ∈ body, frame.header.nTruncate = 0) (marked : last.header.nTruncate ≠ 0) :
    (newLogEntryTransaction (body ++ [last])).frames =
      body.map (fun frame => ⟨{ pgNo := frame.header.pgNo }, frame.data⟩) ++
        [⟨{ pgNo := last.header.pgNo, nTruncate := last.header.nTruncate }, last.data⟩] := by
  have positive : 0 < last.header.nTruncate := UInt32.pos_iff_ne_zero.mpr marked
  have entry : newLogEntryTransaction (body ++ [last]) =
      ⟨body.map (fun frame => ⟨frame.header.pgNo, frame.data⟩) ++ [⟨last.header.pgNo, last.data⟩],
        last.header.nTruncate⟩ := by
    simp [newLogEntryTransaction, foldl_plain body _ plain, LogEntryTransaction.add, positive]
  rw [entry, LogEntryTransaction.frames]
  apply List.ext_getElem (by simp)
  intro i inside _
  simp only [List.length_mapIdx, List.length_append, List.length_map, List.length_cons, List.length_nil] at inside
  by_cases before : i < body.length
  · simp [before, Nat.ne_of_lt before]
  · have last : i = body.length := by omega
    subst last
    simp

end Literaft.Proto
