import Literaft.Faults
import Literaft.Proofs.Filing

/-! What readers find through the wal-index. As long as its tables list the frames of the log
in their order and under their pages, it is the database that the log shows. -/

namespace Literaft.Proofs.Views
open Library Wal Shm WalAppender Literaft.Lookup Faults LogFile Index Appender Calls Lookup Filing

/-- The tables list the first `n` frames of the log file. -/
structure Agrees (a : WALAppender) (n : Nat) : Prop where
  ordered : Ordered a.shm n
  pages : ∀ m, 1 ≤ m → m ≤ n → (pageOf a.shm m).toNat = (logFrame a.pageSize a.f m).1

theorem agrees_start (a : WALAppender) : Agrees a 0 :=
  ⟨ordered_start _, fun _ positive none_ => absurd (Nat.le_trans positive none_) (Nat.not_succ_le_zero 0)⟩

private theorem newest_logFrames (pageSize : UInt32) (wal : Storage) (p n : Nat) :
    newest (logFrames pageSize wal n) p =
      if Nat.findGreatest (fun m => 1 ≤ m ∧ (logFrame pageSize wal m).1 = p) n = 0 then none
      else some (logFrame pageSize wal (Nat.findGreatest (fun m => 1 ≤ m ∧ (logFrame pageSize wal m).1 = p) n)).2 := by
  induction n with
  | zero => rfl
  | succ n ih =>
    have split : logFrames pageSize wal (n + 1) = logFrames pageSize wal n ++ [logFrame pageSize wal (n + 1)] := by
      rw [logFrames, List.range_succ, List.map_append]
      rfl
    rw [split, newest_append, ih, Nat.findGreatest_succ]
    by_cases here : (logFrame pageSize wal (n + 1)).1 = p
    · simp [newest, here]
    · simp [newest, here]

theorem Agrees.reads {a : WALAppender} {m : Nat} (agrees : Agrees a m) {hdr : Header} (published : hdr.maxFrame.toNat ≤ m) :
    Reads a hdr := by
  intro pgNo
  have shown : (a.log hdr).visible.page pgNo.toNat =
      (newest (logFrames a.pageSize a.f hdr.maxFrame.toNat) pgNo.toNat).getD (a.db.page pgNo.toNat) := rfl
  rw [shown, newest_logFrames, readPage]
  by_cases none_ : hdr.maxFrame = 0
  · rw [none_]
    rfl
  · have positive : 1 ≤ hdr.maxFrame.toNat := Nat.pos_of_ne_zero fun zero => none_ (UInt32.toNat_inj.mp zero)
    have same : Nat.findGreatest (Wanted a.shm 1 pgNo) hdr.maxFrame.toNat =
        Nat.findGreatest (fun n => 1 ≤ n ∧ (logFrame a.pageSize a.f n).1 = pgNo.toNat) hdr.maxFrame.toNat := by
      refine findGreatest_congr fun n small => ?_
      refine ⟨fun ⟨some_, _, page⟩ => ⟨some_, ?_⟩, fun ⟨some_, page⟩ => ⟨some_, some_, ?_⟩⟩
      · rw [← agrees.pages n some_ (by omega), page]
      · rw [← agrees.pages n some_ (by omega)] at page
        exact UInt32.toNat_inj.mp page
    rw [findFrame_last agrees.ordered positive published, same, Option.map_some]
    split <;> rfl

theorem Agrees.tables {a b : WALAppender} {n : Nat} (agrees : Agrees a n) (pageSize : b.pageSize = a.pageSize) (wal : b.f = a.f)
    (same : ∀ regionID address, (hashTableOffsets regionID).1 ≤ address → b.shm regionID address = a.shm regionID address) :
    Agrees b n := by
  refine ⟨agrees.ordered.tables same, fun m positive inside => ?_⟩
  rw [pageOf_tables same, pageSize, wal]
  exact agrees.pages m positive inside

section Loop
variable {n : Nat} {stored : Header} {c d : Cursor} {f : Frame} (loop : Loop n stored c) (room : n + 1 < 2 ^ 32)
  (agrees : Agrees c.appender n)
include loop room agrees

theorem Agrees.advance {shm : SharedMemory} (length : f.data.length = c.appender.pageSize.toNat)
    (added : c.appender.shm.addFrame (c.currentFrameIdx + 1) f.header.pgNo = some shm) :
    Agrees (c.advance f shm).appender (n + 1) := by
  have number := loop.next room
  obtain ⟨-, kept, here⟩ := loop.advance length room (addFrame_low (by omega) added)
  refine ⟨agrees.ordered.addFrame number added, fun m positive inside => ?_⟩
  rw [kept.pageSize]
  by_cases last : m = n + 1
  · rw [last, here]
    exact congrArg UInt32.toNat (pageOf_added number added)
  · rw [kept.below m positive (by omega), ← agrees.pages m positive (by omega)]
    exact congrArg UInt32.toNat (pageOf_addFrame number added positive (by omega))

theorem Agrees.append (fine : c.retErr = none) (length : f.data.length = c.appender.pageSize.toNat)
    (appended : c.appendFrame f = some d) : Agrees d.appender (n + 1) := by
  rcases appendFrame_cases appended with ⟨failed, -⟩ | ⟨-, wrong, -⟩ | ⟨-, -, shm, added, shape⟩
  · simp [fine] at failed
  · exact absurd length wrong
  · have data : (c.chained f).data = f.data := congrArg Prod.snd (chained_kept c f).1
    have advanced := Agrees.advance loop room agrees (by rw [data]; exact length) added
    rw [shape]
    split
    · exact advanced.tables rfl rfl (writeHeader_tables _ _)
    · exact advanced

end Loop

end Literaft.Proofs.Views
