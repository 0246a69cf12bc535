import Mathlib.Data.List.TakeWhile
import Literaft.WalAppender
import Literaft.Proofs.Index
import Literaft.Proofs.LogFile

/-! The loop of one append, for whatever frames it is given: it writes those before the
first of a wrong size behind the published ones, and the published header stays as it
is until a commit frame is written. -/

namespace Literaft.Proofs.Appender
open Library Wal Shm WalAppender Literaft.Lookup LogFile Index

/-- What the loop leaves alone once `n` frames are in the log. -/
structure Keeps (n : Nat) (c d : Cursor) : Prop where
  pageSize : d.appender.pageSize = c.appender.pageSize
  db : d.appender.db = c.appender.db
  info : d.appender.shm.readCheckpointInfo = c.appender.shm.readCheckpointInfo
  below : ∀ m, 1 ≤ m → m ≤ n → logFrame c.appender.pageSize d.appender.f m = logFrame c.appender.pageSize c.appender.f m

theorem Keeps.refl (n : Nat) (c : Cursor) : Keeps n c c := ⟨rfl, rfl, rfl, fun _ _ _ => rfl⟩

theorem Keeps.trans {n k : Nat} {c d e : Cursor} (first : Keeps n c d) (last : Keeps k d e) (more : n ≤ k) : Keeps n c e where
  pageSize := last.pageSize.trans first.pageSize
  db := last.db.trans first.db
  info := last.info.trans first.info
  below m positive inside := by
    have later := last.below m positive (Nat.le_trans inside more)
    rw [first.pageSize] at later
    exact later.trans (first.below m positive inside)

private theorem updateChecksums_kept (f : Frame) (enc : ByteOrder) (sum1 sum2 : UInt32) :
    (f.updateChecksums enc sum1 sum2).image = f.image ∧
      (f.updateChecksums enc sum1 sum2).header.nTruncate = f.header.nTruncate := by
  simp only [Frame.updateChecksums]
  split <;> exact ⟨rfl, rfl⟩

theorem chained_kept (c : Cursor) (f : Frame) :
    (c.chained f).image = f.image ∧ (c.chained f).header.nTruncate = f.header.nTruncate :=
  updateChecksums_kept { f with header.salt1 := c.hdr.salt1, header.salt2 := c.hdr.salt2 } _ _ _

/-- The loop stands behind frame `n`, whatever the wal-index holds. -/
structure Loop (n : Nat) (stored : Header) (c : Cursor) : Prop where
  number : c.currentFrameIdx.toNat = n
  offset : c.currentOffset = frameOffset c.appender.pageSize (n + 1)
  header : c.appender.shm.readHeader = some stored

theorem Loop.next {n : Nat} {stored : Header} {c : Cursor} (loop : Loop n stored c) (room : n + 1 < 2 ^ 32) :
    (c.currentFrameIdx + 1).toNat = n + 1 := by
  rw [UInt32.toNat_add, loop.number, show (1 : UInt32).toNat = 1 from rfl, Nat.mod_eq_of_lt room]

theorem Loop.wal {n : Nat} {stored : Header} {c : Cursor} (loop : Loop n stored c) (f : Frame) (shm : SharedMemory) :
    (c.advance f shm).appender.f = writtenFrame c.appender.pageSize c.appender.f (n + 1) f := by
  rw [writtenFrame, ← loop.offset]
  rfl

theorem frameOffset_succ (pageSize : UInt32) (n : Nat) :
    frameOffset pageSize (n + 1) + (frameHeaderSize + pageSize.toNat) = frameOffset pageSize (n + 1 + 1) := by
  simp only [frameOffset, Nat.add_sub_cancel, Nat.add_mul, Nat.one_mul]
  omega

theorem Loop.advance {n : Nat} {stored : Header} {c : Cursor} {f : Frame} {shm : SharedMemory} (loop : Loop n stored c)
    (length : f.data.length = c.appender.pageSize.toNat) (room : n + 1 < 2 ^ 32)
    (low : ∀ address, address < headerSize → shm 0 address = c.appender.shm 0 address) :
    Loop (n + 1) stored (c.advance f shm) ∧ Keeps n c (c.advance f shm) ∧
      logFrame c.appender.pageSize (c.advance f shm).appender.f (n + 1) = f.image := by
  refine ⟨⟨loop.next room, ?_, ?_⟩, ⟨rfl, rfl, ?_, ?_⟩, ?_⟩
  · exact (congrArg (· + _) loop.offset).trans (frameOffset_succ _ n)
  · rw [← loop.header]
    exact readHeader_congr fun address inside => low address (Nat.lt_trans inside (by decide))
  · exact readCheckpointInfo_congr fun address _ inside => low address inside
  · intro m positive inside
    rw [loop.wal]
    exact congrArg Frame.image (storedFrame_written_other _ length positive (Nat.le_add_left 1 n) (by omega))
  · rw [loop.wal]
    exact congrArg Frame.image (storedFrame_written _ length)

theorem Loop.publish {n : Nat} {stored : Header} {c : Cursor} (loop : Loop n stored c) (nTruncate : UInt32) :
    Keeps n c (c.publish nTruncate) ∧ Loop n (c.publish nTruncate).hdr (c.publish nTruncate) ∧
      (c.publish nTruncate).hdr.maxFrame.toNat = n ∧ (c.publish nTruncate).hdr.pageCount = nTruncate :=
  ⟨⟨rfl, rfl, readCheckpointInfo_writeHeader _ _, fun _ _ _ => rfl⟩,
    ⟨loop.number, loop.offset, readHeader_writeHeader _ _⟩, loop.number, rfl⟩

theorem appendFrame_cases {c d : Cursor} {f : Frame} (appended : c.appendFrame f = some d) :
    c.retErr.isSome = true ∧ d = c ∨
    c.retErr = none ∧ f.data.length ≠ c.appender.pageSize.toNat ∧ (∃ message, d = { c with retErr := some message }) ∨
    c.retErr = none ∧ f.data.length = c.appender.pageSize.toNat ∧ ∃ shm,
      c.appender.shm.addFrame (c.currentFrameIdx + 1) (c.chained f).header.pgNo = some shm ∧
      d = if f.header.nTruncate ≠ 0 then (c.advance (c.chained f) shm).publish f.header.nTruncate
        else c.advance (c.chained f) shm := by
  have nTruncate := (chained_kept c f).2
  unfold Cursor.appendFrame at appended
  split at appended
  · next failed =>
    cases appended
    exact .inl ⟨failed, rfl⟩
  · next fine =>
    have fine : c.retErr = none := by simpa using fine
    split at appended
    · next wrong =>
      cases appended
      exact .inr (.inl ⟨fine, wrong, _, rfl⟩)
    · next right =>
      simp only [nTruncate] at appended
      obtain ⟨shm, added, rfl⟩ := Option.map_eq_some_iff.mp appended
      exact .inr (.inr ⟨fine, not_not.mp right, shm, added, rfl⟩)

theorem failed_returns {frames : List Frame} {c : Cursor} (failed : c.retErr.isSome = true) :
    frames.foldlM Cursor.appendFrame c = some c := by
  induction frames with
  | nil => rfl
  | cons f rest ih =>
    have step : c.appendFrame f = some c := by simp [Cursor.appendFrame, failed]
    rw [List.foldlM_cons, step]
    exact ih

/-- One frame of the right size: written, indexed, and published if it is a commit frame. -/
theorem Loop.append {n : Nat} {stored : Header} {c d : Cursor} {f : Frame} (loop : Loop n stored c) (fine : c.retErr = none)
    (length : f.data.length = c.appender.pageSize.toNat) (room : n + 1 < 2 ^ 32) (appended : c.appendFrame f = some d) :
    d.retErr = none ∧ Keeps n c d ∧ logFrame c.appender.pageSize d.appender.f (n + 1) = f.image ∧
      ∃ latest, Loop (n + 1) latest d ∧ (f.header.nTruncate = 0 → latest = stored) ∧
        (f.header.nTruncate ≠ 0 → latest.maxFrame.toNat = n + 1 ∧ latest.pageCount = f.header.nTruncate) := by
  rcases appendFrame_cases appended with ⟨failed, -⟩ | ⟨-, wrong, -⟩ | ⟨-, -, shm, added, rfl⟩
  · simp [fine] at failed
  · exact absurd length wrong
  · have same := (chained_kept c f).1
    have data : (c.chained f).data.length = c.appender.pageSize.toNat := by
      rw [show (c.chained f).data = f.data from congrArg Prod.snd same, length]
    have positive : 1 ≤ (c.currentFrameIdx + 1).toNat := by
      rw [loop.next room]
      exact Nat.le_add_left 1 n
    obtain ⟨advanced, kept, here⟩ := loop.advance data room (addFrame_low positive added)
    by_cases plain : f.header.nTruncate = 0
    · rw [if_neg (not_not.mpr plain)]
      exact ⟨fine, kept, here.trans same, stored, advanced, fun _ => rfl, fun marked => absurd plain marked⟩
    · rw [if_pos plain]
      obtain ⟨later, published, mxFrame, pageCount⟩ := advanced.publish f.header.nTruncate
      exact ⟨fine, kept.trans later (Nat.le_succ n), here.trans same, _, published, fun plain' => absurd plain' plain,
        fun _ => ⟨mxFrame, pageCount⟩⟩

/-- A frame of the right size that finds a slot leaves those of the frames behind it. -/
theorem Loop.appends {n count : Nat} {stored : Header} {c : Cursor} {f : Frame} (loop : Loop n stored c) (fine : c.retErr = none)
    (length : f.data.length = c.appender.pageSize.toNat) (room : n + 1 < 2 ^ 32)
    (free : FreeSlots c.appender.shm c.currentFrameIdx (count + 1)) :
    ∃ d, c.appendFrame f = some d ∧ FreeSlots d.appender.shm d.currentFrameIdx count := by
  obtain ⟨shm, added, more⟩ := freeSlots_addFrame (by rw [loop.number]; exact room) free (c.chained f).header.pgNo
  rw [Cursor.appendFrame, if_neg (by simp [fine]), if_neg (not_not.mpr length)]
  simp only [added, Option.map_some]
  refine ⟨_, rfl, ?_⟩
  split
  · exact freeSlots_tables more (writeHeader_tables _ _)
  · exact more

/-- The frames before the first that does not hold one page. -/
def accepted (pageSize : UInt32) (frames : List Frame) : List Frame :=
  frames.takeWhile fun f => f.data.length = pageSize.toNat

/-- The frames up to the last commit frame, and its size. -/
def committed : List Frame → Option (List Frame × UInt32)
  | [] => none
  | f :: rest =>
    match committed rest with
    | some (front, size) => some (f :: front, size)
    | none => if f.header.nTruncate ≠ 0 then some ([f], f.header.nTruncate) else none

theorem committed_front {frames front : List Frame} {size : UInt32} (found : committed frames = some (front, size)) :
    front <+: frames ∧ front ≠ [] ∧ size ≠ 0 := by
  induction frames generalizing front with
  | nil => cases found
  | cons f rest ih =>
    unfold committed at found
    split at found
    · next earlier later =>
      cases found
      exact ⟨(List.prefix_cons_inj f).mpr (ih later).1, List.cons_ne_nil _ _, (ih later).2.2⟩
    · split at found
      · next marked =>
        cases found
        exact ⟨⟨rest, rfl⟩, List.cons_ne_nil _ _, marked⟩
      · cases found

theorem committed_marked {body : List Frame} {last : Frame} (marked : last.header.nTruncate ≠ 0) :
    committed (body ++ [last]) = some (body ++ [last], last.header.nTruncate) := by
  induction body with
  | nil => simp [committed, marked]
  | cons f rest ih => simp [committed, ih]

theorem accepted_eq_self {pageSize : UInt32} {frames : List Frame} :
    accepted pageSize frames = frames ↔ ∀ f ∈ frames, f.data.length = pageSize.toNat := by
  simp [accepted, List.takeWhile_eq_self_iff]

def Latest (n : Nat) (stored latest : Header) : Option (List Frame × UInt32) → Prop
  | none => latest = stored
  | some (front, size) => latest.maxFrame.toNat = n + front.length ∧ latest.pageCount = size

theorem Latest.cons {n : Nat} {f : Frame} {rest : List Frame} {stored middle latest : Header}
    (plain : f.header.nTruncate = 0 → middle = stored)
    (marked : f.header.nTruncate ≠ 0 → middle.maxFrame.toNat = n + 1 ∧ middle.pageCount = f.header.nTruncate)
    (later : Latest (n + 1) middle latest (committed rest)) : Latest n stored latest (committed (f :: rest)) := by
  unfold committed
  cases found : committed rest with
  | some last =>
    rw [found] at later
    exact ⟨later.1.trans (by rw [List.length_cons]; omega), later.2⟩
  | none =>
    rw [found] at later
    obtain rfl : latest = middle := later
    dsimp only
    split
    · next commit => exact marked commit
    · next commit => exact plain (not_not.mp commit)

theorem Loop.run {frames : List Frame} {n : Nat} {stored : Header} {c d : Cursor} (loop : Loop n stored c)
    (fine : c.retErr = none) (room : n + (accepted c.appender.pageSize frames).length < 2 ^ 32)
    (ran : frames.foldlM Cursor.appendFrame c = some d) :
    Keeps n c d ∧ Holds c.appender.pageSize d.appender.f (n + 1) (accepted c.appender.pageSize frames) ∧
      (d.retErr = none ↔ accepted c.appender.pageSize frames = frames) ∧
      ∃ latest, d.appender.shm.readHeader = some latest ∧
        Latest n stored latest (committed (accepted c.appender.pageSize frames)) := by
  induction frames generalizing n stored c with
  | nil =>
    cases ran
    exact ⟨Keeps.refl n _, Holds.nil _ _, ⟨fun _ => rfl, fun _ => fine⟩, stored, loop.header, rfl⟩
  | cons f rest ih =>
    rw [List.foldlM_cons] at ran
    obtain ⟨e, appended, ran⟩ := Option.bind_eq_some_iff.mp ran
    by_cases length : f.data.length = c.appender.pageSize.toNat
    · have split : accepted c.appender.pageSize (f :: rest) = f :: accepted c.appender.pageSize rest := by
        simp [accepted, length]
      rw [split, List.length_cons] at room
      obtain ⟨good, kept, here, middle, advanced, plain, marked⟩ := loop.append fine length (by omega) appended
      obtain ⟨later, holds, outcome, latest, header, published⟩ :=
        ih advanced good (by rw [kept.pageSize]; omega) ran
      rw [kept.pageSize] at holds outcome published
      have still : logFrame c.appender.pageSize d.appender.f (n + 1) = f.image := by
        have unchanged := later.below (n + 1) (Nat.le_add_left 1 n) (Nat.le_refl _)
        rw [kept.pageSize] at unchanged
        exact unchanged.trans here
      rw [split]
      refine ⟨kept.trans later (Nat.le_succ n), holds.cons still, outcome.trans (by simp), latest, header,
        Latest.cons plain marked published⟩
    · have nothing : accepted c.appender.pageSize (f :: rest) = [] := by simp [accepted, length]
      rcases appendFrame_cases appended with ⟨failed, -⟩ | ⟨-, -, message, rfl⟩ | ⟨-, right, -⟩
      · simp [fine] at failed
      · obtain rfl := Option.some.inj ((failed_returns rfl).symm.trans ran)
        rw [nothing]
        exact ⟨⟨rfl, rfl, rfl, fun _ _ _ => rfl⟩, Holds.nil _ _, ⟨fun none' => (by cases none'), fun none' => by cases none'⟩,
          stored, loop.header, rfl⟩
      · exact absurd right length

/-- With a slot for every frame the loop comes to its end. -/
theorem Loop.returns {frames : List Frame} {n count : Nat} {stored : Header} {c : Cursor} (loop : Loop n stored c)
    (fine : c.retErr = none) (room : n + (accepted c.appender.pageSize frames).length < 2 ^ 32)
    (free : FreeSlots c.appender.shm c.currentFrameIdx ((accepted c.appender.pageSize frames).length + count)) :
    ∃ d, frames.foldlM Cursor.appendFrame c = some d ∧
      d.currentFrameIdx.toNat = n + (accepted c.appender.pageSize frames).length ∧
      FreeSlots d.appender.shm d.currentFrameIdx count := by
  induction frames generalizing n stored c with
  | nil => exact ⟨c, rfl, loop.number, freeSlots_mono free (Nat.le_add_left _ _)⟩
  | cons f rest ih =>
    by_cases length : f.data.length = c.appender.pageSize.toNat
    · have split : accepted c.appender.pageSize (f :: rest) = f :: accepted c.appender.pageSize rest := by
        simp [accepted, length]
      rw [split, List.length_cons] at room free ⊢
      rw [Nat.add_right_comm] at free
      obtain ⟨e, appended, more⟩ := loop.appends fine length (by omega) free
      obtain ⟨good, kept, -, _, advanced, -, -⟩ := loop.append fine length (by omega) appended
      rw [← kept.pageSize] at more
      obtain ⟨d, ran, number, left⟩ := ih advanced good (by rw [kept.pageSize]; omega) more
      rw [kept.pageSize] at number
      exact ⟨d, by rw [List.foldlM_cons, appended]; exact ran, by omega, left⟩
    · have nothing : accepted c.appender.pageSize (f :: rest) = [] := by simp [accepted, length]
      obtain ⟨message, appended⟩ : ∃ message, c.appendFrame f = some { c with retErr := some message } :=
        ⟨_, by rw [Cursor.appendFrame, if_neg (by simp [fine]), if_pos length]⟩
      rw [nothing] at free ⊢
      have ran : rest.foldlM Cursor.appendFrame { c with retErr := some message } = _ := failed_returns rfl
      exact ⟨{ c with retErr := some message }, by rw [List.foldlM_cons, appended]; exact ran, loop.number,
        freeSlots_mono free (Nat.le_add_left _ _)⟩

/-- A loop that has come to its end found a slot for every frame. -/
theorem Loop.free {frames : List Frame} {n : Nat} {stored : Header} {c d : Cursor} (loop : Loop n stored c)
    (fine : c.retErr = none) (room : n + (accepted c.appender.pageSize frames).length < 2 ^ 32)
    (ran : frames.foldlM Cursor.appendFrame c = some d) :
    FreeSlots c.appender.shm c.currentFrameIdx (accepted c.appender.pageSize frames).length := by
  induction frames generalizing n stored c with
  | nil => exact freeSlots_zero _ _
  | cons f rest ih =>
    rw [List.foldlM_cons] at ran
    obtain ⟨e, appended, ran⟩ := Option.bind_eq_some_iff.mp ran
    by_cases length : f.data.length = c.appender.pageSize.toNat
    · have split : accepted c.appender.pageSize (f :: rest) = f :: accepted c.appender.pageSize rest := by
        simp [accepted, length]
      rw [split, List.length_cons] at room ⊢
      obtain ⟨good, kept, -, _, advanced, -, -⟩ := loop.append fine length (by omega) appended
      have later := ih advanced good (by rw [kept.pageSize]; omega) ran
      rw [kept.pageSize] at later
      rcases appendFrame_cases appended with ⟨failed, -⟩ | ⟨-, wrong, -⟩ | ⟨-, -, shm, added, shape⟩
      · simp [fine] at failed
      · exact absurd length wrong
      · refine freeSlots_of_addFrame (by rw [loop.number]; omega) added ?_
        rw [shape] at later
        split at later
        · exact freeSlots_tables later fun _ _ above => (writeHeader_tables _ _ _ _ above).symm
        · exact later
    · have nothing : accepted c.appender.pageSize (f :: rest) = [] := by simp [accepted, length]
      rw [nothing]
      exact freeSlots_zero _ _

end Literaft.Proofs.Appender
