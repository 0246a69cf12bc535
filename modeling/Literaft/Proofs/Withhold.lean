import Literaft.Proofs.Session

/-! When a commit frame reaches the wrapped file. The file writes a header through at
once where it takes it for a checksum rewrite of the last committed transaction, so a
transaction of a single frame can be mistaken for one after the log has restarted. -/

namespace Literaft.Proofs.Withhold
open Library Wal Vfs Sqlite Capture Spill Session

/-- The bytes of a frame header with a commit marker, written where a header goes. -/
def Marked (pageSize : UInt32) (off : Nat) (p : Bytes) : Prop :=
  isFrameHeaderOffset pageSize off = true ∧ (FrameHeader.ofBytes p).nTruncate ≠ 0

instance (pageSize : UInt32) (off : Nat) (p : Bytes) : Decidable (Marked pageSize off p) := inferInstanceAs (Decidable (_ ∧ _))

/-- No marked header is written before an approved proposal. -/
def Guarded (pageSize : UInt32) : List Effect → Prop
  | [] => True
  | .write off p :: rest => ¬ Marked pageSize off p ∧ Guarded pageSize rest
  | .propose _ approved :: rest => approved = true ∨ Guarded pageSize rest

instance Guarded.decidable (pageSize : UInt32) : (effects : List Effect) → Decidable (Guarded pageSize effects)
  | [] => inferInstanceAs (Decidable True)
  | .write _ _ :: rest =>
    have := Guarded.decidable pageSize rest
    inferInstanceAs (Decidable (_ ∧ _))
  | .propose _ _ :: rest =>
    have := Guarded.decidable pageSize rest
    inferInstanceAs (Decidable (_ ∨ _))

/-- The commit frame is written only once its transaction is approved, and nothing of
it is written when the transaction is rejected. -/
structure Withheld (pageSize : UInt32) (entry : Entry) : Prop where
  guarded : Guarded pageSize entry.played.effects
  rejected : entry.txn.approved = false → ∀ off p, .write off p ∉
    (play (play entry.before (bodyCalls pageSize entry.start [] entry.txn.body)).file
      (entry.txn.commitCalls pageSize entry.start)).effects

/-- The commit frame is the first frame of its transaction and has the offset and the
page number of a frame of the transaction that the file last saw committed. -/
def Coincides (pageSize : UInt32) (entry : Entry) : Prop :=
  ∃ c ∈ entry.txn.commit, (Extent.of entry.txn).high = 0 ∧ entry.before.currentTxCommitted = true ∧
    ∃ frame ∈ entry.before.currentTxFrameOffsets (frameOffset pageSize entry.start), frame.header.pgNo = c.header.pgNo

instance (pageSize : UInt32) (entry : Entry) : Decidable (Coincides pageSize entry) :=
  inferInstanceAs (Decidable (∃ c ∈ entry.txn.commit, _))

private theorem guarded_unmarked {pageSize : UInt32} {calls : List Call}
    (plain : ∀ call ∈ calls, ¬ Marked pageSize call.off call.p)
    {effects rest : List Effect} (within : effects ⊆ passed calls) :
    Guarded pageSize (effects ++ rest) ↔ Guarded pageSize rest := by
  induction effects with
  | nil => rfl
  | cons effect others ih =>
    obtain ⟨call, member, rfl⟩ := List.mem_map.mp (within List.mem_cons_self)
    rw [List.cons_append, Guarded, ih fun _ later => within (List.mem_cons_of_mem _ later)]
    exact and_iff_right (plain call member)

private theorem op_unmarked {pageSize : UInt32} {start : Nat} {frames : List Frame} {op : Op} (sized : pageSize ≠ 0)
    (legal : op.legal pageSize frames) : ∀ call ∈ op.calls pageSize start frames, ¬ Marked pageSize call.off call.p := by
  have data (n : Nat) (p : Bytes) : ¬ Marked pageSize (frameOffset pageSize n + frameHeaderSize) p := by
    rintro ⟨place, _⟩
    rw [isFrameHeaderOffset_data n (page_positive sized)] at place
    cases place
  intro call member
  cases op with
  | append header data' =>
    simp only [Op.calls, frameCalls, List.mem_cons, List.not_mem_nil, or_false] at member
    rcases member with rfl | rfl
    · rintro ⟨_, marked⟩
      rw [FrameHeader.ofBytes_bytes] at marked
      exact marked legal.1
    · exact data _ _
  | overwrite i data' =>
    rw [List.mem_singleton.mp member]
    exact data _ _
  | rollbackTo live => cases member

private theorem body_unmarked {pageSize : UInt32} {start : Nat} {frames : List Frame} {body : List Op} (sized : pageSize ≠ 0)
    (legal : bodyLegal pageSize frames body) :
    ∀ call ∈ bodyCalls pageSize start frames body, ¬ Marked pageSize call.off call.p := by
  induction body generalizing frames with
  | nil => exact fun call member => nomatch member
  | cons op rest ih =>
    intro call member
    exact (List.mem_append.mp member).elim (op_unmarked sized legal.1 call) (ih legal.2 call)

private theorem coincides_iff {pageSize : UInt32} {view : View} {entry : Entry} (rep : Represents pageSize view entry.before)
    {c : Commit} (committing : entry.txn.commit = some c) :
    Coincides pageSize entry ↔
      (Extent.of entry.txn).high = 0 ∧ view.coincides (frameOffset pageSize entry.start) c.header = true := by
  simp [Coincides, committing, rep.committed, rep.offsets, View.coincides, Option.any_eq_true]

section Commit
variable {pageSize : UInt32} {view : View} {entry : Entry} (sized : pageSize ≠ 0) (began : Began pageSize entry)
  (rep : Represents pageSize view entry.before)
include sized began rep

private theorem rolledBack_withheld (rolledBack : entry.txn.commit = none) : Withheld pageSize entry := by
  obtain ⟨_, _, _, ran⟩ := body_start sized began.positive began.legal rep
  refine ⟨?_, fun _ off p => ?_⟩
  · have guarded : Guarded pageSize (_ ++ []) :=
      (guarded_unmarked (body_unmarked sized began.legal.body) ran.within).mpr trivial
    simpa only [began.played, Transaction.calls, Transaction.commitCalls, Transaction.fixCalls, rolledBack,
      List.append_nil] using guarded
  · simp [Transaction.commitCalls, rolledBack, play]

private theorem guarded_commit_iff : Guarded pageSize entry.played.effects ↔
    Guarded pageSize ((play (play entry.before (bodyCalls pageSize entry.start [] entry.txn.body)).file
      (entry.txn.commitCalls pageSize entry.start)).effects ++
        (play (play (play entry.before (bodyCalls pageSize entry.start [] entry.txn.body)).file
          (entry.txn.commitCalls pageSize entry.start)).file (entry.txn.fixCalls pageSize entry.start)).effects) := by
  obtain ⟨_, _, _, ran⟩ := body_start sized began.positive began.legal rep
  rw [began.played, Transaction.calls, play_append, play_append]
  exact guarded_unmarked (body_unmarked sized began.legal.body) ran.within

variable {c : Commit} (committing : entry.txn.commit = some c)
include committing

private theorem coincident_early (same : Coincides pageSize entry) : ¬ Guarded pageSize entry.played.effects := by
  obtain ⟨_, _, _, effects⟩ := commit_run sized began.positive began.legal rep committing
  rw [guarded_commit_iff sized began rep, effects, if_pos ((coincides_iff rep committing).mp same)]
  rintro ⟨unmarked, _⟩
  exact unmarked ⟨isFrameHeaderOffset_frameOffset _, by
    rw [FrameHeader.ofBytes_bytes]; exact began.legal.marked c committing⟩

private theorem apart_withheld (apart : ¬ Coincides pageSize entry) : Withheld pageSize entry := by
  obtain ⟨_, _, _, effects⟩ := commit_run sized began.positive began.legal rep committing
  rw [if_neg fun same => apart ((coincides_iff rep committing).mpr same), List.nil_append] at effects
  refine ⟨?_, ?_⟩
  · rw [guarded_commit_iff sized began rep, effects]
    cases answer : c.answer with
    | none => exact .inl rfl
    | some err =>
      have fixes : entry.txn.fixCalls pageSize entry.start = [] := by
        simp [Transaction.fixCalls, committing, Transaction.rewriteCalls, answer]
      rw [fixes]
      exact .inr trivial
  · intro rejected off p
    have refused : c.answer.isNone = false := by simpa [Transaction.approved, committing] using rejected
    rw [effects, refused]
    simp

end Commit

private theorem withheld_iff {pageSize : UInt32} {entry : Entry} (sized : pageSize ≠ 0) (began : Began pageSize entry) :
    Withheld pageSize entry ↔ ¬ Coincides pageSize entry := by
  rcases began.known with fresh | ⟨view, rep⟩
  · refine iff_of_true ⟨?_, fun _ off p => ?_⟩ ?_
    · rw [began.played, fresh, (play_unsized calls_positive).2]
      exact trivial
    · rw [fresh, (play_unsized bodyCalls_positive).1, (play_unsized commitCalls_positive).2]
      exact List.not_mem_nil
    · rintro ⟨c, _, _, sealed, _⟩
      rw [fresh] at sealed
      cases sealed
  · cases committing : entry.txn.commit with
    | none =>
      refine iff_of_true (rolledBack_withheld sized began rep committing) ?_
      rintro ⟨c, member, _⟩
      rw [committing] at member
      cases member
    | some c =>
      exact ⟨fun withheld same => coincident_early sized began rep committing same withheld.guarded,
        apart_withheld sized began rep committing⟩

/-- A session withholds every commit frame until its transaction is approved exactly
when no transaction starts with a commit frame that coincides with a committed one. -/
theorem session_withheld_iff {pageSize : UInt32} (sized : pageSize ≠ 0) {base : Bytes} (head : headed pageSize base)
    (mxFrame : Nat) {events : List Event} (legal : ∀ event ∈ events, event.legal pageSize) :
    (∀ entry ∈ (Session.start base mxFrame).entries pageSize events, Withheld pageSize entry) ↔
      ∀ entry ∈ (Session.start base mxFrame).entries pageSize events, ¬ Coincides pageSize entry :=
  forall₂_congr fun entry member => withheld_iff sized (entries_began sized legal (known_start head) entry member)

/-- Page 2 is committed, the log restarts, and the same page is to be committed again. -/
def repeated (answer : Option GateError) (pgNo : UInt32) : List Event :=
  [.txn ⟨[], some { header := { pgNo := 2, nTruncate := 2 }, data := filled 2 }⟩, .restart (some emptyLog),
    .txn ⟨[], some { header := { pgNo, nTruncate := 2 }, data := filled 3, answer }⟩]

theorem repeated_withheld : (∀ event ∈ repeated none 1, event.legal 512) ∧
    ∀ entry ∈ (Session.start emptyLog 0).entries 512 (repeated none 1), Withheld 512 entry :=
  have legal : ∀ event ∈ repeated none 1, event.legal 512 := by decide +kernel
  ⟨legal, (session_withheld_iff (by decide) (by decide +kernel) 0 legal).mpr (by decide +kernel)⟩

def notLeader : GateError := ⟨"not the leader", some readonlyCode⟩

/-- The gate rejects the second transaction, whose commit header is already written. -/
theorem repeated_not_withheld :
    (∀ event ∈ repeated (some notLeader) 2, event.legal 512) ∧
      ((Session.start emptyLog 0).entries 512 (repeated (some notLeader) 2)).map (fun entry => entry.played.effects) =
        [[.propose [⟨{ pgNo := 2, nTruncate := 2 }, filled 2⟩] true,
            .write 32 ({ pgNo := 2, nTruncate := 2 } : FrameHeader).bytes, .write 56 (filled 2)],
          [.write 32 ({ pgNo := 2, nTruncate := 2 } : FrameHeader).bytes,
            .propose [⟨{ pgNo := 2, nTruncate := 2 }, filled 3⟩] false]] ∧
      ¬ ∀ entry ∈ (Session.start emptyLog 0).entries 512 (repeated (some notLeader) 2), Withheld 512 entry := by
  refine ⟨by decide +kernel, by decide +kernel, fun withheld => ?_⟩
  have guarded := fun entry member => (withheld entry member).guarded
  revert guarded
  decide +kernel

end Literaft.Proofs.Withhold
