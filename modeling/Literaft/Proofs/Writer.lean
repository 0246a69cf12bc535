import Literaft.Replica
import Literaft.Proofs.Proposals
import Literaft.Proofs.LogFile

/-! The only writer of a log. Each of its transactions starts right behind the published
frames, so the gated file never carries frames over from one transaction to the next, and
what it proposes is what the log then holds. -/

namespace Literaft.Proofs.Writer
open Library Wal Vfs Sqlite Capture Spill Session Proposals Replica LogFile

@[simp] theorem written_nil (wal : Storage) : written wal [] = wal := rfl

private theorem written_append (wal : Storage) (first last : List Effect) :
    written wal (first ++ last) = written (written wal first) last := List.foldl_append

@[simp] theorem written_propose (wal : Storage) (frames : List Frame) (decision : Bool) (rest : List Effect) :
    written wal (.propose frames decision :: rest) = written wal rest := rfl

@[simp] theorem written_passed_cons (wal : Storage) (call : Call) (rest : List Call) :
    written wal (passed (call :: rest)) = written (wal.write call.off call.p) (passed rest) := rfl

/-- Two logs that differ only from frame `start` on. -/
def Agree (pageSize : UInt32) (start : Nat) (wal other : Storage) : Prop :=
  ∀ m, 1 ≤ m → m < start → logFrame pageSize other m = logFrame pageSize wal m

theorem Agree.trans {pageSize : UInt32} {start : Nat} {first second third : Storage}
    (left : Agree pageSize start first second) (right : Agree pageSize start second third) :
    Agree pageSize start first third :=
  fun m positive before => (right m positive before).trans (left m positive before)

theorem Agree.write {pageSize : UInt32} {start n off : Nat} {p : Bytes} (wal : Storage) (positive : 1 ≤ start) (later : start ≤ n)
    (low : frameOffset pageSize n ≤ off) (high : off + p.length ≤ frameOffset pageSize n + frameHeaderSize + pageSize.toNat) :
    Agree pageSize start wal (wal.write off p) :=
  fun _ bound before => logFrame_write_other bound (Nat.le_trans positive later) (by omega) low high

variable {pageSize : UInt32} {start : Nat} {frames : List Frame}

private theorem holds_take {wal : Storage} (holds : Holds pageSize wal start frames) (live : Nat) :
    Holds pageSize wal start (frames.take live) := by
  intro i frame found
  rw [List.getElem?_take] at found
  split at found
  · exact holds i frame found
  · cases found

private theorem holds_frame {wal : Storage} (holds : Holds pageSize wal start frames) (positive : 1 ≤ start) {h : FrameHeader}
    {data : Bytes} (length : data.length = pageSize.toNat) (answer : Option GateError) :
    let after := written wal (passed (frameCalls pageSize (start + frames.length) h data answer))
    Holds pageSize after start (frames ++ [⟨h, data⟩]) ∧ Agree pageSize start wal after := by
  have header : ∀ n, 1 ≤ n → n ≠ start + frames.length → logFrame pageSize
      (wal.write (frameOffset pageSize (start + frames.length)) h.bytes) n = logFrame pageSize wal n :=
    fun n bound apart => logFrame_write_other bound (by omega) apart (Nat.le_refl _)
      (by rw [FrameHeader.bytes_length]; omega)
  have both : ∀ n, 1 ≤ n → n ≠ start + frames.length → logFrame pageSize
      (written wal (passed (frameCalls pageSize (start + frames.length) h data answer))) n = logFrame pageSize wal n :=
    fun n bound apart => (logFrame_write_other bound (show 1 ≤ start + frames.length by omega) apart
      (Nat.le_add_right _ _) (by rw [length])).trans (header n bound apart)
  refine ⟨Holds.snoc (holds.congr fun i inside => both _ (by omega) (by omega)) ?_, fun m bound before => both m bound (by omega)⟩
  simp only [frameCalls, written_passed_cons]
  refine (logFrame_write_data _ _ length).trans ?_
  rw [logFrame_write_header]
  rfl

private theorem holds_overwrite {wal : Storage} (holds : Holds pageSize wal start frames) (positive : 1 ≤ start) {i : Nat}
    {data : Bytes} (length : data.length = pageSize.toNat) :
    let after := wal.write (frameOffset pageSize (start + i) + frameHeaderSize) data
    Holds pageSize after start (frames.modify i fun old => { old with data }) ∧ Agree pageSize start wal after := by
  refine ⟨?_, Agree.write wal positive (Nat.le_add_right start i) (Nat.le_add_right _ _) (by rw [length])⟩
  intro j frame found
  rw [List.getElem?_modify] at found
  obtain ⟨old, stored, rfl⟩ := Option.map_eq_some_iff.mp found
  by_cases same : i = j
  · subst same
    rw [if_pos rfl, logFrame_write_data _ _ length, holds i old stored]
    rfl
  · rw [if_neg same, logFrame_write_other (by omega) (show 1 ≤ start + i by omega) (by omega) (Nat.le_add_right _ _)
      (by rw [length]), holds j old stored]

theorem holds_body {wal : Storage} {body : List Op} (positive : 1 ≤ start) (legal : bodyLegal pageSize frames body)
    (holds : Holds pageSize wal start frames) :
    let after := written wal (passed (bodyCalls pageSize start frames body))
    Holds pageSize after start (live frames body) ∧ Agree pageSize start wal after := by
  induction body generalizing wal frames with
  | nil => exact ⟨holds, fun _ _ _ => rfl⟩
  | cons op rest ih =>
    have one : Holds pageSize (written wal (passed (op.calls pageSize start frames))) start (op.live frames) ∧
        Agree pageSize start wal (written wal (passed (op.calls pageSize start frames))) := by
      cases op with
      | append header data => exact holds_frame holds positive legal.1.2 none
      | overwrite i data => exact holds_overwrite holds positive legal.1.2
      | rollbackTo live => exact ⟨holds_take holds live, fun _ _ _ => rfl⟩
    obtain ⟨kept, same⟩ := ih legal.2 one.1
    simp only [bodyCalls, passed, List.map_append, written_append] at kept same ⊢
    exact ⟨kept, one.2.trans same⟩

private theorem holds_rewrites {wal : Storage} {effects : List Effect} {fixes : List (Nat × FrameHeader)} (positive : 1 ≤ start)
    (holds : Holds pageSize wal start frames)
    (same : ∀ fix ∈ fixes, ∃ frame ∈ frames[fix.1]?, frame.header.pgNo = fix.2.pgNo)
    (within : effects ⊆ passed (fixes.map fun fix => ⟨fix.2.bytes, frameOffset pageSize (start + fix.1), none⟩)) :
    Holds pageSize (written wal effects) start frames ∧ Agree pageSize start wal (written wal effects) := by
  induction effects generalizing wal with
  | nil => exact ⟨holds, fun _ _ _ => rfl⟩
  | cons effect rest ih =>
    obtain ⟨call, member, rfl⟩ := List.mem_map.mp (within List.mem_cons_self)
    obtain ⟨fix, fixed, rfl⟩ := List.mem_map.mp member
    obtain ⟨old, stored, pgNo⟩ := same fix fixed
    have header : Holds pageSize (wal.write (frameOffset pageSize (start + fix.1)) fix.2.bytes) start frames := by
      intro i frame found
      by_cases here : i = fix.1
      · subst here
        obtain rfl : old = frame := Option.some.inj (stored.symm.trans found)
        rw [logFrame_write_header, holds _ old found, ← pgNo]
        rfl
      · rw [logFrame_write_other (by omega) (show 1 ≤ start + fix.1 by omega) (by omega) (Nat.le_refl _)
          (by rw [FrameHeader.bytes_length]; omega)]
        exact holds i frame found
    obtain ⟨kept, agree⟩ := ih header fun _ later => within (List.mem_cons_of_mem _ later)
    exact ⟨kept, (Agree.write wal positive (Nat.le_add_right start fix.1) (Nat.le_refl _)
      (by rw [FrameHeader.bytes_length]; omega)).trans agree⟩

def Plain (pageSize : UInt32) (frame : Frame) : Prop :=
  frame.header.nTruncate = 0 ∧ frame.data.length = pageSize.toNat

private theorem live_plain {body : List Op} (legal : bodyLegal pageSize frames body)
    (plain : ∀ frame ∈ frames, Plain pageSize frame) :
    ∀ frame ∈ live frames body, Plain pageSize frame := by
  induction body generalizing frames with
  | nil => exact plain
  | cons op rest ih =>
    apply ih legal.2
    intro frame member
    cases op with
    | append header data =>
      rcases List.mem_append.mp member with old | new
      · exact plain frame old
      · rw [List.mem_singleton.mp new]
        exact legal.1
    | overwrite i data =>
      obtain ⟨j, inside, rfl⟩ := List.mem_iff_getElem.mp member
      simp only [Op.live, List.getElem_modify]
      have before := plain _ (List.getElem_mem (by simpa [Op.live] using inside))
      split
      · exact ⟨before.1, legal.1.2⟩
      · exact before
    | rollbackTo live => exact plain frame (List.mem_of_mem_take member)

theorem straight_body {body : List Op} (straight : ∀ op ∈ body, op.rollsBack = false) {extent : Extent}
    (onward : extent.live = extent.high ∧ extent.lost = 0 ∧ extent.again = false) :
    let after := extent.body body
    (after.live = after.high ∧ after.lost = 0 ∧ after.again = false) ∧ extent.acceptsAll body := by
  induction body generalizing extent with
  | nil => exact ⟨onward, trivial⟩
  | cons op rest ih =>
    have next : (extent.op op).live = (extent.op op).high ∧ (extent.op op).lost = 0 ∧ (extent.op op).again = false := by
      cases op with
      | append header data =>
        simp only [Extent.op, Extent.append, onward.1, Nat.lt_irrefl, if_false]
        exact ⟨trivial, onward.2⟩
      | overwrite i data => exact onward
      | rollbackTo live => cases straight _ List.mem_cons_self
    obtain ⟨after, accepted⟩ := ih (fun later member => straight later (List.mem_cons_of_mem _ member)) next
    refine ⟨after, ?_, accepted⟩
    cases op with
    | append header data => trivial
    | overwrite i data => exact Nat.le_trans (Nat.le_of_eq onward.2.1) (Nat.zero_le i)
    | rollbackTo live => trivial

theorem onward_start : ({} : Extent).live = ({} : Extent).high ∧ ({} : Extent).lost = 0 ∧ ({} : Extent).again = false :=
  ⟨rfl, rfl, rfl⟩

/-- Whatever the file still keeps is forgotten by the next transaction, which starts at
or below its last offset. -/
def Anchored (pageSize : UInt32) (start : Nat) (view : View) : Prop :=
  Closed view ∨ frameOffset pageSize start ≤ view.top

theorem Anchored.base {view : View} (anchored : Anchored pageSize start view) :
    view.base (frameOffset pageSize start) = [] := by
  rcases anchored with closed | behind
  · exact closed.base _
  · simp [View.base, behind]

section Txn
variable {found : View} {f : GatedWALFile} {t : Transaction} (sized : pageSize ≠ 0) (positive : 1 ≤ start)
  (legal : t.Legal pageSize) (rep : Represents pageSize found f) (straight : ∀ op ∈ t.body, op.rollsBack = false)
  (anchored : Anchored pageSize start found)
include sized positive legal rep

private theorem early_holds {c : Commit} (wal : Storage) (holds : Holds pageSize wal start (live [] t.body)) :
    let early : List Effect := if (Extent.of t).high = 0 ∧ found.coincides (frameOffset pageSize start) c.header = true then
      [.write (frameOffset pageSize start) c.header.bytes] else []
    Holds pageSize (written wal early) start (live [] t.body) ∧ Agree pageSize start wal (written wal early) := by
  obtain ⟨_, _, follows, _⟩ := body_start sized positive legal rep
  by_cases ahead : (Extent.of t).high = 0 ∧ found.coincides (frameOffset pageSize start) c.header = true
  · simp only [ahead, and_self, if_true]
    refine ⟨?_, Agree.write wal positive (Nat.le_refl start) (Nat.le_refl _) (by rw [FrameHeader.bytes_length]; omega)⟩
    rcases follows.high with ⟨_, none_, _⟩ | ⟨later, _⟩
    · rw [none_]
      exact Holds.nil _ _
    · exact absurd ahead.1 later
  · simp only [ahead, if_false]
    exact ⟨holds, fun _ _ _ => rfl⟩

include straight

theorem rolledBack_txn (wal : Storage) (rolledBack : t.commit = none) :
    (∃ view, Represents pageSize view (play f (t.calls pageSize start)).file ∧
      (view = found ∨ frameOffset pageSize start ≤ view.top)) ∧
      Agree pageSize start wal (written wal (play f (t.calls pageSize start)).effects) ∧
      approved (play f (t.calls pageSize start)).effects = [] := by
  obtain ⟨view, kept, follows, ran⟩ := body_start sized positive legal rep
  obtain ⟨_, accepted⟩ := straight_body straight onward_start
  have effects := (ran.accepted accepted).1
  have calls : t.calls pageSize start = bodyCalls pageSize start [] t.body := by
    simp [Transaction.calls, Transaction.commitCalls, Transaction.fixCalls, rolledBack]
  rw [calls]
  refine ⟨⟨view, kept, ?_⟩, ?_, ?_⟩
  · rcases follows with ⟨_, _, same⟩ | tracks
    · exact .inl same
    · have begun := tracks.begun
      rw [tracks.top, frameOffset_le_iff pageSize positive (by omega)]
      omega
  · rw [effects]
    exact (holds_body positive legal.body (Holds.nil wal start)).2
  · rw [approved, effects, proposals_passed (List.Subset.refl _)]
    rfl

include anchored

theorem committed_txn (wal : Storage) {c : Commit} (committing : t.commit = some c) :
    (∃ view, Represents pageSize view (play f (t.calls pageSize start)).file ∧ Closed view) ∧
      Agree pageSize start wal (written wal (play f (t.calls pageSize start)).effects) ∧
      (c.answer = none → Holds pageSize (written wal (play f (t.calls pageSize start)).effects) start t.frames) ∧
      approved (play f (t.calls pageSize start)).effects = if c.answer.isNone then [t.frames] else [] := by
  obtain ⟨onward, accepted⟩ := straight_body straight onward_start
  obtain ⟨_, _, _, ran⟩ := body_start sized positive legal rep
  obtain ⟨view, kept, closed, effects⟩ := commit_run sized positive legal rep committing
  obtain ⟨bodyHolds, bodyAgree⟩ := holds_body positive legal.body (Holds.nil wal start)
  obtain ⟨earlyHolds, earlyAgree⟩ := early_holds sized positive legal rep (c := c) _ bodyHolds
  have frames : t.frames = live [] t.body ++ [⟨c.header, c.data⟩] := by simp [Transaction.frames, committing]
  have proposed : proposals (play f (t.calls pageSize start)).effects = [(t.frames, c.answer.isNone)] := by
    have behind : ¬ (Extent.of t).live < (Extent.of t).high := Nat.not_lt.mpr (Nat.le_of_eq onward.1.symm)
    rw [txn_proposals sized positive legal rep committing, anchored.base]
    simp only [Extent.append, behind, if_false, show (Extent.of t).lost = 0 from onward.2.1,
      List.map_nil, ite_self, List.nil_append, List.drop_zero]
  have decided : approved (play f (t.calls pageSize start)).effects = if c.answer.isNone then [t.frames] else [] := by
    rw [approved, proposed]
    cases c.answer <;> rfl
  rw [← and_assoc, ← and_assoc]
  refine ⟨?_, decided⟩
  simp only [Transaction.calls, play_append, (ran.accepted accepted).1, effects, written_append, written_propose]
  cases answer : c.answer with
  | some err =>
    have fixes : t.fixCalls pageSize start = [] := by
      simp [Transaction.fixCalls, committing, Transaction.rewriteCalls, answer]
    rw [fixes]
    exact ⟨⟨⟨view, kept, closed⟩, bodyAgree.trans earlyAgree⟩, fun impossible => by cases impossible⟩
  | none =>
    have fixes : t.fixCalls pageSize start = c.rewrites.map fun fix =>
        ⟨fix.2.bytes, frameOffset pageSize (start + fix.1), none⟩ := by
      simp [Transaction.fixCalls, committing, Transaction.rewriteCalls, answer]
    obtain ⟨next, done, shut, within⟩ := rewrites_run start sized kept closed c.rewrites
    obtain ⟨frameHolds, frameAgree⟩ := holds_frame (h := c.header) earlyHolds positive (legal.length c committing) none
    rw [← frames] at frameHolds
    obtain ⟨fixHolds, fixAgree⟩ := holds_rewrites positive frameHolds
      (fun fix member => (legal.rewrites c committing fix member).imp fun _ both => ⟨both.1, both.2.1⟩) within
    rw [fixes]
    exact ⟨⟨⟨next, done, shut⟩, ((bodyAgree.trans earlyAgree).trans frameAgree).trans fixAgree⟩, fun _ => fixHolds⟩

end Txn

/-- A transaction ready for a log entry: plain frames and one commit frame with the size
of the database after it, all of the log's page size. -/
structure Complete (pageSize : UInt32) (frames : List Frame) (size : UInt32) : Prop where
  split : ∃ body last, frames = body ++ [last] ∧ (∀ frame ∈ body, Plain pageSize frame) ∧
    last.header.nTruncate = size ∧ last.data.length = pageSize.toNat
  sized : size ≠ 0

theorem Complete.txn {t : Transaction} {c : Commit} (legal : t.Legal pageSize) (committing : t.commit = some c) :
    Complete pageSize t.frames c.header.nTruncate :=
  ⟨⟨live [] t.body, ⟨c.header, c.data⟩, by simp [Transaction.frames, committing],
    live_plain legal.body (fun _ member => nomatch member), rfl, legal.length c committing⟩, legal.marked c committing⟩

/-- What the writer keeps true of its gated file and its log. -/
structure Sound (pageSize : UInt32) (w : Writer) : Prop where
  file : w.gated = newGatedWALFile [] ∨
    ∃ view, Represents pageSize view w.gated ∧ Anchored pageSize (w.mxFrame + 1) view
  valid : (w.log pageSize).Valid

/-- A step either leaves the visible database alone and has nothing approved, or has one
complete transaction approved and applies it. -/
def Advances (pageSize : UInt32) (w : Writer) (event : Replica.Event) : Prop :=
  (approved (w.played pageSize event).effects = [] ∧
    ((w.step pageSize event).log pageSize).visible = (w.log pageSize).visible) ∨
  ∃ frames size, approved (w.played pageSize event).effects = [frames] ∧ Complete pageSize frames size ∧
    (w.log pageSize).visible.Covers (change frames size) ∧
    ((w.step pageSize event).log pageSize).visible = (w.log pageSize).visible.apply (change frames size)

section Step
variable {w : Writer} (sized : pageSize ≠ 0)

private theorem checkpoint_step {k : Nat} (legal : w.legal pageSize (.checkpoint k)) (sound : Sound pageSize w) :
    Sound pageSize (w.step pageSize (.checkpoint k)) ∧ Advances pageSize w (.checkpoint k) := by
  have someFrame : (w.log pageSize).frames ≠ [] := by
    rw [← List.length_pos_iff, Writer.log, logFrames_length]
    exact Nat.pos_of_ne_zero legal.1
  have inside : k ≤ (w.log pageSize).frames.length := by
    rw [Writer.log, logFrames_length]
    exact legal.2
  exact ⟨⟨sound.file, sound.valid.checkpoint someFrame inside⟩,
    .inl ⟨rfl, PageLog.visible_checkpoint sound.valid.intact k someFrame⟩⟩

include sized in
private theorem restart_file {header : Bytes} (legal : w.legal pageSize (.restart header)) (sound : Sound pageSize w) :
    ∃ view, Represents pageSize view (w.played pageSize (.restart header)).file ∧ Anchored pageSize 1 view := by
  obtain ⟨_, length, size⟩ := legal
  rcases sound.file with fresh | ⟨view, rep, anchored⟩
  · refine ⟨⟨false, [], 0⟩, ?_, .inl (.inr rfl)⟩
    have same : (w.played pageSize (.restart header)).file = { pageSize } := by
      simp [Writer.played, fresh, play, GatedWALFile.writeAt, newGatedWALFile, length, size, walHeaderSize]
    rw [same]
    exact represents_fresh pageSize
  · refine ⟨view, ?_, anchored.imp_right fun behind => Nat.le_trans ?_ behind⟩
    · have apart : w.gated.pageSize ≠ 0 := by rw [rep.size]; exact sized
      simpa [Writer.played, play, GatedWALFile.writeAt, apart] using rep
    · exact (frameOffset_le_iff pageSize (Nat.le_refl 1) (Nat.le_add_left 1 _)).mpr (Nat.le_add_left 1 _)

include sized in
private theorem restart_step {header : Bytes} (legal : w.legal pageSize (.restart header)) (sound : Sound pageSize w) :
    Sound pageSize (w.step pageSize (.restart header)) ∧ Advances pageSize w (.restart header) := by
  have quiet : approved (w.played pageSize (.restart header)).effects = [] := by
    simp [Writer.played, play, GatedWALFile.writeAt, approved, proposals]
  have kept : ((w.log pageSize).restart w.nPage).visible = (w.log pageSize).visible ∧
      ((w.log pageSize).restart w.nPage).Valid := by
    by_cases empty : w.mxFrame = 0
    · have same : (w.log pageSize).restart w.nPage = w.log pageSize := by
        have none_ : w.nBackfill = 0 := legal.1.trans empty
        simp [Writer.log, PageLog.restart, empty, none_, logFrames]
      rw [same]
      exact ⟨rfl, sound.valid⟩
    · have someFrame : (w.log pageSize).frames ≠ [] := by
        rw [← List.length_pos_iff, Writer.log, logFrames_length]
        exact Nat.pos_of_ne_zero empty
      have all : (w.log pageSize).backfill = (w.log pageSize).frames.length := by
        rw [Writer.log, logFrames_length]
        exact legal.1
      exact ⟨PageLog.visible_restart sound.valid.intact someFrame all (.inr rfl), sound.valid.restart someFrame all (.inr rfl)⟩
  exact ⟨⟨.inr (restart_file sized legal sound), kept.2⟩, .inl ⟨quiet, kept.1⟩⟩

private theorem log_unpublished {wal : Storage} (agree : Agree pageSize (w.mxFrame + 1) w.wal wal) (f : GatedWALFile) :
    ({ w with gated := f, wal } : Writer).log pageSize = w.log pageSize := by
  simp only [Writer.log]
  rw [logFrames_congr fun n positive inside => agree n positive (Nat.lt_succ_of_le inside)]

include sized in
private theorem txn_step {t : Transaction} (legal : w.legal pageSize (.txn t)) (sound : Sound pageSize w) :
    Sound pageSize (w.step pageSize (.txn t)) ∧ Advances pageSize w (.txn t) := by
  obtain ⟨known, legal, straight, covers⟩ := legal
  obtain ⟨found, rep, anchored⟩ := sound.file.resolve_left fun fresh => known (by rw [fresh]; rfl)
  have positive : 1 ≤ w.mxFrame + 1 := Nat.le_add_left 1 _
  cases committing : t.commit with
  | none =>
    obtain ⟨⟨view, kept, place⟩, agree, quiet⟩ := rolledBack_txn sized positive legal rep straight w.wal committing
    have after : w.step pageSize (.txn t) = { w with
        gated := (w.played pageSize (.txn t)).file, wal := written w.wal (w.played pageSize (.txn t)).effects } := by
      simp [Writer.step, Writer.publish, committing]
    have same : (w.step pageSize (.txn t)).log pageSize = w.log pageSize := by rw [after]; exact log_unpublished agree _
    refine ⟨⟨.inr ⟨view, by rw [after]; exact kept, ?_⟩, by rw [same]; exact sound.valid⟩, .inl ⟨quiet, by rw [same]⟩⟩
    rw [after]
    exact place.elim (fun unchanged => unchanged ▸ anchored) .inr
  | some c =>
    obtain ⟨⟨view, kept, closed⟩, agree, holds, proposed⟩ :=
      committed_txn sized positive legal rep straight anchored w.wal committing
    cases answer : c.answer with
    | some err =>
      have after : w.step pageSize (.txn t) = { w with
          gated := (w.played pageSize (.txn t)).file, wal := written w.wal (w.played pageSize (.txn t)).effects } := by
        simp [Writer.step, Writer.publish, committing, answer]
      have same : (w.step pageSize (.txn t)).log pageSize = w.log pageSize := by rw [after]; exact log_unpublished agree _
      rw [answer] at proposed
      exact ⟨⟨.inr ⟨view, by rw [after]; exact kept, .inl closed⟩, by rw [same]; exact sound.valid⟩, .inl ⟨proposed, by rw [same]⟩⟩
    | none =>
      have complete := Complete.txn legal committing
      have published : (w.step pageSize (.txn t)).log pageSize =
          (w.log pageSize).publish (change t.frames c.header.nTruncate) := by
        have frames := logFrames_append (holds answer)
        rw [logFrames_congr fun n bound inside => agree n bound (Nat.lt_succ_of_le inside)] at frames
        simp only [Writer.step, Writer.publish, committing, answer, Option.isNone_none, if_true, Writer.log, PageLog.publish,
          change, Writer.played, frames]
      have size : (change t.frames c.header.nTruncate).size ≠ 0 := fun zero => complete.sized (UInt32.toNat_inj.mp zero)
      have somePage : (change t.frames c.header.nTruncate).pages ≠ [] := by
        simp [change, frames_nonempty committing]
      rw [answer] at proposed
      refine ⟨⟨.inr ⟨view, ?_, .inl closed⟩, ?_⟩, .inr ⟨t.frames, c.header.nTruncate, proposed, complete,
        covers c committing, ?_⟩⟩
      · simpa only [Writer.step, Writer.publish, Writer.played, committing, answer, Option.isNone_none, if_true] using kept
      · rw [published]
        exact sound.valid.publish size somePage (covers c committing)
      · rw [published]
        exact PageLog.visible_publish _ _ size

include sized in
/-- Every legal step of the writer keeps it sound and says what was approved. -/
theorem writer_step {event : Replica.Event} (legal : w.legal pageSize event) (sound : Sound pageSize w) :
    Sound pageSize (w.step pageSize event) ∧ Advances pageSize w event := by
  cases event with
  | checkpoint k => exact checkpoint_step legal sound
  | restart header => exact restart_step sized legal sound
  | txn t => exact txn_step sized legal sound

end Step

end Literaft.Proofs.Writer
