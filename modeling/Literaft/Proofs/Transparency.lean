import Literaft.Transparency
import Literaft.Proofs.Writer

/-! For its only writer the gated file is transparent. A commit header may be held back, or
go ahead of its data when it looks like a checksum rewrite, but once the gate has approved
the frame the wrapped file has received every call, and the frames the file remembers are
exactly those whose headers may still be rewritten. -/

namespace Literaft.Proofs.Transparency
open Library Wal Vfs Sqlite Capture Spill Session Proposals Writer Literaft.Transparency

/-- The wrapped file ends as if it had received the calls itself, and each call reports its
full length. -/
structure Mirrors (calls : List Call) (played : Played) : Prop where
  bytes : ∀ file : File, played.effects.foldl File.effect file =
    calls.foldl (fun file call => file.writeAt call.p call.off) file
  results : played.results = calls.map fun call => .ok call.p.length

theorem Mirrors.append {f : GatedWALFile} {calls later : List Call} (first : Mirrors calls (play f calls))
    (last : Mirrors later (play (play f calls).file later)) : Mirrors (calls ++ later) (play f (calls ++ later)) := by
  rw [play_append]
  refine ⟨fun file => ?_, ?_⟩
  · rw [List.foldl_append, List.foldl_append, first.bytes, last.bytes]
  · rw [List.map_append, first.results, last.results]

private theorem mirrors_nil (f : GatedWALFile) : Mirrors [] (play f []) := ⟨fun _ => rfl, rfl⟩

private theorem writeFrameHeader_ok {f : GatedWALFile} {p : Bytes} {off count : Nat}
    (succeeds : (f.writeFrameHeader p off).result = .ok count) : count = p.length := by
  by_cases length : p.length = frameHeaderSize
  · rw [writeFrameHeader_result f length] at succeeds
    exact (Except.ok.inj succeeds).symm
  · rw [GatedWALFile.writeFrameHeader, if_pos length] at succeeds
    cases succeeds

private theorem writeFrameData_ok {f : GatedWALFile} {answer : Option GateError} {p : Bytes} {off count : Nat}
    (succeeds : (f.writeFrameData answer p off).result = .ok count) : count = p.length := by
  unfold GatedWALFile.writeFrameData at succeeds
  split at succeeds
  · cases succeeds
  · simp only at succeeds
    split at succeeds
    · exact (Except.ok.inj succeeds).symm
    · split at succeeds
      · cases succeeds
      · split at succeeds
        · exact (Except.ok.inj succeeds).symm
        · split at succeeds
          · cases succeeds
          · exact (Except.ok.inj succeeds).symm

private theorem writeAt_ok {f : GatedWALFile} {answer : Option GateError} {p : Bytes} {off count : Nat}
    (succeeds : (f.writeAt answer p off).result = .ok count) : count = p.length := by
  unfold GatedWALFile.writeAt at succeeds
  split at succeeds
  · exact (Except.ok.inj succeeds).symm
  · split at succeeds
    · cases succeeds
    · split at succeeds
      · exact writeFrameHeader_ok succeeds
      · split at succeeds
        · exact writeFrameData_ok succeeds
        · cases succeeds

private theorem results_full {f : GatedWALFile} {calls : List Call}
    (succeed : ∀ result ∈ (play f calls).results, ∃ count, result = .ok count) :
    (play f calls).results = calls.map fun call => .ok call.p.length := by
  induction calls generalizing f with
  | nil => rfl
  | cons call rest ih =>
    obtain ⟨count, result⟩ := succeed _ List.mem_cons_self
    simp only [play, List.map_cons]
    rw [ih fun later member => succeed later (List.mem_cons_of_mem _ member), result, writeAt_ok result]

private theorem passed_effects (calls : List Call) (file : File) :
    (passed calls).foldl File.effect file = calls.foldl (fun file call => file.writeAt call.p call.off) file := by
  rw [passed, List.foldl_map]
  rfl

private theorem mirrors_passed {f : GatedWALFile} {calls : List Call} (effects : (play f calls).effects = passed calls)
    (succeed : ∀ result ∈ (play f calls).results, ∃ count, result = .ok count) : Mirrors calls (play f calls) :=
  ⟨fun file => by rw [effects, passed_effects], results_full succeed⟩

private theorem writeAt_twice (file : File) (p : Bytes) (off : Nat) :
    (file.writeAt p off).writeAt p off = file.writeAt p off := by
  simp only [File.writeAt, Storage.write_same (Storage.read_write_same file.bytes off p), max_assoc, max_self]

variable {pageSize : UInt32} {start : Nat}

private theorem rewrite_pages {frames : List Frame} {i : Nat} {frame : Frame} {h : FrameHeader} (found : frames[i]? = some frame)
    (same : frame.header.pgNo = h.pgNo) {j : Nat} {page : UInt32}
    (before : ∃ old ∈ frames[j]?, old.header.pgNo = page) :
    ∃ old ∈ (frames.modify i fun old => { old with header := h })[j]?, old.header.pgNo = page := by
  obtain ⟨old, stored, rfl⟩ := before
  rw [List.getElem?_modify, stored]
  refine ⟨_, rfl, ?_⟩
  by_cases here : i = j
  · subst here
    obtain rfl : frame = old := Option.some.inj (found.symm.trans stored)
    simp only [if_true, same]
  · simp only [here, if_false]

private theorem rewrites_mirrored {view : View} {f : GatedWALFile} {frames : List Frame} (sized : pageSize ≠ 0)
    (positive : 1 ≤ start)
    (rep : Represents pageSize view f) (sealed : view.committed = true) (kept : view.kept = numbered pageSize start frames)
    {fixes : List (Nat × FrameHeader)}
    (same : ∀ fix ∈ fixes, ∃ frame ∈ frames[fix.1]?, frame.header.pgNo = fix.2.pgNo) :
    Mirrors (fixes.map fun fix => ⟨fix.2.bytes, frameOffset pageSize (start + fix.1), none⟩)
      (play f (fixes.map fun fix => ⟨fix.2.bytes, frameOffset pageSize (start + fix.1), none⟩)) := by
  induction fixes generalizing view f frames with
  | nil => exact mirrors_nil f
  | cons fix rest ih =>
    obtain ⟨frame, stored, pgNo⟩ := same fix List.mem_cons_self
    have found : find view.kept (frameOffset pageSize (start + fix.1)) = some frame := by
      rw [kept, find_numbered positive]
      exact stored
    obtain ⟨next, effects, result⟩ := rewrite_kept sized rep sealed (start + fix.1) found pgNo
    have first : Mirrors [⟨fix.2.bytes, frameOffset pageSize (start + fix.1), none⟩]
        (play f [⟨fix.2.bytes, frameOffset pageSize (start + fix.1), none⟩]) := by
      apply mirrors_passed
      · simp only [play, effects, passed, List.map_cons, List.map_nil, List.append_nil]
      · intro outcome member
        simp only [play, result, List.mem_singleton] at member
        exact ⟨_, member⟩
    have changed : (view.change (frameOffset pageSize (start + fix.1)) fun old => { old with header := fix.2 }).kept =
        numbered pageSize start (frames.modify fix.1 fun old => { old with header := fix.2 }) := by
      simp only [View.change, kept]
      exact change_numbered positive frames fun old => { old with header := fix.2 }
    refine first.append (ih next sealed changed ?_)
    intro later member
    exact rewrite_pages stored pgNo (same later (List.mem_cons_of_mem _ member))

section Txn
variable {found : View} {f : GatedWALFile} {t : Transaction} (sized : pageSize ≠ 0) (positive : 1 ≤ start)
  (legal : t.Legal pageSize) (rep : Represents pageSize found f) (straight : ∀ op ∈ t.body, op.rollsBack = false)
  (anchored : Anchored pageSize start found)
include sized positive legal rep straight

private theorem body_mirrored :
    Mirrors (bodyCalls pageSize start [] t.body) (play f (bodyCalls pageSize start [] t.body)) := by
  obtain ⟨_, _, _, ran⟩ := body_start sized positive legal rep
  obtain ⟨effects, succeed⟩ := ran.accepted (straight_body straight onward_start).2
  exact mirrors_passed effects succeed

include anchored

private theorem commit_mirrored {c : Commit} (committing : t.commit = some c) (approves : c.answer = none) :
    let before := (play f (bodyCalls pageSize start [] t.body)).file
    (∃ view, Represents pageSize view (play before (t.commitCalls pageSize start)).file ∧ view.committed = true ∧
      view.kept = numbered pageSize start t.frames) ∧
    Mirrors (t.commitCalls pageSize start) (play before (t.commitCalls pageSize start)) := by
  obtain ⟨view, body, follows, _⟩ := body_start sized positive legal rep
  obtain ⟨onward, _⟩ := straight_body straight onward_start
  have marked := legal.marked c committing
  have length := legal.length c committing
  have calls : t.commitCalls pageSize start =
      frameCalls pageSize (start + (live [] t.body).length) c.header c.data none := by
    simp [Transaction.commitCalls, committing, approves]
  have frames : t.frames = live [] t.body ++ [⟨c.header, c.data⟩] := by simp [Transaction.frames, committing]
  obtain ⟨kept, effects⟩ := commit_frame sized body (start + (live [] t.body).length) marked length none
  have succeed := commit_results sized body (start + (live [] t.body).length) marked length
  rw [calls]
  refine ⟨⟨_, kept, rfl, ?_⟩, ⟨fun file => ?_, results_full succeed⟩⟩
  · have behind : ¬ (Extent.of t).live < (Extent.of t).high := Nat.not_lt.mpr (Nat.le_of_eq onward.1.symm)
    have tracks := follows_append positive follows ⟨c.header, c.data⟩
    have lost : (Extent.of t).append.lost = 0 := by
      rw [Extent.append, if_neg behind]
      exact onward.2.1
    obtain ⟨seg, keeps, count, whole⟩ := tracks.kept
    rw [anchored.base, ite_self, List.nil_append, lost, Nat.add_zero] at keeps
    rw [lost, List.drop_zero, Nat.sub_zero, List.take_of_length_le] at whole
    · rw [whole, ← frames] at keeps
      exact keeps
    · rw [count, lost, ← tracks.live, Extent.append_last]
      exact Nat.le_refl _
  · rw [effects]
    split
    · simp only [List.cons_append, List.nil_append, List.foldl_cons, File.effect, frameCalls, Option.isNone_none, if_true,
        List.foldl_nil, writeAt_twice]
    · simp only [List.nil_append, List.foldl_cons, File.effect, frameCalls, Option.isNone_none, if_true, List.foldl_nil]

/-- Header held back or sent ahead, checksum rewrites and rollbacks: the wrapped file
receives what the plain file does. -/
theorem txn_mirrored (approves : ∀ c ∈ t.commit, c.answer = none) :
    Mirrors (t.calls pageSize start) (play f (t.calls pageSize start)) := by
  have body := body_mirrored sized positive legal rep straight
  cases committing : t.commit with
  | none =>
    have calls : t.calls pageSize start = bodyCalls pageSize start [] t.body := by
      simp [Transaction.calls, Transaction.commitCalls, Transaction.fixCalls, committing]
    rw [calls]
    exact body
  | some c =>
    have approved := approves c committing
    obtain ⟨⟨view, kept, sealed, numbered_⟩, commit⟩ :=
      commit_mirrored sized positive legal rep straight anchored committing approved
    have fixes : t.fixCalls pageSize start = c.rewrites.map fun fix =>
        ⟨fix.2.bytes, frameOffset pageSize (start + fix.1), none⟩ := by
      simp [Transaction.fixCalls, committing, Transaction.rewriteCalls, approved]
    refine body.append (commit.append ?_)
    rw [fixes]
    exact rewrites_mirrored sized positive kept sealed numbered_ fun fix member =>
      (legal.rewrites c committing fix member).imp fun _ both => ⟨both.1, both.2.1⟩

private theorem txn_anchored (approves : ∀ c ∈ t.commit, c.answer = none) :
    (∃ view, Represents pageSize view (play f (t.calls pageSize start)).file ∧
      ∀ next, (t.commit = none → next = start) → Anchored pageSize next view) ∧
    proposals (play f (t.calls pageSize start)).effects = t.commit.toList.map fun _ => (t.frames, true) := by
  cases committing : t.commit with
  | none =>
    obtain ⟨⟨view, kept, place⟩, -, -⟩ := rolledBack_txn sized positive legal rep straight (fun _ => 0) committing
    refine ⟨⟨view, kept, fun next same => ?_⟩, rolledBack_proposals sized positive legal rep committing⟩
    rw [same rfl]
    exact place.elim (fun unchanged => unchanged ▸ anchored) .inr
  | some c =>
    obtain ⟨⟨view, kept, closed⟩, -, -, -⟩ :=
      committed_txn sized positive legal rep straight anchored (fun _ => 0) committing
    refine ⟨⟨view, kept, fun _ _ => .inl closed⟩, ?_⟩
    obtain ⟨onward, _⟩ := straight_body straight onward_start
    have behind : ¬ (Extent.of t).live < (Extent.of t).high := Nat.not_lt.mpr (Nat.le_of_eq onward.1.symm)
    rw [txn_proposals sized positive legal rep committing, anchored.base, approves c committing]
    simp only [Extent.append, behind, if_false, show (Extent.of t).lost = 0 from onward.2.1,
      List.map_nil, ite_self, List.nil_append, List.drop_zero, Option.isNone_none, Option.toList_some, List.map_cons]

end Txn

/-- The two files are one, and the gated file carries nothing over into the next
transaction. -/
structure Same (pageSize : UInt32) (x : Twin) : Prop where
  files : x.wrapped = x.plain
  file : x.session.file = newGatedWALFile [] ∨
    ∃ view, Represents pageSize view x.session.file ∧ Anchored pageSize (x.session.mxFrame + 1) view

def Faithful (r : Record) : Prop :=
  r.played.results = r.calls.map (fun call => .ok call.p.length) ∧ proposals r.played.effects = r.due

section Step
variable {x : Twin} (sized : pageSize ≠ 0)
include sized

private theorem restart_same {header : Option Bytes} (allowed : x.allows pageSize (.restart header)) (same : Same pageSize x) :
    Same pageSize (x.step pageSize (.restart header)) ∧ Faithful (x.record pageSize (.restart header)) := by
  obtain ⟨written, legal⟩ := allowed
  obtain ⟨p, rfl⟩ := Option.isSome_iff_exists.mp written
  have out : (x.session.file.writeAt none p 0).effects = [.write 0 p] ∧
      (x.session.file.writeAt none p 0).result = .ok p.length := by
    simp [GatedWALFile.writeAt]
  refine ⟨⟨?_, .inr ?_⟩, ?_, ?_⟩
  · simp [Twin.step, Twin.record, eventCalls, play, out.1, File.effect, same.files]
  · obtain ⟨length, size⟩ := legal p rfl
    rcases same.file with fresh | ⟨view, rep, anchored⟩
    · refine ⟨⟨false, [], 0⟩, ?_, .inl (.inr rfl)⟩
      have opened : (x.step pageSize (.restart (some p))).session.file = { pageSize } := by
        simp [Twin.step, Session.step, fresh, play, GatedWALFile.writeAt, newGatedWALFile, length, size, walHeaderSize]
      rw [opened]
      exact represents_fresh pageSize
    · refine ⟨view, ?_, anchored.imp_right fun behind => Nat.le_trans ?_ behind⟩
      · have apart : x.session.file.pageSize ≠ 0 := by rw [rep.size]; exact sized
        simpa [Twin.step, Session.step, play, GatedWALFile.writeAt, apart] using rep
      · exact (frameOffset_le_iff pageSize (Nat.le_refl 1) (Nat.le_add_left 1 _)).mpr (Nat.le_add_left 1 _)
  · simp [Twin.record, eventCalls, play, out.2]
  · simp [Twin.record, eventCalls, play, out.1, Record.due, proposals]

private theorem txn_same {t : Transaction} (allowed : x.allows pageSize (.txn t)) (same : Same pageSize x) :
    Same pageSize (x.step pageSize (.txn t)) ∧ Faithful (x.record pageSize (.txn t)) := by
  obtain ⟨known, legal, straight, approves⟩ := allowed
  obtain ⟨found, rep, anchored⟩ := same.file.resolve_left fun fresh => known (by rw [fresh]; rfl)
  have positive : 1 ≤ x.session.mxFrame + 1 := Nat.le_add_left 1 _
  have mirrors := txn_mirrored sized positive legal rep straight anchored approves
  obtain ⟨⟨view, kept, behind⟩, proposed⟩ := txn_anchored sized positive legal rep straight anchored approves
  refine ⟨⟨(mirrors.bytes x.wrapped).trans (by rw [same.files]; rfl), .inr ⟨view, kept, behind _ fun rolledBack => ?_⟩⟩,
    mirrors.results, proposed⟩
  simp [Twin.step, Session.step, Transaction.approved, rolledBack]

private theorem step_same {event : Event} (allowed : x.allows pageSize event) (same : Same pageSize x) :
    Same pageSize (x.step pageSize event) ∧ Faithful (x.record pageSize event) := by
  cases event with
  | others frames => exact allowed.elim
  | restart header => exact restart_same sized allowed same
  | txn t => exact txn_same sized allowed same

private theorem run_same {events : List Event} (allowed : Twin.allowsAll pageSize x events) (same : Same pageSize x) :
    Same pageSize (x.run pageSize events) ∧ ∀ r ∈ x.records pageSize events, Faithful r := by
  induction events generalizing x with
  | nil => exact ⟨same, fun _ member => nomatch member⟩
  | cons event rest ih =>
    obtain ⟨next, faithful⟩ := step_same sized allowed.1 same
    obtain ⟨after, later⟩ := ih allowed.2 next
    refine ⟨after, fun r member => ?_⟩
    rcases List.mem_cons.mp member with rfl | member
    · exact faithful
    · exact later r member

end Step

/-- For every trace of a sole writer whose proposals are all approved the wrapped file holds
what a plain file holds, every write reports its full length, and the gate is asked once for
each commit frame and never for a transaction that is rolled back. -/
theorem gated_transparent {base : Bytes} {mxFrame : Nat} {events : List Event} (sized : pageSize ≠ 0)
    (head : headed pageSize base) (file : File)
    (trace : Twin.allowsAll pageSize ⟨Session.start base mxFrame, file, file⟩ events) :
    let x : Twin := ⟨Session.start base mxFrame, file, file⟩
    (x.run pageSize events).wrapped = (x.run pageSize events).plain ∧
      ∀ r ∈ x.records pageSize events,
        r.played.results = r.calls.map (fun call => .ok call.p.length) ∧ proposals r.played.effects = r.due := by
  have same : Same pageSize ⟨Session.start base mxFrame, file, file⟩ :=
    ⟨rfl, (newGatedWALFile_cases head).imp_right fun opened =>
      ⟨_, by rw [Session.start, opened]; exact represents_fresh pageSize, .inl (.inr rfl)⟩⟩
  obtain ⟨after, faithful⟩ := run_same sized trace same
  exact ⟨after.files, faithful⟩

/-- A spilled frame written again in place and its header rewritten after the commit, a
rollback, and after a restart a commit frame that looks like a rewrite of the first frame. -/
def spilling : List Event :=
  [.txn ⟨[.append { pgNo := 2 } (filled 1), .overwrite 0 (filled 2)],
      some { header := { pgNo := 1, nTruncate := 2 }, data := filled 3, rewrites := [(0, { pgNo := 2, checksum1 := 7 })] }⟩,
    .txn ⟨[.append { pgNo := 3 } (filled 4)], none⟩,
    .restart (some emptyLog),
    .txn ⟨[], some { header := { pgNo := 2, nTruncate := 2 }, data := filled 5 }⟩]

theorem gated_transparent_spilling :
    let x : Twin := ⟨Session.start emptyLog 0, ⟨fun _ => 0, 0⟩, ⟨fun _ => 0, 0⟩⟩
    (x.run 512 spilling).wrapped = (x.run 512 spilling).plain ∧
      ∀ r ∈ x.records 512 spilling,
        r.played.results = r.calls.map (fun call => .ok call.p.length) ∧ proposals r.played.effects = r.due :=
  gated_transparent (by decide) (by decide +kernel) _ (by decide +kernel)

end Literaft.Proofs.Transparency
