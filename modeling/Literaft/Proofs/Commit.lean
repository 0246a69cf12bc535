import Literaft.Commit
import Literaft.Proofs.Forwarding

/-! The result code of a COMMIT is truthful: success means that raft took the transaction, and
`READONLY` and `BUSY` mean that it never does. -/

namespace Literaft.Proofs.Commit
open Library Gate Vfs Wal Proto Literaft.Forward Literaft.Commit Materialize Forwarding
open Fsm (FSM)
open Literaft.Proofs.Forward (direct reliable_unary)

section Codes

private theorem rejectionCode_coded (err : ProposeError) :
    GatedWALFile.rejectionCode (coded err) = (err.classify.elim ioerrWriteCode resultCode) := by
  cases err <;> rfl

private theorem coded_safe (err : ProposeError) :
    GatedWALFile.rejectionCode (coded err) = readonlyCode ∨ GatedWALFile.rejectionCode (coded err) = busyCode ↔
      err.safeToRetry = true := by
  rw [rejectionCode_coded, ProposeError.safeToRetry]
  cases err.classify with
  | none => decide
  | some category => cases category <;> decide

private theorem writeFrameData_proposed {f : GatedWALFile} {p : Bytes} {off : Nat} {frames : List Frame}
    (proposes : proposed f p off = some frames) :
    (∃ header, (f.writeFrameData none p off).effects =
        [.propose frames true, .write (off - frameHeaderSize) header, .write off p] ∧
      (f.writeFrameData none p off).result = .ok p.length) ∧
    ∀ err, (f.writeFrameData (some err) p off).effects = [.propose frames false] ∧
      (f.writeFrameData (some err) p off).result = .error (.system err.message (GatedWALFile.rejectionCode err)) := by
  by_cases size : p.length = f.pageSize.toNat
  · cases fresh : (f.resolveRewrite (off - frameHeaderSize)).currentTxFrameOffsets (off - frameHeaderSize) with
    | some frame => simp [proposed, GatedWALFile.writeFrameData, size, fresh] at proposes
    | none =>
      cases pending : (f.resolveRewrite (off - frameHeaderSize)).pendingFrameHeader with
      | none => simp [proposed, GatedWALFile.writeFrameData, size, fresh, pending] at proposes
      | some header =>
        cases commits : header.isCommit with
        | false => simp [proposed, GatedWALFile.writeFrameData, size, fresh, pending, commits] at proposes
        | true =>
          simp only [proposed, GatedWALFile.writeFrameData, size, fresh, pending, commits, ne_eq, not_true_eq_false, if_false,
            Bool.not_true, Bool.false_eq_true, List.findSome?_cons, Option.some.injEq] at proposes
          subst proposes
          refine ⟨⟨header.bytes, ?_, ?_⟩, fun err => ⟨?_, ?_⟩⟩ <;>
            simp [GatedWALFile.writeFrameData, size, fresh, pending, commits]
  · simp [proposed, GatedWALFile.writeFrameData, size] at proposes

end Codes

section Told
variable {Id : Type} [DecidableEq Id] {id : Id} {transaction : LogEntryTransaction} {transport : Bool}

/-- A call that has come to an error without a request. -/
def Failed (c : Proposal.Call Id) : Prop := c.base = none ∧ ∃ err, c.pc = .finished (some err) ∨ c.pc = .returned (some err)

private theorem Phase.late_error {pc base marker log applied request} (phase : Phase pc base marker log applied request)
    (late : Late marker pc) (room : applied.length < log) : base = none ∧ ∃ err, pc = .finished (some err) := by
  cases phase with
  | refused => simp at room
  | failed => exact ⟨rfl, _, rfl⟩
  | abandoned => cases late
  | _ => exact late.elim

private theorem failed_step {c c' : Proposal.Call Id} {action : Proposal.Action} (failed : Failed c)
    (executed : Proposal.step id transaction transport c action = some c') : Failed c' := by
  obtain ⟨direct, err, final⟩ := failed
  cases action with
  | deleteSkipMarker =>
    obtain finished | returned := final
    · simp only [Proposal.step, finished, Option.some.injEq] at executed
      subst executed
      exact ⟨direct, err, .inr rfl⟩
    · simp [Proposal.step, returned] at executed
  | deliver | take | apply index =>
    simp only [Proposal.step, Option.ite_none_right_eq_some, Option.some.injEq] at executed
    obtain ⟨-, rfl⟩ := executed
    exact ⟨direct, err, final⟩
  | deadline =>
    cases executed
    exact ⟨direct, err, final⟩
  | _ => obtain final | final := final <;> simp [Proposal.step, final, direct] at executed

private theorem told_step {c c' : Proposal.Call Id} {action : Proposal.Action} (told : Sound id c ∨ Failed c)
    (executed : Proposal.step id transaction transport c action = some c') : Sound id c' ∨ Failed c' := by
  obtain sound | failed := told
  · by_cases late : (∃ index, action = .apply index) ∧ Late (c.fsm.skipMarkers id) c.pc
    · obtain ⟨⟨index, rfl⟩, late⟩ := late
      have room : c.applied.length < c.log := by
        by_contra full
        simp [Proposal.step, full] at executed
      obtain ⟨direct, err, finished⟩ := Phase.late_error sound.phase late room
      exact .inr (failed_step ⟨direct, err, .inl finished⟩ executed)
    · refine .inl (sound_step sound ?_ executed)
      rintro index rfl overdue
      exact late ⟨⟨index, rfl⟩, overdue⟩
  · exact .inr (failed_step failed executed)

omit [DecidableEq Id] in
private theorem succeeded_taken {c : Proposal.Call Id} (told : Sound id c ∨ Failed c) (returned : c.pc = .returned none) :
    c.log = 1 ∧ c.applied = [.skipped] := by
  obtain sound | ⟨-, err, finished | other⟩ := told
  · have phase := sound.phase
    rw [returned] at phase
    generalize c.base = base, c.fsm.skipMarkers id = marker, c.log = log, c.applied = applied, c.request = request at phase ⊢
    cases phase
    exact ⟨rfl, rfl⟩
  · cases returned.symm.trans finished
  · cases returned.symm.trans other

end Told

variable {Id : Type} [DecidableEq Id] {id : Id} {fsm : FSM Id} {setup : Setup}

/-- What SQLite is told of a COMMIT is true. On success the commit frame goes into the log, raft
has taken the transaction once and this node's `Apply` has left it to the connection. With any error
nothing is written, and the code is `READONLY` or `BUSY` exactly for the errors that are safe to
retry: then raft has not taken the transaction and never does. -/
theorem commit_told (unary : setup.grpc.Unary) {f : GatedWALFile} {p : Bytes} {off : Nat} {frames : List Frame}
    (proposes : proposed f p off = some frames)
    (fresh : fsm.skipMarkers id = none) {events later : List Event} {s t : System Id} {told : Option ProposeError × Vfs.Outcome}
    (executed : exec (System.step setup id (newLogEntryTransaction frames)) { node := { fsm } } events = some s)
    (continued : exec (System.step setup id (newLogEntryTransaction frames)) s later = some t)
    (finished : finish f s p off = some told) :
    (told.1 = none ∧ told.2.result = .ok p.length ∧ s.node.log = 1 ∧ s.node.applied = [.skipped] ∧
      ∃ header, told.2.effects = [.propose frames true, .write (off - frameHeaderSize) header, .write off p]) ∨
    ∃ err code, told.1 = some err ∧ told.2.result = .error (.system err.error code) ∧
      told.2.effects = [.propose frames false] ∧ (code = readonlyCode ∨ code = busyCode ↔ err.safeToRetry = true) ∧
      (code = readonlyCode ∨ code = busyCode → t.node.log = 0) := by
  obtain ⟨accepted, rejected⟩ := writeFrameData_proposed proposes
  unfold finish at finished
  split at finished
  · next lastRejection returned =>
    cases finished
    cases lastRejection with
    | none =>
      obtain ⟨header, effects, result⟩ := accepted
      obtain ⟨_, actions, ran⟩ := system_run unary (legal_start fsm) executed
      have told : Sound id (view s) ∨ Failed (view s) :=
        exec_invariant (fun c => Sound id c ∨ Failed c) (fun _ _ _ => told_step) (.inl (sound_start fresh)) ran
      obtain ⟨once, skipped⟩ := succeeded_taken told returned
      exact .inl ⟨rfl, result, once, skipped, header, effects⟩
    | some err =>
      obtain ⟨effects, result⟩ := rejected (coded err)
      refine .inr ⟨err, _, rfl, result, effects, coded_safe err, fun retry => ?_⟩
      exact (untaken_later unary executed continued).2 err returned ((coded_safe err).mp retry)
  · cases finished

/-- A file of pages of eight bytes that has the header of a commit frame. -/
def staged : GatedWALFile := { pageSize := 8, pendingFrameHeader := some { pgNo := 1, nTruncate := 1 } }

def page : Bytes := [0, 0, 0, 0, 0, 0, 0, 0]

def frame : Frame := ⟨{ pgNo := 1, nTruncate := 1 }, page⟩

theorem commit_told_busy : proposed staged page 56 = some [frame] ∧ ∃ (s : System Nat) (out : Vfs.Outcome),
    exec (System.step direct 0 (newLogEntryTransaction [frame])) { node := { fsm := {} } } closedFirst = some s ∧
    finish staged s page 56 = some (some (.notApplied "forward request not delivered to the leader: forward transport closed" none), out) ∧
    out.effects = [.propose [frame] false] ∧ s.node.log = 0 := by
  have proposes : proposed staged page 56 = some [frame] := rfl
  have found : (exec (System.step direct 0 (newLogEntryTransaction [frame])) { node := { fsm := {} } } closedFirst).map
      (fun s => s.node.pc) = some (.returned (some (.notApplied
        "forward request not delivered to the leader: forward transport closed" none))) := rfl
  obtain ⟨s, executed, returned⟩ := Option.map_eq_some_iff.mp found
  obtain ⟨out, finished⟩ : ∃ out, finish staged s page 56 = some (some (.notApplied
      "forward request not delivered to the leader: forward transport closed" none), out) := by
    rw [finish, returned]
    exact ⟨_, rfl⟩
  refine ⟨proposes, s, out, executed, finished, ?_⟩
  obtain ⟨succeeded, -⟩ | ⟨err, code, same, -, effects, safe, untaken⟩ :=
    commit_told reliable_unary proposes rfl executed (show exec _ s [] = some s from rfl) finished
  · cases succeeded
  · cases same
    exact ⟨effects, untaken (safe.mpr rfl)⟩

end Literaft.Proofs.Commit
