import Literaft.Persist
import Literaft.Proofs.Restore

/-! What a snapshot leaves behind: its temporary file for as long as it is held and no longer,
and a sink that is closed only over the header and all of that file. -/

namespace Literaft.Proofs.Persist
open Library Literaft.Restore Literaft.Persist

section Sink
variable {rc left : HeaderedReader} {t : TempFiles} {fault : Option (Nat × String)} {p : Persisting} {sink : Sink}
  {err : Option String} {image : Bytes}

private theorem reader_rest (holds : t.opened rc.tmp = true → (t.files rc.tmp).getD [] = image) :
    (rc.reader t fault).bytes <+: (rc.header.val ++ image).drop rc.position := by
  unfold HeaderedReader.reader
  cases rc.ended with
  | true => exact List.nil_prefix
  | false =>
    cases opened : t.opened rc.tmp with
    | false => exact (List.prefix_append _ _).drop _
    | true =>
      rw [holds opened]
      cases fault with
      | some failed => exact ((List.prefix_append_right_inj _).mpr (List.take_prefix _ _)).drop _
      | none => exact List.prefix_rfl

private theorem reader_eof (holds : t.opened rc.tmp = true → (t.files rc.tmp).getD [] = image)
    (eof : (rc.reader t fault).fault = none) : (rc.ended = true ∧ (rc.reader t fault).bytes = []) ∨
      (t.opened rc.tmp = true ∧ (rc.reader t fault).bytes = (rc.header.val ++ image).drop rc.position) := by
  unfold HeaderedReader.reader at eof ⊢
  cases ended : rc.ended with
  | true => exact .inl ⟨rfl, rfl⟩
  | false =>
    rw [ended] at eof
    cases opened : t.opened rc.tmp with
    | false =>
      rw [opened] at eof
      cases eof
    | true =>
      rw [holds opened]
      rw [opened] at eof
      cases fault with
      | some failed => cases eof
      | none => exact .inr ⟨rfl, rfl⟩

/-- What one `Persist` does with the stream of a snapshot. Unless the sink is cancelled it gets all
that was left, and nothing is left for another. -/
structure Persisted (rc left : HeaderedReader) (t : TempFiles) (stream : Bytes) (sink : Sink) (err : Option String) : Prop where
  source : left.header = rc.header ∧ left.tmp = rc.tmp
  closed : sink.state = .closed ↔ err = none
  part : sink.bytes <+: stream.drop rc.position
  whole : sink.state ≠ .cancelled → sink.bytes = stream.drop rc.position
  ended : left.ended = true ↔ sink.state ≠ .cancelled
  behind : left.ended = true → stream.length ≤ left.position
  opened : sink.state ≠ .cancelled → rc.ended = true ∨ t.opened rc.tmp = true

theorem persist_rest (holds : t.opened rc.tmp = true → (t.files rc.tmp).getD [] = image)
    (behind : rc.ended = true → (rc.header.val ++ image).length ≤ rc.position)
    (ran : rc.persist t p = some (left, sink, err)) : Persisted rc left t (rc.header.val ++ image) sink err := by
  obtain ⟨⟨bytes, rest, failed⟩, copied, done⟩ := Option.map_eq_some_iff.mp ran
  obtain ⟨⟨part, front, same⟩, all⟩ := copy_part copied
  obtain rfl : bytes = part := same
  have within := front.trans (reader_rest holds)
  cases failed with
  | some text =>
    cases done
    refine ⟨⟨rfl, rfl⟩, ⟨fun wrong => (by cases wrong), fun none_ => ?_⟩, within, fun wrong => absurd rfl wrong,
      ⟨fun wrong => (by cases wrong), fun wrong => absurd rfl wrong⟩, fun wrong => (by cases wrong), fun wrong => absurd rfl wrong⟩
    cases (Proofs.Restore.joinErrors_none_iff.mp none_).2
  | none =>
    cases done
    obtain ⟨read, nothing, eof⟩ := all rfl
    obtain rfl : rest = [] := nothing
    obtain rfl : bytes = (rc.reader t p.fault).bytes := read
    have closes : (if p.closeErr.isSome then SinkState.notClosed else .closed) = .closed ↔ p.closeErr = none := by
      cases p.closeErr <;> simp
    have kept : (if p.closeErr.isSome then SinkState.notClosed else .closed) ≠ .cancelled := by
      split <;> simp
    rcases reader_eof holds eof with ⟨ended, empty⟩ | ⟨opened, rest⟩
    · have beyond : (rc.header.val ++ image).drop rc.position = [] := List.drop_of_length_le (behind ended)
      exact ⟨⟨rfl, rfl⟩, closes, within, fun _ => empty.trans beyond.symm, ⟨fun _ => kept, fun _ => rfl⟩,
        fun _ => Nat.le_add_right_of_le (behind ended), fun _ => .inl ended⟩
    · refine ⟨⟨rfl, rfl⟩, closes, within, fun _ => rest, ⟨fun _ => kept, fun _ => rfl⟩, fun _ => ?_, fun _ => .inr opened⟩
      have length := congrArg List.length rest
      rw [List.length_drop] at length
      simp only [HeaderedReader.after, List.length_nil]
      omega

/-- Where nothing fails, `Persist` returns and closes the sink over all that was left. -/
theorem persist_returns (opened : t.opened rc.tmp = true) (noFault : p.fault = none) (closes : p.closeErr = none)
    (fine : ∀ turn ∈ p.turns, turn.Fine) (unread : rc.position = 0 ∧ rc.ended = false)
    (enough : (rc.header.val ++ (t.files rc.tmp).getD []).length < p.turns.length) :
    ∃ left, rc.persist t p = some (left, ⟨rc.header.val ++ (t.files rc.tmp).getD [], .closed⟩, none) := by
  have read : rc.reader t p.fault = ⟨rc.header.val ++ (t.files rc.tmp).getD [], none⟩ := by
    unfold HeaderedReader.reader
    rw [opened, noFault, unread.1, unread.2]
    rfl
  rw [HeaderedReader.persist, read, copy_returns fine enough, Option.map_some, closes]
  exact ⟨_, rfl⟩

/-- A reader that has met the end leaves the sink empty, and asks for nothing of the file. -/
theorem persist_ended (ended : rc.ended = true) (ran : rc.persist t p = some (left, sink, err)) :
    sink.bytes = [] ∧ err = p.closeErr := by
  have read : rc.reader t p.fault = ⟨[], none⟩ := by
    unfold HeaderedReader.reader
    rw [ended]
    rfl
  cases turns : p.turns with
  | nil =>
    rw [HeaderedReader.persist, turns] at ran
    cases ran
  | cons turn more =>
    rw [HeaderedReader.persist, turns, read] at ran
    cases ran
    exact ⟨rfl, rfl⟩

end Sink

section Temporary
variable {s : Snapshotter} {process after : Process}

/-- What is known of one name: a snapshot that is held has its file open, with what SQLite copied for
it. -/
structure Filed (name : Nat) (file : Option Bytes) (opened : Bool) (taken : Option Taken) : Prop where
  header : ∀ held ∈ taken, held.rc.header = newSnapshotHeader held.index ∧ held.rc.tmp = name
  content : ∀ held ∈ taken, held.released = false → file = some held.image
  opened : opened = true ↔ ∃ held ∈ taken, held.released = false
  ended : ∀ held ∈ taken, held.rc.ended = true → held.stream.length ≤ held.rc.position

structure Kept (process : Process) : Prop where
  filed : ∀ name, Filed name (process.temp.files name) (process.temp.opened name) (process.taken name)
  unused : ∀ name, process.temp.next ≤ name → process.temp.files name = none ∧ process.taken name = none

/-- Nothing but the files of held snapshots is on disk. -/
def Cleared (process : Process) : Prop :=
  ∀ name, (process.temp.files name).isSome → ∃ held ∈ process.taken name, held.released = false

theorem snapshot_cases (s : Snapshotter) (index : UInt64) (t : TempFiles) (c : Capture) :
    (∃ err, s.snapshot index t c = (t, .error err)) ∨
    (∃ err, s.snapshot index t c =
      (((t.create.write t.next c.image).close t.next).remove t.next c.removeErr, .error err)) ∨
    s.snapshot index t c = (t.create.write t.next c.image, .ok { header := newSnapshotHeader index, tmp := t.next }) := by
  unfold Snapshotter.snapshot
  split
  · exact .inl ⟨_, rfl⟩
  · exact .inl ⟨_, rfl⟩
  · dsimp only
    split
    · exact .inr (.inl ⟨_, rfl⟩)
    · exact .inr (.inl ⟨_, rfl⟩)
    · exact .inr (.inr rfl)

theorem Filed.absent {name : Nat} (file : Option Bytes) : Filed name file false none :=
  ⟨by simp, by simp, by simp, by simp⟩

theorem Filed.taken {name : Nat} (index : UInt64) (image : Bytes) :
    Filed name (some image) true (some { rc := { header := newSnapshotHeader index, tmp := name }, index, image }) :=
  ⟨by simp, by simp, by simp, by simp⟩

theorem Filed.unreleased {name : Nat} {file : Option Bytes} {opened : Bool} {held : Taken}
    (filed : Filed name file opened (some held)) (open_ : opened = true) : held.released = false := by
  obtain ⟨_, same, unreleased⟩ := filed.opened.mp open_
  cases same
  exact unreleased

theorem Filed.holds {name : Nat} {file : Option Bytes} {opened : Bool} {held : Taken}
    (filed : Filed name file opened (some held)) (open_ : opened = true) : file.getD [] = held.image := by
  rw [filed.content held rfl (filed.unreleased open_)]
  rfl

theorem Filed.persisted {t : TempFiles} {name : Nat} {held : Taken} {left : HeaderedReader} {p : Persisting} {sink : Sink}
    {err : Option String} (filed : Filed name (t.files name) (t.opened name) (some held))
    (ran : held.rc.persist t p = some (left, sink, err)) : Persisted held.rc left t held.stream sink err := by
  obtain ⟨header, tmp⟩ := filed.header held rfl
  have ended := filed.ended held rfl
  rw [Taken.stream, ← header] at ended ⊢
  exact persist_rest (by rw [tmp]; exact filed.holds) ended ran

theorem Filed.read {name : Nat} {file : Option Bytes} {opened : Bool} {held : Taken} {left : HeaderedReader} {t : TempFiles}
    {sink : Sink} {err : Option String} (filed : Filed name file opened (some held))
    (done : Persisted held.rc left t held.stream sink err) : Filed name file opened (some { held with rc := left }) := by
  obtain ⟨header, tmp⟩ := filed.header held rfl
  refine ⟨?_, ?_, ?_, ?_⟩
  · simpa [header, tmp] using done.source
  · simpa using filed.content
  · simpa using filed.opened
  · simpa [Taken.stream] using done.behind

theorem Filed.released {name : Nat} {file : Option Bytes} {opened : Bool} {held : Taken}
    (filed : Filed name file opened (some held)) (other : Option Bytes) :
    Filed name other false (some { held with released := true }) :=
  ⟨by simpa using filed.header held rfl, by simp, by simp, by simpa [Taken.stream] using filed.ended held rfl⟩

private theorem remove_next (t : TempFiles) (name : Nat) (err : Option String) : (t.remove name err).next = t.next := by
  unfold TempFiles.remove
  split <;> rfl

private theorem remove_opened (t : TempFiles) (name : Nat) (err : Option String) : (t.remove name err).opened = t.opened := by
  unfold TempFiles.remove
  split <;> rfl

private theorem remove_other (t : TempFiles) {name other : Nat} (err : Option String) (apart : other ≠ name) :
    (t.remove name err).files other = t.files other := by
  unfold TempFiles.remove
  split
  · rfl
  · exact Function.update_of_ne apart _ _

private theorem remove_same (t : TempFiles) (name : Nat) : (t.remove name none).files name = none :=
  Function.update_self _ _ _

private theorem release_cases (rc : HeaderedReader) (t : TempFiles) (closeErr removeErr : Option String) :
    ∃ err, (removeErr = none → err = none) ∧ rc.release t closeErr removeErr = (t.close rc.tmp).remove rc.tmp err := by
  refine ⟨_, ?_, rfl⟩
  rintro rfl
  simp

/-- What a step does to the files and to the snapshots: it changes at most one name. -/
theorem step_cases {action : Action} (kept : Kept process) (stepped : step s process action = some after) :
    after = process ∨
    (∃ index image, after = ⟨process.temp.create.write process.temp.next image, Function.update process.taken process.temp.next
      (some { rc := { header := newSnapshotHeader index, tmp := process.temp.next }, index, image })⟩) ∨
    (∃ image err, (removes action = true → err = none) ∧ after = { process with
      temp := ((process.temp.create.write process.temp.next image).close process.temp.next).remove process.temp.next err }) ∨
    (∃ name held left sink err, process.taken name = some held ∧ Persisted held.rc left process.temp held.stream sink err ∧
      persists name action = true ∧
      after = { process with taken := Function.update process.taken name (some { held with rc := left }) }) ∨
    ∃ name held err, process.taken name = some held ∧ (removes action = true → err = none) ∧
      after = ⟨(process.temp.close name).remove name err,
        Function.update process.taken name (some { held with released := true })⟩ := by
  cases action with
  | snapshot index c =>
    rw [step] at stepped
    rcases snapshot_cases s index process.temp c with ⟨err, ran⟩ | ⟨err, ran⟩ | ran
    · rw [ran] at stepped
      cases stepped
      exact .inl rfl
    · rw [ran] at stepped
      cases stepped
      exact .inr (.inr (.inl ⟨c.image, c.removeErr, fun fine => Option.isNone_iff_eq_none.mp fine, rfl⟩))
    · rw [ran] at stepped
      cases stepped
      exact .inr (.inl ⟨index, c.image, rfl⟩)
  | persist name p =>
    obtain ⟨held, taken, rest⟩ := Option.bind_eq_some_iff.mp stepped
    obtain ⟨⟨left, sink, err⟩, ran, rfl⟩ := Option.map_eq_some_iff.mp rest
    have filed := kept.filed name
    rw [taken] at filed
    exact .inr (.inr (.inr (.inl ⟨name, held, left, sink, err, taken, filed.persisted ran, beq_self_eq_true name, rfl⟩)))
  | release name closeErr removeErr =>
    obtain ⟨held, taken, rfl⟩ := Option.map_eq_some_iff.mp stepped
    have tmp : held.rc.tmp = name := ((kept.filed name).header held taken).2
    obtain ⟨err, gone, done⟩ := release_cases held.rc process.temp closeErr removeErr
    rw [done, tmp]
    exact .inr (.inr (.inr (.inr ⟨name, held, err, taken, fun fine => gone (Option.isNone_iff_eq_none.mp fine), rfl⟩)))

theorem step_kept {action : Action} (kept : Kept process) (stepped : step s process action = some after) : Kept after := by
  rcases step_cases kept stepped with
    rfl | ⟨index, image, rfl⟩ | ⟨image, err, -, rfl⟩ | ⟨name, held, left, sink, err, taken, done, -, rfl⟩ |
    ⟨name, held, err, taken, -, rfl⟩
  · exact kept
  · refine ⟨fun name => ?_, fun name above => ?_⟩
    · by_cases new : name = process.temp.next
      · subst new
        simpa [TempFiles.create, TempFiles.write] using Filed.taken index image
      · simpa [TempFiles.create, TempFiles.write, new] using kept.filed name
    · have above : process.temp.next + 1 ≤ name := above
      have new : name ≠ process.temp.next := by omega
      simpa [TempFiles.create, TempFiles.write, new] using kept.unused name (by omega)
  · refine ⟨fun name => ?_, fun name above => ?_⟩
    · by_cases new : name = process.temp.next
      · subst new
        rw [remove_opened, (kept.unused _ (Nat.le_refl _)).2]
        simpa [TempFiles.close] using Filed.absent _
      · rw [remove_opened, remove_other _ _ new]
        simpa [TempFiles.create, TempFiles.write, TempFiles.close, new] using kept.filed name
    · rw [remove_next] at above
      have above : process.temp.next + 1 ≤ name := above
      have new : name ≠ process.temp.next := by omega
      rw [remove_other _ _ new]
      simpa [TempFiles.create, TempFiles.write, TempFiles.close, new] using kept.unused name (by omega)
  · refine ⟨fun other => ?_, fun other above => ?_⟩
    · by_cases same : other = name
      · subst same
        have filed := kept.filed other
        rw [taken] at filed
        simpa using filed.read done
      · simpa [same] using kept.filed other
    · have apart : other ≠ name := by
        rintro rfl
        cases taken.symm.trans (kept.unused other above).2
      simpa [apart] using kept.unused other above
  · refine ⟨fun other => ?_, fun other above => ?_⟩
    · by_cases same : other = name
      · subst same
        have filed := kept.filed other
        rw [taken] at filed
        rw [remove_opened]
        simpa [TempFiles.close] using filed.released _
      · rw [remove_opened, remove_other _ _ same]
        simpa [TempFiles.close, same] using kept.filed other
    · rw [remove_next] at above
      have apart : other ≠ name := by
        rintro rfl
        cases taken.symm.trans (kept.unused other above).2
      rw [remove_other _ _ apart]
      simpa [TempFiles.close, apart] using kept.unused other above

private theorem step_cleared {action : Action} (kept : Kept process) (cleared : Cleared process) (fine : removes action = true)
    (stepped : step s process action = some after) : Cleared after := by
  rcases step_cases kept stepped with
    rfl | ⟨index, image, rfl⟩ | ⟨image, err, gone, rfl⟩ | ⟨name, held, left, sink, err, taken, -, -, rfl⟩ |
    ⟨name, held, err, taken, gone, rfl⟩
  · exact cleared
  · intro name there
    by_cases new : name = process.temp.next
    · subst new
      simp
    · simpa [new] using cleared name (by simpa [TempFiles.create, TempFiles.write, new] using there)
  · rw [gone fine]
    intro name there
    by_cases new : name = process.temp.next
    · subst new
      simp [remove_same] at there
    · dsimp only at there ⊢
      rw [remove_other _ _ new] at there
      exact cleared name (by simpa [TempFiles.create, TempFiles.write, TempFiles.close, new] using there)
  · intro other there
    by_cases same : other = name
    · subst same
      simpa [taken] using cleared other there
    · simpa [same] using cleared other there
  · rw [gone fine]
    intro other there
    by_cases same : other = name
    · subst same
      simp [remove_same] at there
    · dsimp only at there ⊢
      rw [remove_other _ _ same] at there
      simpa [same] using cleared other there

private theorem step_unread {action : Action} {name : Nat} (kept : Kept process)
    (unread : ∀ held ∈ process.taken name, held.rc.position = 0 ∧ held.rc.ended = false)
    (other : persists name action = false) (stepped : step s process action = some after) :
    ∀ held ∈ after.taken name, held.rc.position = 0 ∧ held.rc.ended = false := by
  rcases step_cases kept stepped with
    rfl | ⟨index, image, rfl⟩ | ⟨image, err, -, rfl⟩ | ⟨changed, held, left, sink, err, taken, -, persisted, rfl⟩ |
    ⟨changed, held, err, taken, -, rfl⟩
  · exact unread
  · by_cases same : name = process.temp.next
    · subst same
      simp
    · simpa [same] using unread
  · exact unread
  · have apart : name ≠ changed := by
      rintro rfl
      cases persisted.symm.trans other
    simpa [apart] using unread
  · by_cases same : name = changed
    · subst same
      simpa using unread held taken
    · simpa [same] using unread

theorem kept_start : Kept {} := ⟨fun _ => .absent _, fun _ _ => ⟨rfl, rfl⟩⟩

theorem run_kept {actions : List Action} (executed : exec (step s) {} actions = some process) : Kept process :=
  exec_invariant Kept (fun _ _ _ kept stepped => step_kept kept stepped) kept_start executed

/-- However snapshots overlap, a process has open exactly the temporary files of those that it has
not released. Unless a removal fails, no other file is left. -/
theorem temp_files_held {actions : List Action} (executed : exec (step s) {} actions = some process) (name : Nat) :
    (process.temp.opened name = true ↔ ∃ held ∈ process.taken name, held.released = false) ∧
      ((∀ action ∈ actions, removes action = true) →
        ((process.temp.files name).isSome ↔ ∃ held ∈ process.taken name, held.released = false)) := by
  have kept := run_kept executed
  refine ⟨(kept.filed name).opened, fun fine => ⟨fun there => ?_, ?_⟩⟩
  · have both := exec_invariant_of (fun action => removes action = true) (fun process => Kept process ∧ Cleared process)
      (fun _ _ _ both fine stepped => ⟨step_kept both.1 stepped, step_cleared both.1 both.2 fine stepped⟩)
      ⟨kept_start, fun _ there => by cases there⟩ fine executed
    exact both.2 name there
  · rintro ⟨held, taken, unreleased⟩
    rw [(kept.filed name).content held taken unreleased]
    rfl

/-- Two snapshots at a time, the first of which is released. -/
def overlapping : List Action :=
  [.snapshot 1 { image := [1] }, .snapshot 2 { image := [2] }, .release 0 none none]

theorem temp_files_overlapping : ∃ process, exec (step ⟨"db", 512⟩) {} overlapping = some process ∧
    process.temp.opened 0 = false ∧ (process.temp.files 1).isSome ∧ process.temp.files 0 = none := by
  refine ⟨_, rfl, ?_, ?_, ?_⟩
  · rw [← Bool.not_eq_true, (@temp_files_held ⟨"db", 512⟩ _ overlapping rfl 0).1]
    rintro ⟨held, taken, unreleased⟩
    cases taken
    cases unreleased
  · exact ((@temp_files_held ⟨"db", 512⟩ _ overlapping rfl 1).2 (by decide)).mpr ⟨_, rfl, rfl⟩
  · rw [← Option.not_isSome_iff_eq_none, (@temp_files_held ⟨"db", 512⟩ _ overlapping rfl 0).2 (by decide)]
    rintro ⟨held, taken, unreleased⟩
    cases taken
    cases unreleased

/-- Nothing has been read of a snapshot that was not persisted. -/
theorem run_unread {actions : List Action} (executed : exec (step s) {} actions = some process) {name : Nat} {held : Taken}
    (taken : process.taken name = some held) (unpersisted : ∀ action ∈ actions, persists name action = false) :
    held.rc.position = 0 ∧ held.rc.ended = false := by
  have both := exec_invariant_of (fun action => persists name action = false)
    (fun process => Kept process ∧ ∀ held ∈ process.taken name, held.rc.position = 0 ∧ held.rc.ended = false)
    (fun _ _ _ both other stepped => ⟨step_kept both.1 stepped, step_unread both.1 both.2 other stepped⟩)
    ⟨kept_start, fun _ there => by cases there⟩ unpersisted executed
  exact both.2 held taken

/-- What is persisted of a snapshot does not depend on the others. A `Persist` goes on where the ones
before it have stopped: the first closes a sink only over the header with the index and all pages
that were copied, and never once the snapshot has been released, and after one that has come to the
end the others get nothing, without an error. -/
theorem persisted_whole {actions : List Action} (executed : exec (step s) {} actions = some process) {name : Nat} {held : Taken}
    (taken : process.taken name = some held) {p : Persisting} {left : HeaderedReader} {sink : Sink} {err : Option String}
    (ran : held.rc.persist process.temp p = some (left, sink, err)) :
    (sink.state = .closed ↔ err = none) ∧ sink.bytes <+: held.stream.drop held.rc.position ∧
      (sink.state ≠ .cancelled → sink.bytes = held.stream.drop held.rc.position ∧ left.ended = true) ∧
      (held.rc.ended = true → sink.bytes = [] ∧ err = p.closeErr) ∧
      ((∀ action ∈ actions, persists name action = false) →
        held.rc.position = 0 ∧ (sink.state ≠ .cancelled → held.released = false)) := by
  have filed := (run_kept executed).filed name
  rw [taken] at filed
  have done := filed.persisted ran
  refine ⟨done.closed, done.part, fun kept => ⟨done.whole kept, done.ended.mpr kept⟩, fun ended => persist_ended ended ran,
    fun unpersisted => ?_⟩
  obtain ⟨unread, reading⟩ := run_unread executed taken unpersisted
  refine ⟨unread, fun kept => ?_⟩
  rcases done.opened kept with ended | opened
  · cases reading.symm.trans ended
  · rw [(filed.header held rfl).2] at opened
    exact filed.unreleased opened

def nines : Persisting := { turns := List.replicate 20 { read := 9 } }

private theorem nines_fine : ∀ turn ∈ nines.turns, turn.Fine := by
  intro turn member
  rw [List.eq_of_mem_replicate member]
  exact ⟨by decide, rfl, rfl⟩

/-- The second is persisted, the first not any more. -/
theorem persisted_overlapping : ∃ process first second, exec (step ⟨"db", 512⟩) {} overlapping = some process ∧
    process.taken 0 = some first ∧ process.taken 1 = some second ∧
    (∃ left sink, second.rc.persist process.temp nines = some (left, sink, none) ∧ sink.bytes = (newSnapshotHeader 2).val ++ [2]) ∧
    ∃ left sink err, first.rc.persist process.temp nines = some (left, sink, err) ∧ sink.state = .cancelled := by
  obtain ⟨process, executed, first, second, closed, opened, content⟩ : ∃ process,
      exec (step ⟨"db", 512⟩) {} overlapping = some process ∧
      process.taken 0 = some ⟨⟨newSnapshotHeader 1, 0, 0, false⟩, 1, [1], true⟩ ∧
      process.taken 1 = some ⟨⟨newSnapshotHeader 2, 1, 0, false⟩, 2, [2], false⟩ ∧ process.temp.opened 0 = false ∧
      process.temp.opened 1 = true ∧ process.temp.files 1 = some [2] := ⟨_, rfl, rfl, rfl, rfl, rfl, rfl⟩
  refine ⟨process, _, _, executed, first, second, ?_, ?_⟩
  · obtain ⟨left, ran⟩ := @persist_returns ⟨newSnapshotHeader 2, 1, 0, false⟩ process.temp nines opened rfl rfl nines_fine
      ⟨rfl, rfl⟩ (by rw [content]; decide)
    exact ⟨left, _, ran, ((persisted_whole executed second ran).2.2.1 (by simp)).1⟩
  · have read : HeaderedReader.reader ⟨newSnapshotHeader 1, 0, 0, false⟩ process.temp none =
        ⟨(newSnapshotHeader 1).val, some "file already closed"⟩ := by
      unfold HeaderedReader.reader
      rw [closed]
      rfl
    obtain ⟨⟨left, sink, err⟩, ran⟩ : ∃ done, HeaderedReader.persist ⟨newSnapshotHeader 1, 0, 0, false⟩ process.temp nines =
        some done := by
      rw [HeaderedReader.persist, show nines.fault = none from rfl, read, copy_returns nines_fine (by decide)]
      exact ⟨_, rfl⟩
    refine ⟨left, sink, err, ran, ?_⟩
    by_contra kept
    cases ((persisted_whole executed first ran).2.2.2.2 (by decide)).2 kept

/-- Once it has been persisted, another `Persist` closes an empty sink, also after `Release`. -/
example : ∃ process second, exec (step ⟨"db", 512⟩) {} (overlapping ++ [.persist 1 nines, .release 1 none none]) = some process ∧
    process.taken 1 = some second ∧ ∃ left, second.rc.persist process.temp nines = some (left, ⟨[], .closed⟩, none) :=
  ⟨_, _, rfl, rfl, _, rfl⟩

end Temporary

end Literaft.Proofs.Persist
