import Literaft.DbLock

/-! While an `FSM` is open nobody deletes the log under it: its shared lock keeps every connection
from the lock that deleting takes, its own connections included, which `FSM.Close` closes first. -/

namespace Literaft.Proofs.DbLock
open Library Literaft.DbLock

variable {Owner : Type}

def needs : Phase → Option LockKind
  | .holding | .attached _ => some .read
  | .exclusive => some .write
  | .closed | .opened | .connected => none

/-- Who is attached finds the files that it opened. -/
structure Kept (s : State Owner) : Prop where
  valid : s.locks.Valid
  held : ∀ o kind, needs (s.phases o) = some kind → (o, kind) ∈ s.locks sqliteSharedFirst
  files : ∀ o files, s.phases o = .attached files → s.files = some files

theorem kept_start : Kept ({} : State Owner) := ⟨FileLocks.valid_start, nofun, nofun⟩

variable {s t : State Owner} {o : Owner}

theorem Kept.create (kept : Kept s) : Kept s.create ∧ s.create.files ≠ none := by
  unfold State.create
  split
  · next files there =>
    refine ⟨kept, ?_⟩
    rw [there]
    exact nofun
  · next missing =>
    refine ⟨⟨kept.valid, kept.held, ?_⟩, nofun⟩
    intro o files attached
    cases missing.symm.trans (kept.files o files attached)

/-- Nobody has the bytes for writing while an `FSM` holds them. -/
theorem Kept.shared (kept : Kept s) (needed : needs (s.phases o) = some .read) (c : Owner) : s.phases c ≠ .exclusive := by
  intro exclusive
  have alone := (kept.valid sqliteSharedFirst).alone (kept.held c .write (by rw [exclusive]; rfl)) (kept.held o .read needed)
  subst alone
  rw [exclusive] at needed
  cases needed

theorem Kept.delete (kept : Kept s) {c : Owner} (exclusive : s.phases c = .exclusive) : Kept { s with files := none } := by
  refine ⟨kept.valid, kept.held, ?_⟩
  intro o files attached
  exact absurd exclusive (kept.shared (by rw [attached]; rfl) c)

variable [DecidableEq Owner]

private theorem first_inside : sqliteSharedFirst ≤ sqliteSharedFirst ∧ sqliteSharedFirst < sqliteSharedFirst + sqliteSharedSize :=
  ⟨Nat.le_refl _, by decide⟩

theorem Kept.update (kept : Kept s) (o : Owner) (phase : Phase) {locks : FileLocks Owner} (valid : locks.Valid)
    (others : ∀ other kind, other ≠ o → (other, kind) ∈ s.locks sqliteSharedFirst → (other, kind) ∈ locks sqliteSharedFirst)
    (own : ∀ kind, needs phase = some kind → (o, kind) ∈ locks sqliteSharedFirst)
    (attached : ∀ files, phase = .attached files → s.files = some files) :
    Kept { s.put o phase with locks } := by
  refine ⟨valid, fun other kind needed => ?_, fun other files now => ?_⟩
  · by_cases same : other = o
    · subst same
      exact own kind (by simpa [State.put] using needed)
    · exact others other kind same (kept.held other kind (by simpa [State.put, same] using needed))
  · by_cases same : other = o
    · subst same
      exact attached files (by simpa [State.put] using now)
    · exact kept.files other files (by simpa [State.put, same] using now)

theorem Kept.release (kept : Kept s) (o : Owner) : Kept (s.release o) := by
  refine kept.update o .closed (kept.valid.close o) ?_ nofun nofun
  intro other kind apart member
  exact Holders.mem_without.mpr ⟨member, apart⟩

theorem Kept.attempt (kept : Kept s) {kind : LockKind} {phase : Phase} (own : ∀ needed, needs phase = some needed → needed = kind)
    (detached : ∀ files, phase ≠ .attached files) : Kept (s.attempt o kind phase) := by
  unfold State.attempt
  split
  · next locks granted =>
    obtain ⟨now, -⟩ := FileLocks.setLock_at granted sqliteSharedFirst
    rw [if_pos first_inside] at now
    refine kept.update o phase (kept.valid.setLock granted) ?_ ?_ fun files same => absurd same (detached files)
    · intro other held apart member
      rw [now]
      exact List.mem_cons_of_mem _ (Holders.mem_without.mpr ⟨member, apart⟩)
    · intro needed same
      rw [now, own needed same]
      exact List.mem_cons_self
  · exact kept

private theorem kept_step {action : Action Owner} (kept : Kept s) (stepped : step s action = some t) : Kept t := by
  cases action with
  | openFile o =>
    obtain ⟨-, done⟩ := Option.ite_none_right_eq_some.mp stepped
    cases done
    exact kept.update o .opened kept.valid (fun _ _ _ member => member) nofun nofun
  | readLock o =>
    obtain ⟨-, done⟩ := Option.ite_none_right_eq_some.mp stepped
    cases done
    exact kept.attempt (fun _ same => (Option.some.inj same).symm) nofun
  | lockFails o =>
    obtain ⟨-, done⟩ := Option.ite_none_right_eq_some.mp stepped
    cases done
    exact kept.release o
  | openAppender o =>
    obtain ⟨holding, done⟩ := Option.ite_none_right_eq_some.mp stepped
    cases done
    obtain ⟨made, there⟩ := kept.create
    obtain ⟨files, known⟩ := Option.ne_none_iff_exists'.mp there
    refine made.update o _ made.valid (fun _ _ _ member => member) ?_ ?_
    · intro kind needed
      have same : s.create.phases o = .holding := by
        unfold State.create
        split <;> exact holding
      exact made.held o kind (by rw [same]; exact needed)
    · rintro other ⟨⟩
      rw [known]
      rfl
  | closeAppender o =>
    simp only [step] at stepped
    split at stepped <;> cases stepped
    next files attached =>
    refine kept.update o .holding kept.valid (fun _ _ _ member => member) ?_ nofun
    intro kind needed
    exact kept.held o kind (by rw [attached]; exact needed)
  | closeLock o =>
    obtain ⟨-, done⟩ := Option.ite_none_right_eq_some.mp stepped
    cases done
    exact kept.release o
  | connect c =>
    obtain ⟨-, done⟩ := Option.ite_none_right_eq_some.mp stepped
    cases done
    exact kept.update c .connected kept.valid (fun _ _ _ member => member) nofun nofun
  | useFiles c =>
    obtain ⟨-, done⟩ := Option.ite_none_right_eq_some.mp stepped
    cases done
    exact kept.create.1
  | share c =>
    obtain ⟨-, done⟩ := Option.ite_none_right_eq_some.mp stepped
    cases done
    exact kept.attempt nofun nofun
  | unshare c =>
    obtain ⟨connected, done⟩ := Option.ite_none_right_eq_some.mp stepped
    cases done
    refine ⟨kept.valid.unlock c _ _, ?_, kept.files⟩
    intro other kind needed
    have apart : other ≠ c := by
      rintro rfl
      rw [connected] at needed
      cases needed
    have after : s.locks.unlock c sqliteSharedFirst sqliteSharedSize sqliteSharedFirst =
        (s.locks sqliteSharedFirst).without c := if_pos first_inside
    change (other, kind) ∈ s.locks.unlock c sqliteSharedFirst sqliteSharedSize sqliteSharedFirst
    rw [after]
    exact Holders.mem_without.mpr ⟨kept.held other kind needed, apart⟩
  | exclude c =>
    obtain ⟨-, done⟩ := Option.ite_none_right_eq_some.mp stepped
    cases done
    exact kept.attempt (fun _ same => (Option.some.inj same).symm) nofun
  | delete c =>
    obtain ⟨exclusive, done⟩ := Option.ite_none_right_eq_some.mp stepped
    cases done
    exact kept.delete exclusive
  | disconnect c =>
    obtain ⟨-, done⟩ := Option.ite_none_right_eq_some.mp stepped
    cases done
    exact kept.release c

/-- In every interleaving of any number of `FSM`s and connections, the -wal and -shm files that an
appender has open are those in place, and no connection gets to delete them until the `FSM`, whose
own connections are closed by then, gives up the shared lock. -/
theorem wal_files_kept {actions : List (Action Owner)} (executed : exec step {} actions = some s) :
    (∀ files, s.phases o = .attached files → s.files = some files) ∧
    (s.phases o = .holding ∨ (∃ files, s.phases o = .attached files) → ∀ c, s.phases c ≠ .exclusive) := by
  have kept : Kept s := exec_invariant Kept (fun _ _ _ => kept_step) kept_start executed
  refine ⟨kept.files o, ?_⟩
  rintro (holding | ⟨files, attached⟩)
  · exact kept.shared (by rw [holding]; rfl)
  · exact kept.shared (by rw [attached]; rfl)

/-- A connection that closes is refused, and so is the one of the `FSM` itself. -/
def refused : List (Action Nat) :=
  [.connect 1, .useFiles 1, .openFile 0, .readLock 0, .openAppender 0, .connect 2, .share 2, .unshare 2, .exclude 2,
    .disconnect 2, .exclude 1]

theorem wal_files_kept_refused : ∃ s, exec step {} refused = some s ∧ s.phases 0 = .attached 0 ∧ s.phases 1 = .connected ∧
    s.files = some 0 := by
  have found : (exec step {} refused).map (fun s => (s.phases 0, s.phases 1)) = some (.attached 0, .connected) := by
    decide +kernel
  obtain ⟨s, executed, seen⟩ := Option.map_eq_some_iff.mp found
  obtain ⟨attached, connected⟩ := Prod.mk.inj seen
  exact ⟨s, executed, attached, connected, (wal_files_kept executed).1 0 attached⟩

end Literaft.Proofs.DbLock
