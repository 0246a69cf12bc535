import Literaft.ShmFile

/-! The dead man's switch. Who cuts the -shm file holds the switch alone, so nobody is attached whose
regions it could cut, and who is attached finds a file that was cut for it or for those it joined. -/

namespace Literaft.Proofs.ShmFile
open Library Shm Literaft.ShmFile

variable {Owner : Type}

def owns : Phase → Option LockKind
  | .claimed | .wiped => some .write
  | .attached => some .read
  | .closed | .opened | .claiming | .joining => none

/-- The switch is held by the phases of the openers, and only attached ones have regions. -/
structure Guarded (s : State Owner) : Prop where
  valid : s.locks.Valid
  held : ∀ o kind, (o, kind) ∈ s.locks dmsOffset ↔ owns (s.openers o).phase = some kind
  unmapped : ∀ o, (s.openers o).phase ≠ .attached → (s.openers o).regions = 0 ∧ (s.openers o).mapping = none

private theorem guarded_start : Guarded ({} : State Owner) :=
  ⟨FileLocks.valid_start, fun o kind => by simp [owns], fun _ _ => ⟨rfl, rfl⟩⟩

variable [DecidableEq Owner] {s after : State Owner} {o other : Owner}

theorem Guarded.update (guarded : Guarded s) (o : Owner) (opener : Opener) {locks : FileLocks Owner} (valid : locks.Valid)
    (others : ∀ other kind, other ≠ o → ((other, kind) ∈ locks dmsOffset ↔ (other, kind) ∈ s.locks dmsOffset))
    (own : ∀ kind, (o, kind) ∈ locks dmsOffset ↔ owns opener.phase = some kind)
    (unmapped : opener.phase ≠ .attached → opener.regions = 0 ∧ opener.mapping = none) (size : Nat) (stale : Bool) :
    Guarded { locks, size, openers := Function.update s.openers o opener, stale } := by
  refine ⟨valid, fun other kind => ?_, fun other detached => ?_⟩
  · by_cases same : other = o
    · subst same
      simpa using own kind
    · simpa [same] using (others other kind same).trans (guarded.held other kind)
  · by_cases same : other = o
    · subst same
      simpa using unmapped (by simpa using detached)
    · simpa [same] using guarded.unmapped other (by simpa [same] using detached)

theorem Guarded.put (guarded : Guarded s) (o : Owner) (opener : Opener) (same : owns opener.phase = owns (s.openers o).phase)
    (unmapped : opener.phase ≠ .attached → opener.regions = 0 ∧ opener.mapping = none) (size : Nat) (stale : Bool) :
    Guarded { s.put o opener with size, stale } :=
  guarded.update o opener guarded.valid (fun _ _ _ => Iff.rfl) (fun kind => by rw [same]; exact guarded.held o kind) unmapped size stale

private theorem Guarded.mapped (guarded : Guarded s) (attached : (s.openers o).phase = .attached) (regions : Nat)
    (mapping : Option Bool) (size : Nat) (stale : Bool) :
    Guarded { s.put o { s.openers o with regions, mapping } with size, stale } :=
  guarded.put o { s.openers o with regions, mapping } rfl (fun detached => absurd attached detached) size stale

theorem Guarded.release (guarded : Guarded s) (o : Owner) : Guarded (s.release o) := by
  refine guarded.update o {} (guarded.valid.close o) (fun other kind apart => ?_) (fun kind => ?_) (fun _ => ⟨rfl, rfl⟩) _ _
  · exact Holders.mem_without.trans (and_iff_left apart)
  · refine iff_of_false (fun member => (Holders.mem_without.mp member).2 rfl) (by simp [owns])

theorem Guarded.attempt (guarded : Guarded s) {kind : LockKind} {phase : Phase} (own : owns phase = some kind)
    (unmapped : (s.openers o).phase ≠ .attached) : Guarded (s.attempt o kind phase) := by
  unfold State.attempt
  split
  · next locks granted =>
    obtain ⟨now, -⟩ := FileLocks.setLock_at granted dmsOffset
    rw [if_pos ⟨Nat.le_refl _, Nat.lt_succ_self _⟩] at now
    refine guarded.update o { s.openers o with phase } (guarded.valid.setLock granted) (fun other held apart => ?_) (fun held => ?_)
      (fun _ => guarded.unmapped o unmapped) _ _
    · rw [now, List.mem_cons, Holders.mem_without]
      simp [apart]
    · rw [now, own, List.mem_cons, Holders.mem_without]
      simp [eq_comm]
  · exact guarded

theorem lock_before_dms {index n : Nat} (inside : index + n ≤ checkpointInfoNReaders + 3) :
    ¬ (lockBaseOffset + index ≤ dmsOffset ∧ dmsOffset < lockBaseOffset + index + n) := by
  have place : dmsOffset = lockBaseOffset + (checkpointInfoNReaders + 3) := rfl
  omega

theorem Guarded.tested (guarded : Guarded s) (opened : (s.openers o).phase = .opened) : Guarded (s.tested o) := by
  have unmapped := guarded.unmapped o (by simp [opened])
  unfold State.tested
  split
  · exact guarded.release o
  · exact guarded.put o { s.openers o with phase := .joining } (by simp [opened, owns]) (fun _ => unmapped) _ _
  · exact guarded.put o { s.openers o with phase := .claiming } (by simp [opened, owns]) (fun _ => unmapped) _ _

theorem step_guarded (guarded : Guarded s) {action : Action Owner} (stepped : step s action = some after) : Guarded after := by
  cases action with
  | openFile o =>
    obtain ⟨closed, done⟩ := Option.ite_none_right_eq_some.mp stepped
    cases done
    exact guarded.put o _ (by simp [closed, owns]) (fun _ => ⟨rfl, rfl⟩) _ _
  | testLock o err =>
    obtain ⟨opened, done⟩ := Option.ite_none_right_eq_some.mp stepped
    cases done
    split
    · exact guarded.release o
    · exact guarded.tested opened
  | writeLock o =>
    obtain ⟨claiming, done⟩ := Option.ite_none_right_eq_some.mp stepped
    cases done
    exact guarded.attempt rfl (by simp [claiming])
  | truncate o err =>
    obtain ⟨claimed, done⟩ := Option.ite_none_right_eq_some.mp stepped
    cases done
    split
    · exact guarded.release o
    · exact guarded.put o { s.openers o with phase := .wiped } (by simp [claimed, owns]) (fun _ => guarded.unmapped o (by simp [claimed])) _ _
  | readLock o =>
    obtain ⟨phase, done⟩ := Option.ite_none_right_eq_some.mp stepped
    cases done
    exact guarded.attempt rfl (by rcases phase with wiped | joining <;> simp [*])
  | giveUp o =>
    obtain ⟨-, done⟩ := Option.ite_none_right_eq_some.mp stepped
    cases done
    exact guarded.release o
  | stat o err =>
    obtain ⟨⟨attached, -⟩, done⟩ := Option.ite_none_right_eq_some.mp stepped
    cases done
    split
    · exact guarded
    · exact guarded.mapped attached _ _ _ _
  | grow o err =>
    obtain ⟨⟨attached, -⟩, done⟩ := Option.ite_none_right_eq_some.mp stepped
    cases done
    split <;> exact guarded.mapped attached _ _ _ _
  | extend o =>
    obtain ⟨⟨attached, -⟩, done⟩ := Option.ite_none_right_eq_some.mp stepped
    cases done
    exact guarded.mapped attached _ _ _ _
  | mmap o err =>
    obtain ⟨⟨attached, -⟩, done⟩ := Option.ite_none_right_eq_some.mp stepped
    cases done
    exact guarded.mapped attached _ _ _ _
  | lock o kind index n =>
    obtain ⟨⟨-, inside⟩, done⟩ := Option.ite_none_right_eq_some.mp stepped
    cases done
    cases granted : s.locks.setLock o kind (lockBaseOffset + index) n with
    | none => exact guarded
    | some locks =>
      obtain ⟨now, -⟩ := FileLocks.setLock_at granted dmsOffset
      rw [if_neg (lock_before_dms inside)] at now
      exact ⟨guarded.valid.setLock granted, fun o kind => by simpa [now] using guarded.held o kind, guarded.unmapped⟩
  | unlock o index n =>
    obtain ⟨⟨-, inside⟩, done⟩ := Option.ite_none_right_eq_some.mp stepped
    cases done
    refine ⟨guarded.valid.unlock o _ n, fun o kind => ?_, guarded.unmapped⟩
    simpa [FileLocks.unlock, lock_before_dms inside] using guarded.held o kind
  | close o =>
    obtain ⟨-, done⟩ := Option.ite_none_right_eq_some.mp stepped
    cases done
    exact guarded.release o

omit [DecidableEq Owner] in
/-- While somebody holds the switch for writing, nobody else has any of it. -/
theorem Guarded.alone (guarded : Guarded s) (writes : owns (s.openers o).phase = some .write) (apart : other ≠ o) :
    owns (s.openers other).phase = none := by
  cases held : owns (s.openers other).phase with
  | none => rfl
  | some kind =>
    exact absurd ((guarded.valid dmsOffset).alone ((guarded.held o .write).mpr writes) ((guarded.held other kind).mpr held)) apart

private theorem run_guarded {actions : List (Action Owner)} (executed : exec step {} actions = some s) : Guarded s :=
  exec_invariant Guarded (fun _ _ _ guarded stepped => step_guarded guarded stepped) guarded_start executed

/-- Whoever cuts the file, in whatever order the openers test, lock and close, does so while no other
opener is attached or has a region of it mapped. -/
theorem cut_alone {actions : List (Action Owner)} (executed : exec step {} actions = some s) {err : Bool}
    (stepped : step s (.truncate o err) = some after) (apart : other ≠ o) :
    (s.openers other).phase ≠ .attached ∧ (s.openers other).regions = 0 := by
  have guarded := run_guarded executed
  obtain ⟨claimed, -⟩ := Option.ite_none_right_eq_some.mp stepped
  have none_ := guarded.alone (o := o) (by rw [claimed]; rfl) apart
  have detached : (s.openers other).phase ≠ .attached := fun attached => by rw [attached] at none_; cases none_
  exact ⟨detached, (guarded.unmapped other detached).1⟩

/-- Two openers that both found the switch free; the first has it. -/
def contended : List (Action Bool) :=
  [.openFile false, .openFile true, .testLock false false, .testLock true false, .writeLock false, .writeLock true]

theorem cut_alone_contended : ∃ s after, exec step {} contended = some s ∧ step s (.truncate false false) = some after ∧
    (s.openers true).phase = .claiming ∧ (s.openers true).regions = 0 :=
  ⟨_, _, rfl, rfl, rfl, (@cut_alone Bool _ _ _ false true contended rfl false rfl (by decide)).2⟩

/-- The regions of an opener lie within the file, and so does the one it is about to map. -/
def Backed (size : Nat) (opener : Opener) : Prop :=
  opener.regions * regionSize ≤ size ∧ (opener.mapping = some false → opener.wanted ≤ size)

theorem Backed.grow {size longer : Nat} {opener : Opener} (backed : Backed size opener) (grown : size ≤ longer) :
    Backed longer opener :=
  ⟨Nat.le_trans backed.1 grown, fun found => Nat.le_trans (backed.2 found) grown⟩

private theorem backed_none (size : Nat) (phase : Phase) : Backed size { phase } :=
  ⟨by simp, fun found => by cases found⟩

/-- A step that does not make the file shorter only has to care for its own opener. -/
theorem backed_update {openers : Owner → Opener} {size longer : Nat} (backed : ∀ o, Backed size (openers o))
    (grown : size ≤ longer)
    {opener : Opener} (own : Backed longer opener) (other : Owner) : Backed longer (Function.update openers o opener other) := by
  by_cases same : other = o
  · subst same
    rw [Function.update_self]
    exact own
  · rw [Function.update_of_ne same]
    exact (backed other).grow grown

private theorem backed_release (backed : ∀ o, Backed s.size (s.openers o)) (o : Owner) :
    ∀ other, Backed (s.release o).size ((s.release o).openers other) :=
  backed_update backed (Nat.le_refl _) (backed_none _ _)

private theorem backed_attempt (backed : ∀ o, Backed s.size (s.openers o)) (o : Owner) (kind : LockKind) (phase : Phase) :
    ∀ other, Backed (s.attempt o kind phase).size ((s.attempt o kind phase).openers other) := by
  unfold State.attempt
  split
  · exact backed_update backed (Nat.le_refl _) (backed o)
  · exact backed

private theorem step_backed (guarded : Guarded s) (backed : ∀ o, Backed s.size (s.openers o)) {action : Action Owner}
    (fresh : timely s action = true) (stepped : step s action = some after) : ∀ o, Backed after.size (after.openers o) := by
  cases action with
  | openFile o =>
    obtain ⟨-, done⟩ := Option.ite_none_right_eq_some.mp stepped
    cases done
    exact backed_update backed (Nat.le_refl _) (backed_none _ _)
  | testLock o err =>
    obtain ⟨-, done⟩ := Option.ite_none_right_eq_some.mp stepped
    cases done
    split
    · exact backed_release backed o
    · unfold State.tested
      split
      · exact backed_release backed o
      · exact backed_update backed (Nat.le_refl _) (backed o)
      · exact backed_update backed (Nat.le_refl _) (backed o)
  | writeLock o =>
    obtain ⟨-, done⟩ := Option.ite_none_right_eq_some.mp stepped
    cases done
    exact backed_attempt backed o .write .claimed
  | truncate o err =>
    obtain ⟨claimed, done⟩ := Option.ite_none_right_eq_some.mp stepped
    cases done
    split
    · exact backed_release backed o
    · -- nobody else is attached, so nobody has a region to lose
      have unmapped (other : Owner) : (s.openers other).regions = 0 ∧ (s.openers other).mapping = none := by
        by_cases same : other = o
        · rw [same]
          exact guarded.unmapped o (by simp [claimed])
        · have none_ := guarded.alone (o := o) (by rw [claimed]; rfl) same
          exact guarded.unmapped other fun attached => by rw [attached] at none_; cases none_
      have empty (other : Owner) : Backed 0 (s.openers other) := by
        obtain ⟨regions, mapping⟩ := unmapped other
        exact ⟨by simp [regions], by simp [mapping]⟩
      exact backed_update empty (Nat.le_refl 0) (empty o)
  | readLock o =>
    obtain ⟨-, done⟩ := Option.ite_none_right_eq_some.mp stepped
    cases done
    exact backed_attempt backed o .read .attached
  | giveUp o =>
    obtain ⟨-, done⟩ := Option.ite_none_right_eq_some.mp stepped
    cases done
    exact backed_release backed o
  | stat o err =>
    obtain ⟨-, done⟩ := Option.ite_none_right_eq_some.mp stepped
    cases done
    split
    · exact backed
    · refine backed_update backed (Nat.le_refl _) ⟨(backed o).1, fun found => ?_⟩
      exact Nat.le_of_not_lt (of_decide_eq_false (Option.some.inj found))
  | grow o err =>
    obtain ⟨-, done⟩ := Option.ite_none_right_eq_some.mp stepped
    cases done
    cases err with
    | true => exact backed_update backed (Nat.le_refl _) ⟨(backed o).1, fun found => by cases found⟩
    | false =>
      have grown : s.size ≤ (s.openers o).wanted := of_decide_eq_true fresh
      exact backed_update backed grown ⟨Nat.le_add_right _ _, fun _ => Nat.le_refl _⟩
  | extend o =>
    obtain ⟨-, done⟩ := Option.ite_none_right_eq_some.mp stepped
    cases done
    exact backed_update backed (Nat.le_max_left _ _)
      ⟨Nat.le_trans (backed o).1 (Nat.le_max_left _ _), fun _ => Nat.le_max_right _ _⟩
  | mmap o err =>
    obtain ⟨⟨-, mapping⟩, done⟩ := Option.ite_none_right_eq_some.mp stepped
    cases done
    refine backed_update backed (Nat.le_refl _) ⟨?_, fun found => by cases found⟩
    cases err with
    | true => exact (backed o).1
    | false => exact Nat.le_trans (Nat.le_of_eq (Nat.succ_mul _ _)) ((backed o).2 mapping)
  | lock o kind index n =>
    obtain ⟨-, done⟩ := Option.ite_none_right_eq_some.mp stepped
    cases done
    cases s.locks.setLock o kind (lockBaseOffset + index) n with
    | none => exact backed
    | some locks => exact backed
  | unlock o index n =>
    obtain ⟨-, done⟩ := Option.ite_none_right_eq_some.mp stepped
    cases done
    exact backed
  | close o =>
    obtain ⟨-, done⟩ := Option.ite_none_right_eq_some.mp stepped
    cases done
    exact backed_release backed o

/-- In every order of steps in which no `Truncate` of `mapRegion` comes after the file has become
longer than it was to be, every mapped region stays within the file. -/
theorem regions_backed {actions : List (Action Owner)}
    (executed : exec (restrict (fun s action => timely s action = true) step) {} actions = some s) (o : Owner) :
    (s.openers o).regions * regionSize ≤ s.size := by
  have both := exec_invariant (fun s => Guarded s ∧ ∀ o, Backed s.size (s.openers o)) (fun _ _ _ both stepped => by
    obtain ⟨fresh, stepped⟩ := restrict_eq_some.mp stepped
    exact ⟨step_guarded both.1 stepped, step_backed both.1 both.2 fresh stepped⟩)
    ⟨guarded_start, fun _ => backed_none _ _⟩ executed
  exact (both.2 o).1

/-- The first opener cuts the file and maps two regions, the second gives up its claim, comes again
and maps one. -/
def shared : List (Action Bool) :=
  contended ++ [.truncate false false, .readLock false, .stat false false, .grow false false, .mmap false false, .stat false false,
    .grow false false, .mmap false false, .writeLock true, .giveUp true, .openFile true, .testLock true false, .readLock true,
    .stat true false, .mmap true false]

theorem regions_shared : ∃ s, exec (restrict (fun s action => timely s action = true) step) {} shared = some s ∧
    (s.openers true).regions = 1 ∧ (s.openers false).regions = 2 ∧ (s.openers false).regions * regionSize ≤ s.size :=
  ⟨_, rfl, rfl, rfl, @regions_backed Bool _ _ shared rfl false⟩

/-- Otherwise the size that one opener read before another made the file longer cuts a region. -/
example : (exec step ({} : State Bool) (contended ++ [.truncate false false, .readLock false, .giveUp true, .openFile true,
    .testLock true false, .readLock true, .stat true false, .stat false false, .grow false false, .mmap false false,
    .stat false false, .grow false false, .mmap false false, .grow true false])).map
      (fun s => (s.size, (s.openers false).regions * regionSize)) = some (32768, 65536) := by decide

/-- The file was cut for everybody who is attached or has just cut it. -/
def Fresh (s : State Owner) : Prop :=
  ∀ o, (s.openers o).phase = .attached ∨ (s.openers o).phase = .wiped → s.stale = false

theorem Fresh.put (fresh : Fresh s) (o : Owner) (opener : Opener)
    (own : opener.phase = .attached ∨ opener.phase = .wiped → s.stale = false) (locks : FileLocks Owner) (size : Nat) :
    Fresh { s.put o opener with locks, size } := by
  intro other phase
  by_cases same : other = o
  · subst same
    exact own (by simpa [State.put] using phase)
  · exact fresh other (by simpa [State.put, same] using phase)

/-- The last one that closes the file leaves nobody behind. -/
theorem Fresh.release (guarded : Guarded s) (fresh : Fresh s) (o : Owner) : Fresh (s.release o) := by
  intro other phase
  by_cases same : other = o
  · subst same
    simp [State.release, State.put] at phase
  · have phase : (s.openers other).phase = .attached ∨ (s.openers other).phase = .wiped := by
      simpa [State.release, State.put, same] using phase
    obtain ⟨kind, owned⟩ : ∃ kind, owns (s.openers other).phase = some kind := by
      rcases phase with attached | wiped
      · exact ⟨.read, by rw [attached]; rfl⟩
      · exact ⟨.write, by rw [wiped]; rfl⟩
    have there := Holders.mem_without.mpr ⟨(guarded.held other kind).mpr owned, same⟩
    have occupied : (s.locks.close o dmsOffset).isEmpty = false := by
      rw [List.isEmpty_eq_false_iff]
      exact List.ne_nil_of_mem there
    simp only [State.release, fresh other phase, occupied, Bool.or_false]

/-- Who gets the switch for reading while somebody has it finds that one attached. -/
theorem Fresh.join (guarded : Guarded s) (fresh : Fresh s) {locks : FileLocks Owner}
    (granted : s.locks.setLock o .read dmsOffset 1 = some locks) (joining : (s.openers o).phase = .joining)
    (occupied : s.locks dmsOffset ≠ []) : s.stale = false := by
  obtain ⟨⟨other, kind⟩, member⟩ := List.exists_mem_of_ne_nil _ occupied
  have owned := (guarded.held other kind).mp member
  have apart : other ≠ o := by
    rintro rfl
    rw [joining] at owned
    cases owned
  have allowed := (FileLocks.setLock_at granted dmsOffset).2 ⟨Nat.le_refl _, Nat.lt_succ_self _⟩
  have reads : kind = .read := by simpa [apart] using List.all_eq_true.mp allowed _ member
  rw [reads] at owned
  refine fresh other (.inl ?_)
  cases phase : (s.openers other).phase with
  | attached => rfl
  | claimed | wiped | closed | opened | claiming | joining =>
    rw [phase] at owned
    cases owned

private theorem step_fresh (guarded : Guarded s) (fresh : Fresh s) {action : Action Owner} (met : accompanied s action = true)
    (stepped : step s action = some after) : Fresh after := by
  cases action with
  | openFile o =>
    obtain ⟨-, done⟩ := Option.ite_none_right_eq_some.mp stepped
    cases done
    exact fresh.put o _ (by simp) _ _
  | testLock o err =>
    obtain ⟨-, done⟩ := Option.ite_none_right_eq_some.mp stepped
    cases done
    split
    · exact fresh.release guarded o
    · unfold State.tested
      split
      · exact fresh.release guarded o
      · exact fresh.put o { s.openers o with phase := .joining } (by simp) _ _
      · exact fresh.put o { s.openers o with phase := .claiming } (by simp) _ _
  | writeLock o =>
    obtain ⟨-, done⟩ := Option.ite_none_right_eq_some.mp stepped
    cases done
    unfold State.attempt
    split
    · exact fresh.put o { s.openers o with phase := .claimed } (by simp) _ _
    · exact fresh
  | truncate o err =>
    obtain ⟨-, done⟩ := Option.ite_none_right_eq_some.mp stepped
    cases done
    split
    · exact fresh.release guarded o
    · exact fun _ _ => rfl
  | readLock o =>
    obtain ⟨phase, done⟩ := Option.ite_none_right_eq_some.mp stepped
    cases done
    unfold State.attempt
    split
    · next locks granted =>
      refine fresh.put o { s.openers o with phase := .attached } (fun _ => ?_) _ _
      rcases phase with wiped | joining
      · exact fresh o (.inr wiped)
      · refine fresh.join guarded granted joining ?_
        simpa [accompanied, joining] using met
    · exact fresh
  | giveUp o =>
    obtain ⟨-, done⟩ := Option.ite_none_right_eq_some.mp stepped
    cases done
    exact fresh.release guarded o
  | stat o err =>
    obtain ⟨⟨attached, -⟩, done⟩ := Option.ite_none_right_eq_some.mp stepped
    cases done
    split
    · exact fresh
    · exact fresh.put o { s.openers o with mapping := _ } (fun _ => fresh o (.inl attached)) _ _
  | grow o err =>
    obtain ⟨⟨attached, -⟩, done⟩ := Option.ite_none_right_eq_some.mp stepped
    cases done
    split
    · exact fresh.put o { s.openers o with mapping := none } (fun _ => fresh o (.inl attached)) _ _
    · exact fresh.put o { s.openers o with mapping := some false } (fun _ => fresh o (.inl attached)) _ _
  | extend o =>
    obtain ⟨⟨attached, -⟩, done⟩ := Option.ite_none_right_eq_some.mp stepped
    cases done
    exact fresh.put o { s.openers o with mapping := some false } (fun _ => fresh o (.inl attached)) _ _
  | mmap o err =>
    obtain ⟨⟨attached, -⟩, done⟩ := Option.ite_none_right_eq_some.mp stepped
    cases done
    exact fresh.put o { s.openers o with regions := _, mapping := none } (fun _ => fresh o (.inl attached)) _ _
  | lock o kind index n =>
    obtain ⟨-, done⟩ := Option.ite_none_right_eq_some.mp stepped
    cases done
    cases s.locks.setLock o kind (lockBaseOffset + index) n with
    | none => exact fresh
    | some locks => exact fresh
  | unlock o index n =>
    obtain ⟨-, done⟩ := Option.ite_none_right_eq_some.mp stepped
    cases done
    exact fresh
  | close o =>
    obtain ⟨-, done⟩ := Option.ite_none_right_eq_some.mp stepped
    cases done
    exact fresh.release guarded o

/-- In every order of steps in which an opener that joins others still finds one of them attached when
it gets the switch, whoever is attached has a file that was cut since it last was without an opener. -/
theorem attached_fresh {actions : List (Action Owner)}
    (executed : exec (restrict (fun s action => accompanied s action = true) step) {} actions = some s)
    (attached : (s.openers o).phase = .attached) : s.stale = false := by
  have both := exec_invariant (fun s => Guarded s ∧ Fresh s) (fun _ _ _ both stepped => by
    obtain ⟨met, stepped⟩ := restrict_eq_some.mp stepped
    exact ⟨step_guarded both.1 stepped, step_fresh both.1 both.2 met stepped⟩)
    ⟨guarded_start, fun _ phase => by simp at phase⟩ executed
  exact both.2 o (.inl attached)

theorem attached_shared : ∃ s, exec (restrict (fun s action => accompanied s action = true) step) {} shared = some s ∧
    (s.openers true).phase = .attached ∧ s.stale = false :=
  ⟨_, rfl, rfl, @attached_fresh Bool _ _ true shared rfl rfl⟩

/-- Without that, one that joins the last of the others while it closes keeps what was there. -/
example : (exec step ({} : State Bool) [.openFile false, .testLock false false, .writeLock false, .truncate false false,
    .readLock false, .openFile true, .testLock true false, .close false, .readLock true]).map
      (fun s => (decide ((s.openers true).phase = .attached), s.stale)) = some (true, true) := by decide

end Literaft.Proofs.ShmFile
