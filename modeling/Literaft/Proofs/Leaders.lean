import Literaft.Proofs.Loans

/-! What a leader knows about the log of its term: as far as it has applied it, it is the
committed log, and once a barrier of the term has completed, a transaction that the leader
has yet to apply is one that the holder of its write lock waits for. -/

namespace Literaft.Proofs.Leaders
open Library Fsm Proto Cluster Tracking Visible Loans

variable {ι : Type} [DecidableEq ι] {start : Database Bytes} {s : State ι}

/-- Raft takes an entry only in a term with a completed barrier, and no call fails whose
marker `Apply` has consumed. -/
def orderly (s : State ι) : Action ι → Bool
  | .accept _ _ term _ => s.drained term
  | .take _ _ _ term _ => s.drained term
  | .finish n id false => (s.nodes n).fsm.skipMarkers id ≠ some .skipped
  | _ => true

structure Terms (s : State ι) : Prop where
  elected : ∀ n term, (s.nodes n).leads = some term → term ∈ s.elections
  unique : ∀ n m term, (s.nodes n).leads = some term → (s.nodes m).leads = some term → n = m
  fresh : ∀ term, term ∉ s.elections → s.barriers term = [] ∧ s.drained term = false
  before : ∀ term, s.drained term = false → ∀ place ∈ s.barriers term,
    ∀ (j : Nat) (e : Entry), (s.log term)[j]? = some (some e) → j < place

theorem terms_init {ι : Type} (start : Database Bytes) : Terms (State.init start : State ι) where
  elected := fun _ _ leads => by cases leads
  unique := fun _ _ _ leads => by cases leads
  fresh := fun _ _ => ⟨rfl, rfl⟩
  before := fun _ _ _ member => by cases member

/-- Raft goes on as before, but for the logs of terms with a completed barrier. -/
theorem Terms.keep {ι : Type} {s s' : State ι} (terms : Terms s)
    (leads : ∀ n, (s'.nodes n).leads = (s.nodes n).leads) (elections : s'.elections = s.elections)
    (barriers : s'.barriers = s.barriers) (drained : s'.drained = s.drained)
    (log : ∀ term, s.drained term = false → s'.log term = s.log term) : Terms s' where
  elected := fun n term leading => elections ▸ terms.elected n term (leads n ▸ leading)
  unique := fun n m term leading leading' => terms.unique n m term (leads n ▸ leading) (leads m ▸ leading')
  fresh := fun term unknown => by
    rw [barriers, drained]
    exact terms.fresh term (elections ▸ unknown)
  before := fun term undrained place member j e found => by
    rw [drained] at undrained
    rw [barriers] at member
    rw [log term undrained] at found
    exact terms.before term undrained place member j e found

private theorem update_leads {nodes : ι → Node} {n : ι} {node : Node} (same : node.leads = (nodes n).leads) (m : ι) :
    (Function.update nodes n node m).leads = (nodes m).leads := by
  by_cases here : m = n
  · subst here
    simpa using same
  · simp [here]

@[simp] theorem apply_leads (node : Node) (e : Entry) : (node.apply e).leads = node.leads := by
  unfold Node.apply
  split <;> rfl

@[simp] theorem validate_leads (node : Node) (e : Entry) : (node.validate e).leads = node.leads := by
  unfold Node.validate
  split <;> rfl

@[simp] theorem append_leads (node : Node) (e : Entry) (via : Via) (written : Nat) :
    (node.append e via written).leads = node.leads := by
  unfold Node.append
  split <;> rfl

theorem Terms.elect (terms : Terms s) {n : ι} {term source length : Nat} (enabled : s.enabled (.elect n term source length)) :
    Terms (s.effect (.elect n term source length)) := by
  obtain ⟨-, later, -, -⟩ := enabled
  have unknown : term ∉ s.elections := fun member => Nat.lt_irrefl term (later term member)
  have leads (m : ι) (at' : Nat) (leading : ((s.effect (.elect n term source length)).nodes m).leads = some at') :
      m = n ∧ at' = term ∨ at' ≠ term ∧ (s.nodes m).leads = some at' := by
    by_cases here : m = n
    · subst here
      exact .inl ⟨rfl, by simpa [State.effect, State.setNode, eq_comm] using leading⟩
    · have leading : (s.nodes m).leads = some at' := by simpa [State.effect, State.setNode, here] using leading
      exact .inr ⟨fun same => unknown (same ▸ terms.elected m at' leading), leading⟩
  refine ⟨?_, ?_, ?_, ?_⟩
  · intro m at' leading
    rcases leads m at' leading with ⟨-, rfl⟩ | ⟨-, leading⟩
    · exact List.mem_cons_self
    · exact List.mem_cons_of_mem _ (terms.elected m at' leading)
  · intro m m' at' leading leading'
    rcases leads m at' leading with ⟨rfl, rfl⟩ | ⟨old, leading⟩ <;>
      rcases leads m' at' leading' with ⟨rfl, same⟩ | ⟨old', leading'⟩
    · rfl
    · exact absurd rfl old'
    · exact absurd same old
    · exact terms.unique m m' at' leading leading'
  · intro at' absent
    exact terms.fresh at' fun member => absent (List.mem_cons_of_mem _ member)
  · intro at' undrained place member j e found
    have distinct : at' ≠ term := by
      rintro rfl
      have none := (terms.fresh at' unknown).1
      rw [show (s.effect (.elect n at' source length)).barriers = s.barriers from rfl, none] at member
      cases member
    exact terms.before at' undrained place member j e (by simpa [State.effect, State.setNode, distinct] using found)

theorem Terms.barrier (terms : Terms s) {n : ι} {term : Nat} (enabled : s.enabled (.barrier n term)) :
    Terms (s.effect (.barrier n term)) := by
  refine ⟨terms.elected, terms.unique, ?_, ?_⟩
  · intro at' absent
    have distinct : at' ≠ term := fun same => absent (same ▸ terms.elected n term enabled)
    simpa [State.effect, State.push, distinct] using terms.fresh at' absent
  · intro at' undrained place member j e found
    by_cases here : at' = term
    · subst here
      simp only [State.effect, State.push, Function.update_self, List.mem_cons] at member found
      have inside : j < (s.log at').length := by
        by_contra outside
        rw [List.getElem?_append_right (Nat.le_of_not_lt outside)] at found
        simp [List.getElem?_singleton] at found
      rw [List.getElem?_append_left inside] at found
      rcases member with rfl | member
      · exact inside
      · exact terms.before at' undrained place member j e found
    · simp only [State.effect, State.push, Function.update_of_ne here] at member found
      exact terms.before at' undrained place member j e found

theorem Terms.drain (terms : Terms s) {n : ι} {term place : Nat} (enabled : s.enabled (.drain n term place)) :
    Terms (s.effect (.drain n term place)) := by
  refine ⟨terms.elected, terms.unique, ?_, ?_⟩
  · intro at' absent
    have distinct : at' ≠ term := fun same => absent (same ▸ terms.elected n term enabled.1)
    simpa [State.effect, distinct] using terms.fresh at' absent
  · intro at' undrained
    have distinct : at' ≠ term := by
      rintro rfl
      simp [State.effect] at undrained
    exact terms.before at' (by simpa [State.effect, distinct] using undrained)

theorem terms_step {action : Action ι} (met : orderly s action = true) (enabled : s.enabled action) (terms : Terms s) :
    Terms (s.effect action) := by
  have at' {s' : State ι} {n : ι} {node : Node} (nodes : s'.nodes = Function.update s.nodes n node)
      (leads : node.leads = (s.nodes n).leads) (elections : s'.elections = s.elections)
      (barriers : s'.barriers = s.barriers) (drained : s'.drained = s.drained)
      (log : ∀ term, s.drained term = false → s'.log term = s.log term) : Terms s' :=
    terms.keep (fun m => nodes ▸ update_leads leads m) elections barriers drained log
  have pushed {term : Nat} (drained : s.drained term = true) (item : Option Entry) (other : Nat)
      (undrained : s.drained other = false) : (s.push term item).log other = s.log other := by
    refine Function.update_of_ne ?_ ..
    rintro rfl
    simp [drained] at undrained
  cases action with
  | accept n id term transaction => exact at' rfl rfl rfl rfl rfl (pushed met _)
  | take n id base term transaction => exact at' rfl rfl rfl rfl rfl (pushed met _)
  | elect n term source length => exact terms.elect enabled
  | barrier n term => exact terms.barrier enabled
  | drain n term place => exact terms.drain enabled
  | stepDown n =>
    have leads (m : ι) (term : Nat) (leading : ((s.effect (.stepDown n)).nodes m).leads = some term) :
        (s.nodes m).leads = some term := by
      by_cases here : m = n
      · subst here
        simp [State.effect, State.setNode] at leading
      · simpa [State.effect, State.setNode, here] using leading
    exact ⟨fun m term leading => terms.elected m term (leads m term leading),
      fun m m' term leading leading' => terms.unique m m' term (leads m term leading) (leads m' term leading'),
      terms.fresh, terms.before⟩
  | dismiss | commit => exact terms.keep (fun _ => rfl) rfl rfl rfl fun _ _ => rfl
  | apply n e => exact at' rfl (apply_leads _ e) rfl rfl rfl fun _ _ => rfl
  | validate n e => exact at' rfl (validate_leads _ e) rfl rfl rfl fun _ _ => rfl
  | append n e via written => exact at' rfl (append_leads _ e via written) rfl rfl rfl fun _ _ => rfl
  | lock n | compute n | mark n | reject n | forward n | retry n | decline n | lose n | await n | resolve n
  | finish n | publish n | unlock n | serve id base n | check n | refuse n | settle n | release n | skip n | getLoan n
  | acquire n | store n | releaseOwn n | snapshot n | backup n => exact at' rfl rfl rfl rfl rfl fun _ _ => rfl

/-- How far the node has looked at its log. -/
def reach (pc : ApplyPc) (applied : Nat) : Nat := if (entry pc).isSome then applied + 1 else applied

theorem le_reach (pc : ApplyPc) (applied : Nat) : applied ≤ reach pc applied := by
  unfold reach
  split <;> omega

def awaits : Option Holder → Option (Nat × Nat)
  | some (.writer _ (.waiting term index)) | some (.handler _ _ (.waiting term index)) => some (term, index)
  | _ => none

structure Follows (log : Nat → List (Option Entry)) (drained : Nat → Bool) (committed : List (Option Entry))
    (leads : Option Nat) (lock : Option Holder) (pc : ApplyPc) (applied : Nat) : Prop where
  agrees : ∀ term, leads = some term → (log term).take (reach pc applied) = committed.take (reach pc applied)
  awaited : ∀ term, leads = some term → drained term = true →
    ∀ (j : Nat) (e : Entry), (log term)[j]? = some (some e) → applied ≤ j → awaits lock = some (term, j)

section
variable {log : Nat → List (Option Entry)} {drained : Nat → Bool} {committed : List (Option Entry)}
  {leads : Option Nat} {lock : Option Holder} {pc : ApplyPc} {applied : Nat}

/-- The holder stops waiting only for an entry that is applied or of a term that is over. -/
theorem Follows.setLock (follows : Follows log drained committed leads lock pc applied)
    (done : ∀ term index, awaits lock = some (term, index) → index < applied ∨ leads ≠ some term) (lock' : Option Holder) :
    Follows log drained committed leads lock' pc applied := by
  refine ⟨follows.agrees, fun term leading complete j e found later => ?_⟩
  rcases done term j (follows.awaited term leading complete j e found later) with past | ended
  · omega
  · exact absurd leading ended

theorem take_eq_of_le {α : Type} {left right : List α} {j k : Nat} (same : left.take k = right.take k) (inside : j ≤ k) :
    left.take j = right.take j := by
  have cut := congrArg (List.take j) same
  rwa [List.take_take, List.take_take, Nat.min_eq_left inside] at cut

theorem Follows.setPc (follows : Follows log drained committed leads lock pc applied) {pc' : ApplyPc} {applied' : Nat}
    (shorter : reach pc' applied' ≤ reach pc applied) (forth : applied ≤ applied') :
    Follows log drained committed leads lock pc' applied' where
  agrees := fun term leading => take_eq_of_le (follows.agrees term leading) shorter
  awaited := fun term leading complete j e found later =>
    follows.awaited term leading complete j e found (Nat.le_trans forth later)

private theorem Follows.hand (follows : Follows log drained committed leads lock pc applied) {item : Option Entry}
    (there : committed[applied]? = some item) (mine : ∀ term, leads = some term → (log term)[applied]? = some item)
    {pc' : ApplyPc} {applied' : Nat} (next : reach pc' applied' = applied + 1) (forth : applied ≤ applied') :
    Follows log drained committed leads lock pc' applied' where
  agrees := fun term leading => by
    rw [next, take_succ_eq there, take_succ_eq (mine term leading),
      take_eq_of_le (follows.agrees term leading) (le_reach pc applied)]
  awaited := fun term leading complete j e found later =>
    follows.awaited term leading complete j e found (Nat.le_trans forth later)

theorem Follows.commit (follows : Follows log drained committed leads lock pc applied) {committed' : List (Option Entry)}
    (grown : committed <+: committed') (inside : reach pc applied ≤ committed.length) :
    Follows log drained committed' leads lock pc applied where
  agrees := fun term leading => (follows.agrees term leading).trans (take_eq_of_grown grown inside).symm
  awaited := follows.awaited

theorem Follows.inside (follows : Follows log drained committed leads lock pc applied) {term : Nat}
    (leading : leads = some term) (inside : reach pc applied ≤ committed.length) : reach pc applied ≤ (log term).length := by
  have lengths := congrArg List.length (follows.agrees term leading)
  rw [List.length_take, List.length_take] at lengths
  omega

theorem Follows.other (follows : Follows log drained committed leads lock pc applied) {log' : Nat → List (Option Entry)}
    {drained' : Nat → Bool}
    (same : ∀ term, leads = some term → log' term = log term ∧ drained' term = drained term) :
    Follows log' drained' committed leads lock pc applied where
  agrees := fun term leading => by
    rw [(same term leading).1]
    exact follows.agrees term leading
  awaited := fun term leading complete => by
    rw [(same term leading).1]
    exact follows.awaited term leading ((same term leading).2 ▸ complete)

/-- Nothing that the leader has yet to apply is a transaction. -/
theorem Follows.quiet (follows : Follows log drained committed leads lock pc applied) {term : Nat}
    (leading : leads = some term) (complete : drained term = true) (waitless : awaits lock = none)
    (j : Nat) (e : Entry) (later : applied ≤ j) : (log term)[j]? ≠ some (some e) := by
  intro found
  cases waitless.symm.trans (follows.awaited term leading complete j e found later)

/-- The leader's raft takes an entry, for which the holder then waits, or one of its own. -/
theorem Follows.push (follows : Follows log drained committed leads lock pc applied) {term : Nat} {item : Option Entry}
    (leading : leads = some term) (inside : reach pc applied ≤ committed.length) {lock' : Option Holder}
    (waitless : ∀ e, item = some e →
      drained term = true ∧ awaits lock = none ∧ awaits lock' = some (term, (log term).length))
    (keeps : item = none → awaits lock' = awaits lock) :
    Follows (Function.update log term (log term ++ [item])) drained committed leads lock' pc applied where
  agrees := fun term' leading' => by
    cases leading.symm.trans leading'
    rw [Function.update_self, List.take_append_of_le_length (follows.inside leading inside)]
    exact follows.agrees term leading
  awaited := fun term' leading' complete j e found later => by
    cases leading.symm.trans leading'
    rw [Function.update_self] at found
    by_cases old : j < (log term).length
    · rw [List.getElem?_append_left old] at found
      cases item with
      | none =>
        rw [keeps rfl]
        exact follows.awaited term leading complete j e found later
      | some new =>
        obtain ⟨complete, idle, -⟩ := waitless new rfl
        exact absurd found (follows.quiet leading complete idle j e later)
    · rw [List.getElem?_append_right (Nat.le_of_not_lt old), List.getElem?_singleton] at found
      split at found
      · obtain ⟨-, -, waiting⟩ := waitless e (by simpa using found)
        have last : j = (log term).length := by omega
        rw [last]
        exact waiting
      · cases found

end

private theorem Local.reach_le {ι : Type} {committed : List (Option Entry)} {authors : Nat → Option (Author ι)} {node : Node}
    (local' : Local start committed authors node) : reach node.pc node.applied ≤ committed.length := by
  unfold reach
  split
  · obtain ⟨e, busy⟩ := Option.isSome_iff_exists.mp (by assumption)
    exact (List.getElem?_eq_some_iff.mp (local'.applied.busy e busy)).choose
  · exact local'.applied.reach

def Following (s : State ι) : Prop :=
  ∀ n, Follows s.log s.drained s.committed (s.nodes n).leads (s.nodes n).lock (s.nodes n).pc (s.nodes n).applied

theorem following_init {ι : Type} (start : Database Bytes) : Following (State.init start : State ι) :=
  fun _ => ⟨fun _ leads => (by cases leads), fun _ leads => by cases leads⟩

private theorem reach_append (node : Node) {e : Entry} {via : Via} {written : Nat}
    (appending : node.pc = .appending e via written) :
    reach (node.append e via written).pc (node.append e via written).applied = reach node.pc node.applied := by
  unfold Node.append
  split <;> simp [reach, entry, appending]

private theorem reach_validate (node : Node) {e : Entry} (loaned : node.pc = .loaned e) :
    reach (node.validate e).pc (node.validate e).applied ≤ reach node.pc node.applied := by
  have bound := le_reach node.pc node.applied
  unfold Node.validate
  split
  · dsimp only
    split
    · simp [reach, entry, loaned]
    · exact bound
  · exact bound

theorem following_step {action : Action ι} (everywhere : Everywhere start s) (terms : Terms s)
    (met : orderly s action = true) (enabled : s.enabled action) (following : Following s) : Following (s.effect action) := by
  have at' {s' : State ι} {n : ι} {node : Node} (nodes : s'.nodes = Function.update s.nodes n node)
      (log : s'.log = s.log) (drained : s'.drained = s.drained) (committed : s'.committed = s.committed)
      (self : Follows s.log s.drained s.committed node.leads node.lock node.pc node.applied) : Following s' := by
    intro m
    rw [nodes, log, drained, committed]
    by_cases here : m = n
    · subst here
      simpa using self
    · simpa [here] using following m
  have locks {n : ι} {holder : Option Holder} (held : s.holder n = holder) (waitless : awaits holder = none)
      (lock : Option Holder) :
      Follows s.log s.drained s.committed (s.nodes n).leads lock (s.nodes n).pc (s.nodes n).applied := by
    refine (following n).setLock (fun term index waiting => ?_) lock
    rw [show (s.nodes n).lock = holder from held, waitless] at waiting
    cases waiting
  have settles {n : ι} {holder : Option Holder} {id term index : Nat} {ok : Bool} (held : s.holder n = holder)
      (waiting : awaits holder = some (term, index)) (resolves : s.resolves n id term index ok) (lock : Option Holder) :
      Follows s.log s.drained s.committed (s.nodes n).leads lock (s.nodes n).pc (s.nodes n).applied := by
    refine (following n).setLock (fun term' index' waiting' => ?_) lock
    rw [show (s.nodes n).lock = holder from held, waiting] at waiting'
    cases waiting'
    cases ok with
    | true => exact .inl resolves.1
    | false => exact .inr resolves
  have hands {n : ι} {item : Option Entry} (handed : s.hands n item) {pc : ApplyPc} {applied : Nat}
      (next : reach pc applied = (s.nodes n).applied + 1) (forth : (s.nodes n).applied ≤ applied) :
      Follows s.log s.drained s.committed (s.nodes n).leads (s.nodes n).lock pc applied := by
    obtain ⟨-, there, mine⟩ := handed
    refine (following n).hand there (fun term leading => ?_) next forth
    simpa [leading] using mine
  have pushes {n : ι} {term : Nat} {item : Option Entry} {lock : Option Holder} {s' : State ι}
      (leading : (s.nodes n).leads = some term) (nodes : s'.nodes = Function.update s.nodes n { s.nodes n with lock := lock })
      (log : s'.log = Function.update s.log term (s.log term ++ [item])) (drained : s'.drained = s.drained)
      (committed : s'.committed = s.committed)
      (waitless : ∀ e, item = some e → s.drained term = true ∧ awaits (s.nodes n).lock = none ∧
        awaits lock = some (term, (s.log term).length))
      (keeps : item = none → awaits lock = awaits (s.nodes n).lock) : Following s' := by
    intro m
    rw [nodes, log, drained, committed]
    by_cases here : m = n
    · subst here
      simpa using (following m).push leading (Local.reach_le (everywhere m)) waitless keeps
    · simp only [Function.update_of_ne here]
      refine (following m).other fun term' leading' => ⟨Function.update_of_ne ?_ .., rfl⟩
      rintro rfl
      exact here (terms.unique m n term' leading' leading)
  cases action with
  | lock n => exact at' rfl rfl rfl rfl (locks enabled rfl _)
  | compute n | retry n | decline n | lose n => exact at' rfl rfl rfl rfl (locks enabled.1 rfl _)
  | mark n | reject n | forward n | await n => exact at' rfl rfl rfl rfl (locks enabled rfl _)
  | publish n => exact at' rfl rfl rfl rfl (locks enabled.1 rfl _)
  | finish n id ok => exact at' rfl rfl rfl rfl (locks enabled (by cases ok <;> rfl) _)
  | resolve n => exact at' rfl rfl rfl rfl (settles enabled.1 rfl enabled.2 _)
  | unlock n holder =>
    refine at' rfl rfl rfl rfl (locks enabled.1 ?_ _)
    have leaves := enabled.2
    cases holder with
    | writer id wpc => cases wpc <;> first | rfl | cases leaves
    | handler => cases leaves
    | _ => rfl
  | accept n id term transaction =>
    obtain ⟨held, leading, -⟩ := enabled
    refine pushes leading rfl rfl rfl rfl (fun e _ => ⟨met, ?_, rfl⟩) fun none => by cases none
    rw [show (s.nodes n).lock = _ from held]
    rfl
  | take n id base term transaction =>
    obtain ⟨held, leading, -⟩ := enabled
    refine pushes leading rfl rfl rfl rfl (fun e _ => ⟨met, ?_, rfl⟩) fun none => by cases none
    rw [show (s.nodes n).lock = _ from held]
    rfl
  | serve id base target => exact at' rfl rfl rfl rfl (locks enabled.2 rfl _)
  | dismiss => exact following
  | check n | refuse n => exact at' rfl rfl rfl rfl (locks enabled rfl _)
  | settle n => exact at' rfl rfl rfl rfl (settles enabled.1 rfl enabled.2 _)
  | release n id base taken => exact at' rfl rfl rfl rfl (locks enabled (by cases taken <;> rfl) _)
  | skip n =>
    have idle := enabled.1
    exact at' rfl rfl rfl rfl (hands enabled (by simp [reach, idle, entry]) (Nat.le_succ _))
  | apply n e =>
    have idle := enabled.1
    refine at' rfl rfl rfl rfl ?_
    unfold Node.apply
    split
    · exact hands enabled (by simp [reach, idle, entry]) (Nat.le_succ _)
    · exact hands enabled (by simp [reach, entry]) (Nat.le_refl _)
  | getLoan n e =>
    refine at' rfl rfl rfl rfl ((following n).setPc ?_ (Nat.le_refl _))
    rw [show (s.nodes n).pc = .missed e from enabled]
    dsimp only
    split <;> exact Nat.le_refl _
  | validate n e =>
    refine at' rfl rfl rfl rfl ?_
    rw [validate_lock, validate_leads]
    refine (following n).setPc (reach_validate _ enabled) (Nat.le_of_eq ?_)
    unfold Node.validate
    split <;> rfl
  | acquire n e =>
    refine at' rfl rfl rfl rfl ((locks enabled.2 rfl _).setPc ?_ (Nat.le_refl _))
    rw [enabled.1]
    exact Nat.le_refl _
  | append n e via written =>
    refine at' rfl rfl rfl rfl ?_
    rw [append_lock, append_leads]
    refine (following n).setPc (Nat.le_of_eq (reach_append _ enabled)) (Nat.le_of_eq ?_)
    unfold Node.append
    split <;> rfl
  | store n e via =>
    refine at' rfl rfl rfl rfl ((following n).setPc ?_ (Nat.le_succ _))
    rw [show (s.nodes n).pc = .appended e via from enabled]
    cases via <;> exact Nat.le_refl _
  | releaseOwn n =>
    have releasing : (s.nodes n).pc = .releasing := enabled
    have mine : (s.nodes n).lock = some .apply := Local.own (everywhere n) (by rw [releasing]; rfl)
    exact at' rfl rfl rfl rfl ((locks mine rfl _).setPc (le_reach ..) (Nat.le_refl _))
  | snapshot n => exact at' rfl rfl rfl rfl ((following n).setPc (le_reach ..) (Nat.le_refl _))
  | backup n => exact at' rfl rfl rfl rfl ((following n).setPc (le_reach ..) (Nat.le_refl _))
  | elect n term source length =>
    obtain ⟨-, later, -, kept⟩ := enabled
    intro m
    have reached := Local.reach_le (everywhere m)
    by_cases here : m = n
    · subst here
      refine ⟨fun term' leading => ?_, fun term' leading complete => ?_⟩
      · have same : term = term' := by simpa [State.effect, State.setNode] using leading
        subst same
        simpa [State.effect, State.setNode] using take_eq_of_grown kept reached
      · have same : term = term' := by simpa [State.effect, State.setNode] using leading
        subst same
        have undrained := (terms.fresh term fun member => Nat.lt_irrefl term (later term member)).2
        cases undrained.symm.trans complete
    · have same (term' : Nat) (leading : (s.nodes m).leads = some term') :
          Function.update s.log term ((s.log source).take length) term' = s.log term' ∧ s.drained term' = s.drained term' := by
        refine ⟨Function.update_of_ne ?_ .., rfl⟩
        rintro rfl
        exact Nat.lt_irrefl _ (later _ (terms.elected m _ leading))
      simpa [State.effect, State.setNode, here] using (following m).other same
  | stepDown n =>
    refine at' rfl rfl rfl rfl ⟨fun _ leading => ?_, fun _ leading => ?_⟩ <;> cases leading
  | barrier n term =>
    exact pushes enabled (by simp [State.effect, State.push]) rfl rfl rfl (fun e none => by cases none) fun _ => rfl
  | drain n term place =>
    obtain ⟨leading, member, past⟩ := enabled
    intro m
    refine ⟨(following m).agrees, fun term' leading' complete j e found later => ?_⟩
    by_cases known : s.drained term' = true
    · exact (following m).awaited term' leading' known j e found later
    · have same : term' = term := by
        by_contra distinct
        exact known (by simpa [State.effect, distinct] using complete)
      subst same
      cases terms.unique m n term' leading' leading
      have early := terms.before term' (by simpa using known) place member j e found
      exact absurd later (Nat.not_le_of_lt (Nat.lt_trans early past))
  | commit term length =>
    exact fun m => (following m).commit enabled.2.1 (Local.reach_le (everywhere m))

end Literaft.Proofs.Leaders
