import Literaft.Proofs.Leaders

/-! The database every transaction was computed from. A connection computes under its
node's write lock, and what it read stays the node's last word until raft takes the entry,
here or, after an equality test on two indices, on the leader. -/

namespace Literaft.Proofs.Bases
open Library Fsm Proto Cluster Tracking Visible Loans Leaders

variable {ι : Type} [DecidableEq ι] {start : Database Bytes} {s : State ι}

/-- A transaction that waits to be published belongs to the connection that holds the
lock, and its call has not failed. -/
def Owes (f : FSM Nat) (unpublished : List Nat) (lock : Option Holder) : Prop :=
  ∀ id ∈ unpublished, ∃ wpc, lock = some (.writer id wpc) ∧ (f.skipMarkers id = some .skipped ∨ wpc = .returned)

section
variable {f : FSM Nat} {unpublished : List Nat} {lock : Option Holder}

theorem Owes.nil (owes : Owes f unpublished lock) (nobody : ∀ id wpc, lock ≠ some (.writer id wpc)) : unpublished = [] := by
  refine List.eq_nil_iff_forall_not_mem.mpr fun id member => ?_
  obtain ⟨wpc, locked, -⟩ := owes id member
  exact nobody id wpc locked

theorem Owes.setLock (owes : Owes f unpublished lock) (nobody : ∀ id wpc, lock ≠ some (.writer id wpc)) (f' : FSM Nat)
    (lock' : Option Holder) : Owes f' unpublished lock' := by
  rw [owes.nil nobody]
  exact fun _ member => by cases member

theorem Owes.advance {id : Nat} {wpc wpc' : WriterPc} {f' : FSM Nat}
    (owes : Owes f unpublished (some (.writer id wpc)))
    (next : id ∈ unpublished → f.skipMarkers id = some .skipped ∨ wpc = .returned →
      f'.skipMarkers id = some .skipped ∨ wpc' = .returned) : Owes f' unpublished (some (.writer id wpc')) := by
  intro other member
  obtain ⟨wpc, locked, live⟩ := owes other member
  cases locked
  exact ⟨wpc', rfl, next member live⟩

theorem Owes.done {id : Nat} {wpc : WriterPc} {f' : FSM Nat} {lock' : Option Holder}
    (owes : Owes f unpublished (some (.writer id wpc))) (cleared : f.skipMarkers id ≠ some .skipped)
    (running : wpc ≠ .returned) : Owes f' unpublished lock' := by
  intro other member
  obtain ⟨wpc, locked, live⟩ := owes other member
  cases locked
  rcases live with skipped | returned
  · exact absurd skipped cleared
  · exact absurd returned running

end

private theorem owes_step {action : Action ι} (everywhere : Everywhere start s) (met : orderly s action = true)
    (enabled : s.enabled action) (owes : ∀ n, Owes (s.nodes n).fsm (s.nodes n).unpublished (s.nodes n).lock) (m : ι) :
    Owes ((s.effect action).nodes m).fsm ((s.effect action).nodes m).unpublished ((s.effect action).nodes m).lock := by
  have at' {s' : State ι} {n : ι} {node : Node} (nodes : s'.nodes = Function.update s.nodes n node)
      (self : Owes node.fsm node.unpublished node.lock) :
      Owes (s'.nodes m).fsm (s'.nodes m).unpublished (s'.nodes m).lock := by
    rw [nodes]
    by_cases here : m = n
    · subst here
      simpa using self
    · simpa [here] using owes m
  have writes {n : ι} {id : Nat} {wpc : WriterPc} (held : s.holder n = some (.writer id wpc)) :
      Owes (s.nodes n).fsm (s.nodes n).unpublished (some (.writer id wpc)) := held ▸ owes n
  have locks {n : ι} {holder : Option Holder} (held : s.holder n = holder)
      (nobody : ∀ id wpc, holder ≠ some (.writer id wpc)) (f : FSM Nat) (lock : Option Holder) :
      Owes f (s.nodes n).unpublished lock :=
    (owes n).setLock (fun id wpc locked => nobody id wpc (held.symm.trans locked)) f lock
  have apart {P : Prop} (wpc : WriterPc) (early : wpc ≠ .returned) (live : P ∨ wpc = .returned) : P :=
    live.resolve_right early
  cases action with
  | lock n => exact at' rfl (locks enabled (by simp) _ _)
  | compute n => exact at' rfl (locks enabled.1 (by simp) _ _)
  | mark n id =>
    obtain ⟨-, -, -, -, cleared, -⟩ := (everywhere n).writer enabled
    exact at' rfl ((writes enabled).done (by simp [cleared]) (by simp))
  | accept n | resolve n | retry n | decline n | lose n =>
    exact at' rfl ((writes enabled.1).advance fun _ live => .inl (apart _ (by simp) live))
  | reject n | forward n =>
    exact at' rfl ((writes enabled).advance fun _ live => .inl (apart _ (by simp) live))
  | await n id attempt base =>
    refine at' rfl ((writes enabled).advance fun _ live => .inl ?_)
    have skipped := apart _ (by simp) live
    simp [Node.await, FSM.expireSkipMarker, skipped]
  | finish n id ok =>
    cases ok with
    | true => exact at' rfl ((writes enabled).advance fun _ _ => .inr rfl)
    | false =>
      refine at' rfl ((writes enabled).done ?_ (by simp))
      simpa [orderly] using met
  | publish n id transaction =>
    refine at' rfl fun other member => ?_
    obtain ⟨member, distinct⟩ := List.mem_filter.mp member
    obtain ⟨wpc, locked, -⟩ := writes enabled.1 other member
    cases locked
    simp at distinct
  | unlock n holder =>
    obtain ⟨held, leaves⟩ := enabled
    cases holder with
    | writer id wpc =>
      obtain ⟨-, -, -, -, writing⟩ := (everywhere n).writer held
      cases wpc with
      | computed => exact at' rfl ((writes held).done (by simp [writing.1]) (by simp))
      | published | discarded =>
        have cleared : (s.nodes n).fsm.skipMarkers id = none := writing
        exact at' rfl ((writes held).done (by simp [cleared]) (by simp))
      | _ => cases leaves
    | _ => exact at' rfl (locks held (by simp) _ _)
  | serve id base target => exact at' rfl (locks enabled.2 (by simp) _ _)
  | dismiss | barrier | drain | commit => exact owes m
  | check n | refuse n | release n => exact at' rfl (locks enabled (by simp) _ _)
  | take n | settle n => exact at' rfl (locks enabled.1 (by simp) _ _)
  | apply n e =>
    refine at' rfl ?_
    rw [apply_lock]
    by_cases marked : (s.nodes n).fsm.skipMarkers e.id = some .pending
    · obtain ⟨wpc, locked⟩ := Local.marked (everywhere n) marked
      rw [locked]
      intro id member
      have mine : id = e.id := by
        have member : id = e.id ∨ id ∈ (s.nodes n).unpublished := by
          simpa [Node.apply, FSM.tryConsumeSkipMarker, marked] using member
        refine member.elim (fun same => same) fun old => ?_
        obtain ⟨wpc', locked', -⟩ := owes n id old
        cases locked.symm.trans locked'
        rfl
      subst mine
      exact ⟨wpc, rfl, .inl (by simp [Node.apply, FSM.tryConsumeSkipMarker, marked])⟩
    · simpa [Node.apply, FSM.tryConsumeSkipMarker, marked] using owes n
  | validate n e => exact at' rfl (by unfold Node.validate; split <;> exact owes n)
  | append n e via written => exact at' rfl (by unfold Node.append; split <;> exact owes n)
  | acquire n e => exact at' rfl (locks enabled.2 (by simp) _ _)
  | releaseOwn n =>
    have releasing : (s.nodes n).pc = .releasing := enabled
    exact at' rfl (locks (Local.own (everywhere n) (by rw [releasing]; rfl)) (by simp) _ _)
  | skip n | getLoan n | store n | snapshot n | backup n | elect n | stepDown n => exact at' rfl (owes n)

def From {ι : Type} (authors : Nat → Option (Author ι)) (id : Nat) (db : Database Bytes) : Prop :=
  ∃ author, authors id = some author ∧ author.base = db

/-- The transaction was computed from what the log gives up to the base index of its request. -/
def Reads {ι : Type} (start : Database Bytes) (committed : List (Option Entry)) (authors : Nat → Option (Author ι))
    (id base : Nat) : Prop :=
  base ≤ committed.length ∧ From authors id (settled start committed base)

/-- Raft may still take the holder's entry without a look at its base index. -/
def reading : Option Holder → Bool
  | some (.writer _ .computed) | some (.writer _ .marked) | some (.handler _ _ .checked) => true
  | _ => false

def Sourced {ι : Type} (start : Database Bytes) (committed : List (Option Entry)) (authors : Nat → Option (Author ι))
    (applied : Nat) : Option Holder → Prop
  | some (.writer id .computed) | some (.writer id .marked) | some (.handler id _ .checked) =>
    From authors id (settled start committed applied)
  | some (.writer id (.forwarding _ base)) | some (.handler id base .held) => Reads start committed authors id base
  | _ => True

section
variable {ι : Type} {committed committed' : List (Option Entry)} {authors authors' : Nat → Option (Author ι)}
  {applied : Nat} {lock : Option Holder}

theorem From.grow {id : Nat} {db : Database Bytes} (source : From authors id db)
    (more : ∀ id author, authors id = some author → authors' id = some author) : From authors' id db := by
  obtain ⟨author, known, base⟩ := source
  exact ⟨author, more id author known, base⟩

private theorem settled_grow (grown : committed <+: committed') {k : Nat} (inside : k ≤ committed.length) :
    settled start committed' k = settled start committed k := by
  rw [settled, settled, take_eq_of_grown grown inside]

theorem Reads.grow {id base : Nat} (reads : Reads start committed authors id base) (grown : committed <+: committed')
    (more : ∀ id author, authors id = some author → authors' id = some author) :
    Reads start committed' authors' id base := by
  refine ⟨Nat.le_trans reads.1 grown.length_le, ?_⟩
  rw [settled_grow grown reads.1]
  exact reads.2.grow more

theorem Sourced.grow (sourced : Sourced start committed authors applied lock) (grown : committed <+: committed')
    (inside : applied ≤ committed.length)
    (more : ∀ id author, authors id = some author → authors' id = some author) :
    Sourced start committed' authors' applied lock := by
  have same : settled start committed' applied = settled start committed applied := settled_grow grown inside
  unfold Sourced at sourced ⊢
  split
  · exact same ▸ sourced.grow more
  · exact same ▸ sourced.grow more
  · exact same ▸ sourced.grow more
  · exact sourced.grow grown more
  · exact sourced.grow grown more
  · trivial

theorem Sourced.advance (sourced : Sourced start committed authors applied lock) {applied' : Nat}
    (same : reading lock = true → settled start committed applied' = settled start committed applied) :
    Sourced start committed authors applied' lock := by
  unfold Sourced at sourced ⊢
  split
  · exact same rfl ▸ sourced
  · exact same rfl ▸ sourced
  · exact same rfl ▸ sourced
  · exact sourced
  · exact sourced
  · trivial

theorem settled_lastApplied {lastApplied : Nat} {pc : ApplyPc} {db : Database Bytes} {unpublished : List Nat}
    (before : Applied start committed authors lastApplied pc applied db unpublished) :
    lastApplied ≤ committed.length ∧ settled start committed lastApplied = settled start committed applied := by
  have bound : lastApplied ≤ applied := before.stored ▸ Nat.le_trans (lastChange_le _) (List.length_take_le ..)
  have stops : replay Entry.apply start ((committed.take applied).take (lastChange (committed.take applied))) =
      settled start committed applied := replay_take_lastChange _
  rw [← before.stored, List.take_take, Nat.min_eq_left bound] at stops
  exact ⟨Nat.le_trans bound before.reach, stops⟩

end

/-- While a connection reads, `Apply` has nothing half done and nothing waits to be
published, so it sees what the log gives. -/
theorem opened_db {ι : Type} {s : State ι} {n : ι} (everywhere : Everywhere start s) (lent : Lent (s.nodes n).lock (s.nodes n).pc)
    (owes : Owes (s.nodes n).fsm (s.nodes n).unpublished (s.nodes n).lock) (opened : s.holder n = some .opened) :
    (s.nodes n).db = settled start s.committed (s.nodes n).applied := by
  have locked : (s.nodes n).lock = some .opened := opened
  have nothing : (s.nodes n).unpublished = [] := owes.nil (by simp [locked])
  have guarded := lent.guarded (everywhere n)
  rw [(everywhere n).applied.shown nothing]
  rw [locked] at guarded
  cases pc : (s.nodes n).pc with
  | appended e via => cases via <;> simp [pc, Guarded] at guarded
  | _ => rfl

/-- `Apply` finishes no entry while raft may still take the holder's. -/
theorem not_reading {ι : Type} {s : State ι} {n : ι} {e : Entry} (tracked : Tracked s)
    (there : s.committed[(s.nodes n).applied]? = some (some e))
    (mine : ∀ holder, s.holder n = some holder → reading (some holder) = true →
      (∃ wpc, holder = .writer e.id wpc) ∨ ∃ base hpc, holder = .handler e.id base hpc) :
    reading (s.nodes n).lock = false := by
  obtain ⟨term, rest, log⟩ := tracked.covered
  have member : some e ∈ s.log term := log ▸ List.mem_append_left rest (List.mem_of_getElem? there)
  cases locked : (s.nodes n).lock with
  | none => rfl
  | some holder =>
    cases reads : reading (some holder) with
    | false => rfl
    | true =>
      have placed := tracked.placed n holder locked
      rcases mine holder locked reads with ⟨wpc, rfl⟩ | ⟨base, hpc, rfl⟩
      · cases wpc with
        | computed | marked => exact absurd rfl (placed.2.2 rfl term e member)
        | _ => cases reads
      · cases hpc with
        | checked => exact absurd rfl (placed.2 rfl term e member)
        | _ => cases reads

private theorem sourced_step {action : Action ι} (tracked : Tracked s) (everywhere : Everywhere start s)
    (lent : ∀ n, Lent (s.nodes n).lock (s.nodes n).pc)
    (owes : ∀ n, Owes (s.nodes n).fsm (s.nodes n).unpublished (s.nodes n).lock)
    (sent : ∀ id target base, s.requests id = .inFlight target base → Reads start s.committed s.authors id base)
    (enabled : s.enabled action)
    (sourced : ∀ n, Sourced start s.committed s.authors (s.nodes n).applied (s.nodes n).lock) (m : ι) :
    Sourced start (s.effect action).committed (s.effect action).authors ((s.effect action).nodes m).applied
      ((s.effect action).nodes m).lock := by
  have at' {s' : State ι} {n : ι} {node : Node} (nodes : s'.nodes = Function.update s.nodes n node)
      (committed : s'.committed = s.committed) (authors : s'.authors = s.authors)
      (self : Sourced start s.committed s.authors node.applied node.lock) :
      Sourced start s'.committed s'.authors (s'.nodes m).applied (s'.nodes m).lock := by
    rw [nodes, committed, authors]
    by_cases here : m = n
    · subst here
      simpa using self
    · simpa [here] using sourced m
  have holds {n : ι} {holder : Option Holder} (held : s.holder n = holder) :
      Sourced start s.committed s.authors (s.nodes n).applied holder := held ▸ sourced n
  cases action with
  | compute n id transaction =>
    obtain ⟨opened, fresh, -⟩ := enabled
    have grown (other : Nat) (old : Author ι) (known : s.authors other = some old) :
        (s.effect (.compute n id transaction)).authors other = some old := by
      show Function.update s.authors id _ other = some old
      rw [Function.update_of_ne ?_]
      · exact known
      · rintro rfl
        cases fresh.symm.trans known
    by_cases here : m = n
    · subst here
      have computed : From (s.effect (.compute m id transaction)).authors id (settled start s.committed (s.nodes m).applied) :=
        ⟨⟨m, (s.nodes m).db, transaction⟩, Function.update_self .., opened_db everywhere (lent m) (owes m) opened⟩
      simpa [State.effect, State.setLock, State.setNode, Sourced] using computed
    · simpa [State.effect, State.setLock, State.setNode, here] using
        (sourced m).grow List.prefix_rfl (everywhere m).applied.reach grown
  | mark n =>
    have computed := holds enabled
    exact at' rfl rfl rfl computed
  | forward n id target =>
    obtain ⟨author, known, base⟩ := holds enabled
    obtain ⟨inside, same⟩ := settled_lastApplied (everywhere n).applied
    exact at' rfl rfl rfl ⟨inside, author, known, base.trans same.symm⟩
  | retry n =>
    have reads := holds enabled.1
    exact at' rfl rfl rfl reads
  | serve id base target => exact at' rfl rfl rfl (sent id target base enabled.1)
  | check n id base =>
    obtain ⟨-, author, known, source⟩ := holds enabled
    refine at' rfl rfl rfl ?_
    dsimp only
    split
    · rename_i equal
      exact ⟨author, known, by rw [source, equal, (settled_lastApplied (everywhere n).applied).2]⟩
    · trivial
  | skip n => exact at' rfl rfl rfl ((sourced n).advance fun _ => settled_succ_none enabled.2.1)
  | apply n e =>
    refine at' rfl rfl rfl ?_
    rw [apply_lock]
    by_cases marked : (s.nodes n).fsm.skipMarkers e.id = some .pending
    · obtain ⟨wpc, locked⟩ := Local.marked (everywhere n) marked
      have quiet := not_reading tracked enabled.2.1 fun holder held _ => by
        cases locked.symm.trans held
        exact .inl ⟨wpc, rfl⟩
      exact (sourced n).advance fun reads => by simp [quiet] at reads
    · simpa [Node.apply, FSM.tryConsumeSkipMarker, marked] using sourced n
  | validate n e => exact at' rfl rfl rfl (by unfold Node.validate; split <;> exact sourced n)
  | append n e via written => exact at' rfl rfl rfl (by unfold Node.append; split <;> exact sourced n)
  | store n e via =>
    have appended : (s.nodes n).pc = .appended e via := enabled
    have guarded := (lent n).guarded (everywhere n)
    have quiet := not_reading tracked ((everywhere n).applied.busy e (by rw [appended]; rfl)) fun holder held reads => by
      rw [appended, show (s.nodes n).lock = some holder from held] at guarded
      cases via with
      | loan =>
        obtain ⟨base, hpc, same⟩ := guarded
        cases same
        exact .inr ⟨base, hpc, rfl⟩
      | own =>
        have same : some holder = some .apply := guarded
        cases same
        cases reads
    exact at' rfl rfl rfl ((sourced n).advance fun reads => by simp [quiet] at reads)
  | commit term length => exact (sourced m).grow enabled.2.1 (everywhere m).applied.reach fun _ _ known => known
  | dismiss | barrier | drain => exact sourced m
  | await n | resolve n => exact at' rfl rfl rfl (by dsimp only [Node.await]; split <;> trivial)
  | finish n id ok | settle n id base term index ok => exact at' rfl rfl rfl (by cases ok <;> trivial)
  | lock n | accept n | reject n | decline n | lose n | publish n | unlock n | take n | refuse n | release n | acquire n
  | releaseOwn n => exact at' rfl rfl rfl trivial
  | getLoan n | snapshot n | backup n | elect n | stepDown n => exact at' rfl rfl rfl (sourced n)

private theorem sent_step {action : Action ι} (everywhere : Everywhere start s) (enabled : s.enabled action)
    (sourced : ∀ n, Sourced start s.committed s.authors (s.nodes n).applied (s.nodes n).lock)
    (sent : ∀ id target base, s.requests id = .inFlight target base → Reads start s.committed s.authors id base)
    (id : Nat) (target : ι) (base : Nat) (asked : (s.effect action).requests id = .inFlight target base) :
    Reads start (s.effect action).committed (s.effect action).authors id base := by
  have sets {id' : Nat} {request : Request ι} (asked : Function.update s.requests id' request id = .inFlight target base)
      (new : request = .inFlight target base → Reads start s.committed s.authors id' base) :
      Reads start s.committed s.authors id base := by
    by_cases same : id = id'
    · subst same
      exact new (by simpa using asked)
    · exact sent id target base (by simpa [same] using asked)
  have holds {n : ι} {holder : Option Holder} (held : s.holder n = holder) :
      Sourced start s.committed s.authors (s.nodes n).applied holder := held ▸ sourced n
  cases action with
  | forward n id' target' =>
    refine sets asked fun same => ?_
    cases same
    obtain ⟨author, known, source⟩ := holds enabled
    obtain ⟨inside, same⟩ := settled_lastApplied (everywhere n).applied
    exact ⟨inside, author, known, source.trans same.symm⟩
  | retry n id' base' target' =>
    refine sets asked fun same => ?_
    cases same
    exact holds enabled.1
  | lose | serve | dismiss | release => exact sets asked fun same => by cases same
  | compute n id' transaction =>
    refine (sent id target base asked).grow List.prefix_rfl fun other author known => ?_
    show Function.update s.authors id' _ other = some author
    rw [Function.update_of_ne ?_]
    · exact known
    · rintro rfl
      cases enabled.2.1.symm.trans known
  | commit term length => exact (sent id target base asked).grow enabled.2.1 fun _ _ known => known
  | _ => exact sent id target base asked

/-- A leader whose barrier has completed and whose lock is held by nobody who waits for
raft has applied every transaction of its log. -/
theorem leader_replay {ι : Type} {s : State ι} {n : ι} {term : Nat} (following : Following s)
    (leading : (s.nodes n).leads = some term) (complete : s.drained term = true) (waitless : awaits (s.nodes n).lock = none) :
    replay Entry.apply start (s.log term) = settled start s.committed (s.nodes n).applied := by
  have quiet : replay Entry.apply start ((s.log term).take (s.nodes n).applied) = replay Entry.apply start (s.log term) :=
    replay_take_of_none fun j e later => (following n).quiet leading complete waitless j e later
  rw [← quiet, settled, take_eq_of_le ((following n).agrees term leading) (le_reach ..)]

private theorem chained_step {action : Action ι} (following : Following s) (met : orderly s action = true)
    (enabled : s.enabled action)
    (sourced : ∀ n, Sourced start s.committed s.authors (s.nodes n).applied (s.nodes n).lock)
    (chained : ∀ term, Chained Entry.apply start (fun e => From s.authors e.id) (s.log term)) (term : Nat) :
    Chained Entry.apply start (fun e => From (s.effect action).authors e.id) ((s.effect action).log term) := by
  have pushes {at' : Nat} {item : Option Entry}
      (computed : ∀ e, item = some e → From s.authors e.id (replay Entry.apply start (s.log at'))) :
      Chained Entry.apply start (fun e => From s.authors e.id) ((s.push at' item).log term) := by
    by_cases here : term = at'
    · subst here
      simpa [State.push] using (chained term).append computed
    · simpa [State.push, here] using chained term
  have takes {n : ι} {at' : Nat} {id : Nat} {holder : Holder} (held : s.holder n = some holder)
      (source : Sourced start s.committed s.authors (s.nodes n).applied (some holder) →
        From s.authors id (settled start s.committed (s.nodes n).applied))
      (waitless : awaits (some holder) = none) (leading : (s.nodes n).leads = some at') (complete : s.drained at' = true) :
      From s.authors id (replay Entry.apply start (s.log at')) := by
    have locked : (s.nodes n).lock = some holder := held
    rw [leader_replay following leading complete (locked ▸ waitless)]
    exact source (locked ▸ sourced n)
  cases action with
  | compute n id transaction =>
    refine (chained term).mono fun e db source => source.grow fun other author known => ?_
    show Function.update s.authors id _ other = some author
    rw [Function.update_of_ne ?_]
    · exact known
    · rintro rfl
      cases enabled.2.1.symm.trans known
  | accept n id at' transaction =>
    refine pushes fun e same => ?_
    cases same
    exact takes enabled.1 (fun source => source) rfl enabled.2.1 met
  | take n id base at' transaction =>
    refine pushes fun e same => ?_
    cases same
    exact takes enabled.1 (fun source => source) rfl enabled.2.1 met
  | barrier n at' => exact pushes fun e same => by cases same
  | elect n at' source length =>
    by_cases here : term = at'
    · subst here
      simpa [State.effect, State.setNode] using (chained source).earlier (List.take_prefix length _)
    · simpa [State.effect, State.setNode, here] using chained term
  | _ => exact chained term

structure Based (start : Database Bytes) (s : State ι) : Prop where
  lent : ∀ n, Lent (s.nodes n).lock (s.nodes n).pc
  terms : Terms s
  following : Following s
  owes : ∀ n, Owes (s.nodes n).fsm (s.nodes n).unpublished (s.nodes n).lock
  sourced : ∀ n, Sourced start s.committed s.authors (s.nodes n).applied (s.nodes n).lock
  sent : ∀ id target base, s.requests id = .inFlight target base → Reads start s.committed s.authors id base
  chained : ∀ term, Chained Entry.apply start (fun e => From s.authors e.id) (s.log term)

private theorem based_init {ι : Type} (start : Database Bytes) : Based start (State.init start : State ι) where
  lent := fun _ => .of_none rfl (by simp [State.init])
  terms := terms_init start
  following := following_init start
  owes := fun _ _ member => by cases member
  sourced := fun _ => trivial
  sent := fun _ _ _ asked => by cases asked
  chained := fun _ _ _ found => by cases found

private theorem based_step {action : Action ι} (tracked : Tracked s) (everywhere : Everywhere start s)
    (met : (orderly s action && unhurried s action) = true) (enabled : s.enabled action) (based : Based start s) :
    Based start (s.effect action) := by
  obtain ⟨orderly, unhurried⟩ := Bool.and_eq_true_iff.mp met
  exact ⟨lent_step everywhere unhurried enabled based.lent, terms_step orderly enabled based.terms,
    following_step everywhere based.terms orderly enabled based.following, owes_step everywhere orderly enabled based.owes,
    sourced_step tracked everywhere based.lent based.owes based.sent enabled based.sourced,
    sent_step everywhere enabled based.sourced based.sent,
    chained_step based.following orderly enabled based.sourced based.chained⟩

/-- In a run in which raft takes entries only after the barrier of the term, calls with a
consumed marker do not fail, and no handler releases while `Apply` uses its loan, every
committed transaction was computed from what the transactions before it give. -/
theorem committed_based {actions : List (Action ι)}
    (executed : exec (restrict (fun s action => orderly s action && unhurried s action) State.step) (State.init start)
      actions = some s)
    {i : Nat} {e : Entry} (there : s.committed[i]? = some (some e)) :
    ∃ author, s.authors e.id = some author ∧ author.base = replay Entry.apply start (s.committed.take i) := by
  obtain ⟨tracked, -, based⟩ := exec_everywhere (Based start) (based_init start)
    (fun tracked everywhere met enabled based => based_step tracked everywhere met enabled based) executed
  obtain ⟨term, covered⟩ := tracked.covered
  exact (based.chained term).earlier covered i e there

def rewrite : LogEntryTransaction := ⟨[⟨1, [2]⟩], 1⟩

/-- Node `false` leads term 1, drains, and takes entry 1 from node `true`. -/
def forwarded : List (Action Bool) :=
  [.elect false 1 0 0, .barrier false 1, .commit 1 1, .skip false, .drain false 1 0, .lock true, .compute true 1 write,
    .mark true 1, .forward true 1 false, .serve 1 0 false, .check false 1 0, .take false 1 0 1 write]

/-- Both nodes apply it, and then node `false` proposes entry 2 itself. -/
def sequel : List (Action Bool) :=
  [.commit 1 2, .apply false ⟨1, write⟩, .getLoan false ⟨1, write⟩, .validate false ⟨1, write⟩,
    .append false ⟨1, write⟩ .loan 0, .store false ⟨1, write⟩ .loan, .settle false 1 0 1 1 true, .release false 1 0 true,
    .lock false, .compute false 2 rewrite, .mark false 2, .accept false 2 1 rewrite, .commit 1 3]

theorem sequel_based :
    ∃ s, exec (restrict (fun s action => orderly s action && unhurried s action) State.step) (State.init empty)
        (forwarded ++ sequel) = some s ∧ s.committed = [none, some ⟨1, write⟩, some ⟨2, rewrite⟩] ∧
      ∃ author, s.authors 2 = some author ∧ author.base = replay Entry.apply empty (s.committed.take 2) := by
  have found : (exec (restrict (fun s action => orderly s action && unhurried s action) State.step) (State.init empty)
      (forwarded ++ sequel)).map (fun s => s.committed) = some [none, some ⟨1, write⟩, some ⟨2, rewrite⟩] := rfl
  obtain ⟨s, executed, committed⟩ := Option.map_eq_some_iff.mp found
  exact ⟨s, executed, committed, committed_based executed (e := ⟨2, rewrite⟩) (by rw [committed]; rfl)⟩

/-- Node `false` steps down; node `true` leads term 2, drains and publishes entry 1. -/
def succeeded : List (Action Bool) :=
  [.stepDown false, .elect true 2 1 2, .barrier true 2, .commit 2 3, .skip true, .apply true ⟨1, write⟩, .skip true,
    .drain true 2 2, .await true 1 0 0, .finish true 1 true, .publish true 1 write, .unlock true (.writer 1 .published)]

/-- On node `false` the handler releases after `Apply` has checked its loan, and a
connection takes the lock and computes entry 2 before `Apply` writes entry 1. -/
def interrupted : List (Action Bool) :=
  [.apply false ⟨1, write⟩, .getLoan false ⟨1, write⟩, .validate false ⟨1, write⟩,
    .settle false 1 0 1 1 false, .release false 1 0 true, .lock false, .compute false 2 rewrite,
    .append false ⟨1, write⟩ .loan 0, .store false ⟨1, write⟩ .loan]

/-- Its base index is now that of entry 1, so the leader takes it. -/
def stale : List (Action Bool) :=
  [.mark false 2, .forward false 2 true, .serve 2 2 true, .check true 2 2, .take true 2 2 2 rewrite, .commit 2 4]

/-- Entry 2 is committed above entry 1, which it was computed without. -/
theorem stale_committed :
    ∃ s, exec (restrict (orderly · ·) State.step) (State.init empty) (forwarded ++ succeeded ++ interrupted ++ stale) = some s ∧
      s.committed = [none, some ⟨1, write⟩, none, some ⟨2, rewrite⟩] ∧
      ¬∃ author, s.authors 2 = some author ∧ author.base = replay Entry.apply empty (s.committed.take 3) := by
  have found : (exec (restrict (orderly · ·) State.step) (State.init empty)
      (forwarded ++ succeeded ++ interrupted ++ stale)).map
        (fun s => (s.committed, (s.authors 2).map fun author => author.base.size)) =
      some ([none, some ⟨1, write⟩, none, some ⟨2, rewrite⟩], some 0) := rfl
  obtain ⟨s, executed, summary⟩ := Option.map_eq_some_iff.mp found
  obtain ⟨committed, size⟩ := Prod.mk.inj summary
  refine ⟨s, executed, committed, ?_⟩
  rintro ⟨author, known, base⟩
  rw [committed] at base
  simp only [known, Option.map_some, base, Option.some.injEq] at size
  exact absurd size (by decide)

end Literaft.Proofs.Bases
