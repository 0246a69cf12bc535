import Literaft.Proofs.Tracking

/-! What a node shows at every moment: the database its log gives up to the entry its
state machine is done with, but for a transaction of its own that it has yet to publish. -/

namespace Literaft.Proofs.Visible
open Library Fsm Proto Cluster Tracking

def entry : ApplyPc → Option Entry
  | .missed e | .loaned e | .acquiring e | .appending e _ _ | .appended e _ => some e
  | _ => none

def owns : ApplyPc → Bool
  | .appending _ .own _ | .appended _ .own | .releasing => true
  | _ => false

def loan : ApplyPc → Option Entry
  | .loaned e | .appending e .loan _ | .appended e .loan => some e
  | _ => none

private theorem entry_of_loan {pc : ApplyPc} {e : Entry} (lent : loan pc = some e) : entry pc = some e := by
  cases pc with
  | appending e' via written => cases via <;> first | exact lent | cases lent
  | appended e' via => cases via <;> first | exact lent | cases lent
  | loaned => exact lent
  | _ => cases lent

/-- A marker that a running call may find: not consumed, or consumed with the transaction
still to be published. -/
def Live (unpublished : List Nat) (id : Nat) (marker : Option SkipMarkerState) : Prop :=
  marker = some .pending ∧ id ∉ unpublished ∨ marker = some .skipped ∧ id ∈ unpublished

def Writing (committed : List (Option Entry)) (applied : Nat) (unpublished : List Nat) (id : Nat)
    (marker : Option SkipMarkerState) : WriterPc → Prop
  | .computed => marker = none ∧ id ∉ unpublished
  | .marked => marker = some .pending ∧ id ∉ unpublished
  | .waiting _ _ => Live unpublished id marker ∧
      (marker = some .pending → ∀ (j : Nat) (e : Entry), j < applied → committed[j]? = some (some e) → e.id ≠ id)
  | .forwarding _ _ => Live unpublished id marker
  | .succeeded => marker = some .skipped ∧ id ∈ unpublished
  | .failed => Live unpublished id marker ∨ marker = some .abandoned
  | .returned => marker = none ∧ id ∈ unpublished
  | .published | .discarded => marker = none

/-- What the holder of a node's lock says about markers, loans and `Apply`. -/
def Held (committed : List (Option Entry)) (applied : Nat) (unpublished : List Nat) (f : FSM Nat) (pc : ApplyPc) :
    Option Holder → Prop
  | none | some .opened => (∀ id, f.skipMarkers id = none) ∧ (∀ id, f.loans id = false) ∧ owns pc = false
  | some .apply => (∀ id, f.skipMarkers id = none) ∧ ∀ id, f.loans id = false
  | some (.handler id _ _) =>
    (∀ id, f.skipMarkers id = none) ∧ (∀ other, other ≠ id → f.loans other = false) ∧ owns pc = false
  | some (.writer id wpc) =>
    (∀ other, other ≠ id → f.skipMarkers other = none) ∧ (∀ id, f.loans id = false) ∧ owns pc = false ∧
      (∀ e, loan pc = some e → e.id ≠ id) ∧ Writing committed applied unpublished id (f.skipMarkers id) wpc

/-- The database after the first `applied` entries of the log. -/
def settled (start : Database Bytes) (committed : List (Option Entry)) (applied : Nat) : Database Bytes :=
  replay Entry.apply start (committed.take applied)

def shows (start : Database Bytes) (committed : List (Option Entry)) (applied : Nat) : ApplyPc → Database Bytes
  | .appended e _ => Entry.apply (settled start committed applied) e
  | _ => settled start committed applied

structure Applied {ι : Type} (start : Database Bytes) (committed : List (Option Entry))
    (authors : Nat → Option (Author ι)) (lastApplied : Nat) (pc : ApplyPc) (applied : Nat) (db : Database Bytes)
    (unpublished : List Nat) : Prop where
  busy : ∀ e, entry pc = some e → committed[applied]? = some (some e)
  reach : applied ≤ committed.length
  stored : lastApplied = lastChange (committed.take applied)
  header : ∀ index, pc = .snapshotting index → index = lastApplied
  shown : unpublished = [] → db = shows start committed applied pc
  known : ∀ id ∈ unpublished, ∃ author, authors id = some author
  nodup : unpublished.Nodup

/-- A transaction that alone waits to be published is all that is missing. -/
def Pending {ι : Type} (start : Database Bytes) (committed : List (Option Entry)) (authors : Nat → Option (Author ι))
    (lock : Option Holder) (pc : ApplyPc) (applied : Nat) (db : Database Bytes) (unpublished : List Nat) : Prop :=
  ∀ id wpc, lock = some (.writer id wpc) → unpublished = [id] → loan pc = none ∧
    ∃ author, authors id = some author ∧ settled start committed applied = Entry.apply db ⟨id, author.transaction⟩

structure Local {ι : Type} (start : Database Bytes) (committed : List (Option Entry))
    (authors : Nat → Option (Author ι)) (node : Node) : Prop where
  held : Held committed node.applied node.unpublished node.fsm node.pc node.lock
  applied : Applied start committed authors node.fsm.lastApplied node.pc node.applied node.db node.unpublished
  pending : Pending start committed authors node.lock node.pc node.applied node.db node.unpublished

section
variable {ι : Type} {start : Database Bytes} {committed : List (Option Entry)} {authors : Nat → Option (Author ι)}
  {node : Node}

theorem Local.grow (local' : Local start committed authors node) {committed' : List (Option Entry)}
    (grown : committed <+: committed') {authors' : Nat → Option (Author ι)}
    (more : ∀ id author, authors id = some author → authors' id = some author) :
    Local start committed' authors' node := by
  have inside := local'.applied.reach
  have same := take_eq_of_grown grown inside
  have settled_same : settled start committed' node.applied = settled start committed node.applied := by
    rw [settled, settled, same]
  have found {j : Nat} {item : Option Entry} (before : j < committed.length) :
      committed'[j]? = some item ↔ committed[j]? = some item := by
    obtain ⟨rest, rfl⟩ := grown
    rw [List.getElem?_append_left before]
  refine ⟨?_, ⟨?_, ?_, ?_, local'.applied.header, ?_, ?_, local'.applied.nodup⟩, ?_⟩
  · have held := local'.held
    generalize node.lock = lock at held ⊢
    match lock, held with
    | none, held | some .opened, held | some .apply, held | some (.handler _ _ _), held => exact held
    | some (.writer id wpc), ⟨markers, loans, free, other, writing⟩ =>
      refine ⟨markers, loans, free, other, ?_⟩
      cases wpc with
      | waiting term index =>
        exact ⟨writing.1, fun pending j e before there =>
          writing.2 pending j e before ((found (Nat.lt_of_lt_of_le before inside)).mp there)⟩
      | _ => exact writing
  · intro e working
    have there := local'.applied.busy e working
    exact (found (List.getElem?_eq_some_iff.mp there).choose).mpr there
  · exact Nat.le_trans inside grown.length_le
  · rw [same]
    exact local'.applied.stored
  · intro nothing
    rw [local'.applied.shown nothing]
    cases node.pc <;> simp [shows, settled_same]
  · intro id member
    obtain ⟨author, known⟩ := local'.applied.known id member
    exact ⟨author, more id author known⟩
  · intro id wpc locked only
    obtain ⟨quiet, author, known, missing⟩ := local'.pending id wpc locked only
    exact ⟨quiet, author, more id author known, settled_same.trans missing⟩

theorem Pending.none' {pc : ApplyPc} {applied : Nat} {db : Database Bytes} {unpublished : List Nat}
    {lock : Option Holder} (nobody : ∀ id wpc, lock ≠ some (.writer id wpc)) :
    Pending start committed authors lock pc applied db unpublished :=
  fun id wpc locked => absurd locked (nobody id wpc)

theorem Local.writer {id : Nat} {wpc : WriterPc} (local' : Local start committed authors node)
    (locked : node.lock = some (.writer id wpc)) :
    Held committed node.applied node.unpublished node.fsm node.pc (some (.writer id wpc)) :=
  locked ▸ local'.held

/-- The connection that holds the lock goes on, perhaps with another marker. -/
theorem Local.advance {id : Nat} {wpc wpc' : WriterPc} (local' : Local start committed authors node)
    (locked : node.lock = some (.writer id wpc)) {f : FSM Nat} (lastApplied : f.lastApplied = node.fsm.lastApplied)
    (loans : f.loans = node.fsm.loans) (others : ∀ other, other ≠ id → f.skipMarkers other = node.fsm.skipMarkers other)
    (writing : Writing committed node.applied node.unpublished id (node.fsm.skipMarkers id) wpc →
      Writing committed node.applied node.unpublished id (f.skipMarkers id) wpc') :
    Local start committed authors { node with fsm := f, lock := some (.writer id wpc') } := by
  obtain ⟨markers, lent, free, other, written⟩ := local'.writer locked
  refine ⟨⟨fun other distinct => ?_, loans ▸ lent, free, other, writing written⟩, ?_, ?_⟩
  · rw [others other distinct]
    exact markers other distinct
  · simpa only [lastApplied] using local'.applied
  · intro id' wpc' here only
    cases here
    exact local'.pending id wpc locked only

theorem Local.lock (local' : Local start committed authors node) (free : node.lock = none) :
    Local start committed authors { node with lock := some .opened } := by
  have held := local'.held
  rw [free] at held
  exact ⟨held, local'.applied, .none' (by simp)⟩

theorem Local.compute (local' : Local start committed authors node) {id : Nat}
    (opened : node.lock = some .opened) (fresh : authors id = none)
    (known : ∀ e, some e ∈ committed → ∃ author, authors e.id = some author) :
    Local start committed authors { node with lock := some (.writer id .computed) } := by
  have held := local'.held
  rw [opened] at held
  obtain ⟨markers, loans, free⟩ := held
  have unknown : id ∉ node.unpublished := by
    intro member
    obtain ⟨author, found⟩ := local'.applied.known id member
    cases fresh.symm.trans found
  refine ⟨⟨fun other _ => markers other, loans, free, ?_, markers id, unknown⟩, local'.applied, ?_⟩
  · rintro e lent rfl
    have there := local'.applied.busy e (entry_of_loan lent)
    obtain ⟨author, found⟩ := known e (List.mem_of_getElem? there)
    cases fresh.symm.trans found
  · intro id' wpc locked only
    cases locked
    exact absurd (only ▸ List.mem_singleton_self id) unknown

private theorem eq_singleton {ids : List Nat} {id : Nat} (nodup : ids.Nodup) (member : id ∈ ids)
    (nothing : ids.filter (· ≠ id) = []) : ids = [id] := by
  have all (other : Nat) (inside : other ∈ ids) : other = id := by
    simpa using List.filter_eq_nil_iff.mp nothing other inside
  cases ids with
  | nil => cases member
  | cons first rest =>
    obtain rfl := all first List.mem_cons_self
    cases rest with
    | nil => rfl
    | cons second rest =>
      obtain rfl := all second (by simp)
      simp at nodup

theorem Local.publish (local' : Local start committed authors node) {id : Nat} {author : Author ι}
    (locked : node.lock = some (.writer id .returned)) (known : authors id = some author) :
    Local start committed authors (node.publish id author.transaction) := by
  obtain ⟨markers, loans, free, other, cleared, member⟩ := local'.writer locked
  have gone : id ∉ node.unpublished.filter (· ≠ id) := by simp
  refine ⟨⟨markers, loans, free, other, cleared⟩, ⟨local'.applied.busy, local'.applied.reach, local'.applied.stored,
    local'.applied.header, ?_, ?_, local'.applied.nodup.filter _⟩, ?_⟩
  · intro nothing
    have only : node.unpublished = [id] := eq_singleton local'.applied.nodup member nothing
    obtain ⟨quiet, author', known', missing⟩ := local'.pending id .returned locked only
    cases known.symm.trans known'
    show Entry.apply node.db ⟨id, author.transaction⟩ = shows start committed node.applied node.pc
    rw [← missing]
    cases pc : node.pc with
    | appended e via => cases via <;> simp [pc, loan, owns] at quiet free
    | _ => rfl
  · exact fun other member => local'.applied.known other (List.mem_filter.mp member).1
  · intro id' wpc here only
    cases here
    have member : id ∈ (node.publish id author.transaction).unpublished := by simp [only]
    exact absurd member gone

theorem Local.unlock (local' : Local start committed authors node) {holder : Holder}
    (locked : node.lock = some holder) (leaves : holder.leaves = true) :
    Local start committed authors { node with lock := none } := by
  have held := local'.held
  rw [locked] at held
  refine ⟨?_, local'.applied, .none' (by simp)⟩
  have unmarked {id : Nat} (others : ∀ other, other ≠ id → node.fsm.skipMarkers other = none)
      (cleared : node.fsm.skipMarkers id = none) (other : Nat) : node.fsm.skipMarkers other = none := by
    by_cases same : other = id
    · rw [same]
      exact cleared
    · exact others other same
  cases holder with
  | opened => exact held
  | apply | handler => cases leaves
  | writer id wpc =>
    obtain ⟨markers, loans, free, -, writing⟩ := held
    cases wpc with
    | computed => exact ⟨unmarked markers writing.1, loans, free⟩
    | published | discarded => exact ⟨unmarked markers writing, loans, free⟩
    | _ => cases leaves

theorem Local.serve (local' : Local start committed authors node) (id base : Nat) (free : node.lock = none) :
    Local start committed authors { node with lock := some (.handler id base .held), fsm := node.fsm.lend id } := by
  have held := local'.held
  rw [free] at held
  refine ⟨⟨held.1, fun other distinct => ?_, held.2.2⟩, local'.applied, .none' (by simp)⟩
  simpa [FSM.lend, distinct] using held.2.1 other

theorem Local.handler (local' : Local start committed authors node) {id base : Nat} {hpc : HandlerPc}
    (locked : node.lock = some (.handler id base hpc)) (hpc' : HandlerPc) :
    Local start committed authors { node with lock := some (.handler id base hpc') } := by
  have held := local'.held
  rw [locked] at held
  exact ⟨held, local'.applied, .none' (by simp)⟩

theorem Local.release (local' : Local start committed authors node) {id base : Nat} {hpc : HandlerPc}
    (locked : node.lock = some (.handler id base hpc)) :
    Local start committed authors { node with lock := none, fsm := node.fsm.endLoan id } := by
  have held := local'.held
  rw [locked] at held
  refine ⟨⟨held.1, fun other => ?_, held.2.2⟩, local'.applied, .none' (by simp)⟩
  by_cases same : other = id
  · simp [FSM.endLoan, same]
  · simpa [FSM.endLoan, same] using held.2.1 other same

/-- `Apply` is done with entry `item`, and the markers are as they were. -/
theorem Held.advance {applied : Nat} {unpublished : List Nat} {f : FSM Nat} {pc pc' : ApplyPc} {lock : Option Holder}
    {item : Option Entry} (held : Held committed applied unpublished f pc lock) {index : Nat}
    (there : committed[applied]? = some item) (free : owns pc = false → owns pc' = false) (idle : loan pc' = none)
    (foreign : ∀ e id wpc, item = some e → lock = some (.writer id wpc) → e.id ≠ id) :
    Held committed (applied + 1) unpublished (f.store index) pc' lock := by
  match lock, held with
  | none, held | some .opened, held => exact ⟨held.1, held.2.1, free held.2.2⟩
  | some .apply, held => exact held
  | some (.handler _ _ _), held => exact ⟨held.1, held.2.1, free held.2.2⟩
  | some (.writer id wpc), ⟨markers, loans, own, other, writing⟩ =>
    refine ⟨markers, loans, free own, fun e lent => ?_, ?_⟩
    · simp [idle] at lent
    · cases wpc with
      | waiting term index =>
        refine ⟨writing.1, fun pending j e before found => ?_⟩
        rcases Nat.lt_succ_iff_lt_or_eq.mp before with before | rfl
        · exact writing.2 pending j e before found
        · cases there.symm.trans found
          exact foreign e id _ rfl rfl
      | _ => exact writing

theorem settled_succ_none {applied : Nat} (there : committed[applied]? = some none) :
    settled start committed (applied + 1) = settled start committed applied := by
  rw [settled, settled, take_succ_eq there, replay_append_none]

private theorem settled_succ_some {applied : Nat} {e : Entry} (there : committed[applied]? = some (some e)) :
    settled start committed (applied + 1) = Entry.apply (settled start committed applied) e := by
  rw [settled, settled, take_succ_eq there, replay_append_some]

private theorem lastChange_succ {applied : Nat} {e : Entry} (there : committed[applied]? = some (some e)) :
    lastChange (committed.take (applied + 1)) = applied + 1 := by
  have inside : applied < committed.length := (List.getElem?_eq_some_iff.mp there).choose
  rw [take_succ_eq there, lastChange_append_some, List.length_take, Nat.min_eq_left (Nat.le_of_lt inside)]

theorem Local.skip (local' : Local start committed authors node) (idle : node.pc = .idle)
    (there : committed[node.applied]? = some none) :
    Local start committed authors { node with applied := node.applied + 1 } := by
  have inside : node.applied < committed.length := (List.getElem?_eq_some_iff.mp there).choose
  refine ⟨?_, ⟨?_, inside, ?_, local'.applied.header, ?_, local'.applied.known, local'.applied.nodup⟩, ?_⟩
  · exact local'.held.advance there (fun free => free) (by simp [idle, loan]) (by simp)
  · simp [idle, entry]
  · rw [take_succ_eq there, lastChange_append_none]
    exact local'.applied.stored
  · intro nothing
    rw [local'.applied.shown nothing]
    simp [idle, shows, settled_succ_none there]
  · intro id wpc locked only
    rw [settled_succ_none there]
    exact local'.pending id wpc locked only

theorem Held.setPc {applied : Nat} {unpublished : List Nat} {f : FSM Nat} {pc pc' : ApplyPc} {lock : Option Holder}
    (held : Held committed applied unpublished f pc lock) (free : owns pc = false → owns pc' = false)
    (lent : ∀ e id wpc, lock = some (.writer id wpc) → loan pc' = some e → loan pc = some e) :
    Held committed applied unpublished f pc' lock := by
  match lock, held with
  | none, held | some .opened, held => exact ⟨held.1, held.2.1, free held.2.2⟩
  | some .apply, held => exact held
  | some (.handler _ _ _), held => exact ⟨held.1, held.2.1, free held.2.2⟩
  | some (.writer id wpc), ⟨markers, loans, own, other, writing⟩ =>
    exact ⟨markers, loans, free own, fun e found => other e (lent e id wpc rfl found), writing⟩

theorem Applied.setPc {lastApplied applied : Nat} {pc pc' : ApplyPc} {db : Database Bytes} {unpublished : List Nat}
    (before : Applied start committed authors lastApplied pc applied db unpublished)
    (busy : ∀ e, entry pc' = some e → committed[applied]? = some (some e))
    (header : ∀ index, pc' = .snapshotting index → index = lastApplied)
    (shown : shows start committed applied pc' = shows start committed applied pc) :
    Applied start committed authors lastApplied pc' applied db unpublished where
  busy := busy
  reach := before.reach
  stored := before.stored
  header := header
  shown := fun nothing => (before.shown nothing).trans shown.symm
  known := before.known
  nodup := before.nodup

/-- While a transaction of the holder waits to be published, `Apply` uses no lock. -/
theorem Local.quiet (local' : Local start committed authors node) {id : Nat} {wpc : WriterPc}
    (locked : node.lock = some (.writer id wpc)) (only : node.unpublished = [id]) :
    owns node.pc = false ∧ loan node.pc = none := by
  obtain ⟨-, -, free, -⟩ := local'.writer locked
  exact ⟨free, (local'.pending id wpc locked only).1⟩

/-- A marker that is there belongs to the connection that holds the lock. -/
theorem Local.marked (local' : Local start committed authors node) {id : Nat} {marker : SkipMarkerState}
    (found : node.fsm.skipMarkers id = some marker) : ∃ wpc, node.lock = some (.writer id wpc) := by
  have held := local'.held
  generalize node.lock = lock at held ⊢
  match lock, held with
  | none, held | some .opened, held | some .apply, held | some (.handler _ _ _), held => cases found.symm.trans (held.1 id)
  | some (.writer other wpc), held =>
    by_cases same : id = other
    · exact ⟨wpc, by rw [same]⟩
    · cases found.symm.trans (held.1 id same)

theorem Writing.consume {applied : Nat} {unpublished : List Nat} {id : Nat} {wpc : WriterPc}
    (writing : Writing committed applied unpublished id (some .pending) wpc) (late : early wpc = false) :
    id ∉ unpublished ∧ Writing committed (applied + 1) (id :: unpublished) id (some .skipped) wpc := by
  have fresh (live : Live unpublished id (some .pending)) : id ∉ unpublished := by simpa [Live] using live
  have after : Live (id :: unpublished) id (some .skipped) := .inr ⟨rfl, List.mem_cons_self⟩
  cases wpc with
  | computed | marked => cases late
  | waiting term index => exact ⟨fresh writing.1, after, fun pending => by cases pending⟩
  | forwarding attempt base => exact ⟨fresh writing, after⟩
  | failed =>
    rcases writing with live | abandoned
    · exact ⟨fresh live, .inl after⟩
    · cases abandoned
  | succeeded | returned => cases writing.1
  | published | discarded => cases writing

/-- `Apply` consumes the marker of the connection that holds the lock. -/
theorem Local.consume (local' : Local start committed authors node) {e : Entry} (idle : node.pc = .idle)
    (there : committed[node.applied]? = some (some e)) (marked : node.fsm.skipMarkers e.id = some .pending)
    (proposed : ∀ wpc, node.lock = some (.writer e.id wpc) → early wpc = false)
    (known : ∃ author, authors e.id = some author ∧ author.transaction = e.transaction) :
    Local start committed authors
      { node with
        fsm := (node.fsm.tryConsumeSkipMarker e.id (node.applied + 1)).1
        applied := node.applied + 1
        unpublished := e.id :: node.unpublished } := by
  have inside : node.applied < committed.length := (List.getElem?_eq_some_iff.mp there).choose
  obtain ⟨wpc, locked⟩ := local'.marked marked
  obtain ⟨markers, loans, free, other, writing⟩ := local'.writer locked
  rw [marked] at writing
  obtain ⟨fresh, written⟩ := writing.consume (proposed wpc locked)
  have consumed : node.fsm.tryConsumeSkipMarker e.id (node.applied + 1) =
      ({ node.fsm with
        skipMarkers := Function.update node.fsm.skipMarkers e.id (some .skipped), lastApplied := node.applied + 1 },
        true) := by
    simp [FSM.tryConsumeSkipMarker, marked]
  rw [consumed]
  refine ⟨?_, ⟨?_, inside, ?_, ?_, ?_, ?_, ?_⟩, ?_⟩
  · simp only [locked]
    refine ⟨fun id distinct => ?_, loans, free, other, ?_⟩
    · simpa [distinct] using markers id distinct
    · simpa using written
  · simp [idle, entry]
  · exact (lastChange_succ there).symm
  · simp [idle]
  · simp
  · intro id member
    rcases List.mem_cons.mp member with rfl | member
    · exact known.imp fun _ found => found.1
    · exact local'.applied.known id member
  · exact List.nodup_cons.mpr ⟨fresh, local'.applied.nodup⟩
  · intro id wpc' here only
    obtain ⟨rfl, nothing⟩ : e.id = id ∧ node.unpublished = [] := by simpa using only
    obtain ⟨author, found, same⟩ := known
    refine ⟨by simp [idle, loan], author, found, ?_⟩
    show settled start committed (node.applied + 1) = Entry.apply node.db ⟨e.id, author.transaction⟩
    rw [settled_succ_some there, local'.applied.shown nothing, same]
    simp [idle, shows]

private theorem Local.miss (local' : Local start committed authors node) {e : Entry} (idle : node.pc = .idle)
    (there : committed[node.applied]? = some (some e)) :
    Local start committed authors { node with pc := .missed e } := by
  refine ⟨local'.held.setPc (fun _ => rfl) (by simp [loan]), local'.applied.setPc ?_ (by simp) (by simp [idle, shows]),
    fun id wpc locked only => ⟨rfl, (local'.pending id wpc locked only).2⟩⟩
  rintro _ ⟨⟩
  exact there

theorem Local.getLoan (local' : Local start committed authors node) {e : Entry} (missed : node.pc = .missed e) :
    Local start committed authors
      { node with pc := if node.fsm.loans e.id then .loaned e else .acquiring e } := by
  have there := local'.applied.busy e (by rw [missed]; rfl)
  have unlent {id : Nat} {wpc : WriterPc} (locked : node.lock = some (.writer id wpc)) : node.fsm.loans e.id = false :=
    (local'.writer locked).2.1 e.id
  refine ⟨local'.held.setPc ?_ ?_, local'.applied.setPc ?_ ?_ ?_, ?_⟩
  · intro _
    split <;> rfl
  · intro e' id wpc locked lent
    simp [unlent locked, loan] at lent
  · intro e' found
    split at found <;> cases found <;> exact there
  · intro index found
    split at found <;> cases found
  · rw [missed]
    split <;> rfl
  · intro id wpc locked only
    exact ⟨by simp [unlent locked, loan], (local'.pending id wpc locked only).2⟩

theorem Local.validate (local' : Local start committed authors node) {e : Entry} (loaned : node.pc = .loaned e) :
    Local start committed authors (node.validate e) := by
  have there := local'.applied.busy e (by rw [loaned]; rfl)
  have goes (pc : ApplyPc) (next : pc = .appending e .loan 0 ∨ pc = .panicked) :
      Local start committed authors { node with pc := pc } := by
    refine ⟨local'.held.setPc ?_ ?_, local'.applied.setPc ?_ ?_ ?_, ?_⟩
    · rcases next with rfl | rfl <;> exact fun _ => rfl
    · rcases next with rfl | rfl <;> simp [loaned, loan]
    · rcases next with rfl | rfl <;> simp [entry, there]
    · rcases next with rfl | rfl <;> simp
    · rcases next with rfl | rfl <;> simp [loaned, shows]
    · intro id wpc locked only
      have quiet := (local'.quiet locked only).2
      rw [loaned] at quiet
      cases quiet
  unfold Node.validate
  split
  · exact goes _ (by split <;> simp)
  · exact goes _ (.inr rfl)

theorem Local.acquire (local' : Local start committed authors node) {e : Entry} (acquiring : node.pc = .acquiring e)
    (free : node.lock = none) :
    Local start committed authors { node with lock := some .apply, pc := .appending e .own 0 } := by
  have held := local'.held
  rw [free] at held
  have there := local'.applied.busy e (by rw [acquiring]; rfl)
  exact ⟨⟨held.1, held.2.1⟩, local'.applied.setPc (by simp [entry, there]) (by simp) (by simp [acquiring, shows]),
    .none' (by simp)⟩

theorem Local.append (local' : Local start committed authors node) {e : Entry} {via : Via} {written : Nat}
    (appending : node.pc = .appending e via written) : Local start committed authors (node.append e via written) := by
  have there := local'.applied.busy e (by rw [appending]; rfl)
  have never {id : Nat} {wpc : WriterPc} (locked : node.lock = some (.writer id wpc))
      (only : node.unpublished = [id]) : False := by
    obtain ⟨free, quiet⟩ := local'.quiet locked only
    cases via <;> simp [appending, owns, loan] at free quiet
  have held (pc : ApplyPc) (next : pc = .appending e via (written + 1) ∨ pc = .appended e via) :
      Held committed node.applied node.unpublished node.fsm pc node.lock := by
    refine local'.held.setPc ?_ ?_
    · rcases next with rfl | rfl <;> cases via <;> simp [appending, owns]
    · rcases next with rfl | rfl <;> cases via <;> simp [appending, loan]
  unfold Node.append
  split
  · exact ⟨held _ (.inl rfl), local'.applied.setPc (by simp [entry, there]) (by simp) (by simp [appending, shows]),
      fun id wpc locked only => (never locked only).elim⟩
  · refine ⟨held _ (.inr rfl), ⟨by simp [entry, there], local'.applied.reach, local'.applied.stored, by simp, ?_,
      local'.applied.known, local'.applied.nodup⟩, fun id wpc locked only => (never locked only).elim⟩
    intro nothing
    show Entry.apply node.db e = _
    rw [local'.applied.shown nothing, appending]
    rfl

theorem Local.store (local' : Local start committed authors node) {e : Entry} {via : Via}
    (appended : node.pc = .appended e via) : Local start committed authors (node.store via) := by
  have there := local'.applied.busy e (by rw [appended]; rfl)
  have inside : node.applied < committed.length := (List.getElem?_eq_some_iff.mp there).choose
  refine ⟨?_, ⟨?_, inside, (lastChange_succ there).symm, ?_, ?_, local'.applied.known, local'.applied.nodup⟩, ?_⟩
  · refine local'.held.advance there ?_ ?_ ?_
    · cases via <;> simp [appended, owns, Node.store]
    · cases via <;> rfl
    · rintro e' id wpc ⟨⟩ locked
      obtain ⟨-, -, free, other, -⟩ := local'.writer locked
      cases via with
      | loan => exact other e (by rw [appended]; rfl)
      | own => simp [appended, owns] at free
  · cases via <;> simp [Node.store, entry]
  · cases via <;> simp [Node.store]
  · intro nothing
    show node.db = _
    rw [local'.applied.shown nothing, appended]
    cases via <;> exact (settled_succ_some there).symm
  · intro id wpc locked only
    obtain ⟨free, quiet⟩ := local'.quiet locked only
    cases via <;> simp [appended, owns, loan] at free quiet

theorem Local.releaseOwn (local' : Local start committed authors node) (releasing : node.pc = .releasing) :
    Local start committed authors { node with lock := none, pc := .idle } := by
  refine ⟨?_, local'.applied.setPc (by simp [entry]) (by simp) (by simp [releasing, shows]), .none' (by simp)⟩
  have held := local'.held
  have mine : owns node.pc = true := by rw [releasing]; rfl
  generalize node.lock = lock at held
  match lock, held with
  | none, held | some .opened, held | some (.handler _ _ _), held => exact absurd held.2.2 (by simp [mine])
  | some .apply, held => exact ⟨held.1, held.2, rfl⟩
  | some (.writer _ _), held => exact absurd held.2.2.1 (by simp [mine])

theorem Local.snapshot (local' : Local start committed authors node) (idle : node.pc = .idle) :
    Local start committed authors { node with pc := .snapshotting node.fsm.lastApplied } := by
  refine ⟨local'.held.setPc (fun _ => rfl) (by simp [loan]), local'.applied.setPc (by simp [entry]) ?_ (by simp [idle, shows]),
    fun id wpc locked only => ⟨rfl, (local'.pending id wpc locked only).2⟩⟩
  rintro _ ⟨⟩
  rfl

theorem Local.backup (local' : Local start committed authors node) {index : Nat}
    (snapshotting : node.pc = .snapshotting index) (streams : List (Nat × Database Bytes)) :
    Local start committed authors { node with streams := streams, pc := .idle } :=
  ⟨local'.held.setPc (fun _ => rfl) (by simp [loan]),
    local'.applied.setPc (by simp [entry]) (by simp) (by simp [snapshotting, shows]),
    fun id wpc locked only => ⟨rfl, (local'.pending id wpc locked only).2⟩⟩

end

variable {ι : Type} [DecidableEq ι] {start : Database Bytes} {s : State ι}

def Everywhere (start : Database Bytes) (s : State ι) : Prop := ∀ n, Local start s.committed s.authors (s.nodes n)

theorem Everywhere.setNode (everywhere : Everywhere start s) {s' : State ι} {n : ι} {node : Node}
    (nodes : s'.nodes = Function.update s.nodes n node) (committed : s'.committed = s.committed)
    (authors : ∀ id author, s.authors id = some author → s'.authors id = some author)
    (self : Local start s.committed s'.authors node) : Everywhere start s' := by
  intro m
  rw [nodes, committed]
  by_cases same : m = n
  · subst same
    simpa using self
  · simpa [same] using (everywhere m).grow List.prefix_rfl authors

theorem Everywhere.keep {ι : Type} {s s' : State ι} (everywhere : Everywhere start s) (nodes : s'.nodes = s.nodes)
    (committed : s.committed <+: s'.committed) (authors : s'.authors = s.authors) : Everywhere start s' := by
  intro m
  rw [nodes, authors]
  exact (everywhere m).grow committed fun _ _ known => known

private theorem everywhere_step {action : Action ι} (tracked : Tracked s) (everywhere : Everywhere start s)
    (enabled : s.enabled action) : Everywhere start (s.effect action) := by
  have unproposed {n : ι} {id : Nat} {wpc : WriterPc} (held : s.holder n = some (.writer id wpc))
      (before : early wpc = true) (e : Entry) (committed : some e ∈ s.committed) : e.id ≠ id := by
    obtain ⟨term, rest, log⟩ := tracked.covered
    exact (tracked.placed n _ held).2.2 before term e (log ▸ List.mem_append_left rest committed)
  have writes {s' : State ι} {n : ι} {id : Nat} {wpc wpc' : WriterPc} {f : FSM Nat}
      (held : s.holder n = some (.writer id wpc))
      (nodes : s'.nodes = Function.update s.nodes n { s.nodes n with fsm := f, lock := some (.writer id wpc') })
      (committed : s'.committed = s.committed) (authors : s'.authors = s.authors)
      (lastApplied : f.lastApplied = (s.nodes n).fsm.lastApplied) (loans : f.loans = (s.nodes n).fsm.loans)
      (others : ∀ other, other ≠ id → f.skipMarkers other = (s.nodes n).fsm.skipMarkers other)
      (writing : Writing s.committed (s.nodes n).applied (s.nodes n).unpublished id ((s.nodes n).fsm.skipMarkers id) wpc →
        Writing s.committed (s.nodes n).applied (s.nodes n).unpublished id (f.skipMarkers id) wpc') :
      Everywhere start s' :=
    everywhere.setNode nodes committed (fun _ _ known => authors ▸ known)
      (authors ▸ (everywhere n).advance held lastApplied loans others writing)
  have same {n : ι} {id : Nat} (other : Nat) (_ : other ≠ id) :
      (s.nodes n).fsm.skipMarkers other = (s.nodes n).fsm.skipMarkers other := rfl
  have at' {s' : State ι} {n : ι} {node : Node} (nodes : s'.nodes = Function.update s.nodes n node)
      (committed : s'.committed = s.committed) (authors : s'.authors = s.authors)
      (self : Local start s.committed s.authors node) : Everywhere start s' :=
    everywhere.setNode nodes committed (fun _ _ known => authors ▸ known) (authors ▸ self)
  cases action with
  | lock n => exact at' rfl rfl rfl ((everywhere n).lock enabled)
  | compute n id transaction =>
    obtain ⟨opened, fresh, -⟩ := enabled
    have grown (other : Nat) (old : Author ι) (known : s.authors other = some old) :
        (s.effect (.compute n id transaction)).authors other = some old := by
      show Function.update s.authors id _ other = some old
      rw [Function.update_of_ne ?_]
      · exact known
      · rintro rfl
        cases fresh.symm.trans known
    have computed := (everywhere n).compute opened fresh fun e committed =>
      (tracked.committed_known committed).imp fun _ found => found.1
    exact everywhere.setNode rfl rfl grown (computed.grow List.prefix_rfl grown)
  | mark n id =>
    refine writes enabled rfl rfl rfl rfl rfl (fun other distinct => by simp [distinct]) fun writing => ?_
    exact ⟨by simp, writing.2⟩
  | accept n id term transaction =>
    obtain ⟨held, -⟩ := enabled
    refine writes held rfl rfl rfl rfl rfl same fun writing => ⟨.inl writing, fun _ j e _ there => ?_⟩
    exact unproposed held rfl e (List.mem_of_getElem? there)
  | reject n id => exact writes enabled rfl rfl rfl rfl rfl same fun writing => .inl (.inl writing)
  | forward n id target => exact writes enabled rfl rfl rfl rfl rfl same fun writing => .inl writing
  | retry n id base target => exact writes enabled.1 rfl rfl rfl rfl rfl same fun writing => writing
  | decline n id attempt base => exact writes enabled.1 rfl rfl rfl rfl rfl same fun writing => .inl writing
  | lose n id attempt base target => exact writes enabled.1 rfl rfl rfl rfl rfl same fun writing => .inl writing
  | await n id attempt base =>
    refine writes enabled rfl rfl rfl (by simp) (by simp) (fun other distinct => ?_) fun writing => ?_
    · unfold FSM.expireSkipMarker
      split
      · rfl
      · simp [distinct]
    · by_cases consumed : (s.nodes n).fsm.skipMarkers id = some .skipped
      · have member : id ∈ (s.nodes n).unpublished := by simpa [Writing, Live, consumed] using writing
        simp [FSM.expireSkipMarker, Writing, consumed, member]
      · simp [FSM.expireSkipMarker, Writing, consumed]
  | resolve n id term index ok =>
    obtain ⟨held, resolves⟩ := enabled
    refine writes held rfl rfl rfl rfl rfl same fun writing => ?_
    cases ok with
    | false => exact .inl writing.1
    | true =>
      obtain ⟨ran, found⟩ := resolves
      obtain ⟨e, there, rfl⟩ : ∃ e, s.committed[index]? = some (some e) ∧ e.id = id := by
        simpa [Option.join_eq_some_iff] using found
      rcases writing.1 with ⟨pending, -⟩ | consumed
      · exact absurd rfl (writing.2 pending index e ran there)
      · exact consumed
  | finish n id ok =>
    refine writes enabled rfl rfl rfl rfl rfl (fun other distinct => by simp [distinct]) fun writing => ?_
    cases ok with
    | false => simp [Writing]
    | true => exact ⟨by simp, writing.2⟩
  | publish n id transaction =>
    obtain ⟨held, taken⟩ := enabled
    obtain ⟨author, known, rfl⟩ := Option.map_eq_some_iff.mp taken
    exact at' rfl rfl rfl ((everywhere n).publish held known)
  | unlock n holder => exact at' rfl rfl rfl ((everywhere n).unlock enabled.1 enabled.2)
  | serve id base target => exact at' rfl rfl rfl ((everywhere target).serve id base enabled.2)
  | dismiss id base target => exact everywhere.keep rfl List.prefix_rfl rfl
  | check n id base => exact at' rfl rfl rfl ((everywhere n).handler enabled _)
  | take n id base term transaction => exact at' rfl rfl rfl ((everywhere n).handler enabled.1 _)
  | refuse n id base => exact at' rfl rfl rfl ((everywhere n).handler enabled _)
  | settle n id base term index ok => exact at' rfl rfl rfl ((everywhere n).handler enabled.1 _)
  | release n id base taken => exact at' rfl rfl rfl ((everywhere n).release enabled)
  | skip n => exact at' rfl rfl rfl ((everywhere n).skip enabled.1 enabled.2.1)
  | apply n e =>
    obtain ⟨idle, there, -⟩ := enabled
    refine at' rfl rfl rfl ?_
    by_cases marked : (s.nodes n).fsm.skipMarkers e.id = some .pending
    · have consumed := (everywhere n).consume idle there marked ?_ (tracked.committed_known (List.mem_of_getElem? there))
      · simpa [Node.apply, FSM.tryConsumeSkipMarker, marked] using consumed
      · intro wpc held
        cases before : early wpc with
        | false => rfl
        | true => exact absurd rfl (unproposed held before e (List.mem_of_getElem? there))
    · have missed := (everywhere n).miss idle there
      simpa [Node.apply, FSM.tryConsumeSkipMarker, marked] using missed
  | getLoan n e => exact at' rfl rfl rfl ((everywhere n).getLoan enabled)
  | validate n e => exact at' rfl rfl rfl ((everywhere n).validate enabled)
  | acquire n e => exact at' rfl rfl rfl ((everywhere n).acquire enabled.1 enabled.2)
  | append n e via written => exact at' rfl rfl rfl ((everywhere n).append enabled)
  | store n e via => exact at' rfl rfl rfl ((everywhere n).store enabled)
  | releaseOwn n => exact at' rfl rfl rfl ((everywhere n).releaseOwn enabled)
  | snapshot n => exact at' rfl rfl rfl ((everywhere n).snapshot enabled)
  | backup n index => exact at' rfl rfl rfl ((everywhere n).backup enabled _)
  | elect n term source length => exact at' rfl rfl rfl ⟨(everywhere n).held, (everywhere n).applied, (everywhere n).pending⟩
  | stepDown n => exact at' rfl rfl rfl ⟨(everywhere n).held, (everywhere n).applied, (everywhere n).pending⟩
  | barrier n term => exact everywhere.keep rfl List.prefix_rfl rfl
  | drain n term place => exact everywhere.keep rfl List.prefix_rfl rfl
  | commit term length => exact everywhere.keep rfl enabled.2.1 rfl

private theorem everywhere_init {ι : Type} (start : Database Bytes) : Everywhere start (State.init start : State ι) := by
  intro n
  refine ⟨⟨fun _ => rfl, fun _ => rfl, rfl⟩, ⟨?_, Nat.le_refl 0, rfl, ?_, fun _ => rfl, ?_, List.nodup_nil⟩, .none' ?_⟩
  · exact fun _ busy => by cases busy
  · exact fun _ header => by cases header
  · exact fun _ member => by cases member
  · exact fun _ _ locked => by cases locked

/-- What holds from the start in every run whose steps meet a condition, once each such
step preserves it from a state in which every node shows what it should. -/
theorem exec_everywhere {meets : State ι → Action ι → Prop} [∀ s action, Decidable (meets s action)]
    (inv : State ι → Prop) (initial : inv (State.init start))
    (preserved : ∀ {s : State ι} {action}, Tracked s → Everywhere start s → meets s action → s.enabled action → inv s →
      inv (s.effect action))
    {actions : List (Action ι)} (executed : exec (restrict meets State.step) (State.init start) actions = some s) :
    Tracked s ∧ Everywhere start s ∧ inv s := by
  refine exec_invariant (fun s => Tracked s ∧ Everywhere start s ∧ inv s) ?_
    ⟨tracked_init start, everywhere_init start, initial⟩ executed
  rintro before action after ⟨tracked, everywhere, held⟩ moved
  obtain ⟨met, moved⟩ := restrict_eq_some.mp moved
  obtain ⟨enabled, rfl⟩ := State.step_eq_some.mp moved
  exact ⟨tracked_step tracked enabled, everywhere_step tracked everywhere enabled,
    preserved tracked everywhere met enabled held⟩

def empty : Database Bytes where
  size := 0
  page := fun _ => []

def write : LogEntryTransaction := ⟨[⟨1, [1]⟩], 1⟩

end Literaft.Proofs.Visible
