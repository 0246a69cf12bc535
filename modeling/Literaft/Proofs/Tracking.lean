import Literaft.Cluster

/-! Where an entry is: with the connection that computed it, on its way to a handler, with
the handler, or in raft's logs, and never in a log before raft took it. -/

namespace Literaft.Proofs.Tracking
open Library Fsm Proto Cluster

variable {ι : Type} [DecidableEq ι] {s : State ι}

def Unproposed (log : Nat → List (Option Entry)) (id : Nat) : Prop := ∀ term e, some e ∈ log term → e.id ≠ id

/-- The entry was never sent to another node. -/
def direct : WriterPc → Bool
  | .computed | .marked | .waiting _ _ => true
  | _ => false

/-- Raft has not seen the entry from this connection. -/
def early : WriterPc → Bool
  | .computed | .marked => true
  | _ => false

/-- Raft has not seen the entry from this handler. -/
def untaken : HandlerPc → Bool
  | .held | .checked | .refused => true
  | _ => false

/-- What the holder of node `n`'s lock says about its entry. -/
def Placed (s : State ι) (n : ι) : Holder → Prop
  | .opened | .apply => True
  | .writer id pc =>
    (∃ author, s.authors id = some author ∧ author.node = n) ∧
      (direct pc = true → s.requests id = .unsent) ∧ (early pc = true → Unproposed s.log id)
  | .handler id _ pc => s.requests id = .handling n ∧ (untaken pc = true → Unproposed s.log id)

def idle : Request ι → Bool
  | .inFlight _ _ | .answered false => true
  | _ => false

structure Tracked (s : State ι) : Prop where
  known : ∀ term e, some e ∈ s.log term → ∃ author, s.authors e.id = some author ∧ author.transaction = e.transaction
  covered : ∃ term, s.committed <+: s.log term
  placed : ∀ n holder, s.holder n = some holder → Placed s n holder
  sent : ∀ id, s.requests id ≠ .unsent → ∃ author, s.authors id = some author
  waits : ∀ id, idle (s.requests id) = true → Unproposed s.log id

theorem Tracked.committed_known {ι : Type} {s : State ι} (tracked : Tracked s) {e : Entry}
    (committed : some e ∈ s.committed) :
    ∃ author, s.authors e.id = some author ∧ author.transaction = e.transaction := by
  obtain ⟨term, rest, log⟩ := tracked.covered
  exact tracked.known term e (log ▸ List.mem_append_left rest committed)

private theorem early_direct {pc : WriterPc} (before : early pc = true) : direct pc = true := by
  cases pc <;> first | rfl | cases before

private theorem setNode_holder {n m : ι} {node : Node} {holder : Holder} (held : (s.setNode n node).holder m = some holder) :
    m = n ∧ node.lock = some holder ∨ m ≠ n ∧ s.holder m = some holder := by
  by_cases same : m = n
  · subst same
    exact .inl ⟨rfl, by simpa [State.holder, State.setNode] using held⟩
  · exact .inr ⟨same, by simpa [State.holder, State.setNode, same] using held⟩

private theorem setNode_self (s : State ι) (n : ι) : s.setNode n (s.nodes n) = s := by
  simp [State.setNode]

theorem Tracked.setNode (tracked : Tracked s) {n : ι} {node : Node}
    (placed : ∀ holder, node.lock = some holder → Placed s n holder) : Tracked (s.setNode n node) where
  known := tracked.known
  covered := tracked.covered
  placed := fun m holder held => by
    rcases setNode_holder held with ⟨rfl, locked⟩ | ⟨-, locked⟩
    · exact placed holder locked
    · exact tracked.placed m holder locked
  sent := tracked.sent
  waits := tracked.waits

theorem Tracked.keepLock (tracked : Tracked s) {n : ι} {node : Node} (kept : node.lock = (s.nodes n).lock) :
    Tracked (s.setNode n node) :=
  tracked.setNode fun holder held => tracked.placed n holder (kept.symm.trans held)

/-- The holder is not concerned by what happens to entry `id`. -/
def Apart (id : Nat) : Holder → Prop
  | .opened | .apply => True
  | .writer other pc => other = id → direct pc = false
  | .handler other _ _ => other ≠ id

private theorem Tracked.apart_of_request {ι : Type} {s : State ι} (tracked : Tracked s) {m : ι} {holder : Holder} {id : Nat}
    (held : s.holder m = some holder) (sent : s.requests id ≠ .unsent) (elsewhere : s.requests id ≠ .handling m) :
    Apart id holder := by
  have placed := tracked.placed m holder held
  cases holder with
  | opened | apply => trivial
  | writer other pc =>
    rintro rfl
    cases unsent : direct pc with
    | false => rfl
    | true => exact absurd (placed.2.1 unsent) sent
  | handler other base pc =>
    rintro rfl
    exact elsewhere placed.1

private theorem Tracked.apart_of_direct {ι : Type} {s : State ι} (tracked : Tracked s) {n m : ι} {holder : Holder} {id : Nat}
    {pc : WriterPc} (here : s.holder n = some (.writer id pc)) (unsent : direct pc = true)
    (held : s.holder m = some holder) (elsewhere : m ≠ n) : Apart id holder := by
  have placed := tracked.placed m holder held
  obtain ⟨⟨author, known, home⟩, request, -⟩ := tracked.placed n _ here
  cases holder with
  | opened | apply => trivial
  | writer other pc =>
    rintro rfl
    obtain ⟨⟨author', known', home'⟩, -⟩ := placed
    rw [known] at known'
    cases known'
    exact absurd (home'.symm.trans home) elsewhere
  | handler other base pc =>
    rintro rfl
    cases (request unsent).symm.trans placed.1

theorem Placed.move {ι : Type} {s s' : State ι} {m : ι} {holder : Holder} {id : Nat} (placed : Placed s m holder)
    (apart : Apart id holder)
    (authors : ∀ other author, s.authors other = some author → s'.authors other = some author)
    (requests : ∀ other, other ≠ id → s'.requests other = s.requests other)
    (log : ∀ other, other ≠ id → Unproposed s.log other → Unproposed s'.log other) : Placed s' m holder := by
  cases holder with
  | opened | apply => trivial
  | writer other pc =>
    obtain ⟨⟨author, known, home⟩, request, unproposed⟩ := placed
    have distinct (unsent : direct pc = true) : other ≠ id := fun same => by simp [apart same] at unsent
    refine ⟨⟨author, authors other author known, home⟩, fun unsent => ?_, fun before => ?_⟩
    · rw [requests other (distinct unsent)]
      exact request unsent
    · exact log other (distinct (early_direct before)) (unproposed before)
  | handler other base pc =>
    refine ⟨?_, fun before => log other apart (placed.2 before)⟩
    rw [requests other apart]
    exact placed.1

/-- A step at node `n` that concerns entry `id` alone. -/
theorem Tracked.move (tracked : Tracked s) {s' : State ι} {n : ι} {node : Node} (id : Nat)
    (nodes : s'.nodes = Function.update s.nodes n node)
    (authors : ∀ other author, s.authors other = some author → s'.authors other = some author)
    (requests : ∀ other, other ≠ id → s'.requests other = s.requests other)
    (log : ∀ other, other ≠ id → Unproposed s.log other → Unproposed s'.log other)
    (apart : ∀ m holder, m ≠ n → s.holder m = some holder → Apart id holder)
    (self : ∀ holder, node.lock = some holder → Placed s' n holder)
    (known : ∀ term e, some e ∈ s'.log term →
      ∃ author, s'.authors e.id = some author ∧ author.transaction = e.transaction)
    (covered : ∃ term, s'.committed <+: s'.log term)
    (sent : s'.requests id ≠ .unsent → ∃ author, s'.authors id = some author)
    (waits : idle (s'.requests id) = true → Unproposed s'.log id) : Tracked s' where
  known := known
  covered := covered
  placed := fun m holder held => by
    have held : (s.setNode n node).holder m = some holder := by simpa [State.holder, State.setNode, nodes] using held
    rcases setNode_holder held with ⟨rfl, locked⟩ | ⟨elsewhere, locked⟩
    · exact self holder locked
    · exact (tracked.placed m holder locked).move (apart m holder elsewhere locked) authors requests log
  sent := fun other asked => by
    by_cases same : other = id
    · subst same
      exact sent asked
    · rw [requests other same] at asked
      obtain ⟨author, known⟩ := tracked.sent other asked
      exact ⟨author, authors other author known⟩
  waits := fun other asked => by
    by_cases same : other = id
    · subst same
      exact waits asked
    · rw [requests other same] at asked
      exact log other same (tracked.waits other asked)

theorem Unproposed.push {ι : Type} {s : State ι} {id term : Nat} {item : Option Entry}
    (unproposed : Unproposed s.log id) (other : ∀ e, item = some e → e.id ≠ id) :
    Unproposed (s.push term item).log id := by
  intro at' e member
  by_cases same : at' = term
  · subst same
    simp only [State.push, Function.update_self, List.mem_append, List.mem_singleton] at member
    rcases member with member | rfl
    · exact unproposed _ e member
    · exact other e rfl
  · simp only [State.push, Function.update_of_ne same] at member
    exact unproposed _ e member

private theorem known_push {ι : Type} {s : State ι} (tracked : Tracked s) {term : Nat} {item : Option Entry}
    (taken : ∀ e, item = some e → s.transaction e.id = some e.transaction) (at' : Nat) (e : Entry)
    (member : some e ∈ (s.push term item).log at') :
    ∃ author, s.authors e.id = some author ∧ author.transaction = e.transaction := by
  by_cases same : at' = term
  · subst same
    simp only [State.push, Function.update_self, List.mem_append, List.mem_singleton] at member
    rcases member with member | rfl
    · exact tracked.known _ e member
    · exact Option.map_eq_some_iff.mp (taken e rfl)
  · simp only [State.push, Function.update_of_ne same] at member
    exact tracked.known _ e member

private theorem covered_push {ι : Type} {s : State ι} (tracked : Tracked s) (term : Nat) (item : Option Entry) :
    ∃ at', s.committed <+: (s.push term item).log at' := by
  obtain ⟨at', covered⟩ := tracked.covered
  refine ⟨at', covered.trans ?_⟩
  by_cases same : at' = term
  · subst same
    simp [State.push]
  · simp [State.push, same]

theorem Tracked.take (tracked : Tracked s) {n : ι} {node : Node} {term : Nat} {e : Entry}
    (taken : s.transaction e.id = some e.transaction) (known : idle (s.requests e.id) = false)
    (apart : ∀ m holder, m ≠ n → s.holder m = some holder → Apart e.id holder)
    (self : ∀ holder, node.lock = some holder → Placed (s.push term (some e)) n holder) :
    Tracked ((s.push term (some e)).setNode n node) := by
  have only (e' : Entry) (same : some e = some e') : s.transaction e'.id = some e'.transaction := by
    cases same
    exact taken
  refine tracked.move e.id rfl (fun _ _ kept => kept) (fun _ _ => rfl) ?_ apart self (known_push tracked only)
    (covered_push tracked term _) (tracked.sent e.id) ?_
  · intro other distinct unproposed
    exact unproposed.push fun e' same => by cases same; exact distinct.symm
  · intro asked
    have asked : idle (s.requests e.id) = true := asked
    simp [known] at asked

/-- The request for entry `id` goes on, with a step of the holder of node `n`'s lock. -/
theorem Tracked.request (tracked : Tracked s) {n : ι} {node : Node} {id : Nat} {request : Request ι}
    (author : ∃ author, s.authors id = some author) (waits : idle request = true → Unproposed s.log id)
    (apart : ∀ m holder, m ≠ n → s.holder m = some holder → Apart id holder)
    (self : ∀ holder, node.lock = some holder → Placed (s.setRequest id request) n holder) :
    Tracked ((s.setRequest id request).setNode n node) := by
  have self' : (s.setRequest id request).requests id = request := Function.update_self ..
  refine tracked.move id rfl (fun _ _ kept => kept) (fun other distinct => Function.update_of_ne distinct ..)
    (fun _ _ kept => kept) apart self tracked.known tracked.covered (fun _ => author) ?_
  intro asked
  exact waits (self' ▸ asked)

theorem Tracked.compute (tracked : Tracked s) {n : ι} {id : Nat} (fresh : s.authors id = none) {author : Author ι}
    (home : author.node = n) :
    Tracked (({ s with authors := Function.update s.authors id (some author) } : State ι).setLock n
      (some (.writer id .computed))) := by
  have unsent : s.requests id = .unsent := by
    by_contra sent
    obtain ⟨author, known⟩ := tracked.sent id sent
    cases fresh.symm.trans known
  have unproposed : Unproposed s.log id := by
    rintro term e member rfl
    obtain ⟨author, known, -⟩ := tracked.known term e member
    cases fresh.symm.trans known
  have grown (other : Nat) (old : Author ι) (known : s.authors other = some old) :
      Function.update s.authors id (some author) other = some old := by
    rw [Function.update_of_ne ?_]
    · exact known
    · rintro rfl
      cases fresh.symm.trans known
  refine tracked.move id rfl grown (fun _ _ => rfl) (fun _ _ kept => kept) ?_ ?_ ?_ tracked.covered
    (fun sent => absurd unsent sent) (fun _ => unproposed)
  · intro m holder _ held
    have placed := tracked.placed m holder held
    cases holder with
    | opened | apply => trivial
    | writer other pc =>
      rintro rfl
      obtain ⟨⟨author, known, -⟩, -⟩ := placed
      cases fresh.symm.trans known
    | handler other base pc =>
      rintro rfl
      cases unsent.symm.trans placed.1
  · intro holder locked
    cases locked
    exact ⟨⟨author, Function.update_self .., home⟩, fun _ => unsent, fun _ => unproposed⟩
  · intro term e member
    obtain ⟨author, known, same⟩ := tracked.known term e member
    exact ⟨author, grown e.id author known, same⟩

theorem Tracked.writer (tracked : Tracked s) {n : ι} {id : Nat} {pc pc' : WriterPc} {node : Node}
    (held : s.holder n = some (.writer id pc)) (locked : node.lock = some (.writer id pc'))
    (unsent : direct pc' = true → direct pc = true) (before : early pc' = true → early pc = true) :
    Tracked (s.setNode n node) := by
  obtain ⟨home, request, unproposed⟩ := tracked.placed n _ held
  refine tracked.setNode fun holder here => ?_
  cases locked.symm.trans here
  exact ⟨home, request ∘ unsent, unproposed ∘ before⟩

theorem Tracked.handler (tracked : Tracked s) {n : ι} {id base : Nat} {pc pc' : HandlerPc} {node : Node}
    (held : s.holder n = some (.handler id base pc)) (locked : node.lock = some (.handler id base pc'))
    (before : untaken pc' = true → untaken pc = true) : Tracked (s.setNode n node) := by
  obtain ⟨request, unproposed⟩ := tracked.placed n _ held
  refine tracked.setNode fun holder here => ?_
  cases locked.symm.trans here
  exact ⟨request, unproposed ∘ before⟩

/-- The connection answers a request that is out of the way. -/
theorem Tracked.forwarded (tracked : Tracked s) {n : ι} {id attempt base : Nat} {pc' : WriterPc} {request : Request ι}
    (held : s.holder n = some (.writer id (.forwarding attempt base))) (before : idle (s.requests id) = true)
    (past : direct pc' = false) :
    Tracked ((s.setRequest id request).setLock n (some (.writer id pc'))) := by
  obtain ⟨home, -⟩ := tracked.placed n _ held
  refine tracked.request (home.imp fun _ found => found.1) (fun _ => tracked.waits id before) ?_ ?_
  · intro m holder _ locked
    refine tracked.apart_of_request locked ?_ ?_ <;> intro same <;> simp [same, idle] at before
  · intro holder locked
    cases locked
    have late : early pc' = false := by cases pc' <;> first | rfl | cases past
    exact ⟨home, fun unsent => by simp [past] at unsent, fun early => by simp [late] at early⟩

@[simp] theorem apply_lock (node : Node) (e : Entry) : (node.apply e).lock = node.lock := by
  unfold Node.apply
  split <;> rfl

@[simp] theorem validate_lock (node : Node) (e : Entry) : (node.validate e).lock = node.lock := by
  unfold Node.validate
  split <;> rfl

@[simp] theorem append_lock (node : Node) (e : Entry) (via : Via) (written : Nat) :
    (node.append e via written).lock = node.lock := by
  unfold Node.append
  split <;> rfl

theorem Tracked.raft {ι : Type} {s s' : State ι} (tracked : Tracked s) (holders : ∀ n, s'.holder n = s.holder n)
    (authors : s'.authors = s.authors) (requests : s'.requests = s.requests)
    (log : ∀ term e, some e ∈ s'.log term → ∃ earlier, some e ∈ s.log earlier)
    (covered : ∃ term, s'.committed <+: s'.log term) : Tracked s' := by
  have unproposed {id : Nat} (before : Unproposed s.log id) : Unproposed s'.log id := by
    intro term e member
    obtain ⟨earlier, member⟩ := log term e member
    exact before earlier e member
  refine ⟨?_, covered, ?_, ?_, ?_⟩
  · intro term e member
    obtain ⟨earlier, member⟩ := log term e member
    exact authors ▸ tracked.known earlier e member
  · intro n holder held
    have placed := tracked.placed n holder (holders n ▸ held)
    cases holder with
    | opened | apply => trivial
    | writer id pc => exact ⟨authors ▸ placed.1, requests ▸ placed.2.1, unproposed ∘ placed.2.2⟩
    | handler id base pc => exact ⟨requests ▸ placed.1, unproposed ∘ placed.2⟩
  · exact fun id asked => authors ▸ tracked.sent id (requests ▸ asked)
  · exact fun id asked => unproposed (tracked.waits id (requests ▸ asked))

theorem tracked_step {action : Action ι} (tracked : Tracked s) (enabled : s.enabled action) :
    Tracked (s.effect action) := by
  cases action with
  | lock n => exact tracked.setNode fun holder held => by cases held; trivial
  | compute n id transaction => exact tracked.compute enabled.2.1 rfl
  | mark n id => exact tracked.writer enabled rfl (fun _ => rfl) (fun _ => rfl)
  | accept n id term transaction =>
    obtain ⟨held, -, taken⟩ := enabled
    obtain ⟨home, request, -⟩ := tracked.placed n _ held
    refine tracked.take taken ?_ (fun m holder elsewhere locked => tracked.apart_of_direct held rfl locked elsewhere) ?_
    · simp [request rfl, idle]
    · intro holder locked
      cases locked
      exact ⟨home, fun _ => request rfl, fun before => by cases before⟩
  | reject n id => exact tracked.writer enabled rfl (fun unsent => by cases unsent) (fun before => by cases before)
  | forward n id target =>
    obtain ⟨home, request, unproposed⟩ := tracked.placed n _ enabled
    refine tracked.request (home.imp fun _ found => found.1) (fun _ => unproposed rfl)
      (fun m holder elsewhere locked => tracked.apart_of_direct enabled rfl locked elsewhere) ?_
    intro holder locked
    cases locked
    refine ⟨home, ?_, ?_⟩ <;> intro before <;> cases before
  | retry n id base target => exact tracked.forwarded enabled.1 (by simp [enabled.2, idle]) rfl
  | decline n id attempt base =>
    exact tracked.writer enabled.1 rfl (fun unsent => by cases unsent) (fun before => by cases before)
  | lose n id attempt base target => exact tracked.forwarded enabled.1 (by simp [enabled.2, idle]) rfl
  | await n id attempt base =>
    refine tracked.writer enabled rfl ?_ ?_ <;> split <;> intro before <;> cases before
  | resolve n id term index ok =>
    refine tracked.writer enabled.1 rfl ?_ ?_ <;> split <;> intro before <;> cases before
  | finish n id ok =>
    refine tracked.writer enabled rfl ?_ ?_ <;> split <;> intro before <;> cases before
  | publish n id transaction =>
    exact tracked.writer enabled.1 rfl (fun unsent => by cases unsent) (fun before => by cases before)
  | unlock n holder => exact tracked.setNode fun holder held => by cases held
  | serve id base target =>
    obtain ⟨request, free⟩ := enabled
    have waiting : idle (s.requests id) = true := by simp [request, idle]
    refine tracked.request (tracked.sent id (by simp [request])) (fun before => by cases before) ?_ ?_
    · intro m holder _ locked
      exact tracked.apart_of_request locked (by simp [request]) (by simp [request])
    · intro holder locked
      cases locked
      exact ⟨Function.update_self .., fun _ => tracked.waits id waiting⟩
  | dismiss id base target =>
    have request : s.requests id = .inFlight target base := enabled
    have apart (m : ι) (holder : Holder) (held : s.holder m = some holder) : Apart id holder :=
      tracked.apart_of_request held (by simp [request]) (by simp [request])
    rw [← setNode_self (s.effect (.dismiss id base target)) target]
    refine tracked.request (tracked.sent id (by simp [request])) (fun _ => tracked.waits id (by simp [request, idle]))
      (fun m holder _ held => apart m holder held) fun holder held => ?_
    exact (tracked.placed target holder held).move (apart target holder held) (fun _ _ kept => kept)
      (fun other distinct => Function.update_of_ne distinct ..) (fun _ _ kept => kept)
  | check n id base =>
    refine tracked.handler enabled rfl ?_
    split <;> exact fun _ => rfl
  | take n id base term transaction =>
    obtain ⟨held, -, taken⟩ := enabled
    obtain ⟨request, -⟩ := tracked.placed n _ held
    refine tracked.take taken (by simp [request, idle]) ?_ ?_
    · intro m holder elsewhere locked
      exact tracked.apart_of_request locked (by simp [request]) (by simp [request, Ne.symm elsewhere])
    · intro holder locked
      cases locked
      exact ⟨request, fun before => by cases before⟩
  | refuse n id base => exact tracked.handler enabled rfl (fun _ => rfl)
  | settle n id base term index ok => exact tracked.handler enabled.1 rfl (fun before => by cases before)
  | release n id base taken =>
    obtain ⟨request, unproposed⟩ := tracked.placed n _ enabled
    refine tracked.request (tracked.sent id (by simp [request])) ?_ ?_ (fun holder locked => by cases locked)
    · cases taken with
      | false => exact fun _ => unproposed rfl
      | true => exact fun before => by cases before
    · intro m holder elsewhere locked
      exact tracked.apart_of_request locked (by simp [request]) (by simp [request, Ne.symm elsewhere])
  | skip n => exact tracked.keepLock rfl
  | apply n e => exact tracked.keepLock (apply_lock _ e)
  | getLoan n e => exact tracked.keepLock rfl
  | validate n e => exact tracked.keepLock (validate_lock _ e)
  | acquire n e => exact tracked.setNode fun holder held => by cases held; trivial
  | append n e via written => exact tracked.keepLock (append_lock _ e via written)
  | store n e via => exact tracked.keepLock rfl
  | releaseOwn n => exact tracked.setNode fun holder held => by cases held
  | snapshot n => exact tracked.keepLock rfl
  | backup n index => exact tracked.keepLock rfl
  | elect n term source length =>
    obtain ⟨-, -, -, kept⟩ := enabled
    refine tracked.raft (fun m => ?_) rfl rfl ?_ ⟨term, by simpa [State.effect, State.setNode] using kept⟩
    · by_cases same : m = n <;> simp [State.effect, State.setNode, State.holder, same]
    · intro at' e member
      by_cases same : at' = term
      · subst same
        exact ⟨source, List.mem_of_mem_take (by simpa [State.effect, State.setNode] using member)⟩
      · exact ⟨at', by simpa [State.effect, State.setNode, same] using member⟩
  | stepDown n => exact tracked.keepLock rfl
  | barrier n term =>
    refine tracked.raft (fun _ => rfl) rfl rfl ?_ (covered_push tracked term none)
    intro at' e member
    by_cases same : at' = term
    · subst same
      exact ⟨at', by simpa [State.effect, State.push] using member⟩
    · exact ⟨at', by simpa [State.effect, State.push, same] using member⟩
  | drain n term place => exact ⟨tracked.known, tracked.covered, tracked.placed, tracked.sent, tracked.waits⟩
  | commit term length =>
    exact ⟨tracked.known, ⟨term, List.take_prefix ..⟩, tracked.placed, tracked.sent, tracked.waits⟩

theorem tracked_init {ι : Type} (start : Database Bytes) : Tracked (State.init start : State ι) where
  known := fun _ _ member => by cases member
  covered := ⟨0, List.prefix_rfl⟩
  placed := fun _ _ held => by cases held
  sent := fun _ asked => absurd rfl asked
  waits := fun _ asked => by cases asked

end Literaft.Proofs.Tracking
