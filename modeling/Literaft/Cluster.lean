import Literaft.Fsm
import Literaft.Library.Journal
import Literaft.Library.Machine
import Literaft.Proto

/-! A cluster over a raft service: on every node the WAL write lock and whoever holds it,
the database, the state machine's goroutine and its snapshots, between nodes the forwarded
requests, and under them the logs of raft's terms. -/

namespace Literaft.Cluster
open Library Wal Fsm Proto

structure Entry where
  id : Nat
  transaction : LogEntryTransaction
  deriving DecidableEq, Repr

def Entry.apply (db : Database Bytes) (e : Entry) : Database Bytes :=
  db.apply (change e.transaction.frames e.transaction.nTruncate)

/-- A connection inside `ProposeTransaction` or on its way in or out. It waits for raft, which
has its entry at `index` in `term`, or for a request with base index `base`. When the call has
returned, SQLite publishes the wal-index header or rolls back. -/
inductive WriterPc where
  | computed
  | marked
  | waiting (term index : Nat)
  | forwarding (attempt base : Nat)
  | succeeded
  | failed
  | returned
  | published
  | discarded
  deriving DecidableEq, Repr

/-- `handleRequest` between `BeginHeldApply` and its release. -/
inductive HandlerPc where
  | held
  | checked
  | waiting (term index : Nat)
  | resolved
  | refused
  deriving DecidableEq, Repr

/-- Who holds a node's WAL write lock: a connection that has nothing to propose yet, a
connection with the transaction `id`, the handler of the request for entry `id`, whose
base index is `base`, or `Apply`. -/
inductive Holder where
  | opened
  | writer (id : Nat) (pc : WriterPc)
  | handler (id base : Nat) (pc : HandlerPc)
  | apply
  deriving DecidableEq, Repr

inductive Via where
  | loan
  | own
  deriving DecidableEq, Repr

/-- The goroutine that runs `Apply` and `Snapshot`. -/
inductive ApplyPc where
  | idle
  | missed (e : Entry)
  | loaned (e : Entry)
  | acquiring (e : Entry)
  | appending (e : Entry) (via : Via) (written : Nat)
  | appended (e : Entry) (via : Via)
  | releasing
  | panicked
  | snapshotting (index : Nat)
  deriving DecidableEq, Repr

/-- `applied` counts the log entries the goroutine is done with, `unpublished` holds the
ids whose marker `Apply` consumed and whose writer has not published, `streams` the
snapshots taken, and `leads` is the term the node is leader of. -/
structure Node where
  lock : Option Holder := none
  db : Database Bytes
  fsm : FSM Nat := {}
  pc : ApplyPc := .idle
  applied : Nat := 0
  unpublished : List Nat := []
  streams : List (Nat × Database Bytes) := []
  leads : Option Nat := none

/-- The node a transaction was computed on, the database it was computed from, and what
it proposes. -/
structure Author (ι : Type) where
  node : ι
  base : Database Bytes
  transaction : LogEntryTransaction

/-- A request and, once it is answered or lost, whether raft took its entry. -/
inductive Request (ι : Type) where
  | unsent
  | inFlight (target : ι) (base : Nat)
  | handling (on : ι)
  | answered (taken : Bool)
  deriving DecidableEq, Repr

/-- `log` is the log of each term's leader, `barriers` the places of its barriers, and
`drained` says whether one of them has completed. An entry of a log that is no command is
`none`. -/
structure State (ι : Type) where
  nodes : ι → Node
  authors : Nat → Option (Author ι) := fun _ => none
  requests : Nat → Request ι := fun _ => .unsent
  log : Nat → List (Option Entry) := fun _ => []
  barriers : Nat → List Nat := fun _ => []
  drained : Nat → Bool := fun _ => false
  elections : List Nat := []
  committed : List (Option Entry) := []

/-- An action names what it finds: the id and the point its party has reached. -/
inductive Action (ι : Type) where
  | lock (n : ι)
  | compute (n : ι) (id : Nat) (transaction : LogEntryTransaction)
  | mark (n : ι) (id : Nat)
  | accept (n : ι) (id term : Nat) (transaction : LogEntryTransaction)
  | reject (n : ι) (id : Nat)
  | forward (n : ι) (id : Nat) (target : ι)
  | retry (n : ι) (id base : Nat) (target : ι)
  | decline (n : ι) (id attempt base : Nat)
  | lose (n : ι) (id attempt base : Nat) (target : ι)
  | await (n : ι) (id attempt base : Nat)
  | resolve (n : ι) (id term index : Nat) (ok : Bool)
  | finish (n : ι) (id : Nat) (ok : Bool)
  | publish (n : ι) (id : Nat) (transaction : LogEntryTransaction)
  | unlock (n : ι) (holder : Holder)
  | serve (id base : Nat) (target : ι)
  | dismiss (id base : Nat) (target : ι)
  | check (n : ι) (id base : Nat)
  | take (n : ι) (id base term : Nat) (transaction : LogEntryTransaction)
  | refuse (n : ι) (id base : Nat)
  | settle (n : ι) (id base term index : Nat) (ok : Bool)
  | release (n : ι) (id base : Nat) (taken : Bool)
  | skip (n : ι)
  | apply (n : ι) (e : Entry)
  | getLoan (n : ι) (e : Entry)
  | validate (n : ι) (e : Entry)
  | acquire (n : ι) (e : Entry)
  | append (n : ι) (e : Entry) (via : Via) (written : Nat)
  | store (n : ι) (e : Entry) (via : Via)
  | releaseOwn (n : ι)
  | snapshot (n : ι)
  | backup (n : ι) (index : Nat)
  | elect (n : ι) (term source length : Nat)
  | stepDown (n : ι)
  | barrier (n : ι) (term : Nat)
  | drain (n : ι) (term place : Nat)
  | commit (term length : Nat)

/-- The transaction is over, or was never proposed. -/
def Holder.leaves : Holder → Bool
  | .opened | .writer _ .computed | .writer _ .published | .writer _ .discarded => true
  | _ => false

variable {ι : Type} [DecidableEq ι]

namespace State

def holder (s : State ι) (n : ι) : Option Holder := (s.nodes n).lock

def transaction (s : State ι) (id : Nat) : Option LogEntryTransaction := (s.authors id).map Author.transaction

/-- Raft hands a node the next committed entry; a leader has it in its own log. -/
def hands (s : State ι) (n : ι) (item : Option Entry) : Prop :=
  (s.nodes n).pc = .idle ∧ s.committed[(s.nodes n).applied]? = some item ∧
    ((s.nodes n).leads.all fun term => (s.log term)[(s.nodes n).applied]? = some item) = true

instance (s : State ι) (n : ι) (item : Option Entry) : Decidable (s.hands n item) :=
  inferInstanceAs (Decidable (_ ∧ _ ∧ _))

/-- A future resolves with nil once its entry is applied on this node, and it fails only
after the node has lost the leadership of its term. -/
def resolves (s : State ι) (n : ι) (id term index : Nat) : Bool → Prop
  | true => index < (s.nodes n).applied ∧ (s.committed[index]?.join.map Entry.id) = some id
  | false => (s.nodes n).leads ≠ some term

instance (s : State ι) (n : ι) (id term index : Nat) : (ok : Bool) → Decidable (s.resolves n id term index ok)
  | true => inferInstanceAs (Decidable (_ ∧ _))
  | false => inferInstanceAs (Decidable (_ ≠ _))

/-- A look at raft's state that sent a call or a handler its way may be out of date, so
only `raft.Apply` itself asks for a leader. A term is won once, after all earlier
elections, by a node whose log is an earlier leader's up to some place and holds everything
committed. A leader's entries are committed when all later leaders have them too. -/
def enabled (s : State ι) : Action ι → Prop
  | .lock n => s.holder n = none
  | .compute n id transaction => s.holder n = some .opened ∧ s.authors id = none ∧ transaction.pages ≠ []
  | .mark n id => s.holder n = some (.writer id .computed)
  | .accept n id term transaction =>
    s.holder n = some (.writer id .marked) ∧ (s.nodes n).leads = some term ∧ s.transaction id = some transaction
  | .reject n id => s.holder n = some (.writer id .marked)
  | .forward n id _ => s.holder n = some (.writer id .marked)
  | .retry n id base _ => s.holder n = some (.writer id (.forwarding 0 base)) ∧ s.requests id = .answered false
  | .decline n id attempt base =>
    s.holder n = some (.writer id (.forwarding attempt base)) ∧ s.requests id = .answered false
  | .lose n id attempt base target =>
    s.holder n = some (.writer id (.forwarding attempt base)) ∧ s.requests id = .inFlight target base
  | .await n id attempt base => s.holder n = some (.writer id (.forwarding attempt base))
  | .resolve n id term index ok =>
    s.holder n = some (.writer id (.waiting term index)) ∧ s.resolves n id term index ok
  | .finish n id ok => s.holder n = some (.writer id (if ok then .succeeded else .failed))
  | .publish n id transaction => s.holder n = some (.writer id .returned) ∧ s.transaction id = some transaction
  | .unlock n holder => s.holder n = some holder ∧ holder.leaves = true
  | .serve id base target => s.requests id = .inFlight target base ∧ s.holder target = none
  | .dismiss id base target => s.requests id = .inFlight target base
  | .check n id base => s.holder n = some (.handler id base .held)
  | .take n id base term transaction =>
    s.holder n = some (.handler id base .checked) ∧ (s.nodes n).leads = some term ∧
      s.transaction id = some transaction
  | .refuse n id base => s.holder n = some (.handler id base .checked)
  | .settle n id base term index ok =>
    s.holder n = some (.handler id base (.waiting term index)) ∧ s.resolves n id term index ok
  | .release n id base taken => s.holder n = some (.handler id base (if taken then .resolved else .refused))
  | .skip n => s.hands n none
  | .apply n e => s.hands n (some e)
  | .getLoan n e => (s.nodes n).pc = .missed e
  | .validate n e => (s.nodes n).pc = .loaned e
  | .acquire n e => (s.nodes n).pc = .acquiring e ∧ s.holder n = none
  | .append n e via written => (s.nodes n).pc = .appending e via written
  | .store n e via => (s.nodes n).pc = .appended e via
  | .releaseOwn n => (s.nodes n).pc = .releasing
  | .snapshot n => (s.nodes n).pc = .idle
  | .backup n index => (s.nodes n).pc = .snapshotting index
  | .elect n term source length =>
    (s.nodes n).leads = none ∧ (∀ earlier ∈ s.elections, earlier < term) ∧ source < term ∧
      s.committed <+: (s.log source).take length
  | .stepDown n => (s.nodes n).leads ≠ none
  | .barrier n term => (s.nodes n).leads = some term
  | .drain n term place => (s.nodes n).leads = some term ∧ place ∈ s.barriers term ∧ place < (s.nodes n).applied
  | .commit term length =>
    term ∈ s.elections ∧ s.committed <+: (s.log term).take length ∧
      ∀ later ∈ s.elections, term < later → (s.log term).take length <+: s.log later

instance (s : State ι) : (action : Action ι) → Decidable (s.enabled action)
  | .compute .. | .accept .. | .retry .. | .decline .. | .lose .. | .resolve .. | .publish ..
  | .unlock .. | .serve .. | .take .. | .settle .. | .acquire .. | .elect .. | .drain .. | .commit .. =>
    inferInstanceAs (Decidable (_ ∧ _))
  | .lock .. | .mark .. | .reject .. | .forward .. | .await .. | .finish .. | .dismiss .. | .check .. | .refuse .. | .release ..
  | .getLoan .. | .validate .. | .append .. | .store .. | .releaseOwn .. | .snapshot .. | .backup .. | .barrier .. =>
    inferInstanceAs (Decidable (_ = _))
  | .stepDown .. => inferInstanceAs (Decidable (_ ≠ _))
  | .skip n => inferInstanceAs (Decidable (s.hands n none))
  | .apply n e => inferInstanceAs (Decidable (s.hands n (some e)))

def setNode (s : State ι) (n : ι) (node : Node) : State ι := { s with nodes := Function.update s.nodes n node }

def setLock (s : State ι) (n : ι) (lock : Option Holder) : State ι := s.setNode n { s.nodes n with lock := lock }

def setPc (s : State ι) (n : ι) (pc : ApplyPc) : State ι := s.setNode n { s.nodes n with pc := pc }

def setRequest (s : State ι) (id : Nat) (request : Request ι) : State ι :=
  { s with requests := Function.update s.requests id request }

def push (s : State ι) (term : Nat) (item : Option Entry) : State ι :=
  { s with log := Function.update s.log term (s.log term ++ [item]) }

end State

namespace Node

/-- The deferred `DeleteSkipMarker`. -/
def finish (node : Node) (id : Nat) (pc : WriterPc) : Node :=
  { node with fsm := node.fsm.deleteSkipMarker id, lock := some (.writer id pc) }

/-- `AwaitSkipMarkerConsumed` returns: the marker was consumed, or the deadline is over. -/
def await (node : Node) (id : Nat) : Node :=
  { node with
    fsm := (node.fsm.expireSkipMarker id).1
    lock := some (.writer id (if (node.fsm.expireSkipMarker id).2 then .succeeded else .failed)) }

/-- SQLite publishes the wal-index header over the frames of the transaction. Between the read of the
database and this step nobody else publishes, unless a release has overtaken `Apply`: of two such
writers the later one covers what the other wrote, which `db` does not say. -/
def publish (node : Node) (id : Nat) (transaction : LogEntryTransaction) : Node :=
  { node with
    db := Entry.apply node.db ⟨id, transaction⟩
    unpublished := node.unpublished.filter (· ≠ id)
    lock := some (.writer id .published) }

def apply (node : Node) (e : Entry) : Node :=
  if (node.fsm.tryConsumeSkipMarker e.id (node.applied + 1)).2 then
    { node with
      fsm := (node.fsm.tryConsumeSkipMarker e.id (node.applied + 1)).1
      applied := node.applied + 1
      unpublished := e.id :: node.unpublished }
  else { node with pc := .missed e }

/-- `AppendFramesUnderLockChan`'s check that the handler has not released its lock. -/
def validate (node : Node) (e : Entry) : Node :=
  match node.lock with
  | some (.handler id _ _) => { node with pc := if id = e.id then .appending e .loan 0 else .panicked }
  | _ => { node with pc := .panicked }

/-- One frame is written; the last one carries the size, so it publishes the header. -/
def append (node : Node) (e : Entry) (via : Via) (written : Nat) : Node :=
  if written + 1 < e.transaction.frames.length then { node with pc := .appending e via (written + 1) }
  else { node with db := Entry.apply node.db e, pc := .appended e via }

/-- `lastApplied.Store`, on the loan path as `Apply`'s last step. -/
def store (node : Node) (via : Via) : Node :=
  { node with
    fsm := node.fsm.store (node.applied + 1)
    applied := node.applied + 1
    pc := match via with
      | .loan => .idle
      | .own => .releasing }

end Node

namespace State

def effect (s : State ι) : Action ι → State ι
  | .lock n => s.setLock n (some .opened)
  | .compute n id transaction =>
    ({ s with authors := Function.update s.authors id (some ⟨n, (s.nodes n).db, transaction⟩) } : State ι).setLock n
      (some (.writer id .computed))
  | .mark n id =>
    s.setNode n { s.nodes n with fsm := (s.nodes n).fsm.createSkipMarker id, lock := some (.writer id .marked) }
  | .accept n id term transaction =>
    (s.push term (some ⟨id, transaction⟩)).setLock n (some (.writer id (.waiting term (s.log term).length)))
  | .reject n id => s.setLock n (some (.writer id .failed))
  | .forward n id target =>
    (s.setRequest id (.inFlight target (s.nodes n).fsm.lastApplied)).setLock n
      (some (.writer id (.forwarding 0 (s.nodes n).fsm.lastApplied)))
  | .retry n id base target => (s.setRequest id (.inFlight target base)).setLock n (some (.writer id (.forwarding 1 base)))
  | .decline n id _ _ => s.setLock n (some (.writer id .failed))
  | .lose n id _ _ _ => (s.setRequest id (.answered false)).setLock n (some (.writer id .failed))
  | .await n id _ _ => s.setNode n ((s.nodes n).await id)
  | .resolve n id _ _ ok => s.setLock n (some (.writer id (if ok then .succeeded else .failed)))
  | .finish n id ok => s.setNode n ((s.nodes n).finish id (if ok then .returned else .discarded))
  | .publish n id transaction => s.setNode n ((s.nodes n).publish id transaction)
  | .unlock n _ => s.setLock n none
  | .serve id base target =>
    (s.setRequest id (.handling target)).setNode target
      { s.nodes target with lock := some (.handler id base .held), fsm := (s.nodes target).fsm.lend id }
  | .dismiss id _ _ => s.setRequest id (.answered false)
  | .check n id base =>
    s.setLock n (some (.handler id base (if base = (s.nodes n).fsm.lastApplied then .checked else .refused)))
  | .take n id base term transaction =>
    (s.push term (some ⟨id, transaction⟩)).setLock n (some (.handler id base (.waiting term (s.log term).length)))
  | .refuse n id base => s.setLock n (some (.handler id base .refused))
  | .settle n id base _ _ _ => s.setLock n (some (.handler id base .resolved))
  | .release n id _ taken =>
    (s.setRequest id (.answered taken)).setNode n { s.nodes n with lock := none, fsm := (s.nodes n).fsm.endLoan id }
  | .skip n => s.setNode n { s.nodes n with applied := (s.nodes n).applied + 1 }
  | .apply n e => s.setNode n ((s.nodes n).apply e)
  | .getLoan n e => s.setPc n (if (s.nodes n).fsm.loans e.id then .loaned e else .acquiring e)
  | .validate n e => s.setNode n ((s.nodes n).validate e)
  | .acquire n e => s.setNode n { s.nodes n with lock := some .apply, pc := .appending e .own 0 }
  | .append n e via written => s.setNode n ((s.nodes n).append e via written)
  | .store n _ via => s.setNode n ((s.nodes n).store via)
  | .releaseOwn n => s.setNode n { s.nodes n with lock := none, pc := .idle }
  | .snapshot n => s.setPc n (.snapshotting (s.nodes n).fsm.lastApplied)
  | .backup n index =>
    s.setNode n { s.nodes n with streams := (index, (s.nodes n).db) :: (s.nodes n).streams, pc := .idle }
  | .elect n term source length =>
    ({ s with
      log := Function.update s.log term ((s.log source).take length)
      elections := term :: s.elections } : State ι).setNode n { s.nodes n with leads := some term }
  | .stepDown n => s.setNode n { s.nodes n with leads := none }
  | .barrier _ term =>
    { s.push term none with barriers := Function.update s.barriers term ((s.log term).length :: s.barriers term) }
  | .drain _ term _ => { s with drained := Function.update s.drained term true }
  | .commit term length => { s with committed := (s.log term).take length }

def step (s : State ι) (action : Action ι) : Option (State ι) :=
  if s.enabled action then some (s.effect action) else none

theorem step_eq_some {s s' : State ι} {action : Action ι} :
    s.step action = some s' ↔ s.enabled action ∧ s.effect action = s' := by
  simp [step]

def init {ι : Type} (start : Database Bytes) : State ι := { nodes := fun _ => { db := start } }

end State

end Literaft.Cluster
