import Literaft.Proto

/-! The decisions of the gate: what `proposeEntry` and `handleRequest` return for what
they find, and what a forwarding follower does with a leader's answer. -/

namespace Literaft.Gate
open Proto

abbrev ServerAddress := String

/-- The four rejections of `proto/errors`, and the plain error of a failed marshal. -/
inductive ProposeError where
  | notLeader (leader : ServerAddress)
  | catchingUp
  | notApplied (reason : String) (cause : Option String)
  | ambiguous (cause : String)
  | marshal (cause : String)
  deriving DecidableEq, Repr

def ProposeError.error : ProposeError → String
  | .notLeader leader =>
    if leader = "" then "not the leader (leader unknown)" else "not the leader (leader hint: " ++ leader ++ ")"
  | .catchingUp => "elected leader but still draining the apply backlog"
  | .notApplied reason none => "write not applied: " ++ reason
  | .notApplied reason (some cause) => "write not applied: " ++ reason ++ ": " ++ cause
  | .ambiguous cause => "write outcome ambiguous (possibly committed): " ++ cause
  | .marshal cause => "failed to marshal entry: " ++ cause

inductive Category where
  | redirect
  | retryable
  | ambiguous
  deriving DecidableEq, Repr

/-- `errors.As` stops at the outermost rejection. The error of a failed marshal wraps none. -/
def ProposeError.classify : ProposeError → Option Category
  | .notLeader _ => some .redirect
  | .catchingUp | .notApplied _ _ => some .retryable
  | .ambiguous _ => some .ambiguous
  | .marshal _ => none

def ProposeError.safeToRetry (err : ProposeError) : Bool :=
  err.classify = some .redirect || err.classify = some .retryable

/-- What `raft.Apply`'s future says. Only `enqueueTimeout` proves that raft never took
the entry. -/
inductive Future where
  | ok
  | enqueueTimeout
  | failed (cause : String)
  deriving DecidableEq, Repr

/-- What one run of `proposeEntry` finds: the node's state and the leader it knows, the
drain's flag, an error of the marshal, and the future. -/
structure RaftView where
  leader : Bool
  hint : ServerAddress
  ready : Bool
  marshal : Option String
  future : Future
  deriving DecidableEq, Repr

namespace RaftView

/-- `proposeEntry` gets as far as `raft.Apply`. -/
def proposes (view : RaftView) : Bool := view.leader && view.ready && view.marshal.isNone

/-- The view fits a run in which raft took the entry, or did not. -/
def took (view : RaftView) : Bool → Bool
  | true => view.proposes && view.future ≠ .enqueueTimeout
  | false => !(view.proposes && view.future = .ok)

end RaftView

def proposeEntry (view : RaftView) : Option ProposeError :=
  if view.leader = false then some (.notLeader view.hint)
  else if view.ready = false then some .catchingUp
  else match view.marshal with
    | some cause => some (.marshal cause)
    | none =>
      match view.future with
      | .ok => none
      | .enqueueTimeout =>
        some (.notApplied "proposal not enqueued before timeout" (some "timed out enqueuing operation"))
      | .failed cause => some (.ambiguous cause)

inductive Status where
  | unspecified
  | ok
  | notLeader
  | staleBase
  | catchingUp
  | busy
  | ambiguous
  | invalid
  deriving DecidableEq, Repr

structure LeaderResponse where
  status : Status
  lastAppliedIndex : Nat := 0
  leaderAddr : ServerAddress := ""
  detail : String := ""
  deriving DecidableEq, Repr

structure LeaderRequest where
  lastAppliedIndex : Nat
  transaction : Option LogEntryTransaction
  deriving DecidableEq, Repr

def validatePages : List Page → Option String
  | [] => none
  | page :: rest =>
    if page.pgNo = 0 then some "forwarded transaction has a zero page number"
    else if page.data = [] then some "forwarded transaction has a page with no data"
    else validatePages rest

def validateRequest (req : LeaderRequest) : Option String :=
  match req.transaction with
  | none => some "forwarded entry has no transaction payload"
  | some txn =>
    if txn.nTruncate = 0 then some "forwarded transaction has nTruncate == 0 (not a whole committed txn)"
    else if txn.pages = [] then some "forwarded transaction has no pages"
    else validatePages txn.pages

def classifyApplyErr (err : ProposeError) : LeaderResponse :=
  match err with
  | .notLeader leader => { status := .notLeader, leaderAddr := leader, detail := err.error }
  | .catchingUp => { status := .catchingUp, detail := err.error }
  | .notApplied _ _ => { status := .busy, detail := err.error }
  | _ => { status := .ambiguous, detail := err.error }

/-- What one run of `handleRequest` finds: its own look at the node's state, an error of
`BeginHeldApply`, the index under the lock, `proposeEntry`'s view and the index after it. -/
structure HandlerView where
  leader : Bool
  hint : ServerAddress
  lock : Option String
  lastApplied : Nat
  propose : RaftView
  after : Nat
  deriving DecidableEq, Repr

def handleRequest (view : HandlerView) (req : LeaderRequest) : LeaderResponse :=
  match validateRequest req with
  | some err => { status := .invalid, detail := err }
  | none =>
    if view.leader = false then { status := .notLeader, leaderAddr := view.hint }
    else match view.lock with
      | some err => { status := .busy, detail := "failed to acquire write lock: " ++ err }
      | none =>
        if req.lastAppliedIndex ≠ view.lastApplied then
          { status := .staleBase, lastAppliedIndex := view.lastApplied }
        else match proposeEntry view.propose with
          | some err => classifyApplyErr err
          | none => { status := .ok, lastAppliedIndex := view.after }

namespace HandlerView

/-- The handler gets as far as `proposeEntry`. -/
def reaches (view : HandlerView) (req : LeaderRequest) : Bool :=
  (validateRequest req).isNone && view.leader && view.lock.isNone && req.lastAppliedIndex = view.lastApplied

/-- The view fits a run in which raft took the entry from this handler, or did not. -/
def took (view : HandlerView) (req : LeaderRequest) : Bool → Bool
  | true => view.reaches req && view.propose.took true
  | false => !view.reaches req || view.propose.took false

end HandlerView

inductive Reply where
  | response (res : LeaderResponse)
  | notApplied (reason : String)
  | error (cause : String)
  deriving DecidableEq, Repr

inductive Next where
  | fail (err : ProposeError)
  | await (cause : Option String)
  | retry (leader : ServerAddress)
  deriving DecidableEq, Repr

/-- The body of the loop of `forwardToLeader`, after `Propose` has returned. -/
def forwardToLeader (attempt : Nat) : Reply → Next
  | .notApplied reason => .fail (.notApplied reason none)
  | .error cause => .await (some cause)
  | .response res =>
    match res.status with
    | .ok => .await none
    | .staleBase =>
      .fail (.notApplied s!"forwarded write lost to a concurrent write (leader applied index {res.lastAppliedIndex})" none)
    | .catchingUp => .fail .catchingUp
    | .busy => .fail (.notApplied (if res.detail = "" then "leader busy" else "leader busy: " ++ res.detail) none)
    | .notLeader =>
      if attempt = 0 ∧ res.leaderAddr ≠ "" then .retry res.leaderAddr else .fail (.notLeader res.leaderAddr)
    | .ambiguous => .await (some res.detail)
    | .unspecified => .await (some "unknown forward status STATUS_UNSPECIFIED (STATUS_UNSPECIFIED)")
    | .invalid => .await (some "unknown forward status STATUS_INVALID (STATUS_INVALID)")

/-- A handler from which raft took the entry says so, or says that it does not know. -/
theorem handleRequest_took {view : HandlerView} {req : LeaderRequest} (taken : view.took req true = true) :
    (handleRequest view req).status = .ok ∨ (handleRequest view req).status = .ambiguous := by
  simp only [HandlerView.took, HandlerView.reaches, RaftView.took, RaftView.proposes, Bool.and_eq_true,
    Option.isNone_iff_eq_none, decide_eq_true_eq, ne_eq] at taken
  obtain ⟨⟨⟨⟨valid, leads⟩, locked⟩, base⟩, ⟨⟨proposer, ready⟩, marshalled⟩, enqueued⟩ := taken
  have reached : handleRequest view req = match proposeEntry view.propose with
      | some err => classifyApplyErr err
      | none => { status := .ok, lastAppliedIndex := view.after } := by
    simp [handleRequest, valid, leads, locked, base]
  rw [reached]
  cases resolved : view.propose.future with
  | ok => exact .inl (by simp [proposeEntry, proposer, ready, marshalled, resolved])
  | enqueueTimeout => exact absurd resolved enqueued
  | failed cause =>
    exact .inr (by simp [proposeEntry, proposer, ready, marshalled, resolved, classifyApplyErr])

theorem forwardToLeader_awaits {attempt : Nat} {res : LeaderResponse}
    (status : res.status = .ok ∨ res.status = .ambiguous) :
    ∃ cause, forwardToLeader attempt (.response res) = .await cause := by
  rcases status with status | status <;> simp [forwardToLeader, status]

end Literaft.Gate
