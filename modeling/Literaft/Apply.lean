import Literaft.Fsm
import Literaft.WalAppender

/-! `FSM.Apply` and the log it writes to. Raft hands a node one committed entry after
another; an entry is passed over if the node's own writer published it, and appended
under a lock on loan or under a lock of its own otherwise. -/

namespace Literaft.WalAppender.WALAppender
open Wal

/-- `released` is what the check of the held lock finds. -/
def appendFramesUnderLock (a : WALAppender) (released : Bool) (chance : Chance) (frames : List Frame) :
    Option (WALAppender × Option String) :=
  if released then some (a, some "AppendFramesUnderLockChan called without a valid held lock for this appender")
  else a.appendFramesLocked chance frames

/-- The lock is taken and released here; `checkpoints` are those that may follow the release. -/
def appendFrames (a : WALAppender) (chance : Chance) (checkpoints : List UInt32) (frames : List Frame) :
    Option (WALAppender × Option String) :=
  (a.appendFramesUnderLock false chance frames).map fun done => (checkpoints.foldl checkpoint done.1, done.2)

end Literaft.WalAppender.WALAppender

namespace Literaft.Apply
open Proto Fsm WalAppender

structure LogEntry (Id : Type) where
  id : Id
  transaction : Option LogEntryTransaction

/-- Whether the type is `LogCommand`, and what `proto.Unmarshal` makes of the data. -/
structure Log (Id : Type) where
  command : Bool
  index : Nat
  data : Except String (LogEntry Id)

structure Node (Id : Type) where
  fsm : FSM Id
  walAppender : WALAppender

/-- What one run finds: whether the loan it was given is released before the append looks
at it, what the append meets, and the checkpoints after it. -/
structure Around where
  released : Bool
  chance : Chance
  checkpoints : List UInt32

namespace Node

variable {Id : Type}

/-- What follows an append: a panic with `text` in front of the error, or the new index. -/
def appended (n : Node Id) (text : String) (index : Nat) (done : WALAppender × Option String) : Node Id × Option String :=
  match done.2 with
  | some err => ({ n with walAppender := done.1 }, some s!"{text} at index {index}: {err}")
  | none => (⟨n.fsm.store index, done.1⟩, none)

/-- `none` when the source does not return; the text is that of a panic. -/
def apply [DecidableEq Id] (n : Node Id) (log : Log Id) (around : Around) : Option (Node Id × Option String) :=
  if log.command = false then some (n, none)
  else match log.data with
    | .error err => some (n, some s!"failed to unmarshal committed entry at index {log.index}: {err}")
    | .ok entry =>
      let consumed := n.fsm.tryConsumeSkipMarker entry.id log.index
      if consumed.2 then some ({ n with fsm := consumed.1 }, none)
      else match entry.transaction with
        | none => some (n, none)
        | some txn =>
          if n.fsm.loans entry.id then
            (n.walAppender.appendFramesUnderLock around.released around.chance txn.frames).map
              (n.appended "failed to append forwarded entry" log.index)
          else
            (n.walAppender.appendFrames around.chance around.checkpoints txn.frames).map
              (n.appended "failed to append entry" log.index)

/-- Raft hands over one entry after another; a panic ends it. -/
def replay [DecidableEq Id] (n : Node Id) : List (Log Id × Around) → Option (Node Id × Option String)
  | [] => some (n, none)
  | (log, around) :: rest => (n.apply log around).bind fun done =>
      match done.2 with
      | some text => some (done.1, some text)
      | none => replay done.1 rest

end Node

structure Committed (Id : Type) where
  index : Nat
  id : Id
  txn : LogEntryTransaction

def Committed.log {Id : Type} (e : Committed Id) : Log Id := ⟨true, e.index, .ok ⟨e.id, some e.txn⟩⟩

end Literaft.Apply
