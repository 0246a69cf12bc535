import Literaft.Library.FileLock
import Literaft.Library.Machine
import Mathlib.Logic.Function.Basic

/-! The shared lock that an `FSM` holds on the database file. A connection that closes deletes the
-wal and the -shm file if it can lock the same bytes for writing. Every owner is an open file
description of the database file: the one of an `FSM`'s lock, or a connection. -/

namespace Literaft.DbLock
open Library

def sqlitePendingByte : Nat := 0x40000000
def sqliteSharedFirst : Nat := sqlitePendingByte + 2
def sqliteSharedSize : Nat := 510

/-- In `attached` an appender has opened the files with this number. The last two are phases of
connections. -/
inductive Phase where
  | closed
  | opened
  | holding
  | attached (files : Nat)
  | connected
  | exclusive
  deriving DecidableEq, Repr

/-- The -wal and -shm files come and go together; each pair has a number. -/
structure State (Owner : Type) where
  locks : FileLocks Owner := fun _ => []
  phases : Owner → Phase := fun _ => .closed
  files : Option Nat := none
  made : Nat := 0

inductive Action (Owner : Type) where
  | openFile (o : Owner)
  | readLock (o : Owner)
  | lockFails (o : Owner)
  | openAppender (o : Owner)
  | closeAppender (o : Owner)
  | closeLock (o : Owner)
  | connect (c : Owner)
  | useFiles (c : Owner)
  | share (c : Owner)
  | unshare (c : Owner)
  | exclude (c : Owner)
  | delete (c : Owner)
  | disconnect (c : Owner)

variable {Owner : Type} [DecidableEq Owner]

namespace State

def put (s : State Owner) (o : Owner) (phase : Phase) : State Owner := { s with phases := Function.update s.phases o phase }

/-- Closing the file gives up its locks. -/
def release (s : State Owner) (o : Owner) : State Owner := { s.put o .closed with locks := s.locks.close o }

def attempt (s : State Owner) (o : Owner) (kind : LockKind) (phase : Phase) : State Owner :=
  match s.locks.setLock o kind sqliteSharedFirst sqliteSharedSize with
  | some locks => { s.put o phase with locks }
  | none => s

/-- Opening the files makes them if there are none. -/
def create (s : State Owner) : State Owner :=
  match s.files with
  | some _ => s
  | none => { s with files := some s.made, made := s.made + 1 }

end State

/-- `acquireSharedDBLock`, `walappender.Open` and `FSM.Close`, beside connections of any process. -/
def step (s : State Owner) : Action Owner → Option (State Owner)
  | .openFile o => if s.phases o = .closed then some (s.put o .opened) else none
  | .readLock o => if s.phases o = .opened then some (s.attempt o .read .holding) else none
  | .lockFails o => if s.phases o = .opened then some (s.release o) else none
  | .openAppender o =>
    if s.phases o = .holding then some (s.create.put o (.attached (s.create.files.getD 0))) else none
  | .closeAppender o =>
    match s.phases o with
    | .attached _ => some (s.put o .holding)
    | _ => none
  | .closeLock o => if s.phases o = .holding then some (s.release o) else none
  | .connect c => if s.phases c = .closed then some (s.put c .connected) else none
  | .useFiles c => if s.phases c = .connected then some s.create else none
  | .share c => if s.phases c = .connected then some (s.attempt c .read .connected) else none
  | .unshare c =>
    if s.phases c = .connected then some { s with locks := s.locks.unlock c sqliteSharedFirst sqliteSharedSize } else none
  | .exclude c => if s.phases c = .connected then some (s.attempt c .write .exclusive) else none
  | .delete c => if s.phases c = .exclusive then some { s with files := none } else none
  | .disconnect c => if s.phases c = .connected ∨ s.phases c = .exclusive then some (s.release c) else none

end Literaft.DbLock
