import Mathlib.Algebra.Group.Int.Defs
import Literaft.Library.Bytes
import Literaft.Library.Table

/-! The log store of raft on a table of SQLite. Every field of a log crosses a conversion on
its way into the table and another on its way out. -/

namespace Literaft.RaftSqlite
open Library

/-- A value in 64 bits with a sign. -/
def wrap64 (value : Int) : Int := value.bmod (2 ^ 64)

/-- `int64(u)`. -/
def int64 (u : UInt64) : Int := wrap64 u.toNat

/-- `uint64(i)`. -/
def uint64 (i : Int) : UInt64 := UInt64.ofNat (i % 2 ^ 64).toNat

structure Time where
  sec : Int
  nsec : Nat
  valid : nsec < 10 ^ 9
  deriving DecidableEq

namespace Time

def nanos (t : Time) : Int := t.sec * 10 ^ 9 + t.nsec

/-- The nanoseconds are multiplied and added in 64 bits. -/
def unixNano (t : Time) : Int := wrap64 t.nanos

/-- `time.Unix(0, nsec)`. -/
def unix (nsec : Int) : Time where
  sec := nsec / 10 ^ 9
  nsec := (nsec % 10 ^ 9).toNat
  valid := by omega

/-- The value of a variable that nothing was assigned to: the first of January of year 1. -/
def zero : Time := ⟨-62135596800, 0, by decide⟩

/-- The time can be told in 64-bit nanoseconds. -/
def InRange (t : Time) : Prop := -2 ^ 63 ≤ t.nanos ∧ t.nanos < 2 ^ 63

end Time

/-- A nil slice is `none`. -/
structure Log where
  index : UInt64
  term : UInt64
  type : UInt8
  data : Option Bytes
  extensions : Option Bytes
  appendedAt : Time
  deriving DecidableEq

structure Row where
  term : Int
  type : Int
  data : Option Bytes
  extensions : Option Bytes
  appendedAt : Int
  deriving DecidableEq

/-- How the driver hands over a slice. It may write a nil slice as an empty one, or an empty one
as NULL. -/
structure Driver where
  bind : Option Bytes → Option Bytes
  faithful : ∀ slice, (bind slice).getD [] = slice.getD []

/-- The errors of `StoreLogs`, each with its text. -/
structure StoreFaults where
  begin : Option String := none
  prepare : Option String := none
  exec : Option (Nat × String) := none
  commit : Option String := none

section Store
variable (driver : Driver)

def row (log : Log) : Row where
  term := int64 log.term
  type := log.type.toNat
  data := driver.bind log.data
  extensions := driver.bind log.extensions
  appendedAt := log.appendedAt.unixNano

/-- The loop of `StoreLogs`, from the log with this number on. -/
def execLogs (fault : Option (Nat × String)) : Nat → Table Row → List Log → Except String (Table Row)
  | _, t, [] => .ok t
  | i, t, log :: rest =>
    match fault with
    | some (failing, err) =>
      if failing = i then .error err else execLogs fault (i + 1) (t.upsert (int64 log.index) (row driver log)) rest
    | none => execLogs fault (i + 1) (t.upsert (int64 log.index) (row driver log)) rest

/-- Before its commit the transaction works on a table of its own. -/
def storeLogs (t : Table Row) (logs : List Log) (faults : StoreFaults) : Table Row × Option String :=
  match faults.begin, faults.prepare with
  | some err, _ | none, some err => (t, some err)
  | none, none => match execLogs driver faults.exec 0 t logs, faults.commit with
    | .error err, _ => (t, some err)
    | .ok _, some err => (t, some err)
    | .ok changed, none => (changed, none)

def storeLog (t : Table Row) (log : Log) (faults : StoreFaults) : Table Row × Option String := storeLogs driver t [log] faults

end Store

def deleteRange (t : Table Row) (min max : UInt64) (fault : Option String) : Table Row × Option String :=
  match fault with
  | some err => (t, some err)
  | none => (t.deleteBetween (int64 min) (int64 max), none)

/-- NULL is read as zero. -/
def firstIndex (t : Table Row) : UInt64 := uint64 (t.minKey.getD 0)

def lastIndex (t : Table Row) : UInt64 := uint64 (t.maxKey.getD 0)

inductive GetError where
  | logNotFound
  | scan
  deriving DecidableEq

/-- A negative number cannot be scanned into `term`. -/
def getLog (t : Table Row) (index : UInt64) : Except GetError Log :=
  match t.select (int64 index) with
  | none => .error .logNotFound
  | some r =>
    if r.term < 0 then .error .scan
    else .ok {
      index
      term := uint64 r.term
      type := UInt8.ofNat (r.type % 256).toNat
      data := r.data
      extensions := r.extensions
      appendedAt := Time.unix r.appendedAt }

inductive Call where
  | storeLogs (logs : List Log) (faults : StoreFaults)
  | storeLog (log : Log) (faults : StoreFaults)
  | deleteRange (min max : UInt64) (fault : Option String)

def Call.run (driver : Driver) (t : Table Row) : Call → Table Row × Option String
  | .storeLogs logs faults => RaftSqlite.storeLogs driver t logs faults
  | .storeLog log faults => RaftSqlite.storeLog driver t log faults
  | .deleteRange min max fault => RaftSqlite.deleteRange t min max fault

/-! What the store is for: a finite map from indexes to logs. -/

abbrev LogMap := UInt64 → Option Log

def LogMap.store (m : LogMap) (log : Log) : LogMap := fun i => if i = log.index then some log else m i

def LogMap.deleteRange (m : LogMap) (min max : UInt64) : LogMap := fun i => if min ≤ i ∧ i ≤ max then none else m i

def Call.apply (m : LogMap) : Call → LogMap
  | .storeLogs logs _ => logs.foldl LogMap.store m
  | .storeLog log _ => m.store log
  | .deleteRange min max _ => m.deleteRange min max

/-- The logs of a call, and the bounds of a range, are below 2⁶³. -/
def Call.Bounded : Call → Prop
  | .storeLogs logs _ => ∀ log ∈ logs, log.index.toNat < 2 ^ 63 ∧ log.term.toNat < 2 ^ 63
  | .storeLog log _ => log.index.toNat < 2 ^ 63 ∧ log.term.toNat < 2 ^ 63
  | .deleteRange min max _ => min.toNat < 2 ^ 63 ∧ max.toNat < 2 ^ 63

/-- The table and the map after one more call. A call that fails leaves the map. -/
def step (driver : Driver) (state : Table Row × LogMap) (call : Call) : Table Row × LogMap :=
  let called := call.run driver state.1
  (called.1, if called.2.isSome then state.2 else call.apply state.2)

def run (driver : Driver) (calls : List Call) : Table Row × LogMap := calls.foldl (step driver) ([], fun _ => none)

/-- Nil and empty slices are the same. -/
structure Same (got log : Log) : Prop where
  index : got.index = log.index
  term : got.term = log.term
  type : got.type = log.type
  data : got.data.getD [] = log.data.getD []
  extensions : got.extensions.getD [] = log.extensions.getD []
  appendedAt : got.appendedAt = log.appendedAt

/-- The store answers as the map does. -/
structure Answers (t : Table Row) (m : LogMap) : Prop where
  empty : (∀ i, m i = none) → firstIndex t = 0 ∧ lastIndex t = 0
  first : ∀ i, (m i).isSome → (m (firstIndex t)).isSome ∧ firstIndex t ≤ i
  last : ∀ i, (m i).isSome → (m (lastIndex t)).isSome ∧ i ≤ lastIndex t
  missing : ∀ i, m i = none → getLog t i = .error .logNotFound
  found : ∀ i log, m i = some log → ∃ got, getLog t i = .ok got ∧ Same got log

end Literaft.RaftSqlite
