import Literaft.RaftSqlite

/-! The rest of the raft store: the table of keys and values beside the one of the logs, and
`raftlogdump`, which reads a whole store back. -/

namespace Literaft.RaftStore
open Library RaftSqlite

/-- The key column allows NULL, and a NULL is equal to nothing. -/
abbrev Stable := List (Option Bytes × Bytes)

namespace Stable

/-- `INSERT … ON CONFLICT(key) DO UPDATE`. -/
def upsert (t : Stable) : Option Bytes → Bytes → Stable
  | none, value => (none, value) :: t
  | some key, value => (some key, value) :: t.filter fun entry => entry.1 ≠ some key

/-- `SELECT value … WHERE key = ?`. -/
def select (t : Stable) (key : Option Bytes) : Option Bytes :=
  key.bind fun key => (t.find? fun entry => entry.1 = some key).map Prod.snd

end Stable

/-- `panic` is the index out of range in `binary.BigEndian.Uint64`. -/
inductive StableError where
  | keyNotFound
  | panic
  deriving DecidableEq, Repr

def StableError.error : StableError → String
  | .keyNotFound => "not found"
  | .panic => "runtime error: index out of range"

section Stable
variable (driver : Driver)

/-- The value column does not allow NULL. -/
def set (t : Stable) (key val : Option Bytes) (fault : Option String) : Stable × Option String :=
  match fault with
  | some err => (t, some err)
  | none => match driver.bind val with
    | none => (t, some "sqlite3: constraint failed: NOT NULL constraint failed: stable.value")
    | some value => (t.upsert (driver.bind key) value, none)

def get (t : Stable) (key : Option Bytes) : Except StableError Bytes :=
  match t.select (driver.bind key) with
  | none => .error .keyNotFound
  | some value => .ok value

def setUint64 (t : Stable) (key : Option Bytes) (val : UInt64) (fault : Option String) : Stable × Option String :=
  set driver t key (some (be64 val)) fault

def getUint64 (t : Stable) (key : Option Bytes) : Except StableError UInt64 :=
  match get driver t key with
  | .error err => .error err
  | .ok val => if val.length < 8 then .error .panic else .ok (beUint64 val 0)

end Stable

inductive StoreCall where
  | log (call : Call)
  | set (key val : Option Bytes) (fault : Option String)
  | setUint64 (key : Option Bytes) (val : UInt64) (fault : Option String)

structure Store where
  logs : Table Row := []
  stable : Stable := []

def StoreCall.run (driver : Driver) (s : Store) : StoreCall → Store × Option String
  | .log call => ({ s with logs := (call.run driver s.logs).1 }, (call.run driver s.logs).2)
  | .set key val fault =>
    ({ s with stable := (RaftStore.set driver s.stable key val fault).1 }, (RaftStore.set driver s.stable key val fault).2)
  | .setUint64 key val fault =>
    ({ s with stable := (RaftStore.setUint64 driver s.stable key val fault).1 },
      (RaftStore.setUint64 driver s.stable key val fault).2)

/-- What the store is for: a map of the logs, and one from keys to values. -/
structure Maps where
  logs : LogMap := fun _ => none
  stable : Bytes → Option Bytes := fun _ => none

def Maps.put (m : Maps) (key val : Bytes) : Maps :=
  { m with stable := fun other => if other = key then some val else m.stable other }

def StoreCall.apply (m : Maps) : StoreCall → Maps
  | .log call => { m with logs := call.apply m.logs }
  | .set key val _ => m.put (key.getD []) (val.getD [])
  | .setUint64 key val _ => m.put (key.getD []) (be64 val)

def step (driver : Driver) (state : Store × Maps) (call : StoreCall) : Store × Maps :=
  let called := call.run driver state.1
  (called.1, if called.2.isSome then state.2 else call.apply state.2)

def run (driver : Driver) (calls : List StoreCall) : Store × Maps := calls.foldl (step driver) ({}, {})

/-- A call on the logs keeps to indexes and terms below 2⁶³. -/
def StoreCall.Bounded : StoreCall → Prop
  | .log call => call.Bounded
  | .set _ _ _ | .setUint64 _ _ _ => True

/-- A line of `raftlogdump`. Of a log there is one line for its fields and more for its data. -/
inductive Line where
  | empty
  | notFound (index : UInt64)
  | printed (log : Log)
  deriving DecidableEq

/-- The loop from an index on, as far as the fuel goes, with the error that ends it. -/
def dumpFrom (t : Table Row) (last : UInt64) : Nat → UInt64 → Option (List Line × Option String)
  | 0, _ => none
  | fuel + 1, idx =>
    if last < idx then some ([], none)
    else match getLog t idx with
      | .error .logNotFound => (dumpFrom t last fuel (idx + 1)).map fun rest => (.notFound idx :: rest.1, rest.2)
      | .error .scan => some ([], some s!"failed to read log at index {idx}")
      | .ok log => (dumpFrom t last fuel (idx + 1)).map fun rest => (.printed log :: rest.1, rest.2)

/-- `raftlogdump` once the store is open. -/
def dump (t : Table Row) (fuel : Nat) : Option (List Line × Option String) :=
  if lastIndex t = 0 then some ([.empty], none) else dumpFrom t (lastIndex t) fuel (firstIndex t)

end Literaft.RaftStore
