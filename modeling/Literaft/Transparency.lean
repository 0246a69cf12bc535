import Literaft.Sqlite

/-! The gated file of a sole writer beside a plain file. Both are given the same `WriteAt`
calls: transactions with their spills, in-place writes, rollbacks and header rewrites, and
the log headers of restarts. -/

namespace Literaft.Transparency
open Library Wal Vfs Sqlite

structure File where
  bytes : Storage
  size : Nat

namespace File

def writeAt (file : File) (p : Bytes) (off : Nat) : File :=
  ⟨file.bytes.write off p, max file.size (off + p.length)⟩

/-- What a call of the gated file does to the file it wraps. -/
def effect (file : File) : Effect → File
  | .write off p => file.writeAt p off
  | .propose _ _ => file

end File

def eventCalls (pageSize : UInt32) (mxFrame : Nat) : Event → List Call
  | .others _ => []
  | .restart header => header.toList.map fun p => ⟨p, 0, none⟩
  | .txn t => t.calls pageSize (mxFrame + 1)

/-- One connection, the file its gated file wraps, and the plain file. -/
structure Twin where
  session : Session
  wrapped : File
  plain : File

structure Record where
  event : Event
  calls : List Call
  played : Played

namespace Twin

def record (pageSize : UInt32) (x : Twin) (event : Event) : Record :=
  let calls := eventCalls pageSize x.session.mxFrame event
  ⟨event, calls, play x.session.file calls⟩

def step (pageSize : UInt32) (x : Twin) (event : Event) : Twin where
  session := x.session.step pageSize event
  wrapped := (x.record pageSize event).played.effects.foldl File.effect x.wrapped
  plain := (x.record pageSize event).calls.foldl (fun file call => file.writeAt call.p call.off) x.plain

def run (pageSize : UInt32) (x : Twin) (events : List Event) : Twin := events.foldl (step pageSize) x

def records (pageSize : UInt32) : Twin → List Event → List Record
  | _, [] => []
  | x, event :: rest => x.record pageSize event :: records pageSize (x.step pageSize event) rest

/-- No one else writes, the log has its header before its first frame, no transaction goes
back to a savepoint, and the gate approves. -/
def allows (pageSize : UInt32) (x : Twin) : Event → Prop
  | .others _ => False
  | .restart header => header.isSome ∧ (Event.restart header).legal pageSize
  | .txn t => x.session.file.pageSize ≠ 0 ∧ t.Legal pageSize ∧ (∀ op ∈ t.body, op.rollsBack = false) ∧
      ∀ c ∈ t.commit, c.answer = none

instance (pageSize : UInt32) (x : Twin) : (event : Event) → Decidable (x.allows pageSize event)
  | .others _ => inferInstanceAs (Decidable False)
  | .restart _ => inferInstanceAs (Decidable (_ ∧ _))
  | .txn _ => inferInstanceAs (Decidable (_ ∧ _))

def allowsAll (pageSize : UInt32) : Twin → List Event → Prop
  | _, [] => True
  | x, event :: rest => x.allows pageSize event ∧ allowsAll pageSize (x.step pageSize event) rest

instance allowsAll.decidable (pageSize : UInt32) : (x : Twin) → (events : List Event) → Decidable (allowsAll pageSize x events)
  | _, [] => inferInstanceAs (Decidable True)
  | x, event :: rest =>
    have := allowsAll.decidable pageSize (x.step pageSize event) rest
    inferInstanceAs (Decidable (_ ∧ _))

end Twin

/-- One proposal for a commit frame, with the frames of the transaction, and none otherwise. -/
def Record.due (r : Record) : List (List Frame × Bool) :=
  match r.event with
  | .txn t => t.commit.toList.map fun _ => (t.frames, true)
  | _ => []

end Literaft.Transparency
