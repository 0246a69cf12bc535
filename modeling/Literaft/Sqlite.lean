import Literaft.Vfs

/-! The log writes one SQLite connection issues through its gated file. A transaction
appends header and data pairs behind the last published frame, may overwrite the data
of frames it already spilled, may go back to a savepoint, and ends in a commit frame
or a rollback. After an approved commit SQLite may rewrite the headers of that
transaction's frames to repair the checksum chain. -/

namespace Literaft.Sqlite
open Library Wal Vfs

/-- Frames of the running transaction are counted from zero. -/
inductive Op where
  | append (header : FrameHeader) (data : Bytes)
  | overwrite (frame : Nat) (data : Bytes)
  | rollbackTo (live : Nat)
  deriving DecidableEq, Repr

namespace Op

def live (frames : List Frame) : Op → List Frame
  | .append header data => frames ++ [⟨header, data⟩]
  | .overwrite frame data => frames.modify frame fun old => { old with data }
  | .rollbackTo live => frames.take live

def legal (pageSize : UInt32) (frames : List Frame) : Op → Prop
  | .append header data => header.nTruncate = 0 ∧ data.length = pageSize.toNat
  | .overwrite frame data => frame < frames.length ∧ data.length = pageSize.toNat
  | .rollbackTo live => live ≤ frames.length

def rollsBack : Op → Bool
  | .rollbackTo _ => true
  | _ => false

instance (pageSize : UInt32) (frames : List Frame) : (op : Op) → Decidable (op.legal pageSize frames)
  | .append _ _ => inferInstanceAs (Decidable (_ ∧ _))
  | .overwrite _ _ => inferInstanceAs (Decidable (_ ∧ _))
  | .rollbackTo _ => inferInstanceAs (Decidable (_ ≤ _))

end Op

/-- A frame is written as its header and then its data. -/
def frameCalls (pageSize : UInt32) (n : Nat) (header : FrameHeader) (data : Bytes)
    (answer : Option GateError) : List Call :=
  [⟨header.bytes, frameOffset pageSize n, answer⟩, ⟨data, frameOffset pageSize n + frameHeaderSize, answer⟩]

def Op.calls (pageSize : UInt32) (start : Nat) (frames : List Frame) : Op → List Call
  | .append header data => frameCalls pageSize (start + frames.length) header data none
  | .overwrite frame data => [⟨data, frameOffset pageSize (start + frame) + frameHeaderSize, none⟩]
  | .rollbackTo _ => []

def live (frames : List Frame) (body : List Op) : List Frame := body.foldl Op.live frames

def bodyCalls (pageSize : UInt32) (start : Nat) : List Frame → List Op → List Call
  | _, [] => []
  | frames, op :: rest => op.calls pageSize start frames ++ bodyCalls pageSize start (op.live frames) rest

def bodyLegal (pageSize : UInt32) : List Frame → List Op → Prop
  | _, [] => True
  | frames, op :: rest => op.legal pageSize frames ∧ bodyLegal pageSize (op.live frames) rest

instance bodyLegal.decidable (pageSize : UInt32) :
    (frames : List Frame) → (body : List Op) → Decidable (bodyLegal pageSize frames body)
  | _, [] => inferInstanceAs (Decidable True)
  | frames, op :: rest =>
    have := bodyLegal.decidable pageSize (op.live frames) rest
    inferInstanceAs (Decidable (_ ∧ _))

/-- The commit frame, the gate's answer to it and the header rewrites after it. -/
structure Commit where
  header : FrameHeader
  data : Bytes
  answer : Option GateError := none
  rewrites : List (Nat × FrameHeader) := []

/-- Without a commit frame the transaction is rolled back as a whole. -/
structure Transaction where
  body : List Op
  commit : Option Commit

namespace Transaction

/-- The live frames, each with its final data. -/
def frames (t : Transaction) : List Frame :=
  live [] t.body ++ (match t.commit with | some c => [⟨c.header, c.data⟩] | none => [])

/-- Header rewrites follow only a commit frame that reached the file. -/
def rewriteCalls (pageSize : UInt32) (start : Nat) (c : Commit) : List Call :=
  match c.answer with
  | some _ => []
  | none => c.rewrites.map fun fix => ⟨fix.2.bytes, frameOffset pageSize (start + fix.1), none⟩

def commitCalls (pageSize : UInt32) (start : Nat) (t : Transaction) : List Call :=
  match t.commit with
  | some c => frameCalls pageSize (start + (live [] t.body).length) c.header c.data c.answer
  | none => []

def fixCalls (pageSize : UInt32) (start : Nat) (t : Transaction) : List Call :=
  match t.commit with
  | some c => rewriteCalls pageSize start c
  | none => []

def calls (pageSize : UInt32) (start : Nat) (t : Transaction) : List Call :=
  bodyCalls pageSize start [] t.body ++ (t.commitCalls pageSize start ++ t.fixCalls pageSize start)

/-- A rewrite keeps a frame's page number and commit marker. -/
structure Legal (pageSize : UInt32) (t : Transaction) : Prop where
  body : bodyLegal pageSize [] t.body
  marked : ∀ c ∈ t.commit, c.header.nTruncate ≠ 0
  length : ∀ c ∈ t.commit, c.data.length = pageSize.toNat
  rewrites : ∀ c ∈ t.commit, ∀ fix ∈ c.rewrites, ∃ frame ∈ t.frames[fix.1]?,
    frame.header.pgNo = fix.2.pgNo ∧ frame.header.nTruncate = fix.2.nTruncate

instance (pageSize : UInt32) (t : Transaction) : Decidable (t.Legal pageSize) :=
  decidable_of_iff
    (bodyLegal pageSize [] t.body ∧ (∀ c ∈ t.commit, c.header.nTruncate ≠ 0) ∧
      (∀ c ∈ t.commit, c.data.length = pageSize.toNat) ∧
      ∀ c ∈ t.commit, ∀ fix ∈ c.rewrites, ∃ frame ∈ t.frames[fix.1]?,
        frame.header.pgNo = fix.2.pgNo ∧ frame.header.nTruncate = fix.2.nTruncate)
    ⟨fun ⟨body, marked, length, rewrites⟩ => ⟨body, marked, length, rewrites⟩,
      fun legal => ⟨legal.body, legal.marked, legal.length, legal.rewrites⟩⟩

def approved (t : Transaction) : Bool :=
  match t.commit with
  | some c => c.answer.isNone
  | none => false

end Transaction

/-- Between two transactions of a connection other writers may publish frames, and
the log may start again, with its header written through this file or another. -/
inductive Event where
  | others (frames : Nat)
  | restart (header : Option Bytes)
  | txn (t : Transaction)

structure Session where
  file : GatedWALFile
  mxFrame : Nat

structure Entry where
  before : GatedWALFile
  start : Nat
  txn : Transaction
  played : Played

namespace Session

def txn (pageSize : UInt32) (s : Session) (t : Transaction) : Entry where
  before := s.file
  start := s.mxFrame + 1
  txn := t
  played := play s.file (t.calls pageSize (s.mxFrame + 1))

def step (pageSize : UInt32) (s : Session) : Event → Session
  | .others frames => { s with mxFrame := s.mxFrame + frames }
  | .restart header =>
    { file := (play s.file (header.toList.map fun p => ⟨p, 0, none⟩)).file, mxFrame := 0 }
  | .txn t =>
    { file := (s.txn pageSize t).played.file
      mxFrame := if t.approved then s.mxFrame + t.frames.length else s.mxFrame }

def entries (pageSize : UInt32) : Session → List Event → List Entry
  | _, [] => []
  | s, .txn t :: rest => s.txn pageSize t :: entries pageSize (s.step pageSize (.txn t)) rest
  | s, event :: rest => entries pageSize (s.step pageSize event) rest

end Session

/-- A header written at a restart carries the page size of the log. -/
def Event.legal (pageSize : UInt32) : Event → Prop
  | .others _ => True
  | .restart header => ∀ p ∈ header, p.length = walHeaderSize ∧ (WALHeader.ofBytes p).pageSize = pageSize
  | .txn t => t.Legal pageSize

instance (pageSize : UInt32) : (event : Event) → Decidable (event.legal pageSize)
  | .others _ => inferInstanceAs (Decidable True)
  | .restart header => inferInstanceAs (Decidable (∀ p ∈ header, _))
  | .txn t => inferInstanceAs (Decidable (t.Legal pageSize))

/-- A connection opens its file on a log whose first bytes are `base` and whose
published end is `mxFrame`. -/
def Session.start (base : Bytes) (mxFrame : Nat) : Session := ⟨newGatedWALFile base, mxFrame⟩

/-- A log that already has a header has the page size `pageSize`. -/
def headed (pageSize : UInt32) (base : Bytes) : Prop :=
  base.length = walHeaderSize → (WALHeader.ofBytes base).pageSize = pageSize

instance (pageSize : UInt32) (base : Bytes) : Decidable (headed pageSize base) := inferInstanceAs (Decidable (_ → _))

end Literaft.Sqlite
