import Literaft.Library.Machine
import Literaft.WalAppender

/-! The appender as a page store. Its users append transactions, SQLite checkpoints in
between, and readers may keep the log from starting again. -/

namespace Literaft.Store
open Library Wal WalAppender

inductive Operation where
  | append (chance : Chance) (frames : List Frame)
  | checkpoint (k : UInt32)

def Operation.frames : Operation → Option (List Frame)
  | .append _ frames => some frames
  | .checkpoint _ => none

/-- An append may end with an error; what it has written stays. -/
def step (a : WALAppender) : Operation → Option WALAppender
  | .append chance frames => (a.appendFramesLocked chance frames).map Prod.fst
  | .checkpoint k => some (a.checkpoint k)

def finalSize (frames : List Frame) : UInt32 := frames.getLast?.elim 0 fun f => f.header.nTruncate

/-- What the store is for: a transaction replaces its pages and sets the size. -/
def overwrite (database : Database Bytes) (frames : List Frame) : Database Bytes :=
  database.apply (change frames (finalSize frames))

/-- Whole pages, a size in the last frame, and every page that the database grows by. -/
structure Complete (pageSize : UInt32) (database : Database Bytes) (frames : List Frame) : Prop where
  lengths : ∀ f ∈ frames, f.data.length = pageSize.toNat
  marked : finalSize frames ≠ 0
  grown : database.Covers (change frames (finalSize frames))

def transactions (operations : List Operation) : List (List Frame) := operations.filterMap Operation.frames

def allComplete (pageSize : UInt32) : Database Bytes → List (List Frame) → Prop
  | _, [] => True
  | database, frames :: rest => Complete pageSize database frames ∧ allComplete pageSize (overwrite database frames) rest

def fits : WALAppender → List Operation → Prop
  | _, [] => True
  | a, operation :: rest =>
    (∀ frames hdr, operation.frames = some frames → a.shm.readHeader = some hdr →
      hdr.maxFrame.toNat + frames.length < 2 ^ 32) ∧ ∀ b, step a operation = some b → fits b rest

end Literaft.Store
