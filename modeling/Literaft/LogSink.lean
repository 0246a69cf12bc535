import Literaft.Library.Bytes
import Literaft.Library.Machine
import Mathlib.Data.List.DropRight

/-! The sink between the process logger and the log pane. A write cuts what it has been given into
lines and puts each into a channel that is never waited for: a full one gives up its oldest line. -/

namespace Literaft.LogSink
open Library

def logSinkBuffer : Nat := 8192

def newline : UInt8 := 10
def carriageReturn : UInt8 := 13

/-- `bytes.TrimRight(line, "\r")`. -/
def trimRight (line : Bytes) : Bytes := line.rdropWhile (· == carriageReturn)

inductive Fate where
  | received
  | dropped
  deriving DecidableEq, Repr

/-- Where the write that holds `mu` stands. `full` has found no room for the line and is about to
take the oldest one out, and `retrying` is about to send for the second time. -/
inductive Pc where
  | idle
  | looping
  | pushing (line : Bytes)
  | full (line : Bytes)
  | retrying (line : Bytes)
  deriving DecidableEq, Repr

/-- `written` has all bytes written, `taken` the lines that have left the channel in their order,
and `lost` those that did not get in. -/
structure State where
  partialLine : Bytes := []
  ch : List Bytes := []
  pc : Pc := .idle
  written : Bytes := []
  taken : List (Bytes × Fate) := []
  lost : List Bytes := []
  deriving DecidableEq, Repr

inductive Action where
  | write (p : Bytes)
  | next
  | send
  | discard
  | resend
  | receive
  deriving DecidableEq, Repr

def step (capacity : Nat) (s : State) : Action → Option State
  | .write p =>
    if s.pc = .idle then some { s with partialLine := s.partialLine ++ p, written := s.written ++ p, pc := .looping } else none
  | .next =>
    if s.pc = .looping then
      match s.partialLine.findIdx? (· == newline) with
      | none => some { s with pc := .idle }
      | some i =>
        some { s with partialLine := s.partialLine.drop (i + 1), pc := .pushing (trimRight (s.partialLine.take i)) }
    else none
  | .send => match s.pc with
    | .pushing line =>
      if s.ch.length < capacity then some { s with ch := s.ch ++ [line], pc := .looping }
      else some { s with pc := .full line }
    | _ => none
  | .discard => match s.pc with
    | .full line => match s.ch with
      | oldest :: rest => some { s with ch := rest, taken := s.taken ++ [(oldest, .dropped)], pc := .retrying line }
      | [] => some { s with pc := .retrying line }
    | _ => none
  | .resend => match s.pc with
    | .retrying line =>
      if s.ch.length < capacity then some { s with ch := s.ch ++ [line], pc := .looping }
      else some { s with lost := s.lost ++ [line], pc := .looping }
    | _ => none
  | .receive => match s.ch with
    | line :: rest => some { s with ch := rest, taken := s.taken ++ [(line, .received)] }
    | [] => none

end Literaft.LogSink
