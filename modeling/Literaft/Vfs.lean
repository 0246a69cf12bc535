import Literaft.Wal

/-! The gated file one connection writes the log through. It passes frames on as
they come, keeps what the current transaction wrote, and holds the commit frame
back until the gate has answered. -/

namespace Literaft.Vfs
open Library Wal

abbrev ExtendedErrorCode := Nat

def readonlyCode : ExtendedErrorCode := 8
def busyCode : ExtendedErrorCode := 5
def ioerrWriteCode : ExtendedErrorCode := 778

/-- An error of the gate. Only a coded error carries a result code. -/
structure GateError where
  message : String
  resultCode : Option ExtendedErrorCode
  deriving DecidableEq, Repr

def errCode (err : GateError) : ExtendedErrorCode × Bool :=
  match err.resultCode with
  | some code => (code, true)
  | none => (0, false)

inductive WriteError where
  | plain (message : String)
  | system (message : String) (code : ExtendedErrorCode)
  deriving DecidableEq, Repr

/-- The source keeps a slice of frame pointers and a map from header offsets to the
same pointers. A pointer of the slice is kept here as the key under which the map
holds its frame, so a change of the frame is seen through both. -/
structure GatedWALFile where
  pageSize : UInt32
  pendingFrameHeader : Option FrameHeader := none
  currentTxFrames : List Nat := []
  currentTxFrameOffsets : Nat → Option Frame := fun _ => none
  currentTxCommitted : Bool := false
  maxOffset : Nat := 0
  pendingRewriteHeader : Option FrameHeader := none
  pendingRewriteOffset : Nat := 0

/-- What a call does outside the wrapper: writes to the wrapped file, which are
taken to succeed, and proposals with the gate's decision. -/
inductive Effect where
  | write (off : Nat) (p : Bytes)
  | propose (frames : List Frame) (approved : Bool)
  deriving DecidableEq, Repr

structure Outcome where
  file : GatedWALFile
  effects : List Effect
  result : Except WriteError Nat

/-- `base` is what a read of the header's length at offset zero returns. -/
def newGatedWALFile (base : Bytes) : GatedWALFile :=
  { pageSize := if base.length = walHeaderSize then (WALHeader.ofBytes base).pageSize else 0 }

namespace GatedWALFile

def resetCurrentTx (f : GatedWALFile) : GatedWALFile :=
  { f with
    currentTxFrames := []
    currentTxFrameOffsets := fun _ => none
    currentTxCommitted := false
    pendingRewriteHeader := none }

/-- The part of `writeFrameHeader` after the checksum-rewrite reading is ruled out. -/
def stageFrameHeader (f : GatedWALFile) (h : FrameHeader) (p : Bytes) (off : Nat) : Outcome :=
  let f := { f with pendingRewriteHeader := none }
  let f := if f.currentTxCommitted || decide (off ≤ f.maxOffset) then f.resetCurrentTx else f
  let f := { f with pendingFrameHeader := some h, maxOffset := off }
  if !h.isCommit then ⟨f, [.write off p], .ok p.length⟩ else ⟨f, [], .ok p.length⟩

def writeFrameHeader (f : GatedWALFile) (p : Bytes) (off : Nat) : Outcome :=
  if p.length ≠ frameHeaderSize then
    ⟨f, [], .error (.system
      s!"unexpected WAL frame header write of length {p.length} at offset {off} (expected {frameHeaderSize})"
      ioerrWriteCode)⟩
  else
    let h := FrameHeader.ofBytes p
    match if f.currentTxCommitted then f.currentTxFrameOffsets off else none with
    | some pending =>
      if pending.header.pgNo = h.pgNo then
        ⟨{ f with
            currentTxFrameOffsets := Function.update f.currentTxFrameOffsets off (some { pending with header := h })
            pendingRewriteHeader := some h
            pendingRewriteOffset := off },
          [.write off p], .ok p.length⟩
      else f.stageFrameHeader h p off
    | none => f.stageFrameHeader h p off

/-- A data write at the offset of a staged rewrite shows that the header opened a
new transaction after all. -/
def resolveRewrite (f : GatedWALFile) (headerOffset : Nat) : GatedWALFile :=
  match f.pendingRewriteHeader with
  | some header =>
    if headerOffset = f.pendingRewriteOffset then
      { f.resetCurrentTx with pendingFrameHeader := some header, maxOffset := headerOffset }
    else f
  | none => f

def rejectionCode (err : GateError) : ExtendedErrorCode :=
  let found := errCode err
  if found.2 && found.1 != 0 then found.1 else ioerrWriteCode

/-- `answer` is what the gate returns if this call proposes; `none` is a nil error. -/
def writeFrameData (f : GatedWALFile) (answer : Option GateError) (p : Bytes) (off : Nat) : Outcome :=
  if p.length ≠ f.pageSize.toNat then
    ⟨f, [], .error (.system
      s!"unexpected WAL frame data write of length {p.length} at offset {off} (expected {f.pageSize})"
      ioerrWriteCode)⟩
  else
    let headerOffset := off - frameHeaderSize
    let f := f.resolveRewrite headerOffset
    match f.currentTxFrameOffsets headerOffset with
    | some frame =>
      ⟨{ f with
          currentTxFrameOffsets :=
            Function.update f.currentTxFrameOffsets headerOffset (some { frame with data := p }) },
        [.write off p], .ok p.length⟩
    | none =>
      match f.pendingFrameHeader with
      | none =>
        ⟨f, [], .error (.system s!"WAL frame data write at offset {off} has no pending header" ioerrWriteCode)⟩
      | some pendingHeader =>
        let frame : Frame := ⟨pendingHeader, p⟩
        let f := { f with
          pendingFrameHeader := none
          currentTxFrames := f.currentTxFrames ++ [headerOffset]
          currentTxFrameOffsets := Function.update f.currentTxFrameOffsets headerOffset (some frame) }
        if !frame.header.isCommit then ⟨f, [.write off p], .ok p.length⟩
        else
          let frames := f.currentTxFrames.filterMap f.currentTxFrameOffsets
          let f := { f with currentTxFrames := [] }
          match answer with
          | some err =>
            ⟨f.resetCurrentTx, [.propose frames false], .error (.system err.message (rejectionCode err))⟩
          | none =>
            ⟨{ f with currentTxCommitted := true },
              [.propose frames true, .write headerOffset frame.header.bytes, .write off frame.data],
              .ok frame.data.length⟩

def writeAt (f : GatedWALFile) (answer : Option GateError) (p : Bytes) (off : Nat) : Outcome :=
  if off = 0 then
    let f := if f.pageSize = 0 ∧ p.length = walHeaderSize then
      { f with pageSize := (WALHeader.ofBytes p).pageSize } else f
    ⟨f, [.write off p], .ok p.length⟩
  else if f.pageSize = 0 then
    ⟨f, [], .error (.plain s!"WAL page size unknown; cannot write frame at offset {off}")⟩
  else if isFrameHeaderOffset f.pageSize off then f.writeFrameHeader p off
  else if isFrameDataOffset f.pageSize off then f.writeFrameData answer p off
  else
    ⟨f, [], .error (.plain
      s!"unexpected WAL write of length {p.length} at offset {off} (page size {f.pageSize})")⟩

end GatedWALFile

structure Call where
  p : Bytes
  off : Nat
  answer : Option GateError := none

structure Played where
  file : GatedWALFile
  effects : List Effect
  results : List (Except WriteError Nat)

def play (f : GatedWALFile) : List Call → Played
  | [] => ⟨f, [], []⟩
  | call :: rest =>
    let out := f.writeAt call.answer call.p call.off
    let later := play out.file rest
    ⟨later.file, out.effects ++ later.effects, out.result :: later.results⟩

theorem play_append (f : GatedWALFile) (first last : List Call) :
    play f (first ++ last) =
      ⟨(play (play f first).file last).file, (play f first).effects ++ (play (play f first).file last).effects,
        (play f first).results ++ (play (play f first).file last).results⟩ := by
  induction first generalizing f with
  | nil => rfl
  | cons call rest ih => simp only [List.cons_append, play, ih, List.append_assoc]

/-- The transactions handed to the gate, with its decisions. -/
def proposals (effects : List Effect) : List (List Frame × Bool) :=
  effects.filterMap fun
    | .propose frames approved => some (frames, approved)
    | .write _ _ => none

@[simp] theorem proposals_append (first last : List Effect) :
    proposals (first ++ last) = proposals first ++ proposals last :=
  List.filterMap_append

end Literaft.Vfs
