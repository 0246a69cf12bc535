import Literaft.Forward
import Literaft.Vfs

/-! What a connection is told about its COMMIT. The error of the write path reaches SQLite as a
result code through the file that the commit frame is written to, and the driver keeps the error. -/

namespace Literaft.Commit
open Library Gate Vfs Wal Forward

def resultCode : Category → ExtendedErrorCode
  | .redirect => readonlyCode
  | .retryable => busyCode
  | .ambiguous => ioerrWriteCode

/-- The errors of `proto/errors` carry a result code, and a failed marshal has none. -/
def coded (err : ProposeError) : GateError := ⟨err.error, err.classify.map resultCode⟩

/-- The frames that a write of frame data hands to the gate. -/
def proposed (f : GatedWALFile) (p : Bytes) (off : Nat) : Option (List Frame) :=
  (f.writeFrameData none p off).effects.findSome? fun
    | .propose frames _ => some frames
    | .write _ _ => none

/-- The write of a commit frame's data once `ProposeTransaction` has returned, with what
`LastRejection` says then. -/
def finish {Id : Type} (f : GatedWALFile) (s : System Id) (p : Bytes) (off : Nat) : Option (Option ProposeError × Outcome) :=
  match s.node.pc with
  | .returned lastRejection => some (lastRejection, f.writeFrameData (lastRejection.map coded) p off)
  | _ => none

end Literaft.Commit
