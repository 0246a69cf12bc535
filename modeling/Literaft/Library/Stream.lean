import Literaft.Library.Bytes

/-! A stream that is read by whole buffers, as `io.ReadFull` does, and byte strings cut
into chunks of one size. -/

namespace Literaft.Library

/-- What is left of a stream. It ends with the error in `fault`, or with EOF. -/
structure Reader where
  bytes : Bytes
  fault : Option String := none

inductive ReadError where
  | eof
  | unexpectedEOF
  | other (err : String)
  deriving DecidableEq, Repr

def ReadError.text : ReadError → String
  | eof => "EOF"
  | unexpectedEOF => "unexpected EOF"
  | other err => err

namespace Reader

/-- EOF is only reported as such when nothing was read. -/
def readFull (r : Reader) (len : Nat) : Except ReadError ({ data : Bytes // data.length = len } × Reader) :=
  if enough : len ≤ r.bytes.length then
    .ok (⟨r.bytes.take len, List.length_take_of_le enough⟩, { r with bytes := r.bytes.drop len })
  else .error <| match r.fault with
    | some err => .other err
    | none => if r.bytes = [] then .eof else .unexpectedEOF

/-- The stream ends with EOF, behind a whole number of chunks. -/
structure EndsWhole (r : Reader) (size : Nat) : Prop where
  eof : r.fault = none
  whole : size ∣ r.bytes.length

variable {r : Reader} {len size : Nat}

theorem readFull_ok (enough : len ≤ r.bytes.length) :
    r.readFull len = .ok (⟨r.bytes.take len, List.length_take_of_le enough⟩, { r with bytes := r.bytes.drop len }) :=
  dif_pos enough

theorem readFull_short (short : r.bytes.length < len) :
    (r.readFull len = .error .eof ∧ r.fault = none ∧ r.bytes = []) ∨
      (∃ err, r.readFull len = .error err ∧ err ≠ .eof ∧ (r.fault = none → r.bytes ≠ [])) := by
  unfold readFull
  rw [dif_neg (Nat.not_le.mpr short)]
  cases r.fault with
  | some err => exact .inr ⟨.other err, rfl, by simp, by simp⟩
  | none =>
    by_cases empty : r.bytes = []
    · exact .inl ⟨by simp [empty], rfl, empty⟩
    · exact .inr ⟨.unexpectedEOF, by simp [empty], by simp, fun _ => empty⟩

/-- A full buffer off the front changes nothing about the end. -/
theorem endsWhole_drop (enough : size ≤ r.bytes.length) :
    EndsWhole { r with bytes := r.bytes.drop size } size ↔ EndsWhole r size := by
  have whole : size ∣ r.bytes.length - size ↔ size ∣ r.bytes.length :=
    (Nat.dvd_sub_iff_left enough (Nat.dvd_refl size))
  constructor
  · intro ends
    exact ⟨ends.eof, whole.mp (by simpa using ends.whole)⟩
  · intro ends
    exact ⟨ends.eof, by simpa using whole.mpr ends.whole⟩

end Reader

def chunks (size : Nat) : Nat → Bytes → List Bytes
  | 0, _ => []
  | n + 1, data => data.take size :: chunks size n (data.drop size)

@[simp] theorem chunks_length (size n : Nat) (data : Bytes) : (chunks size n data).length = n := by
  induction n generalizing data with
  | zero => rfl
  | succ n ih => rw [chunks, List.length_cons, ih]

theorem chunks_size {size n : Nat} {data : Bytes} (enough : n * size ≤ data.length) :
    ∀ chunk ∈ chunks size n data, chunk.length = size := by
  induction n generalizing data with
  | zero =>
    intro chunk member
    cases member
  | succ n ih =>
    intro chunk member
    rw [Nat.succ_mul] at enough
    rcases List.mem_cons.mp member with rfl | member
    · rw [List.length_take]
      omega
    · exact ih (by rw [List.length_drop]; omega) chunk member

theorem chunks_get {size n i : Nat} (data : Bytes) (inside : i < n) :
    (chunks size n data)[i]? = some ((data.drop (i * size)).take size) := by
  induction n generalizing i data with
  | zero => cases inside
  | succ n ih =>
    cases i with
    | zero => simp [chunks]
    | succ i =>
      rw [chunks, List.getElem?_cons_succ, ih _ (Nat.lt_of_succ_lt_succ inside), List.drop_drop, Nat.succ_mul, Nat.add_comm]

end Literaft.Library
