import Mathlib.Data.List.Nodup

/-! Byte-range locks on a file, by open file description. A request converts what its own
description holds and is refused if another one holds something that does not go with it. -/

namespace Literaft.Library

inductive LockKind where
  | read
  | write
  deriving DecidableEq, Repr

abbrev Holders (Owner : Type) := List (Owner × LockKind)

abbrev FileLocks (Owner : Type) := Nat → Holders Owner

variable {Owner : Type}

/-- Each description holds a byte once, and one that writes holds it alone. -/
structure Holders.Valid (holders : Holders Owner) : Prop where
  once : (holders.map Prod.fst).Nodup
  alone : ∀ {o other kind}, (o, LockKind.write) ∈ holders → (other, kind) ∈ holders → other = o

def FileLocks.Valid (locks : FileLocks Owner) : Prop := ∀ byte, (locks byte).Valid

theorem FileLocks.valid_start : FileLocks.Valid fun _ => ([] : Holders Owner) :=
  fun _ => ⟨List.nodup_nil, fun member => by cases member⟩

variable [DecidableEq Owner]

namespace Holders

def allows (holders : Holders Owner) (o : Owner) (kind : LockKind) : Bool :=
  holders.all fun held => held.1 = o ∨ (kind = .read ∧ held.2 = .read)

def without (holders : Holders Owner) (o : Owner) : Holders Owner := holders.filter fun held => held.1 ≠ o

variable {holders : Holders Owner} {o other : Owner} {kind held : LockKind}

theorem mem_without : (other, held) ∈ holders.without o ↔ (other, held) ∈ holders ∧ other ≠ o := by
  simp [without]

theorem Valid.without (valid : holders.Valid) (o : Owner) : (holders.without o).Valid := by
  refine ⟨valid.once.sublist (List.filter_sublist.map _), fun first second => ?_⟩
  exact valid.alone (mem_without.mp first).1 (mem_without.mp second).1

theorem Valid.add (valid : holders.Valid) (allowed : holders.allows o kind = true) :
    Valid ((o, kind) :: holders.without o) := by
  have absent : o ∉ (holders.without o).map Prod.fst := by
    intro member
    obtain ⟨⟨found, held⟩, there, rfl⟩ := List.mem_map.mp member
    exact (mem_without.mp there).2 rfl
  have goes : ∀ {other held}, (other, held) ∈ holders.without o → kind = .read ∧ held = .read := by
    intro other held there
    obtain ⟨member, apart⟩ := mem_without.mp there
    have allowed := List.all_eq_true.mp allowed _ member
    simpa [apart] using allowed
  refine ⟨List.nodup_cons.mpr ⟨absent, (valid.without o).once⟩, fun first second => ?_⟩
  rcases List.mem_cons.mp first with new | old
  · cases new
    rcases List.mem_cons.mp second with same | there
    · exact congrArg Prod.fst same
    · cases (goes there).1
  · cases (goes old).2

end Holders

namespace FileLocks

/-- `fcntl` with `F_OFD_SETLK`; `none` when the request is refused. -/
def setLock (locks : FileLocks Owner) (o : Owner) (kind : LockKind) (start n : Nat) : Option (FileLocks Owner) :=
  if (List.range' start n).all fun byte => (locks byte).allows o kind then
    some fun byte => if start ≤ byte ∧ byte < start + n then (o, kind) :: (locks byte).without o else locks byte
  else none

def unlock (locks : FileLocks Owner) (o : Owner) (start n : Nat) : FileLocks Owner :=
  fun byte => if start ≤ byte ∧ byte < start + n then (locks byte).without o else locks byte

/-- Closing the last descriptor of a description gives up all of its locks. -/
def close (locks : FileLocks Owner) (o : Owner) : FileLocks Owner := fun byte => (locks byte).without o

/-- `F_GETLK` for a write lock on one byte: the kind of a lock of somebody else. -/
def testLock (locks : FileLocks Owner) (o : Owner) (byte : Nat) : Option LockKind :=
  ((locks byte).without o).head?.map Prod.snd

variable {locks after : FileLocks Owner} {o : Owner} {kind : LockKind} {start n : Nat}

/-- What a request that is granted leaves at each byte. -/
theorem setLock_at (granted : locks.setLock o kind start n = some after) (byte : Nat) :
    after byte = (if start ≤ byte ∧ byte < start + n then (o, kind) :: (locks byte).without o else locks byte) ∧
      (start ≤ byte ∧ byte < start + n → (locks byte).allows o kind = true) := by
  unfold setLock at granted
  split at granted
  · next allowed =>
    cases granted
    refine ⟨rfl, fun inside => List.all_eq_true.mp allowed byte ?_⟩
    rw [List.mem_range'_1]
    exact inside
  · cases granted

theorem Valid.setLock (valid : locks.Valid) (granted : locks.setLock o kind start n = some after) : after.Valid := by
  intro byte
  obtain ⟨now, allowed⟩ := setLock_at granted byte
  rw [now]
  split
  · next inside => exact (valid byte).add (allowed inside)
  · exact valid byte

theorem Valid.unlock (valid : locks.Valid) (o : Owner) (start n : Nat) : (locks.unlock o start n).Valid := by
  intro byte
  unfold FileLocks.unlock
  split
  · exact (valid byte).without o
  · exact valid byte

theorem Valid.close (valid : locks.Valid) (o : Owner) : (locks.close o).Valid := fun byte => (valid byte).without o

end FileLocks

end Literaft.Library
