import Mathlib.Algebra.Group.Nat.Defs
import Mathlib.Data.List.Basic
import Mathlib.Logic.Function.Basic

/-! Byte strings, fixed-width words and randomly addressed storage. A storage is
total: an address nobody has written reads as zero, as a hole in a file does. -/

namespace Literaft.Library

abbrev Bytes := List UInt8

def be32 (word : UInt32) : Bytes :=
  [UInt8.ofNat (word.toNat / 2 ^ 24), UInt8.ofNat (word.toNat / 2 ^ 16),
    UInt8.ofNat (word.toNat / 2 ^ 8), UInt8.ofNat word.toNat]

def be64 (word : UInt64) : Bytes := be32 (UInt32.ofNat (word.toNat / 2 ^ 32)) ++ be32 (UInt32.ofNat word.toNat)

def le32 (word : UInt32) : Bytes := (be32 word).reverse

/-- The big-endian word at `off`; a missing byte counts as zero. -/
def beUint32 (data : Bytes) (off : Nat) : UInt32 :=
  UInt32.ofNat ((data.getD off 0).toNat * 2 ^ 24 + (data.getD (off + 1) 0).toNat * 2 ^ 16 +
    (data.getD (off + 2) 0).toNat * 2 ^ 8 + (data.getD (off + 3) 0).toNat)

def beUint64 (data : Bytes) (off : Nat) : UInt64 :=
  UInt64.ofNat ((beUint32 data off).toNat * 2 ^ 32 + (beUint32 data (off + 4)).toNat)

def leUint32 (data : Bytes) (off : Nat) : UInt32 :=
  UInt32.ofNat ((data.getD (off + 3) 0).toNat * 2 ^ 24 + (data.getD (off + 2) 0).toNat * 2 ^ 16 +
    (data.getD (off + 1) 0).toNat * 2 ^ 8 + (data.getD off 0).toNat)

def le16 (word : UInt16) : Bytes := [UInt8.ofNat word.toNat, UInt8.ofNat (word.toNat / 2 ^ 8)]

def leUint16 (data : Bytes) (off : Nat) : UInt16 :=
  UInt16.ofNat ((data.getD (off + 1) 0).toNat * 2 ^ 8 + (data.getD off 0).toNat)

@[simp] theorem be32_length (word : UInt32) : (be32 word).length = 4 := rfl

@[simp] theorem be64_length (word : UInt64) : (be64 word).length = 8 := rfl

@[simp] theorem le32_length (word : UInt32) : (le32 word).length = 4 := rfl

private theorem word_of_bytes (word : UInt32) :
    UInt32.ofNat ((UInt8.ofNat (word.toNat / 2 ^ 24)).toNat * 2 ^ 24 +
      (UInt8.ofNat (word.toNat / 2 ^ 16)).toNat * 2 ^ 16 +
      (UInt8.ofNat (word.toNat / 2 ^ 8)).toNat * 2 ^ 8 + (UInt8.ofNat word.toNat).toNat) = word := by
  have bound := word.toNat_lt
  apply UInt32.toNat_inj.mp
  simp only [UInt8.toNat_ofNat', UInt32.toNat_ofNat']
  omega

theorem beUint32_at {data : Bytes} {off : Nat} {word : UInt32}
    (spelled : [data.getD off 0, data.getD (off + 1) 0, data.getD (off + 2) 0, data.getD (off + 3) 0] = be32 word) :
    beUint32 data off = word := by
  simp only [be32, List.cons.injEq, and_true] at spelled
  obtain ⟨first, second, third, fourth⟩ := spelled
  rw [beUint32, first, second, third, fourth]
  exact word_of_bytes word

theorem beUint32_append (before after : Bytes) (word : UInt32) :
    beUint32 (before ++ (be32 word ++ after)) before.length = word := by
  apply beUint32_at
  simp [be32, List.getD_eq_getElem?_getD]

theorem beUint64_append (before after : Bytes) (word : UInt64) :
    beUint64 (before ++ (be64 word ++ after)) before.length = word := by
  have high := beUint32_append before (be32 (UInt32.ofNat word.toNat) ++ after) (UInt32.ofNat (word.toNat / 2 ^ 32))
  have low := beUint32_append (before ++ be32 (UInt32.ofNat (word.toNat / 2 ^ 32))) after (UInt32.ofNat word.toNat)
  rw [List.length_append, be32_length, List.append_assoc] at low
  rw [beUint64, be64, List.append_assoc, high, low]
  have bound := word.toNat_lt
  apply UInt64.toNat_inj.mp
  simp only [UInt32.toNat_ofNat', UInt64.toNat_ofNat']
  omega

theorem leUint32_at {data : Bytes} {off : Nat} {word : UInt32}
    (spelled : [data.getD off 0, data.getD (off + 1) 0, data.getD (off + 2) 0, data.getD (off + 3) 0] = le32 word) :
    leUint32 data off = word := by
  simp only [le32, be32, List.reverse_cons, List.reverse_nil, List.nil_append, List.cons_append, List.cons.injEq,
    and_true] at spelled
  obtain ⟨first, second, third, fourth⟩ := spelled
  rw [leUint32, first, second, third, fourth]
  exact word_of_bytes word

theorem leUint16_at {data : Bytes} {off : Nat} {word : UInt16}
    (spelled : [data.getD off 0, data.getD (off + 1) 0] = le16 word) : leUint16 data off = word := by
  have bound := word.toNat_lt
  simp only [le16, List.cons.injEq, and_true] at spelled
  apply UInt16.toNat_inj.mp
  simp only [leUint16, spelled, UInt8.toNat_ofNat', UInt16.toNat_ofNat']
  omega

/-- Bytes under addresses: a file, or a mapped region of shared memory. -/
abbrev Storage := Nat → UInt8

namespace Storage

def read (store : Storage) (off len : Nat) : Bytes := (List.range len).map fun i => store (off + i)

def write (store : Storage) (off : Nat) (data : Bytes) : Storage := fun address =>
  if off ≤ address ∧ address < off + data.length then data.getD (address - off) 0 else store address

@[simp] theorem read_length (store : Storage) (off len : Nat) : (store.read off len).length = len := by
  simp [read]

theorem read_zeros (off len : Nat) : Storage.read (fun _ => 0) off len = List.replicate len 0 := by
  simp [read]

theorem read_write_same (store : Storage) (off : Nat) (data : Bytes) :
    (store.write off data).read off data.length = data := by
  apply List.ext_getElem (by simp)
  intro i inside bound
  have short : i < data.length := by simpa using inside
  simp [read, write, short]

theorem read_write_disjoint (store : Storage) (off : Nat) (data : Bytes) (place len : Nat)
    (apart : place + len ≤ off ∨ off + data.length ≤ place) :
    (store.write off data).read place len = store.read place len := by
  apply List.ext_getElem (by simp)
  intro i inside _
  have short : i < len := by simpa using inside
  have outside : ¬(off ≤ place + i ∧ place + i < off + data.length) := by omega
  simp [read, write, outside]

theorem write_same {store : Storage} {off : Nat} {data : Bytes} (same : store.read off data.length = data) :
    store.write off data = store := by
  funext address
  by_cases inside : off ≤ address ∧ address < off + data.length
  · have bound : address - off < data.length := by omega
    have stored : (store.read off data.length).getD (address - off) 0 = data.getD (address - off) 0 := by rw [same]
    rw [write, if_pos inside, ← stored]
    simp [read, bound, Nat.add_sub_cancel' inside.1]
  · rw [write, if_neg inside]

/-- A write that broke off leaves the old bytes behind the new ones. -/
theorem read_write_part (store : Storage) (off : Nat) (data : Bytes) {len : Nat} (short : data.length ≤ len) :
    (store.write off data).read off len = data ++ (store.read off len).drop data.length := by
  apply List.ext_getElem
  · simp only [read_length, List.length_append, List.length_drop]
    omega
  · intro i inside _
    have bound : i < len := by simpa using inside
    by_cases early : i < data.length
    · simp [read, write, early]
    · have late : data.length ≤ i := Nat.le_of_not_lt early
      simp [read, write, early, List.getElem_append_right late, Nat.add_sub_cancel' late]

theorem read_congr {first second : Storage} {off len : Nat}
    (same : ∀ i, i < len → first (off + i) = second (off + i)) : first.read off len = second.read off len := by
  apply List.map_congr_left
  intro i member
  exact same i (List.mem_range.mp member)

end Storage

end Literaft.Library
