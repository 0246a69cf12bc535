import Literaft.Recovery

/-! The cumulative checksum as a map of the checksum before it: it is one to one, and
whether two pages of equal length lead to the same checksum does not depend on where
they start from. -/

namespace Literaft.Proofs.Checksum
open Library Wal

variable (enc : ByteOrder)

theorem computeChecksums_short {data : Bytes} (short : data.length < 8) (a b : UInt32) :
    computeChecksums enc data a b = (a, b) := by
  unfold computeChecksums
  split
  · simp only [List.length_cons] at short
    omega
  · rfl

theorem computeChecksums_round {data : Bytes} (long : 8 ≤ data.length) : ∃ first second rest, rest.length + 8 = data.length ∧
    ∀ enc a b, computeChecksums enc data a b =
      computeChecksums enc rest (a + (enc.uint32 first 0 + b)) (b + (enc.uint32 second 0 + (a + (enc.uint32 first 0 + b)))) := by
  match data, long with
  | a :: b :: c :: d :: e :: f :: g :: h :: rest, _ =>
    exact ⟨[a, b, c, d], [e, f, g, h], rest, rfl, fun _ _ _ => rfl⟩

theorem computeChecksums_inj {data : Bytes} {a b c d : UInt32}
    (same : computeChecksums enc data a b = computeChecksums enc data c d) : a = c ∧ b = d := by
  generalize size : data.length = n
  induction n using Nat.strongRecOn generalizing data a b c d with
  | ind n ih =>
    by_cases short : data.length < 8
    · rw [computeChecksums_short enc short, computeChecksums_short enc short] at same
      exact Prod.mk.inj same
    · obtain ⟨first, second, rest, fewer, round⟩ := computeChecksums_round (Nat.le_of_not_lt short)
      rw [round, round] at same
      obtain ⟨one, two⟩ := ih rest.length (by omega) same rfl
      constructor <;> grind

private theorem computeChecksums_apart {left right : Bytes} (length : left.length = right.length) {a b c d a' b' c' d' : UInt32}
    (one : a - c = a' - c') (two : b - d = b' - d') :
    (computeChecksums enc left a b).1 - (computeChecksums enc right c d).1 =
        (computeChecksums enc left a' b').1 - (computeChecksums enc right c' d').1 ∧
      (computeChecksums enc left a b).2 - (computeChecksums enc right c d).2 =
        (computeChecksums enc left a' b').2 - (computeChecksums enc right c' d').2 := by
  generalize size : left.length = n
  induction n using Nat.strongRecOn generalizing left right a b c d a' b' c' d' with
  | ind n ih =>
    by_cases short : left.length < 8
    · have also : right.length < 8 := length ▸ short
      simp only [computeChecksums_short enc short, computeChecksums_short enc also]
      exact ⟨one, two⟩
    · obtain ⟨first, second, rest, fewer, round⟩ := computeChecksums_round (Nat.le_of_not_lt short)
      obtain ⟨first', second', rest', fewer', round'⟩ := computeChecksums_round (Nat.le_of_not_lt (length ▸ short))
      rw [round, round, round', round']
      refine ih rest.length (by omega) (by omega) ?_ ?_ rfl <;> grind

/-- Two pages have the same checksum from anywhere, or from nowhere. -/
theorem computeChecksums_same {left right : Bytes} (length : left.length = right.length) {a b : UInt32} (a' b' : UInt32)
    (same : computeChecksums enc left a b = computeChecksums enc right a b) :
    computeChecksums enc left a' b' = computeChecksums enc right a' b' := by
  obtain ⟨one, two⟩ := computeChecksums_apart enc length (show a - a = a' - a' by grind) (show b - b = b' - b' by grind)
  rw [same] at one two
  refine Prod.ext ?_ ?_ <;> grind

end Literaft.Proofs.Checksum
