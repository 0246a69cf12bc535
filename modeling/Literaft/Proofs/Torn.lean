import Literaft.Crash
import Literaft.Proofs.Index

/-! A crash in `WriteHeader`. The second copy is written before the first, so one of the two is
whole at every moment, and the reader takes the first only if its checksum is right. -/

namespace Literaft.Proofs.Torn
open Library Wal Shm Literaft.Crash Index

variable {s : SharedMemory} {old new : Header} {count : Nat}

private theorem published_writeHeader (s : SharedMemory) (h : Header) : Published (s.writeHeader h).1 h.updateChecksums := by
  refine ⟨?_, ?_, checkedHeader_updateChecksums h⟩
  · simp only [SharedMemory.writeHeader, Function.update_self]
    exact Storage.read_write_same _ 0 h.updateChecksums.bytes
  · simp only [SharedMemory.writeHeader, Function.update_self]
    rw [Storage.read_write_disjoint _ 0 _ headerCopySize _ (.inr (by rw [Header.bytes_length, Nat.zero_add]))]
    exact Storage.read_write_same _ headerCopySize h.updateChecksums.bytes

theorem tornHeader_all (s : SharedMemory) (h : Header) : tornHeader s h (2 * headerCopySize) = (s.writeHeader h).1 := by
  have whole (count : Nat) (all : headerCopySize ≤ count) : h.updateChecksums.bytes.take count = h.updateChecksums.bytes :=
    List.take_of_length_le (by rw [Header.bytes_length]; exact all)
  simp only [tornHeader, SharedMemory.writeHeader]
  rw [whole _ (by decide), whole _ (by decide)]

section Mixture

private theorem mixture_zero (old new : Header) : mixture old new 0 = old.bytes := rfl

private theorem mixture_all (old new : Header) (all : headerCopySize ≤ count) : mixture old new count = new.bytes := by
  rw [mixture, List.take_of_length_le (by rw [Header.bytes_length]; exact all),
    List.drop_eq_nil_of_le (by rw [Header.bytes_length]; exact all), List.append_nil]

private theorem read_copy {region : Storage} {off : Nat} (copy : region.read off headerCopySize = old.bytes) (count : Nat) :
    (region.write off (new.bytes.take count)).read off headerCopySize = mixture old new count := by
  have length : (new.bytes.take count).length = min count headerCopySize := by rw [List.length_take, Header.bytes_length]
  rw [Storage.read_write_part _ _ _ (by rw [length]; exact Nat.min_le_right _ _), copy, length]
  rcases Nat.le_total count headerCopySize with some_ | all
  · rw [Nat.min_eq_left some_, mixture]
  · rw [mixture_all old new all, Nat.min_eq_right all, List.drop_eq_nil_of_le (by rw [Header.bytes_length]),
      List.append_nil, List.take_of_length_le (by rw [Header.bytes_length]; exact all)]

end Mixture

private theorem readHeader_tornHeader (published : Published s old) (new : Header) (count : Nat) :
    (tornHeader s new count).readHeader =
      (checkedHeader (mixture old new.updateChecksums (count - headerCopySize))).or
        (checkedHeader (mixture old new.updateChecksums count)) := by
  have length : (new.updateChecksums.bytes.take (count - headerCopySize)).length ≤ headerCopySize :=
    List.length_take_le' _ _
  have first : ((tornHeader s new count) 0).read 0 headerCopySize =
      mixture old new.updateChecksums (count - headerCopySize) := by
    simp only [tornHeader, Function.update_self]
    refine read_copy ?_ _
    rw [Storage.read_write_disjoint _ headerCopySize _ 0 _ (.inl (by rw [Nat.zero_add]))]
    exact published.first
  have second : ((tornHeader s new count) 0).read headerCopySize headerCopySize = mixture old new.updateChecksums count := by
    simp only [tornHeader, Function.update_self]
    rw [Storage.read_write_disjoint _ _ _ _ _ (.inr (by omega))]
    exact read_copy published.second count
  rw [SharedMemory.readHeader, first, second]

/-- After a crash at any byte a reader gets the old header or the new one. -/
theorem readHeader_torn (published : Published s old) (apart : NoCollision old new.updateChecksums) (count : Nat) :
    (tornHeader s new count).readHeader = some old ∨ (tornHeader s new count).readHeader = some new.updateChecksums := by
  rw [readHeader_tornHeader published]
  by_cases same : mixture old new.updateChecksums (count - headerCopySize) = old.bytes
  · left
    rw [same, published.checked, Option.some_or]
  · have second : headerCopySize ≤ count := by
      by_contra early
      rw [Nat.sub_eq_zero_of_le (Nat.le_of_not_le early)] at same
      exact same (mixture_zero _ _)
    right
    rw [mixture_all old new.updateChecksums second, checkedHeader_updateChecksums]
    by_cases whole : mixture old new.updateChecksums (count - headerCopySize) = new.updateChecksums.bytes
    · rw [whole, checkedHeader_updateChecksums, Option.some_or]
    · rw [apart _ same whole, Option.none_or]

def firstHeader : Header := initHeader 512 3 4 1 2

def nextHeader : Header :=
  { firstHeader with maxFrame := 2, pageCount := 2, lastFrameChecksum1 := 5, lastFrameChecksum2 := 6, changeCounter := 1 }

theorem readHeader_torn_first : NoCollision firstHeader.updateChecksums nextHeader.updateChecksums ∧
    ∀ count, (tornHeader (SharedMemory.writeHeader (fun _ _ => 0) firstHeader).1 nextHeader count).readHeader =
        some firstHeader.updateChecksums ∨
      (tornHeader (SharedMemory.writeHeader (fun _ _ => 0) firstHeader).1 nextHeader count).readHeader =
        some nextHeader.updateChecksums := by
  have strict : ∀ count < headerCopySize,
      mixture firstHeader.updateChecksums nextHeader.updateChecksums count ≠ firstHeader.updateChecksums.bytes →
      mixture firstHeader.updateChecksums nextHeader.updateChecksums count ≠ nextHeader.updateChecksums.bytes →
        checkedHeader (mixture firstHeader.updateChecksums nextHeader.updateChecksums count) = none := by decide +kernel
  have apart : NoCollision firstHeader.updateChecksums nextHeader.updateChecksums := by
    intro count different unequal
    by_cases all : headerCopySize ≤ count
    · exact absurd (mixture_all _ _ all) unequal
    · exact strict count (Nat.lt_of_not_le all) different unequal
  exact ⟨apart, readHeader_torn (published_writeHeader _ _) apart⟩

end Literaft.Proofs.Torn
