import Literaft.Library.Stream

/-! `io.Copy`: one read and one write a turn, until the source ends or one of the two fails. -/

namespace Literaft.Library

/-- What one turn meets: how much the read gives of a buffer, how many bytes the write says it took
if not all of them, and the error of the write. -/
structure Turn where
  read : Nat
  wrote : Option Nat := none
  writeErr : Option String := none

def copyBufferSize : Nat := 32 * 1024

/-- How a copy ended: what the target has, what is still to be read, and the error. -/
structure Copied where
  target : Bytes
  left : Bytes
  err : Option String

def copy : List Turn → Reader → Bytes → Option Copied
  | [], _, _ => none
  | turn :: rest, source, target =>
    if source.bytes = [] then some ⟨target, [], source.fault⟩
    else
      let data := source.bytes.take (min turn.read copyBufferSize)
      if data = [] then copy rest source target
      else
        -- What was read is gone, also if the write fails.
        let left := source.bytes.drop data.length
        let wrote := turn.wrote.getD data.length
        let target := target ++ data.take wrote
        match turn.writeErr with
        | some err => some ⟨target, left, some err⟩
        | none =>
          if data.length < wrote then some ⟨target, left, some "invalid write result"⟩
          else if wrote < data.length then some ⟨target, left, some "short write"⟩
          else copy rest { source with bytes := left } target

/-- The turn moves something, and its write does not fail. -/
structure Turn.Fine (turn : Turn) : Prop where
  moves : 0 < turn.read
  whole : turn.wrote = none
  noErr : turn.writeErr = none

variable {turns : List Turn} {source : Reader} {target : Bytes} {copied : Copied}

theorem take_append_rest (data : Bytes) (count : Nat) : data.take count ++ data.drop (data.take count).length = data := by
  rw [List.length_take]
  rcases Nat.le_total count data.length with short | long
  · rw [Nat.min_eq_left short, List.take_append_drop]
  · rw [Nat.min_eq_right long, List.drop_length, List.append_nil, List.take_of_length_le long]

/-- What one turn does: it ends the copy, at the end of the source or with an error of the write, or
it moves the beginning of the source, which may be nothing. -/
theorem copy_cons (turn : Turn) (rest : List Turn) (source : Reader) (target : Bytes) :
    (source.bytes = [] ∧ copy (turn :: rest) source target = some ⟨target, [], source.fault⟩) ∨
    (¬ turn.Fine ∧ ∃ part data left err, part <+: data ∧ data ++ left = source.bytes ∧
      copy (turn :: rest) source target = some ⟨target ++ part, left, some err⟩) ∨
    ∃ part left, part ++ left = source.bytes ∧ (turn.Fine → part ≠ []) ∧
      copy (turn :: rest) source target = copy rest { source with bytes := left } (target ++ part) := by
  by_cases empty : source.bytes = []
  · exact .inl ⟨empty, if_pos empty⟩
  have parts := take_append_rest source.bytes (min turn.read copyBufferSize)
  rw [copy, if_neg empty]
  by_cases nothing : source.bytes.take (min turn.read copyBufferSize) = []
  · refine .inr (.inr ⟨[], source.bytes, rfl, fun fine => ?_, ?_⟩)
    · have moved : 0 < min turn.read copyBufferSize := Nat.lt_min.mpr ⟨fine.moves, by decide⟩
      rcases List.take_eq_nil_iff.mp nothing with none_ | none_
      · omega
      · exact absurd none_ empty
    · simp only [nothing, if_true, List.append_nil]
  · simp only [nothing, if_false]
    generalize source.bytes.take (min turn.read copyBufferSize) = data at parts nothing ⊢
    cases failed : turn.writeErr with
    | some err =>
      refine .inr (.inl ⟨fun fine => ?_, _, data, _, err, List.take_prefix _ _, parts, rfl⟩)
      cases failed.symm.trans fine.noErr
    | none =>
      cases wrote : turn.wrote with
      | none =>
        refine .inr (.inr ⟨data, _, parts, fun _ => nothing, ?_⟩)
        simp
      | some count =>
        have bad : ¬ turn.Fine := fun fine => by cases wrote.symm.trans fine.whole
        simp only [Option.getD_some]
        by_cases large : data.length < count
        · exact .inr (.inl ⟨bad, _, data, _, _, List.take_prefix _ _, parts, if_pos large⟩)
        rw [if_neg large]
        by_cases small : count < data.length
        · exact .inr (.inl ⟨bad, _, data, _, _, List.take_prefix _ _, parts, if_pos small⟩)
        · refine .inr (.inr ⟨data, _, parts, fun _ => nothing, ?_⟩)
          rw [if_neg small, List.take_of_length_le (Nat.le_of_not_lt small)]

/-- The target gets a beginning of what was read, and the whole source if there is no error. -/
theorem copy_part (ran : copy turns source target = some copied) :
    (∃ part, part <+: source.bytes ∧ copied.target = target ++ part) ∧
      (copied.err = none → copied.target = target ++ source.bytes ∧ copied.left = [] ∧ source.fault = none) := by
  induction turns generalizing source target with
  | nil => cases ran
  | cons turn rest ih =>
    rcases copy_cons turn rest source target with
      ⟨empty, ended⟩ | ⟨-, part, data, left, text, front, parts, failed⟩ | ⟨part, left, parts, -, moved⟩
    · cases ended.symm.trans ran
      exact ⟨⟨[], List.nil_prefix, (List.append_nil _).symm⟩, fun fine => ⟨by rw [empty, List.append_nil], rfl, fine⟩⟩
    · cases failed.symm.trans ran
      exact ⟨⟨part, front.trans (parts ▸ List.prefix_append _ _), rfl⟩, fun fine => by cases fine⟩
    · obtain ⟨⟨more, front, same⟩, done⟩ := ih (moved.symm.trans ran)
      rw [← parts]
      refine ⟨⟨part ++ more, (List.prefix_append_right_inj part).mpr front, same.trans (List.append_assoc ..)⟩, fun fine => ?_⟩
      obtain ⟨same, nothing, ended⟩ := done fine
      exact ⟨by rw [same, List.append_assoc], nothing, ended⟩

/-- Turns that all move something come to the end of the source. -/
theorem copy_returns (fine : ∀ turn ∈ turns, turn.Fine) (enough : source.bytes.length < turns.length) :
    copy turns source target = some ⟨target ++ source.bytes, [], source.fault⟩ := by
  induction turns generalizing source target with
  | nil => cases enough
  | cons turn rest ih =>
    have good := fine turn List.mem_cons_self
    rcases copy_cons turn rest source target with ⟨empty, ended⟩ | ⟨bad, -⟩ | ⟨part, left, parts, some_, moved⟩
    · rw [ended, empty, List.append_nil]
    · exact absurd good bad
    · have length : part.length + left.length = source.bytes.length := by rw [← parts, List.length_append]
      have positive := List.length_pos_iff.mpr (some_ good)
      rw [List.length_cons] at enough
      rw [moved, ih (fun other member => fine other (List.mem_cons_of_mem _ member)) (by dsimp only; omega), ← parts,
        List.append_assoc]

end Literaft.Library
