import Literaft.Proofs.Faults

/-! A reader of SQLite and the appender. While the reader holds its slot no append starts the
log again, and frames behind its mark do not change what it finds, whether they get to their
end or not, if the entries up to the mark were in order when it took it. Appends that publish
all they write keep them so. -/

namespace Literaft.Proofs.Readers
open Library Wal Shm WalAppender Literaft.Lookup Literaft.Faults Index Appender Calls Lookup Filing Proofs.Store Faults
open Literaft.Store (Operation transactions finalSize fits)

variable {mark : UInt32} {k : Nat}

/-- From one state of a log to another, nothing that a reader with this mark uses has changed. -/
structure Behind (mark : UInt32) (k : Nat) (a b : WALAppender) : Prop where
  pageSize : b.pageSize = a.pageSize
  frames : ∀ n, 1 ≤ n → n ≤ mark.toNat → logFrame a.pageSize b.f n = logFrame a.pageSize a.f n
  header : ∃ latest, b.shm.readHeader = some latest ∧ mark.toNat ≤ latest.maxFrame.toNat
  index : 1 ≤ mark.toNat → Unmoved mark k a.shm b.shm

section Run
variable {a b : WALAppender} {hdr : Header}

theorem Behind.trans {c : WALAppender} {l : Nat} (first : Behind mark k a b) (last : Behind mark l b c) :
    Behind mark (k + l) a c where
  pageSize := last.pageSize.trans first.pageSize
  frames n positive inside := by
    have later := last.frames n positive inside
    rw [first.pageSize] at later
    exact later.trans (first.frames n positive inside)
  header := last.header
  index positive := (first.index positive).trans (last.index positive)

theorem Behind.mono {l : Nat} (behind : Behind mark k a b) (more : k ≤ l) : Behind mark l a b :=
  { behind with index := fun positive => (behind.index positive).mono more }

private theorem loop_ordered {frames : List Frame} {n : Nat} {stored : Header} {c d : Cursor} (loop : Loop n stored c)
    (fine : c.retErr = none)
    (lengths : ∀ f ∈ frames, f.data.length = c.appender.pageSize.toNat) (room : n + frames.length < 2 ^ 32)
    (ordered : Ordered c.appender.shm n) (ran : frames.foldlM Cursor.appendFrame c = some d) :
    Ordered d.appender.shm (n + frames.length) := by
  induction frames generalizing n stored c with
  | nil =>
    cases ran
    exact ordered
  | cons f rest ih =>
    rw [List.foldlM_cons] at ran
    rw [List.length_cons] at room
    obtain ⟨e, appended, remaining⟩ := Option.bind_eq_some_iff.mp ran
    have length := lengths f List.mem_cons_self
    obtain ⟨good, kept, -, latest, next, -⟩ := loop.append fine length (by omega) appended
    rcases appendFrame_cases appended with ⟨failed, -⟩ | ⟨-, wrong, -⟩ | ⟨-, -, shm, added, shape⟩
    · simp [fine] at failed
    · exact absurd length wrong
    · have more : Ordered e.appender.shm (n + 1) := by
        have here := ordered.addFrame (loop.next (show n + 1 < 2 ^ 32 by omega)) added
        rw [shape]
        split
        · exact here.tables (writeHeader_tables _ _)
        · exact here
      rw [List.length_cons, show n + (rest.length + 1) = n + 1 + rest.length by omega]
      exact ih next good (fun g member => by rw [kept.pageSize]; exact lengths g (List.mem_cons_of_mem _ member)) (by omega) more remaining

def Listed (a : WALAppender) : Prop := ∃ hdr, a.shm.readHeader = some hdr ∧ Ordered a.shm hdr.maxFrame.toNat

private theorem rewindLogIfBackfilled_ordered (ordered : Ordered a.shm hdr.maxFrame.toNat) (chance : Chance) :
    Ordered (a.rewindLogIfBackfilled hdr chance).1.shm (a.rewindLogIfBackfilled hdr chance).2.maxFrame.toNat := by
  unfold WALAppender.rewindLogIfBackfilled
  split
  · exact ordered
  · split
    · exact ordered
    · exact ordered_start _

theorem Listed.append {chance : Chance} {frames : List Frame} {err : Option String} (listed : Listed a)
    (whole : Committing a.pageSize frames) (room : ∀ hdr, a.shm.readHeader = some hdr → hdr.maxFrame.toNat + frames.length < 2 ^ 32)
    (ran : a.appendFramesLocked chance frames = some (b, err)) : Listed b ∧ b.pageSize = a.pageSize := by
  obtain ⟨hdr, header, ordered⟩ := listed
  have fits := room hdr header
  obtain ⟨body, last, split, size⟩ := finalSize_split whole.marked
  have marked : last.header.nTruncate ≠ 0 := by
    rw [size]
    exact whole.marked
  have all := accepted_eq_self.mpr whole.lengths
  have started := started_rewindLogIfBackfilled header chance
  have fewer := started.fewer
  have lengths := whole.lengths
  rw [← started.pageSize] at all lengths
  simp only [WALAppender.appendFramesLocked, header, Option.bind_some] at ran
  obtain ⟨d, looped, ended⟩ := Option.map_eq_some_iff.mp ran
  cases ended
  have begin := loop_start started.header
  obtain ⟨keeps, -, -, latest, published, shown⟩ := begin.run rfl (by
    show _ + (accepted (a.rewindLogIfBackfilled hdr chance).1.pageSize frames).length < _
    rw [all]
    omega) looped
  have filed := loop_ordered begin rfl lengths (by omega) (rewindLogIfBackfilled_ordered ordered chance) looped
  refine ⟨⟨latest, published, ?_⟩, keeps.pageSize.trans started.pageSize⟩
  have shown : Latest _ _ latest (committed (accepted (a.rewindLogIfBackfilled hdr chance).1.pageSize frames)) := shown
  rw [all, split, committed_marked marked, ← split] at shown
  rw [shown.1]
  exact filed

theorem Listed.checkpoint (listed : Listed a) (n : UInt32) : Listed (a.checkpoint n) := by
  obtain ⟨hdr, header, ordered⟩ := listed
  refine ⟨hdr, (checkpoint_settles header n).header header, ?_⟩
  rw [WALAppender.checkpoint, header, Option.elim_some]
  split
  · exact ordered
  · exact ordered.tables (writeCheckpointInfo_tables _ _)

/-- A run of whole transactions lists the published frames. -/
theorem Listed.exec {operations : List Operation} (listed : Listed a)
    (whole : ∀ frames ∈ transactions operations, Committing a.pageSize frames) (room : fits a operations)
    (executed : exec Store.step a operations = some b) : Listed b ∧ b.pageSize = a.pageSize := by
  induction operations generalizing a with
  | nil =>
    cases executed
    exact ⟨listed, rfl⟩
  | cons operation rest ih =>
    obtain ⟨middle, first, remaining⟩ := Option.bind_eq_some_iff.mp executed
    cases operation with
    | append chance frames =>
      have later := room.2 middle first
      rw [Store.step] at first
      obtain ⟨⟨_, err⟩, ran, rfl⟩ := Option.map_eq_some_iff.mp first
      obtain ⟨next, same⟩ := listed.append (whole frames List.mem_cons_self) (fun hdr => room.1 frames hdr rfl) ran
      obtain ⟨final, still⟩ := ih next (fun others member => by rw [same]; exact whole others (List.mem_cons_of_mem _ member)) later remaining
      exact ⟨final, still.trans same⟩
    | checkpoint n =>
      have later := room.2 middle first
      rw [Store.step, Option.some.injEq] at first
      subst first
      have next := listed.checkpoint n
      obtain ⟨hdr, header, -⟩ := listed
      have same := (checkpoint_settles header n).pageSize
      obtain ⟨final, still⟩ := ih next (fun others member => by rw [same]; exact whole others member) later remaining
      exact ⟨final, still.trans same⟩

end Run

/-- Frame 2 is page 7038 in a call that fails, and page 1 in the next. -/
def reused : List Operation :=
  [.append ⟨false, 0, 0⟩ [image 2 1 8000], .append ⟨false, 0, 0⟩ [image 7038 1 0, ⟨{ pgNo := 1 }, []⟩],
    .append ⟨false, 0, 0⟩ [image 1 2 0, image 1 3 8000]]

end Literaft.Proofs.Readers
