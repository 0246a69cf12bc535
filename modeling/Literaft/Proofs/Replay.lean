import Literaft.Library.Replay
import Literaft.Proofs.Admission
import Literaft.Proofs.Store

/-! A restarted node. Raft replays entries whose effect the recovered database may already
have, so on the way it shows mixtures of two versions; it ends with the version of the last
entry. -/

namespace Literaft.Proofs.Replay
open Library Wal Proto WalAppender Apply Literaft.Lookup Literaft.Store Index Appender Calls Admission Slots Proofs.Store

variable {Id : Type} {pageSize : UInt32}

def made (e : Committed Id) : Change Bytes := change e.txn.frames (finalSize e.txn.frames)

/-- A node without markers and loans whose log shows `database`, has used at most `used` frame
numbers and has slots for `slots` frames. -/
structure Restarted (pageSize : UInt32) (used slots : Nat) (n : Node Id) (database : Database Bytes) : Prop where
  markers : ∀ id, n.fsm.skipMarkers id = none
  loans : ∀ id, n.fsm.loans id = false
  size : n.walAppender.pageSize = pageSize
  log : ∃ hdr, n.walAppender.shm.readHeader = some hdr ∧ FreeSlots n.walAppender.shm hdr.maxFrame slots ∧
    hdr.maxFrame.toNat ≤ used ∧ (n.walAppender.log hdr).Intact ∧ (n.walAppender.log hdr).visible = database

theorem allComplete_committing {start : Database Bytes} {entries : List (Committed Id)}
    (complete : allComplete pageSize start (entries.map fun e => e.txn.frames)) :
    ∀ e ∈ entries, Committing pageSize e.txn.frames := by
  induction entries generalizing start with
  | nil => exact fun _ member => nomatch member
  | cons first rest ih =>
    intro e member
    rcases List.mem_cons.mp member with rfl | member
    · exact ⟨complete.1.lengths, complete.1.marked⟩
    · exact ih complete.2 e member

theorem allComplete_covers {start : Database Bytes} {entries : List (Committed Id)}
    (complete : allComplete pageSize start (entries.map fun e => e.txn.frames)) : start.CoversAll (entries.map made) := by
  induction entries generalizing start with
  | nil => trivial
  | cons first rest ih => exact ⟨complete.1.grown, ih complete.2⟩

theorem foldl_overwrite (start : Database Bytes) (entries : List (Committed Id)) :
    (entries.map fun e => e.txn.frames).foldl overwrite start = (entries.map made).foldl Database.apply start := by
  rw [List.foldl_map, List.foldl_map]
  rfl

variable [DecidableEq Id]

private theorem apply_restarted {used slots : Nat} {n : Node Id} {database : Database Bytes} {e : Committed Id} (around : Around)
    (restarted : Restarted pageSize used (e.txn.frames.length + slots) n database) (committing : Committing pageSize e.txn.frames)
    (room : used + e.txn.frames.length < 2 ^ 32) :
    ∃ m, n.apply e.log around = some (m, none) ∧ m.fsm.lastApplied = e.index ∧
      Restarted pageSize (used + e.txn.frames.length) slots m (database.apply (made e)) := by
  obtain ⟨hdr, header, free, fewer, intact, rfl⟩ := restarted.log
  obtain ⟨lengths, marked⟩ := committing
  obtain ⟨body, last, split, size⟩ := finalSize_split marked
  have named : made e = change (body ++ [last]) last.header.nTruncate := by rw [made, size, split]
  have sized : (made e).size ≠ 0 := fun zero => marked (UInt32.toNat_inj.mp zero)
  have somePage : (made e).pages ≠ [] := by simp [named, change]
  have given := split
  rw [← restarted.size, split] at lengths
  rw [split] at room free
  have enough := hasSlots_of_free header around.chance free
  obtain ⟨b, latest, base, ran, stored, left, same, found, log⟩ := append_published header lengths (by rw [size]; exact marked)
    (by omega) (hasSlots_mono enough (Nat.le_add_right _ _))
  rw [← named] at log
  have grown := call_grows header (by omega) ran stored
  obtain ⟨visible, still⟩ := found.visible intact
  rw [← split] at ran
  have unmarked : n.fsm.skipMarkers e.id ≠ some .pending := by simp [restarted.markers e.id]
  have unlent : n.fsm.loans e.id = false := restarted.loans e.id
  refine ⟨_, (apply_done unmarked).mpr ⟨b, ran, by simp [unlent], rfl⟩, rfl, ?_⟩
  have settled := checkpoints_settle stored around.checkpoints
  have published : (b.log latest).Intact ∧ (b.log latest).visible = (n.walAppender.log hdr).visible.apply (made e) := by
    rw [log]
    exact ⟨still.publish sized somePage, by rw [PageLog.visible_publish _ _ sized, visible]⟩
  obtain ⟨after, shown⟩ := settled.visible published.1
  rw [unlent]
  refine ⟨restarted.markers, restarted.loans, (settled.pageSize.trans same).trans restarted.size, latest,
    settled.header stored, settled.slots _ _ (left slots enough), ?_, after, shown.trans published.2⟩
  rw [given]
  omega

/-- A whole replay shows the entries applied to what the node showed before. -/
theorem replay_restarted {used : Nat} {n : Node Id} {database : Database Bytes} {runs : List (Committed Id × Around)}
    (restarted : Restarted pageSize used (runs.map fun run => run.1.txn.frames.length).sum n database)
    (committing : ∀ run ∈ runs, Committing pageSize run.1.txn.frames)
    (room : used + (runs.map fun run => run.1.txn.frames.length).sum < 2 ^ 32) :
    ∃ m, n.replay (runs.map fun run => (run.1.log, run.2)) = some (m, none) ∧
      m.fsm.lastApplied = (runs.getLast?.map fun run => run.1.index).getD n.fsm.lastApplied ∧
      ∃ later, Restarted pageSize later 0 m ((runs.map fun run => made run.1).foldl Database.apply database) := by
  induction runs generalizing used n database with
  | nil => exact ⟨n, rfl, rfl, used, restarted⟩
  | cons run rest ih =>
    rw [List.map_cons, List.sum_cons] at room restarted
    obtain ⟨middle, applied, stored, after⟩ :=
      apply_restarted run.2 restarted (committing run List.mem_cons_self) (by omega)
    obtain ⟨m, ran, last, later⟩ := ih after (fun other member => committing other (List.mem_cons_of_mem _ member)) (by omega)
    refine ⟨m, ?_, ?_, later⟩
    · simp only [List.map_cons, Node.replay, applied, Option.bind_some]
      exact ran
    · rw [last, stored]
      cases rest with
      | nil => rfl
      | cons next more => simp [List.getLast?_cons]

/-- A replay of the entries behind the first `k`. -/
theorem replay_drop {start database : Database Bytes} {entries : List (Committed Id)}
    (complete : allComplete pageSize start (entries.map fun e => e.txn.frames)) {k used : Nat} {n : Node Id}
    {runs : List (Committed Id × Around)} (given : runs.map Prod.fst = entries.drop k)
    (restarted : Restarted pageSize used ((entries.drop k).map fun e => e.txn.frames.length).sum n database)
    (room : used + ((entries.drop k).map fun e => e.txn.frames.length).sum < 2 ^ 32) :
    ∃ m log, n.replay (runs.map fun run => (run.1.log, run.2)) = some (m, none) ∧ m.walAppender.published = some log ∧
      log.visible = ((entries.drop k).map made).foldl Database.apply database ∧
      m.fsm.lastApplied = ((entries.drop k).getLast?.map Committed.index).getD n.fsm.lastApplied := by
  have same {β : Type} (f : Committed Id → β) : (runs.map fun run => f run.1) = (entries.drop k).map f := by
    rw [← given, List.map_map]
    rfl
  have committing : ∀ run ∈ runs, Committing pageSize run.1.txn.frames := by
    intro run member
    have there : run.1 ∈ entries.drop k := given ▸ List.mem_map_of_mem member
    exact allComplete_committing complete run.1 (List.mem_of_mem_drop there)
  rw [← same] at restarted room
  obtain ⟨m, ran, last, later, final⟩ := replay_restarted restarted committing room
  obtain ⟨latest, stored, -, -, -, shown⟩ := final.log
  refine ⟨m, m.walAppender.log latest, ran, by rw [WALAppender.published, stored, Option.map_some], ?_, ?_⟩
  · rw [shown, same]
  · rw [last, ← List.getLast?_map, ← List.getLast?_map, same]

private theorem replayed_parts {α : Type} (entries : List α) {k m : Nat} (order : k ≤ m) :
    ∃ first again rest, entries = first ++ (again ++ rest) ∧ entries.take m = first ++ again ∧
      entries.drop k = again ++ rest := by
  have middle : entries.drop k = (entries.drop k).take (m - k) ++ entries.drop m := by
    have later := List.take_append_drop (m - k) (entries.drop k)
    rw [List.drop_drop, Nat.add_sub_cancel' order] at later
    exact later.symm
  refine ⟨entries.take k, _, _, ?_, ?_, middle⟩
  · rw [← middle, List.take_append_drop]
  · rw [← List.take_add, Nat.add_sub_cancel' order]

/-- A node that restarts with the database of the first `m` entries, and is given those
behind the first `k`, ends with the database and the index of the last. Its wal-index may hold
what an append left behind, as long as it has slots for what is replayed. -/
theorem replay_converges {start : Database Bytes} {entries : List (Committed Id)}
    (complete : allComplete pageSize start (entries.map fun e => e.txn.frames)) {k m : Nat} (order : k ≤ m)
    {n : Node Id} {hdr : Shm.Header} (markers : ∀ id, n.fsm.skipMarkers id = none)
    (loans : ∀ id, n.fsm.loans id = false) (size : n.walAppender.pageSize = pageSize)
    (header : n.walAppender.shm.readHeader = some hdr)
    (slots : FreeSlots n.walAppender.shm hdr.maxFrame ((entries.drop k).map fun e => e.txn.frames.length).sum)
    (intact : (n.walAppender.log hdr).Intact)
    (recovered : Database.Same (n.walAppender.log hdr).visible
      (((entries.take m).map fun e => e.txn.frames).foldl overwrite start))
    {runs : List (Committed Id × Around)} (given : runs.map Prod.fst = entries.drop k)
    (room : hdr.maxFrame.toNat + ((entries.drop k).map fun e => e.txn.frames.length).sum < 2 ^ 32) :
    ∃ b log, n.replay (runs.map fun run => (run.1.log, run.2)) = some (b, none) ∧ b.walAppender.published = some log ∧
      Database.Same log.visible ((entries.map fun e => e.txn.frames).foldl overwrite start) ∧
      (k < entries.length → entries.getLast?.map Committed.index = some b.fsm.lastApplied) := by
  have restarted : Restarted pageSize hdr.maxFrame.toNat ((entries.drop k).map fun e => e.txn.frames.length).sum n
      (n.walAppender.log hdr).visible :=
    ⟨markers, loans, size, hdr, header, slots, Nat.le_refl _, intact, rfl⟩
  obtain ⟨b, log, ran, published, shown, last⟩ := replay_drop complete given restarted room
  refine ⟨b, log, ran, published, ?_, ?_⟩
  · obtain ⟨first, again, rest, parts, taken, dropped⟩ := replayed_parts entries order
    have covers := allComplete_covers complete
    rw [taken, foldl_overwrite, List.map_append, List.foldl_append] at recovered
    rw [parts, List.map_append, List.map_append] at covers
    rw [shown, dropped, foldl_overwrite, parts]
    simpa only [List.map_append, List.foldl_append] using Database.replay_same covers.append recovered
  · intro some_
    have whole : (entries.drop k).getLast? = entries.getLast? := by
      rw [List.getLast?_drop, if_neg (Nat.not_le.mpr some_)]
    have somewhere : entries ≠ [] := List.ne_nil_of_length_pos (Nat.zero_lt_of_lt some_)
    rw [last, whole, List.getLast?_eq_some_getLast somewhere]
    rfl

/-- The database grows to two pages, one of them changes, it grows to three, shrinks to one and
grows to two. -/
def history : List (Committed Nat) :=
  [⟨1, 10, ⟨[⟨1, List.replicate 512 0⟩, ⟨2, List.replicate 512 0⟩], 2⟩⟩, ⟨2, 11, ⟨[⟨1, List.replicate 512 1⟩], 2⟩⟩,
    ⟨3, 12, ⟨[⟨3, List.replicate 512 1⟩], 3⟩⟩, ⟨4, 13, ⟨[⟨1, List.replicate 512 2⟩], 1⟩⟩, ⟨5, 14, ⟨[⟨2, List.replicate 512 3⟩], 2⟩⟩]

def onePage : Database Bytes := ⟨1, fun _ => List.replicate 512 9⟩

def quiet : Around := ⟨false, ⟨true, 0, 0⟩, []⟩

/-- A node that stopped in the middle of an append, restarted with the first two entries and given
all but the first. -/
theorem replay_converges_history : ∃ start a, (WALAppender.fresh 512 twoPages).maybeBootstrap 0 1 2 = some (.ok start) ∧
    exec step start [.append ⟨true, 0, 0⟩ [image 1 1 2], givenUp] = some a ∧
    ∃ b log, (member false a).replay (((history.drop 1).map fun e => (e, quiet)).map fun run => (run.1.log, run.2)) = some (b, none) ∧
      b.walAppender.published = some log ∧
      Database.Same log.visible ((history.map fun e => e.txn.frames).foldl overwrite onePage) ∧
      (1 < history.length → history.getLast?.map Committed.index = some b.fsm.lastApplied) := by
  have complete : allComplete 512 onePage (history.map fun e => e.txn.frames) := by
    refine ⟨⟨?_, ?_, ?_⟩, ⟨?_, ?_, ?_⟩, ⟨?_, ?_, ?_⟩, ⟨?_, ?_, ?_⟩, ⟨?_, ?_, ?_⟩, trivial⟩ <;> decide +kernel
  obtain ⟨start, a, hdr, booted, executed, ready, -, size, one, -, intact, visible⟩ := abandoned
  have recovered : Database.Same (a.log hdr).visible (((history.take 2).map fun e => e.txn.frames).foldl overwrite onePage) := by
    rw [visible]
    refine ⟨by decide +kernel, fun p positive inside => ?_⟩
    have few : p = 1 ∨ p = 2 := by
      have two : (overwrite twoPages [image 1 1 2]).size = 2 := rfl
      omega
    rcases few with rfl | rfl <;> decide +kernel
  have given : ((history.drop 1).map fun e => (e, quiet)).map Prod.fst = history.drop 1 := by
    rw [List.map_map]
    exact List.map_id _
  have room : hdr.maxFrame.toNat + ((history.drop 1).map fun e => e.txn.frames.length).sum < 2 ^ 32 := by
    rw [one]
    decide +kernel
  have converged := @replay_converges Nat 512 _ onePage history complete 1 2 (by decide) (member false a) hdr
    (fun _ => rfl) (fun _ => rfl) size ready.header (ready.slots _) intact recovered _ given room
  exact ⟨start, a, booted, executed, converged⟩

end Literaft.Proofs.Replay
