import Literaft.Store
import Literaft.Proofs.Calls

/-! The appender implements the page store, and two appenders that are given the same
transactions show the same database, whatever happens in between. -/

namespace Literaft.Proofs.Store
open Library Wal WalAppender Literaft.Store Calls

variable {pageSize : UInt32} {a : WALAppender} {database : Database Bytes}

structure Stores (pageSize : UInt32) (a : WALAppender) (database : Database Bytes) : Prop where
  size : a.pageSize = pageSize
  log : ∃ hdr, Ready a hdr ∧ (a.log hdr).Valid ∧ (a.log hdr).visible = database

theorem stores_bootstrap {salt1 salt2 : UInt32} {walSize : Nat}
    (booted : (WALAppender.fresh pageSize database).maybeBootstrap walSize salt1 salt2 = some (.ok a)) :
    Stores pageSize a database := by
  obtain ⟨hdr, ready, size, log⟩ := bootstrap_ready booted
  refine ⟨size, hdr, ready, ?_, ?_⟩
  · rw [log]
    exact PageLog.Valid.start database
  · rw [log]
    exact PageLog.visible_start database

theorem finalSize_split {frames : List Frame} (marked : finalSize frames ≠ 0) :
    ∃ body last, frames = body ++ [last] ∧ last.header.nTruncate = finalSize frames := by
  unfold finalSize at marked ⊢
  cases found : frames.getLast? with
  | none =>
    rw [found] at marked
    exact absurd rfl marked
  | some last =>
    obtain ⟨body, split⟩ := List.getLast?_eq_some_iff.mp found
    exact ⟨body, last, split, rfl⟩

/-- All frames have the right size, and the last one commits. -/
structure Committing (pageSize : UInt32) (frames : List Frame) : Prop where
  lengths : ∀ f ∈ frames, f.data.length = pageSize.toNat
  marked : finalSize frames ≠ 0

private theorem append_stores {frames : List Frame} (stores : Stores pageSize a database)
    (complete : Complete pageSize database frames)
    (chance : Chance) (room : ∀ hdr, a.shm.readHeader = some hdr → hdr.maxFrame.toNat + frames.length < 2 ^ 32) :
    ∃ b, a.appendFramesLocked chance frames = some (b, none) ∧ Stores pageSize b (overwrite database frames) := by
  obtain ⟨hdr, ready, valid, visible⟩ := stores.log
  have marked := complete.marked
  have grown := complete.grown
  have lengths := complete.lengths
  have fits := room hdr ready.header
  obtain ⟨body, last, split, size⟩ := finalSize_split marked
  rw [← stores.size] at lengths
  rw [← visible] at grown
  rw [← size] at marked grown
  rw [split] at lengths grown fits
  obtain ⟨b, latest, ran, done, same, still, shown⟩ := append_visible ready valid chance lengths marked fits grown
  rw [← split] at ran shown
  refine ⟨b, ran, same.trans stores.size, latest, done, still, ?_⟩
  rw [shown, visible, size]
  rfl

private theorem checkpoint_stores (stores : Stores pageSize a database) (k : UInt32) : Stores pageSize
    (a.checkpoint k) database := by
  obtain ⟨hdr, ready, valid, visible⟩ := stores.log
  have settled := checkpoint_settles ready.header k
  exact ⟨settled.pageSize.trans stores.size, hdr, ⟨settled.header ready.header, fun count => settled.slots _ _ (ready.slots count)⟩,
    settled.valid valid, (settled.visible valid.intact).2.trans visible⟩

/-- The visible database follows the transactions through a whole run. -/
theorem exec_stores {operations : List Operation} (stores : Stores pageSize a database)
    (complete : allComplete pageSize database (transactions operations)) (room : fits a operations) :
    ∃ b, exec step a operations = some b ∧ Stores pageSize b ((transactions operations).foldl overwrite database) := by
  induction operations generalizing a database with
  | nil => exact ⟨a, rfl, stores⟩
  | cons operation rest ih =>
    cases operation with
    | append chance frames =>
      obtain ⟨b, appended, after⟩ := append_stores stores complete.1 chance fun hdr => room.1 frames hdr rfl
      have first : step a (.append chance frames) = some b := by rw [step, appended, Option.map_some]
      obtain ⟨c, ran, final⟩ := ih after complete.2 (room.2 b first)
      exact ⟨c, by rw [exec, first]; exact ran, final⟩
    | checkpoint k =>
      have first : step a (.checkpoint k) = some (a.checkpoint k) := rfl
      obtain ⟨c, ran, final⟩ := ih (checkpoint_stores stores k) complete (room.2 _ first)
      exact ⟨c, by rw [exec, first]; exact ran, final⟩

private theorem allComplete_same {left right : Database Bytes} {frames : List (List Frame)} (same : Database.Same left right)
    (complete : allComplete pageSize left frames) : allComplete pageSize right frames := by
  induction frames generalizing left right with
  | nil => trivial
  | cons first rest ih =>
    obtain ⟨⟨lengths, marked, grown⟩, later⟩ := complete
    exact ⟨⟨lengths, marked, grown.same same⟩, ih (same.apply grown) later⟩

private theorem overwrite_same {left right : Database Bytes} {frames : List (List Frame)} (same : Database.Same left right)
    (complete : allComplete pageSize left frames) :
    Database.Same (frames.foldl overwrite left) (frames.foldl overwrite right) := by
  induction frames generalizing left right with
  | nil => exact same
  | cons first rest ih => exact ih (same.apply complete.1.grown) complete.2

/-- What a published log shows, and that every page of it lies in the log or in the file. -/
def Published (a : WALAppender) (database : Database Bytes) : Prop :=
  ∃ log, a.published = some log ∧ log.visible = database ∧
    ∀ p, 1 ≤ p → p ≤ database.size → p ∈ log.frames.map Prod.fst ∨ p ≤ log.file.size

theorem Stores.published (stores : Stores pageSize a database) : Published a database := by
  obtain ⟨hdr, ready, valid, rfl⟩ := stores.log
  refine ⟨_, by rw [WALAppender.published, ready.header, Option.map_some], rfl, ?_⟩
  intro p _ inside
  by_cases started : (a.log hdr).size = 0
  · refine .inr ?_
    simpa only [PageLog.visible, started, if_true] using inside
  · by_cases beyond : (a.log hdr).file.size < p
    · exact .inl (valid.covered started p beyond (by simpa only [PageLog.visible, started, if_false] using inside))
    · exact .inr (Nat.not_lt.mp beyond)

/-- From a bootstrapped log on, the appender shows what its transactions make of the
database, and a second node that is given the same transactions shows the same. -/
theorem appenders_implement_store {left right : Database Bytes} {a b : WALAppender} {salt1 salt2 salt3 salt4 : UInt32}
    {walSize otherSize : Nat} (same : Database.Same left right)
    (booted : (WALAppender.fresh pageSize left).maybeBootstrap walSize salt1 salt2 = some (.ok a))
    (other : (WALAppender.fresh pageSize right).maybeBootstrap otherSize salt3 salt4 = some (.ok b))
    {operations others : List Operation} (agreed : transactions operations = transactions others)
    (complete : allComplete pageSize left (transactions operations)) (room : fits a operations) (room' : fits b others) :
    ∃ c d, exec step a operations = some c ∧ exec step b others = some d ∧
      Published c ((transactions operations).foldl overwrite left) ∧
      Published d ((transactions others).foldl overwrite right) ∧
      Database.Same ((transactions operations).foldl overwrite left) ((transactions others).foldl overwrite right) := by
  obtain ⟨c, ran, stored⟩ := exec_stores (stores_bootstrap booted) complete room
  have also := allComplete_same same complete
  have shown := overwrite_same same complete
  rw [agreed] at also
  obtain ⟨d, ran', stored'⟩ := exec_stores (stores_bootstrap other) also room'
  refine ⟨c, d, ran, ran', stored.published, stored'.published, ?_⟩
  rw [← agreed]
  exact shown

theorem fits_total {hdr : Shm.Header} {operations : List Operation} (header : a.shm.readHeader = some hdr)
    (total : hdr.maxFrame.toNat + ((transactions operations).map List.length).sum < 2 ^ 32) : fits a operations := by
  induction operations generalizing a hdr with
  | nil => trivial
  | cons operation rest ih =>
    cases operation with
    | append chance frames =>
      have split : (transactions (.append chance frames :: rest)).map List.length =
          frames.length :: (transactions rest).map List.length := rfl
      rw [split, List.sum_cons] at total
      refine ⟨?_, ?_⟩
      · intro other found given read
        cases given
        obtain rfl : hdr = found := Option.some.inj (header.symm.trans read)
        omega
      · intro b stepped
        rw [step] at stepped
        obtain ⟨⟨_, err⟩, ran, rfl⟩ := Option.map_eq_some_iff.mp stepped
        have fewer := accepted_le a.pageSize frames
        obtain ⟨-, -, latest, -, published, -⟩ := call_log header (by omega) ran
        have grown := call_grows header (by omega) ran published
        exact ih published (by omega)
    | checkpoint k =>
      refine ⟨?_, ?_⟩
      · intro frames found given
        cases given
      · intro b stepped
        rw [step, Option.some.injEq] at stepped
        subst stepped
        exact ih ((checkpoint_settles header k).header header) total

def twoPages : Database Bytes := ⟨2, fun _ => List.replicate 512 0⟩

def image (pgNo : UInt32) (byte : UInt8) (nTruncate : UInt32) : Frame := ⟨{ pgNo, nTruncate }, List.replicate 512 byte⟩

/-- The database grows, shrinks and grows again, with a checkpoint that lets the log start
again in between. -/
def busy : List Operation :=
  [.append ⟨false, 3, 4⟩ [image 2 1 0, image 3 1 3], .checkpoint 2, .append ⟨false, 5, 6⟩ [image 1 2 1], .checkpoint 1,
    .append ⟨false, 7, 8⟩ [image 3 3 0, image 2 3 3]]

/-- The same transactions while a reader stays on the log. -/
def pinned : List Operation :=
  [.append ⟨true, 0, 0⟩ [image 2 1 0, image 3 1 3], .append ⟨true, 0, 0⟩ [image 1 2 1], .checkpoint 2,
    .append ⟨true, 0, 0⟩ [image 3 3 0, image 2 3 3]]

theorem busy_like_pinned : ∃ a b c d, (WALAppender.fresh 512 twoPages).maybeBootstrap 0 1 2 = some (.ok a) ∧
    (WALAppender.fresh 512 twoPages).maybeBootstrap 0 9 9 = some (.ok b) ∧
    exec step a busy = some c ∧ exec step b pinned = some d ∧
    Published c ((transactions busy).foldl overwrite twoPages) ∧
    Published d ((transactions pinned).foldl overwrite twoPages) ∧
    Database.Same ((transactions busy).foldl overwrite twoPages) ((transactions pinned).foldl overwrite twoPages) := by
  obtain ⟨a, booted⟩ := bootstrap_fresh 512 1 2 twoPages (Nat.zero_le _)
  obtain ⟨b, other⟩ := bootstrap_fresh 512 9 9 twoPages (Nat.zero_le _)
  obtain ⟨hdr, ready, -, log⟩ := bootstrap_ready booted
  obtain ⟨hdr', ready', -, log'⟩ := bootstrap_ready other
  have zero : hdr.maxFrame.toNat = 0 := by rw [← log_length a hdr, log, List.length_nil]
  have zero' : hdr'.maxFrame.toNat = 0 := by rw [← log_length b hdr', log', List.length_nil]
  have complete : allComplete 512 twoPages (transactions busy) := by
    refine ⟨⟨?_, ?_, ?_⟩, ⟨?_, ?_, ?_⟩, ⟨?_, ?_, ?_⟩, trivial⟩ <;> decide +kernel
  have room : fits a busy := fits_total ready.header (by rw [zero]; decide)
  have room' : fits b pinned := fits_total ready'.header (by rw [zero']; decide)
  obtain ⟨c, d, ran, ran', shown, shown', same⟩ :=
    appenders_implement_store (.refl twoPages) booted other (show transactions busy = transactions pinned from rfl) complete
      room room'
  exact ⟨a, b, c, d, booted, other, ran, ran', shown, shown', same⟩

end Literaft.Proofs.Store
