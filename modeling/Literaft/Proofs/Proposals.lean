import Literaft.Proofs.Session

/-! What a transaction of a session proposes. The file takes a header for the start of
a new transaction only after a commit or at an offset it has already passed, so frames
of a rolled-back transaction survive when other writers have moved the end of the log,
and a transaction that goes back to a savepoint loses the frames before it. -/

namespace Literaft.Proofs.Proposals
open Library Wal Vfs Sqlite Capture Spill Session

theorem proposals_passed {effects : List Effect} {calls : List Call} (within : effects ⊆ passed calls) :
    proposals effects = [] := by
  apply List.filterMap_eq_nil_iff.mpr
  intro effect member
  obtain ⟨call, _, rfl⟩ := List.mem_map.mp (within member)
  rfl

section Run
variable {pageSize : UInt32} {start : Nat} {found : View} {f : GatedWALFile} {t : Transaction}
  (sized : pageSize ≠ 0) (positive : 1 ≤ start) (legal : t.Legal pageSize) (rep : Represents pageSize found f)
include sized positive legal rep

theorem txn_proposals {c : Commit} (committing : t.commit = some c) :
    proposals (play f (t.calls pageSize start)).effects =
      [((if (Extent.of t).append.again then [] else (found.base (frameOffset pageSize start)).map Prod.snd) ++
          t.frames.drop (Extent.of t).append.lost, c.answer.isNone)] := by
  obtain ⟨_, _, _, ran⟩ := body_start sized positive legal rep
  obtain ⟨view, kept, closed, effects⟩ := commit_run sized positive legal rep committing
  have fixes : proposals (play (play (play f (bodyCalls pageSize start [] t.body)).file
      (t.commitCalls pageSize start)).file (t.fixCalls pageSize start)).effects = [] := by
    simp only [Transaction.fixCalls, committing, Transaction.rewriteCalls]
    split
    · rfl
    · obtain ⟨_, _, _, within⟩ := rewrites_run start sized kept closed c.rewrites
      exact proposals_passed within
  have writes : ∀ calls, proposals (if c.answer.isNone then passed calls else []) = [] := by
    intro calls
    split
    · exact proposals_passed (List.Subset.refl _)
    · rfl
  have early : proposals (if (Extent.of t).high = 0 ∧ found.coincides (frameOffset pageSize start) c.header = true then
      [.write (frameOffset pageSize start) c.header.bytes] else []) = [] := by
    split <;> rfl
  simp only [Transaction.calls, play_append, proposals_append, proposals_passed ran.within, fixes, effects, early,
    List.nil_append, List.append_nil]
  exact congrArg _ (writes _)

theorem rolledBack_proposals (rolledBack : t.commit = none) : proposals (play f (t.calls pageSize start)).effects = [] := by
  obtain ⟨_, _, _, ran⟩ := body_start sized positive legal rep
  simp only [Transaction.calls, Transaction.commitCalls, Transaction.fixCalls, rolledBack, List.append_nil]
  exact proposals_passed ran.within

end Run

/-- The transaction proposes nothing but an end piece of its own frames. -/
def Own (entry : Entry) : Prop := ∀ proposal ∈ proposals entry.played.effects, proposal.1 <:+ entry.txn.frames

instance (entry : Entry) : Decidable (Own entry) := inferInstanceAs (Decidable (∀ proposal ∈ _, _))

/-- The transaction commits on a file that still keeps uncommitted frames, all below
its first offset, and never goes back over an offset of its own. -/
def Carries (pageSize : UInt32) (entry : Entry) : Prop :=
  entry.txn.commit.isSome ∧ entry.before.currentTxCommitted = false ∧ entry.before.currentTxFrames ≠ [] ∧
    entry.before.maxOffset < frameOffset pageSize entry.start ∧ (Extent.of entry.txn).append.again = false

instance (pageSize : UInt32) (entry : Entry) : Decidable (Carries pageSize entry) := inferInstanceAs (Decidable (_ ∧ _))

private theorem lost_of_straight {extent : Extent} (straight : extent.append.again = false) : extent.append.lost = extent.lost ∧
    extent.again = false := by
  unfold Extent.append at straight ⊢
  split at straight
  · cases straight
  next above => rw [if_neg above]; exact ⟨rfl, straight⟩

/-- Frames are lost only to an append that went back. -/
theorem straight_lost (extent : Extent) (ops : List Op) (kept : extent.again = false → extent.lost = 0)
    (straight : (extent.body ops).again = false) : (extent.body ops).lost = 0 := by
  induction ops generalizing extent with
  | nil => exact kept straight
  | cons op rest ih =>
    apply ih (extent.op op) _ straight
    intro same
    cases op with
    | append header data =>
      obtain ⟨lost, before⟩ := lost_of_straight same
      exact lost.trans (kept before)
    | overwrite i data => exact kept same
    | rollbackTo live => exact kept same

private theorem carry_iff {pageSize : UInt32} {view : View} {f : GatedWALFile} (rep : Represents pageSize view f) (off : Nat) :
    view.base off ≠ [] ↔ f.currentTxCommitted = false ∧ f.currentTxFrames ≠ [] ∧ f.maxOffset < off := by
  rw [rep.committed, rep.frames, rep.top]
  unfold View.base
  cases view.committed with
  | true => simp
  | false =>
    by_cases behind : off ≤ view.top
    · simp [behind]
    · simp [behind, Nat.lt_of_not_le behind]

private theorem own_iff {pageSize : UInt32} {entry : Entry} (sized : pageSize ≠ 0) (began : Began pageSize entry) :
    Own entry ↔ ¬ Carries pageSize entry := by
  unfold Own Carries
  rw [began.played]
  cases committing : entry.txn.commit with
  | none =>
    rcases began.known with fresh | ⟨view, rep⟩
    · rw [fresh, (play_unsized calls_positive).2]
      simp [proposals]
    · rw [rolledBack_proposals sized began.positive began.legal rep committing]
      simp
  | some c =>
    rcases began.known with fresh | ⟨view, rep⟩
    · rw [fresh, (play_unsized calls_positive).2]
      simp [proposals, newGatedWALFile]
    · rw [txn_proposals sized began.positive began.legal rep committing]
      simp only [List.mem_singleton, forall_eq, Option.isSome_some, true_and]
      rw [← and_assoc, ← and_assoc, and_assoc (a := entry.before.currentTxCommitted = false), ← carry_iff rep]
      cases again : (Extent.of entry.txn).append.again with
      | true => simpa using List.drop_suffix _ _
      | false =>
        have none_ : (Extent.of entry.txn).append.lost = 0 :=
          (lost_of_straight again).1.trans (straight_lost {} _ (fun _ => rfl) (lost_of_straight again).2)
        rw [none_, List.drop_zero]
        constructor
        · rintro suffix ⟨carried, _⟩
          have longer := suffix.length_le
          have some_ := List.length_pos_iff.mpr carried
          simp only [Bool.false_eq_true, if_false, List.length_append, List.length_map] at longer
          omega
        · intro clean
          have empty : view.base (frameOffset pageSize entry.start) = [] := by
            by_contra carried
            exact clean ⟨carried, rfl⟩
          simp [empty]

/-- A session proposes only frames of the committing transaction itself exactly when
none of its commits finds frames of an unfinished transaction below its own. -/
theorem session_own_iff {pageSize : UInt32} (sized : pageSize ≠ 0) {base : Bytes} (head : headed pageSize base)
    (mxFrame : Nat) {events : List Event} (legal : ∀ event ∈ events, event.legal pageSize) :
    (∀ entry ∈ (Session.start base mxFrame).entries pageSize events, Own entry) ↔
      ∀ entry ∈ (Session.start base mxFrame).entries pageSize events, ¬ Carries pageSize entry :=
  forall₂_congr fun entry member => own_iff sized (entries_began sized legal (known_start head) entry member)

/-- A spilled transaction is rolled back and the connection commits at the same place. -/
def retried : List Event :=
  [.txn ⟨[.append { pgNo := 7 } (filled 7)], none⟩,
    .txn ⟨[], some { header := { pgNo := 2, nTruncate := 7 }, data := filled 2 }⟩]

theorem retried_own : (∀ event ∈ retried, event.legal 512) ∧
    ∀ entry ∈ (Session.start emptyLog 0).entries 512 retried, Own entry :=
  have legal : ∀ event ∈ retried, event.legal 512 := by decide +kernel
  ⟨legal, (session_own_iff (by decide) (by decide +kernel) 0 legal).mpr (by decide +kernel)⟩

/-- A spilled transaction is rolled back, another writer publishes one frame, and the
connection then commits. -/
def overtaken : List Event :=
  [.txn ⟨[.append { pgNo := 7 } (filled 7)], none⟩, .others 1,
    .txn ⟨[], some { header := { pgNo := 2, nTruncate := 7 }, data := filled 2 }⟩]

theorem overtaken_not_own : (∀ event ∈ overtaken, event.legal 512) ∧
    ((Session.start emptyLog 0).entries 512 overtaken).map (fun entry => proposals entry.played.effects) =
      [[], [([⟨{ pgNo := 7 }, filled 7⟩, ⟨{ pgNo := 2, nTruncate := 7 }, filled 2⟩], true)]] ∧
    ¬ ∀ entry ∈ (Session.start emptyLog 0).entries 512 overtaken, Own entry := by
  refine ⟨by decide +kernel, by decide +kernel, by decide +kernel⟩

/-- The frames of an unfinished transaction that the file keeps. -/
def unfinished (f : GatedWALFile) : List Frame := f.currentTxFrames.filterMap f.currentTxFrameOffsets

/-- What a transaction adds to its proposal is its live frames, with their final data, and none of its
frame writes is refused before the commit. What stands before them the file kept from earlier. -/
structure ProposesLive (pageSize : UInt32) (entry : Entry) : Prop where
  proposed : ∃ earlier, (earlier = [] ∨ earlier = unfinished entry.before) ∧
    (proposals entry.played.effects).map Prod.fst = [earlier ++ entry.txn.frames]
  accepted : ∀ result ∈ (play entry.before (bodyCalls pageSize entry.start [] entry.txn.body)).results, ∃ count, result = .ok count

theorem frames_nonempty {t : Transaction} {c : Commit} (committing : t.commit = some c) : t.frames ≠ [] := by
  simp [Transaction.frames, committing]

private theorem base_unfinished {pageSize : UInt32} {view : View} {f : GatedWALFile} (rep : Represents pageSize view f)
    (off : Nat) :
    (view.base off).map Prod.snd = [] ∨ (view.base off).map Prod.snd = unfinished f := by
  unfold View.base
  split
  · exact .inl rfl
  next open_ =>
    obtain ⟨uncommitted, -⟩ := not_or.mp (fun either => open_ (Bool.or_eq_true_iff.mpr either))
    rw [unfinished, rep.frames, rep.offsets, if_neg uncommitted, filterMap_find rep.ordered]
    exact .inr rfl

private theorem live_proposed_iff {pageSize : UInt32} {view : View} {entry : Entry} (sized : pageSize ≠ 0)
    (began : Began pageSize entry) (rep : Represents pageSize view entry.before) {c : Commit}
    (committing : entry.txn.commit = some c) :
    (∃ earlier, (earlier = [] ∨ earlier = unfinished entry.before) ∧
      (proposals entry.played.effects).map Prod.fst = [earlier ++ entry.txn.frames]) ↔ (Extent.of entry.txn).append.lost = 0 := by
  rw [began.played, txn_proposals sized began.positive began.legal rep committing]
  simp only [List.map_cons, List.map_nil, List.cons.injEq, and_true]
  have some_ := List.length_pos_iff.mpr (frames_nonempty committing)
  constructor
  · rintro ⟨earlier, -, same⟩
    cases again : (Extent.of entry.txn).append.again with
    | true =>
      -- Nothing else is in the proposal, so its length tells what is missing.
      have length := congrArg List.length same
      simp only [again, if_true, List.nil_append, List.length_drop, List.length_append] at length
      omega
    | false => exact (lost_of_straight again).1.trans (straight_lost {} _ (fun _ => rfl) (lost_of_straight again).2)
  · intro none_
    refine ⟨_, ?_, by rw [none_, List.drop_zero]⟩
    split
    · exact .inl rfl
    · exact base_unfinished rep _

/-- A commit proposes all live frames and nothing that was undone exactly when no frame from before
the transaction's last append onto an offset it had already written is overwritten after that append
or still live at the commit. -/
theorem session_live_iff {pageSize : UInt32} (sized : pageSize ≠ 0) {base : Bytes} (head : headed pageSize base)
    (mxFrame : Nat) {events : List Event} (legal : ∀ event ∈ events, event.legal pageSize) :
    ∀ entry ∈ (Session.start base mxFrame).entries pageSize events, entry.txn.commit.isSome →
      entry.before.pageSize = pageSize →
      (ProposesLive pageSize entry ↔ Extent.acceptsAll {} entry.txn.body ∧ (Extent.of entry.txn).append.lost = 0) := by
  intro entry member commits known
  have began := entries_began sized legal (known_start head) entry member
  obtain ⟨c, committing⟩ := Option.isSome_iff_exists.mp commits
  rcases began.known with fresh | ⟨view, rep⟩
  · rw [fresh] at known
    exact absurd known.symm sized
  · obtain ⟨_, _, _, ran⟩ := body_start sized began.positive began.legal rep
    have proposed := live_proposed_iff sized began rep committing
    constructor
    · intro live
      refine ⟨?_, proposed.mp live.proposed⟩
      by_contra refused
      obtain ⟨err, member⟩ := ran.refused refused
      obtain ⟨count, wrong⟩ := live.accepted _ member
      cases wrong
    · rintro ⟨accepted, none_⟩
      exact ⟨proposed.mpr none_, (ran.accepted accepted).2⟩

/-- A transaction spills a page, undoes all it wrote, and writes two pages of which it
changes the first again. -/
def rewritten : Transaction where
  body := [.append { pgNo := 2 } (filled 2), .rollbackTo 0, .append { pgNo := 3 } (filled 3),
    .append { pgNo := 4 } (filled 4), .overwrite 0 (filled 9)]
  commit := some { header := { pgNo := 5, nTruncate := 5 }, data := filled 5 }

/-- Its live frames are proposed, and so are those of a commit whose proposal begins with a page that
was rolled back before. -/
theorem rewritten_live : rewritten.Legal 512 ∧ ProposesLive 512 ((Session.start emptyLog 0).txn 512 rewritten) ∧
    ∀ entry ∈ (Session.start emptyLog 0).entries 512 overtaken, entry.txn.commit.isSome → ProposesLive 512 entry :=
  have legal : ∀ event ∈ [Event.txn rewritten], event.legal 512 := by decide +kernel
  have commits : ∀ entry ∈ (Session.start emptyLog 0).entries 512 overtaken, entry.txn.commit.isSome →
      entry.before.pageSize = 512 ∧ Extent.acceptsAll {} entry.txn.body ∧ (Extent.of entry.txn).append.lost = 0 := by
    decide +kernel
  ⟨legal _ List.mem_cons_self,
    (session_live_iff (by decide) (by decide +kernel) 0 legal _ List.mem_cons_self rfl (by decide +kernel)).mpr (by decide +kernel),
    fun entry member some_ =>
      (session_live_iff (by decide) (by decide +kernel) 0 (by decide +kernel) entry member some_ (commits entry member some_).1).mpr
        (commits entry member some_).2⟩

/-- A transaction spills two pages, undoes the second, writes another in its place and
changes the first page again before it commits. -/
def undone : Transaction where
  body := [.append { pgNo := 2 } (filled 2), .append { pgNo := 3 } (filled 3), .rollbackTo 1,
    .append { pgNo := 4 } (filled 4), .overwrite 0 (filled 9)]
  commit := some { header := { pgNo := 5, nTruncate := 5 }, data := filled 5 }

theorem undone_not_live : undone.Legal 512 ∧
    undone.frames =
      [⟨{ pgNo := 2 }, filled 9⟩, ⟨{ pgNo := 4 }, filled 4⟩, ⟨{ pgNo := 5, nTruncate := 5 }, filled 5⟩] ∧
    (proposals ((Session.start emptyLog 0).txn 512 undone).played.effects =
      [([⟨{ pgNo := 4 }, filled 4⟩, ⟨{ pgNo := 5, nTruncate := 5 }, filled 5⟩], true)]) ∧
    ¬ ProposesLive 512 ((Session.start emptyLog 0).txn 512 undone) := by
  have proposed : proposals ((Session.start emptyLog 0).txn 512 undone).played.effects =
      [([⟨{ pgNo := 4 }, filled 4⟩, ⟨{ pgNo := 5, nTruncate := 5 }, filled 5⟩], true)] := by decide +kernel
  refine ⟨by decide +kernel, by decide +kernel, proposed, fun live => ?_⟩
  obtain ⟨earlier, -, same⟩ := live.proposed
  rw [proposed] at same
  have length := congrArg List.length (List.cons.inj same).1
  rw [List.length_append, show ((Session.start emptyLog 0).txn 512 undone).txn.frames.length = 3 by decide +kernel] at length
  have two : 2 = earlier.length + 3 := length
  omega

end Literaft.Proofs.Proposals
