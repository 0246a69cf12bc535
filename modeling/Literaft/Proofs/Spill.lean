import Literaft.Proofs.Capture

/-! The body of a transaction against the capture. An append onto an offset that was
already written makes the file forget every frame it kept, so the live frames from
before that append are no longer tracked. -/

namespace Literaft.Proofs.Spill
open Library Wal Vfs Sqlite Capture

/-- How far a transaction has come: its live frames, one past the last frame written,
the live frames from before the last append that went back over written offsets, and
whether there was such an append. -/
structure Extent where
  live : Nat := 0
  high : Nat := 0
  lost : Nat := 0
  again : Bool := false
  deriving DecidableEq, Repr

namespace Extent

def append (extent : Extent) : Extent :=
  if extent.live < extent.high then ⟨extent.live + 1, extent.live + 1, extent.live, true⟩
  else ⟨extent.live + 1, extent.live + 1, extent.lost, extent.again⟩

def op (extent : Extent) : Op → Extent
  | .append _ _ => extent.append
  | .overwrite _ _ => extent
  | .rollbackTo live => { extent with live }

def body (extent : Extent) (ops : List Op) : Extent := ops.foldl op extent

/-- No in-place write hits a frame from before the last such append. -/
def accepts (extent : Extent) : Op → Prop
  | .overwrite frame _ => extent.lost ≤ frame
  | _ => True

def acceptsAll : Extent → List Op → Prop
  | _, [] => True
  | extent, op :: rest => extent.accepts op ∧ acceptsAll (extent.op op) rest

instance (extent : Extent) : (op : Op) → Decidable (extent.accepts op)
  | .append _ _ => inferInstanceAs (Decidable True)
  | .overwrite _ _ => inferInstanceAs (Decidable (_ ≤ _))
  | .rollbackTo _ => inferInstanceAs (Decidable True)

instance acceptsAll.decidable : (extent : Extent) → (ops : List Op) → Decidable (acceptsAll extent ops)
  | _, [] => inferInstanceAs (Decidable True)
  | extent, op :: rest =>
    have := acceptsAll.decidable (extent.op op) rest
    inferInstanceAs (Decidable (_ ∧ _))

end Extent

def numbered (pageSize : UInt32) : Nat → List Frame → List (Nat × Frame)
  | _, [] => []
  | n, frame :: rest => (frameOffset pageSize n, frame) :: numbered pageSize (n + 1) rest

@[simp] theorem numbered_snd (pageSize : UInt32) (n : Nat) (frames : List Frame) :
    (numbered pageSize n frames).map Prod.snd = frames := by
  induction frames generalizing n with
  | nil => rfl
  | cons frame rest ih => simp [numbered, ih]

private theorem numbered_snoc (pageSize : UInt32) (n : Nat) (frames : List Frame) (frame : Frame) :
    numbered pageSize n (frames ++ [frame]) =
      numbered pageSize n frames ++ [(frameOffset pageSize (n + frames.length), frame)] := by
  induction frames generalizing n with
  | nil => simp [numbered]
  | cons head rest ih =>
    simp only [List.cons_append, numbered, ih, List.length_cons, show n + 1 + rest.length = n + (rest.length + 1) by omega]

private theorem numbered_keys {pageSize : UInt32} {n key : Nat} {frames : List Frame}
    (member : key ∈ (numbered pageSize n frames).map Prod.fst) :
    ∃ i, i < frames.length ∧ key = frameOffset pageSize (n + i) := by
  induction frames generalizing n with
  | nil => cases member
  | cons frame rest ih =>
    rcases List.mem_cons.mp member with rfl | member
    · exact ⟨0, by simp, rfl⟩
    · obtain ⟨i, inside, rfl⟩ := ih member
      exact ⟨i + 1, by simpa using inside, by rw [show n + 1 + i = n + (i + 1) by omega]⟩

theorem find_numbered {pageSize : UInt32} {n i : Nat} (positive : 1 ≤ n) (frames : List Frame) :
    find (numbered pageSize n frames) (frameOffset pageSize (n + i)) = frames[i]? := by
  induction frames generalizing n i with
  | nil => rfl
  | cons frame rest ih =>
    cases i with
    | zero => simp [numbered, find]
    | succ i =>
      have apart : frameOffset pageSize n ≠ frameOffset pageSize (n + (i + 1)) := by
        intro same
        have := frameOffset_inj positive (by omega) same
        omega
      have later := ih (n := n + 1) (i := i) (by omega)
      rw [show n + 1 + i = n + (i + 1) by omega] at later
      simp [numbered, find, apart, later]

private theorem find_numbered_before {pageSize : UInt32} {n m : Nat} (positive : 1 ≤ m) (before : m < n) (frames : List Frame) :
    find (numbered pageSize n frames) (frameOffset pageSize m) = none := by
  apply find_eq_none
  intro member
  obtain ⟨i, _, same⟩ := numbered_keys member
  have := frameOffset_inj positive (by omega) same
  omega

private theorem change_others {entries : List (Nat × Frame)} {off : Nat} (edit : Frame → Frame)
    (absent : off ∉ entries.map Prod.fst) :
    (entries.map fun entry => if entry.1 = off then (off, edit entry.2) else entry) = entries := by
  conv => rhs; rw [← List.map_id entries]
  apply List.map_congr_left
  intro entry member
  have missed : entry.1 ≠ off := fun same => absent (same ▸ List.mem_map_of_mem member)
  simp [missed]

theorem change_numbered {pageSize : UInt32} {n i : Nat} (positive : 1 ≤ n) (frames : List Frame) (edit : Frame → Frame) :
    ((numbered pageSize n frames).map fun entry =>
      if entry.1 = frameOffset pageSize (n + i) then (frameOffset pageSize (n + i), edit entry.2) else entry) =
      numbered pageSize n (frames.modify i edit) := by
  induction frames generalizing n i with
  | nil => cases i <;> rfl
  | cons frame rest ih =>
    cases i with
    | zero =>
      have absent : frameOffset pageSize n ∉ (numbered pageSize (n + 1) rest).map Prod.fst := by
        intro member
        obtain ⟨j, _, same⟩ := numbered_keys member
        have := frameOffset_inj positive (by omega) same
        omega
      simpa [numbered] using change_others edit absent
    | succ i =>
      have apart : frameOffset pageSize n ≠ frameOffset pageSize (n + (i + 1)) := by
        intro same
        have := frameOffset_inj positive (by omega) same
        omega
      have later := ih (n := n + 1) (i := i) (by omega)
      rw [show n + 1 + i = n + (i + 1) by omega] at later
      simp [numbered, apart, later]

/-- The capture inside a transaction that found `carry` still kept. Undone frames
stay in it until the next append, beyond the live ones. -/
structure Tracks (pageSize : UInt32) (start : Nat) (carry : List (Nat × Frame)) (frames : List Frame)
    (extent : Extent) (view : View) : Prop where
  running : view.committed = false
  live : extent.live = frames.length
  within : extent.live ≤ extent.high
  begun : extent.lost < extent.high
  top : view.top = frameOffset pageSize (start + extent.high - 1)
  kept : ∃ seg, view.kept =
      (if extent.again then [] else carry) ++ numbered pageSize (start + extent.lost) seg ∧
    seg.length = extent.high - extent.lost ∧ seg.take (frames.length - extent.lost) = frames.drop extent.lost

/-- Before its first frame a transaction has left the capture as it found it. -/
def Follows (pageSize : UInt32) (start : Nat) (found : View) (frames : List Frame) (extent : Extent)
    (view : View) : Prop :=
  (frames = [] ∧ extent = {} ∧ view = found) ∨
    Tracks pageSize start (found.base (frameOffset pageSize start)) frames extent view

def passed (calls : List Call) : List Effect := calls.map fun call => .write call.off call.p

variable {pageSize : UInt32} {start : Nat} {found view : View} {frames : List Frame} {extent : Extent}

theorem follows_append (positive : 1 ≤ start) (follows : Follows pageSize start found frames extent view) (frame : Frame) :
    Tracks pageSize start (found.base (frameOffset pageSize start)) (frames ++ [frame]) extent.append
      (view.append (frameOffset pageSize (start + frames.length)) frame) := by
  rcases follows with ⟨rfl, rfl, rfl⟩ | tracks
  · refine ⟨rfl, rfl, by decide, by decide, rfl, [frame], ?_, rfl, rfl⟩
    simp [View.append, Extent.append, numbered]
  · obtain ⟨seg, kept, length, live⟩ := tracks.kept
    have count := tracks.live
    have within := tracks.within
    have begun := tracks.begun
    have order : frameOffset pageSize (start + frames.length) ≤ view.top ↔ extent.live < extent.high := by
      rw [tracks.top, frameOffset_le_iff pageSize (by omega) (by omega)]
      omega
    by_cases back : extent.live < extent.high
    · have base : view.base (frameOffset pageSize (start + frames.length)) = [] := by
        simp [View.base, order.mpr back]
      simp only [View.append, base, Extent.append, back, if_true]
      refine ⟨rfl, by simp [count], Nat.le_refl _, Nat.lt_succ_self _, by rw [count]; rfl, [frame], ?_, by simp, ?_⟩
      · simp [numbered, count]
      · simp [count]
    · have base : view.base (frameOffset pageSize (start + frames.length)) = view.kept := by
        simp [View.base, tracks.running, order, back]
      have all : extent.high = frames.length := by omega
      have whole : seg = frames.drop extent.lost := by
        rw [← live, List.take_of_length_le (by omega)]
      simp only [View.append, base, Extent.append, back, if_false]
      refine ⟨rfl, by simp [count], Nat.le_refl _, by simp only; omega, by rw [count]; rfl, seg ++ [frame], ?_, ?_, ?_⟩
      · rw [numbered_snoc, length, show start + extent.lost + (extent.high - extent.lost) = start + frames.length by omega,
          kept, List.append_assoc]
      · simp only [List.length_append, List.length_cons, List.length_nil]
        omega
      · rw [List.take_of_length_le (by simp; omega), whole, List.drop_append_of_le_length (by simp only; omega)]

theorem Tracks.rollbackTo {carry : List (Nat × Frame)} (tracks : Tracks pageSize start carry frames extent view)
    {live : Nat} (inside : live ≤ frames.length) :
    Tracks pageSize start carry (frames.take live) { extent with live } view := by
  obtain ⟨seg, kept, length, same⟩ := tracks.kept
  have count := tracks.live
  have within := tracks.within
  refine ⟨tracks.running, by simp [inside], by simp only; omega, tracks.begun, tracks.top, seg, kept, length, ?_⟩
  rw [List.length_take, Nat.min_eq_left inside, List.drop_take, ← same, List.take_take]
  congr 1
  simp only
  omega

private theorem carry_absent {carry : List (Nat × Frame)} (positive : 1 ≤ start)
    (below : ∀ key ∈ carry.map Prod.fst, key < frameOffset pageSize start) (again : Bool) {n : Nat} (later : start ≤ n) :
    frameOffset pageSize n ∉ (if again then [] else carry).map Prod.fst := by
  split
  · simp
  · intro member
    have early := below _ member
    have := (frameOffset_le_iff pageSize positive (Nat.le_trans positive later)).mpr later
    omega

private theorem Tracks.find_live {carry : List (Nat × Frame)} (tracks : Tracks pageSize start carry frames extent view)
    (positive : 1 ≤ start) (below : ∀ key ∈ carry.map Prod.fst, key < frameOffset pageSize start)
    {i : Nat} (inside : i < frames.length) (recent : extent.lost ≤ i) :
    find view.kept (frameOffset pageSize (start + i)) = frames[i]? := by
  obtain ⟨seg, kept, length, same⟩ := tracks.kept
  have absent := find_eq_none (carry_absent positive below extent.again (Nat.le_add_right start i))
  obtain ⟨j, rfl⟩ := Nat.exists_eq_add_of_le recent
  rw [kept, find_append, absent, Option.none_or, ← Nat.add_assoc, find_numbered (by omega),
    ← List.getElem?_drop, ← same, List.getElem?_take, if_pos (by omega)]

private theorem Tracks.find_lost {carry : List (Nat × Frame)} (tracks : Tracks pageSize start carry frames extent view)
    (positive : 1 ≤ start) (below : ∀ key ∈ carry.map Prod.fst, key < frameOffset pageSize start)
    {i : Nat} (early : i < extent.lost) :
    find view.kept (frameOffset pageSize (start + i)) = none := by
  obtain ⟨seg, kept, length, same⟩ := tracks.kept
  have absent := find_eq_none (carry_absent positive below extent.again (Nat.le_add_right start i))
  rw [kept, find_append, absent, Option.none_or, find_numbered_before (by omega) (by omega)]

theorem Tracks.overwrite {carry : List (Nat × Frame)} (tracks : Tracks pageSize start carry frames extent view)
    (positive : 1 ≤ start) (below : ∀ key ∈ carry.map Prod.fst, key < frameOffset pageSize start)
    {i : Nat} (recent : extent.lost ≤ i) (edit : Frame → Frame) :
    Tracks pageSize start carry (frames.modify i edit) extent (view.change (frameOffset pageSize (start + i)) edit) := by
  obtain ⟨seg, kept, length, same⟩ := tracks.kept
  obtain ⟨j, rfl⟩ := Nat.exists_eq_add_of_le recent
  refine ⟨tracks.running, by simpa using tracks.live, tracks.within, tracks.begun, tracks.top,
    seg.modify j edit, ?_, by simpa using length, ?_⟩
  · simp only [View.change, kept, List.map_append]
    rw [change_others edit (carry_absent positive below extent.again (Nat.le_add_right _ _)), ← Nat.add_assoc,
      change_numbered (by omega)]
  · rw [List.length_modify, List.take_modify, same, List.drop_modify_of_ge _ _ _ _ (by omega), Nat.add_sub_cancel_left]

theorem Tracks.refused {carry : List (Nat × Frame)} (tracks : Tracks pageSize start carry frames extent view)
    {i : Nat} (early : i < extent.lost) (edit : Frame → Frame) :
    Tracks pageSize start carry (frames.modify i edit) extent view := by
  obtain ⟨seg, kept, length, same⟩ := tracks.kept
  refine ⟨tracks.running, by simpa using tracks.live, tracks.within, tracks.begun, tracks.top, seg, kept, length, ?_⟩
  rw [List.length_modify, List.drop_modify_of_lt _ _ _ _ early, same]

private theorem Tracks.kept_nonempty {carry : List (Nat × Frame)} (tracks : Tracks pageSize start carry frames extent view) :
    view.kept ≠ [] := by
  obtain ⟨seg, kept, length, _⟩ := tracks.kept
  have begun := tracks.begun
  have written : seg ≠ [] := by
    rintro rfl
    simp only [List.length_nil] at length
    omega
  rw [kept]
  intro empty
  have nothing := (List.append_eq_nil_iff.mp empty).2
  exact written (by rw [← numbered_snd pageSize (start + extent.lost) seg, nothing, List.map_nil])

/-- What a run of calls of a transaction's body did: it is passed on as it is, unless
an in-place write hits a frame the file no longer keeps. -/
structure Ran (accepts : Prop) (calls : List Call) (played : Played) : Prop where
  within : played.effects ⊆ passed calls
  accepted : accepts → played.effects = passed calls ∧ ∀ result ∈ played.results, ∃ count, result = .ok count
  refused : ¬ accepts → ∃ err, .error err ∈ played.results

theorem Ran.append {f : GatedWALFile} {first last : Prop} {calls later : List Call} (ran : Ran first calls (play f calls))
    (then_ : Ran last later (play (play f calls).file later)) :
    Ran (first ∧ last) (calls ++ later) (play f (calls ++ later)) := by
  rw [play_append]
  refine ⟨?_, ?_, ?_⟩
  · simp only [passed, List.map_append]
    exact List.append_subset.mpr ⟨List.subset_append_of_subset_left _ ran.within,
      List.subset_append_of_subset_right _ then_.within⟩
  · rintro ⟨one, two⟩
    obtain ⟨effects, results⟩ := ran.accepted one
    obtain ⟨effects', results'⟩ := then_.accepted two
    refine ⟨by simp only [effects, effects', passed, List.map_append], ?_⟩
    intro result member
    exact (List.mem_append.mp member).elim (results result) (results' result)
  · intro refused
    rcases Classical.not_and_iff_not_or_not.mp refused with one | two
    · obtain ⟨err, member⟩ := ran.refused one
      exact ⟨err, List.mem_append_left _ member⟩
    · obtain ⟨err, member⟩ := then_.refused two
      exact ⟨err, List.mem_append_right _ member⟩

section Body
variable (sized : pageSize ≠ 0) (positive : 1 ≤ start)
  (below : ∀ key ∈ (found.base (frameOffset pageSize start)).map Prod.fst, key < frameOffset pageSize start)
include sized positive below

private theorem overwrite_step {f : GatedWALFile} {i : Nat} {data : Bytes} (rep : Represents pageSize view f)
    (tracks : Tracks pageSize start (found.base (frameOffset pageSize start)) frames extent view)
    (inside : i < frames.length) (length : data.length = pageSize.toNat) :
    ∃ next, Represents pageSize next (play f ((Op.overwrite i data).calls pageSize start frames)).file ∧
      Tracks pageSize start (found.base (frameOffset pageSize start)) ((Op.overwrite i data).live frames) extent next ∧
      Ran (extent.accepts (.overwrite i data)) ((Op.overwrite i data).calls pageSize start frames)
        (play f ((Op.overwrite i data).calls pageSize start frames)) := by
  by_cases recent : extent.lost ≤ i
  · have found := (tracks.find_live positive below inside recent).trans (List.getElem?_eq_getElem inside)
    obtain ⟨kept, effects, result⟩ := overwrite_kept sized rep tracks.running (start + i) found length
    refine ⟨_, kept, tracks.overwrite positive below recent _, ?_, ?_, fun refused => absurd recent refused⟩
    · simp [Op.calls, play, passed, effects]
    · simp [Op.calls, play, passed, effects, result]
  · have early := Nat.lt_of_not_le recent
    obtain ⟨file, effects, err, result⟩ := overwrite_missing sized rep tracks.running tracks.kept_nonempty (start + i)
      (tracks.find_lost positive below early) length
    refine ⟨view, ?_, tracks.refused early _, ?_, fun accepted => absurd accepted recent, fun _ => ⟨err, ?_⟩⟩
    · simpa only [Op.calls, play, file] using rep
    · simp [Op.calls, play, effects]
    · simp [Op.calls, play, result]

private theorem op_step {f : GatedWALFile} {op : Op} (legal : op.legal pageSize frames) (rep : Represents pageSize view f)
    (follows : Follows pageSize start found frames extent view) :
    ∃ next, Represents pageSize next (play f (op.calls pageSize start frames)).file ∧
      Follows pageSize start found (op.live frames) (extent.op op) next ∧
      Ran (extent.accepts op) (op.calls pageSize start frames) (play f (op.calls pageSize start frames)) := by
  cases op with
  | append header data =>
    obtain ⟨kept, effects, results⟩ := append_frame sized rep (start + frames.length) legal.1 legal.2 none
    refine ⟨_, kept, .inr (follows_append positive follows ⟨header, data⟩), ?_, fun _ => ⟨?_, results⟩,
      fun refused => absurd trivial refused⟩
    · simp only [Op.calls, effects]
      simp [passed, frameCalls]
    · simp only [Op.calls, effects]
      simp [passed, frameCalls]
  | overwrite i data =>
    rcases follows with ⟨rfl, _, _⟩ | tracks
    · exact absurd legal.1 (Nat.not_lt_zero _)
    · obtain ⟨next, kept, tracked, ran⟩ := overwrite_step sized positive below rep tracks legal.1 legal.2
      exact ⟨next, kept, .inr tracked, ran⟩
  | rollbackTo live =>
    refine ⟨view, rep, ?_, by simp [play, Op.calls], by simp [play, Op.calls, passed], fun refused => absurd trivial refused⟩
    rcases follows with ⟨rfl, rfl, rfl⟩ | tracks
    · have none_ : live = 0 := Nat.le_zero.mp legal
      subst none_
      exact .inl ⟨rfl, rfl, rfl⟩
    · exact .inr (tracks.rollbackTo legal)

private theorem body_run {f : GatedWALFile} {body : List Op} (legal : bodyLegal pageSize frames body)
    (rep : Represents pageSize view f) (follows : Follows pageSize start found frames extent view) :
    ∃ next, Represents pageSize next (play f (bodyCalls pageSize start frames body)).file ∧
      Follows pageSize start found (live frames body) (extent.body body) next ∧
      Ran (extent.acceptsAll body) (bodyCalls pageSize start frames body)
        (play f (bodyCalls pageSize start frames body)) := by
  induction body generalizing f frames extent view with
  | nil => exact ⟨view, rep, follows, by simp [play, bodyCalls], by simp [play, passed, bodyCalls],
      fun refused => absurd trivial refused⟩
  | cons op rest ih =>
    obtain ⟨middle, kept, followed, ran⟩ := op_step sized positive below legal.1 rep follows
    obtain ⟨next, kept', followed', ran'⟩ := ih legal.2 kept followed
    refine ⟨next, ?_, followed', ran.append ran'⟩
    simpa only [bodyCalls, play_append] using kept'

end Body

/-- What the file hands to the gate when a frame has just been appended: its own
frames since the last append that went back, behind what it found kept. -/
theorem Tracks.proposed {carry : List (Nat × Frame)} (tracks : Tracks pageSize start carry frames extent view)
    (last : extent.live = extent.high) :
    view.kept.map Prod.snd = (if extent.again then [] else carry.map Prod.snd) ++ frames.drop extent.lost := by
  obtain ⟨seg, kept, length, same⟩ := tracks.kept
  have count := tracks.live
  rw [List.take_of_length_le (by omega)] at same
  rw [kept, List.map_append, numbered_snd, same]
  split <;> rfl

theorem Extent.append_last (extent : Extent) : extent.append.live = extent.append.high := by
  unfold Extent.append
  split <;> rfl

def Extent.of (t : Transaction) : Extent := Extent.body {} t.body

theorem Follows.high (follows : Follows pageSize start found frames extent view) :
    extent.high = 0 ∧ frames = [] ∧ view = found ∨ extent.high ≠ 0 ∧ view.committed = false := by
  rcases follows with ⟨none_, rfl, same⟩ | tracks
  · exact .inl ⟨rfl, none_, same⟩
  · exact .inr ⟨Nat.ne_of_gt (Nat.zero_lt_of_lt tracks.begun), tracks.running⟩

/-- Nothing kept can pass into the next transaction. -/
def Closed (view : View) : Prop := view.committed = true ∨ view.kept = []

theorem Closed.base (closed : Closed view) (off : Nat) : view.base off = [] := by
  rcases closed with sealed | empty
  · simp [View.base, sealed]
  · simp [View.base, empty]

theorem rewrites_run {f : GatedWALFile} (start : Nat) (sized : pageSize ≠ 0) (rep : Represents pageSize view f)
    (closed : Closed view)
    (fixes : List (Nat × FrameHeader)) :
    let calls := fixes.map fun fix => (⟨fix.2.bytes, frameOffset pageSize (start + fix.1), none⟩ : Call)
    ∃ next, Represents pageSize next (play f calls).file ∧ Closed next ∧ (play f calls).effects ⊆ passed calls := by
  induction fixes generalizing f view with
  | nil => exact ⟨view, rep, closed, by simp [play]⟩
  | cons fix rest ih =>
    have one : ∃ next, Represents pageSize next (f.writeAt none fix.2.bytes (frameOffset pageSize (start + fix.1))).file ∧
        Closed next ∧ (f.writeAt none fix.2.bytes (frameOffset pageSize (start + fix.1))).effects ⊆
          [.write (frameOffset pageSize (start + fix.1)) fix.2.bytes] := by
      cases same : view.coincides (frameOffset pageSize (start + fix.1)) fix.2 with
      | false =>
        obtain ⟨kept, effects⟩ := rewrite_missing sized rep (start + fix.1) same (closed.base _)
        refine ⟨_, kept, .inr rfl, ?_⟩
        rw [effects]
        split <;> simp
      | true =>
        simp only [View.coincides, Bool.and_eq_true, Option.any_eq_true, beq_iff_eq] at same
        obtain ⟨sealed, frame, found, match_⟩ := same
        obtain ⟨kept, effects, _⟩ := rewrite_kept sized rep sealed (start + fix.1) found match_
        exact ⟨_, kept, .inl sealed, by rw [effects]; simp⟩
    obtain ⟨middle, kept, closed, effects⟩ := one
    obtain ⟨next, kept', closed', effects'⟩ := ih kept closed
    refine ⟨next, kept', closed', ?_⟩
    simp only [List.map_cons, play, passed] at effects' ⊢
    exact List.append_subset.mpr ⟨List.Subset.trans effects (by simp), List.subset_cons_of_subset _ effects'⟩

section Run
variable {f : GatedWALFile} {t : Transaction} (sized : pageSize ≠ 0) (positive : 1 ≤ start)
  (legal : t.Legal pageSize) (rep : Represents pageSize found f)
include sized positive legal rep

theorem body_start : ∃ next, Represents pageSize next (play f (bodyCalls pageSize start [] t.body)).file ∧
    Follows pageSize start found (live [] t.body) (Extent.of t) next ∧
    Ran (Extent.acceptsAll {} t.body) (bodyCalls pageSize start [] t.body)
      (play f (bodyCalls pageSize start [] t.body)) :=
  body_run sized positive (rep.base_ordered _).2 legal.body rep (.inl ⟨rfl, rfl, rfl⟩)

/-- The commit frame reaches the wrapped file ahead of the proposal only as the
first frame of its transaction, taken for a rewrite of an earlier commit's frame. -/
theorem commit_run {c : Commit} (committing : t.commit = some c) :
    ∃ next, Represents pageSize next (play (play f (bodyCalls pageSize start [] t.body)).file (t.commitCalls pageSize start)).file ∧
      Closed next ∧
      (play (play f (bodyCalls pageSize start [] t.body)).file (t.commitCalls pageSize start)).effects =
        (if (Extent.of t).high = 0 ∧ found.coincides (frameOffset pageSize start) c.header = true then
          [.write (frameOffset pageSize start) c.header.bytes] else []) ++
        .propose ((if (Extent.of t).append.again then [] else (found.base (frameOffset pageSize start)).map Prod.snd) ++
            t.frames.drop (Extent.of t).append.lost) c.answer.isNone ::
          (if c.answer.isNone then
            passed (frameCalls pageSize (start + (live [] t.body).length) c.header c.data none) else []) := by
  obtain ⟨view, kept, follows, _⟩ := body_start sized positive legal rep
  have marked := legal.marked c committing
  have length := legal.length c committing
  obtain ⟨closed, effects⟩ := commit_frame sized kept (start + (live [] t.body).length) marked length c.answer
  have calls : t.commitCalls pageSize start =
      frameCalls pageSize (start + (live [] t.body).length) c.header c.data c.answer := by
    simp [Transaction.commitCalls, committing]
  have frames : t.frames = live [] t.body ++ [⟨c.header, c.data⟩] := by simp [Transaction.frames, committing]
  have proposed := (follows_append positive follows ⟨c.header, c.data⟩).proposed (Extent.append_last _)
  rw [calls]
  refine ⟨_, closed, ?_, ?_⟩
  · unfold View.commit Closed
    split <;> simp
  · rw [effects, proposed, frames]
    congr 1
    rcases follows.high with ⟨first, none_, rfl⟩ | ⟨later, running⟩
    · simp [first, none_]
    · simp [later, View.coincides, running]

end Run

end Literaft.Proofs.Spill
