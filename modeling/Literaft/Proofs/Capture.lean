import Literaft.Sqlite

/-! The gated file keeps, between two frames, a list of frames under increasing
offsets, whether they were committed, and the last header offset. Its staging
fields only matter between a header and its data. -/

namespace Literaft.Proofs.Capture
open Library Wal Vfs Sqlite

def find : List (Nat × Frame) → Nat → Option Frame
  | [], _ => none
  | entry :: rest, off => if entry.1 = off then some entry.2 else find rest off

structure View where
  committed : Bool
  kept : List (Nat × Frame)
  top : Nat

/-- A header can be left without data only in a file that keeps no frame. -/
structure Represents (pageSize : UInt32) (view : View) (f : GatedWALFile) : Prop where
  size : f.pageSize = pageSize
  pending : view.kept ≠ [] → f.pendingFrameHeader = none
  frames : f.currentTxFrames = if view.committed then [] else view.kept.map Prod.fst
  offsets : f.currentTxFrameOffsets = find view.kept
  committed : f.currentTxCommitted = view.committed
  top : f.maxOffset = view.top
  rewrite : view.committed = false → f.pendingRewriteHeader = none
  ordered : (view.kept.map Prod.fst).Pairwise (· < ·)
  bounded : ∀ off ∈ view.kept.map Prod.fst, off ≤ view.top

namespace View

/-- The frames still kept once a header has been written at `off`. -/
def base (view : View) (off : Nat) : List (Nat × Frame) :=
  if view.committed || decide (off ≤ view.top) then [] else view.kept

def append (view : View) (off : Nat) (frame : Frame) : View :=
  ⟨false, view.base off ++ [(off, frame)], off⟩

/-- The header is read as a checksum rewrite of a frame of the committed transaction. -/
def coincides (view : View) (off : Nat) (h : FrameHeader) : Bool :=
  view.committed && (find view.kept off).any fun frame => frame.header.pgNo == h.pgNo

/-- A commit frame: everything kept is proposed, and kept on only if approved. -/
def commit (view : View) (off : Nat) (frame : Frame) (approved : Bool) : View :=
  if approved then ⟨true, view.base off ++ [(off, frame)], off⟩ else ⟨false, [], off⟩

def change (view : View) (off : Nat) (edit : Frame → Frame) : View :=
  { view with kept := view.kept.map fun entry => if entry.1 = off then (off, edit entry.2) else entry }

end View

theorem find_eq_none {kept : List (Nat × Frame)} {off : Nat} (absent : off ∉ kept.map Prod.fst) :
    find kept off = none := by
  induction kept with
  | nil => rfl
  | cons entry rest ih =>
    simp only [List.map_cons, List.mem_cons, not_or] at absent
    simp [find, Ne.symm absent.1, ih absent.2]

private theorem found_nonempty {kept : List (Nat × Frame)} {off : Nat} {frame : Frame} (found : find kept off = some frame) :
    kept ≠ [] := by
  rintro rfl
  cases found

theorem find_append (first last : List (Nat × Frame)) (off : Nat) :
    find (first ++ last) off = (find first off).or (find last off) := by
  induction first with
  | nil => simp [find]
  | cons entry rest ih =>
    by_cases here : entry.1 = off <;> simp [find, here, ih]

private theorem find_snoc {kept : List (Nat × Frame)} {off : Nat} (absent : off ∉ kept.map Prod.fst) (frame : Frame) :
    Function.update (find kept) off (some frame) = find (kept ++ [(off, frame)]) := by
  funext place
  rw [find_append]
  by_cases same : place = off
  · subst same
    simp [find_eq_none absent, find]
  · simp [same, find, Ne.symm same]

private theorem find_change (kept : List (Nat × Frame)) (off place : Nat) (edit : Frame → Frame) :
    find (kept.map fun entry => if entry.1 = off then (off, edit entry.2) else entry) place =
      if place = off then (find kept off).map edit else find kept place := by
  induction kept with
  | nil => simp [find]
  | cons entry rest ih =>
    by_cases here : entry.1 = off
    · by_cases same : place = off
      · simp [find, here, same]
      · simp only [List.map_cons, here, if_true, find, Ne.symm same, if_false, ih, same]
    · by_cases same : place = off
      · subst same
        simpa [find, here] using ih
      · simp only [List.map_cons, here, if_false, find, same] at ih ⊢
        rw [ih]

private theorem update_change {kept : List (Nat × Frame)} {off : Nat} {frame : Frame} (edit : Frame → Frame)
    (found : find kept off = some frame) : Function.update (find kept) off (some (edit frame)) =
      find (kept.map fun entry => if entry.1 = off then (off, edit entry.2) else entry) := by
  funext place
  rw [find_change]
  by_cases same : place = off
  · simp [same, found]
  · simp [same]

private theorem change_keys (view : View) (off : Nat) (edit : Frame → Frame) :
    (view.change off edit).kept.map Prod.fst = view.kept.map Prod.fst := by
  simp only [View.change, List.map_map]
  apply List.map_congr_left
  intro entry _
  simp only [Function.comp]
  split
  next same => exact same.symm
  next => rfl

theorem filterMap_find {kept : List (Nat × Frame)} (ordered : (kept.map Prod.fst).Pairwise (· < ·)) :
    (kept.map Prod.fst).filterMap (find kept) = kept.map Prod.snd := by
  induction kept with
  | nil => rfl
  | cons entry rest ih =>
    simp only [List.map_cons, List.pairwise_cons] at ordered
    have tail : (rest.map Prod.fst).filterMap (find (entry :: rest)) = (rest.map Prod.fst).filterMap (find rest) := by
      apply List.filterMap_congr
      intro off member
      have later := ordered.1 off member
      simp [find, Nat.ne_of_lt later]
    have head : find (entry :: rest) entry.1 = some entry.2 := by simp [find]
    rw [List.map_cons, List.filterMap_cons, head, tail, ih ordered.2, List.map_cons]

/-- A header has been taken as the next frame of `base` and its data is awaited. -/
structure Staged (pageSize : UInt32) (base : List (Nat × Frame)) (h : FrameHeader) (off : Nat)
    (f : GatedWALFile) : Prop where
  size : f.pageSize = pageSize
  pending : f.pendingFrameHeader = some h
  frames : f.currentTxFrames = base.map Prod.fst
  offsets : f.currentTxFrameOffsets = find base
  committed : f.currentTxCommitted = false
  top : f.maxOffset = off
  rewrite : f.pendingRewriteHeader = none

variable {pageSize : UInt32} {view : View} {f : GatedWALFile}

private theorem Represents.base_absent (rep : Represents pageSize view f) (off : Nat) :
    off ∉ (view.base off).map Prod.fst := by
  unfold View.base
  split
  · simp
  next later =>
    intro member
    have := rep.bounded off member
    simp only [Bool.or_eq_true, decide_eq_true_eq, not_or] at later
    omega

theorem Represents.base_ordered (rep : Represents pageSize view f) (off : Nat) :
    ((view.base off).map Prod.fst).Pairwise (· < ·) ∧ ∀ place ∈ (view.base off).map Prod.fst, place < off := by
  unfold View.base
  split
  · simp
  next later =>
    simp only [Bool.or_eq_true, decide_eq_true_eq, not_or] at later
    refine ⟨rep.ordered, fun place member => ?_⟩
    have := rep.bounded place member
    omega

private theorem staged_header (rep : Represents pageSize view f) (h : FrameHeader) (p : Bytes) (off : Nat) :
    Staged pageSize (view.base off) h off (f.stageFrameHeader h p off).file ∧
      (f.stageFrameHeader h p off).effects = if !h.isCommit then [.write off p] else [] := by
  unfold GatedWALFile.stageFrameHeader View.base
  by_cases fresh : view.committed || decide (off ≤ view.top)
  · cases h.isCommit <;>
      simp only [rep.committed, rep.top, fresh, if_true, GatedWALFile.resetCurrentTx, Bool.not_true, Bool.not_false,
        Bool.false_eq_true, if_false, and_true] <;>
      exact ⟨rep.size, rfl, rfl, rfl, rfl, rfl, rfl⟩
  · have uncommitted : view.committed = false := by
      simp only [Bool.or_eq_true, not_or, Bool.not_eq_true] at fresh
      exact fresh.1
    have frames := rep.frames
    simp only [uncommitted, Bool.false_eq_true, if_false] at frames
    cases h.isCommit <;>
      simp only [rep.committed, rep.top, fresh, if_false, Bool.not_true, Bool.not_false,
        Bool.false_eq_true, if_true, and_true] <;>
      exact ⟨rep.size, rfl, frames, rep.offsets, uncommitted, rfl, rfl⟩

private theorem resolveRewrite_none {f : GatedWALFile} (none_ : f.pendingRewriteHeader = none) (off : Nat) :
    f.resolveRewrite off = f := by
  simp [GatedWALFile.resolveRewrite, none_]

private theorem writeFrameHeader_staged (rep : Represents pageSize view f) {h : FrameHeader} {off : Nat}
    (apart : view.coincides off h = false) :
    f.writeFrameHeader h.bytes off = f.stageFrameHeader h h.bytes off := by
  simp only [GatedWALFile.writeFrameHeader, FrameHeader.bytes_length, ne_eq, not_true_eq_false, if_false,
    FrameHeader.ofBytes_bytes, rep.committed, rep.offsets]
  cases state : view.committed with
  | false => rfl
  | true =>
    cases found : find view.kept off with
    | none => simp
    | some frame =>
      have differ : frame.header.pgNo ≠ h.pgNo := by simpa [View.coincides, state, found] using apart
      simp [differ]

/-- Whether or not a header is first taken for a checksum rewrite, once the data
write is about to be handled it stands as the next frame after `view.base off`. -/
private theorem header_staged (rep : Represents pageSize view f) (h : FrameHeader) (off : Nat) :
    Staged pageSize (view.base off) h off ((f.writeFrameHeader h.bytes off).file.resolveRewrite off) ∧
      (f.writeFrameHeader h.bytes off).file.pageSize = pageSize ∧
      (f.writeFrameHeader h.bytes off).effects =
        if view.coincides off h || !h.isCommit then [.write off h.bytes] else [] := by
  have length : h.bytes.length = frameHeaderSize := FrameHeader.bytes_length h
  obtain ⟨staged, effects⟩ := staged_header rep h h.bytes off
  cases state : view.coincides off h with
  | false =>
    rw [writeFrameHeader_staged rep state, resolveRewrite_none staged.rewrite, Bool.false_or]
    exact ⟨staged, staged.size, effects⟩
  | true =>
    simp only [View.coincides, Bool.and_eq_true, Option.any_eq_true, beq_iff_eq] at state
    obtain ⟨sealed, frame, found, match_⟩ := state
    have base : view.base off = [] := by simp [View.base, sealed]
    simp only [GatedWALFile.writeFrameHeader, length, ne_eq, not_true_eq_false, if_false,
      FrameHeader.ofBytes_bytes, rep.committed, rep.offsets, sealed, if_true, found, match_, Bool.true_or, base, and_true,
      GatedWALFile.resolveRewrite, GatedWALFile.resetCurrentTx]
    exact ⟨⟨rep.size, rfl, rfl, rfl, rfl, rfl, rfl⟩, rep.size⟩

private theorem represents_snoc {base : List (Nat × Frame)} {off : Nat} {frame : Frame} {committed : Bool}
    (size : f.pageSize = pageSize) (pending : f.pendingFrameHeader = none)
    (frames : f.currentTxFrames = if committed then [] else (base ++ [(off, frame)]).map Prod.fst)
    (offsets : f.currentTxFrameOffsets = find (base ++ [(off, frame)]))
    (state : f.currentTxCommitted = committed) (top : f.maxOffset = off) (rewrite : f.pendingRewriteHeader = none)
    (ordered : (base.map Prod.fst).Pairwise (· < ·)) (below : ∀ place ∈ base.map Prod.fst, place < off) :
    Represents pageSize ⟨committed, base ++ [(off, frame)], off⟩ f := by
  refine ⟨size, fun _ => pending, frames, offsets, state, top, fun _ => rewrite, ?_, ?_⟩
  · simp only [List.map_append, List.map_cons, List.map_nil, List.pairwise_append]
    refine ⟨ordered, by simp, ?_⟩
    intro place member last single
    rw [List.mem_singleton.mp single]
    exact below place member
  · intro place member
    simp only [List.map_append, List.map_cons, List.map_nil, List.mem_append, List.mem_singleton] at member
    rcases member with member | same
    · exact Nat.le_of_lt (below place member)
    · exact Nat.le_of_eq same

private theorem data_plain {base : List (Nat × Frame)} {h : FrameHeader} {off : Nat}
    (staged : Staged pageSize base h off (f.resolveRewrite off)) (size : f.pageSize = pageSize)
    (absent : off ∉ base.map Prod.fst) (ordered : (base.map Prod.fst).Pairwise (· < ·))
    (below : ∀ place ∈ base.map Prod.fst, place < off)
    {data : Bytes} (length : data.length = pageSize.toNat) (plain : h.isCommit = false) (answer : Option GateError) :
    Represents pageSize ⟨false, base ++ [(off, ⟨h, data⟩)], off⟩
        (f.writeFrameData answer data (off + frameHeaderSize)).file ∧
      (f.writeFrameData answer data (off + frameHeaderSize)).effects = [.write (off + frameHeaderSize) data] ∧
      (f.writeFrameData answer data (off + frameHeaderSize)).result = .ok data.length := by
  have fresh : find base off = none := find_eq_none absent
  simp only [GatedWALFile.writeFrameData, length, size, ne_eq, not_true_eq_false, if_false, Nat.add_sub_cancel,
    staged.offsets, fresh, staged.pending, plain, Bool.not_false, if_true, and_self, and_true]
  exact represents_snoc staged.size rfl (by simp [staged.frames]) (find_snoc absent _)
    staged.committed staged.top staged.rewrite ordered below

private theorem data_commit {base : List (Nat × Frame)} {h : FrameHeader} {off : Nat}
    (staged : Staged pageSize base h off (f.resolveRewrite off)) (size : f.pageSize = pageSize)
    (absent : off ∉ base.map Prod.fst) (ordered : (base.map Prod.fst).Pairwise (· < ·))
    (below : ∀ place ∈ base.map Prod.fst, place < off)
    {data : Bytes} (length : data.length = pageSize.toNat) (marked : h.isCommit = true) (answer : Option GateError) :
    Represents pageSize
        (if answer.isNone then ⟨true, base ++ [(off, ⟨h, data⟩)], off⟩ else ⟨false, [], off⟩)
        (f.writeFrameData answer data (off + frameHeaderSize)).file ∧
      (f.writeFrameData answer data (off + frameHeaderSize)).effects =
        .propose ((base ++ [(off, (⟨h, data⟩ : Frame))]).map Prod.snd) answer.isNone ::
          (if answer.isNone then [.write off h.bytes, .write (off + frameHeaderSize) data] else []) ∧
      (f.writeFrameData answer data (off + frameHeaderSize)).result = (match answer with
        | none => .ok data.length
        | some err => .error (.system err.message (GatedWALFile.rejectionCode err))) := by
  have fresh : find base off = none := find_eq_none absent
  have proposed : (base.map Prod.fst ++ [off]).filterMap (Function.update (find base) off (some ⟨h, data⟩)) =
      (base ++ [(off, (⟨h, data⟩ : Frame))]).map Prod.snd := by
    rw [find_snoc absent]
    have whole : base.map Prod.fst ++ [off] = (base ++ [(off, (⟨h, data⟩ : Frame))]).map Prod.fst := by simp
    rw [whole]
    apply filterMap_find
    simp only [List.map_append, List.map_cons, List.map_nil, List.pairwise_append]
    refine ⟨ordered, by simp, ?_⟩
    intro place member last single
    rw [List.mem_singleton.mp single]
    exact below place member
  cases answer with
  | none =>
    simp only [GatedWALFile.writeFrameData, length, size, ne_eq, not_true_eq_false, if_false, Nat.add_sub_cancel,
      staged.offsets, fresh, staged.pending, marked, Bool.not_true, Bool.false_eq_true, staged.frames, proposed,
      Option.isNone_none, if_true, and_self, and_true]
    exact represents_snoc staged.size rfl rfl (find_snoc absent _) rfl staged.top staged.rewrite ordered below
  | some err =>
    simp only [GatedWALFile.writeFrameData, length, size, ne_eq, not_true_eq_false, if_false, Nat.add_sub_cancel,
      staged.offsets, fresh, staged.pending, marked, Bool.not_true, Bool.false_eq_true, staged.frames, proposed,
      Option.isNone_some, and_self, and_true, GatedWALFile.resetCurrentTx]
    exact ⟨staged.size, fun _ => rfl, rfl, rfl, rfl, staged.top, fun _ => rfl, by simp, by simp⟩

private theorem stageFrameHeader_result (f : GatedWALFile) (h : FrameHeader) (p : Bytes) (off : Nat) :
    (f.stageFrameHeader h p off).result = .ok p.length := by
  unfold GatedWALFile.stageFrameHeader
  cases h.isCommit <;> rfl

theorem writeFrameHeader_result (f : GatedWALFile) {p : Bytes} (length : p.length = frameHeaderSize) (off : Nat) :
    (f.writeFrameHeader p off).result = .ok p.length := by
  unfold GatedWALFile.writeFrameHeader
  rw [if_neg (not_not_intro length)]
  simp only
  split
  · split
    · rfl
    · exact stageFrameHeader_result f _ p off
  · exact stageFrameHeader_result f _ p off

section Calls
variable (sized : pageSize ≠ 0)
include sized

private theorem writeAt_header (size : f.pageSize = pageSize) (answer : Option GateError) (p : Bytes) (n : Nat) :
    f.writeAt answer p (frameOffset pageSize n) = f.writeFrameHeader p (frameOffset pageSize n) := by
  have nonzero := Nat.ne_of_gt (frameOffset_pos pageSize n)
  simp [GatedWALFile.writeAt, nonzero, size, sized]

private theorem writeAt_data (size : f.pageSize = pageSize) (answer : Option GateError) (p : Bytes) (n : Nat) :
    f.writeAt answer p (frameOffset pageSize n + frameHeaderSize) =
      f.writeFrameData answer p (frameOffset pageSize n + frameHeaderSize) := by
  have nonzero : frameOffset pageSize n + frameHeaderSize ≠ 0 :=
    Nat.ne_of_gt (Nat.add_pos_left (frameOffset_pos pageSize n) _)
  simp only [GatedWALFile.writeAt, nonzero, size, sized, isFrameHeaderOffset_data n (page_positive sized),
    isFrameDataOffset_frameOffset, if_false, if_true, Bool.false_eq_true]

theorem append_frame (rep : Represents pageSize view f) (n : Nat) {h : FrameHeader} {data : Bytes}
    (plain : h.nTruncate = 0) (length : data.length = pageSize.toNat) (answer : Option GateError) :
    Represents pageSize (view.append (frameOffset pageSize n) ⟨h, data⟩)
        (play f (frameCalls pageSize n h data answer)).file ∧
      (play f (frameCalls pageSize n h data answer)).effects =
        [.write (frameOffset pageSize n) h.bytes, .write (frameOffset pageSize n + frameHeaderSize) data] ∧
      ∀ result ∈ (play f (frameCalls pageSize n h data answer)).results, ∃ count, result = .ok count := by
  have unmarked : h.isCommit = false := by simp [FrameHeader.isCommit, plain]
  obtain ⟨staged, size, effects⟩ := header_staged rep h (frameOffset pageSize n)
  obtain ⟨ordered, below⟩ := rep.base_ordered (frameOffset pageSize n)
  obtain ⟨kept, written, result⟩ := data_plain staged size (rep.base_absent _) ordered below length unmarked answer
  simp only [frameCalls, play, writeAt_header sized rep.size, writeAt_data sized size, effects, written,
    unmarked, Bool.not_false, Bool.or_true, if_true, List.append_nil, List.cons_append, List.nil_append, result]
  refine ⟨kept, trivial, ?_⟩
  intro outcome member
  simp only [List.mem_cons, List.not_mem_nil, or_false] at member
  rcases member with rfl | rfl
  · exact ⟨_, writeFrameHeader_result f (FrameHeader.bytes_length h) _⟩
  · exact ⟨_, rfl⟩

/-- A commit frame is proposed with everything kept; the wrapped file sees it only
after approval, unless its header was first taken for a checksum rewrite. -/
theorem commit_frame (rep : Represents pageSize view f) (n : Nat) {h : FrameHeader} {data : Bytes}
    (marked : h.nTruncate ≠ 0) (length : data.length = pageSize.toNat) (answer : Option GateError) :
    Represents pageSize (view.commit (frameOffset pageSize n) ⟨h, data⟩ answer.isNone)
        (play f (frameCalls pageSize n h data answer)).file ∧
      (play f (frameCalls pageSize n h data answer)).effects =
        (if view.coincides (frameOffset pageSize n) h then [.write (frameOffset pageSize n) h.bytes] else []) ++
        .propose ((view.append (frameOffset pageSize n) ⟨h, data⟩).kept.map Prod.snd) answer.isNone ::
          (if answer.isNone then
            [.write (frameOffset pageSize n) h.bytes, .write (frameOffset pageSize n + frameHeaderSize) data]
            else []) := by
  have flagged : h.isCommit = true := by simpa [FrameHeader.isCommit] using marked
  obtain ⟨staged, size, effects⟩ := header_staged rep h (frameOffset pageSize n)
  obtain ⟨ordered, below⟩ := rep.base_ordered (frameOffset pageSize n)
  obtain ⟨kept, written, _⟩ := data_commit staged size (rep.base_absent _) ordered below length flagged answer
  simp only [frameCalls, play, writeAt_header sized rep.size, writeAt_data sized size, effects, written,
    flagged, Bool.not_true, Bool.or_false, List.append_nil]
  exact ⟨kept, rfl⟩

theorem commit_results (rep : Represents pageSize view f) (n : Nat) {h : FrameHeader} {data : Bytes}
    (marked : h.nTruncate ≠ 0) (length : data.length = pageSize.toNat) :
    ∀ result ∈ (play f (frameCalls pageSize n h data none)).results, ∃ count, result = .ok count := by
  have flagged : h.isCommit = true := by simpa [FrameHeader.isCommit] using marked
  obtain ⟨staged, size, -⟩ := header_staged rep h (frameOffset pageSize n)
  obtain ⟨ordered, below⟩ := rep.base_ordered (frameOffset pageSize n)
  obtain ⟨-, -, result⟩ := data_commit staged size (rep.base_absent _) ordered below length flagged none
  simp only [frameCalls, play, writeAt_header sized rep.size, writeAt_data sized size, result]
  intro outcome member
  simp only [List.mem_cons, List.not_mem_nil, or_false] at member
  rcases member with rfl | rfl
  · exact ⟨_, writeFrameHeader_result f (FrameHeader.bytes_length h) _⟩
  · exact ⟨_, rfl⟩

theorem overwrite_kept (rep : Represents pageSize view f) (running : view.committed = false) (n : Nat)
    {frame : Frame} (found : find view.kept (frameOffset pageSize n) = some frame)
    {data : Bytes} (length : data.length = pageSize.toNat) :
    Represents pageSize (view.change (frameOffset pageSize n) fun old => { old with data })
        (f.writeAt none data (frameOffset pageSize n + frameHeaderSize)).file ∧
      (f.writeAt none data (frameOffset pageSize n + frameHeaderSize)).effects =
        [.write (frameOffset pageSize n + frameHeaderSize) data] ∧
      (f.writeAt none data (frameOffset pageSize n + frameHeaderSize)).result = .ok data.length := by
  have keys := change_keys view (frameOffset pageSize n) fun old => { old with data }
  rw [writeAt_data sized rep.size]
  simp only [GatedWALFile.writeFrameData, rep.size, length, ne_eq, not_true_eq_false, if_false, Nat.add_sub_cancel,
    resolveRewrite_none (rep.rewrite running), rep.offsets, found, and_self, and_true]
  exact ⟨rfl, fun _ => rep.pending (found_nonempty found), by rw [keys]; exact rep.frames,
    update_change (fun old => { old with data }) found,
    rep.committed, rep.top, rep.rewrite, by rw [keys]; exact rep.ordered, by rw [keys]; exact rep.bounded⟩

theorem overwrite_missing (rep : Represents pageSize view f) (running : view.committed = false)
    (some_ : view.kept ≠ []) (n : Nat) (absent : find view.kept (frameOffset pageSize n) = none)
    {data : Bytes} (length : data.length = pageSize.toNat) :
    (f.writeAt none data (frameOffset pageSize n + frameHeaderSize)).file = f ∧
      (f.writeAt none data (frameOffset pageSize n + frameHeaderSize)).effects = [] ∧
      ∃ err, (f.writeAt none data (frameOffset pageSize n + frameHeaderSize)).result = .error err := by
  rw [writeAt_data sized rep.size]
  simp [GatedWALFile.writeFrameData, rep.size, length, resolveRewrite_none (rep.rewrite running), rep.offsets, absent,
    rep.pending some_]

/-- A header rewrite of a committed frame goes straight to the wrapped file. -/
theorem rewrite_kept (rep : Represents pageSize view f) (sealed : view.committed = true) (n : Nat)
    {frame : Frame} (found : find view.kept (frameOffset pageSize n) = some frame)
    {h : FrameHeader} (same : frame.header.pgNo = h.pgNo) :
    Represents pageSize (view.change (frameOffset pageSize n) fun old => { old with header := h })
        (f.writeAt none h.bytes (frameOffset pageSize n)).file ∧
      (f.writeAt none h.bytes (frameOffset pageSize n)).effects = [.write (frameOffset pageSize n) h.bytes] ∧
      (f.writeAt none h.bytes (frameOffset pageSize n)).result = .ok frameHeaderSize := by
  have keys := change_keys view (frameOffset pageSize n) fun old => { old with header := h }
  rw [writeAt_header sized rep.size]
  simp only [GatedWALFile.writeFrameHeader, FrameHeader.bytes_length, ne_eq, not_true_eq_false, if_false,
    FrameHeader.ofBytes_bytes, rep.committed, sealed, if_true, rep.offsets, found, same, and_self, and_true]
  exact ⟨rep.size, fun _ => rep.pending (found_nonempty found), by rw [keys]; exact rep.frames,
    update_change (fun old => { old with header := h }) found, sealed.symm, rep.top,
    fun impossible => by simp [View.change, sealed] at impossible,
    by rw [keys]; exact rep.ordered, by rw [keys]; exact rep.bounded⟩

/-- A header that is no rewrite of a kept frame is staged, and the transaction it
belonged to is forgotten. -/
theorem rewrite_missing (rep : Represents pageSize view f) (n : Nat) {h : FrameHeader}
    (apart : view.coincides (frameOffset pageSize n) h = false) (none_ : view.base (frameOffset pageSize n) = []) :
    Represents pageSize ⟨false, [], frameOffset pageSize n⟩ (f.writeAt none h.bytes (frameOffset pageSize n)).file ∧
      (f.writeAt none h.bytes (frameOffset pageSize n)).effects =
        if h.isCommit then [] else [.write (frameOffset pageSize n) h.bytes] := by
  obtain ⟨staged, effects⟩ := staged_header rep h h.bytes (frameOffset pageSize n)
  rw [writeAt_header sized rep.size, writeFrameHeader_staged rep apart]
  rw [none_] at staged
  refine ⟨⟨staged.size, by simp, staged.frames, staged.offsets, staged.committed, staged.top, fun _ => staged.rewrite,
    by simp, by simp⟩, ?_⟩
  rw [effects]
  cases h.isCommit <;> rfl

end Calls

end Literaft.Proofs.Capture
