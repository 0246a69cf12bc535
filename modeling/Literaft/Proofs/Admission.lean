import Literaft.Apply
import Literaft.Gate
import Literaft.Proofs.Slots

/-! What a leader's handler admits to the raft log, against what `Apply` can append. The
handler looks at page numbers and at empty pages; the appender takes whole pages only. -/

namespace Literaft.Proofs.Admission
open Library Wal Proto Gate Fsm WalAppender Apply Literaft.Lookup Appender Calls Slots Proofs.Store

/-- The transaction stands behind the frames kept from before, and is published. -/
def Publishes (a b : WALAppender) (txn : LogEntryTransaction) : Prop :=
  ∃ hdr latest kept, a.shm.readHeader = some hdr ∧ b.shm.readHeader = some latest ∧
    (kept = (a.log hdr).frames ∨ kept = []) ∧
    (b.log latest).frames = kept ++ txn.pages.map (fun page => (page.pgNo.toNat, page.data)) ∧
    (b.log latest).size = txn.nTruncate.toNat

theorem Publishes.checkpoints {a b : WALAppender} {txn : LogEntryTransaction} (published : Publishes a b txn)
    (checkpoints : List UInt32) : Publishes a (checkpoints.foldl WALAppender.checkpoint b) txn := by
  obtain ⟨hdr, latest, kept, before, after, base, frames, size⟩ := published
  have settled := checkpoints_settle after checkpoints
  exact ⟨hdr, latest, kept, before, settled.header after, base, settled.frames.trans frames, settled.size.trans size⟩

private theorem frames_length (txn : LogEntryTransaction) :
    txn.frames.length = txn.pages.length := by simp [LogEntryTransaction.frames]

private theorem frames_lengths (txn : LogEntryTransaction) (length : Nat) :
    (∀ f ∈ txn.frames, f.data.length = length) ↔ ∀ page ∈ txn.pages, page.data.length = length := by
  have images : (∀ image ∈ txn.frames.map Frame.image, image.2.length = length) ↔
      ∀ image ∈ txn.pages.map (fun page => (page.pgNo.toNat, page.data)), image.2.length = length := by
    rw [txn.frames_images]
  simpa only [List.forall_mem_map, Frame.image] using images

section Transaction
variable {a : WALAppender} {hdr : Shm.Header} {txn : LogEntryTransaction}

private theorem append_publishes {chance : Chance} (header : a.shm.readHeader = some hdr) (sized : txn.nTruncate ≠ 0)
    (somePage : txn.pages ≠ []) (room : hdr.maxFrame.toNat + txn.pages.length < 2 ^ 32)
    (whole : ∀ page ∈ txn.pages, page.data.length = a.pageSize.toNat) (slots : HasSlots a chance txn.pages.length) :
    ∃ b, a.appendFramesLocked chance txn.frames = some (b, none) ∧ Publishes a b txn := by
  obtain ⟨body, last, frames, marked⟩ := txn.frames_split somePage
  have lengths := (frames_lengths txn a.pageSize.toNat).mpr whole
  rw [← frames_length] at room slots
  rw [frames] at room lengths slots
  obtain ⟨b, latest, base, ran, published, -, -, found, log⟩ :=
    append_published header lengths (by rw [marked]; exact sized) room slots
  rw [← frames] at ran log
  refine ⟨b, ran, hdr, latest, base.frames, header, published, ?_, ?_, ?_⟩
  · rcases found with rfl | ⟨-, -, rfl⟩
    · exact .inl rfl
    · exact .inr rfl
  · rw [log]
    exact congrArg (base.frames ++ ·) txn.frames_images
  · rw [log, marked]
    rfl

private theorem append_whole {b : WALAppender} {chance : Chance} (header : a.shm.readHeader = some hdr)
    (room : hdr.maxFrame.toNat + txn.pages.length < 2 ^ 32)
    (ran : a.appendFramesLocked chance txn.frames = some (b, none)) :
    (∀ page ∈ txn.pages, page.data.length = a.pageSize.toNat) ∧ HasSlots a chance txn.pages.length := by
  have count : hdr.maxFrame.toNat + (accepted a.pageSize txn.frames).length < 2 ^ 32 := by
    have fewer := accepted_le a.pageSize txn.frames
    rw [frames_length] at fewer
    omega
  obtain ⟨-, outcome, -⟩ := call_log header count ran
  have all := outcome.mp rfl
  have slots := (appendFramesLocked_isSome_iff header count).mp (by rw [ran]; rfl)
  rw [all, frames_length] at slots
  exact ⟨(frames_lengths txn _).mp (accepted_eq_self.mp all), slots⟩

end Transaction

private theorem validateRequest_none {req : LeaderRequest} (valid : validateRequest req = none) :
    ∃ txn, req.transaction = some txn ∧ txn.nTruncate ≠ 0 ∧ txn.pages ≠ [] := by
  unfold validateRequest at valid
  split at valid
  · cases valid
  next txn carried =>
    split at valid
    · cases valid
    next sized =>
      split at valid
      · cases valid
      next somePage => exact ⟨txn, carried, sized, somePage⟩

variable {Id : Type}

private theorem appended_none {n m : Node Id} {text : String} {index : Nat} {done : WALAppender × Option String} :
    n.appended text index done = (m, none) ↔ done.2 = none ∧ m = ⟨n.fsm.store index, done.1⟩ := by
  unfold Node.appended
  split
  next err failed => simp [failed]
  next fine => simp [fine, eq_comm]

variable [DecidableEq Id]

private theorem apply_unmarked {n : Node Id} {id : Id} (unmarked : n.fsm.skipMarkers id ≠ some .pending) (index : Nat)
    (txn : LogEntryTransaction) (around : Around) :
    n.apply ⟨true, index, .ok ⟨id, some txn⟩⟩ around =
      if n.fsm.loans id then
        (n.walAppender.appendFramesUnderLock around.released around.chance txn.frames).map
          (n.appended "failed to append forwarded entry" index)
      else
        (n.walAppender.appendFrames around.chance around.checkpoints txn.frames).map
          (n.appended "failed to append entry" index) := by
  simp [Node.apply, FSM.tryConsumeSkipMarker, unmarked]

theorem apply_done {n m : Node Id} {id : Id} {index : Nat} {txn : LogEntryTransaction} {around : Around}
    (unmarked : n.fsm.skipMarkers id ≠ some .pending) :
    n.apply ⟨true, index, .ok ⟨id, some txn⟩⟩ around = some (m, none) ↔
      ∃ b, n.walAppender.appendFramesLocked around.chance txn.frames = some (b, none) ∧
        (n.fsm.loans id = true → around.released = false) ∧
        m = ⟨n.fsm.store index, if n.fsm.loans id then b else around.checkpoints.foldl WALAppender.checkpoint b⟩ := by
  rw [apply_unmarked unmarked]
  cases n.fsm.loans id with
  | true =>
    cases lost : around.released with
    | true => simp [WALAppender.appendFramesUnderLock, Node.appended]
    | false => simp [WALAppender.appendFramesUnderLock, appended_none]
  | false => simp [WALAppender.appendFrames, WALAppender.appendFramesUnderLock, appended_none]

private theorem apply_panics {n : Node Id} {id : Id} {txn : LogEntryTransaction} {around : Around} {b : WALAppender}
    {err : String}
    (unmarked : n.fsm.skipMarkers id ≠ some .pending) (held : around.released = false)
    (failed : n.walAppender.appendFramesLocked around.chance txn.frames = some (b, some err)) (index : Nat) :
    ∃ m text, n.apply ⟨true, index, .ok ⟨id, some txn⟩⟩ around = some (m, some text) := by
  rw [apply_unmarked unmarked]
  cases n.fsm.loans id with
  | true => exact ⟨⟨n.fsm, b⟩, _, by simp [WALAppender.appendFramesUnderLock, held, failed, Node.appended]; rfl⟩
  | false =>
    exact ⟨⟨n.fsm, around.checkpoints.foldl WALAppender.checkpoint b⟩, _, by
      simp [WALAppender.appendFrames, WALAppender.appendFramesUnderLock, failed, Node.appended]; rfl⟩

/-- An admitted entry is appended and published without a panic exactly if its pages are
whole, each of them finds a slot in the wal-index, and the loan it is applied under, if any, is
still held. -/
theorem admitted_applies_iff {view : HandlerView} {req : LeaderRequest} (proposed : view.reaches req = true) {n : Node Id}
    {hdr : Shm.Header} (header : n.walAppender.shm.readHeader = some hdr) {id : Id}
    (unmarked : n.fsm.skipMarkers id ≠ some .pending)
    (room : ∀ txn, req.transaction = some txn → hdr.maxFrame.toNat + txn.pages.length < 2 ^ 32) (index : Nat) (around : Around) :
    (∃ m txn, n.apply ⟨true, index, .ok ⟨id, req.transaction⟩⟩ around = some (m, none) ∧ m.fsm.lastApplied = index ∧
      req.transaction = some txn ∧ Publishes n.walAppender m.walAppender txn) ↔
    (∀ txn, req.transaction = some txn → (∀ page ∈ txn.pages, page.data.length = n.walAppender.pageSize.toNat) ∧
      HasSlots n.walAppender around.chance txn.pages.length) ∧ (n.fsm.loans id = true → around.released = false) := by
  have valid : validateRequest req = none := by
    simp only [HandlerView.reaches, Bool.and_eq_true, Option.isNone_iff_eq_none] at proposed
    exact proposed.1.1.1
  obtain ⟨txn, carried, sized, somePage⟩ := validateRequest_none valid
  have fits := room txn carried
  rw [carried]
  constructor
  · rintro ⟨m, -, applied, -⟩
    obtain ⟨b, ran, held, -⟩ := (apply_done unmarked).mp applied
    refine ⟨?_, held⟩
    intro other same
    cases same
    exact append_whole header fits ran
  · rintro ⟨able, held⟩
    obtain ⟨whole, slots⟩ := able txn rfl
    obtain ⟨b, ran, published⟩ := append_publishes header sized somePage fits whole slots
    refine ⟨_, txn, (apply_done unmarked).mpr ⟨b, ran, held, rfl⟩, rfl, rfl, ?_⟩
    cases n.fsm.loans id with
    | true => exact published
    | false => exact published.checkpoints around.checkpoints

/-- A leader that is up to date with the request and gets its entry committed. -/
def admitting : HandlerView where
  leader := true
  hint := ""
  lock := none
  lastApplied := 0
  propose := { leader := true, hint := "", ready := true, marshal := none, future := .ok }
  after := 1

def overwriting (first second : Bytes) : LeaderRequest := ⟨0, some ⟨[⟨1, first⟩, ⟨2, second⟩], 2⟩⟩

/-- A node without markers whose handlers have lent, or not lent, a lock for every entry. -/
def member (lent : Bool) (a : WALAppender) : Node Nat := ⟨{ loans := fun _ => lent }, a⟩

/-- Two whole pages are applied behind an append that was given up. -/
theorem wholePages_apply : ∃ start a, (WALAppender.fresh 512 twoPages).maybeBootstrap 0 1 2 = some (.ok start) ∧
    exec Store.step start [.append ⟨true, 0, 0⟩ [image 1 1 2], givenUp] = some a ∧
    ∀ lent, ∃ m txn, (member lent a).apply ⟨true, 1, .ok ⟨0, (overwriting (List.replicate 512 7) (List.replicate 512 8)).transaction⟩⟩
      ⟨false, ⟨false, 3, 4⟩, [1]⟩ = some (m, none) ∧ m.fsm.lastApplied = 1 ∧
      (overwriting (List.replicate 512 7) (List.replicate 512 8)).transaction = some txn ∧
      Publishes (member lent a).walAppender m.walAppender txn := by
  obtain ⟨start, a, hdr, booted, executed, ready, -, size, one, -⟩ := abandoned
  have proposed : admitting.reaches (overwriting (List.replicate 512 7) (List.replicate 512 8)) = true := rfl
  refine ⟨start, a, booted, executed, fun lent => ?_⟩
  have unmarked : (member lent a).fsm.skipMarkers 0 ≠ some .pending := by simp [member]
  have header : (member lent a).walAppender.shm.readHeader = some hdr := ready.header
  refine (admitted_applies_iff proposed header unmarked ?_ 1 ⟨false, ⟨false, 3, 4⟩, [1]⟩).mpr ⟨?_, fun _ => rfl⟩
  · intro txn carried
    cases carried
    rw [one]
    decide
  · intro txn carried
    cases carried
    refine ⟨fun page found => ?_, ready.hasSlots _ _⟩
    rw [show (member lent a).walAppender.pageSize = 512 from size]
    simp only [List.mem_cons, List.not_mem_nil, or_false] at found
    have whole (byte : UInt8) : (List.replicate 512 byte).length = (512 : UInt32).toNat := by
      rw [List.length_replicate]
      rfl
    rcases found with rfl | rfl
    · exact whole 7
    · exact whole 8

/-- A request whose second page is one byte long is admitted, and every node panics on its entry,
whatever slots it has. -/
theorem shortPage_panics : admitting.reaches (overwriting (List.replicate 512 7) [1]) = true ∧
    ∃ a, (WALAppender.fresh 512 twoPages).maybeBootstrap 0 1 2 = some (.ok a) ∧ (∀ count, HasSlots a ⟨true, 0, 0⟩ count) ∧
      ∀ lent, ∃ m text, (member lent a).apply ⟨true, 1, .ok ⟨0, (overwriting (List.replicate 512 7) [1]).transaction⟩⟩
        ⟨false, ⟨true, 0, 0⟩, []⟩ = some (m, some text) := by
  refine ⟨rfl, ?_⟩
  obtain ⟨a, booted⟩ := bootstrap_fresh 512 1 2 twoPages (Nat.zero_le _)
  obtain ⟨hdr, ready, size, log⟩ := bootstrap_ready booted
  refine ⟨a, booted, ready.hasSlots _, fun lent => ?_⟩
  have zero : hdr.maxFrame.toNat = 0 := by rw [← log_length a hdr, log, List.length_nil]
  have fits : hdr.maxFrame.toNat +
      (accepted a.pageSize (LogEntryTransaction.frames ⟨[⟨1, List.replicate 512 7⟩, ⟨2, [1]⟩], 2⟩)).length < 2 ^ 32 := by
    rw [zero, size]
    decide +kernel
  obtain ⟨b, err, -, ran, -⟩ := call_returns ready.header fits (ready.hasSlots ⟨true, 0, 0⟩ _)
  obtain ⟨-, outcome, -⟩ := call_log ready.header fits ran
  cases err with
  | none =>
    have all := outcome.mp rfl
    rw [size] at all
    exact absurd (congrArg List.length all) (by decide +kernel)
  | some err =>
    have unmarked : (member lent a).fsm.skipMarkers 0 ≠ some .pending := by simp [member]
    have held : (⟨false, ⟨true, 0, 0⟩, []⟩ : Around).released = false := rfl
    exact apply_panics unmarked held ran 1

end Literaft.Proofs.Admission
