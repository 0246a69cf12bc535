import Literaft.FrameChannel
import Literaft.Proofs.Faults

/-! When the frame channel is drained. Every frame is taken once the loop is entered; a call
that fails before leaves its sender with the buffer alone. -/

namespace Literaft.Proofs.FrameChannel
open Library Wal Shm WalAppender Literaft.Faults Literaft.FrameChannel Literaft.Lookup Literaft.Store
open Appender Calls Proofs.Faults Proofs.Store

variable {a : WALAppender} {held : Bool} {chance : Chance} {faults : EarlyFaults} {frames : List Delivery} {capacity : Nat}

private theorem run_call (a : WALAppender) (held : Bool) (chance : Chance) (faults : EarlyFaults) (frames : List Delivery) :
    (call a held chance faults).run frames = appendFramesUnderLockChan a held chance faults frames := by
  unfold Service.run appendFramesUnderLockChan call
  cases entered : enter a held chance faults with
  | none => rfl
  | some start =>
    obtain ⟨b, outcome⟩ := start
    cases outcome <;> rfl

private theorem rewind_ok_iff {hdr : Header} : (∃ b latest, rewind a hdr chance faults = (b, .ok latest)) ↔
    faults.initHeader = none ∧ faults.walHeader = none ∧ faults.writeHeader = none ∧ faults.writeInfo = none := by
  unfold rewind
  cases faults.initHeader <;> cases faults.walHeader <;> cases faults.writeHeader <;> cases faults.writeInfo <;> simp

private theorem rewindLogIfBackfilled_ok_iff {hdr : Header} :
    (∃ b latest, rewindLogIfBackfilled a hdr chance faults = (b, .ok latest)) ↔
      chance.reading = true ∨ faults.readInfo = none ∧
        ((hdr.maxFrame = 0 ∨ a.shm.readCheckpointInfo.nBackfill < hdr.maxFrame) ∨
          faults.initHeader = none ∧ faults.walHeader = none ∧ faults.writeHeader = none ∧ faults.writeInfo = none) := by
  rw [← @rewind_ok_iff a chance faults hdr]
  unfold rewindLogIfBackfilled
  by_cases reading : chance.reading = true
  · simp [reading]
  cases faults.readInfo with
  | some err => simp [reading]
  | none =>
    by_cases due : hdr.maxFrame = 0 ∨ a.shm.readCheckpointInfo.nBackfill < hdr.maxFrame
    · simp [reading, due]
    · simp [reading, due]

theorem enter_ok_iff : (∃ b latest, enter a held chance faults = some (b, .ok latest)) ↔ Enters a held chance faults := by
  unfold enter
  cases held with
  | false =>
    constructor
    · rintro ⟨b, latest, entered⟩
      cases entered
    · intro enters
      cases enters.held
  | true =>
    rw [if_neg (by decide)]
    cases unread : faults.readHeader with
    | some err =>
      constructor
      · rintro ⟨b, latest, entered⟩
        cases entered
      · intro enters
        cases unread.symm.trans enters.header
    | none =>
      constructor
      · rintro ⟨b, latest, entered⟩
        obtain ⟨hdr, header, outcome⟩ := Option.map_eq_some_iff.mp entered
        refine ⟨rfl, unread, hdr, header, rewindLogIfBackfilled_ok_iff.mp ⟨b, latest, ?_⟩⟩
        split at outcome
        · cases outcome
        · next rewound => rw [rewound, outcome]
      · rintro ⟨-, -, hdr, header, free⟩
        obtain ⟨b, latest, rewound⟩ := rewindLogIfBackfilled_ok_iff.mpr free
        exact ⟨b, latest, by rw [header, Option.map_some, rewound]⟩

private theorem rewindLogIfBackfilled_ok {c : WALAppender} {hdr latest : Header}
    (rewound : rewindLogIfBackfilled a hdr chance faults = (c, .ok latest)) :
    rewindLogIfBackfilled a hdr chance {} = (c, .ok latest) := by
  have free := rewindLogIfBackfilled_ok_iff.mp ⟨c, latest, rewound⟩
  rw [← rewound]
  unfold rewindLogIfBackfilled
  split
  · rfl
  · next quiet =>
    obtain ⟨info, free⟩ := free.resolve_left quiet
    rw [info]
    dsimp only
    split
    · rfl
    · next due =>
      obtain ⟨initHeader, walHeader, writeHeader, writeInfo⟩ := free.resolve_left due
      rw [rewind, rewind, initHeader, walHeader, writeHeader, writeInfo]

theorem enter_ok {c : WALAppender} {latest : Header} (entered : enter a true chance faults = some (c, .ok latest)) :
    enter a true chance {} = some (c, .ok latest) := by
  have enters := enter_ok_iff.mp ⟨c, latest, entered⟩
  unfold enter at entered ⊢
  rw [if_neg (by decide), enters.header] at entered
  rw [if_neg (by decide)]
  obtain ⟨hdr, header, outcome⟩ := Option.map_eq_some_iff.mp entered
  refine Option.map_eq_some_iff.mpr ⟨hdr, header, ?_⟩
  split at outcome
  · cases outcome
  · next rewound =>
    rw [rewindLogIfBackfilled_ok rewound]
    exact outcome

private theorem delivery_returns {c e : Cursor} {d : Delivery} (appended : c.appendFrame d.frame = some e) :
    ∃ g, appendFrame c d = some g := by
  unfold appendFrame
  split
  · exact ⟨e, appended⟩
  · next good =>
    split
    · exact ⟨_, rfl⟩
    · exact ⟨_, rfl⟩
    · exact ⟨_, rfl⟩
    · dsimp only
      split
      · obtain ⟨fine, length⟩ := not_or.mp good
        rcases appendFrame_cases appended with ⟨failed, -⟩ | ⟨-, wrong, -⟩ | ⟨-, -, shm, added, -⟩
        · exact absurd failed fine
        · exact absurd wrong length
        · exact ⟨_, by rw [added]; rfl⟩
      · exact ⟨e, appended⟩
    · exact ⟨e, appended⟩

/-- A frame that fails ends the loop's work, so that errors make no frame wait for a slot. -/
theorem deliveries_end {c : Cursor} (ends : ((frames.map Delivery.frame).foldlM Cursor.appendFrame c).isSome) :
    (frames.foldlM appendFrame c).isSome := by
  induction frames generalizing c with
  | nil => rfl
  | cons d rest ih =>
    rw [List.map_cons, List.foldlM_cons] at ends
    obtain ⟨last, ran⟩ := Option.isSome_iff_exists.mp ends
    obtain ⟨e, appended, remaining⟩ := Option.bind_eq_some_iff.mp ran
    obtain ⟨g, taken⟩ := delivery_returns appended
    rw [List.foldlM_cons, taken, Option.bind_eq_bind, Option.bind_some]
    rcases delivery_cases taken with ⟨failed, rfl⟩ | ⟨-, -, failed, -⟩ | ⟨-, -, -, same⟩
    · rw [failed_takes failed]; rfl
    · rw [failed_takes failed]; rfl
    · cases appended.symm.trans same
      exact ih (by rw [remaining]; rfl)

/-- The loop comes to its end on frames that the hash tables have slots for. -/
theorem loop_ends {hdr : Header} (header : a.shm.readHeader = some hdr) (room : hdr.maxFrame.toNat + frames.length < 2 ^ 32)
    (slots : HasSlots a chance frames.length) (b : WALAppender) (latest : Header)
    (entered : enter a held chance faults = some (b, .ok latest)) :
    (frames.foldlM appendFrame (Cursor.start b latest)).isSome := by
  obtain rfl := (enter_ok_iff.mp ⟨b, latest, entered⟩).held
  have short := accepted_le a.pageSize (frames.map Delivery.frame)
  rw [List.length_map] at short
  have returns := (appendFramesLocked_isSome_iff header (by omega)).mpr (hasSlots_mono slots short)
  rw [← appendFramesUnderLockChan_plain header chance, appendFramesUnderLockChan, enter_ok entered, Option.bind_some,
    Option.isSome_map, foldlM_delivered] at returns
  exact deliveries_end returns

private theorem call_starts_iff : (∃ c, (call a held chance faults).enter = some (.ok c)) ↔ Enters a held chance faults := by
  rw [← enter_ok_iff]
  constructor
  · rintro ⟨c, entered⟩
    obtain ⟨⟨b, outcome⟩, came, same⟩ := Option.map_eq_some_iff.mp entered
    cases outcome with
    | error err => cases same
    | ok latest => exact ⟨b, latest, came⟩
  · rintro ⟨b, latest, entered⟩
    exact ⟨Cursor.start b latest, by rw [call, entered, Option.map_some]⟩

private theorem call_ends (ends : ∀ b latest, enter a held chance faults = some (b, .ok latest) →
    (frames.foldlM appendFrame (Cursor.start b latest)).isSome) (c : Cursor)
    (entered : (call a held chance faults).enter = some (.ok c)) : (frames.foldlM (call a held chance faults).take c).isSome := by
  obtain ⟨⟨b, outcome⟩, came, same⟩ := Option.map_eq_some_iff.mp entered
  cases outcome with
  | error err => cases same
  | ok latest =>
    cases same
    exact ends b latest came

/-- What is returned through the channel is the result of the call on the list of its frames. -/
theorem channel_result {actions : List ChannelAction} {s : Channel Delivery Cursor (WALAppender × Option String)}
    {result : WALAppender × Option String} (executed : exec (step a held chance faults capacity) (start frames) actions = some s)
    (returned : s.receiver = .returned result) : appendFramesUnderLockChan a held chance faults frames = some result := by
  rw [← run_call]
  exact (Channel.ordered_exec executed).result returned

/-- The sender gets to its end in every run if the loop is entered, or if the call returns an
error and the buffer has room for all frames. -/
theorem sender_finishes_iff (ends : ∀ b latest, enter a held chance faults = some (b, .ok latest) →
    (frames.foldlM appendFrame (Cursor.start b latest)).isSome) :
    (∀ actions s, exec (step a held chance faults capacity) (start frames) actions = some s →
      s.Finishable (call a held chance faults) capacity) ↔
      Enters a held chance faults ∨
        (∃ b err, enter a held chance faults = some (b, .error err)) ∧ frames.length ≤ capacity := by
  have rejects : (∃ result, (call a held chance faults).enter = some (.error result)) ↔
      ∃ b err, enter a held chance faults = some (b, .error err) := by
    constructor
    · rintro ⟨result, entered⟩
      obtain ⟨⟨b, outcome⟩, came, same⟩ := Option.map_eq_some_iff.mp entered
      cases outcome with
      | error err => exact ⟨b, err, came⟩
      | ok latest => cases same
    · rintro ⟨b, err, entered⟩
      exact ⟨(b, some err), by rw [call, entered, Option.map_some]⟩
  rw [← call_starts_iff, ← rejects]
  exact Channel.finishable_iff (call_ends ends)

/-- In every run the call has taken every frame and seen the channel closed when it returns,
and its sender can always go on, exactly if the way to the loop is free. -/
theorem channel_drained_iff (ends : ∀ b latest, enter a held chance faults = some (b, .ok latest) →
    (frames.foldlM appendFrame (Cursor.start b latest)).isSome) :
    (∀ actions s, exec (step a held chance faults capacity) (start frames) actions = some s →
      (∀ result, s.receiver = .returned result → s.Drained) ∧ Channel.Finishable (call a held chance faults) capacity s) ↔
      Enters a held chance faults := by
  rw [← call_starts_iff]
  constructor
  · intro fine
    have finishable := (Channel.finishable_iff (call_ends ends)).mp fun actions s executed => (fine actions s executed).2
    have drained := Channel.drained_iff.mp fun actions s result executed => (fine actions s executed).1 result
    exact finishable.resolve_right fun ⟨⟨result, fails⟩, _⟩ => drained result fails
  · intro enters actions s executed
    have never (result) : (call a held chance faults).enter ≠ some (.error result) := by
      obtain ⟨c, entered⟩ := enters
      exact fun fails => nomatch entered.symm.trans fails
    exact ⟨fun result returned => Channel.drained_iff.mpr never actions s result executed returned,
      (Channel.finishable_iff (call_ends ends)).mpr (.inl enters) actions s executed⟩

def sixPages : List Delivery :=
  [⟨image 1 7 0, none⟩, ⟨image 2 7 0, none⟩, ⟨image 3 7 0, none⟩, ⟨image 4 7 0, none⟩, ⟨image 5 7 0, none⟩, ⟨image 6 7 6, none⟩]

def copied : List Operation := [.append ⟨false, 0, 0⟩ [image 2 1 0, image 1 1 2], .checkpoint 2]

theorem channel_drained_six : ∃ booted a, (WALAppender.fresh 512 twoPages).maybeBootstrap 0 1 2 = some (.ok booted) ∧
    exec Store.step booted copied = some a ∧
    ∀ actions s, exec (step a true ⟨false, 3, 4⟩ {} restoreFrameBufferSize) (start sixPages) actions = some s →
      (∀ result, s.receiver = .returned result → s.Drained) ∧
        Channel.Finishable (call a true ⟨false, 3, 4⟩ {}) restoreFrameBufferSize s := by
  obtain ⟨booted, bootstrap⟩ := bootstrap_fresh 512 1 2 twoPages (Nat.zero_le _)
  have explicit := bootstrap_eq bootstrap
  have found : ((exec Store.step booted copied).bind fun a =>
      a.shm.readHeader.map fun _ => (appendFramesUnderLockChan a true ⟨false, 3, 4⟩ {} sixPages).isSome) = some true := by
    subst explicit
    decide +kernel
  obtain ⟨a, executed, found⟩ := Option.bind_eq_some_iff.mp found
  obtain ⟨hdr, header, done⟩ := Option.map_eq_some_iff.mp found
  refine ⟨booted, a, bootstrap, executed, (channel_drained_iff fun b latest entered => ?_).mpr ⟨rfl, rfl, hdr, header, ?_⟩⟩
  · simpa only [appendFramesUnderLockChan, entered, Option.bind_some, Option.isSome_map] using done
  · exact .inr ⟨rfl, .inr ⟨rfl, rfl, rfl, rfl⟩⟩

def noSpace : EarlyFaults := { walHeader := some (0, "no space left on device") }

/-- The log has been copied into the database, so the call rewinds it, and the write of its new
header fails. Four frames go into the buffer, and nothing can happen any more. -/
theorem sender_blocked : ∃ booted a b err s, (WALAppender.fresh 512 twoPages).maybeBootstrap 0 1 2 = some (.ok booted) ∧
    exec Store.step booted copied = some a ∧
    exec (step a true ⟨false, 3, 4⟩ noSpace restoreFrameBufferSize) (start sixPages)
      (.enter :: List.replicate restoreFrameBufferSize .send) = some s ∧
    s.receiver = .returned (b, some err) ∧ s.unsent.length = 2 ∧ s.closed = false ∧
    ∀ action, step a true ⟨false, 3, 4⟩ noSpace restoreFrameBufferSize s action = none := by
  obtain ⟨booted, bootstrap⟩ := bootstrap_fresh 512 1 2 twoPages (Nat.zero_le _)
  have explicit := bootstrap_eq bootstrap
  have found : ((exec Store.step booted copied).bind fun a =>
      (enter a true ⟨false, 3, 4⟩ noSpace).map fun came => came.2.isOk) = some false := by
    subst explicit
    decide +kernel
  obtain ⟨a, executed, found⟩ := Option.bind_eq_some_iff.mp found
  obtain ⟨⟨b, outcome⟩, entered, failed⟩ := Option.map_eq_some_iff.mp found
  cases outcome with
  | ok latest => cases failed
  | error err =>
    have fails : (call a true ⟨false, 3, 4⟩ noSpace).enter = some (.error (b, some err)) := by
      rw [call, entered, Option.map_some]
    have run := @Channel.exec_rejected _ _ _ (call a true ⟨false, 3, 4⟩ noSpace) restoreFrameBufferSize (b, some err)
      (sixPages.take 4) (sixPages.drop 4) fails rfl
    rw [List.take_append_drop] at run
    exact ⟨booted, a, b, err, _, bootstrap, executed, run, rfl, rfl, rfl,
      Channel.step_full (List.cons_ne_nil _ _) (Nat.le_refl 4)⟩

end Literaft.Proofs.FrameChannel
