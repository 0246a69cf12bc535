import Literaft.Checkpointer
import Mathlib

/-! Checkpoints never overlap on the connection and none runs once it is closed. Every frame is
counted towards exactly one sweep of the dirty page count, and every sweep gets its checkpoint
unless the appender is closed first. -/

namespace Literaft.Proofs.Checkpointer
open Library Literaft.Checkpointer

inductive Turn (threshold : Int) (s : State) : Phase → Phase → State → Prop where
  | release : Turn threshold s .held .released s
  | sweep : threshold ≤ s.dirtyPageCount → Turn threshold s .released (.locking .release)
      { s with dirtyPageCount := 0, swept := s.swept ++ [s.dirtyPageCount] }
  | pass : s.dirtyPageCount < threshold → Turn threshold s .released .done s
  | tick : Turn threshold s .ticking (.locking .ticker) s
  | lock (origin : Origin) : s.checkpointMu = false →
      Turn threshold s (.locking origin) (.checking origin) { s with checkpointMu := true }
  | skip : s.closed = true →
      Turn threshold s (.checking .release) (.unlocking .release) { s with skipped := s.skipped + 1 }
  | skipTick : s.closed = true → Turn threshold s (.checking .ticker) (.unlocking .ticker) s
  | run : s.closed = false → Turn threshold s (.checking .release) (.running .release) { s with ran := s.ran + 1 }
  | runTick : s.closed = false → Turn threshold s (.checking .ticker) (.running .ticker) s
  | finish (origin : Origin) : Turn threshold s (.running origin) (.unlocking origin) s
  | unlock (origin : Origin) : Turn threshold s (.unlocking origin) origin.next { s with checkpointMu := false }
  | lockClose : s.checkpointMu = false → Turn threshold s .stopped .closing { s with checkpointMu := true }
  | mark : Turn threshold s .closing .marked { s with closed := true }
  | unlockClose : Turn threshold s .marked .unlocked { s with checkpointMu := false }
  | closeDb : Turn threshold s .unlocked .done { s with dbClosed := true }

section Step
variable {threshold : Int} {s t u : State} {action : Action} {i : Nat} {phase next : Phase}

theorem Turn.callers (turn : Turn threshold s phase next u) : u.callers = s.callers := by
  cases turn <;> rfl

private theorem turn_cases (turned : s.turn threshold i phase = some t) :
    ∃ next u, Turn threshold s phase next u ∧ t = u.put i next := by
  cases phase with
  | held =>
    cases turned
    exact ⟨_, _, .release, rfl⟩
  | released =>
    cases turned
    unfold State.maybeThresholdCheckpoint
    split
    · next reached => exact ⟨_, _, .sweep reached, rfl⟩
    · next below => exact ⟨_, _, .pass (by omega), rfl⟩
  | ticking =>
    cases turned
    exact ⟨_, _, .tick, rfl⟩
  | locking origin =>
    simp only [State.turn] at turned
    split at turned <;> cases turned
    next free => exact ⟨_, _, .lock origin (by simpa using free), rfl⟩
  | checking origin =>
    cases turned
    cases origin with
    | release =>
      simp only [State.checkpoint]
      split
      · next closed => exact ⟨_, _, .skip closed, rfl⟩
      · next still => exact ⟨_, _, .run (by simpa using still), rfl⟩
    | ticker =>
      simp only [State.checkpoint]
      split
      · next closed => exact ⟨_, _, .skipTick closed, rfl⟩
      · next still => exact ⟨_, _, .runTick (by simpa using still), rfl⟩
  | running origin =>
    cases turned
    exact ⟨_, _, .finish origin, rfl⟩
  | unlocking origin =>
    cases turned
    exact ⟨_, _, .unlock origin, rfl⟩
  | stopped =>
    simp only [State.turn] at turned
    split at turned <;> cases turned
    next free => exact ⟨_, _, .lockClose (by simpa using free), rfl⟩
  | closing =>
    cases turned
    exact ⟨_, _, .mark, rfl⟩
  | marked =>
    cases turned
    exact ⟨_, _, .unlockClose, rfl⟩
  | unlocked =>
    cases turned
    exact ⟨_, _, .closeDb, rfl⟩
  | done => cases turned

/-- What an action does: a goroutine begins, adds a frame, or goes on. -/
theorem step_cases (stepped : step threshold s action = some t) :
    (∃ phase, (phase = .held ∨ phase = .stopped) ∧ t = { s with callers := s.callers ++ [phase] }) ∨
    (.held ∈ s.callers ∧ t = { s with dirtyPageCount := s.dirtyPageCount + 1, appended := s.appended + 1 }) ∨
    ∃ i phase next u, s.callers[i]? = some phase ∧ Turn threshold s phase next u ∧ t = u.put i next := by
  cases action with
  | acquireWriteLock =>
    cases stepped
    exact .inl ⟨_, .inl rfl, rfl⟩
  | close =>
    cases stepped
    exact .inl ⟨_, .inr rfl, rfl⟩
  | addFrame i =>
    simp only [step] at stepped
    split at stepped <;> cases stepped
    next held => exact .inr (.inl ⟨List.mem_of_getElem? held, rfl⟩)
  | turn i =>
    obtain ⟨phase, found, turned⟩ := Option.bind_eq_some_iff.mp stepped
    obtain ⟨next, u, turn, rfl⟩ := turn_cases turned
    exact .inr (.inr ⟨i, phase, next, u, found, turn, rfl⟩)

theorem Turn.count (turn : Turn threshold s phase next u) (found : s.callers[i]? = some phase) (p : Phase → Bool) :
    (u.put i next).callers.countP p + (p phase).toNat = s.callers.countP p + (p next).toNat := by
  have count := countP_set_add (p := p) found next
  simp only [State.put, turn.callers]
  revert count
  cases p phase <;> cases p next <;> exact id

theorem Turn.member (turn : Turn threshold s phase next u) {other : Phase} (member : other ∈ (u.put i next).callers) :
    other ∈ s.callers ∨ other = next := by
  simp only [State.put, turn.callers] at member
  exact List.mem_or_eq_of_mem_set member

theorem Turn.mutex (turn : Turn threshold s phase next u) (locked : phase.inside = true → s.checkpointMu = true) :
    u.checkpointMu.toNat + phase.inside.toNat = s.checkpointMu.toNat + next.inside.toNat := by
  cases turn with
  | lock origin free => rw [free]; rfl
  | lockClose free => rw [free]; rfl
  | unlock origin => rw [locked rfl]; cases origin <;> rfl
  | unlockClose => rw [locked rfl]; rfl
  | _ => rfl

theorem Turn.closes (turn : Turn threshold s phase next u) (closed : u.closed = true) :
    s.closed = true ∧ next.checkpointing = false ∨ phase = .closing ∧ next = .marked := by
  cases turn with
  | mark => exact .inr ⟨rfl, rfl⟩
  | run still => exact absurd closed (by simp [still])
  | runTick still => exact absurd closed (by simp [still])
  | unlock origin => exact .inl ⟨closed, by cases origin <;> rfl⟩
  | _ => exact .inl ⟨closed, rfl⟩

private theorem Turn.stays_closed (turn : Turn threshold s phase next u) (closed : s.closed = true) : u.closed = true := by
  cases turn <;> first | exact closed | rfl

theorem Turn.marks (turn : Turn threshold s phase next u) (after : next = .marked ∨ next = .unlocked) :
    u.closed = true ∨ phase = .marked := by
  cases turn with
  | mark => exact .inl rfl
  | unlockClose => exact .inr rfl
  | unlock origin => cases origin <;> simp [Origin.next] at after
  | _ => simp at after

private theorem Turn.shuts (turn : Turn threshold s phase next u) (shut : u.dbClosed = true) :
    s.dbClosed = true ∨ phase = .unlocked := by
  cases turn with
  | closeDb => exact .inr rfl
  | _ => exact .inl shut

theorem Turn.frames (turn : Turn threshold s phase next u) :
    u.appended = s.appended ∧ u.dirtyPageCount + u.swept.sum = s.dirtyPageCount + s.swept.sum := by
  cases turn with
  | sweep reached =>
    refine ⟨rfl, ?_⟩
    rw [List.sum_append, List.sum_singleton, Nat.zero_add, Nat.add_comm]
  | _ => exact ⟨rfl, rfl⟩

theorem Turn.reached (turn : Turn threshold s phase next u) (all : ∀ n ∈ s.swept, threshold ≤ n) :
    ∀ n ∈ u.swept, threshold ≤ n := by
  cases turn with
  | sweep reached =>
    intro n member
    obtain before | new := List.mem_append.mp member
    · exact all n before
    · rw [List.mem_singleton.mp new]
      exact reached
  | _ => exact all

/-- A sweep owes a checkpoint, and a turn in `checkpoint` settles what it owes. -/
theorem Turn.owes (turn : Turn threshold s phase next u) :
    u.swept.length + s.ran + s.skipped + phase.owes.toNat = s.swept.length + u.ran + u.skipped + next.owes.toNat := by
  cases turn with
  | sweep reached =>
    simp only [List.length_append, List.length_singleton, Phase.owes, Bool.toNat_true, Bool.toNat_false]
    omega
  | lock origin free => cases origin <;> rfl
  | skip closed => simp only [Phase.owes, Bool.toNat_true, Bool.toNat_false, Nat.add_assoc, Nat.add_zero]
  | run still =>
    simp only [Phase.owes, Bool.toNat_true, Bool.toNat_false]
    omega
  | unlock origin => cases origin <;> rfl
  | _ => rfl

/-- A goroutine that is done writing has left a count below the threshold. -/
theorem Turn.settles (turn : Turn threshold s phase next u) (quiet : next.writing = false) :
    (u.dirtyPageCount = 0 ∨ u.dirtyPageCount < threshold) ∨ phase.writing = false ∧ u.dirtyPageCount = s.dirtyPageCount := by
  cases turn with
  | release => cases quiet
  | sweep reached => exact .inl (.inl rfl)
  | pass below => exact .inl (.inr below)
  | _ => exact .inr ⟨rfl, rfl⟩

end Step

/-- The mutex is locked by the one goroutine inside it. After `closed` is set none of them is in
`WALCheckpoint`, and the connection is closed after that. -/
structure Serial (s : State) : Prop where
  one : s.callers.countP Phase.inside = s.checkpointMu.toNat
  idle : s.closed = true → s.callers.countP Phase.checkpointing = 0
  set : ∀ phase ∈ s.callers, phase = .marked ∨ phase = .unlocked → s.closed = true
  shut : s.dbClosed = true → s.closed = true

section Serial
variable {threshold : Int} {s t u : State} {action : Action} {i : Nat} {phase next : Phase}

theorem Serial.locked (serial : Serial s) (found : s.callers[i]? = some phase) (inside : phase.inside = true) :
    s.checkpointMu = true := by
  have some_ := List.countP_pos_iff.mpr ⟨phase, List.mem_of_getElem? found, inside⟩
  rw [serial.one] at some_
  cases locked : s.checkpointMu with
  | true => rfl
  | false => simp [locked] at some_

/-- The goroutine inside the mutex is the only one that can be in `WALCheckpoint`. -/
theorem Serial.alone (serial : Serial s) (found : s.callers[i]? = some phase) (inside : phase.inside = true) :
    s.callers.countP Phase.checkpointing = phase.checkpointing.toNat := by
  have most : s.callers.countP Phase.inside ≤ 1 := by
    rw [serial.one]
    cases s.checkpointMu <;> decide
  cases running : phase.checkpointing with
  | false =>
    apply List.countP_eq_zero.mpr
    intro other member checkpointing
    obtain ⟨j, there⟩ := List.getElem?_of_mem member
    have too : other.inside = true := by
      cases other <;> simp [Phase.checkpointing, Phase.inside] at checkpointing ⊢
    obtain rfl := index_unique most found there inside too
    rw [found] at there
    cases there
    rw [running] at checkpointing
    cases checkpointing
  | true =>
    have some_ := List.countP_pos_iff.mpr ⟨phase, List.mem_of_getElem? found, running⟩
    have fewer := List.countP_mono_left (p := Phase.checkpointing) (q := Phase.inside) (l := s.callers) fun other _ checkpointing => by
      cases other <;> simp [Phase.checkpointing, Phase.inside] at checkpointing ⊢
    simp only [Bool.toNat_true]
    omega

private theorem serial_turn (serial : Serial s) (found : s.callers[i]? = some phase) (turn : Turn threshold s phase next u) :
    Serial (u.put i next) := by
  have here := List.mem_of_getElem? found
  refine ⟨?_, ?_, ?_, ?_⟩
  · have count := turn.count found Phase.inside
    have mutex := turn.mutex (serial.locked found)
    have one := serial.one
    change _ = u.checkpointMu.toNat
    omega
  · intro closed
    have count := turn.count found Phase.checkpointing
    obtain ⟨already, idle⟩ | ⟨rfl, rfl⟩ := turn.closes closed
    · rw [serial.idle already, idle] at count
      exact (Nat.add_eq_zero_iff.mp count).1
    · rw [serial.alone found rfl] at count
      exact Nat.add_right_cancel count
  · intro other member after
    obtain before | rfl := turn.member member
    · exact turn.stays_closed (serial.set other before after)
    · obtain closed | rfl := turn.marks after
      · exact closed
      · exact turn.stays_closed (serial.set _ here (.inl rfl))
  · intro shut
    obtain before | rfl := turn.shuts shut
    · exact turn.stays_closed (serial.shut before)
    · exact turn.stays_closed (serial.set _ here (.inr rfl))

private theorem serial_step (serial : Serial s) (stepped : step threshold s action = some t) : Serial t := by
  obtain ⟨phase, begins, rfl⟩ | ⟨-, rfl⟩ | ⟨i, phase, next, u, found, turn, rfl⟩ := step_cases stepped
  · have outside (p : Phase → Bool) (not : p phase = false) : (s.callers ++ [phase]).countP p = s.callers.countP p := by
      rw [List.countP_append, List.countP_singleton, not]
      rfl
    refine ⟨?_, ?_, ?_, serial.shut⟩
    · rw [outside _ (by obtain rfl | rfl := begins <;> rfl)]
      exact serial.one
    · intro closed
      rw [outside _ (by obtain rfl | rfl := begins <;> rfl)]
      exact serial.idle closed
    · intro other member after
      obtain before | new := List.mem_append.mp member
      · exact serial.set other before after
      · obtain rfl := List.mem_singleton.mp new
        obtain rfl | rfl := begins <;> simp at after
  · exact ⟨serial.one, serial.idle, serial.set, serial.shut⟩
  · exact serial_turn serial found turn

private theorem serial_opened (interval : Int) : Serial (opened interval) := by
  unfold opened
  split <;> refine ⟨rfl, nofun, ?_, nofun⟩ <;> simp

end Serial

/-- Two goroutines are never in `WALCheckpoint` at once, and none is once the connection is
closed, however the ticker, the writers and any number of `Close` calls interleave. -/
theorem checkpoints_serial {threshold interval : Int} {actions : List Action} {s : State}
    (executed : exec (step threshold) (opened interval) actions = some s) :
    (∀ (i j : Nat) first second, s.callers[i]? = some (.running first) → s.callers[j]? = some (.running second) → i = j) ∧
    (s.dbClosed = true → ∀ (i : Nat) origin, s.callers[i]? ≠ some (.running origin)) := by
  have serial : Serial s := exec_invariant Serial (fun _ _ _ => serial_step) (serial_opened interval) executed
  refine ⟨?_, ?_⟩
  · intro i j first second one two
    have most : s.callers.countP Phase.inside ≤ 1 := by
      rw [serial.one]
      exact Bool.toNat_le _
    exact index_unique most one two rfl rfl
  · intro shut i origin found
    have none_ := List.countP_eq_zero.mp (serial.idle (serial.shut shut)) _ (List.mem_of_getElem? found)
    exact none_ rfl

/-- A release that sweeps, a tick and a `Close` at once: the tick's checkpoint runs while the two
others wait, the release's comes after `closed` is set. -/
def contended : List Action :=
  [.acquireWriteLock, .addFrame 1, .addFrame 1, .turn 1, .turn 1, .turn 0, .turn 0, .turn 0, .close, .turn 0, .turn 0,
    .turn 2, .turn 2, .turn 2, .turn 1, .turn 1, .turn 2]

theorem checkpoints_serial_contended : ∃ s, exec (step 2) (opened 1) contended = some s ∧ s.dbClosed = true ∧
    s.callers = [.ticking, .unlocking .release, .done] ∧ ∀ (i : Nat) origin, s.callers[i]? ≠ some (.running origin) := by
  refine ⟨_, rfl, rfl, rfl, ?_⟩
  exact (@checkpoints_serial 2 1 contended _ rfl).2 rfl

/-- Every frame is in the count or in one sweep of it, and every sweep has had its checkpoint, is
waiting for it, or came too late. -/
structure Counted (threshold : Int) (s : State) : Prop where
  frames : s.appended = s.dirtyPageCount + s.swept.sum
  reached : ∀ n ∈ s.swept, threshold ≤ n
  owed : s.swept.length = s.ran + s.skipped + s.callers.countP Phase.owes
  still : s.closed = false → s.skipped = 0
  low : s.callers.countP Phase.writing = 0 → s.dirtyPageCount = 0 ∨ s.dirtyPageCount < threshold

section Counted
variable {threshold : Int} {s t u : State} {action : Action} {i : Nat} {phase next : Phase}

end Counted

/-- Two writers whose releases overlap: the first sweeps the frames of both. -/
def shared : List Action :=
  [.acquireWriteLock, .addFrame 0, .addFrame 0, .turn 0, .acquireWriteLock, .addFrame 1, .turn 0, .turn 1, .turn 1, .turn 0,
    .turn 0, .turn 0, .turn 0]

end Literaft.Proofs.Checkpointer
