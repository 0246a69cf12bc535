import Literaft.Library.Machine
import Mathlib.Data.List.Basic

/-! Channels of a fixed capacity between a sender with a list of messages and a call that is
to take them all. The call may return before it takes any, and the sender then has only the
buffer to put its messages in. -/

namespace Literaft.Library

/-- What the receiving call does. `enter` is `none` if it panics, and an error is a result that
it returns at once; `take` is `none` if a message keeps it busy for ever. -/
structure Service (α ρ β : Type) where
  enter : Option (Except β ρ)
  take : ρ → α → Option ρ
  finish : ρ → β

def Service.run {α ρ β : Type} (service : Service α ρ β) (messages : List α) : Option β :=
  service.enter.bind fun
    | .error result => some result
    | .ok state => (messages.foldlM service.take state).map service.finish

inductive Receiver (ρ β : Type) where
  | entering
  | looping (state : ρ)
  | stuck
  | panicked
  | returned (result : β)

def Receiver.alive {ρ β : Type} : Receiver ρ β → Bool
  | .panicked => false
  | _ => true

structure Channel (α ρ β : Type) where
  unsent : List α
  buffer : List α := []
  closed : Bool := false
  receiver : Receiver ρ β := .entering

inductive ChannelAction where
  | enter
  | send
  | handOff
  | close
  | receive
  | leave

namespace Channel
variable {α ρ β : Type}

def taking (service : Service α ρ β) (state : ρ) (message : α) : Receiver ρ β :=
  (service.take state message).elim .stuck .looping

/-- A send goes into the buffer, or straight to a loop that waits at an empty one. A panic ends
the sender too. -/
def step (service : Service α ρ β) (capacity : Nat) (s : Channel α ρ β) : ChannelAction → Option (Channel α ρ β)
  | .enter => match s.receiver with
    | .entering => match service.enter with
      | none => some { s with receiver := .panicked }
      | some (.error result) => some { s with receiver := .returned result }
      | some (.ok state) => some { s with receiver := .looping state }
    | _ => none
  | .send => match s.unsent with
    | [] => none
    | message :: rest =>
      if s.receiver.alive ∧ s.buffer.length < capacity then some { s with unsent := rest, buffer := s.buffer ++ [message] }
      else none
  | .handOff => match s.receiver, s.buffer, s.unsent with
    | .looping state, [], message :: rest => some { s with unsent := rest, receiver := taking service state message }
    | _, _, _ => none
  | .close => match s.unsent, s.closed with
    | [], false => if s.receiver.alive then some { s with closed := true } else none
    | _, _ => none
  | .receive => match s.receiver, s.buffer with
    | .looping state, message :: rest => some { s with buffer := rest, receiver := taking service state message }
    | _, _ => none
  | .leave => match s.receiver, s.buffer, s.closed with
    | .looping state, [], true => some { s with receiver := .returned (service.finish state) }
    | _, _, _ => none

structure Drained (s : Channel α ρ β) : Prop where
  unsent : s.unsent = []
  buffer : s.buffer = []
  closed : s.closed = true

def Reached (service : Service α ρ β) (taken : List α) : Receiver ρ β → Prop
  | .entering => taken = []
  | .looping state => ∃ first, service.enter = some (.ok first) ∧ taken.foldlM service.take first = some state
  | .stuck => ∃ first, service.enter = some (.ok first) ∧ taken.foldlM service.take first = none
  | .panicked => service.enter = none
  | .returned result => service.enter = some (.error result) ∧ taken = [] ∨
      ∃ first state, service.enter = some (.ok first) ∧ taken.foldlM service.take first = some state ∧ result = service.finish state

/-- The messages are in order: taken, in the buffer, with the sender. -/
structure Ordered (service : Service α ρ β) (capacity : Nat) (messages : List α) (s : Channel α ρ β) : Prop where
  taken : ∃ taken, taken ++ (s.buffer ++ s.unsent) = messages ∧ Reached service taken s.receiver
  closed : s.closed = true → s.unsent = []
  room : s.buffer.length ≤ capacity
  drained : ∀ result, s.receiver = .returned result → service.enter = some (.error result) ∨ Drained s

/-- What one action does, without the actions' names. -/
inductive Move (service : Service α ρ β) (capacity : Nat) (s : Channel α ρ β) : Channel α ρ β → Prop where
  | panic (entering : s.receiver = .entering) (panics : service.enter = none) :
      Move service capacity s { s with receiver := .panicked }
  | reject {result : β} (entering : s.receiver = .entering) (fails : service.enter = some (.error result)) :
      Move service capacity s { s with receiver := .returned result }
  | start {state : ρ} (entering : s.receiver = .entering) (starts : service.enter = some (.ok state)) :
      Move service capacity s { s with receiver := .looping state }
  | send {message : α} {rest : List α} (waiting : s.unsent = message :: rest)
      (free : s.receiver.alive ∧ s.buffer.length < capacity) :
      Move service capacity s { s with unsent := rest, buffer := s.buffer ++ [message] }
  | handOff {state : ρ} {message : α} {rest : List α} (looping : s.receiver = .looping state) (empty : s.buffer = [])
      (waiting : s.unsent = message :: rest) :
      Move service capacity s { s with unsent := rest, receiver := taking service state message }
  | close (sent : s.unsent = []) (alive : s.receiver.alive) : Move service capacity s { s with closed := true }
  | receive {state : ρ} {message : α} {rest : List α} (looping : s.receiver = .looping state)
      (waiting : s.buffer = message :: rest) :
      Move service capacity s { s with buffer := rest, receiver := taking service state message }
  | leave {state : ρ} (looping : s.receiver = .looping state) (empty : s.buffer = []) (shut : s.closed = true) :
      Move service capacity s { s with receiver := .returned (service.finish state) }

section Run
variable {service : Service α ρ β} {capacity : Nat} {messages : List α} {s t : Channel α ρ β} {action : ChannelAction}

theorem ordered_start (service : Service α ρ β) (capacity : Nat) (messages : List α) :
    Ordered service capacity messages ⟨messages, [], false, .entering⟩ :=
  ⟨⟨[], rfl, rfl⟩, fun closed => (nomatch closed), Nat.zero_le _, fun _ returned => (nomatch returned)⟩

theorem reached_taking {taken : List α} {state : ρ} (reached : Reached service taken (.looping state)) (message : α) :
    Reached service (taken ++ [message]) (taking service state message) := by
  obtain ⟨first, entered, folded⟩ := reached
  unfold taking
  cases next : service.take state message with
  | none => exact ⟨first, entered, by simp [folded, next]⟩
  | some after => exact ⟨first, entered, by simp [folded, next]⟩

theorem taking_ne_returned (state : ρ) (message : α) (result : β) : taking service state message ≠ .returned result := by
  unfold taking
  cases service.take state message <;> exact fun same => nomatch same

theorem move_of_step (stepped : step service capacity s action = some t) : Move service capacity s t := by
  cases action with
  | enter =>
    simp only [step] at stepped
    split at stepped
    · split at stepped <;> cases stepped
      · exact .panic ‹_› ‹_›
      · exact .reject ‹_› ‹_›
      · exact .start ‹_› ‹_›
    · cases stepped
  | send =>
    simp only [step] at stepped
    split at stepped
    · cases stepped
    · split at stepped <;> cases stepped
      exact .send ‹_› ‹_›
  | handOff =>
    simp only [step] at stepped
    split at stepped <;> cases stepped
    exact .handOff ‹_› ‹_› ‹_›
  | close =>
    simp only [step] at stepped
    split at stepped
    · split at stepped <;> cases stepped
      exact .close ‹_› ‹_›
    · cases stepped
  | receive =>
    simp only [step] at stepped
    split at stepped <;> cases stepped
    exact .receive ‹_› ‹_›
  | leave =>
    simp only [step] at stepped
    split at stepped <;> cases stepped
    exact .leave ‹_› ‹_› ‹_›

theorem Ordered.move (ordered : Ordered service capacity messages s) (move : Move service capacity s t) :
    Ordered service capacity messages t := by
  obtain ⟨⟨taken, parts, reached⟩, closed, room, drained⟩ := ordered
  cases move with
  | panic entering panics =>
    exact ⟨⟨taken, parts, panics⟩, closed, room, fun _ returned => (nomatch returned)⟩
  | @reject result entering fails =>
    rw [entering] at reached
    refine ⟨⟨taken, parts, .inl ⟨fails, reached⟩⟩, closed, room, fun other returned => .inl ?_⟩
    cases returned
    exact fails
  | start entering starts =>
    rw [entering] at reached
    obtain rfl : taken = [] := reached
    exact ⟨⟨[], parts, _, starts, rfl⟩, closed, room, fun _ returned => (nomatch returned)⟩
  | @send message rest waiting free =>
    refine ⟨⟨taken, ?_, reached⟩, fun shut => ?_, ?_, fun result returned => ?_⟩
    · rw [← parts, waiting, List.append_assoc, List.singleton_append]
    · exact absurd (closed shut) (by simp [waiting])
    · rw [List.length_append]
      exact free.2
    · refine (drained result returned).imp_right fun done => ?_
      exact absurd done.unsent (by simp [waiting])
  | @handOff state message rest looping empty waiting =>
    rw [looping] at reached
    refine ⟨⟨taken ++ [message], ?_, reached_taking reached message⟩, fun shut => ?_, room, fun result returned => ?_⟩
    · rw [← parts, waiting, empty, List.append_assoc]
      rfl
    · exact absurd (closed shut) (by simp [waiting])
    · exact absurd returned (taking_ne_returned _ _ _)
  | close sent _ =>
    refine ⟨⟨taken, parts, reached⟩, fun _ => sent, room, fun result returned => ?_⟩
    exact (drained result returned).imp_right fun done => ⟨done.unsent, done.buffer, rfl⟩
  | @receive state message rest looping waiting =>
    rw [looping] at reached
    refine ⟨⟨taken ++ [message], ?_, reached_taking reached message⟩, closed, ?_, fun result returned => ?_⟩
    · rw [← parts, waiting, List.append_assoc]
      rfl
    · rw [waiting, List.length_cons] at room
      exact Nat.le_of_succ_le room
    · exact absurd returned (taking_ne_returned _ _ _)
  | @leave state looping empty shut =>
    rw [looping] at reached
    obtain ⟨first, started, folded⟩ := reached
    refine ⟨⟨taken, parts, .inr ⟨first, state, started, folded, rfl⟩⟩, closed, room, fun _ _ => .inr ?_⟩
    exact ⟨closed shut, empty, shut⟩

theorem ordered_exec {actions : List ChannelAction}
    (executed : exec (step service capacity) ⟨messages, [], false, .entering⟩ actions = some s) :
    Ordered service capacity messages s :=
  exec_invariant (Ordered service capacity messages) (fun _ _ _ ordered stepped => ordered.move (move_of_step stepped))
    (ordered_start service capacity messages) executed

/-- What the call returns is what it makes of all messages in their order. -/
theorem Ordered.result {result : β} (ordered : Ordered service capacity messages s) (returned : s.receiver = .returned result) :
    service.run messages = some result := by
  obtain ⟨taken, parts, reached⟩ := ordered.taken
  rw [returned] at reached
  rcases reached with ⟨fails, -⟩ | ⟨first, state, started, folded, same⟩
  · simp only [Service.run, fails, Option.bind_some]
  · rcases ordered.drained result returned with fails | done
    · rw [started] at fails
      cases fails
    · rw [done.buffer, done.unsent, List.append_nil, List.append_nil] at parts
      rw [parts] at folded
      simp only [Service.run, started, Option.bind_some, folded, Option.map_some, same]

/-- The sender can get to its end from here, with the help of the call or without. -/
def Finishable (service : Service α ρ β) (capacity : Nat) (s : Channel α ρ β) : Prop :=
  ∃ actions t, exec (step service capacity) s actions = some t ∧ t.closed = true

theorem Finishable.of_step (action : ChannelAction) (stepped : step service capacity s action = some t)
    (later : Finishable service capacity t) : Finishable service capacity s := by
  obtain ⟨actions, last, executed, closed⟩ := later
  exact ⟨action :: actions, last, by rw [exec, stepped]; exact executed, closed⟩

/-- A loop that no message keeps for ever. -/
theorem finishable_looping {state after : ρ} {unsent buffer : List α} {closed : Bool}
    (ends : (buffer ++ unsent).foldlM service.take state = some after) :
    Finishable service capacity ⟨unsent, buffer, closed, .looping state⟩ := by
  have next {message : α} {rest : List α} {state : ρ} (folded : (message :: rest).foldlM service.take state = some after) :
      ∃ middle, taking service state message = .looping middle ∧ rest.foldlM service.take middle = some after := by
    rw [List.foldlM_cons] at folded
    obtain ⟨middle, took, remaining⟩ := Option.bind_eq_some_iff.mp folded
    exact ⟨middle, by rw [taking, took]; rfl, remaining⟩
  induction buffer generalizing state with
  | cons message rest ih =>
    obtain ⟨middle, took, remaining⟩ := next ends
    refine .of_step (t := ⟨unsent, rest, closed, taking service state message⟩) .receive rfl ?_
    rw [took]
    exact ih remaining
  | nil =>
    rw [List.nil_append] at ends
    induction unsent generalizing state with
    | cons message rest ih =>
      obtain ⟨middle, took, remaining⟩ := next ends
      refine .of_step (t := ⟨rest, [], closed, taking service state message⟩) .handOff rfl ?_
      rw [took]
      exact ih remaining
    | nil =>
      cases closed with
      | true => exact ⟨[], _, rfl, rfl⟩
      | false => exact ⟨[.close], _, rfl, rfl⟩

theorem exec_sends {receiver : Receiver ρ β} {sent rest buffer : List α} {closed : Bool} (alive : receiver.alive)
    (fits : buffer.length + sent.length ≤ capacity) :
    exec (step service capacity) ⟨sent ++ rest, buffer, closed, receiver⟩ (List.replicate sent.length .send) =
      some ⟨rest, buffer ++ sent, closed, receiver⟩ := by
  induction sent generalizing buffer with
  | nil => rw [List.append_nil]; rfl
  | cons message more ih =>
    rw [List.length_cons] at fits
    have stepped : step service capacity ⟨message :: more ++ rest, buffer, closed, receiver⟩ .send =
        some ⟨more ++ rest, buffer ++ [message], closed, receiver⟩ := by
      have free : buffer.length < capacity := by omega
      exact if_pos ⟨alive, free⟩
    rw [List.length_cons, List.replicate_succ, exec, stepped, Option.bind_some, ih (by simp only [List.length_append, List.length_singleton]; omega),
      List.append_assoc, List.singleton_append]

theorem finishable_alone {receiver : Receiver ρ β} {unsent buffer : List α} {closed : Bool} (alive : receiver.alive)
    (fits : (buffer ++ unsent).length ≤ capacity) : Finishable service capacity ⟨unsent, buffer, closed, receiver⟩ := by
  have sent : exec (step service capacity) ⟨unsent ++ [], buffer, closed, receiver⟩ (List.replicate unsent.length .send) =
      some ⟨[], buffer ++ unsent, closed, receiver⟩ := exec_sends alive (List.length_append ▸ fits)
  rw [List.append_nil] at sent
  cases closed with
  | true => exact ⟨_, _, sent, rfl⟩
  | false =>
    refine ⟨List.replicate unsent.length .send ++ [.close], ⟨[], buffer ++ unsent, true, receiver⟩, ?_, rfl⟩
    rw [exec_append, sent]
    simp only [Option.bind_some, exec, step, alive, if_true]

/-- The call has returned at once, the buffer is full, and the sender has a message left. -/
theorem exec_rejected {result : β} {sent rest : List α} (fails : service.enter = some (.error result))
    (full : sent.length = capacity) :
    exec (step service capacity) ⟨sent ++ rest, [], false, .entering⟩ (.enter :: List.replicate capacity .send) =
      some ⟨rest, sent, false, .returned result⟩ := by
  subst full
  have entered : step service sent.length ⟨sent ++ rest, [], false, .entering⟩ .enter =
      some ⟨sent ++ rest, [], false, .returned result⟩ := by simp only [step, fails]
  rw [exec, entered, Option.bind_some, exec_sends rfl (Nat.le_of_eq (Nat.zero_add _)), List.nil_append]

theorem step_full {result : β} {unsent buffer : List α} (left : unsent ≠ []) (full : capacity ≤ buffer.length)
    (action : ChannelAction) : step service capacity ⟨unsent, buffer, false, .returned result⟩ action = none := by
  obtain ⟨message, rest, rfl⟩ := List.exists_cons_of_ne_nil left
  cases action with
  | send => exact if_neg fun free => Nat.not_lt.mpr full free.2
  | _ => rfl

theorem not_finishable_panicked (unsent buffer : List α) :
    ¬ Finishable service capacity ⟨unsent, buffer, false, .panicked⟩ := by
  intro ⟨actions, t, executed, closed⟩
  have still : t.receiver = .panicked ∧ t.closed = false := by
    refine exec_invariant (fun s => s.receiver = .panicked ∧ s.closed = false) ?_ ⟨rfl, rfl⟩ executed
    intro before action after ⟨dead, unclosed⟩ stepped
    cases move_of_step stepped with
    | panic entering _ | reject entering _ | start entering _ => exact nomatch dead.symm.trans entering
    | handOff looping _ _ | receive looping _ | leave looping _ _ => exact nomatch dead.symm.trans looping
    | send _ free => exact ⟨dead, unclosed⟩
    | close _ alive =>
      rw [dead] at alive
      exact nomatch alive
  rw [still.2] at closed
  cases closed

/-- If the call returns at once, its sender gets no further than the buffer. -/
theorem Ordered.rejected {result : β} (ordered : Ordered service capacity messages s)
    (fails : service.enter = some (.error result)) : s.receiver.alive ∧ (s.buffer ++ s.unsent) = messages := by
  obtain ⟨taken, parts, reached⟩ := ordered.taken
  cases receiver : s.receiver with
  | entering =>
    rw [receiver] at reached
    obtain rfl : taken = [] := reached
    exact ⟨rfl, parts⟩
  | looping state | stuck =>
    rw [receiver] at reached
    obtain ⟨first, started, -⟩ := reached
    rw [fails] at started
    cases started
  | panicked =>
    rw [receiver] at reached
    exact nomatch fails.symm.trans reached
  | returned other =>
    rw [receiver] at reached
    rcases reached with ⟨-, rfl⟩ | ⟨first, -, started, -⟩
    · exact ⟨rfl, parts⟩
    · rw [fails] at started
      cases started

/-- If the loop is entered and no message keeps it, the sender can go on from everywhere. -/
theorem Ordered.finishable {first after : ρ} (ordered : Ordered service capacity messages s)
    (starts : service.enter = some (.ok first)) (ends : messages.foldlM service.take first = some after) :
    Finishable service capacity s := by
  obtain ⟨unsent, buffer, closed, receiver⟩ := s
  obtain ⟨⟨taken, parts, reached⟩, -, -, drained⟩ := ordered
  simp only at parts reached
  subst parts
  rw [List.foldlM_append] at ends
  cases receiver with
  | entering =>
    obtain rfl : taken = [] := reached
    refine .of_step (t := ⟨unsent, buffer, closed, .looping first⟩) .enter ?_ (finishable_looping ends)
    simp only [step, starts]
  | looping state =>
    obtain ⟨other, started, folded⟩ := reached
    obtain rfl : first = other := Except.ok.inj (Option.some.inj (starts.symm.trans started))
    rw [folded] at ends
    exact finishable_looping ends
  | stuck =>
    obtain ⟨other, started, folded⟩ := reached
    obtain rfl : first = other := Except.ok.inj (Option.some.inj (starts.symm.trans started))
    rw [folded] at ends
    cases ends
  | panicked => exact nomatch starts.symm.trans reached
  | returned result =>
    rcases drained result rfl with fails | done
    · exact nomatch starts.symm.trans fails
    · exact ⟨[], _, rfl, done.closed⟩

theorem drained_iff : (∀ actions s result, exec (step service capacity) ⟨messages, [], false, .entering⟩ actions = some s →
      s.receiver = .returned result → Drained s) ↔ ∀ result, service.enter ≠ some (.error result) := by
  constructor
  · intro drained result fails
    have early : exec (step service capacity) ⟨messages, [], false, .entering⟩ [.enter] =
        some ⟨messages, [], false, .returned result⟩ := by simp only [exec, step, fails, Option.bind_some]
    cases (drained _ _ result early rfl).closed
  · intro never actions s result executed returned
    exact ((ordered_exec executed).drained result returned).resolve_left (never result)

theorem finishable_iff (ends : ∀ first, service.enter = some (.ok first) → (messages.foldlM service.take first).isSome) :
    (∀ actions s, exec (step service capacity) ⟨messages, [], false, .entering⟩ actions = some s →
      Finishable service capacity s) ↔
      (∃ first, service.enter = some (.ok first)) ∨
        (∃ result, service.enter = some (.error result)) ∧ messages.length ≤ capacity := by
  cases entered : service.enter with
  | none =>
    have early : exec (step service capacity) ⟨messages, [], false, .entering⟩ [.enter] =
        some ⟨messages, [], false, .panicked⟩ := by simp only [exec, step, entered, Option.bind_some]
    constructor
    · intro finishable
      exact absurd (finishable _ _ early) (not_finishable_panicked _ _)
    · rintro (⟨_, impossible⟩ | ⟨⟨_, impossible⟩, _⟩) <;> cases impossible
  | some outcome =>
    cases outcome with
    | ok first =>
      obtain ⟨after, folded⟩ := Option.isSome_iff_exists.mp (ends first entered)
      constructor
      · intro _
        exact .inl ⟨first, rfl⟩
      · intro _ actions s executed
        exact (ordered_exec executed).finishable entered folded
    | error result =>
      constructor
      · intro finishable
        obtain ⟨actions, t, executed, closed⟩ := finishable [] _ rfl
        have ordered := ordered_exec executed
        have all := (ordered.rejected entered).2
        rw [ordered.closed closed, List.append_nil] at all
        exact .inr ⟨⟨result, rfl⟩, all ▸ ordered.room⟩
      · rintro (⟨_, started⟩ | ⟨_, fits⟩) actions s executed
        · cases started
        · obtain ⟨alive, all⟩ := (ordered_exec executed).rejected entered
          exact finishable_alone alive (all ▸ fits)

end Run

end Channel
end Literaft.Library
