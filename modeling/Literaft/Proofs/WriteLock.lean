import Literaft.WriteLock
import Mathlib.Data.List.Basic

/-! The token of the write lock is always in exactly one place: in the channel, or with one
goroutine. That goroutine alone has a say in the operating system's lock, and whatever it does
next brings the token closer to the channel. -/

namespace Literaft.Proofs.WriteLock
open Library Literaft.WriteLock

/-- How a goroutine goes on, with the channel and the operating system's lock before and after. -/
inductive Turn : Phase → Nat → Owner → Phase → Nat → Owner → Prop where
  | stay {phase n os} : Turn phase n os phase n os
  | take {n os} : Turn .waiting (n + 1) os .locking n os
  | giveUp {n os} : Turn .waiting n os .failed n os
  | lock {n os} : os ≠ .other → Turn .locking n os .held n .appender
  | fail {n os} : Turn .locking n os .returning n os
  | giveBack {n os} : Turn .returning n os .failed (n + 1) os
  | release {n os} : Turn .held n os .releasing n os
  | unlock {n os os'} : os' = os ∨ os' = .free → Turn .releasing n os .unlocked n os'
  | send {n os} : Turn .unlocked n os .sent (n + 1) os
  | finish {n os} : Turn .sent n os .released n os

inductive Move (s : State) : State → Prop where
  | acquire (c : Caller) : c.phase = .waiting → Move s { s with callers := s.callers ++ [c] }
  | turn {i : Nat} {c d : Caller} {n : Nat} {os : Owner} : s.callers[i]? = some c →
      Turn c.phase s.lockCh s.os d.phase n os → Move s ⟨n, os, s.callers.set i d⟩
  | otherLocks : s.os = .free → Move s { s with os := .other }
  | otherUnlocks : s.os = .other → Move s { s with os := .free }

section Move
variable {s t : State} {action : Action} {i : Nat} {c : Caller}

private theorem release_turn {d : Caller} (released : c.release = some d) (n : Nat) (os : Owner) :
    Turn c.phase n os d.phase n os := by
  unfold Caller.release at released
  split at released
  · next held =>
    cases released
    rw [held]
    exact .release
  · cases released
    exact .stay
  · cases released

private theorem caller_move (found : s.callers[i]? = some c) (stepped : c.step s i action = some t) : Move s t := by
  have stays : Move s s := by
    have same : s.callers.set i c = s.callers := by
      obtain ⟨inside, rfl⟩ := List.getElem?_eq_some_iff.mp found
      exact List.set_getElem_self inside
    have move : Move s ⟨s.lockCh, s.os, s.callers.set i c⟩ := .turn found .stay
    rwa [same] at move
  cases action with
  | acquireWriteLock ctx begun => cases stepped
  | otherLocks => cases stepped
  | otherUnlocks => cases stepped
  | cancel k =>
    simp only [Caller.step] at stepped
    split at stepped <;> cases stepped
    exact .turn found .stay
  | takeToken k =>
    simp only [Caller.step] at stepped
    split at stepped <;> cases stepped
    next free =>
    obtain ⟨n, some_⟩ := Nat.exists_eq_succ_of_ne_zero (Nat.ne_of_gt free.2)
    refine .turn found ?_
    rw [free.1, some_]
    exact .take
  | giveUp k =>
    simp only [Caller.step] at stepped
    split at stepped <;> cases stepped
    next waits => exact .turn found (waits.1 ▸ .giveUp)
  | lock k =>
    simp only [Caller.step] at stepped
    split at stepped <;> cases stepped
    next free => exact .turn found (free.1 ▸ .lock free.2)
  | poll k =>
    simp only [Caller.step] at stepped
    split at stepped <;> cases stepped
    exact stays
  | lockFails k =>
    simp only [Caller.step] at stepped
    split at stepped <;> cases stepped
    next tries => exact .turn found (tries.1 ▸ .fail)
  | returnToken k =>
    simp only [Caller.step] at stepped
    split at stepped <;> cases stepped
    next fails => exact .turn found (fails.1 ▸ .giveBack)
  | release k =>
    obtain ⟨d, released, rfl⟩ := Option.map_eq_some_iff.mp stepped
    exact .turn found (release_turn released _ _)
  | releaseHeldApply k =>
    simp only [Caller.step] at stepped
    split at stepped
    · cases stepped
    split at stepped
    · cases stepped
      exact stays
    · obtain ⟨d, released, rfl⟩ := Option.map_eq_some_iff.mp stepped
      exact .turn found (release_turn released _ _)
  | unlock k done =>
    simp only [Caller.step] at stepped
    split at stepped <;> cases stepped
    next marked =>
    refine .turn found (marked ▸ .unlock ?_)
    split
    · exact .inr rfl
    · exact .inl rfl
  | sendToken k =>
    simp only [Caller.step] at stepped
    split at stepped <;> cases stepped
    next waits => exact .turn found (waits.1 ▸ .send)
  | finish k =>
    simp only [Caller.step] at stepped
    split at stepped <;> cases stepped
    next sent => exact .turn found (sent ▸ .finish)

theorem move_of_step (stepped : step s action = some t) : Move s t := by
  unfold step at stepped
  split at stepped
  · cases stepped
    exact .acquire _ rfl
  · split at stepped <;> cases stepped
    exact .otherLocks ‹_›
  · split at stepped <;> cases stepped
    exact .otherUnlocks ‹_›
  · obtain ⟨i, -, stepped⟩ := Option.bind_eq_some_iff.mp stepped
    obtain ⟨c, found, stepped⟩ := Option.bind_eq_some_iff.mp stepped
    exact caller_move found stepped

end Move

def token (c : Caller) : Bool :=
  match c.phase with
  | .locking | .returning | .held | .releasing | .unlocked => true
  | _ => false

def acquiring (s : State) : Nat := s.callers.countP Caller.acquiring

def unreleased (s : State) : Nat := s.callers.countP Caller.unreleased

def releasing (s : State) : Nat := s.callers.countP Caller.releasing

private theorem countP_token (s : State) : s.callers.countP token = acquiring s + unreleased s + releasing s := by
  unfold acquiring unreleased releasing
  induction s.callers with
  | nil => rfl
  | cons c rest ih =>
    have one : (if token c then 1 else 0) = (if c.acquiring then 1 else 0) + (if c.unreleased then 1 else 0) +
        if c.releasing then 1 else 0 := by
      obtain ⟨phase, ctx, begun, once⟩ := c
      cases phase <;> rfl
    rw [List.countP_cons, List.countP_cons, List.countP_cons, List.countP_cons, ih, one]
    omega

/-- The token is in one place, and the operating system's lock is the appender's as long as a
lock is held or has not been given up. -/
structure Conserved (s : State) : Prop where
  total : s.lockCh + s.callers.countP token = 1
  owner : ∀ (i : Nat) (c : Caller), s.callers[i]? = some c → c.phase = .held ∨ c.phase = .releasing → s.os = .appender

section Run
variable {s t : State} {i j : Nat} {c d e : Caller} {n : Nat} {os : Owner}

theorem Conserved.unique (conserved : Conserved s) (first : s.callers[i]? = some c) (second : s.callers[j]? = some e)
    (one : token c = true) (two : token e = true) : i = j := by
  have total := conserved.total
  exact index_unique (by omega) first second one two

theorem Conserved.empty (conserved : Conserved s) (found : s.callers[i]? = some c) (has : token c = true) : s.lockCh = 0 := by
  have total := conserved.total
  have some_ := List.countP_pos_iff.mpr ⟨c, List.mem_of_getElem? found, has⟩
  omega

private theorem token_of_owning (owning : c.phase = .held ∨ c.phase = .releasing) : token c = true := by
  unfold token
  rcases owning with same | same <;> rw [same]

theorem Turn.total (turn : Turn c.phase s.lockCh s.os d.phase n os) :
    n + (if token d then 1 else 0) = s.lockCh + if token c then 1 else 0 := by
  obtain ⟨phase, ctx, begun, once⟩ := c
  obtain ⟨next, ctx', begun', once'⟩ := d
  obtain ⟨tokens, owner, callers⟩ := s
  simp only at turn
  cases turn with
  | stay => rfl
  | _ => simp [token]

theorem Turn.owner (turn : Turn c.phase s.lockCh s.os d.phase n os)
    (before : c.phase = .held ∨ c.phase = .releasing → s.os = .appender) (owning : d.phase = .held ∨ d.phase = .releasing) :
    os = .appender := by
  obtain ⟨phase, ctx, begun, once⟩ := c
  obtain ⟨next, ctx', begun', once'⟩ := d
  obtain ⟨tokens, owner, callers⟩ := s
  simp only at turn before owning
  cases turn with
  | lock _ => rfl
  | stay => exact before owning
  | release => exact before (.inl rfl)
  | _ => simp at owning

theorem Turn.others (turn : Turn c.phase s.lockCh s.os d.phase n os) (before : s.os = .appender) :
    os = .appender ∨ token c = true := by
  obtain ⟨phase, ctx, begun, once⟩ := c
  obtain ⟨next, ctx', begun', once'⟩ := d
  obtain ⟨tokens, owner, callers⟩ := s
  simp only at turn before
  cases turn with
  | lock _ => exact .inl rfl
  | unlock _ => exact .inr rfl
  | _ => exact .inl before

theorem Conserved.turn (conserved : Conserved s) (found : s.callers[i]? = some c)
    (turn : Turn c.phase s.lockCh s.os d.phase n os) : Conserved ⟨n, os, s.callers.set i d⟩ := by
  refine ⟨?_, fun j e other owning => ?_⟩
  · have counts := countP_set_add (p := token) found d
    have moved := turn.total
    have total := conserved.total
    simp only
    omega
  · by_cases same : i = j
    · subst same
      obtain ⟨inside, -⟩ := List.getElem?_eq_some_iff.mp found
      rw [List.getElem?_set_self inside] at other
      cases other
      exact turn.owner (conserved.owner i c found) owning
    · rw [List.getElem?_set_ne same] at other
      rcases turn.others (conserved.owner j e other owning) with kept | has
      · exact kept
      · exact absurd (conserved.unique found other has (token_of_owning owning)) same

theorem Conserved.move (conserved : Conserved s) (move : Move s t) : Conserved t := by
  cases move with
  | acquire c waits =>
    have none_ : token c = false := by rw [token, waits]
    refine ⟨?_, fun j e found owning => ?_⟩
    · rw [List.countP_append, List.countP_singleton, none_]
      exact conserved.total
    · rcases Nat.lt_or_ge j s.callers.length with old | new
      · rw [List.getElem?_append_left old] at found
        exact conserved.owner j e found owning
      · rw [List.getElem?_append_right new] at found
        have mem := List.mem_of_getElem? found
        rw [List.mem_singleton.mp mem, waits] at owning
        simp at owning
  | turn found turn => exact conserved.turn found turn
  | otherLocks free =>
    refine ⟨conserved.total, fun j e found owning => ?_⟩
    have held := conserved.owner j e found owning
    rw [free] at held
    cases held
  | otherUnlocks taken =>
    refine ⟨conserved.total, fun j e found owning => ?_⟩
    have held := conserved.owner j e found owning
    rw [taken] at held
    cases held

private theorem conserved_exec {actions : List Action} (executed : exec step ⟨1, os, []⟩ actions = some s) : Conserved s :=
  exec_invariant Conserved (fun _ _ _ conserved stepped => conserved.move (move_of_step stepped))
    ⟨rfl, fun _ _ found => by simp at found⟩ executed

end Run

section Progress
variable {s t : State} {i j : Nat} {c e : Caller} {n : Nat}

/-- Some run from here lets goroutine `j` have the lock. -/
def Obtains (s : State) (j : Nat) : Prop :=
  ∃ actions t c, exec step s actions = some t ∧ t.callers[j]? = some c ∧ c.phase = .held

theorem Obtains.of_step (action : Action) (stepped : step s action = some t) (later : Obtains t j) : Obtains s j := by
  obtain ⟨actions, last, c, executed, found, held⟩ := later
  exact ⟨action :: actions, last, c, by rw [exec, stepped]; exact executed, found, held⟩

/-- Another process that has the operating system's lock can give it up. -/
theorem obtains_ready (ready : ∀ s : State, s.lockCh = n → s.callers = t.callers → s.os ≠ .other → Obtains s j)
    (same : t.lockCh = n) : Obtains t j := by
  by_cases taken : t.os = .other
  · refine .of_step .otherUnlocks (if_pos taken) (ready _ same rfl ?_)
    exact fun impossible => (nomatch impossible)
  · exact ready t same rfl taken

private theorem apart_of_phase (here : s.callers[i]? = some e) (there : s.callers[j]? = some c) (differ : e.phase ≠ c.phase) :
    i ≠ j := by
  rintro rfl
  rw [here] at there
  cases there
  exact differ rfl

private theorem step_lock (here : s.callers[i]? = some e) (locking : e.phase = .locking) (ready : s.os ≠ .other) :
    step s (.lock i) = some { s.put i { e with phase := .held } with os := .appender } := by
  simp only [step, Action.caller, Option.bind_some, here, Caller.step]
  exact if_pos ⟨locking, ready⟩

private theorem obtains_free (free : s.lockCh = 1) (there : s.callers[j]? = some c) (waits : c.phase = .waiting) :
    Obtains s j := by
  obtain ⟨inside, -⟩ := List.getElem?_eq_some_iff.mp there
  refine obtains_ready (n := 1) (fun s one same ready => ?_) free
  rw [← same] at there inside
  have taken : step s (.takeToken j) = some { s.put j { c with phase := .locking } with lockCh := s.lockCh - 1 } := by
    simp only [step, Action.caller, Option.bind_some, there, Caller.step]
    exact if_pos ⟨waits, by omega⟩
  have mine : (s.callers.set j { c with phase := .locking })[j]? = some { c with phase := .locking } :=
    List.getElem?_set_self inside
  refine .of_step _ taken (.of_step _ (step_lock mine rfl ready) ⟨[], _, { c with phase := .held }, rfl, ?_, rfl⟩)
  have still : j < (s.callers.set j { c with phase := .locking }).length := by rwa [List.length_set]
  exact List.getElem?_set_self still

private theorem step_returnToken (empty : s.lockCh = 0) (here : s.callers[i]? = some e) (phase : e.phase = .returning) :
    step s (.returnToken i) = some { s.put i { e with phase := .failed } with lockCh := s.lockCh + 1 } := by
  simp only [step, Action.caller, Option.bind_some, here, Caller.step]
  exact if_pos ⟨phase, by rw [empty]; decide⟩

private theorem step_sendToken (empty : s.lockCh = 0) (here : s.callers[i]? = some e) (phase : e.phase = .unlocked) :
    step s (.sendToken i) = some { s.put i { e with phase := .sent } with lockCh := s.lockCh + 1 } := by
  simp only [step, Action.caller, Option.bind_some, here, Caller.step]
  exact if_pos ⟨phase, by rw [empty]; decide⟩

private theorem obtains_returning (empty : s.lockCh = 0) (here : s.callers[i]? = some e) (phase : e.phase = .returning)
    (there : s.callers[j]? = some c) (waits : c.phase = .waiting) : Obtains s j := by
  have apart : i ≠ j := apart_of_phase here there (by rw [phase, waits]; decide)
  refine .of_step _ (step_returnToken empty here phase) (obtains_free (by simp only [empty]) ?_ waits)
  exact (List.getElem?_set_ne apart).trans there

private theorem obtains_unlocked (empty : s.lockCh = 0) (here : s.callers[i]? = some e) (phase : e.phase = .unlocked)
    (there : s.callers[j]? = some c) (waits : c.phase = .waiting) : Obtains s j := by
  have apart : i ≠ j := apart_of_phase here there (by rw [phase, waits]; decide)
  refine .of_step _ (step_sendToken empty here phase) (obtains_free (by simp only [empty]) ?_ waits)
  exact (List.getElem?_set_ne apart).trans there

private theorem obtains_releasing (empty : s.lockCh = 0) (here : s.callers[i]? = some e) (phase : e.phase = .releasing)
    (there : s.callers[j]? = some c) (waits : c.phase = .waiting) : Obtains s j := by
  have apart : i ≠ j := apart_of_phase here there (by rw [phase, waits]; decide)
  obtain ⟨inside, -⟩ := List.getElem?_eq_some_iff.mp here
  have stepped : step s (.unlock i false) = some (s.put i { e with phase := .unlocked }) := by
    simp only [step, Action.caller, Option.bind_some, here, Caller.step, Bool.false_eq_true, false_and, if_false]
    exact if_pos phase
  refine .of_step _ stepped (@obtains_unlocked _ i j c { e with phase := .unlocked } empty ?_ rfl ?_ waits)
  · exact List.getElem?_set_self inside
  · exact (List.getElem?_set_ne apart).trans there

private theorem obtains_held (empty : s.lockCh = 0) (here : s.callers[i]? = some e) (phase : e.phase = .held)
    (there : s.callers[j]? = some c) (waits : c.phase = .waiting) : Obtains s j := by
  have apart : i ≠ j := apart_of_phase here there (by rw [phase, waits]; decide)
  obtain ⟨inside, -⟩ := List.getElem?_eq_some_iff.mp here
  have stepped : step s (.release i) = some (s.put i { e with phase := .releasing }) := by
    simp only [step, Action.caller, Option.bind_some, here, Caller.step, Caller.release, phase, Option.map_some]
  refine .of_step _ stepped (@obtains_releasing _ i j c { e with phase := .releasing } empty ?_ rfl ?_ waits)
  · exact List.getElem?_set_self inside
  · exact (List.getElem?_set_ne apart).trans there

private theorem obtains_locking (empty : s.lockCh = 0) (here : s.callers[i]? = some e) (phase : e.phase = .locking)
    (there : s.callers[j]? = some c) (waits : c.phase = .waiting) : Obtains s j := by
  have apart : i ≠ j := apart_of_phase here there (by rw [phase, waits]; decide)
  refine obtains_ready (n := 0) (fun s zero same ready => ?_) empty
  rw [← same] at here there
  obtain ⟨inside, -⟩ := List.getElem?_eq_some_iff.mp here
  refine .of_step _ (step_lock here phase ready) (@obtains_held _ i j c { e with phase := .held } zero ?_ rfl ?_ waits)
  · exact List.getElem?_set_self inside
  · exact (List.getElem?_set_ne apart).trans there

/-- Wherever the token is, a goroutine that waits for the lock can still get it. -/
theorem Conserved.obtains (conserved : Conserved s) (there : s.callers[j]? = some c) (waits : c.phase = .waiting) :
    Obtains s j := by
  have total := conserved.total
  by_cases free : s.lockCh = 1
  · exact obtains_free free there waits
  · have empty : s.lockCh = 0 := by omega
    obtain ⟨e, member, has⟩ := List.countP_pos_iff.mp (show 0 < s.callers.countP token by omega)
    obtain ⟨i, here⟩ := List.getElem?_of_mem member
    unfold token at has
    split at has
    · exact obtains_locking empty here ‹_› there waits
    · exact obtains_returning empty here ‹_› there waits
    · exact obtains_held empty here ‹_› there waits
    · exact obtains_releasing empty here ‹_› there waits
    · exact obtains_unlocked empty here ‹_› there waits
    · cases has

end Progress

/-- In every run the token is in exactly one place. So at most one lock is not released, the
appender has the operating system's lock then, no send of the token blocks, and the lock can be
acquired again whatever has failed before. -/
theorem token_conserved {os : Owner} {actions : List Action} {s : State} (executed : exec step ⟨1, os, []⟩ actions = some s) :
    s.lockCh + acquiring s + unreleased s + releasing s = 1 ∧
      (∀ (i j : Nat) (c d : Caller), s.callers[i]? = some c → s.callers[j]? = some d → c.phase = .held → d.phase = .held → i = j) ∧
      (∀ (i : Nat) (c : Caller), s.callers[i]? = some c →
        (c.phase = .held → s.os = .appender) ∧
        (c.phase = .returning → ∃ t, step s (.returnToken i) = some t ∧ t.lockCh = 1) ∧
        (c.phase = .unlocked → ∃ t, step s (.sendToken i) = some t ∧ t.lockCh = 1) ∧
        (c.phase = .waiting → Obtains s i)) := by
  have conserved := conserved_exec executed
  have total := conserved.total
  have token_held {c : Caller} (held : c.phase = .held) : token c = true := token_of_owning (.inl held)
  refine ⟨?_, fun i j c d first second one two => ?_, fun i c found => ⟨fun held => ?_, fun returning => ?_, fun unlocked => ?_,
    conserved.obtains found⟩⟩
  · rw [countP_token] at total
    omega
  · exact conserved.unique first second (token_held one) (token_held two)
  · exact conserved.owner i c found (.inl held)
  · have has : token c = true := by rw [token, returning]
    have empty := conserved.empty found has
    exact ⟨_, step_returnToken empty found returning, by simp only [empty]⟩
  · have has : token c = true := by rw [token, unlocked]
    have empty := conserved.empty found has
    exact ⟨_, step_sendToken empty found unlocked, by simp only [empty]⟩

/-- One goroutine gives up while it polls a lock that another process has, one releases its lock
twice, and one has its lock through `BeginHeldApply` and is in `Release`. -/
def contended : List Action :=
  [.otherLocks, .acquireWriteLock .live false, .takeToken 0, .poll 0, .acquireWriteLock .background false, .cancel 0, .lockFails 0,
    .returnToken 0, .otherUnlocks, .takeToken 1, .lock 1, .release 1, .unlock 1 true, .sendToken 1, .finish 1, .release 1,
    .acquireWriteLock .live true, .takeToken 2, .lock 2, .acquireWriteLock .background false, .releaseHeldApply 2]

theorem token_conserved_contended : ∃ s, exec step ⟨1, .free, []⟩ contended = some s ∧
    s.lockCh + acquiring s + unreleased s + releasing s = 1 ∧ releasing s = 1 ∧ Obtains s 3 := by
  have executed : exec step ⟨1, .free, []⟩ contended = some ⟨0, .appender, [⟨.failed, .cancelled, false, false⟩,
      ⟨.released, .background, false, false⟩, ⟨.releasing, .live, true, true⟩, ⟨.waiting, .background, false, false⟩]⟩ := by decide
  obtain ⟨total, -, callers⟩ := token_conserved executed
  exact ⟨_, executed, total, rfl, (callers 3 _ rfl).2.2.2 rfl⟩

end Literaft.Proofs.WriteLock
