import Literaft.GateClose
import Mathlib.Data.List.Nodup

/-! A call of `Close` returns after the last goroutine of the gate has ended, and none begins later.
From then on nobody follows the leadership, so `ready` stays what it was. -/

namespace Literaft.Proofs.GateClose
open Library Literaft.GateClose
open Leadership (Drain)

section Gate
variable {g next : Leadership.State} {action : Leadership.Action}

/-- An action changes no drain but its own, and a watcher that waits goes on only by receiving. -/
theorem gate_cases (stepped : Leadership.step g action = some next) :
    ((drainOf action).elim (next.drains = g.drains) fun d => ∃ pc, next.drains = Function.update g.drains d pc) ∧
    (g.watch = .idle → action ≠ .receive → next.watch = .idle) := by
  cases action with
  | elect term log | stepDown term | observe term | post | apply | checkState p | checkLeader p | checkReady p =>
    obtain ⟨-, done⟩ := Option.ite_none_right_eq_some.mp stepped
    cases done
    exact ⟨rfl, fun idle _ => idle⟩
  | receive =>
    simp only [Leadership.step] at stepped
    split at stepped
    · obtain ⟨-, done⟩ := Option.ite_none_right_eq_some.mp stepped
      cases done
      exact ⟨rfl, fun _ other => absurd rfl other⟩
    · cases stepped
  | clear =>
    simp only [Leadership.step] at stepped
    split at stepped
    · next isLeader received =>
      obtain ⟨-, done⟩ := Option.ite_none_right_eq_some.mp stepped
      cases done
      exact ⟨rfl, fun idle _ => absurd (received.symm.trans idle) nofun⟩
    · cases stepped
  | reject p =>
    cases stepped
    exact ⟨rfl, fun idle _ => idle⟩
  | accept p =>
    simp only [Leadership.step] at stepped
    split at stepped
    · obtain ⟨-, done⟩ := Option.ite_none_right_eq_some.mp stepped
      cases done
      exact ⟨rfl, fun idle _ => idle⟩
    · cases stepped
  | spawn d =>
    obtain ⟨⟨cleared, -⟩, done⟩ := Option.ite_none_right_eq_some.mp stepped
    cases done
    exact ⟨⟨_, rfl⟩, fun idle _ => absurd (cleared.symm.trans idle) nofun⟩
  | drainState d | drainTerm d | barrierFailed d | setReady d =>
    simp only [Leadership.step] at stepped
    split at stepped <;> cases stepped <;> exact ⟨⟨_, rfl⟩, fun idle _ => idle⟩
  | barrier d | barrierDone d | lockReady d =>
    simp only [Leadership.step] at stepped
    split at stepped
    · obtain ⟨-, done⟩ := Option.ite_none_right_eq_some.mp stepped
      cases done
      exact ⟨⟨_, rfl⟩, fun idle _ => idle⟩
    · cases stepped
  | readState d | readTerm d =>
    simp only [Leadership.step] at stepped
    split at stepped
    · split at stepped <;> cases stepped <;> exact ⟨⟨_, rfl⟩, fun idle _ => idle⟩
    · cases stepped

theorem gate_quiet (stepped : Leadership.step g action = some next) (watch : g.watch = .idle)
    (drains : ∀ d, g.drains d = .idle) (other : action ≠ .receive) :
    next.watch = .idle ∧ (∀ d, next.drains d = .idle) ∧ next.ready = g.ready := by
  cases action with
  | elect term log | stepDown term | observe term | post | apply | checkState p | checkLeader p | checkReady p =>
    obtain ⟨-, done⟩ := Option.ite_none_right_eq_some.mp stepped
    cases done
    exact ⟨watch, drains, rfl⟩
  | reject p =>
    cases stepped
    exact ⟨watch, drains, rfl⟩
  | accept p =>
    simp only [Leadership.step] at stepped
    split at stepped
    · obtain ⟨-, done⟩ := Option.ite_none_right_eq_some.mp stepped
      cases done
      exact ⟨watch, drains, rfl⟩
    · cases stepped
  | receive => exact absurd rfl other
  | _ => simp [Leadership.step, watch, drains] at stepped

end Gate

/-- The wait group counts the watcher and the drains in `live`. -/
structure Counted (s : State) (live : List Nat) : Prop where
  distinct : live.Nodup
  drains : ∀ d, d ∈ live ↔ s.gate.drains d ≠ .idle
  counts : s.wg = s.watching.toNat + live.length
  watch : s.watching = false → s.gate.watch = .idle
  retrying : ∀ d, s.retrying d = true → s.gate.drains d ≠ .idle
  done : s.onceDone = true → s.wg = 0
  returned : .returned ∈ s.closers → s.onceDone = true

section Step
variable {s t : State} {live : List Nat} {action : Action}

private theorem tally_begins (n : Nat) {pc : Drain} (busy : pc ≠ .idle) : tally n .idle pc = n + 1 := by
  cases pc <;> first | exact absurd rfl busy | rfl

private theorem tally_ends (n : Nat) {pc : Drain} (busy : pc ≠ .idle) : tally n pc .idle = n - 1 := by
  cases pc <;> first | exact absurd rfl busy | rfl

private theorem tally_stays (n : Nat) {pc next : Drain} (busy : pc ≠ .idle) (still : next ≠ .idle) : tally n pc next = n := by
  cases pc <;> cases next <;> first | exact absurd rfl busy | exact absurd rfl still | rfl

private theorem counted_update {before after : Nat → Drain} {d : Nat} {pc : Drain} (distinct : live.Nodup)
    (drains : ∀ d, d ∈ live ↔ before d ≠ .idle) (moved : after = Function.update before d pc) (n : Nat) :
    ∃ live' : List Nat, live'.Nodup ∧ (∀ d, d ∈ live' ↔ after d ≠ .idle) ∧
      tally (n + live.length) (before d) (after d) = n + live'.length := by
  subst moved
  have other {k : Nat} (apart : k ≠ d) : Function.update before d pc k = before k := Function.update_of_ne apart _ _
  rw [Function.update_self]
  by_cases was : before d = .idle <;> by_cases becomes : pc = .idle
  · refine ⟨live, distinct, ?_, ?_⟩
    · intro k
      by_cases same : k = d
      · subst same
        rw [Function.update_self, drains, was, becomes]
      · rw [other same]
        exact drains k
    · rw [was, becomes]
      rfl
  · refine ⟨d :: live, List.nodup_cons.mpr ⟨fun member => (drains d).mp member was, distinct⟩, ?_, ?_⟩
    · intro k
      by_cases same : k = d
      · subst same
        rw [Function.update_self]
        simp [becomes]
      · rw [other same, ← drains k]
        simp [same]
    · rw [was, tally_begins _ becomes, List.length_cons, Nat.add_assoc]
  · have member : d ∈ live := (drains d).mpr was
    refine ⟨live.erase d, distinct.erase d, ?_, ?_⟩
    · intro k
      rw [distinct.mem_erase_iff]
      by_cases same : k = d
      · subst same
        rw [Function.update_self]
        simp [becomes]
      · rw [other same, ← drains k]
        simp [same]
    · have positive := List.length_pos_of_mem member
      rw [becomes, tally_ends _ was, List.length_erase_of_mem member]
      omega
  · refine ⟨live, distinct, ?_, ?_⟩
    · intro k
      by_cases same : k = d
      · subst same
        rw [Function.update_self]
        exact iff_of_true ((drains k).mpr was) becomes
      · rw [other same]
        exact drains k
    · exact tally_stays _ was becomes

theorem Counted.ended (counted : Counted s live) (done : s.onceDone = true) :
    s.watching = false ∧ (∀ d, s.gate.drains d = .idle) ∧ s.gate.watch = .idle := by
  have counts := counted.counts
  rw [counted.done done] at counts
  have both : s.watching.toNat = 0 ∧ live.length = 0 := by omega
  have ended : s.watching = false := by simpa using both.1
  refine ⟨ended, fun d => ?_, counted.watch ended⟩
  by_contra busy
  have member := (counted.drains d).mpr busy
  rw [List.length_eq_zero_iff.mp both.2] at member
  cases member

private theorem unblocked {action : Leadership.Action} {d : Nat} (mine : drainOf action = some d)
    (free : s.blocks action = false) :
    s.retrying d = false := by
  have blocks : s.blocks action = (drainOf action).elim false s.retrying := by cases action <;> first | rfl | cases mine
  rw [blocks, mine] at free
  exact free

private theorem failing_cases {action : Leadership.Action} {d : Nat} (mine : drainOf action = some d) :
    failing action = none ∨ action = .barrierFailed d := by
  cases action with
  | barrierFailed k =>
    cases mine
    exact .inr rfl
  | _ => exact .inl rfl

private theorem retrying_busy {g next : Leadership.State} {action : Leadership.Action} {d : Nat} {retrying : Nat → Bool}
    (stepped : Leadership.step g action = some next) (before : retrying d = false) (mine : drainOf action = some d)
    (after : ((failing action).elim retrying fun d => Function.update retrying d true) d = true) : next.drains d ≠ .idle := by
  obtain steady | rfl := failing_cases mine
  · rw [steady] at after
    cases before.symm.trans after
  · simp only [Leadership.step] at stepped
    split at stepped <;> cases stepped <;> simp [Leadership.State.setDrain]

private theorem retrying_other {action : Leadership.Action} {d k : Nat} {retrying : Nat → Bool} (mine : drainOf action = some d)
    (apart : k ≠ d) (after : ((failing action).elim retrying fun d => Function.update retrying d true) k = true) :
    retrying k = true := by
  obtain steady | rfl := failing_cases mine
  · rw [steady] at after
    exact after
  · simpa [failing, apart] using after

private theorem act_counted {action : Leadership.Action} (counted : Counted s live) (acted : s.act action = some t) :
    ∃ live, Counted t live := by
  unfold State.act at acted
  split at acted
  · cases acted
  next free =>
  obtain ⟨next, stepped, rfl⟩ := Option.map_eq_some_iff.mp acted
  obtain ⟨moves, watches⟩ := gate_cases stepped
  have apart : s.watching = false → action ≠ .receive := by
    rintro stopped rfl
    simp [State.blocks, stopped] at free
  have quiet (done : s.onceDone = true) : ∀ d, next.drains d = .idle := by
    obtain ⟨stopped, drains, watch⟩ := counted.ended done
    exact (gate_quiet stepped watch drains (apart stopped)).2.1
  cases mine : drainOf action with
  | none =>
    rw [mine] at moves
    have steady : failing action = none := by cases action <;> first | rfl | cases mine
    refine ⟨live, counted.distinct, ?_, ?_, fun stopped => watches (counted.watch stopped) (apart stopped), ?_, ?_, counted.returned⟩
    · intro d
      rw [counted.drains]
      simp only [Option.elim_none] at moves
      rw [moves]
    · exact counted.counts
    · intro d retrying
      simp only [Option.elim_none] at moves
      rw [moves]
      rw [steady] at retrying
      exact counted.retrying d retrying
    · exact counted.done
  | some d =>
    rw [mine] at moves
    obtain ⟨pc, moved⟩ := moves
    obtain ⟨live', distinct, drains, counts⟩ := counted_update counted.distinct counted.drains moved s.watching.toNat
    refine ⟨live', distinct, drains, ?_, fun stopped => watches (counted.watch stopped) (apart stopped), ?_, ?_, counted.returned⟩
    · change tally s.wg _ _ = _
      rw [counted.counts]
      exact counts
    · intro k retrying
      by_cases same : k = d
      · subst same
        exact retrying_busy stepped (unblocked mine (by simpa using free)) mine retrying
      · rw [moved, Function.update_of_ne same]
        exact counted.retrying k (retrying_other mine same retrying)
    · intro done
      change tally s.wg _ _ = 0
      rw [(counted.ended done).2.1 d, quiet done d]
      exact counted.done done

private theorem step_counted (counted : Counted s live) (stepped : step s action = some t) : ∃ live, Counted t live := by
  have kept {i : Nat} {closer : Closer} {closers : List Closer} (member : .returned ∈ (closers.set i closer))
      (other : closer ≠ .returned) : Closer.returned ∈ closers := by
    obtain before | rfl := List.mem_or_eq_of_mem_set member
    · exact before
    · exact absurd rfl other
  cases action with
  | gate action => exact act_counted counted stepped
  | stopWatch =>
    obtain ⟨⟨-, watching, idle⟩, done⟩ := Option.ite_none_right_eq_some.mp stepped
    cases done
    have counts := counted.counts
    rw [watching] at counts
    refine ⟨live, counted.distinct, counted.drains, ?_, fun _ => idle, counted.retrying, ?_, counted.returned⟩
    · change s.wg - 1 = false.toNat + live.length
      rw [counts]
      simp
    · intro done
      change s.wg - 1 = 0
      rw [counted.done done]
  | retry d =>
    obtain ⟨-, done⟩ := Option.ite_none_right_eq_some.mp stepped
    cases done
    refine ⟨live, counted.distinct, counted.drains, counted.counts, counted.watch, ?_, counted.done, counted.returned⟩
    intro k retrying
    apply counted.retrying k
    by_cases same : k = d
    · subst same
      simp at retrying
    · simpa [same] using retrying
  | stopDrain d =>
    obtain ⟨⟨-, retrying⟩, done⟩ := Option.ite_none_right_eq_some.mp stepped
    cases done
    have busy := counted.retrying d retrying
    have moved : (s.gate.setDrain d .idle).drains = Function.update s.gate.drains d .idle := rfl
    obtain ⟨live', distinct, drains, counts⟩ := counted_update counted.distinct counted.drains moved s.watching.toNat
    refine ⟨live', distinct, drains, ?_, counted.watch, ?_, ?_, counted.returned⟩
    · change s.wg - 1 = _
      rw [← counts, moved, Function.update_self, tally_ends _ busy, ← counted.counts]
    · intro k still
      by_cases same : k = d
      · subst same
        simp at still
      · rw [moved, Function.update_of_ne same]
        exact counted.retrying k (by simpa [same] using still)
    · intro done
      change s.wg - 1 = 0
      rw [counted.done done]
  | close =>
    cases stepped
    refine ⟨live, counted.distinct, counted.drains, counted.counts, counted.watch, counted.retrying, counted.done, ?_⟩
    intro member
    obtain before | new := List.mem_append.mp member
    · exact counted.returned before
    · cases List.mem_singleton.mp new
  | enter i =>
    obtain ⟨-, entered⟩ := Option.ite_none_right_eq_some.mp stepped
    split at entered
    · cases entered
      exact ⟨live, counted.distinct, counted.drains, counted.counts, counted.watch, counted.retrying, counted.done,
        fun member => counted.returned (kept member nofun)⟩
    · obtain ⟨stopped, done⟩ := Option.ite_none_right_eq_some.mp entered
      cases done
      exact ⟨live, counted.distinct, counted.drains, counted.counts, counted.watch, counted.retrying, counted.done,
        fun _ => stopped⟩
  | closeStop i =>
    obtain ⟨-, done⟩ := Option.ite_none_right_eq_some.mp stepped
    cases done
    exact ⟨live, counted.distinct, counted.drains, counted.counts, counted.watch, counted.retrying, counted.done,
      fun member => counted.returned (kept member nofun)⟩
  | waited i =>
    obtain ⟨⟨-, zero⟩, done⟩ := Option.ite_none_right_eq_some.mp stepped
    cases done
    exact ⟨live, counted.distinct, counted.drains, counted.counts, counted.watch, counted.retrying, fun _ => zero,
      fun _ => rfl⟩

end Step

def Ended (ready : Bool) (s : State) : Prop :=
  s.watching = false ∧ (∀ d, s.gate.drains d = .idle) ∧ s.gate.watch = .idle ∧ (∀ d, s.retrying d = false) ∧
    s.gate.ready = ready

theorem ended_step {ready : Bool} {s t : State} {action : Action} (ended : Ended ready s) (stepped : step s action = some t) :
    Ended ready t := by
  obtain ⟨watching, drains, watch, retrying, kept⟩ := ended
  cases action with
  | gate action =>
    simp only [step, State.act] at stepped
    split at stepped
    · cases stepped
    next free =>
    obtain ⟨next, moved, rfl⟩ := Option.map_eq_some_iff.mp stepped
    have apart : action ≠ .receive := by
      rintro rfl
      simp [State.blocks, watching] at free
    obtain ⟨watch', drains', ready'⟩ := gate_quiet moved watch drains apart
    have steady : failing action = none := by
      cases action with
      | barrierFailed d => simp [Leadership.step, drains] at moved
      | _ => rfl
    refine ⟨watching, drains', watch', ?_, ready'.trans kept⟩
    intro d
    rw [steady]
    exact retrying d
  | stopWatch => simp [step, watching] at stepped
  | retry d => simp [step, retrying] at stepped
  | stopDrain d => simp [step, retrying] at stepped
  | close =>
    cases stepped
    exact ⟨watching, drains, watch, retrying, kept⟩
  | enter i =>
    obtain ⟨-, entered⟩ := Option.ite_none_right_eq_some.mp stepped
    split at entered
    · cases entered
      exact ⟨watching, drains, watch, retrying, kept⟩
    · obtain ⟨-, done⟩ := Option.ite_none_right_eq_some.mp entered
      cases done
      exact ⟨watching, drains, watch, retrying, kept⟩
  | closeStop i =>
    obtain ⟨-, done⟩ := Option.ite_none_right_eq_some.mp stepped
    cases done
    exact ⟨watching, drains, watch, retrying, kept⟩
  | waited i =>
    obtain ⟨-, done⟩ := Option.ite_none_right_eq_some.mp stepped
    cases done
    exact ⟨watching, drains, watch, retrying, kept⟩

/-- When any call of `Close` has returned, the watcher and every drain have ended, none begins
later, and `ready` keeps the value it has, whatever raft does. -/
theorem close_waits {actions later : List Action} {s t : State} (executed : exec step {} actions = some s)
    (returned : .returned ∈ s.closers) (continued : exec step s later = some t) :
    t.watching = false ∧ (∀ d, t.gate.drains d = .idle) ∧ t.gate.ready = s.gate.ready := by
  have start : Counted {} [] :=
    ⟨List.nodup_nil, fun d => by simp, rfl, nofun, nofun, nofun, nofun⟩
  obtain ⟨live, counted⟩ : ∃ live, Counted s live :=
    exec_invariant (fun s => ∃ live, Counted s live) (fun _ _ _ => fun ⟨_, counted⟩ => step_counted counted) ⟨[], start⟩ executed
  obtain ⟨watching, drains, watch⟩ := counted.ended (counted.returned returned)
  have retrying : ∀ d, s.retrying d = false := by
    intro d
    cases still : s.retrying d with
    | false => rfl
    | true => exact absurd (drains d) (counted.retrying d still)
  have ended : Ended s.gate.ready t := exec_invariant (Ended s.gate.ready) (fun _ _ _ => ended_step)
    ⟨watching, drains, watch, retrying, rfl⟩ continued
  exact ⟨ended.1, ended.2.1, ended.2.2.2.2⟩

/-- A node drained in term 1 is closed by two callers at once. -/
def closedReady : List Action :=
  [.gate (.elect 1 0), .gate .post, .gate .receive, .gate .clear, .gate (.spawn 0), .gate (.drainState 0),
    .gate (.drainTerm 0), .gate (.barrierFailed 0), .close, .close, .enter 1, .retry 0, .gate (.drainState 0),
    .gate (.drainTerm 0), .gate (.barrier 0), .closeStop 1, .gate .apply, .stopWatch, .gate (.barrierDone 0),
    .gate (.lockReady 0), .gate (.readState 0), .gate (.readTerm 0), .gate (.setReady 0), .waited 1, .enter 0]

/-- Elected again with four entries to apply, the closed gate lets a proposal past at once. -/
def reelected : List Action :=
  [.gate (.stepDown 2), .gate .post, .gate (.elect 3 5), .gate .post, .gate (.checkState 0), .gate (.checkLeader 0),
    .gate (.checkReady 0)]

theorem close_waits_reelected : ∃ s t, exec step {} closedReady = some s ∧ s.closers = [.returned, .returned] ∧
    exec step s reelected = some t ∧ t.gate.proposers 0 = .ready 3 ∧ t.gate.drained 3 = false ∧ t.gate.applied < t.gate.elected ∧
    t.watching = false ∧ (∀ d, t.gate.drains d = .idle) ∧ t.gate.ready = s.gate.ready :=
  ⟨_, _, rfl, rfl, rfl, rfl, rfl, by decide,
    @close_waits closedReady reelected _ _ rfl (List.mem_cons_self ..) rfl⟩

end Literaft.Proofs.GateClose
