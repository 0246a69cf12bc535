import Literaft.LogSink

/-! Every line written reaches the channel, in order and whole however the writes are cut, and the
channel gives up no more lines than it has no room for. -/

namespace Literaft.Proofs.LogSink
open Library Literaft.LogSink

/-- The line on its way into the channel. -/
def underway : Pc → List Bytes
  | .pushing line | .full line | .retrying line => [line]
  | _ => []

def dropped (s : State) : Nat := s.taken.countP (·.2 = .dropped)

/-- The lines written are `raw`, without their ends. -/
structure Cut (s : State) (raw : List Bytes) : Prop where
  whole : raw.flatMap (· ++ [newline]) ++ s.partialLine = s.written
  lines : ∀ line ∈ raw, newline ∉ line
  rest : s.pc = .idle → newline ∉ s.partialLine
  order : s.taken.map Prod.fst ++ s.ch ++ underway s.pc = raw.map trimRight

/-- How full the channel has been. After a line was dropped there is one behind it. -/
structure Kept (capacity : Nat) (s : State) : Prop where
  bounded : s.ch.length ≤ capacity
  room : ∀ line, s.pc = .retrying line → s.ch.length < capacity
  lost : s.lost = []
  behind : s.taken.getLast?.map Prod.snd = some .dropped → s.ch ≠ [] ∨ underway s.pc ≠ []
  full : ∀ line, s.pc = .full line → dropped s + capacity ≤ s.taken.length + s.ch.length
  forced : dropped s = 0 ∨ dropped s + capacity ≤ s.taken.length + s.ch.length + (underway s.pc).length

section Step
variable {capacity : Nat} {s t : State} {action : Action}

private theorem findIdx_newline {text : Bytes} {i : Nat} (found : text.findIdx? (· == newline) = some i) :
    text = text.take i ++ newline :: text.drop (i + 1) ∧ newline ∉ text.take i := by
  obtain ⟨inside, here, before⟩ := List.findIdx?_eq_some_iff_getElem.mp found
  constructor
  · rw [← (by simpa using here : text[i] = newline), List.getElem_cons_drop, List.take_append_drop]
  · intro member
    obtain ⟨k, there⟩ := List.mem_iff_getElem?.mp member
    obtain ⟨early, same⟩ := List.getElem?_eq_some_iff.mp there
    rw [List.length_take] at early
    have other := before k (by omega)
    rw [List.getElem_take] at same
    simp [same] at other

theorem Cut.accept {raw : List Bytes} {line : Bytes} (cut : Cut s raw) (sent : underway s.pc = [line]) :
    Cut { s with ch := s.ch ++ [line], pc := .looping } raw := by
  refine ⟨cut.whole, cut.lines, nofun, ?_⟩
  rw [← cut.order, sent]
  simp [underway]

private theorem step_cut {raw : List Bytes} (cut : Cut s raw) (stepped : step capacity s action = some t) (kept : t.lost = []) :
    ∃ raw, Cut t raw := by
  cases action with
  | write p =>
    obtain ⟨idle, done⟩ := Option.ite_none_right_eq_some.mp stepped
    cases done
    refine ⟨raw, ?_, cut.lines, nofun, ?_⟩
    · change raw.flatMap (· ++ [newline]) ++ (s.partialLine ++ p) = s.written ++ p
      rw [← List.append_assoc, cut.whole]
    · have order := cut.order
      rw [idle] at order
      exact order
  | next =>
    obtain ⟨looping, went⟩ := Option.ite_none_right_eq_some.mp stepped
    have order := cut.order
    rw [looping] at order
    split at went
    · next none_ =>
      cases went
      refine ⟨raw, cut.whole, cut.lines, fun _ => ?_, order⟩
      intro member
      have absent := List.findIdx?_eq_none_iff.mp none_ newline member
      simp at absent
    · next i found =>
      cases went
      obtain ⟨parts, clean⟩ := findIdx_newline found
      refine ⟨raw ++ [s.partialLine.take i], ?_, ?_, nofun, ?_⟩
      · rw [← cut.whole]
        conv_rhs => rw [parts]
        simp
      · intro line member
        obtain before | new := List.mem_append.mp member
        · exact cut.lines line before
        · rw [List.mem_singleton.mp new]
          exact clean
      · rw [List.map_append, ← order]
        simp [underway]
  | send =>
    simp only [step] at stepped
    split at stepped
    · next line pushing =>
      split at stepped
      · cases stepped
        exact ⟨raw, cut.accept (congrArg underway pushing)⟩
      · cases stepped
        have order := cut.order
        rw [pushing] at order
        exact ⟨raw, cut.whole, cut.lines, nofun, order⟩
    · cases stepped
  | discard =>
    simp only [step] at stepped
    split at stepped
    · next line full =>
      have order := cut.order
      rw [full] at order
      split at stepped
      · next oldest rest front =>
        cases stepped
        refine ⟨raw, cut.whole, cut.lines, nofun, ?_⟩
        rw [← order, front]
        simp [underway]
      · cases stepped
        exact ⟨raw, cut.whole, cut.lines, nofun, order⟩
    · cases stepped
  | resend =>
    simp only [step] at stepped
    split at stepped
    · next line retrying =>
      split at stepped
      · cases stepped
        exact ⟨raw, cut.accept (congrArg underway retrying)⟩
      · cases stepped
        simp at kept
    · cases stepped
  | receive =>
    simp only [step] at stepped
    split at stepped
    · next line rest front =>
      cases stepped
      refine ⟨raw, cut.whole, cut.lines, cut.rest, ?_⟩
      rw [← cut.order, front]
      simp
    · cases stepped

private theorem dropped_le (s : State) : dropped s ≤ s.taken.length := List.countP_le_length

theorem Kept.accept {line : Bytes} (kept : Kept capacity s) (room : s.ch.length < capacity) (sent : underway s.pc = [line]) :
    Kept capacity { s with ch := s.ch ++ [line], pc := .looping } := by
  refine ⟨?_, nofun, kept.lost, fun _ => .inl (by simp), nofun, kept.forced.imp_right fun forced => ?_⟩
  · rw [List.length_append]
    exact room
  · change dropped s + capacity ≤ s.taken.length + (s.ch ++ [line]).length + 0
    rw [sent] at forced
    rw [List.length_append]
    exact forced

theorem step_kept (positive : 0 < capacity) (kept : Kept capacity s) (stepped : step capacity s action = some t) :
    Kept capacity t := by
  have few := dropped_le s
  have bounded := kept.bounded
  have forced := kept.forced
  cases action with
  | write p =>
    obtain ⟨idle, done⟩ := Option.ite_none_right_eq_some.mp stepped
    cases done
    have behind := kept.behind
    rw [idle] at forced behind
    exact ⟨bounded, nofun, kept.lost, behind, nofun, forced⟩
  | next =>
    obtain ⟨looping, went⟩ := Option.ite_none_right_eq_some.mp stepped
    have behind := kept.behind
    rw [looping] at forced behind
    split at went
    · cases went
      exact ⟨bounded, nofun, kept.lost, behind, nofun, forced⟩
    · cases went
      refine ⟨bounded, nofun, kept.lost, fun _ => .inr (List.cons_ne_nil _ _), nofun, ?_⟩
      exact forced.imp_right Nat.le_succ_of_le
  | send =>
    simp only [step] at stepped
    split at stepped
    · next line pushing =>
      split at stepped
      · next room =>
        cases stepped
        exact kept.accept room (congrArg underway pushing)
      · next crowded =>
        cases stepped
        rw [pushing] at forced
        refine ⟨bounded, nofun, kept.lost, fun _ => .inr (List.cons_ne_nil _ _), fun _ _ => ?_, forced⟩
        change dropped s + capacity ≤ s.taken.length + s.ch.length
        omega
    · cases stepped
  | discard =>
    simp only [step] at stepped
    split at stepped
    · next line full =>
      have before := kept.full line full
      split at stepped
      · next oldest rest front =>
        cases stepped
        rw [front, List.length_cons] at before bounded
        refine ⟨Nat.le_of_succ_le bounded, fun _ _ => bounded, kept.lost, fun _ => .inr (List.cons_ne_nil _ _), nofun, .inr ?_⟩
        have more : dropped { s with ch := rest, taken := s.taken ++ [(oldest, .dropped)], pc := .retrying line } = dropped s + 1 := by
          simp [dropped, List.countP_append]
        rw [more]
        change dropped s + 1 + capacity ≤ (s.taken ++ [(oldest, Fate.dropped)]).length + rest.length + 1
        rw [List.length_append, List.length_singleton]
        omega
      · next empty =>
        cases stepped
        refine ⟨bounded, fun _ _ => ?_, kept.lost, fun _ => .inr (List.cons_ne_nil _ _), nofun, .inr (Nat.le_succ_of_le before)⟩
        rw [empty]
        exact positive
    · cases stepped
  | resend =>
    simp only [step] at stepped
    split at stepped
    · next line retrying =>
      split at stepped
      · next room =>
        cases stepped
        exact kept.accept room (congrArg underway retrying)
      · next crowded => exact absurd (kept.room line retrying) crowded
    · cases stepped
  | receive =>
    simp only [step] at stepped
    split at stepped
    · next line rest front =>
      cases stepped
      have full := kept.full
      have room := kept.room
      rw [front, List.length_cons] at bounded
      simp only [front, List.length_cons] at forced full room
      have same : dropped { s with ch := rest, taken := s.taken ++ [(line, .received)] } = dropped s := by
        simp [dropped, List.countP_append]
      refine ⟨Nat.le_of_succ_le bounded, fun waiting pc => Nat.lt_of_succ_lt (room waiting pc), kept.lost, ?_, ?_, ?_⟩
      · intro last
        simp at last
      · intro waiting pc
        rw [same]
        change dropped s + capacity ≤ (s.taken ++ [(line, Fate.received)]).length + rest.length
        rw [List.length_append, List.length_singleton]
        have counted := full waiting pc
        omega
      · rw [same]
        change dropped s = 0 ∨ dropped s + capacity ≤ (s.taken ++ [(line, Fate.received)]).length + rest.length + (underway s.pc).length
        rw [List.length_append, List.length_singleton]
        omega
    · cases stepped

end Step

/-- However the bytes are cut into writes and however the pane keeps up, the lines written get into
the channel whole and in their order, none of them left out. The newest one is never given up: when
no write is under way it is in the channel or has been received. Lines are given up only for want of
room, so that there are none while no more than `capacity` lines have been written. -/
theorem lines_kept {capacity : Nat} (positive : 0 < capacity) {actions : List Action} {s : State}
    (executed : exec (step capacity) {} actions = some s) (idle : s.pc = .idle) :
    (∃ raw : List Bytes, raw.flatMap (· ++ [newline]) ++ s.partialLine = s.written ∧ (∀ line ∈ raw, newline ∉ line) ∧
      newline ∉ s.partialLine ∧ s.taken.map Prod.fst ++ s.ch = raw.map trimRight) ∧
    s.ch.length ≤ capacity ∧ (s.taken.getLast?.map Prod.snd = some .dropped → s.ch ≠ []) ∧
    (dropped s = 0 ∨ dropped s + capacity ≤ s.taken.length + s.ch.length) := by
  have start : Kept capacity {} ∧ ∃ raw, Cut {} raw :=
    ⟨⟨Nat.zero_le _, nofun, rfl, nofun, nofun, .inl rfl⟩, [], rfl, nofun, fun _ => List.not_mem_nil, rfl⟩
  have preserved (before : State) (action : Action) (after : State) (kept : Kept capacity before ∧ ∃ raw, Cut before raw)
      (stepped : step capacity before action = some after) : Kept capacity after ∧ ∃ raw, Cut after raw := by
    obtain ⟨kept, raw, cut⟩ := kept
    have next := step_kept positive kept stepped
    exact ⟨next, step_cut cut stepped next.lost⟩
  obtain ⟨kept, raw, cut⟩ := exec_invariant (fun s => Kept capacity s ∧ ∃ raw, Cut s raw) preserved start executed
  have order := cut.order
  have behind := kept.behind
  have forced := kept.forced
  simp only [idle, underway, List.append_nil, ne_eq, not_true_eq_false, or_false, List.length_nil, Nat.add_zero] at order behind forced
  exact ⟨⟨raw, cut.whole, cut.lines, cut.rest idle, order⟩, kept.bounded, behind, forced⟩

/-- "a\r\n", "b\nc\n" and "d" in two writes, for a channel of two lines. The pane takes a line
after the third found no room, and the second is then dropped though there is room. -/
def crowded : List Action :=
  [.write [97], .next, .write [13, 10, 98, 10, 99, 10, 100], .next, .send, .next, .send, .next, .send, .receive, .discard,
    .resend, .next]

theorem lines_kept_crowded : 0 < logSinkBuffer ∧ ∃ s, exec (step 2) {} crowded = some s ∧
    s.taken = [([97], .received), ([98], .dropped)] ∧ s.ch = [[99]] ∧ s.partialLine = [100] ∧
    (dropped s = 0 ∨ dropped s + 2 ≤ s.taken.length + s.ch.length) :=
  ⟨by decide, _, rfl, rfl, rfl, rfl, (@lines_kept 2 (by decide) crowded _ rfl rfl).2.2.2⟩

end Literaft.Proofs.LogSink
