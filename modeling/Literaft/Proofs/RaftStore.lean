import Literaft.RaftStore
import Literaft.Proofs.RaftSqlite

/-! The whole store against its two maps, and what a dump of a store shows of them. -/

namespace Literaft.Proofs.RaftStore
open Library Literaft.RaftSqlite Literaft.RaftStore Proofs.RaftSqlite

variable {driver : Driver}

private theorem bind_nonempty {slice : Option Bytes} (some_ : slice.getD [] ≠ []) : driver.bind slice = some (slice.getD []) := by
  have same := driver.faithful slice
  cases bound : driver.bind slice with
  | none =>
    rw [bound] at same
    exact absurd same.symm some_
  | some bytes =>
    rw [bound] at same
    rw [← same]
    rfl

theorem select_upsert (t : Stable) (key other value : Bytes) :
    (t.upsert (some key) value).select (some other) = if other = key then some value else t.select (some other) := by
  unfold Stable.upsert Stable.select
  simp only [Option.bind_some]
  by_cases same : other = key
  · subst same
    simp
  · have differs : ¬ key = other := fun equal => same equal.symm
    rw [if_neg same, List.find?_cons_of_neg (by simpa using differs), List.find?_filter]
    congr 2
    funext entry
    by_cases here : entry.1 = some other <;> simp [here, same]

private theorem select_upsert_null (t : Stable) (key value : Bytes) : (t.upsert none value).select (some key) = t.select
    (some key) := by
  unfold Stable.upsert Stable.select
  rw [Option.bind_some, Option.bind_some, List.find?_cons_of_neg (by simp)]

/-- The table holds what the map does under every key but the empty one, which a driver may write as
NULL. -/
def Keeps (t : Stable) (m : Maps) : Prop := ∀ key, key ≠ [] → t.select (some key) = m.stable key

section Run
variable {s : Store} {m : Maps} {calls : List StoreCall}

private theorem keeps_set {t : Stable} {key val : Option Bytes} {fault : Option String} (keeps : Keeps t m) :
    Keeps (set driver t key val fault).1
      (if (set driver t key val fault).2.isSome then m else m.put (key.getD []) (val.getD [])) := by
  unfold Literaft.RaftStore.set
  cases fault with
  | some err => exact keeps
  | none =>
    cases bound : driver.bind val with
    | none => exact keeps
    | some value =>
      have stored := driver.faithful val
      have named := driver.faithful key
      rw [bound, Option.getD_some] at stored
      intro other nonempty
      simp only [Option.isSome_none, Bool.false_eq_true, if_false, Maps.put, ← stored, ← named]
      cases driver.bind key with
      | none =>
        rw [select_upsert_null, Option.getD_none, if_neg nonempty]
        exact keeps other nonempty
      | some bytes =>
        rw [select_upsert, Option.getD_some]
        split
        · rfl
        · exact keeps other nonempty

private theorem keeps_step {call : StoreCall} (keeps : Keeps s.stable m) :
    Keeps (step driver (s, m) call).1.stable (step driver (s, m) call).2 := by
  cases call with
  | log call =>
    change Keeps s.stable (if (call.run driver s.logs).2.isSome then m else { m with logs := call.apply m.logs })
    split
    · exact keeps
    · exact keeps
  | set key val fault => exact keeps_set keeps
  | setUint64 key val fault => exact keeps_set keeps

private theorem keeps_run (driver : Driver) (calls : List StoreCall) : Keeps (run driver calls).1.stable
    (run driver calls).2 := by
  have all (state : Store × Maps) (keeps : Keeps state.1.stable state.2) :
      Keeps (calls.foldl (RaftStore.step driver) state).1.stable (calls.foldl (RaftStore.step driver) state).2 := by
    induction calls generalizing state with
    | nil => exact keeps
    | cons call rest ih => exact ih _ (keeps_step keeps)
  exact all _ fun _ _ => rfl

private theorem represents_step {call : StoreCall} (represents : Represents driver s.logs m.logs) (bounded : call.Bounded) :
    Represents driver (step driver (s, m) call).1.logs (step driver (s, m) call).2.logs := by
  cases call with
  | log call =>
    have kept : Represents driver (RaftSqlite.step driver (s.logs, m.logs) call).1
        (RaftSqlite.step driver (s.logs, m.logs) call).2 := represents.step bounded
    simp only [RaftSqlite.step] at kept
    change Represents driver (call.run driver s.logs).1
      (if (call.run driver s.logs).2.isSome then m else { m with logs := call.apply m.logs }).logs
    rw [apply_ite Maps.logs]
    exact kept
  | set key val fault =>
    change Represents driver s.logs
      (if (RaftStore.set driver s.stable key val fault).2.isSome then m else m.put (key.getD []) (val.getD [])).logs
    rw [apply_ite Maps.logs, Maps.put, ite_self]
    exact represents
  | setUint64 key val fault =>
    change Represents driver s.logs
      (if (RaftStore.setUint64 driver s.stable key val fault).2.isSome then m else m.put (key.getD []) (be64 val)).logs
    rw [apply_ite Maps.logs, Maps.put, ite_self]
    exact represents

private theorem represents_calls (bounded : ∀ call ∈ calls, call.Bounded) :
    Represents driver (run driver calls).1.logs (run driver calls).2.logs := by
  have all (state : Store × Maps) (calls : List StoreCall) (represents : Represents driver state.1.logs state.2.logs)
      (bounded : ∀ call ∈ calls, call.Bounded) :
      Represents driver (calls.foldl (RaftStore.step driver) state).1.logs (calls.foldl (RaftStore.step driver) state).2.logs := by
    induction calls generalizing state with
    | nil => exact represents
    | cons call rest ih =>
      rw [List.forall_mem_cons] at bounded
      exact ih _ (represents_step represents bounded.1) bounded.2
  exact all _ calls (@represents_run driver [] fun _ member => (by cases member)) bounded

end Run

/-- After any calls on the store, for the logs and for the keys, `Get` returns the value last set
for a key that is not empty, and the error that raft knows for one never set. A number set with
`SetUint64` comes back, and only a value of fewer than eight bytes, which `Set` alone can leave, makes
`GetUint64` panic. -/
theorem stable_answers (driver : Driver) (calls : List StoreCall) {key : Option Bytes} (named : key.getD [] ≠ []) :
    get driver (run driver calls).1.stable key =
      (match (run driver calls).2.stable (key.getD []) with
        | none => .error .keyNotFound
        | some val => .ok val) ∧
    (∀ val, (run driver calls).2.stable (key.getD []) = some (be64 val) →
      getUint64 driver (run driver calls).1.stable key = .ok val) ∧
    (getUint64 driver (run driver calls).1.stable key = .error .panic ↔
      ∃ val, (run driver calls).2.stable (key.getD []) = some val ∧ val.length < 8) := by
  have got : get driver (run driver calls).1.stable key =
      (match (run driver calls).2.stable (key.getD []) with
        | none => .error .keyNotFound
        | some val => .ok val) := by
    have selected := keeps_run driver calls _ named
    unfold Literaft.RaftStore.get
    cases stored : (run driver calls).2.stable (key.getD []) with
    | none => simp [bind_nonempty named, selected, stored]
    | some val => simp [bind_nonempty named, selected, stored]
  refine ⟨got, ?_, ?_⟩
  · intro val stored
    rw [getUint64, got, stored]
    have read := beUint64_append [] [] val
    simp only [List.nil_append, List.append_nil, List.length_nil] at read
    simp [read]
  · rw [getUint64, got]
    cases stored : (run driver calls).2.stable (key.getD []) with
    | none => simp
    | some val =>
      simp only [Option.some.injEq, exists_eq_left']
      split <;> simp_all

/-- Raft's keys, one of them set again beside the logs, an empty key, and a value too short for a
number. -/
def terms : List StoreCall :=
  [.setUint64 (some [67]) 4 none, .set none (some [1]) none, .log (.storeLog (entry 1 4 [1]) {}), .set (some [86]) (some [110, 50]) none,
    .setUint64 (some [67]) 5 none, .setUint64 (some [67]) 6 (some "disk I/O error")]

theorem stable_answers_terms : getUint64 plain (run plain terms).1.stable (some [67]) = .ok 5 ∧
    getUint64 plain (run plain terms).1.stable (some [86]) = .error .panic ∧
    get plain (run plain terms).1.stable (some [88]) = .error .keyNotFound :=
  ⟨(@stable_answers plain terms (some [67]) (List.cons_ne_nil _ _)).2.1 5 rfl,
    (@stable_answers plain terms (some [86]) (List.cons_ne_nil _ _)).2.2.mpr ⟨[110, 50], rfl, by decide⟩,
    (@stable_answers plain terms (some [88]) (List.cons_ne_nil _ _)).1⟩

section Dump
variable {t : Table Row} {m : LogMap}

def line (driver : Driver) (m : LogMap) (index : UInt64) : Line :=
  match m index with
  | none => .notFound index
  | some log => .printed (returned driver log)

def between (first last : UInt64) : List UInt64 :=
  (List.range' first.toNat (last.toNat + 1 - first.toNat)).map UInt64.ofNat

private theorem mem_between {first last u : UInt64} : u ∈ between first last ↔ first ≤ u ∧ u ≤ last := by
  have bound := last.toNat_lt
  simp only [between, List.mem_map, List.mem_range'_1, UInt64.le_iff_toNat_le]
  constructor
  · rintro ⟨n, inside, rfl⟩
    rw [UInt64.toNat_ofNat', Nat.mod_eq_of_lt (by omega)]
    omega
  · intro inside
    exact ⟨u.toNat, by omega, UInt64.ofNat_toNat⟩

private theorem between_sorted (first last : UInt64) : (between first last).Pairwise (· < ·) := by
  have bound := last.toNat_lt
  rw [between, List.pairwise_map]
  refine List.Pairwise.imp_of_mem ?_ (List.pairwise_lt_range' (s := first.toNat))
  intro a b left right before
  rw [List.mem_range'_1] at left right
  rw [UInt64.lt_iff_toNat_lt, UInt64.toNat_ofNat', UInt64.toNat_ofNat', Nat.mod_eq_of_lt (by omega), Nat.mod_eq_of_lt (by omega)]
  exact before

private theorem between_cons {idx last : UInt64} (inside : idx ≤ last) (room : last.toNat + 1 < 2 ^ 64) :
    between idx last = idx :: between (idx + 1) last := by
  rw [UInt64.le_iff_toNat_le] at inside
  have next : (idx + 1).toNat = idx.toNat + 1 := by
    rw [UInt64.toNat_add, UInt64.toNat_one]
    omega
  have more : last.toNat + 1 - idx.toNat = last.toNat + 1 - (idx.toNat + 1) + 1 := by omega
  rw [between, between, next, more, List.range'_succ, List.map_cons, UInt64.ofNat_toNat]

private theorem dumpFrom_line {last idx : UInt64} {fuel : Nat} (represents : Represents driver t m)
    (room : last.toNat + 1 < 2 ^ 64)
    (enough : last.toNat + 1 - idx.toNat < fuel) :
    dumpFrom t last fuel idx = some ((between idx last).map (line driver m), none) := by
  induction fuel generalizing idx with
  | zero => omega
  | succ fuel ih =>
    rw [dumpFrom]
    split
    · next past =>
      rw [UInt64.lt_iff_toNat_lt] at past
      have none_ : last.toNat + 1 - idx.toNat = 0 := by omega
      rw [between, none_]
      rfl
    · next reached =>
      have inside : idx ≤ last := UInt64.not_lt.mp reached
      have later : last.toNat + 1 - (idx + 1).toNat < fuel := by
        rw [UInt64.le_iff_toNat_le] at inside
        rw [UInt64.toNat_add, UInt64.toNat_one]
        omega
      rw [between_cons inside room, List.map_cons, ih later]
      cases stored : m idx with
      | none =>
        rw [represents.missing stored, line, stored]
        rfl
      | some log =>
        rw [represents.found stored, line, stored]
        rfl

end Dump

def Line.log : Line → Option Log
  | .printed log => some log
  | _ => none

private theorem logs_line (m : LogMap) (indexes : List UInt64) :
    (indexes.map (line driver m)).filterMap Line.log = (indexes.filterMap m).map (returned driver) := by
  rw [List.filterMap_map, List.map_filterMap]
  congr 1
  funext index
  simp only [Function.comp_apply, line]
  cases m index <;> rfl

private theorem last_small {t : Table Row} {m : LogMap} (represents : Represents driver t m) (some_ : lastIndex t ≠ 0) :
    (lastIndex t).toNat < 2 ^ 63 := by
  have held : ∃ i, (m i).isSome := by
    by_contra empty
    refine some_ (represents.empty fun i => ?_).2
    exact Option.not_isSome_iff_eq_none.mp fun here => empty ⟨i, here⟩
  obtain ⟨i, here⟩ := held
  obtain ⟨log, stored⟩ := Option.isSome_iff_exists.mp (represents.last i here).1
  exact (represents.logs _ log stored).2.1

private theorem dump_lines {t : Table Row} {m : LogMap} {fuel : Nat} (represents : Represents driver t m)
    (some_ : lastIndex t ≠ 0)
    (enough : (lastIndex t).toNat + 2 ≤ fuel) :
    dump t fuel = some ((between (firstIndex t) (lastIndex t)).map (line driver m), none) := by
  have small := last_small represents some_
  rw [dump, if_neg some_]
  exact dumpFrom_line represents (by omega) (by omega)

/-- With enough fuel `raftlogdump` comes to an end without an error, and shows every log of the
store once, in the order of their indexes. A store whose only log has index 0 counts as empty. -/
theorem dump_shows_logs (driver : Driver) {calls : List StoreCall} (bounded : ∀ call ∈ calls, call.Bounded)
    (some_ : lastIndex (run driver calls).1.logs ≠ 0) :
    ∃ indexes : List UInt64, ∃ lines, indexes.Pairwise (· < ·) ∧ (∀ i, ((run driver calls).2.logs i).isSome → i ∈ indexes) ∧
      lines.filterMap Line.log = (indexes.filterMap (run driver calls).2.logs).map (returned driver) ∧
      ∃ enough, ∀ fuel, enough ≤ fuel → dump (run driver calls).1.logs fuel = some (lines, none) := by
  have represents : Represents driver (run driver calls).1.logs (run driver calls).2.logs := represents_calls bounded
  refine ⟨between (firstIndex (run driver calls).1.logs) (lastIndex (run driver calls).1.logs), _, between_sorted _ _, ?_,
    logs_line _ _, _, fun fuel enough => dump_lines represents some_ enough⟩
  intro i held
  exact mem_between.mpr ⟨(represents.first i held).2, (represents.last i held).2⟩

/-- A gap in the log, and a log that was stored twice. -/
def gap : List StoreCall :=
  [.set (some []) (some [1]) none, .log (.storeLogs [entry 3 1 [3], entry 4 1 [4], entry 5 1 [5]] {}), .log (.deleteRange 4 4 none),
    .log (.storeLog (entry 3 2 [6]) {})]

theorem dump_shows_logs_gap : (∀ call ∈ gap, call.Bounded) ∧ lastIndex (run plain gap).1.logs = 5 ∧
    dump (run plain gap).1.logs 9 = some ([.printed (entry 3 2 [6]), .notFound 4, .printed (entry 5 1 [5])], none) ∧
    ∃ lines enough, ∀ fuel, enough ≤ fuel → dump (run plain gap).1.logs fuel = some (lines, none) := by
  have bounded : ∀ call ∈ gap, call.Bounded := by
    simp only [gap, List.forall_mem_cons, List.not_mem_nil, false_implies, implies_true, and_true, StoreCall.Bounded,
      Call.Bounded, entry]
    decide
  refine ⟨bounded, by decide, by decide, ?_⟩
  obtain ⟨_, lines, _, _, _, enough, ends⟩ := dump_shows_logs plain bounded (by decide)
  exact ⟨lines, enough, ends⟩

end Literaft.Proofs.RaftStore
