import Literaft.RaftSqlite
import Mathlib.Tactic.Ring

/-! The log store against the map it stands for. The two hold the same indexes, and a log comes
back as it was stored unless its time does not fit into 64-bit nanoseconds. -/

namespace Literaft.Proofs.RaftSqlite
open Library Literaft.RaftSqlite

section Numbers

private theorem wrap64_eq_self_iff {value : Int} : wrap64 value = value ↔ -2 ^ 63 ≤ value ∧ value < 2 ^ 63 := by
  unfold wrap64 Int.bmod
  norm_num
  omega

private theorem int64_small {u : UInt64} (small : u.toNat < 2 ^ 63) : int64 u = u.toNat :=
  wrap64_eq_self_iff.mpr (by omega)

private theorem int64_large {u : UInt64} (large : ¬ u.toNat < 2 ^ 63) : int64 u < 0 := by
  have bound := u.toNat_lt
  unfold int64 wrap64 Int.bmod
  norm_num
  omega

private theorem uint64_toNat (u : UInt64) : uint64 u.toNat = u := by
  have bound := u.toNat_lt
  have same : ((u.toNat : Int) % 2 ^ 64).toNat = u.toNat := by omega
  rw [uint64, same, UInt64.ofNat_toNat]

private theorem toNat_uint64 {key : Int} (positive : 0 ≤ key) (small : key < 2 ^ 63) : ((uint64 key).toNat : Int) = key := by
  rw [uint64, UInt64.toNat_ofNat']
  omega

private theorem uint8_toNat (b : UInt8) : UInt8.ofNat ((b.toNat : Int) % 256).toNat = b := by
  have bound := b.toNat_lt
  have same : ((b.toNat : Int) % 256).toNat = b.toNat := by omega
  rw [same, UInt8.ofNat_toNat]

private theorem nanos_unix (nsec : Int) : (Time.unix nsec).nanos = nsec := by
  simp only [Time.nanos, Time.unix]
  omega

private theorem unix_nanos (t : Time) : Time.unix t.nanos = t := by
  obtain ⟨sec, nsec, valid⟩ := t
  simp only [Time.unix, Time.nanos, Time.mk.injEq]
  omega

private theorem unix_unixNano_iff (t : Time) : Time.unix t.unixNano = t ↔ t.InRange := by
  rw [Time.InRange, ← wrap64_eq_self_iff]
  constructor
  · intro same
    have nanos := congrArg Time.nanos same
    rwa [nanos_unix] at nanos
  · intro same
    rw [Time.unixNano, same, unix_nanos]

end Numbers

variable {driver : Driver} {t : Table Row} {m : LogMap}

/-- The table holds the rows of the map's logs and no others. -/
structure Represents (driver : Driver) (t : Table Row) (m : LogMap) : Prop where
  rows : ∀ u : UInt64, u.toNat < 2 ^ 63 → t.select u.toNat = (m u).map (row driver)
  keys : ∀ key, (t.select key).isSome → 0 ≤ key ∧ key < 2 ^ 63
  logs : ∀ u log, m u = some log → log.index = u ∧ u.toNat < 2 ^ 63 ∧ log.term.toNat < 2 ^ 63

theorem Represents.store {log : Log} (represents : Represents driver t m) (index : log.index.toNat < 2 ^ 63)
    (term : log.term.toNat < 2 ^ 63) : Represents driver (t.upsert (int64 log.index) (row driver log)) (m.store log) := by
  rw [int64_small index]
  refine ⟨fun u small => ?_, fun key present => ?_, fun u other stored => ?_⟩
  · rw [Table.select_upsert, LogMap.store]
    by_cases same : u = log.index
    · rw [if_pos same, if_pos (by rw [same]), Option.map_some]
    · have apart : ¬ (u.toNat : Int) = log.index.toNat := fun equal => same (UInt64.toNat_inj.mp (by exact_mod_cast equal))
      rw [if_neg same, if_neg apart, represents.rows u small]
  · rw [Table.select_upsert] at present
    split at present
    · omega
    · exact represents.keys key present
  · rw [LogMap.store] at stored
    split at stored
    · next same =>
      cases stored
      exact ⟨same.symm, same ▸ index, term⟩
    · exact represents.logs u other stored

theorem Represents.execLogs {fault : Option (Nat × String)} {logs : List Log} {changed : Table Row} {i : Nat}
    (represents : Represents driver t m) (bounded : ∀ log ∈ logs, log.index.toNat < 2 ^ 63 ∧ log.term.toNat < 2 ^ 63)
    (done : execLogs driver fault i t logs = .ok changed) : Represents driver changed (logs.foldl LogMap.store m) := by
  induction logs generalizing t m i with
  | nil =>
    cases done
    exact represents
  | cons log rest ih =>
    obtain ⟨index, term⟩ := bounded log List.mem_cons_self
    have next := represents.store index term
    have later := fun other member => bounded other (List.mem_cons_of_mem log member)
    rw [List.foldl_cons]
    simp only [Literaft.RaftSqlite.execLogs] at done
    split at done
    · split at done
      · cases done
      · exact ih next later done
    · exact ih next later done

theorem Represents.storeLogs {logs : List Log} {faults : StoreFaults} (represents : Represents driver t m)
    (bounded : ∀ log ∈ logs, log.index.toNat < 2 ^ 63 ∧ log.term.toNat < 2 ^ 63) :
    Represents driver (storeLogs driver t logs faults).1
      (if (storeLogs driver t logs faults).2.isSome then m else logs.foldl LogMap.store m) := by
  unfold Literaft.RaftSqlite.storeLogs
  split
  · exact represents
  · exact represents
  · split
    · exact represents
    · exact represents
    · next done _ => exact represents.execLogs bounded done

theorem Represents.deleteRange {min max : UInt64} {fault : Option String} (represents : Represents driver t m)
    (low : min.toNat < 2 ^ 63) (high : max.toNat < 2 ^ 63) :
    Represents driver (deleteRange t min max fault).1
      (if (deleteRange t min max fault).2.isSome then m else m.deleteRange min max) := by
  unfold Literaft.RaftSqlite.deleteRange
  split
  · exact represents
  · simp only [Option.isSome_none, Bool.false_eq_true, if_false, int64_small low, int64_small high]
    refine ⟨fun u small => ?_, fun key present => ?_, fun u log stored => ?_⟩
    · rw [Table.select_deleteBetween, LogMap.deleteRange, represents.rows u small]
      have same : (min.toNat : Int) ≤ u.toNat ∧ (u.toNat : Int) ≤ max.toNat ↔ min ≤ u ∧ u ≤ max := by
        rw [UInt64.le_iff_toNat_le, UInt64.le_iff_toNat_le]
        omega
      by_cases inside : min ≤ u ∧ u ≤ max
      · rw [if_pos inside, if_pos (same.mpr inside), Option.map_none]
      · rw [if_neg inside, if_neg fun between => inside (same.mp between)]
    · rw [Table.select_deleteBetween] at present
      split at present
      · cases present
      · exact represents.keys key present
    · rw [LogMap.deleteRange] at stored
      split at stored
      · cases stored
      · exact represents.logs u log stored

theorem Represents.step {call : Call} (represents : Represents driver t m) (bounded : call.Bounded) :
    Represents driver (step driver (t, m) call).1 (step driver (t, m) call).2 := by
  cases call with
  | storeLogs logs faults => exact represents.storeLogs bounded
  | storeLog log faults => exact represents.storeLogs fun other member => List.mem_singleton.mp member ▸ bounded
  | deleteRange min max fault => exact represents.deleteRange bounded.1 bounded.2

theorem Represents.run {state : Table Row × LogMap} {calls : List Call} (represents : Represents driver state.1 state.2)
    (bounded : ∀ call ∈ calls, call.Bounded) :
    Represents driver (calls.foldl (RaftSqlite.step driver) state).1 (calls.foldl (RaftSqlite.step driver) state).2 := by
  induction calls generalizing state with
  | nil => exact represents
  | cons call rest ih =>
    exact ih (represents.step (bounded call List.mem_cons_self)) fun other member => bounded other (List.mem_cons_of_mem call member)

theorem represents_run {calls : List Call} (bounded : ∀ call ∈ calls, call.Bounded) :
    Represents driver (run driver calls).1 (run driver calls).2 := by
  have start : Represents driver [] fun _ => none :=
    ⟨fun _ _ => rfl, fun _ present => (nomatch present), fun _ _ stored => (nomatch stored)⟩
  exact @Represents.run driver ([], fun _ => none) calls start bounded

theorem Represents.key {key : Int} (represents : Represents driver t m) (present : (t.select key).isSome) :
    (m (uint64 key)).isSome ∧ ((uint64 key).toNat : Int) = key := by
  obtain ⟨positive, small⟩ := represents.keys key present
  have same := toNat_uint64 positive small
  have row := represents.rows (uint64 key) (by omega)
  rw [same] at row
  rw [row, Option.isSome_map] at present
  exact ⟨present, same⟩

theorem Represents.present {u : UInt64} (represents : Represents driver t m) (held : (m u).isSome) :
    (t.select u.toNat).isSome := by
  obtain ⟨log, stored⟩ := Option.isSome_iff_exists.mp held
  obtain ⟨-, small, -⟩ := represents.logs u log stored
  rw [represents.rows u small, Option.isSome_map]
  exact held

theorem Represents.first (represents : Represents driver t m) (u : UInt64) (held : (m u).isSome) :
    (m (firstIndex t)).isSome ∧ firstIndex t ≤ u := by
  have present := represents.present held
  unfold Literaft.RaftSqlite.firstIndex
  cases least : t.minKey with
  | none =>
    rw [Table.minKey_eq_none_iff.mp least] at present
    cases present
  | some key =>
    obtain ⟨here, below⟩ := Table.minKey_eq_some_iff.mp least
    obtain ⟨indexed, same⟩ := represents.key here
    have order := below u.toNat present
    refine ⟨indexed, UInt64.le_iff_toNat_le.mpr ?_⟩
    rw [Option.getD_some]
    omega

theorem Represents.last (represents : Represents driver t m) (u : UInt64) (held : (m u).isSome) :
    (m (lastIndex t)).isSome ∧ u ≤ lastIndex t := by
  have present := represents.present held
  unfold Literaft.RaftSqlite.lastIndex
  cases greatest : t.maxKey with
  | none =>
    rw [Table.maxKey_eq_none_iff.mp greatest] at present
    cases present
  | some key =>
    obtain ⟨here, above⟩ := Table.maxKey_eq_some_iff.mp greatest
    obtain ⟨indexed, same⟩ := represents.key here
    have order := above u.toNat present
    refine ⟨indexed, UInt64.le_iff_toNat_le.mpr ?_⟩
    rw [Option.getD_some]
    omega

theorem Represents.empty (represents : Represents driver t m) (none_ : ∀ i, m i = none) : firstIndex t = 0 ∧ lastIndex t = 0 := by
  have nothing (key : Int) : t.select key = none := by
    cases present : t.select key with
    | none => rfl
    | some r =>
      have held := (represents.key (by rw [present]; rfl : (t.select key).isSome)).1
      rw [none_] at held
      cases held
  rw [RaftSqlite.firstIndex, RaftSqlite.lastIndex, Table.minKey_eq_none_iff.mpr nothing, Table.maxKey_eq_none_iff.mpr nothing]
  exact ⟨rfl, rfl⟩

theorem Represents.missing {u : UInt64} (represents : Represents driver t m) (none_ : m u = none) :
    getLog t u = .error .logNotFound := by
  have nothing : t.select (int64 u) = none := by
    by_cases small : u.toNat < 2 ^ 63
    · rw [int64_small small, represents.rows u small, none_, Option.map_none]
    · have negative := int64_large small
      by_contra present
      have key := represents.keys _ (Option.isSome_iff_ne_none.mpr present)
      omega
  rw [getLog, nothing]

def returned (driver : Driver) (log : Log) : Log :=
  { log with data := driver.bind log.data, extensions := driver.bind log.extensions, appendedAt := Time.unix log.appendedAt.unixNano }

theorem Represents.found {u : UInt64} {log : Log} (represents : Represents driver t m) (stored : m u = some log) :
    getLog t u = .ok (returned driver log) := by
  obtain ⟨rfl, small, term⟩ := represents.logs u log stored
  have selected : t.select (int64 log.index) = some (row driver log) := by
    rw [int64_small small, represents.rows _ small, stored, Option.map_some]
  have number : (row driver log).term = log.term.toNat := by
    simp only [row]
    exact int64_small term
  have positive : ¬ (row driver log).term < 0 := by omega
  have type : UInt8.ofNat ((row driver log).type % 256).toNat = log.type := uint8_toNat log.type
  simp only [getLog, selected]
  rw [if_neg positive, type, number, uint64_toNat]
  rfl

private theorem same_returned_iff (driver : Driver) (log : Log) : Same (returned driver log) log ↔ log.appendedAt.InRange := by
  rw [← unix_unixNano_iff]
  constructor
  · exact Same.appendedAt
  · exact fun same => ⟨rfl, rfl, rfl, driver.faithful _, driver.faithful _, same⟩

/-- The store answers as the map does, after all calls on indexes and terms below 2⁶³, exactly if
the times of the logs in it can be told in 64-bit nanoseconds. -/
theorem store_answers_iff (driver : Driver) {calls : List Call} (bounded : ∀ call ∈ calls, call.Bounded) :
    Answers (run driver calls).1 (run driver calls).2 ↔
      ∀ i log, (run driver calls).2 i = some log → log.appendedAt.InRange := by
  have represents := @represents_run driver calls bounded
  constructor
  · intro answers i log stored
    obtain ⟨got, returned, same⟩ := answers.found i log stored
    rw [represents.found stored] at returned
    cases returned
    exact (same_returned_iff driver log).mp same
  · intro inRange
    refine ⟨represents.empty, represents.first, represents.last, fun i => represents.missing, fun i log stored => ?_⟩
    exact ⟨_, represents.found stored, (same_returned_iff driver log).mpr (inRange i log stored)⟩

section Origin

def stored : Call → List Log
  | .storeLogs logs _ => logs
  | .storeLog log _ => [log]
  | .deleteRange _ _ _ => []

private theorem foldl_store {logs : List Log} {i : UInt64} {log : Log} (found : logs.foldl LogMap.store m i = some log) :
    m i = some log ∨ log ∈ logs := by
  induction logs generalizing m with
  | nil => exact .inl found
  | cons first rest ih =>
    rcases ih found with before | later
    · rw [LogMap.store] at before
      split at before
      · cases before
        exact .inr List.mem_cons_self
      · exact .inl before
    · exact .inr (List.mem_cons_of_mem first later)

private theorem step_origin {call : Call} {i : UInt64} {log : Log} (found : (step driver (t, m) call).2 i = some log) :
    m i = some log ∨ log ∈ stored call := by
  simp only [step] at found
  split at found
  · exact .inl found
  · cases call with
    | storeLogs logs faults => exact foldl_store found
    | storeLog only faults =>
      have one : [only].foldl LogMap.store m i = some log := found
      exact foldl_store one
    | deleteRange min max fault =>
      simp only [Call.apply, LogMap.deleteRange] at found
      split at found
      · cases found
      · exact .inl found

private theorem run_origin {calls : List Call} {i : UInt64} {log : Log} (found : (run driver calls).2 i = some log) :
    ∃ call ∈ calls, log ∈ stored call := by
  have all (state : Table Row × LogMap) (calls : List Call) (found : (calls.foldl (step driver) state).2 i = some log) :
      state.2 i = some log ∨ ∃ call ∈ calls, log ∈ stored call := by
    induction calls generalizing state with
    | nil => exact .inl found
    | cons call rest ih =>
      rcases ih _ found with before | ⟨other, member, later⟩
      · rcases step_origin before with old | new
        · exact .inl old
        · exact .inr ⟨call, List.mem_cons_self, new⟩
      · exact .inr ⟨other, List.mem_cons_of_mem call member, later⟩
  exact (all _ calls found).resolve_left fun impossible => (nomatch impossible)

end Origin

def plain : Driver := ⟨id, fun _ => rfl⟩

def entry (index term : UInt64) (data : Bytes) : Log := ⟨index, term, 0, some data, none, ⟨1700000000, 5, by decide⟩⟩

/-- Two batches that overlap, one that fails at its second log, and a range taken out. -/
def batches : List Call :=
  [.storeLogs [entry 1 1 [1], entry 2 1 [2], entry 3 1 [3]] {}, .storeLogs [entry 3 2 [4], entry 4 2 [5]] {},
    .storeLogs [entry 5 2 [6], entry 6 2 [7]] { exec := some (1, "disk I/O error") }, .deleteRange 1 2 none]

theorem store_answers_batches : (∀ call ∈ batches, call.Bounded) ∧ firstIndex (run plain batches).1 = 3 ∧
    lastIndex (run plain batches).1 = 4 ∧ Answers (run plain batches).1 (run plain batches).2 := by
  have bounded : ∀ call ∈ batches, call.Bounded := by
    simp only [batches, List.forall_mem_cons, List.not_mem_nil, false_implies, implies_true, and_true, Call.Bounded, entry]
    decide
  refine ⟨bounded, by decide, by decide, (store_answers_iff plain bounded).mpr fun i log found => ?_⟩
  obtain ⟨call, member, here⟩ := run_origin found
  have times : ∀ call ∈ batches, ∀ log ∈ stored call, log.appendedAt.InRange := by
    simp only [batches, stored, List.forall_mem_cons, List.not_mem_nil, false_implies, implies_true, and_true, entry, Time.InRange]
    decide
  exact times call member log here

/-- A log with the zero time comes back with a time of the year 1754, and a range without an end
takes nothing out. -/
theorem zero_time_changed :
    (∃ got, getLog (run plain [.storeLog ⟨1, 1, 0, none, none, Time.zero⟩ {}]).1 1 = .ok got ∧
      got.appendedAt = ⟨-6795364579, 128654848, by decide⟩ ∧ got.appendedAt ≠ Time.zero) ∧
    (run plain [.storeLog (entry 1 1 [1]) {}, .deleteRange 1 0xffffffffffffffff none]).2 1 = none ∧
    getLog (run plain [.storeLog (entry 1 1 [1]) {}, .deleteRange 1 0xffffffffffffffff none]).1 1 = .ok (entry 1 1 [1]) := by
  exact ⟨⟨_, rfl, by decide, by decide⟩, by decide, by decide⟩

end Literaft.Proofs.RaftSqlite
