import Literaft.Proofs.Loans

/-! A snapshot's header carries `lastApplied`, its body what the node shows while SQLite
copies it. They agree unless a transaction waits to be published, or `Apply` has lost the lock
under which it writes. -/

namespace Literaft.Proofs.Snapshots
open Library Fsm Proto Cluster Tracking Visible Loans

variable {ι : Type} [DecidableEq ι] {start : Database Bytes} {s : State ι}

/-- SQLite copies the database only while no consumed transaction waits for its writer. -/
def published (s : State ι) : Action ι → Bool
  | .backup n _ => (s.nodes n).unpublished.isEmpty
  | _ => true

/-- A stream holds the transactions up to its index, all of them committed, and no other. -/
def Faithful (start : Database Bytes) (committed : List (Option Entry)) (streams : List (Nat × Database Bytes)) : Prop :=
  ∀ index db, (index, db) ∈ streams → index ≤ committed.length ∧ db = settled start committed index

theorem Faithful.grow {committed committed' : List (Option Entry)} {streams : List (Nat × Database Bytes)}
    (faithful : Faithful start committed streams) (grown : committed <+: committed') : Faithful start committed' streams := by
  intro index db member
  obtain ⟨inside, content⟩ := faithful index db member
  refine ⟨Nat.le_trans inside grown.length_le, ?_⟩
  rw [settled, take_eq_of_grown grown inside]
  exact content

theorem Applied.faithful {ι : Type} {committed : List (Option Entry)} {authors : Nat → Option (Author ι)}
    {lastApplied applied index : Nat} {db : Database Bytes} {unpublished : List Nat}
    (before : Applied start committed authors lastApplied (.snapshotting index) applied db unpublished)
    (nothing : unpublished = []) : index ≤ committed.length ∧ db = settled start committed index := by
  have last : index = lastChange (committed.take applied) := (before.header index rfl).trans before.stored
  have bound : index ≤ applied := last ▸ Nat.le_trans (lastChange_le _) (List.length_take_le ..)
  refine ⟨Nat.le_trans bound before.reach, (before.shown nothing).trans ?_⟩
  have stops : replay Entry.apply start ((committed.take applied).take (lastChange (committed.take applied))) =
      settled start committed applied := replay_take_lastChange _
  rw [← last, List.take_take, Nat.min_eq_left bound] at stops
  exact stops.symm

theorem faithful_step {action : Action ι} (everywhere : Everywhere start s) (met : published s action = true)
    (enabled : s.enabled action) (faithful : ∀ n, Faithful start s.committed (s.nodes n).streams) (m : ι) :
    Faithful start (s.effect action).committed ((s.effect action).nodes m).streams := by
  have at' {s' : State ι} {n : ι} {node : Node} (nodes : s'.nodes = Function.update s.nodes n node)
      (committed : s'.committed = s.committed) (self : Faithful start s.committed node.streams) :
      Faithful start s'.committed (s'.nodes m).streams := by
    rw [nodes, committed]
    by_cases same : m = n
    · subst same
      simpa using self
    · simpa [same] using faithful m
  cases action with
  | backup n index =>
    refine at' rfl rfl fun index' db member => ?_
    rcases List.mem_cons.mp member with taken | member
    · cases taken
      have applied := (everywhere n).applied
      rw [show (s.nodes n).pc = .snapshotting index from enabled] at applied
      exact Applied.faithful applied (List.isEmpty_iff.mp met)
    · exact faithful n index' db member
  | commit term length => exact (faithful m).grow enabled.2.1
  | dismiss | barrier | drain => exact faithful m
  | apply n e => exact at' rfl rfl (by unfold Node.apply; split <;> exact faithful n)
  | validate n e => exact at' rfl rfl (by unfold Node.validate; split <;> exact faithful n)
  | append n e via written => exact at' rfl rfl (by unfold Node.append; split <;> exact faithful n)
  | serve id base target => exact at' rfl rfl (faithful target)
  | lock n | compute n | mark n | accept n | reject n | forward n | retry n | decline n | lose n | await n | resolve n
  | finish n | publish n | unlock n | check n | take n | refuse n | settle n | release n | skip n | getLoan n | acquire n
  | store n | releaseOwn n | snapshot n | elect n | stepDown n => exact at' rfl rfl (faithful n)

/-- In a run in which SQLite never copies the database while a consumed transaction waits
to be published, and in which no loan ends under an `Apply` that uses it, every snapshot stream
holds exactly the transactions its header says. -/
theorem snapshot_faithful {actions : List (Action ι)}
    (executed : exec (restrict (fun s action => published s action && unhurried s action) State.step) (State.init start)
      actions = some s) (n : ι) :
    Faithful start s.committed (s.nodes n).streams := by
  obtain ⟨-, -, faithful⟩ := exec_everywhere (fun s => ∀ n, Faithful start s.committed (s.nodes n).streams)
    (fun _ _ _ member => by cases member)
    (fun _ everywhere met enabled faithful =>
      faithful_step everywhere (Bool.and_eq_true_iff.mp met).1 enabled faithful) executed
  exact faithful n

/-- The leader of term 1 proposes entry 1, which commits, and `Apply` consumes its marker. -/
def consumed : List (Action Unit) :=
  [.elect () 1 0 0, .lock (), .compute () 1 write, .mark () 1, .accept () 1 1 write, .commit 1 1, .apply () ⟨1, write⟩]

/-- The call returns nil and SQLite publishes the header. -/
def publishes : List (Action Unit) := [.resolve () 1 1 0 true, .finish () 1 true, .publish () 1 write]

def snapshots : List (Action Unit) := [.snapshot (), .backup () 1]

/-- `Apply` comes to its end under the loan, and the handler releases. -/
def stored : List (Action Bool) :=
  [.validate false ⟨1, write⟩, .append false ⟨1, write⟩ .loan 0, .store false ⟨1, write⟩ .loan, .settle false 1 0 1 0 true,
    .release false 1 0 true]

/-- The one is taken by the node that wrote the transaction, the other by a node that applied it
under a loan, after the handler's release. -/
theorem publishes_faithful :
    (∃ s, exec (restrict (fun s action => published s action && unhurried s action) State.step) (State.init empty)
        (consumed ++ publishes ++ snapshots) = some s ∧
      (s.nodes ()).streams.map (fun stream => (stream.1, stream.2.size)) = [(1, 1)] ∧
      Faithful empty s.committed (s.nodes ()).streams) ∧
    ∃ s, exec (restrict (fun s action => published s action && unhurried s action) State.step) (State.init empty)
        (forwarded ++ lending ++ stored ++ [.snapshot false, .backup false 1]) = some s ∧
      (s.nodes false).streams.map (fun stream => (stream.1, stream.2.size)) = [(1, 1)] ∧
      Faithful empty s.committed (s.nodes false).streams := by
  have written : (exec (restrict (fun s action => published s action && unhurried s action) State.step) (State.init empty)
      (consumed ++ publishes ++ snapshots)).map
        (fun s => (s.nodes ()).streams.map fun stream => (stream.1, stream.2.size)) = some [(1, 1)] := rfl
  have lent : (exec (restrict (fun s action => published s action && unhurried s action) State.step) (State.init empty)
      (forwarded ++ lending ++ stored ++ [.snapshot false, .backup false 1])).map
        (fun s => (s.nodes false).streams.map fun stream => (stream.1, stream.2.size)) = some [(1, 1)] := rfl
  obtain ⟨s, executed, streams⟩ := Option.map_eq_some_iff.mp written
  obtain ⟨s', executed', streams'⟩ := Option.map_eq_some_iff.mp lent
  exact ⟨⟨s, executed, streams, snapshot_faithful executed ()⟩, s', executed', streams', snapshot_faithful executed' false⟩

/-- A snapshot between the consumption of the marker and the publication of the header
says that it holds entry 1, and does not. -/
theorem consumed_unfaithful :
    ∃ s, exec State.step (State.init empty) (consumed ++ snapshots) = some s ∧
      (s.nodes ()).streams = [(1, empty)] ∧ s.committed = [some ⟨1, write⟩] ∧
      ¬Faithful empty s.committed (s.nodes ()).streams := by
  have found : (exec State.step (State.init empty) (consumed ++ snapshots)).map
      (fun s => ((s.nodes ()).streams, s.committed)) = some ([(1, empty)], [some ⟨1, write⟩]) := rfl
  obtain ⟨s, executed, summary⟩ := Option.map_eq_some_iff.mp found
  obtain ⟨streams, committed⟩ := Prod.mk.inj summary
  refine ⟨s, executed, streams, committed, fun faithful => ?_⟩
  have content := (faithful 1 empty (by simp [streams])).2
  rw [committed] at content
  exact absurd (congrArg Database.size content) (by decide)

end Literaft.Proofs.Snapshots
