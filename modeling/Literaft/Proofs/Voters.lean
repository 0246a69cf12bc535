import Literaft.Proofs.Membership

/-! Whom the configuration has: what clients ask for, and no more. A node that knows of its removal
stays out, however often it starts again. -/

namespace Literaft.Proofs.Voters
open Library Literaft.Membership Literaft.Proofs.Membership

variable {raft : Raft}

def Asks (s : State) (request : Request) : Prop := ∃ client ∈ s.clients, client.request = request

/-- A client that makes no more calls. -/
def Ended (client : Client) : Prop := client.pc = .done ∨ client.pc = .failed ∨ client.pc = .gone

def Settled (call : Call) : Prop := call.handler ≠ .idle ∧ (call.asked = true → call.made = true)

def begun (s : State) : Action → Option Request
  | .start id bindAddr joinAddr =>
    match starting (s.nodes id).hasState (s.recovered id) id bindAddr joinAddr with
    | .join _ => some (.addVoter id bindAddr)
    | _ => none
  | .leave _ id => some (.removeVoter id)
  | .command _ request => some request
  | _ => none

/-- What a step does to the requests, when it brings up a client for `new`. -/
structure Moves (raft : Raft) (s t : State) (new : Option Request) : Prop where
  asks : ∀ request, Asks s request → Asks t request
  begins : ∀ request, new = some request → Asks t request
  clients : ∀ client ∈ t.clients, new = some client.request ∨
    ∃ old ∈ s.clients, old.request = client.request ∧ (Ended old → Ended client)
  calls : ∀ call ∈ t.calls, (∃ old ∈ s.calls, old.request = call.request ∧ (Settled old → Settled call)) ∨
    ∃ client ∈ s.clients, ¬ Ended client ∧ client.request = call.request
  changes : t.changes = s.changes ∧ (t.history = s.history ∨ s.history = []) ∨
    ∃ request servers, s.history.getLast? = some servers ∧ t.history = s.history ++ [raft.configure servers request] ∧
      t.changes = s.changes ++ [request] ∧ (new = some request ∨ ∃ call ∈ s.calls, ¬ Settled call ∧ call.request = request)
  nodes : ∀ id, (s.nodes id).hasState = true → (t.nodes id).hasState = true ∧
    ∀ k, (s.nodes id).known = some k → ∃ later, (t.nodes id).known = some later ∧ k ≤ later

section Moves
variable {s t : State} {c j : Nat} {call : Call} {client : Client}

private theorem fail_request (client : Client) (err : JoinError) : (client.fail err).request = client.request := by
  unfold Client.fail
  split <;> rfl

private theorem hear_request (client : Client) (res : Except Status Unit) : (client.hear res).request = client.request := by
  cases res with
  | ok => rfl
  | error err =>
    simp only [Client.hear]
    split
    · rfl
    · exact fail_request client _

private theorem stop_request (id : ServerID) (client : Client) : (client.stop id).request = client.request := by
  unfold Client.stop
  split <;> rfl

private theorem stop_ended (id : ServerID) (ended : Ended client) : Ended (client.stop id) := by
  unfold Client.stop
  split
  · exact .inr (.inr rfl)
  · exact ended

private theorem asks_setClient {after : Client} {request : Request} (found : s.clients[j]? = some client)
    (same : after.request = client.request) (asks : Asks s request) : Asks (s.setClient j after) request := by
  obtain ⟨old, member, rfl⟩ := asks
  obtain ⟨i, there⟩ := List.mem_iff_getElem?.mp member
  by_cases which : j = i
  · subst which
    cases found.symm.trans there
    exact ⟨after, List.mem_of_getElem? (List.getElem?_set_self (List.getElem?_eq_some_iff.mp found).1), same⟩
  · exact ⟨old, List.mem_of_getElem? ((List.getElem?_set_ne which).trans there), rfl⟩

private theorem keeps_node (s : State) (id : ServerID) (state : (s.nodes id).hasState = true) :
    (s.nodes id).hasState = true ∧ ∀ k, (s.nodes id).known = some k → ∃ later, (s.nodes id).known = some later ∧ k ≤ later :=
  ⟨state, fun k known => ⟨k, known, Nat.le_refl _⟩⟩

private theorem moves_setClient {after : Client} (found : s.clients[j]? = some client) (same : after.request = client.request)
    (live : ¬ Ended client) : Moves raft s (s.setClient j after) none := by
  refine ⟨fun _ => asks_setClient found same, nofun, ?_, fun call member => .inl ⟨call, member, rfl, id⟩,
    .inl ⟨rfl, .inl rfl⟩, keeps_node s⟩
  · intro other member
    obtain before | rfl := List.mem_or_eq_of_mem_set member
    · exact .inr ⟨other, before, rfl, id⟩
    · exact .inr ⟨client, List.mem_of_getElem? found, same.symm, fun ended => absurd ended live⟩

private theorem moves_send {after : Client} (found : s.clients[j]? = some client) (same : after.request = client.request)
    (live : ¬ Ended client) : Moves raft s ((s.send client.request).setClient j after) none := by
  have moves : Moves raft s (s.setClient j after) none := moves_setClient found same live
  refine ⟨moves.asks, moves.begins, moves.clients, ?_, moves.changes, moves.nodes⟩
  intro call member
  obtain before | new := List.mem_append.mp member
  · exact .inl ⟨call, before, rfl, id⟩
  · rw [List.mem_singleton.mp new]
    exact .inr ⟨client, List.mem_of_getElem? found, live, rfl⟩

private theorem moves_setCall {after : Call} (found : s.calls[c]? = some call) (same : after.request = call.request)
    (settles : Settled call → Settled after) : Moves raft s (s.setCall c after) none := by
  refine ⟨fun _ asks => asks, nofun, fun client member => .inr ⟨client, member, rfl, id⟩, ?_, .inl ⟨rfl, .inl rfl⟩,
    keeps_node s⟩
  · intro other member
    obtain before | rfl := List.mem_or_eq_of_mem_set member
    · exact .inl ⟨other, before, rfl, id⟩
    · exact .inl ⟨call, List.mem_of_getElem? found, same.symm, settles⟩

private theorem moves_forward {after : Call} (found : s.calls[c]? = some call) (same : after.request = call.request)
    (idle : call.handler = .idle) : Moves raft s ((s.send call.request).setCall c after) none := by
  refine ⟨fun _ asks => asks, nofun, fun client member => .inr ⟨client, member, rfl, id⟩, ?_, .inl ⟨rfl, .inl rfl⟩,
    keeps_node s⟩
  · intro other member
    have open_ {next : Call} : Settled call → Settled next := fun settled => (settled.1 idle).elim
    obtain before | rfl := List.mem_or_eq_of_mem_set member
    · obtain old | new := List.mem_append.mp before
      · exact .inl ⟨other, old, rfl, id⟩
      · rw [List.mem_singleton.mp new]
        exact .inl ⟨call, List.mem_of_getElem? found, rfl, open_⟩
    · exact .inl ⟨call, List.mem_of_getElem? found, same.symm, open_⟩

private theorem moves_add (s : State) (client : Client) : Moves raft s { s with clients := s.clients ++ [client] }
    (some client.request) := by
  refine ⟨?_, ?_, ?_, fun call member => .inl ⟨call, member, rfl, id⟩, .inl ⟨rfl, .inl rfl⟩, keeps_node s⟩
  · rintro request ⟨old, member, same⟩
    exact ⟨old, List.mem_append_left _ member, same⟩
  · intro request same
    exact ⟨client, List.mem_append_right _ (List.mem_singleton_self _), Option.some.inj same⟩
  · intro other member
    obtain before | new := List.mem_append.mp member
    · exact .inr ⟨other, before, rfl, id⟩
    · rw [List.mem_singleton.mp new]
      exact .inl rfl

theorem Moves.setNode {new : Option Request} (moves : Moves raft s t new) {id : ServerID} {node : Node}
    (kept : (s.nodes id).hasState = true → node.hasState = true ∧
      ∀ k, (s.nodes id).known = some k → ∃ later, node.known = some later ∧ k ≤ later) :
    Moves raft s (t.setNode id node) new := by
  refine ⟨moves.asks, moves.begins, moves.clients, moves.calls, moves.changes, ?_⟩
  intro other state
  by_cases same : other = id
  · subst same
    simpa [State.setNode] using kept state
  · simpa [State.setNode, same] using moves.nodes other state

private theorem moves_same (s : State) : Moves raft s s none := by
  exact ⟨fun _ asks => asks, nofun, fun client member => .inr ⟨client, member, rfl, id⟩,
    fun call member => .inl ⟨call, member, rfl, id⟩, .inl ⟨rfl, .inl rfl⟩, keeps_node s⟩

private theorem moves_start {id : ServerID} {bindAddr joinAddr : Gate.ServerAddress}
    (started : s.start id bindAddr joinAddr = some t) :
    Moves raft s t (begun s (.start id bindAddr joinAddr)) := by
  unfold State.start at started
  dsimp only at started
  split at started
  · cases started
  unfold begun
  dsimp only
  split at started
  · next servers how =>
    obtain ⟨empty, done⟩ := Option.ite_none_right_eq_some.mp started
    cases done
    have fresh : (s.nodes id).hasState = false := by
      cases state : (s.nodes id).hasState with
      | false => rfl
      | true =>
        rw [state] at how
        unfold starting at how
        split at how
        · contradiction
        · dsimp only at how
          split at how
          · cases how
          · split at how <;> cases how
    rw [how]
    have up : Moves raft s (s.setNode id { running := true, hasState := true, known := some 0 }) none :=
      (moves_same s).setNode fun state => absurd (fresh.symm.trans state) nofun
    exact ⟨up.asks, up.begins, up.clients, up.calls, .inl ⟨rfl, .inr empty⟩, up.nodes⟩
  · next targets how =>
    cases started
    rw [how]
    exact (moves_add s _).setNode (keeps_node s id)
  · next how =>
    cases started
    rw [how]
    exact (moves_same s).setNode (keeps_node s id)
  · next how =>
    cases started
    rw [how]
    exact (moves_same s).setNode (keeps_node s id)

theorem step_moves {action : Action} (stepped : step raft s action = some t) : Moves raft s t (begun s action) := by
  cases action with
  | start id bindAddr joinAddr => exact moves_start stepped
  | stop id =>
    cases stepped
    have down : Moves raft s (s.setNode id { s.nodes id with running := false }) none := (moves_same s).setNode (keeps_node s id)
    refine ⟨?_, nofun, ?_, down.calls, down.changes, down.nodes⟩
    · rintro request ⟨client, member, same⟩
      exact ⟨client.stop id, List.mem_map_of_mem member, (stop_request id client).trans same⟩
    · intro client member
      obtain ⟨old, before, rfl⟩ := List.mem_map.mp member
      exact .inr ⟨old, before, (stop_request id old).symm, stop_ended id⟩
  | persist id =>
    cases stepped
    exact (moves_same s).setNode fun _ => ⟨rfl, (keeps_node s id ‹_›).2⟩
  | learn id k =>
    obtain ⟨⟨-, later⟩, done⟩ := Option.ite_none_right_eq_some.mp stepped
    cases done
    refine (moves_same s).setNode fun _ => ⟨rfl, fun before known => ⟨k, rfl, ?_⟩⟩
    rw [known] at later
    simpa using later
  | leave addr id =>
    cases stepped
    exact moves_add s _
  | command index request =>
    obtain ⟨-, changed⟩ := Option.ite_none_right_eq_some.mp stepped
    obtain ⟨servers, last, rfl⟩ := change_cases changed
    have up := @moves_add raft s ⟨none, [], request, .done, [], s.changes.length⟩
    exact ⟨up.asks, up.begins, up.clients, up.calls, .inr ⟨request, servers, last, rfl, rfl, .inl rfl⟩, up.nodes⟩
  | dial j fault =>
    obtain ⟨client, found, dialed⟩ := Option.bind_eq_some_iff.mp stepped
    obtain ⟨dialing, went⟩ := Option.ite_none_right_eq_some.mp dialed
    have live : ¬ Ended client := by simp [Ended, dialing]
    cases fault with
    | some err =>
      cases went
      exact moves_setClient found (fail_request client _) live
    | none =>
      cases went
      exact moves_send found rfl live
  | handle c isLeader leader fault =>
    obtain ⟨call, found, handled⟩ := Option.bind_eq_some_iff.mp stepped
    split at handled
    · next idle =>
      have open_ {next : Call} : Settled call → Settled next := fun settled => (settled.1 idle).elim
      split at handled
      · cases handled
        exact moves_setCall found rfl open_
      · split at handled
        · cases handled
          exact moves_setCall found rfl open_
        · cases handled
          exact moves_forward found rfl idle
    · cases handled
  | commit c =>
    obtain ⟨call, found, asked⟩ := Option.bind_eq_some_iff.mp stepped
    obtain ⟨⟨wanted, missing⟩, changed⟩ := Option.ite_none_right_eq_some.mp asked
    obtain ⟨servers, last, rfl⟩ := change_cases changed
    have after : Moves raft s (s.setCall c { call with made := true }) none :=
      moves_setCall found rfl fun settled => ⟨settled.1, fun _ => rfl⟩
    refine ⟨after.asks, after.begins, after.clients, after.calls, .inr ⟨call.request, servers, last, rfl, rfl, .inr ?_⟩, after.nodes⟩
    refine ⟨call, List.mem_of_getElem? found, ?_, rfl⟩
    intro settled
    cases missing.symm.trans (settled.2 wanted)
  | future c err =>
    obtain ⟨call, found, answered⟩ := Option.bind_eq_some_iff.mp stepped
    split at answered
    · obtain ⟨-, done⟩ := Option.ite_none_right_eq_some.mp answered
      cases done
      exact moves_setCall found rfl fun settled => ⟨nofun, settled.2⟩
    · cases answered
      exact moves_setCall found rfl fun settled => ⟨nofun, settled.2⟩
    · cases answered
  | forwarded c =>
    obtain ⟨call, found, passed⟩ := Option.bind_eq_some_iff.mp stepped
    split at passed
    · obtain ⟨res, -, rfl⟩ := Option.map_eq_some_iff.mp passed
      exact moves_setCall found rfl fun settled => ⟨nofun, settled.2⟩
    · cases passed
  | reply c =>
    obtain ⟨call, found, replied⟩ := Option.bind_eq_some_iff.mp stepped
    split at replied
    · cases replied
      exact moves_setCall found rfl fun settled => settled
    · cases replied
  | broken c err =>
    obtain ⟨call, found, broke⟩ := Option.bind_eq_some_iff.mp stepped
    obtain ⟨-, done⟩ := Option.ite_none_right_eq_some.mp broke
    cases done
    exact moves_setCall found rfl fun settled => settled
  | heard j =>
    obtain ⟨client, found, heard⟩ := Option.bind_eq_some_iff.mp stepped
    split at heard
    · next c calling =>
      obtain ⟨res, -, rfl⟩ := Option.map_eq_some_iff.mp heard
      exact moves_setClient found (hear_request client res) (by simp [Ended, calling])
    · cases heard
  | retry j =>
    obtain ⟨client, found, retried⟩ := Option.bind_eq_some_iff.mp stepped
    split at retried
    · next err sleeping =>
      cases retried
      exact moves_send found rfl (by simp [Ended, sleeping])
    · cases retried
  | timeout j =>
    obtain ⟨client, found, ended⟩ := Option.bind_eq_some_iff.mp stepped
    split at ended
    · next err sleeping =>
      cases ended
      exact moves_setClient found (fail_request client _) (by simp [Ended, sleeping])
    · cases ended

end Moves

/-- Calls and changes are for what a client asks. -/
structure Origin (s : State) : Prop where
  calls : ∀ call ∈ s.calls, Asks s call.request
  changes : ∀ request ∈ s.changes, Asks s request

private theorem origin_moves {s t : State} {new : Option Request} (origin : Origin s) (moves : Moves raft s t new) :
    Origin t := by
  constructor
  · intro call member
    obtain ⟨old, before, same, -⟩ | ⟨client, before, -, same⟩ := moves.calls call member
    · exact moves.asks _ (same ▸ origin.calls old before)
    · exact moves.asks _ ⟨client, before, same⟩
  · intro request member
    obtain ⟨same, -⟩ | ⟨made, servers, -, -, same, cause⟩ := moves.changes
    · exact moves.asks _ (origin.changes request (same ▸ member))
    · rw [same] at member
      obtain before | now := List.mem_append.mp member
      · exact moves.asks _ (origin.changes request before)
      · rw [List.mem_singleton.mp now]
        obtain new | ⟨call, before, -, rfl⟩ := cause
        · exact moves.begins _ new
        · exact moves.asks _ (origin.calls call before)

/-- A `Join` or `Leave` that returns without an error has had raft commit what it asked for while it
ran, through however many members and tries, and the configuration so made has the new address or
lacks the server. The other way round, raft commits nothing that no client has asked for, with the
name and the address as the client gave them. -/
theorem membership_sound {actions : List Action} {s : State} (executed : exec (step raft) {} actions = some s) :
    (∀ client ∈ s.clients, client.pc = .done → ∃ k before, client.since ≤ k ∧ s.changes[k]? = some client.request ∧
      s.history[k]? = some before ∧ s.history[k + 1]? = some (raft.configure before client.request) ∧
      Holds (raft.configure before client.request) client.request) ∧
    ∀ request ∈ s.changes, ∃ client ∈ s.clients, client.request = request := by
  have start : Sound raft {} ∧ Origin {} := by
    refine ⟨⟨⟨.inr ⟨rfl, rfl⟩, ?_⟩, ?_, ?_⟩, ?_, ?_⟩
    · intro k request found
      cases found
    all_goals
      intro _ member
      cases member
  have preserved (before : State) (action : Action) (after : State) (kept : Sound raft before ∧ Origin before)
      (stepped : step raft before action = some after) : Sound raft after ∧ Origin after :=
    ⟨sound_step kept.1 stepped, origin_moves kept.2 (step_moves stepped)⟩
  obtain ⟨sound, origin⟩ := exec_invariant (fun s => Sound raft s ∧ Origin s) preserved start executed
  refine ⟨?_, origin.changes⟩
  intro client member done
  obtain ⟨k, late, made⟩ := (sound.clients client member).done done
  obtain ⟨before, old, new⟩ := sound.follows.changes k client.request made
  exact ⟨k, before, late, made, old, new, configure_holds raft before _⟩

/-- A voter that is there already gets the new address. -/
def voters : Raft where
  configure servers
    | .addVoter id address =>
      if servers.any (·.id == id) then servers.map fun server => if server.id = id then { server with address } else server
      else servers ++ [⟨id, address⟩]
    | .removeVoter id => servers.filter (·.id != id)
  adds servers id address := by
    dsimp only
    split
    · next there =>
      obtain ⟨old, member, same⟩ := List.any_eq_true.mp there
      refine ⟨List.mem_map.mpr ⟨old, member, ?_⟩, ?_⟩
      · rw [if_pos (by simpa using same), ← (by simpa using same : old.id = id)]
      · intro server member named
        obtain ⟨old, -, rfl⟩ := List.mem_map.mp member
        split at named <;> simp_all
    · next absent =>
      refine ⟨by simp, ?_⟩
      intro server member named
      obtain before | new := List.mem_append.mp member
      · exact absurd (List.any_eq_true.mpr ⟨server, before, by simpa using named⟩) absent
      · rw [List.mem_singleton.mp new]
  removes servers id := by
    intro server member
    simpa using (List.mem_filter.mp member).2
  others servers request server member := by
    cases request with
    | addVoter id address =>
      dsimp only at member
      split at member
      · obtain ⟨old, before, rfl⟩ := List.mem_map.mp member
        exact .inl ⟨old, before, by split <;> rfl⟩
      · obtain before | new := List.mem_append.mp member
        · exact .inl ⟨server, before, rfl⟩
        · rw [List.mem_singleton.mp new]
          exact .inr ⟨address, rfl⟩
    | removeVoter id => exact .inl ⟨server, (List.mem_filter.mp member).1, rfl⟩

/-- One node joins at its second try, and another through a member that is not the leader. -/
def joined : List Action :=
  [.start "n1" "a1" "", .start "n2" "a2" "a1", .dial 0 none, .broken 0 ⟨.unavailable, "connection refused"⟩, .heard 0, .retry 0,
    .handle 1 true "" none, .commit 1, .future 1 none, .reply 1, .heard 0, .start "n3" "a3" "a2", .dial 1 none,
    .handle 2 false "a1" none, .handle 3 true "" none, .commit 3, .future 3 none, .reply 3, .forwarded 2, .reply 2, .heard 1]

theorem membership_sound_forwarded : ∃ s, exec (step voters) {} joined = some s ∧ s.clients.map (·.pc) = [.done, .done] ∧
    s.history.getLast? = some [⟨"n1", "a1"⟩, ⟨"n2", "a2"⟩, ⟨"n3", "a3"⟩] ∧
    ∀ request ∈ s.changes, ∃ client ∈ s.clients, client.request = request :=
  ⟨_, rfl, rfl, rfl, (@membership_sound voters joined _ rfl).2⟩

section Decommissioned
variable {s t : State} {id : ServerID} {k : Nat}

/-- The server has been removed by configuration `k`, its node knows of that, and nothing is under
way that would add it. -/
structure Decommissioned (id : ServerID) (k : Nat) (s : State) : Prop where
  state : (s.nodes id).hasState = true
  known : ∃ newest, (s.nodes id).known = some newest ∧ k ≤ newest
  committed : k < s.history.length
  absent : ∀ servers ∈ s.history.drop k, ∀ server ∈ servers, server.id ≠ id
  calls : ∀ call ∈ s.calls, ∀ address, call.request = .addVoter id address → Settled call
  clients : ∀ client ∈ s.clients, ∀ address, client.request = .addVoter id address → Ended client

private theorem foldl_absent {servers : List Server} (absent : ∀ server ∈ servers, server.id ≠ id) (found : Recovered) :
    (servers.foldl (Recovered.add id) found).inConfig = found.inConfig := by
  induction servers generalizing found with
  | nil => rfl
  | cons server rest ih =>
    rw [List.forall_mem_cons] at absent
    rw [List.foldl_cons, ih absent.2, Recovered.add, if_neg absent.1]

private theorem starting_absent {servers : List Server} (absent : ∀ server ∈ servers, server.id ≠ id)
    (bindAddr joinAddr : Gate.ServerAddress) : starting true servers id bindAddr joinAddr = .nothing := by
  have unmoved : reannounceTargets servers id bindAddr joinAddr = (false, []) := if_pos (.inl (foldl_absent absent {}))
  simp [starting, unmoved]

theorem Decommissioned.recovered (out : Decommissioned id k s) : ∀ server ∈ s.recovered id, server.id ≠ id := by
  obtain ⟨newest, known, late⟩ := out.known
  unfold State.recovered
  rw [known, Option.bind_some]
  cases found : s.history[newest]? with
  | none => exact fun server member => absurd member List.not_mem_nil
  | some servers =>
    have there : (s.history.drop k)[newest - k]? = some servers := by
      rw [List.getElem?_drop, Nat.add_sub_cancel' late]
      exact found
    exact out.absent servers (List.mem_of_getElem? there)

theorem Decommissioned.begun (out : Decommissioned id k s) {action : Action} {address : Gate.ServerAddress}
    (other : ∀ index, action ≠ .command index (.addVoter id address)) :
    begun s action ≠ some (.addVoter id address) := by
  intro brings
  cases action with
  | start name bindAddr joinAddr =>
    simp only [Voters.begun] at brings
    split at brings
    · next targets how =>
      cases brings
      rw [out.state, starting_absent out.recovered] at how
      cases how
    · cases brings
  | command index request =>
    cases brings
    exact other index rfl
  | _ => cases brings

theorem Decommissioned.step (out : Decommissioned id k s) {action : Action}
    (other : ∀ index address, action ≠ .command index (.addVoter id address)) (stepped : step raft s action = some t) :
    Decommissioned id k t := by
  have moves := step_moves stepped
  have new (address : Gate.ServerAddress) : Voters.begun s action ≠ some (.addVoter id address) :=
    out.begun fun index => other index address
  obtain ⟨newest, known, late⟩ := out.known
  obtain ⟨state, learns⟩ := moves.nodes id out.state
  obtain ⟨later, knows, after⟩ := learns newest known
  have history : k < t.history.length ∧ ∀ servers ∈ t.history.drop k, ∀ server ∈ servers, server.id ≠ id := by
    obtain ⟨-, same | empty⟩ | ⟨request, servers, last, same, -, cause⟩ := moves.changes
    · rw [same]
      exact ⟨out.committed, out.absent⟩
    · have committed := out.committed
      rw [empty] at committed
      cases committed
    · have apart (address : Gate.ServerAddress) : request ≠ .addVoter id address := by
        rintro rfl
        obtain begins | ⟨call, member, unsettled, asked⟩ := cause
        · exact new address begins
        · exact unsettled (out.calls call member address asked)
      have before : servers ∈ s.history.drop k := by
        apply List.mem_of_getLast?
        rw [List.getLast?_drop, if_neg (Nat.not_le.mpr out.committed)]
        exact last
      rw [same, List.length_append, List.drop_append_of_le_length (Nat.le_of_lt out.committed)]
      refine ⟨Nat.lt_add_right _ out.committed, ?_⟩
      intro others member
      obtain old | now := List.mem_append.mp member
      · exact out.absent others old
      · rw [List.mem_singleton.mp now]
        exact configure_absent (out.absent servers before) apart
  refine ⟨state, ⟨later, knows, Nat.le_trans late after⟩, history.1, history.2, ?_, ?_⟩
  · intro call member address asked
    obtain ⟨old, before, same, settles⟩ | ⟨client, before, live, same⟩ := moves.calls call member
    · exact settles (out.calls old before address (same.trans asked))
    · exact absurd (out.clients client before address (same.trans asked)) live
  · intro client member address asked
    obtain begins | ⟨old, before, same, ends⟩ := moves.clients client member
    · exact absurd (asked ▸ begins) (new address)
    · exact ends (out.clients old before address (same.trans asked))

/-- A node that knows of its removal stays out of every later configuration, however often and at
whatever address it starts again, unless an operator adds it by hand. -/
theorem decommissioned_stays_out {later : List Action} (out : Decommissioned id k s)
    (untouched : ∀ action ∈ later, ∀ index address, action ≠ .command index (.addVoter id address))
    (continued : exec (step raft) s later = some t) : ∀ servers ∈ t.history.drop k, ∀ server ∈ servers, server.id ≠ id :=
  (exec_invariant_of (fun action => ∀ index address, action ≠ .command index (.addVoter id address)) (Decommissioned id k)
    (fun _ _ _ out other stepped => out.step other stepped) out untouched continued).absent

end Decommissioned

def removal : List Action :=
  [.start "n1" "a1" "", .start "n2" "a2" "a1", .dial 0 none, .handle 0 true "" none, .commit 0, .future 0 none, .reply 0,
    .heard 0, .learn "n2" 1, .leave "a1" "n2", .dial 1 none, .handle 1 true "" none, .commit 1, .future 1 none, .reply 1,
    .heard 1]

/-- The removed node starts again at another address, and once more at its old one. -/
def restarts : List Action := [.stop "n2", .start "n2" "b2" "a1", .stop "n2", .start "n2" "a2" ""]

def removed : State := (exec (step voters) {} (removal ++ [.learn "n2" 2])).getD {}

private theorem removed_decommissioned : Decommissioned "n2" 2 removed := by
  refine ⟨by decide, ⟨2, by decide, Nat.le_refl _⟩, by decide, by decide, ?_, ?_⟩
  · intro call member address asked
    change call ∈ [⟨.addVoter "n2" "a2", .answered (.ok ()), true, true, some (.ok ()), 0⟩,
      ⟨.removeVoter "n2", .answered (.ok ()), true, true, some (.ok ()), 1⟩] at member
    obtain rfl | rfl := List.mem_pair.mp member
    · exact ⟨nofun, fun _ => rfl⟩
    · cases asked
  · intro client member address asked
    change client ∈ [⟨some "n2", ["a1"], .addVoter "n2" "a2", .done, [], 0⟩, ⟨none, ["a1"], .removeVoter "n2", .done, [], 1⟩] at member
    obtain rfl | rfl := List.mem_pair.mp member
    · exact .inl rfl
    · cases asked

theorem decommissioned_restarts : (exec (step voters) {} (removal ++ [.learn "n2" 2])).isSome = true ∧
    ∃ t, exec (step voters) removed restarts = some t ∧ ∀ servers ∈ t.history.drop 2, ∀ server ∈ servers, server.id ≠ "n2" := by
  obtain ⟨t, executed⟩ : ∃ t, exec (step voters) removed restarts = some t := Option.isSome_iff_exists.mp (by decide)
  refine ⟨by decide, t, executed, decommissioned_stays_out removed_decommissioned ?_ executed⟩
  rintro action member index address rfl
  simp [restarts] at member

/-- Without the news of its removal the node finds itself in the configuration it recovers, and a
start at another address adds it again. -/
example : ((exec (step voters) {} (removal ++ [.stop "n2", .start "n2" "b2" "", .dial 2 none, .handle 2 true "" none, .commit 2])).bind
    (·.history.getLast?)) = some [⟨"n1", "a1"⟩, ⟨"n2", "b2"⟩] := by decide

end Literaft.Proofs.Voters
