import Literaft.Membership

/-! A call that succeeds had raft make its change. The answer comes back through each member that
passed the call on, and an answer that is lost or made up by the transport is never a success. -/

namespace Literaft.Proofs.Membership
open Library Literaft.Membership

variable {raft : Raft}

def Holds (servers : List Server) : Request → Prop
  | .addVoter id address =>
    ⟨id, address⟩ ∈ servers ∧ ∀ server ∈ servers, server.id = id → server.address = address
  | .removeVoter id => ∀ server ∈ servers, server.id ≠ id

theorem configure_holds (raft : Raft) (servers : List Server) (request : Request) :
    Holds (raft.configure servers request) request := by
  cases request with
  | addVoter id address => exact raft.adds servers id address
  | removeVoter id => exact raft.removes servers id

theorem configure_absent {servers : List Server} {id : ServerID} {request : Request} (absent : ∀ server ∈ servers, server.id ≠ id)
    (other : ∀ address, request ≠ .addVoter id address) : ∀ server ∈ raft.configure servers request, server.id ≠ id := by
  rintro server member rfl
  obtain ⟨old, before, same⟩ | ⟨address, asked⟩ := raft.others servers request server member
  · exact absent old before same
  · exact other address asked

/-- raft has made the change after the first `since` ones. -/
def Made (s : State) (since : Nat) (request : Request) : Prop := ∃ k, since ≤ k ∧ s.changes[k]? = some request

structure CallSound (s : State) (call : Call) : Prop where
  since : call.since ≤ s.changes.length
  made : call.made = true → Made s call.since call.request
  answered : call.handler = .answered (.ok ()) → Made s call.since call.request
  result : call.result = some (.ok ()) → Made s call.since call.request
  passed : ∀ next, call.handler = .forwarding next →
    ∃ later, s.calls[next]? = some later ∧ later.request = call.request ∧ call.since ≤ later.since

structure ClientSound (s : State) (client : Client) : Prop where
  since : client.since ≤ s.changes.length
  done : client.pc = .done → Made s client.since client.request
  calling : ∀ c, client.pc = .calling c →
    ∃ call, s.calls[c]? = some call ∧ call.request = client.request ∧ client.since ≤ call.since

/-- Each configuration is made of the one before by a change. -/
structure Follows (raft : Raft) (s : State) : Prop where
  lengths : s.history.length = s.changes.length + 1 ∨ s.history = [] ∧ s.changes = []
  changes : ∀ (k : Nat) request, s.changes[k]? = some request →
    ∃ before, s.history[k]? = some before ∧ s.history[k + 1]? = some (raft.configure before request)

structure Sound (raft : Raft) (s : State) : Prop where
  follows : Follows raft s
  calls : ∀ call ∈ s.calls, CallSound s call
  clients : ∀ client ∈ s.clients, ClientSound s client

structure Grows (s t : State) : Prop where
  changes : ∃ more, t.changes = s.changes ++ more
  calls : ∀ (c : Nat) call, s.calls[c]? = some call →
    ∃ after, t.calls[c]? = some after ∧ after.request = call.request ∧ after.since = call.since

section Grow
variable {s t : State}

theorem Made.grow {since : Nat} {request : Request} (made : Made s since request) (grows : Grows s t) :
    Made t since request := by
  obtain ⟨k, late, found⟩ := made
  obtain ⟨more, same⟩ := grows.changes
  refine ⟨k, late, ?_⟩
  rw [same, List.getElem?_append_left (List.getElem?_eq_some_iff.mp found).1]
  exact found

theorem Grows.length (grows : Grows s t) : s.changes.length ≤ t.changes.length := by
  obtain ⟨more, same⟩ := grows.changes
  rw [same, List.length_append]
  exact Nat.le_add_right _ _

theorem CallSound.grow {call : Call} (sound : CallSound s call) (grows : Grows s t) : CallSound t call := by
  refine ⟨Nat.le_trans sound.since grows.length, fun made => (sound.made made).grow grows,
    fun answered => (sound.answered answered).grow grows, fun result => (sound.result result).grow grows, ?_⟩
  intro next forwarding
  obtain ⟨later, found, same, late⟩ := sound.passed next forwarding
  obtain ⟨after, there, request, since⟩ := grows.calls next later found
  exact ⟨after, there, request.trans same, since ▸ late⟩

theorem ClientSound.grow {client : Client} (sound : ClientSound s client) (grows : Grows s t) : ClientSound t client := by
  refine ⟨Nat.le_trans sound.since grows.length, fun done => (sound.done done).grow grows, ?_⟩
  intro c calling
  obtain ⟨call, found, same, late⟩ := sound.calling c calling
  obtain ⟨after, there, request, since⟩ := grows.calls c call found
  exact ⟨after, there, request.trans same, since ▸ late⟩

private theorem grows_setCall {c : Nat} {call after : Call} (found : s.calls[c]? = some call)
    (request : after.request = call.request)
    (since : after.since = call.since) : Grows s (s.setCall c after) := by
  refine ⟨⟨[], (List.append_nil _).symm⟩, ?_⟩
  intro i other there
  by_cases same : c = i
  · subst same
    cases found.symm.trans there
    exact ⟨after, List.getElem?_set_self (List.getElem?_eq_some_iff.mp found).1, request, since⟩
  · exact ⟨other, (List.getElem?_set_ne same).trans there, rfl, rfl⟩

private theorem grows_send (s : State) (request : Request) : Grows s (s.send request) := by
  refine ⟨⟨[], (List.append_nil _).symm⟩, ?_⟩
  intro c call found
  refine ⟨call, ?_, rfl, rfl⟩
  exact (List.getElem?_append_left (List.getElem?_eq_some_iff.mp found).1).trans found

end Grow

section Sound
variable {s t : State} {c j : Nat} {call : Call} {client : Client}

theorem Sound.setCall (sound : Sound raft s) {after : Call} (found : s.calls[c]? = some call)
    (request : after.request = call.request) (since : after.since = call.since) (new : CallSound s after) :
    Sound raft (s.setCall c after) := by
  have grows := grows_setCall found request since
  refine ⟨⟨sound.follows.lengths, sound.follows.changes⟩, ?_, fun client member => (sound.clients client member).grow grows⟩
  intro other member
  obtain before | rfl := List.mem_or_eq_of_mem_set member
  · exact (sound.calls other before).grow grows
  · exact new.grow grows

theorem Sound.setClient (sound : Sound raft s) (new : ClientSound s client) : Sound raft (s.setClient j client) := by
  have grows : Grows s (s.setClient j client) := ⟨⟨[], (List.append_nil _).symm⟩, fun _ call found => ⟨call, found, rfl, rfl⟩⟩
  refine ⟨⟨sound.follows.lengths, sound.follows.changes⟩, fun call member => (sound.calls call member).grow grows, ?_⟩
  intro other member
  obtain before | rfl := List.mem_or_eq_of_mem_set member
  · exact (sound.clients other before).grow grows
  · exact new.grow grows

theorem Sound.setNode (sound : Sound raft s) (id : ServerID) (node : Node) : Sound raft (s.setNode id node) := by
  have grows : Grows s (s.setNode id node) := ⟨⟨[], (List.append_nil _).symm⟩, fun _ call found => ⟨call, found, rfl, rfl⟩⟩
  exact ⟨⟨sound.follows.lengths, sound.follows.changes⟩, fun call member => (sound.calls call member).grow grows,
    fun client member => (sound.clients client member).grow grows⟩

theorem Sound.add (sound : Sound raft s) (new : ClientSound s client) : Sound raft
    { s with clients := s.clients ++ [client] } := by
  have grows : Grows s { s with clients := s.clients ++ [client] } :=
    ⟨⟨[], (List.append_nil _).symm⟩, fun _ call found => ⟨call, found, rfl, rfl⟩⟩
  refine ⟨⟨sound.follows.lengths, sound.follows.changes⟩, fun call member => (sound.calls call member).grow grows, ?_⟩
  intro other member
  obtain before | after := List.mem_append.mp member
  · exact (sound.clients other before).grow grows
  · rw [List.mem_singleton.mp after]
    exact new.grow grows

theorem Sound.send (sound : Sound raft s) (request : Request) : Sound raft (s.send request) := by
  have grows := grows_send s request
  refine ⟨⟨sound.follows.lengths, sound.follows.changes⟩, ?_, fun client member => (sound.clients client member).grow grows⟩
  intro other member
  obtain before | new := List.mem_append.mp member
  · exact (sound.calls other before).grow grows
  · rw [List.mem_singleton.mp new]
    exact ⟨Nat.le_refl _, nofun, nofun, nofun, nofun⟩

theorem change_cases {request : Request} (changed : s.change raft request = some t) :
    ∃ servers, s.history.getLast? = some servers ∧
      t = { s with history := s.history ++ [raft.configure servers request], changes := s.changes ++ [request] } := by
  obtain ⟨servers, last, rfl⟩ := Option.map_eq_some_iff.mp changed
  exact ⟨servers, last, rfl⟩

theorem Follows.change {request : Request} (follows : Follows raft s) (changed : s.change raft request = some t) :
    Follows raft t := by
  obtain ⟨servers, last, rfl⟩ := change_cases changed
  obtain lengths | ⟨empty, -⟩ := follows.lengths
  · refine ⟨.inl (by simp [lengths]), ?_⟩
    intro k made found
    by_cases before : k < s.changes.length
    · obtain ⟨old, at_, next⟩ := follows.changes k made ((List.getElem?_append_left before).symm.trans found)
      exact ⟨old, (List.getElem?_append_left (by omega)).trans at_, (List.getElem?_append_left (by omega)).trans next⟩
    · have bound : k < (s.changes ++ [request]).length := (List.getElem?_eq_some_iff.mp found).1
      have newest : k = s.changes.length := by
        rw [List.length_append, List.length_singleton] at bound
        omega
      subst newest
      rw [List.getElem?_concat_length] at found
      cases found
      refine ⟨servers, ?_, ?_⟩
      · rw [List.getLast?_eq_getElem?, lengths] at last
        exact (List.getElem?_append_left (by omega)).trans last
      · rw [← lengths]
        exact List.getElem?_concat_length
  · rw [empty] at last
    cases last

private theorem grows_change {request : Request} (changed : s.change raft request = some t) : Grows s t := by
  obtain ⟨servers, -, rfl⟩ := change_cases changed
  exact ⟨⟨[request], rfl⟩, fun _ call found => ⟨call, found, rfl, rfl⟩⟩

theorem Sound.change {request : Request} (sound : Sound raft s) (changed : s.change raft request = some t) : Sound raft t := by
  have grows := grows_change changed
  have follows := sound.follows.change changed
  obtain ⟨servers, -, rfl⟩ := change_cases changed
  exact ⟨follows, fun call member => (sound.calls call member).grow grows,
    fun client member => (sound.clients client member).grow grows⟩

private theorem made_change {request : Request} {since : Nat} (changed : s.change raft request = some t)
    (early : since ≤ s.changes.length) :
    Made t since request := by
  obtain ⟨servers, -, rfl⟩ := change_cases changed
  exact ⟨s.changes.length, early, List.getElem?_concat_length⟩

theorem ClientSound.fail (sound : ClientSound s client) (err : JoinError) : ClientSound s (client.fail err) := by
  unfold Client.fail
  split
  · exact ⟨sound.since, nofun, nofun⟩
  · refine ⟨sound.since, ?_, ?_⟩
    · intro done
      dsimp only at done
      split at done <;> cases done
    · intro c calling
      dsimp only at calling
      split at calling <;> cases calling

theorem ClientSound.send (sound : ClientSound s client) :
    ClientSound (s.send client.request) { client with pc := .calling s.calls.length } := by
  refine ⟨sound.since, nofun, ?_⟩
  rintro c ⟨⟩
  exact ⟨_, List.getElem?_concat_length, rfl, sound.since⟩

theorem ClientSound.hear (sound : ClientSound s client) {res : Except Status Unit} (calling : client.pc = .calling c)
    (found : s.calls[c]? = some call) (answer : CallSound s call) (heard : call.result = some res) :
    ClientSound s (client.hear res) := by
  cases res with
  | ok =>
    obtain ⟨same, there, request, late⟩ := sound.calling c calling
    cases found.symm.trans there
    obtain ⟨k, after, made⟩ := answer.result heard
    exact ⟨sound.since, fun _ => ⟨k, Nat.le_trans late after, request ▸ made⟩, nofun⟩
  | error err =>
    simp only [Client.hear]
    split
    · exact ⟨sound.since, nofun, nofun⟩
    · exact sound.fail _

theorem sound_start {id : ServerID} {bindAddr joinAddr : Gate.ServerAddress} (sound : Sound raft s)
    (started : s.start id bindAddr joinAddr = some t) : Sound raft t := by
  unfold State.start at started
  dsimp only at started
  split at started
  · cases started
  split at started
  · next servers _ =>
    obtain ⟨empty, done⟩ := Option.ite_none_right_eq_some.mp started
    cases done
    have first : s.changes = [] := by
      obtain lengths | ⟨-, none_⟩ := sound.follows.lengths
      · rw [empty] at lengths
        cases lengths
      · exact none_
    have grows : Grows s { s.setNode id { running := true, hasState := true, known := some 0 } with history := [servers] } :=
      ⟨⟨[], (List.append_nil _).symm⟩, fun _ call found => ⟨call, found, rfl, rfl⟩⟩
    refine ⟨⟨.inl (congrArg (·.length + 1) first.symm), ?_⟩, fun call member => (sound.calls call member).grow grows,
      fun client member => (sound.clients client member).grow grows⟩
    intro k request found
    change s.changes[k]? = some request at found
    rw [first] at found
    cases found
  · cases started
    exact (sound.setNode id _).add ⟨Nat.le_refl _, nofun, nofun⟩
  · cases started
    exact sound.setNode id _
  · cases started
    exact sound.setNode id _

theorem sound_step {action : Action} (sound : Sound raft s) (stepped : step raft s action = some t) : Sound raft t := by
  cases action with
  | start id bindAddr joinAddr => exact sound_start sound stepped
  | stop id =>
    cases stepped
    have grows : Grows s { s.setNode id { s.nodes id with running := false } with clients := s.clients.map (Client.stop id) } :=
      ⟨⟨[], (List.append_nil _).symm⟩, fun _ call found => ⟨call, found, rfl, rfl⟩⟩
    refine ⟨⟨sound.follows.lengths, sound.follows.changes⟩, fun call member => (sound.calls call member).grow grows, ?_⟩
    intro client member
    obtain ⟨before, there, rfl⟩ := List.mem_map.mp member
    have after := (sound.clients before there).grow grows
    unfold Client.stop
    split
    · exact ⟨after.since, nofun, nofun⟩
    · exact after
  | persist id =>
    cases stepped
    exact sound.setNode id _
  | learn id k =>
    obtain ⟨-, done⟩ := Option.ite_none_right_eq_some.mp stepped
    cases done
    exact sound.setNode id _
  | leave addr id =>
    cases stepped
    exact sound.add ⟨Nat.le_refl _, nofun, nofun⟩
  | command index request =>
    obtain ⟨-, changed⟩ := Option.ite_none_right_eq_some.mp stepped
    obtain ⟨servers, last, rfl⟩ := change_cases changed
    have made : s.change raft request = some { s with
        history := s.history ++ [raft.configure servers request], changes := s.changes ++ [request] } :=
      Option.map_eq_some_iff.mpr ⟨servers, last, rfl⟩
    have new : ClientSound _ ⟨none, [], request, .done, [], s.changes.length⟩ :=
      ⟨(grows_change made).length, fun _ => made_change made (Nat.le_refl _), nofun⟩
    exact (sound.change made).add new
  | dial j fault =>
    obtain ⟨client, found, dialed⟩ := Option.bind_eq_some_iff.mp stepped
    have before := sound.clients client (List.mem_of_getElem? found)
    obtain ⟨-, went⟩ := Option.ite_none_right_eq_some.mp dialed
    cases fault with
    | some err =>
      cases went
      exact sound.setClient (before.fail _)
    | none =>
      cases went
      exact (sound.send _).setClient before.send
  | handle c isLeader leader fault =>
    obtain ⟨call, found, handled⟩ := Option.bind_eq_some_iff.mp stepped
    have before := sound.calls call (List.mem_of_getElem? found)
    split at handled
    · split at handled
      · cases handled
        exact sound.setCall found rfl rfl ⟨before.since, before.made, nofun, before.result, nofun⟩
      · split at handled
        · cases handled
          exact sound.setCall found rfl rfl ⟨before.since, before.made, nofun, before.result, nofun⟩
        · cases handled
          have there : (s.send call.request).calls[c]? = some call :=
            (List.getElem?_append_left (List.getElem?_eq_some_iff.mp found).1).trans found
          have after := before.grow (grows_send s call.request)
          refine (sound.send _).setCall there rfl rfl ⟨after.since, after.made, nofun, after.result, ?_⟩
          rintro next ⟨⟩
          exact ⟨_, List.getElem?_concat_length, rfl, before.since⟩
    · cases handled
  | commit c =>
    obtain ⟨call, found, asked⟩ := Option.bind_eq_some_iff.mp stepped
    have before := sound.calls call (List.mem_of_getElem? found)
    obtain ⟨-, changed⟩ := Option.ite_none_right_eq_some.mp asked
    obtain ⟨servers, last, rfl⟩ := change_cases changed
    have made : s.change raft call.request = some { s with
        history := s.history ++ [raft.configure servers call.request], changes := s.changes ++ [call.request] } :=
      Option.map_eq_some_iff.mpr ⟨servers, last, rfl⟩
    have after := before.grow (grows_change made)
    have new : CallSound _ { call with made := true } :=
      ⟨after.since, fun _ => made_change made before.since, after.answered, after.result, after.passed⟩
    exact (sound.change made).setCall found rfl rfl new
  | future c err =>
    obtain ⟨call, found, answered⟩ := Option.bind_eq_some_iff.mp stepped
    have before := sound.calls call (List.mem_of_getElem? found)
    split at answered
    · obtain ⟨made, done⟩ := Option.ite_none_right_eq_some.mp answered
      cases done
      exact sound.setCall found rfl rfl ⟨before.since, before.made, fun _ => before.made made, before.result, nofun⟩
    · cases answered
      exact sound.setCall found rfl rfl ⟨before.since, before.made, nofun, before.result, nofun⟩
    · cases answered
  | forwarded c =>
    obtain ⟨call, found, passed⟩ := Option.bind_eq_some_iff.mp stepped
    have before := sound.calls call (List.mem_of_getElem? found)
    split at passed
    · next next forwarding =>
      obtain ⟨res, heard, rfl⟩ := Option.map_eq_some_iff.mp passed
      obtain ⟨later, there, result⟩ := Option.bind_eq_some_iff.mp heard
      refine sound.setCall found rfl rfl ⟨before.since, before.made, ?_, before.result, nofun⟩
      rintro ⟨⟩
      obtain ⟨same, at_, request, late⟩ := before.passed next forwarding
      cases there.symm.trans at_
      obtain ⟨k, after, made⟩ := (sound.calls later (List.mem_of_getElem? there)).result result
      exact ⟨k, Nat.le_trans late after, request ▸ made⟩
    · cases passed
  | reply c =>
    obtain ⟨call, found, replied⟩ := Option.bind_eq_some_iff.mp stepped
    have before := sound.calls call (List.mem_of_getElem? found)
    split at replied
    · next res answered _ =>
      cases replied
      refine sound.setCall found rfl rfl ⟨before.since, before.made, before.answered, ?_, before.passed⟩
      rintro ⟨⟩
      exact before.answered answered
    · cases replied
  | broken c err =>
    obtain ⟨call, found, broke⟩ := Option.bind_eq_some_iff.mp stepped
    have before := sound.calls call (List.mem_of_getElem? found)
    obtain ⟨-, done⟩ := Option.ite_none_right_eq_some.mp broke
    cases done
    exact sound.setCall found rfl rfl ⟨before.since, before.made, before.answered, nofun, before.passed⟩
  | heard j =>
    obtain ⟨client, found, heard⟩ := Option.bind_eq_some_iff.mp stepped
    have before := sound.clients client (List.mem_of_getElem? found)
    split at heard
    · next c calling =>
      obtain ⟨res, answered, rfl⟩ := Option.map_eq_some_iff.mp heard
      obtain ⟨call, there, result⟩ := Option.bind_eq_some_iff.mp answered
      exact sound.setClient (before.hear calling there (sound.calls call (List.mem_of_getElem? there)) result)
    · cases heard
  | retry j =>
    obtain ⟨client, found, retried⟩ := Option.bind_eq_some_iff.mp stepped
    have before := sound.clients client (List.mem_of_getElem? found)
    split at retried
    · cases retried
      exact (sound.send _).setClient before.send
    · cases retried
  | timeout j =>
    obtain ⟨client, found, ended⟩ := Option.bind_eq_some_iff.mp stepped
    have before := sound.clients client (List.mem_of_getElem? found)
    split at ended
    · cases ended
      exact sound.setClient (before.fail _)
    · cases ended

end Sound

end Literaft.Proofs.Membership
