import Literaft.Proofs.Spill

/-! Every transaction of a session finds the file either as it was opened on an empty
log, or keeping the frames of one view. -/

namespace Literaft.Proofs.Session
open Library Wal Vfs Sqlite Capture Spill

/-- On an empty log the page size is unknown until the log's header is written. -/
def Known (pageSize : UInt32) (f : GatedWALFile) : Prop :=
  f = newGatedWALFile [] ∨ ∃ view, Represents pageSize view f

theorem represents_fresh (pageSize : UInt32) : Represents pageSize ⟨false, [], 0⟩ { pageSize } where
  size := rfl
  pending := by simp
  frames := rfl
  offsets := rfl
  committed := rfl
  top := rfl
  rewrite := fun _ => rfl
  ordered := by simp
  bounded := by simp

theorem newGatedWALFile_cases {pageSize : UInt32} {base : Bytes} (head : headed pageSize base) :
    newGatedWALFile base = newGatedWALFile [] ∨ newGatedWALFile base = { pageSize } := by
  by_cases full : base.length = walHeaderSize
  · refine .inr ?_
    rw [newGatedWALFile, if_pos full, head full]
  · refine .inl ?_
    rw [newGatedWALFile, if_neg full]
    rfl

theorem known_start {pageSize : UInt32} {base : Bytes} (head : headed pageSize base) :
    Known pageSize (newGatedWALFile base) :=
  (newGatedWALFile_cases head).imp_right fun sized => ⟨_, sized ▸ represents_fresh pageSize⟩

theorem play_unsized {calls : List Call} (frames : ∀ call ∈ calls, 0 < call.off) :
    (play (newGatedWALFile []) calls).file = newGatedWALFile [] ∧ (play (newGatedWALFile []) calls).effects = [] := by
  induction calls with
  | nil => exact ⟨rfl, rfl⟩
  | cons call rest ih =>
    have positive := frames call List.mem_cons_self
    have refused : (newGatedWALFile []).writeAt call.answer call.p call.off = ⟨newGatedWALFile [], [],
        .error (.plain s!"WAL page size unknown; cannot write frame at offset {call.off}")⟩ := by
      simp only [GatedWALFile.writeAt, Nat.ne_of_gt positive, if_false]
      rfl
    obtain ⟨file, effects⟩ := ih fun later member => frames later (List.mem_cons_of_mem _ member)
    simp only [play, refused, file, effects, List.append_nil, and_self]

private theorem frameCalls_positive {pageSize : UInt32} {n : Nat} {header : FrameHeader} {data : Bytes}
    {answer : Option GateError} :
    ∀ call ∈ frameCalls pageSize n header data answer, 0 < call.off := by
  intro call member
  have positive := frameOffset_pos pageSize n
  simp only [frameCalls, List.mem_cons, List.not_mem_nil, or_false] at member
  rcases member with rfl | rfl
  · exact positive
  · exact Nat.add_pos_left positive _

theorem bodyCalls_positive {pageSize : UInt32} {start : Nat} {frames : List Frame} {body : List Op} :
    ∀ call ∈ bodyCalls pageSize start frames body, 0 < call.off := by
  induction body generalizing frames with
  | nil => exact fun call member => nomatch member
  | cons op rest ih =>
    intro call member
    rcases List.mem_append.mp member with now | later
    · cases op with
      | append header data => exact frameCalls_positive call now
      | overwrite i data =>
        rw [List.mem_singleton.mp now]
        exact Nat.add_pos_left (frameOffset_pos _ _) _
      | rollbackTo live => cases now
    · exact ih call later

theorem commitCalls_positive {pageSize : UInt32} {start : Nat} {t : Transaction} :
    ∀ call ∈ t.commitCalls pageSize start, 0 < call.off := by
  unfold Transaction.commitCalls
  split
  · exact frameCalls_positive
  · exact fun call member => nomatch member

theorem calls_positive {pageSize : UInt32} {start : Nat} {t : Transaction} :
    ∀ call ∈ t.calls pageSize start, 0 < call.off := by
  intro call member
  simp only [Transaction.calls, Transaction.fixCalls, Transaction.rewriteCalls, List.mem_append] at member
  rcases member with body | commit | fixes
  · exact bodyCalls_positive call body
  · exact commitCalls_positive call commit
  · split at fixes
    · split at fixes
      · cases fixes
      · obtain ⟨fix, _, rfl⟩ := List.mem_map.mp fixes
        exact frameOffset_pos _ _
    · cases fixes

section Run
variable {pageSize : UInt32} {start : Nat} {found : View} {f : GatedWALFile} {t : Transaction}
  (sized : pageSize ≠ 0) (positive : 1 ≤ start) (legal : t.Legal pageSize)
include sized positive legal

private theorem txn_represents (rep : Represents pageSize found f) :
    ∃ next, Represents pageSize next (play f (t.calls pageSize start)).file := by
  simp only [Transaction.calls, play_append]
  cases committing : t.commit with
  | none =>
    obtain ⟨view, kept, _⟩ := body_start sized positive legal rep
    exact ⟨view, by simpa [Transaction.commitCalls, Transaction.fixCalls, committing, play] using kept⟩
  | some c =>
    obtain ⟨view, kept, closed, _⟩ := commit_run sized positive legal rep committing
    simp only [Transaction.fixCalls, committing, Transaction.rewriteCalls]
    split
    · exact ⟨view, kept⟩
    · obtain ⟨next, done, _⟩ := rewrites_run start sized kept closed c.rewrites
      exact ⟨next, done⟩

private theorem txn_known (known : Known pageSize f) : Known pageSize (play f (t.calls pageSize start)).file := by
  rcases known with rfl | ⟨view, rep⟩
  · exact .inl (play_unsized calls_positive).1
  · exact .inr (txn_represents sized positive legal rep)

end Run

private theorem restart_known {pageSize : UInt32} {f : GatedWALFile} {header : Option Bytes} (sized : pageSize ≠ 0)
    (legal : (Event.restart header).legal pageSize) (known : Known pageSize f) :
    Known pageSize (play f (header.toList.map fun p => ⟨p, 0, none⟩)).file := by
  cases header with
  | none => exact known
  | some p =>
    obtain ⟨length, size⟩ := legal p rfl
    rcases known with rfl | ⟨view, rep⟩
    · refine .inr ⟨⟨false, [], 0⟩, ?_⟩
      have same : (play (newGatedWALFile []) ((some p).toList.map fun p => ⟨p, 0, none⟩)).file = { pageSize } := by
        simp [play, GatedWALFile.writeAt, newGatedWALFile, length, size, walHeaderSize]
      rw [same]
      exact represents_fresh pageSize
    · refine .inr ⟨view, ?_⟩
      have apart : f.pageSize ≠ 0 := by rw [rep.size]; exact sized
      simpa [play, GatedWALFile.writeAt, apart] using rep

private theorem step_known {pageSize : UInt32} {s : Session} {event : Event} (sized : pageSize ≠ 0)
    (legal : event.legal pageSize) (known : Known pageSize s.file) : Known pageSize (s.step pageSize event).file := by
  cases event with
  | others frames => exact known
  | restart header => exact restart_known sized legal known
  | txn t => exact txn_known sized (Nat.le_add_left 1 _) legal known

structure Began (pageSize : UInt32) (entry : Entry) : Prop where
  known : Known pageSize entry.before
  positive : 1 ≤ entry.start
  legal : entry.txn.Legal pageSize
  played : entry.played = play entry.before (entry.txn.calls pageSize entry.start)

theorem entries_began {pageSize : UInt32} {s : Session} {events : List Event} (sized : pageSize ≠ 0)
    (legal : ∀ event ∈ events, event.legal pageSize) (known : Known pageSize s.file) :
    ∀ entry ∈ s.entries pageSize events, Began pageSize entry := by
  induction events generalizing s with
  | nil => exact fun entry member => nomatch member
  | cons event rest ih =>
    have first := legal event List.mem_cons_self
    have later := ih (fun next member => legal next (List.mem_cons_of_mem _ member)) (step_known sized first known)
    intro entry member
    cases event with
    | others frames => exact later entry member
    | restart header => exact later entry member
    | txn t =>
      rcases List.mem_cons.mp member with rfl | member
      · exact ⟨known, Nat.le_add_left 1 _, first, rfl⟩
      · exact later entry member

/-- A log of pages of 512 bytes that holds only its header. -/
def emptyLog : Bytes := (WALHeader.initHeader 512 0 0).bytes

def filled (byte : UInt8) : Bytes := List.replicate 512 byte

end Literaft.Proofs.Session
