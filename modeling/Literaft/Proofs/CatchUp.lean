import Literaft.Proofs.Epoch
import Literaft.Proofs.Persist
import Literaft.Proofs.Replay

/-! A node that is brought up to date by a snapshot of another. What `Persist` writes is in the
format that `Restore` reads, and the entries behind the snapshot do the rest. -/

namespace Literaft.Proofs.CatchUp
open Library Wal Shm WalAppender Literaft.Faults Apply Literaft.Restore Literaft.Persist Literaft.Lookup Index Calls Faults
open Proofs.Restore Replay Literaft.FrameChannel Proofs.FrameChannel

section Stream
variable {pageSize : UInt32} {database : Database Bytes} {image : Bytes}

private theorem stream_index (index : UInt64) (image : Bytes) : beUint64 ((newSnapshotHeader index).val ++ image) 8 = index :=
  beUint64_append (be32 currentMagic ++ be32 currentVersion) image index

private theorem stream_drop (index : UInt64) (image : Bytes) :
    ((newSnapshotHeader index).val ++ image).drop snapshotHeaderSize = image :=
  List.drop_left' (newSnapshotHeader index).property

private theorem format_copied (copies : Copies pageSize database image) (index : UInt64) :
    Format pageSize ((newSnapshotHeader index).val ++ image) database.size := by
  refine ⟨copies.positive, ?_, ?_, ?_, ?_⟩
  · rw [List.length_append, (newSnapshotHeader index).property, copies.length]
  · exact beUint32_append [] (be32 currentVersion ++ be64 index ++ image) currentMagic
  · exact beUint32_append (be32 currentMagic) (be64 index ++ image) currentVersion
  · rw [stream_drop]
    exact copies.encoded

private theorem alike_copied (copies : Copies pageSize database image) (index : UInt64) :
    database.Alike Alike (Restore.snapshot pageSize ((newSnapshotHeader index).val ++ image) database.size) := by
  refine ⟨rfl, fun p positive inside => ?_⟩
  have behind : ((newSnapshotHeader index).val ++ image).drop (snapshotHeaderSize + (p - 1) * pageSize.toNat) =
      image.drop ((p - 1) * pageSize.toNat) := by
    rw [← List.drop_drop, stream_drop]
  exact (copies.pages p positive inside).trans (congrArg (fun data => (data.take pageSize.toNat).drop (databaseHeader p)) behind.symm)

end Stream

section Restored
variable {b : Snapshotter} {r : Reader} {a c : WALAppender} {hdr : Header} {w : Surroundings} {firstPage : Bytes}

private theorem finalSize_numbered {n : UInt32} {pages : List Bytes} (some_ : pages ≠ []) (positive : 0 < n.toNat)
    (room : n.toNat + pages.length ≤ 2 ^ 32) : Store.finalSize (numbered n pages) ≠ 0 := by
  induction pages generalizing n with
  | nil => exact absurd rfl some_
  | cons page rest ih =>
    rw [List.length_cons] at room
    cases rest with
    | nil =>
      intro zero
      have zero : n = 0 := zero
      rw [zero] at positive
      cases positive
    | cons next rest =>
      rw [List.length_cons] at room
      have above := toNat_succ (n := n) (by omega)
      have later := ih (n := n + 1) (List.cons_ne_nil _ _) (by omega) (by rw [List.length_cons]; omega)
      have last : Store.finalSize (numbered n (page :: next :: rest)) = Store.finalSize (numbered (n + 1) (next :: rest)) := by
        simp only [Store.finalSize, numbered, List.getLast?_cons_cons]
      rw [last]
      exact later

private theorem appendPages_slots (size : a.pageSize = b.pageSize) (header : a.shm.readHeader = some hdr)
    (sized : 0 < b.pageSize.toNat)
    (full : firstPage.length = b.pageSize.toNat) (room : hdr.maxFrame.toNat + (r.bytes.length / b.pageSize.toNat + 1) < 2 ^ 32)
    (enters : Enters a true w.chance w.early) (harmless : Harmless (r.bytes.length / b.pageSize.toNat + 1) w.frame)
    (ends : r.EndsWhole b.pageSize.toNat) {more : Nat}
    (slots : HasSlots a w.chance (r.bytes.length / b.pageSize.toNat + 1 + more)) :
    ∃ c latest, b.appendPages a w r firstPage = some (c, none) ∧ c.shm.readHeader = some latest ∧
      FreeSlots c.shm latest.maxFrame more ∧ c.pageSize = a.pageSize ∧
      latest.maxFrame.toNat ≤ hdr.maxFrame.toNat + (r.bytes.length / b.pageSize.toNat + 1) := by
  obtain ⟨pages, -, sent, count, some_, pageful, fits⟩ := sendPages_pages sized full ends (by omega)
  rw [← size] at pageful
  rw [← count] at room harmless slots ⊢
  have fine := (numbered_fine_iff pageful (by decide) fits).mpr harmless
  obtain ⟨start, first, entered⟩ := enter_ok_iff.mpr enters
  have free : blocked a w (numbered 1 pages) = false := by rw [blocked, entered]
  obtain ⟨body, last, split, marked⟩ := Proofs.Store.finalSize_split (finalSize_numbered some_ (by decide) fits)
  have lengths : ∀ f ∈ body ++ [last], f.data.length = a.pageSize.toNat := by
    rw [← split]
    exact fun f member => pageful f.data (numbered_data member)
  have within : hdr.maxFrame.toNat + (body ++ [last]).length < 2 ^ 32 := by rwa [← split, numbered_length]
  rw [← numbered_length 1 pages, split] at slots
  obtain ⟨c, latest, base, ran, stored, left, same, -⟩ := append_published header lengths
    (marked ▸ finalSize_numbered some_ (by decide) fits) within (hasSlots_mono slots (Nat.le_add_right _ _))
  have grown := call_grows header within ran stored
  rw [← split, numbered_length] at grown
  refine ⟨c, latest, ?_, stored, left more slots, same, grown⟩
  have call := append_fine header enters fine
  rw [deliveries_frames, split, ran] at call
  simp only [Snapshotter.appendPages, sent, Option.bind_some, free]
  rw [split, call]
  rfl

/-- A whole snapshot leaves a log that shows its pages. -/
theorem restore_slots {stream : Bytes} {n more : Nat} (size : a.pageSize = b.pageSize) (header : a.shm.readHeader = some hdr)
    (started : hdr.isInit = true ∧ 0 < hdr.pageSize) (intact : (a.log hdr).Intact) (quiet : w.Quiet)
    (format : Format b.pageSize stream n) (room : hdr.maxFrame.toNat + stream.length / b.pageSize.toNat < 2 ^ 32)
    (slots : HasSlots a w.chance (n + more)) :
    ∃ d latest h, b.restore ⟨stream, none⟩ a w = some (w.checkpoint.run d, .ok h) ∧ h.lastAppliedIndex = beUint64 stream 8 ∧
      d.shm.readHeader = some latest ∧ FreeSlots d.shm latest.maxFrame more ∧ d.pageSize = b.pageSize ∧
      latest.maxFrame.toNat ≤ hdr.maxFrame.toNat + n ∧ (d.log latest).Intact ∧
      (d.log latest).visible.Same (Restore.snapshot b.pageSize stream n) := by
  have enters := quiet_enters quiet header
  have harmless := quiet_harmless quiet
  rcases restore_reaches ⟨stream, none⟩ w size header (.inl started) with
    ⟨d, failure, -, -, never⟩ | ⟨h, opened, first, reaches, reached⟩
  · exact absurd ⟨n, rfl, format, quiet.opens, .inl started, enters, harmless n⟩ never
  obtain rfl : opened = a := openAppender_started size header started quiet.opens reaches.ran
  obtain rfl : first = hdr := Option.some.inj (reaches.published.symm.trans header)
  have count : (behind b ⟨stream, none⟩).bytes.length / b.pageSize.toNat + 1 = n := format_count format
  have fits : first.maxFrame.toNat + ((behind b ⟨stream, none⟩).bytes.length / b.pageSize.toNat + 1) < 2 ^ 32 :=
    Nat.lt_of_le_of_lt (Nat.add_le_add_left (pages_le (r := ⟨stream, none⟩) reaches.long reaches.sized) _) room
  have ends : (behind b ⟨stream, none⟩).EndsWhole b.pageSize.toNat :=
    ⟨rfl, n - 1, (format_split format).2.2.trans (Nat.mul_comm _ _)⟩
  have full := List.length_take_of_le reaches.long
  obtain ⟨d, latest, appended, stored, left, same, grown⟩ :=
    appendPages_slots size header reaches.sized full fits enters (harmless _) ends (by rw [count]; exact slots)
  rcases appendPages_cases size header intact reaches.sized full fits appended with
    ⟨-, -, -, -, found, again, good, shown, each⟩ | ⟨-, wrong, -⟩
  · obtain rfl : found = latest := Option.some.inj (again.symm.trans stored)
    rw [count] at grown shown each
    have counted : (behind b ⟨stream, none⟩).bytes.length / b.pageSize.toNat = n - 1 := Nat.eq_sub_of_add_eq count
    have positive := format.positive
    refine ⟨d, found, h, ?_, reaches.index, stored, left, same.trans size, grown, good, shown, fun p low high => ?_⟩
    · rw [reached, appended, Option.map_some, Snapshotter.finish]
      simp only [Snapshotter.checkpoint, quiet.reopens, quiet.checkpoints, Option.map_none]
    · rw [shown] at high
      have page := each p low high
      rw [counted] at page
      have listed := @snapshot_page b.pageSize stream (n - 1) p low (by omega)
      rw [Nat.sub_add_cancel positive] at listed
      exact Option.some.inj (page.symm.trans listed)
  · exact absurd rfl wrong

/-- A checkpoint shows the same, and leaves as many slots to the frames behind it. -/
def KeepsSlots (run : WALAppender → WALAppender) : Prop :=
  ∀ a hdr count, a.shm.readHeader = some hdr → FreeSlots a.shm hdr.maxFrame count → (a.log hdr).Intact →
    ∃ latest, (run a).shm.readHeader = some latest ∧ FreeSlots (run a).shm latest.maxFrame count ∧
      latest.maxFrame.toNat ≤ hdr.maxFrame.toNat ∧ (run a).pageSize = a.pageSize ∧ ((run a).log latest).Intact ∧
      ((run a).log latest).visible = (a.log hdr).visible

theorem keepsSlots_checkpoints (ks : List UInt32) : KeepsSlots fun a => ks.foldl WALAppender.checkpoint a := by
  intro a hdr count header free intact
  have settled := checkpoints_settle header ks
  exact ⟨hdr, settled.header header, settled.slots _ _ free, Nat.le_refl _, settled.pageSize, settled.visible intact⟩

private theorem log_truncated (a : WALAppender) (hdr : Header) (salt2 : UInt32) :
    (Epoch.truncated (Epoch.restarted a hdr salt2).1).log (Epoch.restarted a hdr salt2).2 =
      (a.log hdr).restart hdr.pageCount.toNat := by
  have info : (Epoch.truncated (Epoch.restarted a hdr salt2).1).shm.readCheckpointInfo =
      a.shm.readCheckpointInfo.resetForRewind := readCheckpointInfo_writeCheckpointInfo _ _
  rw [WALAppender.log, info]
  rfl

/-- A log that starts again has all its slots. -/
theorem keepsSlots_truncate (salt2 : UInt32) : KeepsSlots (truncate salt2) := by
  intro a hdr count header free intact
  by_cases empty : hdr.maxFrame = 0
  · have same : truncate salt2 a = a := by rw [truncate, header, Option.elim_some, if_pos empty]
    rw [same]
    exact ⟨hdr, header, free, Nat.le_refl _, rfl, intact, rfl⟩
  · have copied : a.checkpoint hdr.maxFrame = a.copied hdr hdr.maxFrame := by
      rw [WALAppender.checkpoint, header, Option.elim_some, if_neg (not_or.mpr ⟨empty, by simp⟩)]
    have cut : truncate salt2 a = Epoch.truncated (Epoch.restarted (a.copied hdr hdr.maxFrame) hdr salt2).1 := by
      rw [truncate, header, Option.elim_some, if_neg empty, copied]
    have someFrame := log_nonempty a empty
    have all : hdr.maxFrame.toNat = (a.log hdr).frames.length := (log_length a hdr).symm
    rw [cut]
    refine ⟨_, Epoch.restarted_header _ hdr salt2, freeSlots_start _ _, Nat.zero_le _, rfl, ?_, ?_⟩
    · rw [log_truncated]
      exact .restart _ _
    · rw [log_truncated, log_copied]
      exact (PageLog.visible_restart (intact.checkpoint (Nat.le_of_eq all)) someFrame all (.inr rfl)).trans
        (PageLog.visible_checkpoint intact _ someFrame)

private theorem truncate_shows (salt2 : UInt32) (header : a.shm.readHeader = some hdr) (intact : (a.log hdr).Intact) :
    Shows (truncate salt2 a) (a.log hdr).visible := by
  obtain ⟨latest, stored, -, -, -, -, same⟩ := keepsSlots_truncate salt2 a hdr 0 header (freeSlots_zero _ _) intact
  refine ⟨latest, stored, ?_⟩
  rw [same]
  exact .refl _

def truncating (salt2 : UInt32) : Checkpoint where
  run := truncate salt2
  keeps header intact := truncate_shows salt2 header intact

end Restored

/-- A stream that breaks off is in the format itself exactly if it does so behind a whole page. -/
theorem format_take_iff {pageSize : UInt32} {stream : Bytes} {n k : Nat} (format : Format pageSize stream n)
    (short : k ≤ stream.length) :
    (∃ m, Format pageSize (stream.take k) m) ↔ ∃ m, 1 ≤ m ∧ k = snapshotHeaderSize + m * pageSize.toNat := by
  constructor
  · rintro ⟨m, cut⟩
    have length := cut.length
    rw [List.length_take_of_le short] at length
    exact ⟨m, cut.positive, length⟩
  · rintro ⟨m, positive, rfl⟩
    have page : pageSize.toNat ≤ m * pageSize.toNat := Nat.le_mul_of_pos_left _ positive
    have header : 8 ≤ snapshotHeaderSize + m * pageSize.toNat := Nat.le_trans (by decide) (Nat.le_add_right _ _)
    refine ⟨m, positive, List.length_take_of_le short, ?_, ?_, ?_⟩
    · rw [beUint32_take (Nat.le_trans (by decide) header)]
      exact format.magic
    · rw [beUint32_take header]
      exact format.version
    · have first : ((stream.take (snapshotHeaderSize + m * pageSize.toNat)).drop snapshotHeaderSize).take pageSize.toNat =
          (stream.drop snapshotHeaderSize).take pageSize.toNat := by
        rw [List.drop_take, Nat.add_sub_cancel_left, List.take_take, Nat.min_eq_left page]
      rw [first]
      exact format.encoded

private theorem snapshot_take {pageSize : UInt32} (stream : Bytes) {n m : Nat} :
    (Restore.snapshot pageSize (stream.take (snapshotHeaderSize + m * pageSize.toNat)) m).Same
      { Restore.snapshot pageSize stream n with size := m } := by
  refine ⟨rfl, fun p positive inside => ?_⟩
  have inside : p ≤ m := inside
  have enough : (p - 1) * pageSize.toNat + pageSize.toNat ≤ m * pageSize.toNat := by
    rw [← Nat.succ_mul]
    exact Nat.mul_le_mul_right _ (by omega)
  simp only [Restore.snapshot]
  rw [List.drop_take, List.take_take, Nat.min_eq_left (by omega)]

/-- The format has no number of pages. A snapshot that was cut short is restored without an error
exactly if the cut is behind a whole page, and the database is then as short; otherwise nothing
changes. -/
theorem cut_restored_iff {b : Snapshotter} {a : WALAppender} {hdr : Header} {w : Surroundings} {stream : Bytes} {n k : Nat}
    (size : a.pageSize = b.pageSize) (header : a.shm.readHeader = some hdr) (started : hdr.isInit = true ∧ 0 < hdr.pageSize)
    (intact : (a.log hdr).Intact) (quiet : w.Quiet) (format : Format b.pageSize stream n) (short : k ≤ stream.length)
    (room : hdr.maxFrame.toNat + stream.length / b.pageSize.toNat < 2 ^ 32)
    (slots : HasSlots a w.chance (stream.length / b.pageSize.toNat)) :
    ∃ c result, b.restore ⟨stream.take k, none⟩ a w = some (c, result) ∧
      ((∃ m, 1 ≤ m ∧ k = snapshotHeaderSize + m * b.pageSize.toNat ∧ (∃ h, result = .ok h) ∧
          Shows c { Restore.snapshot b.pageSize stream n with size := m }) ∨
        (¬ ∃ m, 1 ≤ m ∧ k = snapshotHeaderSize + m * b.pageSize.toNat) ∧ (∃ failure, result = .error failure) ∧
          Shows c (a.log hdr).visible) := by
  have length : (stream.take k).length / b.pageSize.toNat ≤ stream.length / b.pageSize.toNat :=
    Nat.div_le_div_right (List.length_take_le' _ _)
  have fits : hdr.maxFrame.toNat + (stream.take k).length / b.pageSize.toNat < 2 ^ 32 :=
    Nat.lt_of_le_of_lt (Nat.add_le_add_left length _) room
  by_cases whole : ∃ m, 1 ≤ m ∧ k = snapshotHeaderSize + m * b.pageSize.toNat
  · obtain ⟨m, cut⟩ := (format_take_iff format short).mpr whole
    have pages : m + 0 ≤ stream.length / b.pageSize.toNat := by
      refine Nat.le_trans ?_ length
      rw [Nat.le_div_iff_mul_le (format_sized format), cut.length]
      exact Nat.le_add_left _ _
    obtain ⟨d, latest, h, ran, -, stored, -, -, -, good, same⟩ :=
      restore_slots size header started intact quiet cut fits (hasSlots_mono slots pages)
    obtain ⟨final, after, kept⟩ := w.checkpoint.keeps stored good
    have count := cut.length
    rw [List.length_take_of_le short] at count
    subst count
    exact ⟨_, _, ran, .inl ⟨m, cut.positive, rfl, ⟨h, rfl⟩, final, after, (kept.trans same).trans (snapshot_take stream)⟩⟩
  · obtain ⟨c, result, ran⟩ := restore_returns (r := ⟨stream.take k, none⟩) size header (.inl started)
      fits (quiet_enters quiet header) (quiet_harmless quiet _) fun opened open_ => by
        rw [openAppender_started size header started quiet.opens open_]
        exact hasSlots_mono slots length
    rcases restore_cases size header (.inl started) intact fits ran with ⟨m, installs, -⟩ | ⟨-, failed, shows_⟩
    · exact absurd ((format_take_iff format short).mp ⟨m, installs.format⟩) whole
    · exact ⟨c, result, ran, .inr ⟨whole, failed, shows_⟩⟩

/-- A snapshot of three pages that is cut behind the second, and one that is cut within it. -/
theorem cut_restored_threePage : ∃ start a, (WALAppender.fresh 512 Proofs.Store.twoPages).maybeBootstrap 0 1 2 = some
    (.ok start) ∧
    exec Store.step start [.append ⟨true, 0, 0⟩ [Proofs.Store.image 1 1 2], Slots.givenUp] = some a ∧
    (∃ c h, small.restore ⟨threePageStream.take 1040, none⟩ a calm = some (c, .ok h) ∧
      Shows c { Restore.snapshot 512 threePageStream 3 with size := 2 }) ∧
    ∃ c failure, small.restore ⟨threePageStream.take 1000, none⟩ a calm = some (c, .error failure) ∧
      Shows c (Store.overwrite Proofs.Store.twoPages [Proofs.Store.image 1 1 2]) := by
  obtain ⟨start, a, hdr, booted, executed, ready, -, size, one, started, intact, visible⟩ := Slots.abandoned
  have long : threePageStream.length = 1552 := by decide +kernel
  have cut {k : Nat} (short : k ≤ 1552) := @cut_restored_iff small a hdr calm threePageStream 3 k size ready.header started intact
    ⟨rfl, rfl, fun _ => rfl, rfl, rfl⟩ format_threePage (by rw [long]; exact short) (room_threePage one) (ready.hasSlots _ _)
  refine ⟨start, a, booted, executed, ?_, ?_⟩
  · obtain ⟨c, result, ran, ⟨m, -, count, ⟨h, rfl⟩, shows_⟩ | ⟨never, -⟩⟩ := @cut 1040 (by decide)
    · have count : 1040 = 16 + m * 512 := count
      obtain rfl : m = 2 := by omega
      exact ⟨c, h, ran, shows_⟩
    · exact absurd ⟨2, by decide, rfl⟩ never
  · obtain ⟨c, result, ran, ⟨m, positive, count, -⟩ | ⟨-, ⟨failure, rfl⟩, shows_⟩⟩ := @cut 1000 (by decide)
    · have count : 1000 = 16 + m * 512 := count
      omega
    · rw [visible] at shows_
      exact ⟨c, failure, ran, shows_⟩

section Nodes
variable {Id : Type}

def lastIndex (entries : List (Committed Id)) : Nat := (entries.getLast?.map Committed.index).getD 0

private theorem lastIndex_drop (entries : List (Committed Id)) (k : Nat) :
    ((entries.drop k).getLast?.map Committed.index).getD (lastIndex (entries.take k)) = lastIndex entries := by
  rcases Nat.lt_or_ge k entries.length with inside | beyond
  · rw [List.getLast?_drop, if_neg (Nat.not_le.mpr inside)]
    obtain ⟨e, final⟩ : ∃ e, entries.getLast? = some e :=
      ⟨_, List.getLast?_eq_some_getLast (List.ne_nil_of_length_pos (Nat.zero_lt_of_lt inside))⟩
    rw [lastIndex, lastIndex, final]
    rfl
  · rw [List.drop_of_length_le beyond, List.take_of_length_le beyond]
    rfl

private theorem persisted_stream {s : Snapshotter} {source : Node Id} {t t' : TempFiles} {c : Capture} {rc : HeaderedReader}
    {p : Persisting} {left : HeaderedReader} {sink : Sink} (captured : Persist.snapshot s source t c = (t', .ok rc))
    (persisted : rc.persist t' p = some (left, sink, none)) :
    sink.bytes = (newSnapshotHeader (UInt64.ofNat source.fsm.lastApplied)).val ++ c.image := by
  unfold Persist.snapshot at captured
  rcases Persist.snapshot_cases s (UInt64.ofNat source.fsm.lastApplied) t c with ⟨err, ran⟩ | ⟨err, ran⟩ | ran
  · rw [ran] at captured
    cases captured
  · rw [ran] at captured
    cases captured
  · rw [ran] at captured
    cases captured
    have content : (t.create.write t.next c.image).files t.next = some c.image := Function.update_self _ _ _
    have done := Persist.persist_rest (fun _ => by rw [content]) (fun wrong => by cases wrong) persisted
    exact done.whole (by rw [done.closed.mpr rfl]; decide)

/-- A snapshot that a node took after the first `k` entries, persisted without an error and restored
on another node, brings that node to the end of the log together with the entries behind it. What it
shows differs at most in the database header. -/
theorem snapshot_catches_up [DecidableEq Id] {b : Snapshotter} {start : Database Bytes} {entries : List (Committed Id)}
    (complete : Store.allComplete b.pageSize start (entries.map fun e => e.txn.frames)) {k : Nat}
    {source : Node Id} {shown : Database Bytes}
    (current : shown.Same (((entries.take k).map fun e => e.txn.frames).foldl Store.overwrite start))
    (applied : source.fsm.lastApplied = lastIndex (entries.take k)) (bounded : source.fsm.lastApplied < 2 ^ 64)
    {s : Snapshotter} {t t' : TempFiles} {c : Capture} {rc : HeaderedReader} {p : Persisting}
    {left : HeaderedReader} {sink : Sink} (backup : Copies b.pageSize shown c.image)
    (captured : Persist.snapshot s source t c = (t', .ok rc)) (persisted : rc.persist t' p = some (left, sink, none))
    {target : Node Id} {hdr : Header} (markers : ∀ id, target.fsm.skipMarkers id = none)
    (loans : ∀ id, target.fsm.loans id = false) (size : target.walAppender.pageSize = b.pageSize)
    (header : target.walAppender.shm.readHeader = some hdr) (started : hdr.isInit = true ∧ 0 < hdr.pageSize)
    (intact : (target.walAppender.log hdr).Intact) {w : Surroundings} (quiet : w.Quiet) (keeps : KeepsSlots w.checkpoint.run)
    {runs : List (Committed Id × Around)} (given : runs.map Prod.fst = entries.drop k)
    (room : hdr.maxFrame.toNat + sink.bytes.length / b.pageSize.toNat +
      ((entries.drop k).map fun e => e.txn.frames.length).sum < 2 ^ 32)
    (slots : HasSlots target.walAppender w.chance (sink.bytes.length / b.pageSize.toNat +
      ((entries.drop k).map fun e => e.txn.frames.length).sum)) :
    ∃ restored final log, Restore.restore b target ⟨sink.bytes, none⟩ w = some (restored, .ok ()) ∧
      restored.replay (runs.map fun run => (run.1.log, run.2)) = some (final, none) ∧
      final.walAppender.published = some log ∧
      Database.Alike Alike ((entries.map fun e => e.txn.frames).foldl Store.overwrite start) log.visible ∧
      final.fsm.lastApplied = lastIndex entries := by
  have stream := persisted_stream captured persisted
  have format := format_copied backup (UInt64.ofNat source.fsm.lastApplied)
  have alike := alike_copied backup (UInt64.ofNat source.fsm.lastApplied)
  have index := stream_index (UInt64.ofNat source.fsm.lastApplied) c.image
  rw [← stream] at format alike index
  have fits : hdr.maxFrame.toNat + sink.bytes.length / b.pageSize.toNat < 2 ^ 32 := Nat.lt_of_le_of_lt (Nat.le_add_right _ _) room
  have pages : shown.size ≤ sink.bytes.length / b.pageSize.toNat := by
    rw [Nat.le_div_iff_mul_le (format_sized format), format.length]
    exact Nat.le_add_left _ _
  obtain ⟨d, latest, header', ran, number, written, free, sized, grown, good, same⟩ :=
    restore_slots size header started intact quiet format fits (hasSlots_mono slots (Nat.add_le_add_right pages _))
  obtain ⟨found, settled, left, fewer, kept, still, view⟩ := keeps d latest _ written free good
  have stored : header'.lastAppliedIndex.toNat = lastIndex (entries.take k) := by
    rw [number, index, ← applied]
    exact Nat.mod_eq_of_lt bounded
  have restarted : Restarted b.pageSize (hdr.maxFrame.toNat + sink.bytes.length / b.pageSize.toNat)
      ((entries.drop k).map fun e => e.txn.frames.length).sum
      (⟨target.fsm.store header'.lastAppliedIndex.toNat, w.checkpoint.run d⟩ : Node Id) (d.log latest).visible :=
    ⟨markers, loans, kept.trans sized, found, settled, left, by omega, still, view⟩
  obtain ⟨final, log, replayed, published, visible, last⟩ := replay_drop complete given restarted room
  refine ⟨_, final, log, ?_, replayed, published, ?_, ?_⟩
  · rw [Restore.restore, ran]
    rfl
  · have parts : entries.map made = (entries.take k).map made ++ (entries.drop k).map made := by
      rw [← List.map_append, List.take_append_drop]
    have covers := allComplete_covers complete
    rw [foldl_overwrite] at current
    have before := (current.symm.alike alike).same same.symm
    rw [parts] at covers
    rw [visible, foldl_overwrite, parts, List.foldl_append]
    exact before.foldl (fun p image => (rfl : Alike p image image)) covers.append
  · rw [last, ← lastIndex_drop entries k, ← stored]
    rfl

/-- A backup of the database after the first two entries of the history: the page size is in its header,
and the first page has changed once. -/
def copiedImage : Bytes := List.replicate 16 0 ++ [2, 0] ++ List.replicate 82 0 ++ List.replicate 412 1 ++ List.replicate 512 0

def caughtUp : Database Bytes := ((history.take 2).map fun e => e.txn.frames).foldl Store.overwrite onePage

private theorem copies_history : Copies 512 caughtUp copiedImage := by
  refine ⟨by decide +kernel, by decide +kernel, ⟨2, 0, by decide +kernel, by decide +kernel, by decide⟩, fun p positive inside => ?_⟩
  have few : p = 1 ∨ p = 2 := by
    have two : caughtUp.size = 2 := by decide +kernel
    omega
  rcases few with rfl | rfl <;> · rw [Alike]; decide +kernel

private theorem length_copied : ((newSnapshotHeader 2).val ++ copiedImage).length = 1040 := by
  decide +kernel

private theorem persists_copied : ∃ left, HeaderedReader.persist ⟨newSnapshotHeader 2, 0, 0, false⟩
    (TempFiles.create {} |>.write 0 copiedImage) { turns := List.replicate 1100 { read := 512 } } =
      some (left, ⟨(newSnapshotHeader 2).val ++ copiedImage, .closed⟩, none) :=
  Persist.persist_returns rfl rfl rfl (fun turn member => by rw [List.eq_of_mem_replicate member]; exact ⟨by decide, rfl, rfl⟩)
    ⟨rfl, rfl⟩ (by rw [List.length_replicate]; exact length_copied.trans_lt (by decide))

def cutting : Surroundings := { calm with checkpoint := truncating 9 }

private theorem cutting_quiet : cutting.Quiet := ⟨rfl, rfl, fun _ => rfl, rfl, rfl⟩

private theorem cutting_keepsSlots : KeepsSlots cutting.checkpoint.run := by
  dsimp only [cutting, truncating]
  exact keepsSlots_truncate 9

/-- A snapshot between the second and the third of five entries, for a node that has another
database and stopped in the middle of an append. The checkpoint cuts its log off. -/
theorem snapshot_catches_up_history : ∃ start a restored final log,
    (WALAppender.fresh 512 Proofs.Store.twoPages).maybeBootstrap 0 1 2 = some (.ok start) ∧
    exec Store.step start [.append ⟨true, 0, 0⟩ [Proofs.Store.image 1 1 2], Slots.givenUp] = some a ∧
    Restore.restore small (idle a) ⟨(newSnapshotHeader 2).val ++ copiedImage, none⟩ cutting =
      some (restored, .ok ()) ∧
    restored.replay (((history.drop 2).map fun e => (e, quiet)).map fun run => (run.1.log, run.2)) = some (final, none) ∧
    final.walAppender.published = some log ∧
    Database.Alike Alike ((history.map fun e => e.txn.frames).foldl Store.overwrite onePage) log.visible ∧
    final.fsm.lastApplied = 5 := by
  obtain ⟨start, a, hdr, booted, executed, ready, -, size, one, started, intact, -⟩ := Slots.abandoned
  have complete : Store.allComplete small.pageSize onePage (history.map fun e => e.txn.frames) := by
    refine ⟨⟨?_, ?_, ?_⟩, ⟨?_, ?_, ?_⟩, ⟨?_, ?_, ?_⟩, ⟨?_, ?_, ?_⟩, ⟨?_, ?_, ?_⟩, trivial⟩ <;> decide +kernel
  let source : Node Nat := ⟨{ lastApplied := 2 }, a⟩
  have captured : Persist.snapshot small source {} { image := copiedImage } =
      (TempFiles.create {} |>.write 0 copiedImage, .ok ⟨newSnapshotHeader 2, 0, 0, false⟩) := rfl
  obtain ⟨left, persisted⟩ := persists_copied
  have room : hdr.maxFrame.toNat + ((newSnapshotHeader 2).val ++ copiedImage).length / small.pageSize.toNat +
      ((history.drop 2).map fun e => e.txn.frames.length).sum < 2 ^ 32 := by
    rw [one, length_copied]
    decide +kernel
  have given : ((history.drop 2).map fun e => (e, quiet)).map Prod.fst = history.drop 2 := by
    rw [List.map_map]
    exact List.map_id _
  have current : caughtUp.Same (((history.take 2).map fun e => e.txn.frames).foldl Store.overwrite onePage) := by
    rw [caughtUp]
    exact .refl _
  have applied : source.fsm.lastApplied = lastIndex (history.take 2) := rfl
  have bounded : source.fsm.lastApplied < 2 ^ 64 := show 2 < 2 ^ 64 by decide
  have slots : HasSlots (idle a).walAppender cutting.chance (((newSnapshotHeader 2).val ++ copiedImage).length / small.pageSize.toNat +
      ((history.drop 2).map fun e => e.txn.frames.length).sum) := ready.hasSlots _ _
  have caught := @snapshot_catches_up Nat _ small onePage history complete 2
    source caughtUp current applied bounded small {} _ { image := copiedImage } _ _ _ _ copies_history captured persisted (idle a) hdr
    (fun _ => rfl) (fun _ => rfl) size ready.header started intact cutting
    cutting_quiet cutting_keepsSlots ((history.drop 2).map fun e => (e, quiet)) given
    (by dsimp only; exact room) (by dsimp only; exact slots)
  obtain ⟨restored, final, log, ran, replayed, published, alike, index⟩ := caught
  exact ⟨start, a, restored, final, log, booted, executed, ran, replayed, published, alike, index⟩

end Nodes

end Literaft.Proofs.CatchUp
