import Literaft.Proofs.Writer
import Literaft.Proofs.Calls

/-! A follower that applies every approved transaction of a writer, in order and as a log
entry, sees the writer's database. Both sides refine a page log; their logs may be
checkpointed and started again at different times. -/

namespace Literaft.Proofs.Replication
open Library Wal Vfs Sqlite WalAppender Replica LogFile Calls Writer Session

variable {pageSize : UInt32}

/-- The follower's log is in order and shows `database`. -/
structure Shows (pageSize : UInt32) (a : WALAppender) (database : Database Bytes) : Prop where
  size : a.pageSize = pageSize
  log : ∃ hdr, Ready a hdr ∧ (a.log hdr).Valid ∧ Database.Same database (a.log hdr).visible

theorem Shows.published {a : WALAppender} {database : Database Bytes} (shows : Shows pageSize a database) :
    ∃ log, a.published = some log ∧ Database.Same database log.visible := by
  obtain ⟨hdr, ready, _, same⟩ := shows.log
  exact ⟨_, by rw [WALAppender.published, ready.header, Option.map_some], same⟩

theorem Shows.checkpoints {a : WALAppender} {database : Database Bytes} (shows : Shows pageSize a database)
    (checkpoints : List UInt32) : Shows pageSize (checkpoints.foldl WALAppender.checkpoint a) database := by
  obtain ⟨hdr, ready, valid, same⟩ := shows.log
  have settled := checkpoints_settle ready.header checkpoints
  exact ⟨settled.pageSize.trans shows.size, hdr, ⟨settled.header ready.header, fun count => settled.slots _ _ (ready.slots count)⟩,
    settled.valid valid, by rw [(settled.visible valid.intact).2]; exact same⟩

private theorem entry_frames {frames : List Frame} {size : UInt32} (complete : Complete pageSize frames size) :
    ∃ body last, (Proto.newLogEntryTransaction frames).frames = body ++ [last] ∧
      (∀ f ∈ body ++ [last], f.data.length = pageSize.toNat) ∧
      last.header.nTruncate = size ∧ (body ++ [last]).length = frames.length ∧
      change (body ++ [last]) size = change frames size := by
  obtain ⟨⟨body, last, rfl, plain, marked, length⟩, sized⟩ := complete
  refine ⟨_, _, Proto.frames_newLogEntryTransaction (fun f member => (plain f member).1) (by rw [marked]; exact sized),
    ?_, marked, by simp, ?_⟩
  · intro f member
    rcases List.mem_append.mp member with inBody | isLast
    · obtain ⟨g, old, rfl⟩ := List.mem_map.mp inBody
      exact (plain g old).2
    · rw [List.mem_singleton.mp isLast]
      exact length
  · simp [change, Frame.image]

private theorem deliver_shows {a : WALAppender} {database : Database Bytes} {frames : List Frame} {size : UInt32}
    (shows : Shows pageSize a database) (complete : Complete pageSize frames size)
    (covers : database.Covers (change frames size))
    (room : ∀ hdr, a.shm.readHeader = some hdr → hdr.maxFrame.toNat + frames.length < 2 ^ 32) (around : Around) :
    ∃ b, deliver a frames around = some (b, none) ∧ Shows pageSize b (database.apply (change frames size)) := by
  obtain ⟨hdr, ready, valid, same⟩ := shows.log
  obtain ⟨body, last, entry, lengths, marked, count, images⟩ := entry_frames complete
  have brought : (a.log hdr).visible.Covers (change (body ++ [last]) last.header.nTruncate) := by
    rw [marked, images]
    exact covers.same same
  obtain ⟨b, latest, appended, done, size', still, visible⟩ := append_visible ready valid around.chance
    (by rw [shows.size]; exact lengths) (by rw [marked]; exact complete.sized)
    (by rw [count]; exact room hdr ready.header) brought
  have applied : Shows pageSize b (database.apply (change frames size)) := by
    refine ⟨size'.trans shows.size, latest, done, still, ?_⟩
    rw [visible, marked, images]
    exact same.apply covers
  refine ⟨_, ?_, applied.checkpoints around.checkpoints⟩
  rw [deliver, entry, appended, Option.map_some]

/-- The two sides stay together through any legal run of the writer. -/
theorem follow_shows {w : Writer} {a : WALAppender} {events : List Replica.Event} (sized : pageSize ≠ 0)
    (sound : Sound pageSize w) (legal : w.legalRun pageSize events) (shows : Shows pageSize a (w.log pageSize).visible)
    (around : Nat → Around) (room : fits a (w.entries pageSize events) around) :
    ∃ b, follow a (w.entries pageSize events) around = some b ∧
      Shows pageSize b ((w.run pageSize events).log pageSize).visible := by
  induction events generalizing w a around with
  | nil => exact ⟨a, rfl, shows⟩
  | cons event rest ih =>
    obtain ⟨kept, quiet | ⟨frames, size, proposed, complete, covers, visible⟩⟩ := writer_step sized legal.1 sound
    · rw [Writer.entries, quiet.1, List.nil_append] at room ⊢
      exact ih kept legal.2 (by rw [quiet.2]; exact shows) around room
    · rw [Writer.entries, proposed, List.singleton_append] at room ⊢
      obtain ⟨b, delivered, applied⟩ := deliver_shows shows complete covers room.1 (around 0)
      obtain ⟨c, followed, shown⟩ := ih kept legal.2 (by rw [visible]; exact applied) _ (room.2 _ delivered)
      refine ⟨c, ?_, shown⟩
      rw [follow, delivered, Option.bind_some]
      exact followed

/-- A follower that starts with the writer's page contents and applies each approved
transaction ends up with the writer's visible database. -/
theorem follower_sees_writer (sized : pageSize ≠ 0) {w : Writer} {base : Bytes} (head : headed pageSize base)
    (opened : w.gated = newGatedWALFile base) (valid : (w.log pageSize).Valid) {db : Database Bytes}
    (contents : Database.Same (w.log pageSize).visible db) {a : WALAppender} {walSize : Nat} {salt1 salt2 : UInt32}
    (booted : (WALAppender.fresh pageSize db).maybeBootstrap walSize salt1 salt2 = some (.ok a))
    {events : List Replica.Event} (legal : w.legalRun pageSize events) (around : Nat → Around)
    (room : fits a (w.entries pageSize events) around) :
    ∃ b log, follow a (w.entries pageSize events) around = some b ∧ b.published = some log ∧
      Database.Same ((w.run pageSize events).log pageSize).visible log.visible := by
  obtain ⟨hdr, ready, size, log⟩ := bootstrap_ready booted
  have shows : Shows pageSize a (w.log pageSize).visible :=
    ⟨size, hdr, ready, by rw [log]; exact PageLog.Valid.start db, by rw [log]; exact contents⟩
  have sound : Sound pageSize w := by
    refine ⟨?_, valid⟩
    rw [opened]
    refine (newGatedWALFile_cases head).imp_right fun known => ⟨⟨false, [], 0⟩, ?_, .inl (.inr rfl)⟩
    rw [known]
    exact represents_fresh pageSize
  obtain ⟨b, followed, shown⟩ := follow_shows sized sound legal shows around room
  obtain ⟨log, published, same⟩ := shown.published
  exact ⟨b, log, followed, published, same⟩

private theorem fits_one {a : WALAppender} {hdr : Shm.Header} {frames : List Frame} (around : Nat → Around)
    (header : a.shm.readHeader = some hdr) (room : hdr.maxFrame.toNat + frames.length < 2 ^ 32) : fits a [frames] around := by
  refine ⟨fun found read => ?_, fun _ _ => trivial⟩
  obtain rfl : hdr = found := Option.some.inj (header.symm.trans read)
  exact room

def smallWriter : Writer where
  gated := newGatedWALFile emptyLog
  wal := Storage.write (fun _ => 0) 0 emptyLog
  mxFrame := 0
  nPage := 0
  nBackfill := 0
  db := ⟨2, fun _ => filled 0⟩

/-- A spilled transaction is rolled back, one is approved, the log is copied and starts
again, and a transaction on the same page is rejected. -/
def smallRun : List Replica.Event :=
  [.txn ⟨[.append { pgNo := 2 } (filled 2), .overwrite 0 (filled 3)], none⟩,
    .txn ⟨[.append { pgNo := 2 } (filled 4)], some { header := { pgNo := 3, nTruncate := 3 }, data := filled 5 }⟩,
    .checkpoint 2, .restart emptyLog,
    .txn ⟨[], some { header := { pgNo := 2, nTruncate := 3 }, data := filled 6, answer := some ⟨"", none⟩ }⟩]

def smallAround (_ : Nat) : Around := ⟨⟨false, 3, 4⟩, [2]⟩

theorem follower_sees_smallRun : ∃ a, (WALAppender.fresh 512 smallWriter.db).maybeBootstrap 0 1 2 = some (.ok a) ∧
    ∃ b log, follow a (smallWriter.entries 512 smallRun) smallAround = some b ∧ b.published = some log ∧
      Database.Same ((smallWriter.run 512 smallRun).log 512).visible log.visible := by
  obtain ⟨a, booted⟩ := bootstrap_fresh 512 1 2 smallWriter.db (Nat.zero_le _)
  obtain ⟨hdr, ready, _, log⟩ := bootstrap_ready booted
  have entries : smallWriter.entries 512 smallRun =
      [[⟨{ pgNo := 2 }, filled 4⟩, ⟨{ pgNo := 3, nTruncate := 3 }, filled 5⟩]] := by decide +kernel
  have zero : hdr.maxFrame.toNat = 0 := by rw [← log_length a hdr, log, List.length_nil]
  have start : smallWriter.log 512 = { frames := [], size := 0, backfill := 0, file := smallWriter.db } := rfl
  have valid : (smallWriter.log 512).Valid := by
    rw [start]
    exact PageLog.Valid.start _
  have contents : Database.Same (smallWriter.log 512).visible smallWriter.db := by
    rw [start, PageLog.visible_start]
    exact .refl _
  have head : headed 512 emptyLog := by decide +kernel
  have opened : smallWriter.gated = newGatedWALFile emptyLog := rfl
  have legal : smallWriter.legalRun 512 smallRun := by decide +kernel
  have sized : (512 : UInt32) ≠ 0 := by decide
  refine ⟨a, booted, follower_sees_writer sized head opened valid contents booted legal smallAround ?_⟩
  rw [entries]
  exact fits_one _ ready.header (by rw [zero]; decide)

end Literaft.Proofs.Replication
