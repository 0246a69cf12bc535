import Literaft.Library.Machine
import Literaft.Library.PageLog
import Literaft.Shm
import Literaft.Proofs.Materialize
import Literaft.Proofs.Fencing
import Literaft.Proofs.Snapshots
import Literaft.Proofs.Bases
import Literaft.Proofs.Proposals
import Literaft.Proofs.Withhold
import Literaft.Proofs.Replication
import Literaft.Proofs.Retries
import Literaft.Proofs.Admission
import Literaft.Proofs.Store
import Literaft.Proofs.Crash
import Literaft.Proofs.Epoch
import Literaft.Proofs.Batches
import Literaft.Proofs.Readers
import Literaft.Proofs.Slots
import Literaft.Proofs.Transparency
import Literaft.Proofs.Replay
import Literaft.Proofs.Faults
import Literaft.Proofs.FrameChannel
import Literaft.Proofs.Rewind
import Literaft.Proofs.Torn
import Literaft.Proofs.WriteLock
import Literaft.Proofs.RaftSqlite
import Literaft.Proofs.Restore
import Literaft.Proofs.CatchUp
import Literaft.Proofs.ShmFile
import Literaft.Proofs.Checkpointer
import Literaft.Proofs.Forwarding
import Literaft.Proofs.RaftStore
import Literaft.Proofs.DbLock
import Literaft.Proofs.GateClose
import Literaft.Proofs.Voters
import Literaft.Proofs.LogSink
import Literaft.Commit
import Literaft.Proofs.Commit
