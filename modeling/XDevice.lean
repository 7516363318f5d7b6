import XDevice.Lib.Bytes
import XDevice.Lib.Machine
import XDevice.Lib.Keyed
import XDevice.Lib.Quorum
import XDevice.Lib.Posix
import XDevice.Lib.Names
import XDevice.Lib.Directories
import XDevice.Lib.Outside
import XDevice.Lib.Cached
import XDevice.Lib.Xor
import XDevice.Lib.CommonPrefix
import XDevice.Common
import XDevice.Storage.Interface
import XDevice.Storage.Mock
import XDevice.Storage.MockRefinement
import XDevice.Storage.MockFailures
import XDevice.Storage.MockBounds
import XDevice.Storage.MockIntegrity
import XDevice.Storage.Manager
import XDevice.Storage.Registry
import XDevice.Storage.Failover
import XDevice.Storage.Routing
import XDevice.Storage.RaftStorage
import XDevice.Storage.RaftSessions
import XDevice.Storage.Confinement
import XDevice.Storage.SyncedFiles
import XDevice.Storage.SavedValues
import XDevice.Storage.PrefixIsolation
import XDevice.Storage.LoadedSize
import XDevice.Storage.Local
import XDevice.Storage.LocalRefinement
import XDevice.Storage.KeyPaths
import XDevice.Storage.ReadYourWrites
import XDevice.Storage.Interchange
import XDevice.Storage.DeletedFiles
import XDevice.Storage.OpenDescriptors
import XDevice.Storage.Sessions
import XDevice.Storage.LocalOffsets
import XDevice.Storage.ConcurrentWrites
import XDevice.Storage.Directories
import XDevice.Lib.LinkedList
import XDevice.Storage.MockMemory
import XDevice.Storage.MockMemoryRefinement
import XDevice.Lib.Linearize
import XDevice.Storage.LockedCalls
import XDevice.Storage.LockedManager
import XDevice.Raft.Node
import XDevice.Raft.Index
import XDevice.Raft.Timers
import XDevice.Raft.Majority
import XDevice.Raft.Cluster
import XDevice.Raft.ElectionSafety
import XDevice.Raft.Electability
import XDevice.Raft.Restarts
import XDevice.Raft.NodeRuns
import XDevice.Raft.Trace
import XDevice.Raft.TermDiscipline
import XDevice.Raft.TermGrowth
import XDevice.Raft.BackOff
import XDevice.Raft.LogArray
import XDevice.Raft.LogMemory
import XDevice.Raft.ClusterTable
import XDevice.Raft.Lifecycle
import XDevice.Raft.Shutdown
import XDevice.Wal.Format
import XDevice.Wal.Checksum
import XDevice.Wal.Engine
import XDevice.Wal.RecordChecksum
import XDevice.Wal.Reopen
import XDevice.Wal.Header
import XDevice.Wal.Durability
import XDevice.Wal.Records
import XDevice.Wal.Walk
import XDevice.Wal.Recovery
import XDevice.Wal.Bounds
