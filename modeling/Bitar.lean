import Bitar.Lib.Pieces
import Bitar.Lib.Runs
import Bitar.Lib.BlockStore
import Bitar.Lib.Pool
import Bitar.Lib.Slots
import Bitar.Lib.Search
import Bitar.Lib.Footprint
import Bitar.Lib.Rows
import Bitar.Lib.LeadsTo
import Bitar.Configuration
import Bitar.SegSizes
import Bitar.WindowSizes
import Bitar.Lcores
import Bitar.DeviceMemory
import Bitar.MemoryPool
import Bitar.RtemallocPool
import Bitar.Tracker
import Bitar.MemzoneOwnership
import Bitar.SharedPool
import Bitar.Operation
import Bitar.QueuePairMemory
import Bitar.Preallocate
import Bitar.Assemble
import Bitar.Device
import Bitar.PoolSizes
import Bitar.Bursts
import Bitar.Steps
import Bitar.Oblivious
import Bitar.Bookkeeping
import Bitar.Conservation
import Bitar.SourceFeed
import Bitar.Progress
import Bitar.Incompressible
import Bitar.AssemblingStep
import Bitar.ArrayBounds
import Bitar.MemzoneTraffic
import Bitar.ZonesInUse
import Bitar.CompressOutput
import Bitar.DecompressOutput
import Bitar.RoundTrip
import Bitar.Release
import Bitar.Leaks
import Bitar.Rounds
import Bitar.Recovery
import Bitar.PoolRoom
import Bitar.Histories
import Bitar.Initialize
import Bitar.Driver
import Bitar.Sessions
import Bitar.EntryGuard
import Bitar.Accounting
import Bitar.Recycling
import Bitar.ErrorCounts
import Bitar.Footprints
import Bitar.RaceFreedom
import Bitar.Episodes
import Bitar.ConcurrentOutput
import Bitar.ConcurrentRoundTrip
import Bitar.Places
import Bitar.Stored
import Bitar.Devices
import Bitar.CompressRounds
import Bitar.DecompressRounds
import Bitar.SplitInput
import Bitar.AsyncEvaluation
import Bitar.LaunchAndWait
import Bitar.DevicesPool
import Bitar.AsyncRounds
import Bitar.EvaluateAsync
import Bitar.AsyncProgress
import Bitar.BlueFieldDevices
import Bitar.SyncEvaluation
import Bitar.Evaluate
