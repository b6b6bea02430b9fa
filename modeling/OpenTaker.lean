import OpenTaker.Attach
import OpenTaker.ClaimRace
import OpenTaker.Delivery
import OpenTaker.DrainedRing
import OpenTaker.SpaceRace
import OpenTaker.ProducerAccounting
import OpenTaker.DecodeBounds
import OpenTaker.FrameDecoding
import OpenTaker.SharedPtr
import OpenTaker.ObjectPools
import OpenTaker.Collector
import OpenTaker.PacketBlockPools
import OpenTaker.ModuleIdentity
import OpenTaker.FailedAttach
import OpenTaker.SlotIndependence
import OpenTaker.MplsFrames
import OpenTaker.GtpTunnels
import OpenTaker.SignalRuns
import OpenTaker.BufferPools
import OpenTaker.InetAddrs
import OpenTaker.NetUtil
import OpenTaker.InetAddrText
import OpenTaker.BlockFiles
import OpenTaker.SqliteStatements
import OpenTaker.SqliteTransactions
import OpenTaker.LuaBalance
import OpenTaker.TaskThreads
import OpenTaker.ReleaseListRuns
import OpenTaker.BlockCapacities
import OpenTaker.EndlessWalks
import OpenTaker.LayerNesting
import OpenTaker.PacketRefusals
import OpenTaker.FreeObjects
import OpenTaker.TaskOrder
import OpenTaker.TaskDispatch
import OpenTaker.ColumnRegistry
import OpenTaker.RefusedRegistrations
import OpenTaker.RegionTilings
import OpenTaker.ColumnRegions
import OpenTaker.Census
import OpenTaker.Singletons
import OpenTaker.FailedWrites
import OpenTaker.Allocations
import OpenTaker.Variants
import OpenTaker.VariantRuns
import OpenTaker.SocketReceives
import OpenTaker.SocketSends
import OpenTaker.SocketConnects
import OpenTaker.HexText
import OpenTaker.MacAddrs
import OpenTaker.IpAddrs
import OpenTaker.AddressLiterals
import OpenTaker.StringSplits
import OpenTaker.CommandLines
import OpenTaker.FilePaths
import OpenTaker.PrefixTrees
import OpenTaker.Directories
import OpenTaker.NtpFractions
import OpenTaker.NtpPackets
import OpenTaker.ProcessWaits
import OpenTaker.TokenPipelines
import OpenTaker.PacketTokens
import OpenTaker.TokenQueue
import OpenTaker.RayOutcome
import OpenTaker.FileCallbacks
import OpenTaker.PoolStops
import OpenTaker.LuaTables
import OpenTaker.NamedMemory
import OpenTaker.RingMemory
import OpenTaker.RingViews
import OpenTaker.RingPlaces
import OpenTaker.FinalBlocks
import OpenTaker.SqliteBindings
import OpenTaker.PacketReads
import OpenTaker.PacketPicks
import OpenTaker.ColumnTexts
import OpenTaker.ProcessHandles
import OpenTaker.LuaRecords
