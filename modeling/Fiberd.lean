import Fiberd.Ledger.LedgerCapacity
import Fiberd.Home.HomeIdle
import Fiberd.Home.HomeRemove
import Fiberd.Audit.GroupCommit
import Fiberd.Audit.SpoolVerifies
import Fiberd.Home.HomeParks
import Fiberd.Grants.GrantDir
import Fiberd.Grants.KeyCache
import Fiberd.Home.HomeDrained
import Fiberd.Node.NodeReconcile
import Fiberd.Artifact.SealOpened
import Fiberd.Mobility.TakenTags
import Fiberd.Host.ParentPrune
import Fiberd.Host.FiberDeath
import Fiberd.Host.PortOwned
import Fiberd.Images.ParentHash
import Fiberd.Host.Pools
import Fiberd.Rpc.Callers
import Fiberd.Cloudhv.CloudPark
import Fiberd.Engine.EngineMaps
import Fiberd.Engine.EngineSlices
import Fiberd.Host.Limits
import Fiberd.Node.DenyList
import Fiberd.Node.Persist
import Fiberd.Node.RateLimit
import Fiberd.Rpc.Admission
import Fiberd.Home.Drive
