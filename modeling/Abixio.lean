import Abixio.Heal.Targets
import Abixio.Heal.Versions
import Abixio.Heal.Deletes
import Abixio.Cluster.PlacementOrder
import Abixio.Cluster.Restart
import Abixio.Cluster.Fencing
import Abixio.Cluster.Membership
import Abixio.Storage.ChainRefinement
import Abixio.Storage.FlushSafety
import Abixio.Storage.KeyIndependence
import Abixio.Storage.RootedPaths
import Abixio.Storage.Segment
import Abixio.Raft.LogFaults
import Abixio.Raft.VoteStore
import Abixio.Raft.Restart
import Abixio.S3.Settings
import Abixio.Storage.CacheAccounting
import Abixio.Storage.RepairQueue
import Abixio.Policy.Principals
import Abixio.Heal.MrfQueue
import Abixio.S3.RangeGet
import Abixio.S3.ListPages
