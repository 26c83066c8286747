import Aerosuite.Library.SortedSet
import Aerosuite.Library.Program
import Aerosuite.Pool.Redis
import Aerosuite.Pool.Slot
import Aerosuite.Pool.Lua
import Aerosuite.Library.History
import Aerosuite.Pool.LuaRuns
import Aerosuite.Library.Interleaving
import Aerosuite.Library.Text
import Aerosuite.Pool.Native
import Aerosuite.Pool.NativeRuns
import Aerosuite.Scale.Effects
import Aerosuite.Scale.Snapshot
import Aerosuite.Scale.Cleanup
import Aerosuite.Scale.MinSize
import Aerosuite.Scale.Evidence
import Aerosuite.Scale.Release
import Aerosuite.Scale.Scaler
import Aerosuite.Scale.Drain
import Aerosuite.Scale.Orphans
import Aerosuite.Scale.Owners
import Aerosuite.Scale.Daemon
import Aerosuite.Scale.Roles
import Aerosuite.Scale.MainView
import Aerosuite.Scale.Drained
import Aerosuite.Scale.Outage
import Aerosuite.Scale.Startup
import Aerosuite.Scale.Crash
import Aerosuite.Scale.DryRun
import Aerosuite.Scale.Rotation
import Aerosuite.Scale.Retry
import Aerosuite.Scale.Aftermath
import Aerosuite.Scale.Heal
import Aerosuite.Scale.Capacity
import Aerosuite.Scale.Completable
import Aerosuite.Scale.ScalerRuns
import Aerosuite.Scale.ScalerLoop
import Aerosuite.Scale.Hysteresis
import Aerosuite.Scale.Exclusion
import Aerosuite.Library.Binary64
import Aerosuite.Library.Translation
import Aerosuite.Pool.Equivalence
import Aerosuite.Pool.ReleaseRuns
import Aerosuite.Scale.BlindPass
import Aerosuite.Scale.Decrements
import Aerosuite.Scale.Replication
import Aerosuite.Ftp.Upload
import Aerosuite.Library.Search
import Aerosuite.Library.Brackets
import Aerosuite.Scale.RoleText
import Aerosuite.Library.Xml
import Aerosuite.Pool.Cooling
import Aerosuite.Aws.Extract
import Aerosuite.Aws.Asg
import Aerosuite.Aws.AsgCapacity
import Aerosuite.Plug.Items
import Aerosuite.Library.Lines
import Aerosuite.Scale.IpvsTable
import Aerosuite.Scale.DrainChoice
import Aerosuite.Scale.Measures
import Aerosuite.Library.Average
import Aerosuite.Scale.Slope
import Aerosuite.Scale.Bandwidth
import Aerosuite.Scale.NetDev
import Aerosuite.Scale.SlotJoin
import Aerosuite.Scale.WeightFiles
import Aerosuite.Library.Config
import Aerosuite.Pulse.Backends
import Aerosuite.Library.Prometheus
import Aerosuite.Library.Unescaped
import Aerosuite.Library.Families
import Aerosuite.Metrics.Exposition
import Aerosuite.Metrics.Store
import Aerosuite.Library.Rely
import Aerosuite.Pool.Heartbeat
import Aerosuite.Pool.HeartbeatRuns
import Aerosuite.Pool.Conservation
import Aerosuite.Library.Fallible
import Aerosuite.Plug.Attach
import Aerosuite.Plug.Guard
import Aerosuite.Library.Query
import Aerosuite.Plug.Ec2
import Aerosuite.Plug.Requests
import Aerosuite.Plug.Takeover
import Aerosuite.Metrics.CloudWatch
import Aerosuite.Metrics.Scrape
import Aerosuite.Pulse.Node
import Aerosuite.Pulse.Pool
import Aerosuite.Library.Nesting
import Aerosuite.Pulse.Failover
