import Ploinky.AgentPort.Spelling
import Ploinky.Edge.ApplyLock
import Ploinky.Edge.Restart
import Ploinky.Policy.Faithful
import Ploinky.RoutePlan.Confinement
import Ploinky.Deps.Canonical
import Ploinky.Downgrade.Progress
import Ploinky.Box.Replacement
import Ploinky.Hardware.SlotStaging
import Ploinky.Hardware.Propagation
import Ploinky.Hardware.CallerIdentity
import Ploinky.Hardware.ResolverCache
import Ploinky.Skills.LockRemains
import Ploinky.Skills.IgnoreBlock
import Ploinky.Workspace.MaintenanceExclusion
import Ploinky.Graph.GraphInvariant
import Ploinky.Replay.Ledger
import Ploinky.Replay.Accounting
import Ploinky.Policy.ToolLookup
import Ploinky.Tasks.Lifecycle
import Ploinky.Tasks.Log
import Ploinky.Tasks.Persistence
import Ploinky.Relay.Frames
import Ploinky.Graph.Topology
import Ploinky.Graph.WaitMode
import Ploinky.Graph.RouteAgreement
import Ploinky.Webtty.Revocation
