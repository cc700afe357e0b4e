import Maeto.ControlPlane.Telemetry.Averages
import Maeto.ControlPlane.TenantConsistent
import Maeto.ControlPlane.WarmBoot
import Maeto.ControlPlane.Reservation.Matrix
import Maeto.ControlPlane.Reservation.Move
import Maeto.ControlPlane.Reservation.PruneInPlace
import Maeto.ControlPlane.Pce.Published
import Maeto.ControlPlane.Service.Exhaustion
import Maeto.ControlPlane.Service.Dispatched
import Maeto.ControlPlane.Service.Watched
import Maeto.Stamp.Grammar
import Maeto.Probes.Supervised
import Maeto.Simulator.Loaded
import Maeto.Simulator.Isolation
import Maeto.Simulator.Tracked
import Maeto.Generator.Distinct
import Maeto.Generator.TenantDb
import Maeto.ControlPlane.TopologyReport
import Maeto.Dataplane.SegmentLists
import Maeto.Stamp.Session
import Maeto.Dataplane.Resync
import Maeto.Fabric.Isolation
import Maeto.ControlPlane.Pce.OrderFree
import Maeto.Agent.Feeds
