import Blackboard.Proof.AtMostOnce
import Blackboard.Proof.Atomic
import Blackboard.Proof.Deactivation
import Blackboard.Proof.GrantAuthority
import Blackboard.Proof.GuestVisibility
import Blackboard.Proof.IssueLedger
import Blackboard.Proof.MessageLedger
import Blackboard.Proof.Mediation
import Blackboard.Proof.Migration
import Blackboard.Proof.OneShot
import Blackboard.Proof.Paging
import Blackboard.Proof.PolicyIntegrity
import Blackboard.Proof.Rejection
import Blackboard.Proof.Sessions
import Blackboard.Proof.Signing
import Blackboard.Proof.Sweep
import Blackboard.Proof.Throttle
import Blackboard.Proof.Base32
import Blackboard.Proof.Listing
import Blackboard.Proof.Directory
import Blackboard.Proof.ChannelNames
import Blackboard.Proof.DeliveryIds
import Blackboard.Proof.McpHeader
import Blackboard.Proof.Attribution
import Blackboard.Proof.Preflight
import Blackboard.Proof.Timeline
import Blackboard.Model.AccessRoutes
import Blackboard.Model.AdminRoutes
import Blackboard.Model.Rpc
import Blackboard.Model.Runtime
import Blackboard.Proof.Authentic
import Blackboard.Proof.Conserved
import Blackboard.Proof.Entitled
import Blackboard.Proof.SelfAudit
import Blackboard.Proof.Transports
