import ConnectUnit.Replays
import ConnectUnit.PeerLinkSound
import ConnectUnit.RouteUpdate
import ConnectUnit.ClaimsClear
import ConnectUnit.GossipNet
import ConnectUnit.PmtudMinimum
import ConnectUnit.PmtudCampaign
import ConnectUnit.PmtudSearch
import ConnectUnit.FecRecovery
import ConnectUnit.InboundSound
import ConnectUnit.Delivery
import ConnectUnit.PacingBudget
import ConnectUnit.PacingRequeue
import ConnectUnit.OverflowSound
import ConnectUnit.RouteMetrics
import ConnectUnit.FecTxLedger
import ConnectUnit.ConfigStoreSound
import ConnectUnit.Flood
import ConnectUnit.Convergence
import ConnectUnit.Reactions
import ConnectUnit.VipUnique
import ConnectUnit.RateLimit
import ConnectUnit.Roster
import ConnectUnit.LocalVip
import ConnectUnit.Timers
import ConnectUnit.FecLoss
import ConnectUnit.PacingWork
import ConnectUnit.PacingLanes
import ConnectUnit.PacingOrder
import ConnectUnit.PacingReconfig
import ConnectUnit.PacingSanitize
import ConnectUnit.FecRatio
import ConnectUnit.RelaySelect
import ConnectUnit.Multipath
import ConnectUnit.BaseDelay
import ConnectUnit.HealingSound
