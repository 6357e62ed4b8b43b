import SimBricks.Axi.LiteManager
import SimBricks.Axi.ReadPort
import SimBricks.Axi.Stream
import SimBricks.Axi.WritePort
import SimBricks.Base.ConnsWait
import SimBricks.Base.Lookahead
import SimBricks.Dist.Progress
import SimBricks.Dist.Reports
import SimBricks.Dpu.DramStore
import SimBricks.Dpu.TierHops
import SimBricks.Dpu.CoreAccounting
import SimBricks.Hcop.Independence
import SimBricks.Hcop.LockQueue
import SimBricks.Hcop.PaxosAgreement
import SimBricks.Hcop.PaxosBounds
import SimBricks.Hcop.PaxosCommit
import SimBricks.I40e.DescriptorRuns
import SimBricks.I40e.Interrupts
import SimBricks.I40e.PtpClock
import SimBricks.I40e.Segmentation
import SimBricks.Mem.HalfAllocated
import SimBricks.Mem.RouteTable
import SimBricks.Mem.Transactions
import SimBricks.Nicbm.Dma
import SimBricks.Nicbm.EventQueue
import SimBricks.Nicbm.PartialSync
import SimBricks.Orchestration.NetCommands
import SimBricks.Orchestration.Urls
import SimBricks.Parser.Consumers
import SimBricks.Parser.Grammar
import SimBricks.Runtime.CleanUp
import SimBricks.Switch.Escalation
import SimBricks.Switch.HcopOrder
import SimBricks.Switch.HcopProgress
import SimBricks.Switch.NetSwitch
import SimBricks.Switch.PacketBounds
import SimBricks.Switch.PacketGenerator
import SimBricks.Switch.TierStickiness
import SimBricks.Tiers.BarrierRounds
import SimBricks.Tiers.ForwardingLoop
import SimBricks.Tiers.LockExclusion
import SimBricks.Tiers.Replies
import SimBricks.Orchestration.ObjectIds
import SimBricks.Runtime.LocalParallel
import SimBricks.I40e.RssHash
import SimBricks.Dist.SharedSocket
import SimBricks.I40e.RingLengths
import SimBricks.Hcop.PaxosValidity
