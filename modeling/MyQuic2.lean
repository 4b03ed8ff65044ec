import MyQuic2.Client.CloseSignal
import MyQuic2.Client.ContextWindow
import MyQuic2.Client.EgressMemo
import MyQuic2.Client.Encodable
import MyQuic2.Client.EnsureBinding
import MyQuic2.Client.HoldOnce
import MyQuic2.Client.QueueWindow
import MyQuic2.Client.Retire
import MyQuic2.Client.Startup
import MyQuic2.Client.ZeroRtt
import MyQuic2.Dns.Answers
import MyQuic2.Dns.Epoch
import MyQuic2.Dns.Refresh
import MyQuic2.Mqp.Rev2.Ctl
import MyQuic2.Mqp.Rev3.CtlStream
import MyQuic2.Mqp.TrainAgreement
import MyQuic2.Mqp.TrainIds
import MyQuic2.Server.Close
import MyQuic2.Server.Egress
import MyQuic2.Server.FlowAgreement
import MyQuic2.Server.GateVerdict
import MyQuic2.Server.PendingLookups
import MyQuic2.Server.RecentAddrs
import MyQuic2.Server.ReplyWindow
import MyQuic2.Server.RoutingDeadline
import MyQuic2.Server.SessionCount
import MyQuic2.Server.WindowBound
import MyQuic2.System.Authentication
import MyQuic2.System.ReplySource
import MyQuic2.Tcp.Pump
import MyQuic2.Udp.DirectSend
import MyQuic2.Udp.Grouped
import MyQuic2.Udp.PackedCost
import MyQuic2.Udp.Plan
import MyQuic2.Udp.Refusal
import MyQuic2.Udp.RoundRobin
