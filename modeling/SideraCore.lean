import SideraCore.Rule.LegacyPreMatch
import SideraCore.Dns.ModeReload
import SideraCore.Dns.RuleWalk.RaceReady
import SideraCore.Experimental.DnsClear
import SideraCore.Dns.Client.PersistentKeys
import SideraCore.Dns.Client.Checks
import SideraCore.Dns.Client.Hints
import SideraCore.Dns.Client.Edns
import SideraCore.Dns.Client.Freshness
import SideraCore.Dns.Client.LockBalance
import SideraCore.Dns.Multiplexer
import SideraCore.Dns.FakeIP.Ranges
import SideraCore.Config.XrayRouting
import SideraCore.Adapter.RunningOutbounds
import SideraCore.Config.XrayOutbounds
import SideraCore.Route.CloseHandler
import SideraCore.Route.PreMatch
import SideraCore.Sniff.Hello
import SideraCore.Command.RuntimeFile
import SideraCore.Dashboard.StoreDocument
import SideraCore.Dashboard.Servers
import SideraCore.Dashboard.SourceLimit
import SideraCore.Dashboard.FailedRequests
import SideraCore.Group.Selector
import SideraCore.Service.UserManager
import SideraCore.Vless.XorConn
import SideraCore.Vless.Expiry
import SideraCore.Transport.GunConn
import SideraCore.Transport.WebsocketClient
import SideraCore.Bridge.ReturnChecksum
