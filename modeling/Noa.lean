import Noa.Framework.LittleEndian
import Noa.Framework.Machine
import Noa.Framework.Progress
import Noa.Framework.Map
import Noa.Framework.Pending
import Noa.Framework.Await
import Noa.Framework.Program
import Noa.Framework.Crew
import Noa.Framework.Tickets
import Noa.Framework.Loop
import Noa.Framework.Handler
import Noa.Framework.Text
import Noa.Framework.Stop
import Noa.Framework.Utf8
import Noa.Framework.Json
import Noa.Framework.Ip
import Noa.Framework.IpPrint
import Noa.Framework.Octets
import Noa.Framework.Selection
import Noa.Channel.Message
import Noa.Channel.Grammar
import Noa.Channel.Connect
import Noa.Edge.Wire
import Noa.Edge.Crypto
import Noa.Edge.Services
import Noa.Edge.Data.ChannelState
import Noa.Edge.Data.ConnIds
import Noa.Edge.Data.Accept
import Noa.Edge.Data.Requests
import Noa.Edge.Data.Teardown
import Noa.Edge.Data.Close
import Noa.Edge.Data.Sequence
import Noa.Edge.Data.Conn
import Noa.Edge.Data.Stream
import Noa.Edge.Data.RxLoop
import Noa.Edge.Data.RxRouting
import Noa.Edge.Data.RxAccounting
import Noa.Edge.Data.Handshake
import Noa.Edge.Client.State
import Noa.Edge.Client.Commands
import Noa.Edge.Client.Programs
import Noa.Edge.Client.Effects
import Noa.Edge.Client.Footprint
import Noa.Edge.Client.DialCache
import Noa.Edge.Client.Rotation
import Noa.Edge.Client.Reauth
import Noa.Edge.Client.Polling
import Noa.Edge.Client.Pool
import Noa.Edge.Client.RefreshTimer
import Noa.Edge.Client.Connect
import Noa.Edge.ListenerManager.Passes
import Noa.Edge.ListenerManager.Terminators
import Noa.Edge.ListenerManager.Connects
import Noa.Tunnel.Resolve.Allowed
import Noa.Tunnel.Resolve.Cidr
import Noa.Tunnel.Resolve.Timeout
import Noa.Tunnel.Resolve.Translate
import Noa.Tunnel.Resolve.Target
import Noa.Tunnel.Intercept.Dns
import Noa.Tunnel.Intercept.SyntheticIp
import Noa.Tunnel.Intercept.Lookup
import Noa.Tunnel.Intercept.PoolExhaustion
import Noa.Tunnel.Intercept.Deregistration
import Noa.Tunnel.Intercept.Resolver
import Noa.Tunnel.Intercept.Dispatch
import Noa.Tunnel.Intercept.Routable
import Noa.Tunnel.Intercept.ServicePoll
import Noa.Tunnel.Intercept.Flows
import Noa.Tunnel.Overlay
import Noa.Tunnel.Udp.Vconn
import Noa.Tunnel.Udp.Ledger
import Noa.Tunnel.Udp.Relay
import Noa.Tunnel.Intercept.SpliceKill
import Noa.Tunnel.Udp.Kill
import Noa.Tunnel.Intercept.Routes
import Noa.Tunnel.Intercept.DnsServer.Serializer
import Noa.Tunnel.Intercept.DnsServer.Parser
import Noa.Tunnel.Intercept.DnsServer.Size
import Noa.Tunnel.Intercept.ProxyResolve.Manager
import Noa.Tunnel.Intercept.DnsServer.Router
import Noa.Tunnel.Intercept.DnsServer.Echo
import Noa.Tunnel.Intercept.DnsServer.Effects
import Noa.Tunnel.Intercept.ProxyResolve.Wiring
import Noa.Tunnel.Intercept.ProxyResolve.Delivery
import Noa.Tunnel.Intercept.ProxyResolve.Request
import Noa.Tunnel.Intercept.ProxyResolve.Jobs
import Noa.Tunnel.Intercept.Upstream
import Noa.Tunnel.Intercept.Expiry
import Noa.Tunnel.Intercept.DnsTcp.ProxyConn
import Noa.Framework.JsonWrite
import Noa.Tunnel.AppData
import Noa.Framework.Form
import Noa.Edge.Oidc
import Noa.Framework.Http
import Noa.Enroll.Bootstrap
import Noa.Framework.Locks
import Noa.Edge.Client.SessionCert
import Noa.Edge.Client.CertRuns
import Noa.Edge.Client.FanOut
