import AceTun.RustStd.Utf8
import AceTun.RustStd.Text
import AceTun.RustStd.Net
import AceTun.RustStd.Slice
import AceTun.RustStd.Decimal
import AceTun.RustStd.Ipv6
import AceTun.RustStd.Block
import AceTun.RustStd.Netmask
import AceTun.RustStd.SocketAddr
import AceTun.RustStd.Stream
import AceTun.RustStd.HashMap
import AceTun.Config
import AceTun.Proxy.Http
import AceTun.Proxy.Socks5
import AceTun.Proxy.Conversation
import AceTun.Proxy.Request
import AceTun.Proxy.Decode
import AceTun.Proxy.Status
import AceTun.Dns.Parse
import AceTun.Dns.Name
import AceTun.Dns.Wire
import AceTun.Dns.Sound
import AceTun.Rule.Pattern
import AceTun.Rule.Engine
import AceTun.Rule.FirstMatch
import AceTun.RegexSyntax
import AceTun.Rule.Glob
import AceTun.Rule.Tokens
import AceTun.Rule.Lists
import AceTun.Rule.Suffix
import AceTun.Rule.Address
import AceTun.Rule.Cidr
import AceTun.Dns.Cache
import AceTun.Dns.History
import AceTun.Dns.Hostile
import AceTun.State
import AceTun.Flow
import AceTun.Builder
import AceTun.Dial
import AceTun.Proxy.Connect
import AceTun.Netstack.Handle
import AceTun.Netstack.Trace
import AceTun.Netstack.FailClosed
import AceTun.Netstack.LoopGuard
import AceTun.Netstack.Checks
import AceTun.Tasks
import AceTun.Netstack.Routines
import AceTun.Netstack.Accounting
import AceTun.Memo
import AceTun.Platform.Endpoints
import AceTun.Platform.Linux.Process
import AceTun.Platform.Linux.Inodes
import AceTun.Platform.Linux.Netlink
import AceTun.Platform.Macos.Process
import AceTun.Platform.Macos.Scan
import AceTun.Platform.Macos.Address
import AceTun.Platform.Attribution
import AceTun.Platform.Adapter
import AceTun.Lpm
import AceTun.Platform.Netcfg
import AceTun.Platform.Restore
import AceTun.Platform.Windows.Process
import AceTun.Platform.Intercept
import AceTun.Transition
import AceTun.Engine.Lifecycle
import AceTun.Engine.Steps
import AceTun.Engine.Ownership
import AceTun.Engine.Routes
import AceTun.Engine.OneTunnel
import AceTun.Engine.Teardown
import AceTun.Engine.Running
import AceTun.Engine.Interface
import AceTun.Tokio
import AceTun.Device.Contract
import AceTun.Device.Windows
import AceTun.Device.Unix
import AceTun.Device.Write
import AceTun.Netstack.Reentry
import AceTun.Netstack.Snapshot
import AceTun.Netstack.Names
import AceTun.Netstack.Report
import AceTun.Netstack.Relay
import AceTun.MemoThreads
import AceTun.Platform.Concurrent
import AceTun.Calls
import AceTun.Platform.Windows.Adapter
import AceTun.Platform.HardKill
import AceTun.Engine.Posts
import AceTun.Engine.Progress
import AceTun.Platform.Windows.Tables
import AceTun.DefaultProxy
import AceTun.Dialogue
import AceTun.RustStd.Speech
import AceTun.Proxy.Session
import AceTun.Netstack.ShortNames
import AceTun.Netstack.Unattributed
import AceTun.Netstack.Growth
import AceTun.Rule.Filters
