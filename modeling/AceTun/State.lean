import AceTun.Config
import AceTun.Dns.Cache
import AceTun.Rule.Engine

/-!
# The state that all flows share

`Shared` holds what a flow is decided with: the rules, the proxies, the cache of names, the switches, and two cells that
the lifecycle writes (`SharedCells`): whether the engine runs, and the physical interface, which is set once.
-/

namespace AceTun

open RustStd

/-- The interface that outbound sockets are pinned to, by address family. -/
structure PhysicalInterface where
  v4Index : Option UInt32
  v6Index : Option UInt32
  deriving DecidableEq, Repr

namespace PhysicalInterface

/-- `PhysicalInterface::default`. -/
def empty : PhysicalInterface := ⟨none, none⟩

def indexFor (iface : PhysicalInterface) : (dest : IpAddr) → Option UInt32
  | .v4 _ => iface.v4Index
  | .v6 _ => iface.v6Index

def isEmpty (iface : PhysicalInterface) : Bool := iface.v4Index.isNone && iface.v6Index.isNone

end PhysicalInterface

inductive QuicPolicy where
  | drop
  | allow
  deriving DecidableEq, Repr

/-- The counters; each is 64 bits wide and wraps. -/
structure Stats where
  tcpFlows : UInt64
  udpFlows : UInt64
  blocked : UInt64
  quicDropped : UInt64
  proxyFallbacks : UInt64
  groupDropped : UInt64
  udpSendErrors : UInt64
  deriving DecidableEq, Repr

/-- The two cells of `Shared` that `start` and `stop` write. -/
structure SharedCells where
  running : Bool
  /-- A `OnceLock`: `none` until it is set. -/
  ifaceCell : Option PhysicalInterface
  deriving DecidableEq, Repr

namespace SharedCells

/-- The interface in the cell, or the empty one. -/
def iface (cells : SharedCells) : PhysicalInterface := cells.ifaceCell.getD .empty

/-- `OnceLock::set`, whose error is ignored: the first value stays. -/
def setIface (cells : SharedCells) (iface : PhysicalInterface) : SharedCells :=
  { cells with ifaceCell := cells.ifaceCell.or (some iface) }

end SharedCells

structure Shared (R : RegexCrate) extends SharedCells where
  rules : RuleSet R
  proxyConfigs : List ProxyConfig
  dnsCache : DnsCache
  localhostViaProxy : Bool
  quicPort : UInt16
  quicPolicy : QuicPolicy
  currentPid : UInt32
  stats : Stats
  /-- Whether a log sink was registered. -/
  logCb : Bool
  /-- Whether a connection sink was registered. -/
  connCb : Bool

namespace Shared

variable {R : RegexCrate}

/-- The first configuration with this id, or else the first of all. -/
def findProxyConfig (shared : Shared R) (id : UInt32) : Option ProxyConfig :=
  (shared.proxyConfigs.find? (·.configId == id)).or shared.proxyConfigs.head?

end Shared

end AceTun
