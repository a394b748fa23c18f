import AceTun.RustStd.Net
import AceTun.RustStd.Stream

/-!
# Errors and upstream proxy configurations

The crate's `Error` and the `ProxyConfig` that `Proxy` rules name, with its constructors and its check.
-/

namespace AceTun

open RustStd

/-- The errors that the modelled functions return. -/
inductive Error where
  | config (message : Str)
  | wintunLoad (message : Str)
  | adapterCreate (name reason : Str)
  | sessionStart (message : Str)
  | netConfig (op : Str) (source : IoError)
  | notElevated
  | alreadyRunning
  | notRunning
  | io (source : IoError)
  deriving DecidableEq, Repr

inductive ProxyType where
  | http
  | socks5
  deriving DecidableEq, Repr

/-- One upstream proxy. -/
structure ProxyConfig where
  configId : UInt32
  proxyType : ProxyType
  host : Str
  port : UInt16
  username : Option Str
  password : Option Str
  sendDomainToProxy : Bool
  deriving DecidableEq, Repr

namespace ProxyConfig

/-- A fresh configuration: no id yet, no credentials, names resolved by the proxy. -/
def fresh (proxyType : ProxyType) (host : Str) (port : UInt16) : ProxyConfig :=
  { configId := 0, proxyType, host, port, username := none, password := none, sendDomainToProxy := true }

def http (host : Str) (port : UInt16) : ProxyConfig := fresh .http host port

def socks5 (host : Str) (port : UInt16) : ProxyConfig := fresh .socks5 host port

def withAuth (cfg : ProxyConfig) (username password : Str) : ProxyConfig :=
  { cfg with username := some username, password := some password }

def resolveOnProxy (cfg : ProxyConfig) (enable : Bool) : ProxyConfig := { cfg with sendDomainToProxy := enable }

/-- Both credentials, when both are set (`username.zip(password)`). -/
def credentials (cfg : ProxyConfig) : Option (Str × Str) := do
  let user ← cfg.username
  let pass ← cfg.password
  pure (user, pass)

def validate (cfg : ProxyConfig) : Except Error Unit :=
  if trim cfg.host = [] then .error (.config "proxy host must not be empty".toList)
  else if cfg.port = 0 then .error (.config "proxy port must not be zero".toList)
  else .ok ()

end ProxyConfig

end AceTun
