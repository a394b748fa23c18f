import AceTun.Proxy.Http

/-!
# SOCKS5

The messages of the SOCKS5 client (`buildSocks5Greeting`, `buildSocks5Userpass`, `buildSocks5ConnectRequest`), the
reply reader with its fixed scratch buffer (`readSocks5Reply`) and the handshake (`socks5Connect`).
-/

namespace AceTun

open RustStd RustStd.TcpStream

def SOCKS5_VERSION : UInt8 := 0x05
def SOCKS5_CMD_CONNECT : UInt8 := 0x01
def SOCKS5_ATYP_IPV4 : UInt8 := 0x01
def SOCKS5_ATYP_DOMAIN : UInt8 := 0x03
def SOCKS5_ATYP_IPV6 : UInt8 := 0x04
def SOCKS5_AUTH_NONE : UInt8 := 0x00
def SOCKS5_AUTH_USERPASS : UInt8 := 0x02

def buildSocks5Greeting (useAuth : Bool) : Bytes :=
  if useAuth then [SOCKS5_VERSION, 0x02, SOCKS5_AUTH_NONE, SOCKS5_AUTH_USERPASS]
  else [SOCKS5_VERSION, 0x01, SOCKS5_AUTH_NONE]

def buildSocks5Userpass (user pass : Str) : Except IoError Bytes :=
  if (asBytes user).length > 255 ∨ (asBytes pass).length > 255 then
    .error (IoError.otherError "SOCKS5 credential too long".toList)
  else
    .ok ([0x01, UInt8.ofNat (asBytes user).length] ++ asBytes user ++ [UInt8.ofNat (asBytes pass).length] ++
      asBytes pass)

def buildSocks5ConnectRequest (dest : Target) : Except IoError Bytes :=
  let buf := [SOCKS5_VERSION, SOCKS5_CMD_CONNECT, 0x00]
  match dest with
  | .ip (.v4 v4) port => .ok (buf ++ [SOCKS5_ATYP_IPV4] ++ v4.octets.toList ++ toBeBytes port)
  | .ip (.v6 v6) port => .ok (buf ++ [SOCKS5_ATYP_IPV6] ++ v6.octets.toList ++ toBeBytes port)
  | .domain host port =>
    if host = [] ∨ (asBytes host).length > 255 then
      .error (IoError.otherError "invalid SOCKS5 domain length".toList)
    else
      .ok (buf ++ [SOCKS5_ATYP_DOMAIN, UInt8.ofNat (asBytes host).length] ++ asBytes host ++ toBeBytes port)

/-- A message that could not be built ends the handshake. -/
def orFail (msg : Except IoError Bytes) : Async TcpStream Bytes :=
  match msg with
  | .ok bs => pure bs
  | .error e => Async.fail e

/-- `read_exact` into the first `drain` bytes of the 270-byte scratch buffer; a longer slice panics. -/
def readScratch (drain : Nat) : Async TcpStream Bytes := fun s =>
  if drain ≤ 270 then readExact drain s else (.panic, s)

/-- How many bytes of a reply follow its address type, once a domain's length byte is read. -/
def replyDrain (atyp : UInt8) : Async TcpStream Nat :=
  if atyp = SOCKS5_ATYP_IPV4 then pure (4 + 2)
  else if atyp = SOCKS5_ATYP_IPV6 then pure (16 + 2)
  else if atyp = SOCKS5_ATYP_DOMAIN then do
    let dlen ← readExact 1
    pure ((dlen.headD 0).toNat + 2)
  else Async.fail (IoError.otherError "unknown SOCKS5 ATYP in reply".toList)

def readSocks5Reply : Async TcpStream Unit := do
  let hdr ← readExact 4
  if hdr.getD 0 0 ≠ SOCKS5_VERSION ∨ hdr.getD 1 0 ≠ 0x00 then
    Async.fail (IoError.otherError
      ("SOCKS5 CONNECT rejected (reply=".toList ++ showNat (hdr.getD 1 0).toNat ++ ")".toList))
  else do
    let drain ← replyDrain (hdr.getD 3 0)
    let _ ← readScratch drain
    pure ()

/-- The username/password exchange. -/
def socks5Userpass (cfg : ProxyConfig) : Async TcpStream Unit :=
  match cfg.credentials with
  | none => Async.fail (IoError.otherError "proxy requires auth but none configured".toList)
  | some (user, pass) => do
    let msg ← orFail (buildSocks5Userpass user pass)
    writeAll msg
    let ok ← readExact 2
    if ok.getD 1 0 ≠ 0x00 then Async.fail (IoError.otherError "SOCKS5 authentication failed".toList) else pure ()

/-- The exchange that the method chosen by the proxy asks for. -/
def socks5Authenticate (cfg : ProxyConfig) (method : UInt8) : Async TcpStream Unit :=
  if method = SOCKS5_AUTH_NONE then pure ()
  else if method = SOCKS5_AUTH_USERPASS then socks5Userpass cfg
  else Async.fail (IoError.otherError "no acceptable SOCKS5 auth method".toList)

def socks5Connect (cfg : ProxyConfig) (dest : Target) : Async TcpStream Unit := do
  writeAll (buildSocks5Greeting cfg.username.isSome)
  let method ← readExact 2
  if method.getD 0 0 ≠ SOCKS5_VERSION then Async.fail ⟨.invalidData, "bad SOCKS5 version".toList⟩
  else do
    socks5Authenticate cfg (method.getD 1 0)
    let msg ← orFail (buildSocks5ConnectRequest dest)
    writeAll msg
    readSocks5Reply

end AceTun
