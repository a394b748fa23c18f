import AceTun.Calls
import AceTun.Platform.Netcfg

/-!
# The adapter on Windows

`create` loads the driver library, opens the adapter, configures its interface and adds the routes; where it fails after
the adapter was opened, the adapter is closed. Taking it down deletes the routes, shuts the session down and closes the
adapter. Every row that these calls write carries the LUID of the adapter's own interface, and closing the adapter
removes what carries it.

So the machine's forwarding table, addresses and interfaces are never at stake (**`windows_hard_kill_restores`**): stopped
at any point, by an error or by a kill, the process leaves them as the other programs made them.
-/

namespace AceTun.Windows

open RustStd Calls Transition

/-! ## The system's side -/

abbrev Luid : Type := UInt64

abbrev Win32Error : Type := UInt32

def NO_ERROR : Win32Error := 0
def ERROR_NOT_FOUND : Win32Error := 1168
def ERROR_OBJECT_ALREADY_EXISTS : Win32Error := 5010

/-- `MIB_IPFORWARD_ROW2`, as far as it is set. -/
structure ForwardRow where
  luid : Luid
  net : Net
  nextHop : IpAddr
  metric : UInt32
  deriving DecidableEq, Repr

/-- `MIB_UNICASTIPADDRESS_ROW`, without the fields that are constant. -/
structure AddressRow where
  luid : Luid
  address : IpAddr
  onLinkPrefixLength : UInt8
  deriving DecidableEq, Repr

/-- `MIB_IPINTERFACE_ROW`, as far as it is set. -/
structure InterfaceRow where
  mtu : Nat
  useAutomaticMetric : Bool
  metric : UInt32
  sitePrefixLength : UInt32
  deriving DecidableEq, Repr

structure System where
  forward : List ForwardRow
  unicast : List AddressRow
  interface : Luid → (v6 : Bool) → Option InterfaceRow

/-- What is left without an interface: its rows go with it. -/
def System.without (s : System) (luid : Luid) : System where
  forward := s.forward.filter (·.luid ≠ luid)
  unicast := s.unicast.filter (·.luid ≠ luid)
  interface l v6 := if l = luid then none else s.interface l v6

/-- The calls that are made of the driver and of the system. -/
inductive Call where
  | loadFromPath
  | load
  | createAdapter
  | setMtu (luid : Luid) (mtu : Nat)
  | createUnicastIpAddressEntry (row : AddressRow)
  | getIpInterfaceEntry (luid : Luid) (v6 : Bool)
  | setIpInterfaceEntry (luid : Luid) (v6 : Bool) (row : InterfaceRow)
  | startSession
  | createIpForwardEntry2 (row : ForwardRow)
  | deleteIpForwardEntry2 (row : ForwardRow)
  | shutdown
  | closeAdapter (luid : Luid)

/-- What a call returns; the driver's errors are kept as their texts. -/
abbrev Call.Result : Call → Type
  | .loadFromPath => Except Str Unit
  | .load => Except Str Unit
  | .createAdapter => Except Str Luid
  | .setMtu _ _ => Except Str Unit
  | .createUnicastIpAddressEntry _ => Win32Error
  | .getIpInterfaceEntry _ _ => Win32Error × InterfaceRow
  | .setIpInterfaceEntry _ _ _ => Win32Error
  | .startSession => Except Str Unit
  | .createIpForwardEntry2 _ => Win32Error
  | .deleteIpForwardEntry2 _ => Win32Error
  | .shutdown => Except Str Unit
  | .closeAdapter _ => Unit

/-- What the system decides about a call: whether the driver or the system refuses it, the rows of a new interface, and
the routes that the system adds for an interface by itself. -/
structure Chance where
  driver : Option Str
  refusal : Option {code : Win32Error // code ≠ NO_ERROR}
  created : (v6 : Bool) → InterfaceRow
  connected : List (Net × UInt32)

/-- The driver's answer. -/
def Chance.answer (w : Chance) : Except Str Unit :=
  match w.driver with
  | some text => .error text
  | none => .ok ()

namespace System

def addForward (s : System) (row : ForwardRow) : System := { s with forward := s.forward ++ [row] }

/-- Entries are told apart by their interface, prefix and next hop. -/
def hasForward (s : System) (row : ForwardRow) : Bool :=
  s.forward.any fun r => r.luid = row.luid ∧ r.net = row.net ∧ r.nextHop = row.nextHop

def deleteForward (s : System) (row : ForwardRow) : System :=
  { s with forward := s.forward.filter fun r => ¬ (r.luid = row.luid ∧ r.net = row.net ∧ r.nextHop = row.nextHop) }

def hasAddress (s : System) (row : AddressRow) : Bool :=
  s.unicast.any fun r => r.luid = row.luid ∧ r.address = row.address

def addAddress (s : System) (row : AddressRow) : System := { s with unicast := s.unicast ++ [row] }

/-- The on-link routes that come with an address or an interface. -/
def connect (s : System) (luid : Luid) (connected : List (Net × UInt32)) : System :=
  { s with forward := s.forward ++ connected.map fun c =>
      ⟨luid, c.1, if c.1.v6 then .v6 .UNSPECIFIED else .v4 .UNSPECIFIED, c.2⟩ }

def setInterface (s : System) (luid : Luid) (v6 : Bool) (row : Option InterfaceRow) : System :=
  { s with interface := fun l f => if l = luid ∧ f = v6 then row else s.interface l f }

end System

/-- A call that the system may refuse, or answers with a code and a change. -/
def coded (w : Chance) (s : System) (carry : Win32Error × System) : Win32Error × System :=
  match w.refusal with
  | some code => (code.1, s)
  | none => carry

/-- What a call does; `luid` is the one that the driver gives to the adapter. -/
def perform (luid : Luid) : (call : Call) → Chance → System → call.Result × System
  | .loadFromPath, w, s => (w.answer, s)
  | .load, w, s => (w.answer, s)
  | .createAdapter, w, s =>
    match w.driver with
    | some text => (.error text, s)
    | none =>
      (.ok luid, ((s.setInterface luid false (some (w.created false))).setInterface luid true
        (some (w.created true))).connect luid w.connected)
  | .setMtu l mtu, w, s =>
    match w.driver with
    | some text => (.error text, s)
    | none =>
      (.ok (), (s.setInterface l false ((s.interface l false).map ({ · with mtu := mtu }))).setInterface l true
        ((s.interface l true).map ({ · with mtu := mtu })))
  | .createUnicastIpAddressEntry row, w, s =>
    coded w s (if s.hasAddress row then (ERROR_OBJECT_ALREADY_EXISTS, s)
      else (NO_ERROR, (s.addAddress row).connect row.luid w.connected))
  | .getIpInterfaceEntry l v6, w, s =>
    match w.refusal, s.interface l v6 with
    | none, some row => ((NO_ERROR, row), s)
    | some code, _ => ((code.1, w.created v6), s)
    | none, none => ((ERROR_NOT_FOUND, w.created v6), s)
  | .setIpInterfaceEntry l v6 row, w, s => coded w s (NO_ERROR, s.setInterface l v6 (some row))
  | .startSession, w, s => (w.answer, s)
  | .createIpForwardEntry2 row, w, s =>
    coded w s (if s.hasForward row then (ERROR_OBJECT_ALREADY_EXISTS, s) else (NO_ERROR, s.addForward row))
  | .deleteIpForwardEntry2 row, w, s =>
    coded w s (if s.hasForward row then (NO_ERROR, s.deleteForward row) else (ERROR_NOT_FOUND, s))
  | .shutdown, w, s => (w.answer, s)
  | .closeAdapter l, _, s => ((), s.without l)

/-! ## `netcfg` -/

abbrev Run (α : Type) : Type := Program Call Call.Result α

def call (c : Call) : Run c.Result := .perform c

section Netcfg

variable (fromRawOsError : Win32Error → IoError)

def ok (code : Win32Error) : Except IoError Unit :=
  if code = NO_ERROR then .ok () else .error (fromRawOsError code)

def okIdempotent (code : Win32Error) : Except IoError Unit :=
  if code = ERROR_OBJECT_ALREADY_EXISTS then .ok () else ok fromRawOsError code

def addAddress (luid : Luid) (addr : IpAddr) (prefixLen : UInt8) : Run (Except IoError Unit) := do
  let code ← call (.createUnicastIpAddressEntry ⟨luid, addr, prefixLen⟩)
  pure (okIdempotent fromRawOsError code)

def setInterfaceMetric (luid : Luid) (v6 : Bool) (metric : UInt32) : Run (Except IoError Unit) := do
  let (code, row) ← call (.getIpInterfaceEntry luid v6)
  match ok fromRawOsError code with
  | .error e => pure (.error e)
  | .ok () =>
    let row := { row with useAutomaticMetric := false, metric := metric }
    let row := if v6 then row else { row with sitePrefixLength := 0 }
    let code ← call (.setIpInterfaceEntry luid v6 row)
    pure (ok fromRawOsError code)

/-- The row of a route: on-link, which is an unspecified next hop. -/
def routeRow (luid : Luid) (dest : IpAddr) (prefixLen : Nat) (metric : UInt32) : ForwardRow where
  luid := luid
  net := .of dest prefixLen
  nextHop := match dest with | .v4 _ => .v4 .UNSPECIFIED | .v6 _ => .v6 .UNSPECIFIED
  metric := metric

def addRoute (luid : Luid) (dest : IpAddr) (prefixLen : Nat) (metric : UInt32) : Run (Except IoError ForwardRow) := do
  let code ← call (.createIpForwardEntry2 (routeRow luid dest prefixLen metric))
  pure ((okIdempotent fromRawOsError code).map fun _ => routeRow luid dest prefixLen metric)

def deleteRoute (handle : ForwardRow) : Run (Except IoError Unit) := do
  let code ← call (.deleteIpForwardEntry2 handle)
  pure (ok fromRawOsError code)

end Netcfg

/-! ## The adapter -/

def ADAPTER_NAME : Str := "Ace Blocker".toList

def TUN_METRIC : UInt32 := 1
def TUN_MTU : Nat := 1500
def LOAD_RETRY_ATTEMPTS : Nat := 5

/-- The attempts to load the library beside the executable: whether one of them succeeds. -/
def loadLocal : (attempts : Nat) → Run Bool
  | 0 => pure false
  | attempts + 1 => do
    match ← call .loadFromPath with
    | .ok _ => pure true
    | .error _ => loadLocal attempts

/-- `load_wintun`; `localExists` says that there is a library beside the executable. -/
def loadWintun (localExists : Bool) : Run (Except Error Unit) := do
  if ← (if localExists then loadLocal LOAD_RETRY_ATTEMPTS else pure false) then pure (.ok ())
  else
    match ← call .load with
    | .ok _ => pure (.ok ())
    | .error e => pure (.error (.wintunLoad e))

/-- `TunAdapter`; its session, library and adapter handles are the adapter's LUID here. -/
structure TunAdapter where
  luid : Luid
  routes : List ForwardRow
  deriving DecidableEq, Repr

section Adapter

variable (fromRawOsError : Win32Error → IoError)

/-- One part of `create`, then the rest unless it failed. -/
def andThen {α β : Type} (part : Run (Except Error α)) (rest : α → Run (Except Error β)) : Run (Except Error β) := do
  match ← part with
  | .ok a => rest a
  | .error e => pure (.error e)

/-- `.map_err(|e| Error::netcfg(op, e))`. -/
def orNetcfg {α : Type} (op : Str) (part : Run (Except IoError α)) : Run (Except Error α) := do
  pure ((← part).mapError (.netConfig op))

/-- The address and the metric of one family. -/
def configureFamily (luid : Luid) (addr : IpAddr) (prefixLen : UInt8) (family : Str) : Run (Except Error Unit) :=
  andThen (orNetcfg ("add_address(".toList ++ family ++ ")".toList) (addAddress fromRawOsError luid addr prefixLen)) fun _ =>
    orNetcfg ("set_interface_metric(".toList ++ family ++ ")".toList)
      (setInterfaceMetric fromRawOsError luid addr.isIpv6 TUN_METRIC)

/-- `create` between the adapter and the routes. -/
def configure (ipv6 : Bool) (luid : Luid) : Run (Except Error Unit) :=
  andThen (do
    match ← call (.setMtu luid TUN_MTU) with
    | .ok _ => pure (.ok ())
    | .error e => pure (.error (.netConfig "set_mtu".toList (.otherError e)))) fun _ =>
  andThen (configureFamily fromRawOsError luid (.v4 TUN_IPV4) TUN_IPV4_PREFIX "v4".toList) fun _ =>
  andThen (if ipv6 then configureFamily fromRawOsError luid (.v6 TUN_IPV6) TUN_IPV6_PREFIX "v6".toList
    else pure (.ok ())) fun _ => do
  match ← call .startSession with
  | .ok _ => pure (.ok ())
  | .error e => pure (.error (.sessionStart e))

/-- `install` for each route, up to the first that fails. -/
def installRoutes (luid : Luid) : List RouteHandle → List ForwardRow → Run (Except Error (List ForwardRow))
  | [], routes => pure (.ok routes)
  | route :: todo, routes => do
    match ← addRoute fromRawOsError luid route.dest route.prefixLen 0 with
    | .ok handle => installRoutes luid todo (routes ++ [handle])
    | .error e => pure (.error (routeError route e))

/-- `TunAdapter::create`. Where it fails after the adapter was opened, the adapter is closed; the routes that were added
have no handle that would delete them. -/
def create (localExists ipv6 : Bool) : Run (Except Error TunAdapter) :=
  andThen (loadWintun localExists) fun _ => do
    match ← call .createAdapter with
    | .error reason => pure (.error (.adapterCreate ADAPTER_NAME reason))
    | .ok luid =>
      match ← andThen (configure fromRawOsError ipv6 luid) fun _ =>
          installRoutes fromRawOsError luid (splitDefault ipv6) [] with
      | .ok routes => pure (.ok ⟨luid, routes⟩)
      | .error e => do
        let _ ← call (.closeAdapter luid)
        pure (.error e)

def deleteRoutes : List ForwardRow → Run Unit
  | [] => pure ()
  | handle :: handles => do
    let _ ← deleteRoute fromRawOsError handle
    deleteRoutes handles

/-- `remove_routes`; what deleting returns is only logged. -/
def removeRoutes (tun : TunAdapter) : Run TunAdapter := do
  deleteRoutes fromRawOsError tun.routes
  pure { tun with routes := [] }

/-- `shutdown_session`. -/
def shutdownSession : Run Unit := do
  let _ ← call .shutdown
  pure ()

/-- `Drop for TunAdapter`, with the handles that are closed after it. -/
def drop (tun : TunAdapter) : Run Unit := do
  let tun ← removeRoutes fromRawOsError tun
  shutdownSession
  call (.closeAdapter tun.luid)

/-- The teardown that the watchdog, `stop` and `Drop for TunRedirect` share, with the drop that ends it. -/
def tearDown (tun : TunAdapter) : Run Unit := do
  let tun ← removeRoutes fromRawOsError tun
  shutdownSession
  drop fromRawOsError tun

/-- The whole life of an adapter. -/
def lifetime (localExists ipv6 : Bool) (teardown : TunAdapter → Run Unit) : Run Unit := do
  match ← create fromRawOsError localExists ipv6 with
  | .ok tun => teardown tun
  | .error _ => pure ()

end Adapter

/-! ## Every call is about the adapter's own interface -/

/-- A call is about the interface of the open adapter. -/
def Own : Option Luid → Call → Prop
  | _, .loadFromPath => True
  | _, .load => True
  | opened, .createAdapter => opened = none
  | opened, .setMtu l _ => opened = some l
  | opened, .createUnicastIpAddressEntry row => opened = some row.luid
  | opened, .getIpInterfaceEntry l _ => opened = some l
  | opened, .setIpInterfaceEntry l _ _ => opened = some l
  | _, .startSession => True
  | opened, .createIpForwardEntry2 row => opened = some row.luid
  | opened, .deleteIpForwardEntry2 row => opened = some row.luid
  | _, .shutdown => True
  | opened, .closeAdapter l => opened = some l

/-- The adapter that is open after a call. -/
def track (c : Call) (r : c.Result) (opened : Option Luid) : Option Luid :=
  match c, r with
  | .createAdapter, .ok luid => some luid
  | .closeAdapter _, _ => none
  | _, _ => opened

/-- A program that makes only such calls, and what is open where it ends. -/
abbrev OwnCalls {α : Type} (post : Option Luid → α → Prop) (opened : Option Luid) (p : Run α) : Prop :=
  Keeps Own track post opened p

/-- The same adapter is open. -/
def Same {α : Type} (opened : Option Luid) : Option Luid → α → Prop := fun opened' _ => opened' = opened

section OwnCalls

variable {fromRawOsError : Win32Error → IoError} {luid : Luid} {opened : Option Luid}

theorem ownCalls_andThen {α β : Type} {part : Run (Except Error α)} {rest : α → Run (Except Error β)}
    (h : OwnCalls (Same opened) opened part) (hrest : ∀ a, OwnCalls (Same opened) opened (rest a)) :
    OwnCalls (Same opened) opened (andThen part rest) := by
  refine Keeps.bind h fun k r hk => ?_
  cases hk
  cases r with
  | ok a => exact hrest a
  | error e => exact rfl

theorem ownCalls_orNetcfg {α : Type} {op : Str} {part : Run (Except IoError α)} (h : OwnCalls (Same opened) opened part) :
    OwnCalls (Same opened) opened (orNetcfg op part) :=
  Keeps.bind h fun _ _ hk => hk

theorem ownCalls_loadLocal (attempts : Nat) : OwnCalls (Same opened) opened (loadLocal attempts) := by
  induction attempts with
  | zero => exact rfl
  | succ attempts ih =>
    refine Keeps.bind (keeps_perform (Q := Same opened) trivial fun _ => rfl) fun k r hk => ?_
    cases hk
    cases r with
    | ok _ => exact rfl
    | error e => exact ih

theorem ownCalls_loadWintun (localExists : Bool) : OwnCalls (Same opened) opened (loadWintun localExists) := by
  have hlocal : OwnCalls (Same opened) opened (if localExists then loadLocal LOAD_RETRY_ATTEMPTS else pure false) := by
    cases localExists with
    | true => exact ownCalls_loadLocal _
    | false => exact rfl
  refine Keeps.bind hlocal fun k found hk => ?_
  cases hk
  cases found with
  | true => exact rfl
  | false =>
    refine Keeps.bind (keeps_perform (Q := Same opened) trivial fun _ => rfl) fun k r hk => ?_
    cases hk
    cases r <;> exact rfl

theorem ownCalls_configureFamily (addr : IpAddr) (prefixLen : UInt8) (family : Str) :
    OwnCalls (Same (some luid)) (some luid) (configureFamily fromRawOsError luid addr prefixLen family) := by
  refine ownCalls_andThen (ownCalls_orNetcfg ?_) fun _ => ownCalls_orNetcfg ?_
  · exact Keeps.bind (keeps_perform (Q := Same (some luid)) rfl fun _ => rfl) fun _ _ hk => hk
  · refine Keeps.bind (keeps_perform (Q := Same (some luid)) rfl fun _ => rfl) fun k r hk => ?_
    cases hk
    obtain ⟨code, row⟩ := r
    dsimp only
    cases ok fromRawOsError code with
    | error e => exact rfl
    | ok _ => exact Keeps.bind (keeps_perform (Q := Same (some luid)) rfl fun _ => rfl) fun _ _ hk => hk

theorem ownCalls_configure (ipv6 : Bool) :
    OwnCalls (Same (some luid)) (some luid) (configure fromRawOsError ipv6 luid) := by
  refine ownCalls_andThen ?_ fun _ => ownCalls_andThen (ownCalls_configureFamily ..) fun _ =>
    ownCalls_andThen ?_ fun _ => ?_
  · refine Keeps.bind (keeps_perform (Q := Same (some luid)) rfl fun _ => rfl) fun k r hk => ?_
    cases hk
    cases r <;> exact rfl
  · cases ipv6 with
    | true => exact ownCalls_configureFamily ..
    | false => exact rfl
  · refine Keeps.bind (keeps_perform (Q := Same (some luid)) trivial fun _ => rfl) fun k r hk => ?_
    cases hk
    cases r <;> exact rfl

/-- The adapter is open, and its routes are its own. -/
def Installed (luid : Luid) : Option Luid → Except Error (List ForwardRow) → Prop :=
  fun opened r => opened = some luid ∧ ∀ routes, r = .ok routes → ∀ row ∈ routes, row.luid = luid

theorem ownCalls_installRoutes (todo : List RouteHandle) {routes : List ForwardRow}
    (hroutes : ∀ row ∈ routes, row.luid = luid) :
    OwnCalls (Installed luid) (some luid) (installRoutes fromRawOsError luid todo routes) := by
  induction todo generalizing routes with
  | nil => exact ⟨rfl, fun _ h => by cases h; exact hroutes⟩
  | cons route todo ih =>
    have hadd : OwnCalls (fun opened (r : Except IoError ForwardRow) => opened = some luid ∧
        ∀ row, r = .ok row → row.luid = luid) (some luid) (addRoute fromRawOsError luid route.dest route.prefixLen 0) := by
      refine Keeps.bind (keeps_perform (Q := Same (some luid)) rfl fun _ => rfl) fun k code hk => ⟨hk, fun row hrow => ?_⟩
      cases hcode : okIdempotent fromRawOsError code with
      | error e =>
        rw [hcode] at hrow
        cases hrow
      | ok _ =>
        rw [hcode] at hrow
        cases hrow
        rfl
    refine Keeps.bind hadd fun k r hk => ?_
    obtain ⟨rfl, hrow⟩ := hk
    cases r with
    | error e => exact ⟨rfl, fun _ h => nomatch h⟩
    | ok row =>
      refine ih fun r hr => ?_
      rcases List.mem_append.mp hr with hr | hr
      · exact hroutes r hr
      · rw [List.mem_singleton.mp hr]
        exact hrow row rfl

/-- What `create` leaves open: an adapter whose routes are its own, or none. -/
def Created : Option Luid → Except Error TunAdapter → Prop
  | opened, .ok tun => opened = some tun.luid ∧ ∀ row ∈ tun.routes, row.luid = tun.luid
  | opened, .error _ => opened = none

theorem ownCalls_create (localExists ipv6 : Bool) :
    OwnCalls Created none (create fromRawOsError localExists ipv6) := by
  refine Keeps.bind (ownCalls_loadWintun localExists) fun k r hk => ?_
  cases hk
  cases r with
  | error e => exact rfl
  | ok _ =>
    refine Keeps.bind (keeps_perform (Q := fun opened (r : Except Str Luid) => match r with
      | .ok luid => opened = some luid
      | .error _ => opened = none) rfl fun r => by cases r <;> rfl) fun k r hk => ?_
    cases r with
    | error e => exact hk
    | ok luid =>
      obtain rfl : k = some luid := hk
      have hset : OwnCalls (Installed luid) (some luid) (andThen (configure fromRawOsError ipv6 luid) fun _ =>
          installRoutes fromRawOsError luid (splitDefault ipv6) []) := by
        refine Keeps.bind (ownCalls_configure ipv6) fun k r hk => ?_
        cases hk
        cases r with
        | error e => exact ⟨rfl, fun _ h => nomatch h⟩
        | ok _ => exact ownCalls_installRoutes _ fun _ h => nomatch h
      refine Keeps.bind hset fun k r hk => ?_
      obtain ⟨rfl, hroutes⟩ := hk
      cases r with
      | ok routes => exact ⟨rfl, hroutes routes rfl⟩
      | error e => exact Keeps.bind (keeps_perform (Q := Same none) rfl fun _ => rfl) fun _ _ hk => hk

theorem ownCalls_removeRoutes {tun : TunAdapter} (h : ∀ row ∈ tun.routes, row.luid = tun.luid) :
    OwnCalls (fun opened tun' => opened = some tun.luid ∧ tun' = ⟨tun.luid, []⟩) (some tun.luid)
      (removeRoutes fromRawOsError tun) := by
  have hdelete : ∀ routes : List ForwardRow, (∀ row ∈ routes, row.luid = tun.luid) →
      OwnCalls (Same (some tun.luid)) (some tun.luid) (deleteRoutes fromRawOsError routes) := by
    intro routes
    induction routes with
    | nil => exact fun _ => rfl
    | cons row routes ih =>
      intro hrows
      have hrow : Own (some tun.luid) (.deleteIpForwardEntry2 row) := congrArg some (hrows row List.mem_cons_self).symm
      refine Keeps.bind (Q := Same (some tun.luid)) ?_ fun k _ hk => ?_
      · exact Keeps.bind (keeps_perform (Q := Same (some tun.luid)) hrow fun _ => rfl) fun _ _ hk => hk
      · cases hk
        exact ih fun r hr => hrows r (List.mem_cons_of_mem _ hr)
  exact Keeps.bind (hdelete tun.routes h) fun _ _ hk => ⟨hk, rfl⟩

theorem ownCalls_drop {tun : TunAdapter} (h : ∀ row ∈ tun.routes, row.luid = tun.luid) :
    OwnCalls (Same none) (some tun.luid) (drop fromRawOsError tun) := by
  refine Keeps.bind (ownCalls_removeRoutes h) fun k tun' hk => ?_
  obtain ⟨rfl, rfl⟩ := hk
  refine Keeps.bind (Q := Same (some tun.luid)) ?_ fun k _ hk => ?_
  · exact Keeps.bind (keeps_perform (Q := Same (some tun.luid)) trivial fun _ => rfl) fun _ _ hk => hk
  · cases hk
    exact keeps_perform (Q := Same none) rfl fun _ => rfl

theorem ownCalls_tearDown {tun : TunAdapter} (h : ∀ row ∈ tun.routes, row.luid = tun.luid) :
    OwnCalls (Same none) (some tun.luid) (tearDown fromRawOsError tun) := by
  refine Keeps.bind (ownCalls_removeRoutes h) fun k tun' hk => ?_
  obtain ⟨rfl, rfl⟩ := hk
  refine Keeps.bind (Q := Same (some tun.luid)) ?_ fun k _ hk => ?_
  · exact Keeps.bind (keeps_perform (Q := Same (some tun.luid)) trivial fun _ => rfl) fun _ _ hk => hk
  · cases hk
    exact @ownCalls_drop _ ⟨tun.luid, []⟩ fun _ h => nomatch h

end OwnCalls

/-! ## What the calls leave of the system -/

namespace System

variable {s : System} {luid : Luid}

theorem without_without : (s.without luid).without luid = s.without luid := by
  simp only [without, List.filter_filter, Bool.and_self]
  congr 1
  funext l v6
  split <;> rfl

theorem without_addForward {row : ForwardRow} (h : row.luid = luid) : (s.addForward row).without luid = s.without luid := by
  simp [without, addForward, h]

theorem without_deleteForward {row : ForwardRow} (h : row.luid = luid) :
    (s.deleteForward row).without luid = s.without luid := by
  simp only [without, deleteForward, List.filter_filter]
  congr 1
  refine List.filter_congr fun r _ => ?_
  by_cases hr : r.luid = luid <;> simp [hr, h]

theorem without_addAddress {row : AddressRow} (h : row.luid = luid) : (s.addAddress row).without luid = s.without luid := by
  simp [without, addAddress, h]

theorem without_connect {connected : List (Net × UInt32)} : (s.connect luid connected).without luid = s.without luid := by
  simp [without, connect, List.filter_map, Function.comp_def]

theorem without_setInterface {v6 : Bool} {row : Option InterfaceRow} :
    (s.setInterface luid v6 row).without luid = s.without luid := by
  simp only [without, setInterface]
  congr 1
  funext l f
  by_cases hl : l = luid <;> simp [hl]

end System

/-- What another program does: it is about other interfaces, and does not depend on this one. -/
structure Other (luid : Luid) where
  change : System → System
  apart : ∀ s, (change s).without luid = change (s.without luid)

/-- The adapter's program beside other programs. -/
abbrev step (luid : Luid) : Process Call Call.Result Unit System → Move Chance (Other luid) →
    Option (Process Call Call.Result Unit System) :=
  Process.step (perform luid) fun e => e.change

/-- Apart from the interface of an open adapter, the system is what the others made of it. -/
structure Apart (luid : Luid) (opened : Option Luid) (s t : System) : Prop where
  own : ∀ l, opened = some l → l = luid
  others : s.without luid = t
  closed : opened = none → s = t

section Apart

variable {luid : Luid} {opened : Option Luid} {s t : System}

theorem Apart.refused (h : Apart luid opened s t) {carry : Win32Error × System} {w : Chance}
    (hcarry : Apart luid opened carry.2 t) : Apart luid opened (coded w s carry).2 t := by
  unfold coded
  split
  · exact h
  · exact hcarry

/-- A call that changes only the open interface. -/
theorem Apart.change (h : Apart luid opened s t) {s' : System} (hopen : opened = some luid)
    (hs : s'.without luid = s.without luid) : Apart luid opened s' t :=
  ⟨h.own, hs.trans h.others, fun hn => by rw [hopen] at hn; cases hn⟩

/-- **Each call** keeps apart. -/
theorem Apart.perform (h : Apart luid opened s t) (c : Call) (w : Chance) (hc : Own opened c) :
    Apart luid (track c (perform luid c w s).1 opened) (perform luid c w s).2 t := by
  cases c with
  | loadFromPath => exact h
  | load => exact h
  | createAdapter =>
    simp only [Windows.perform]
    cases w.driver with
    | some text => exact h
    | none =>
      refine ⟨fun l hl => (Option.some.inj hl).symm, ?_, fun hn => nomatch hn⟩
      dsimp only
      rw [System.without_connect, System.without_setInterface, System.without_setInterface]
      exact h.others
  | setMtu l mtu =>
    obtain rfl := h.own l hc
    simp only [Windows.perform]
    cases w.driver with
    | some text => exact h
    | none => exact h.change hc (by rw [System.without_setInterface, System.without_setInterface])
  | createUnicastIpAddressEntry row =>
    have hl := h.own row.luid hc
    refine Apart.refused h ?_
    split
    · exact h
    · refine h.change (hl ▸ hc) ?_
      rw [hl, System.without_connect, System.without_addAddress hl]
  | getIpInterfaceEntry l v6 =>
    simp only [Windows.perform]
    split <;> exact h
  | setIpInterfaceEntry l v6 row =>
    obtain rfl := h.own l hc
    exact Apart.refused h (h.change hc System.without_setInterface)
  | startSession => exact h
  | createIpForwardEntry2 row =>
    have hl := h.own row.luid hc
    refine Apart.refused h ?_
    split
    · exact h
    · exact h.change (hl ▸ hc) (System.without_addForward hl)
  | deleteIpForwardEntry2 row =>
    have hl := h.own row.luid hc
    refine Apart.refused h ?_
    split
    · exact h.change (hl ▸ hc) (System.without_deleteForward hl)
    · exact h
  | shutdown => exact h
  | closeAdapter l =>
    obtain rfl := h.own l hc
    exact ⟨fun _ hl => (nomatch hl), System.without_without.trans h.others, fun _ => h.others⟩

theorem Apart.other (h : Apart luid opened s t) (e : Other luid) : Apart luid opened (e.change s) (e.change t) :=
  ⟨h.own, (e.apart s).trans (congrArg e.change h.others), fun hn => congrArg e.change (h.closed hn)⟩

end Apart

/-- **A hard kill leaves nothing behind on Windows.** Whatever fails, and whatever other programs do to other interfaces
meanwhile, at every point of the life of an adapter: with its interface gone, as it is once the process is dead, the
forwarding table, the addresses and the interfaces are what the other programs made of them. A life that comes to its end
by an error of `create`, by `Drop` or by a teardown leaves them so by itself. -/
theorem windows_hard_kill_restores (fromRawOsError : Win32Error → IoError) (luid : Luid) (localExists ipv6 explicit : Bool)
    (before : System) (hfresh : before.without luid = before) (moves : List (Move Chance (Other luid)))
    (q : Process Call Call.Result Unit System)
    (h : exec (step luid) ⟨lifetime fromRawOsError localExists ipv6
      (if explicit then tearDown fromRawOsError else drop fromRawOsError), before⟩ moves = some q) :
    q.system.without luid = afterOthers Other.change moves before ∧
      (∀ a, q.program = .done a → q.system = afterOthers Other.change moves before) := by
  have hlife : OwnCalls (Same none) none (lifetime fromRawOsError localExists ipv6
      (if explicit then tearDown fromRawOsError else drop fromRawOsError)) := by
    refine Keeps.bind (ownCalls_create localExists ipv6) fun k r hk => ?_
    cases r with
    | error e => exact hk
    | ok tun =>
      obtain ⟨rfl, hroutes⟩ := hk
      cases explicit with
      | true => exact ownCalls_tearDown hroutes
      | false => exact ownCalls_drop hroutes
  have hstart : Apart luid none before before := ⟨fun _ hl => (nomatch hl), hfresh, fun _ => rfl⟩
  obtain ⟨opened, hkeeps, hapart⟩ := Keeps.exec (R := Apart luid)
    (fun _ c w _ _ hR hc => hR.perform c w hc) (fun _ e _ _ hR => hR.other e) hlife hstart h
  refine ⟨hapart.others, fun a ha => hapart.closed ?_⟩
  rw [ha] at hkeeps
  exact hkeeps

/-- A machine without routes. -/
def bareSystem : System := ⟨[], [], fun _ _ => none⟩

/-- Nothing fails, and a new interface comes with a route. -/
def lucky : Chance := ⟨none, none, fun _ => ⟨65535, true, 25, 64⟩, [(⟨false, [true, true]⟩, 256)]⟩

/-- Killed after the MTU was set, with an interface and a route in place. -/
theorem windows_hard_kill_restores_sample :
    ∃ q, exec (step 7) ⟨lifetime (fun _ => .otherError []) false true
        (tearDown fun _ => .otherError []), bareSystem⟩ [.own lucky, .own lucky, .own lucky] = some q ∧
      q.system.forward ≠ [] ∧ (q.system.interface 7 true).isSome ∧ q.system.without 7 = bareSystem := by
  have hfresh : bareSystem.without 7 = bareSystem := by
    unfold System.without bareSystem
    congr 1
    funext l v6
    split <;> rfl
  obtain ⟨q, hq⟩ : ∃ q, exec (step 7) ⟨lifetime (fun _ => .otherError []) false true
      (tearDown fun _ => .otherError []), bareSystem⟩ [.own lucky, .own lucky, .own lucky] = some q := ⟨_, rfl⟩
  refine ⟨q, hq, ?_, ?_, (windows_hard_kill_restores _ 7 false true true bareSystem hfresh _ q hq).1⟩
  · cases hq
    exact List.cons_ne_nil _ _
  · cases hq
    rfl

end AceTun.Windows
