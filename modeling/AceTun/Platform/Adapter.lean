import AceTun.Flow

/-!
# The adapter

`TunAdapter` records the routes it has installed; taking it down deletes them, shuts the session down and closes the
device. What that asks of the system is a list of `Undo`s with the closing of the device after them, and
`Device.perform` says what the system does for one call: a route is there from `add_route` until `delete_route`, and the
routes into the tunnel go with the device. This assumes of the system that `delete_route` removes the route whenever it
is asked to, and counts a route that `add_route` finds in place already (`EEXIST`) as one that the adapter installed.

Every way to take an adapter down deletes each recorded route (`TunAdapter.deleteRoute_mem_tearDown`), except that a
failed `create` on Windows leaves its routes to the closing of the device (`TunAdapter.mem_abandon`).
-/

namespace AceTun

open RustStd

/-- The tunnel's own addresses, with the lengths of the networks that are on its link. -/
def TUN_IPV4 : Ipv4Addr := .new 10 63 7 1
def TUN_IPV4_PREFIX : UInt8 := 24
def TUN_IPV6 : Ipv6Addr := .new 0xfd00 0x0ace 0x0007 0 0 0 0 1
def TUN_IPV6_PREFIX : UInt8 := 64

/-- The interface that a route leads out of. -/
inductive Via where
  | tunnel
  | physical (index : UInt32)
  deriving DecidableEq, Repr

/-- `RouteHandle`. -/
structure RouteHandle where
  via : Via
  dest : IpAddr
  prefixLen : Nat
  deriving DecidableEq, Repr

/-- The multicast prefixes, which stay on the physical interface; Windows does that by itself. -/
def multicastRoutes (os : Os) (ipv6 : Bool) (iface : PhysicalInterface) : List RouteHandle :=
  match os with
  | .windows => []
  | _ =>
    iface.v4Index.toList.map (fun i => ⟨.physical i, .v4 (.new 224 0 0 0), 4⟩) ++
      if ipv6 then iface.v6Index.toList.map (fun i => ⟨.physical i, .v6 (.new 0xff00 0 0 0 0 0 0 0), 8⟩) else []

/-- `V4_SPLIT_DEFAULT` and `V6_SPLIT_DEFAULT`: each pair covers every address. -/
def splitDefault (ipv6 : Bool) : List RouteHandle :=
  [⟨.tunnel, .v4 (.new 0 0 0 0), 1⟩, ⟨.tunnel, .v4 (.new 128 0 0 0), 1⟩] ++
    if ipv6 then
      [⟨.tunnel, .v6 (.new 0 0 0 0 0 0 0 0), 1⟩, ⟨.tunnel, .v6 (.new 0x8000 0 0 0 0 0 0 0), 1⟩]
    else []

/-- The routes that `create` installs, in their order. -/
def routePlan (os : Os) (ipv6 : Bool) (iface : PhysicalInterface) : List RouteHandle :=
  multicastRoutes os ipv6 iface ++ splitDefault ipv6

/-- The error of a route that could not be installed. -/
def routeError (route : RouteHandle) (source : IoError) : Error :=
  .netConfig ("add_route(".toList ++ route.dest.toStr ++ "/".toList ++ showNat route.prefixLen ++ ")".toList) source

/-! ## The system's side -/

/-- The calls that undo something. -/
inductive Undo where
  | deleteRoute (route : RouteHandle)
  | shutdownSession
  deriving DecidableEq, Repr

/-- What the engine asks of the system about one adapter. -/
inductive OsCall where
  | openDevice
  | addRoute (route : RouteHandle)
  | undo (call : Undo)
  | close
  deriving DecidableEq, Repr

/-- What the system has of one adapter, and the calls that were made about it. -/
structure Device where
  opened : Bool
  installed : List RouteHandle
  log : List OsCall
  deriving DecidableEq, Repr

namespace Device

/-- Nothing yet. -/
def blank : Device := ⟨false, [], []⟩

/-- What a call does. A `delete_route` that fails is logged by the code and nothing more; here none fails. -/
def effect (d : Device) : OsCall → Device
  | .openDevice => { d with opened := true }
  | .addRoute route => { d with installed := d.installed ++ [route] }
  | .undo (.deleteRoute route) => { d with installed := d.installed.filter (· ≠ route) }
  | .undo .shutdownSession => d
  | .close => { d with opened := false, installed := d.installed.filter (·.via ≠ .tunnel) }

def perform (d : Device) (call : OsCall) : Device := { d.effect call with log := d.log ++ [call] }

variable (d : Device)

@[simp] theorem perform_undo_opened (call : Undo) : (d.perform (.undo call)).opened = d.opened := by
  cases call <;> rfl

/-- What is still installed after an undoing call was installed before, and the call was not its deletion. -/
theorem mem_perform_undo {call : Undo} {route : RouteHandle} (h : route ∈ (d.perform (.undo call)).installed) :
    route ∈ d.installed ∧ call ≠ .deleteRoute route := by
  cases call with
  | deleteRoute route' =>
    obtain ⟨hm, hne⟩ := List.mem_filter.mp h
    refine ⟨hm, fun he => ?_⟩
    cases he
    simp at hne
  | shutdownSession => exact ⟨h, by simp⟩

end Device

/-! ## The engine's side -/

structure TunAdapter where
  routes : List RouteHandle
  deriving DecidableEq, Repr

namespace TunAdapter

def push (tun : TunAdapter) (route : RouteHandle) : TunAdapter := ⟨tun.routes ++ [route]⟩

/-- `remove_routes`: the calls it makes, and what is left. Only Windows removes in the order of installation. -/
def removeRoutes (os : Os) (tun : TunAdapter) : List Undo × TunAdapter :=
  ((match os with | .windows => tun.routes | _ => tun.routes.reverse).map .deleteRoute, ⟨[]⟩)

/-- `shutdown_session`; only Windows has one. -/
def shutdownSession (os : Os) (_ : TunAdapter) : List Undo :=
  match os with
  | .windows => [.shutdownSession]
  | _ => []

/-- `Drop`: the routes and, on Windows, the session; the handle is closed after that. -/
def drop (os : Os) (tun : TunAdapter) : List Undo :=
  match os with
  | .windows => (tun.removeRoutes os).1 ++ tun.shutdownSession os
  | _ => (tun.removeRoutes os).1

/-- The teardown that the watchdog, `stop` and `Drop for TunRedirect` share, with the drop that ends it. -/
def tearDown (os : Os) (tun : TunAdapter) : List Undo :=
  let (calls, tun) := tun.removeRoutes os
  calls ++ tun.shutdownSession os ++ tun.drop os

/-- What a `create` that fails between its routes undoes: on Windows the adapter value does not exist yet, and closing
the device is left to take the routes with it. -/
def abandon (os : Os) (tun : TunAdapter) : List Undo :=
  match os with
  | .windows => []
  | _ => tun.drop os

variable {os : Os} {tun : TunAdapter} {route : RouteHandle}

theorem deleteRoute_mem_removeRoutes (h : route ∈ tun.routes) : .deleteRoute route ∈ (tun.removeRoutes os).1 := by
  unfold removeRoutes
  cases os <;> simp [h]

theorem deleteRoute_mem_drop (h : route ∈ tun.routes) : .deleteRoute route ∈ tun.drop os := by
  have hr := @deleteRoute_mem_removeRoutes os _ _ h
  cases os with
  | linux => exact hr
  | macos => exact hr
  | windows => exact List.mem_append_left _ hr

theorem deleteRoute_mem_tearDown (h : route ∈ tun.routes) : .deleteRoute route ∈ tun.tearDown os :=
  List.mem_append_left _ (List.mem_append_left _ (deleteRoute_mem_removeRoutes h))

theorem mem_abandon (h : route ∈ tun.routes) : .deleteRoute route ∈ tun.abandon os ∨ os = .windows := by
  cases os with
  | linux => exact .inl (@deleteRoute_mem_drop .linux _ _ h)
  | macos => exact .inl (@deleteRoute_mem_drop .macos _ _ h)
  | windows => exact .inr rfl

end TunAdapter

/-- The split default leads into the tunnel, by networks of length one. -/
theorem of_mem_splitDefault {ipv6 : Bool} {route : RouteHandle} (h : route ∈ splitDefault ipv6) :
    route.via = .tunnel ∧ route.prefixLen = 1 := by
  have hall : (splitDefault ipv6).all fun route => route.via == .tunnel && route.prefixLen == 1 := by
    cases ipv6 <;> rfl
  simpa using List.all_eq_true.mp hall route h

/-- No route is planned twice. -/
theorem nodup_routePlan (os : Os) (ipv6 : Bool) (iface : PhysicalInterface) : (routePlan os ipv6 iface).Nodup := by
  obtain ⟨v4, v6⟩ := iface
  cases os <;> cases ipv6 <;> cases v4 <;> cases v6 <;> simp [routePlan, multicastRoutes, splitDefault] <;> decide

/-- On Windows every route leads into the tunnel. -/
theorem via_routePlan_windows {ipv6 : Bool} {iface : PhysicalInterface} {route : RouteHandle}
    (h : route ∈ routePlan .windows ipv6 iface) : route.via = .tunnel :=
  (of_mem_splitDefault h).1

end AceTun
