import Mathlib.Data.List.TakeWhile
import AceTun.Platform.Netcfg

/-!
# Setting the adapter up and taking it down

`create` over a routing table: it opens and configures the device and adds the planned routes one after another, and a
failure at any point drops the adapter with the routes recorded so far. Taking the adapter down deletes the recorded
routes and closes the device.

A recorded route need not be one that was added: an entry that was there before is recorded too, and is deleted with the
others. So the table is as it was before exactly if no recorded route matches one of its entries (**`restored_iff`**).
-/

namespace AceTun

open RustStd

/-! ## The calls -/

/-- What the system fails at, and the networks that it routes into the tunnel by itself: those that come with an
address, and those that come with the link. -/
structure Faults (u : Unix) where
  openDevice : Option Error
  addressV4 : Option IoError
  addressV6 : Option IoError
  linkUp : Option IoError
  route : RouteHandle → Option u.Refusal
  connectedV4 : List Net
  connectedV6 : List Net
  connectedUp : List Net

/-- Nothing fails, and the network that is on the link of an address comes with the address. -/
def Faults.none (u : Unix) : Faults u where
  openDevice := .none
  addressV4 := .none
  addressV6 := .none
  linkUp := .none
  route _ := .none
  connectedV4 := [.of (.v4 TUN_IPV4) TUN_IPV4_PREFIX.toNat]
  connectedV6 := [.of (.v6 TUN_IPV6) TUN_IPV6_PREFIX.toNat]
  connectedUp := []

/-- `.map_err(|e| Error::netcfg(op, e))?` of a call. -/
def orNetcfg (op : Str) : (fault : Option IoError) → Except Error Unit
  | some e => .error (.netConfig op e)
  | none => .ok ()

namespace Unix

variable (u : Unix)

/-- The part of `create` between the device and the routes. -/
def configure (ipv6 : Bool) (faults : Faults u) : Except Error Unit := do
  orNetcfg "add_address(v4)".toList faults.addressV4
  if ipv6 then orNetcfg "add_address(v6)".toList faults.addressV6
  orNetcfg "set_link_mtu_and_up".toList faults.linkUp

/-- The networks that come with a call, and then those that come with the next, unless the call fails. -/
def connectedBy (fault : Option IoError) (nets rest : List Net) : List Net := if fault.isSome then [] else nets ++ rest

/-- The networks that come with the calls of `configure`. -/
def connected (ipv6 : Bool) (faults : Faults u) : List Net :=
  connectedBy faults.addressV4 faults.connectedV4 <|
    (if ipv6 then connectedBy faults.addressV6 faults.connectedV6 else id) <|
      connectedBy faults.linkUp faults.connectedUp []

/-- `install_route` for each route, up to the first that fails. -/
def installRoutes (faults : Faults u) :
    List RouteHandle → TunAdapter → Table → Option Error × TunAdapter × Table
  | [], tun, t => (none, tun, t)
  | route :: todo, tun, t =>
    match u.addRoute route (faults.route route) t with
    | (.ok handle, t) => installRoutes faults todo (tun.push handle) t
    | (.error e, t) => (some (AceTun.routeError route e), tun, t)

def undo (t : Table) : Undo → Table
  | .deleteRoute route => u.deleteRoute route t
  | .shutdownSession => t

/-- The calls of a teardown, and the closing of the device. -/
def takeDown (calls : List Undo) (t : Table) : Table := (calls.foldl u.undo t).close

/-- `TunAdapter::create`; where it fails after the device was opened, what it has is dropped. -/
def create (ipv6 : Bool) (iface : PhysicalInterface) (faults : Faults u) (t : Table) : Except Error TunAdapter × Table :=
  match faults.openDevice with
  | some e => (.error e, t)
  | none =>
    let t := t.connect (u.connected ipv6 faults)
    match u.configure ipv6 faults with
    | .error e => (.error e, u.takeDown (TunAdapter.abandon u.os ⟨[]⟩) t)
    | .ok () =>
      match u.installRoutes faults (routePlan u.os ipv6 iface) ⟨[]⟩ t with
      | (none, tun, t) => (.ok tun, t)
      | (some e, tun, t) => (.error e, u.takeDown (tun.abandon u.os) t)

/-- The table after `create`, and after a teardown of the adapter if there is one. -/
def setUpAndTakeDown (teardown : TunAdapter → List Undo) (ipv6 : Bool) (iface : PhysicalInterface) (faults : Faults u)
    (t : Table) : Table :=
  match u.create ipv6 iface faults t with
  | (.ok tun, t) => u.takeDown (teardown tun) t
  | (.error _, t) => t

/-- The routes that `create` records: the planned ones before the first that fails, if it gets to them. -/
def recorded (ipv6 : Bool) (iface : PhysicalInterface) (faults : Faults u) : List RouteHandle :=
  match faults.openDevice, u.configure ipv6 faults with
  | none, .ok () => (routePlan u.os ipv6 iface).takeWhile fun route => (faults.route route).isNone
  | _, _ => []

/-! ## What they do to the table -/

variable {u} {t : Table} {routes : List RouteHandle} {tun : TunAdapter} {faults : Faults u}

theorem addAll_apply (routes : List RouteHandle) (t : Table) (net : Net) :
    t.addAll routes net = (t net).or ((routes.find? (·.net = net)).map RouteHandle.via) := by
  induction routes generalizing t with
  | nil => simp [Table.addAll]
  | cons route routes ih =>
    change (t.add route).addAll routes net = _
    rw [ih, List.find?_cons]
    by_cases hnet : route.net = net
    · subst hnet
      rcases ht : t route.net with _ | via
      · simp [Table.add, ht]
      · simp [Table.add, ht]
    · have hadd : t.add route net = t net := by
        unfold Table.add
        split
        · rfl
        · exact Function.update_of_ne (Ne.symm hnet) ..
      simp [hadd, hnet]

theorem deleteRoute_apply (route : RouteHandle) (t : Table) (net : Net) :
    u.deleteRoute route t net = if route.net = net ∧ u.Matches route (t net) then none else t net := by
  unfold deleteRoute
  by_cases hnet : route.net = net
  · subst hnet
    by_cases hm : u.Matches route (t route.net) <;> simp [hm]
  · have hne : net ≠ route.net := Ne.symm hnet
    by_cases hm : u.Matches route (t route.net) <;> simp [hm, hnet, Function.update_of_ne hne]

theorem matches_via (route : RouteHandle) : u.Matches route (some route.via) := by
  cases u <;> simp [Matches]

theorem not_matches_none (route : RouteHandle) : ¬ u.Matches route none := by
  cases u <;> simp [Matches]

theorem deleteAll_apply (routes : List RouteHandle) (t : Table) (net : Net) :
    u.deleteAll routes t net =
      if ∃ route ∈ routes, route.net = net ∧ u.Matches route (t net) then none else t net := by
  induction routes generalizing t with
  | nil => simp [deleteAll]
  | cons route routes ih =>
    change u.deleteAll routes (u.deleteRoute route t) net = _
    rw [ih, deleteRoute_apply]
    by_cases h : route.net = net ∧ u.Matches route (t net)
    · simp [h]
    · rw [if_neg h]
      exact if_congr (by rw [List.exists_mem_cons_iff, or_iff_right h]) rfl rfl

theorem takeDown_drop (tun : TunAdapter) (t : Table) :
    u.takeDown (tun.drop u.os) t = (u.deleteAll tun.routes.reverse t).close := by
  have hdrop : tun.drop u.os = tun.routes.reverse.map .deleteRoute := by cases u <;> rfl
  rw [takeDown, hdrop, List.foldl_map]
  rfl

/-- On these systems every way to take an adapter down makes the same calls. -/
theorem tearDown_eq_drop (u : Unix) (tun : TunAdapter) : tun.tearDown u.os = tun.drop u.os := by
  cases u <;> simp [os, TunAdapter.tearDown, TunAdapter.drop, TunAdapter.removeRoutes, TunAdapter.shutdownSession]

theorem abandon_eq_drop (u : Unix) (tun : TunAdapter) : tun.abandon u.os = tun.drop u.os := by
  cases u <;> rfl

/-! ## What `create` does -/

/-- The loop records and adds the routes before the first that fails. -/
theorem installRoutes_eq (faults : Faults u) (todo : List RouteHandle) (tun : TunAdapter) (t : Table) :
    ∃ error, u.installRoutes faults todo tun t =
        (error, ⟨tun.routes ++ todo.takeWhile fun route => (faults.route route).isNone⟩,
          t.addAll (todo.takeWhile fun route => (faults.route route).isNone)) ∧
      (error = none ↔ todo.takeWhile (fun route => (faults.route route).isNone) = todo) := by
  induction todo generalizing tun t with
  | nil => exact ⟨none, by simp [installRoutes, Table.addAll], iff_of_true rfl rfl⟩
  | cons route todo ih =>
    rw [installRoutes, List.takeWhile_cons]
    rcases hf : faults.route route with _ | refusal
    · obtain ⟨error, heq, hall⟩ := ih (tun.push route) (t.add route)
      refine ⟨error, ?_, ?_⟩
      · rw [addRoute_none]
        dsimp only
        rw [heq]
        simp [TunAdapter.push, Table.addAll]
      · simpa using hall
    · obtain ⟨e, he⟩ := addRoute_some route refusal t
      exact ⟨some (routeError route e), by simp [he, Table.addAll], by simp⟩

/-- **A successful `create`** has recorded the whole plan, and added what was not there. -/
theorem create_ok {ipv6 : Bool} {iface : PhysicalInterface} {t' : Table}
    (h : u.create ipv6 iface faults t = (.ok tun, t')) :
    tun.routes = routePlan u.os ipv6 iface ∧
      t' = (t.connect (u.connected ipv6 faults)).addAll (routePlan u.os ipv6 iface) := by
  unfold create at h
  split at h
  · cases h
  · dsimp only at h
    split at h
    · cases h
    · obtain ⟨error, heq, hall⟩ :=
        installRoutes_eq faults (routePlan u.os ipv6 iface) ⟨[]⟩ (t.connect (u.connected ipv6 faults))
      rw [heq] at h
      cases error with
      | none =>
        rw [hall.mp rfl] at h
        cases h
        exact ⟨rfl, rfl⟩
      | some e => cases h

theorem create_of_no_faults (u : Unix) (ipv6 : Bool) (iface : PhysicalInterface) (t : Table) :
    u.create ipv6 iface (.none u) t =
      (.ok ⟨routePlan u.os ipv6 iface⟩,
        (t.connect (u.connected ipv6 (.none u))).addAll (routePlan u.os ipv6 iface)) := by
  have hconfigure : u.configure ipv6 (.none u) = .ok () := by cases ipv6 <;> rfl
  have hall : (routePlan u.os ipv6 iface).takeWhile (fun route => ((Faults.none u).route route).isNone) =
      routePlan u.os ipv6 iface := List.takeWhile_eq_self_iff.mpr fun _ _ => rfl
  obtain ⟨error, heq, hnone⟩ :=
    installRoutes_eq (.none u) (routePlan u.os ipv6 iface) ⟨[]⟩ (t.connect (u.connected ipv6 (.none u)))
  rw [hnone.mpr hall, hall] at heq
  have hopen : (Faults.none u).openDevice = none := rfl
  rw [create, hopen, hconfigure]
  dsimp only
  rw [heq]
  rfl

theorem close_foreign (routes : Net → Option UInt32) : (Table.foreign routes).close = Table.foreign routes := by
  funext net
  unfold Table.close Table.foreign
  cases routes net <;> rfl

/-- What the system routes into the tunnel by itself has an entry only where there was none. -/
theorem connect_cases (nets : List Net) (t : Table) (net : Net) :
    t.connect nets net = t net ∨ t net = none ∧ t.connect nets net = some .tunnel := by
  unfold Table.connect
  cases t net with
  | some via => exact .inl rfl
  | none =>
    by_cases hnet : net ∈ nets
    · exact .inr ⟨rfl, by rw [if_pos hnet]; rfl⟩
    · exact .inl (by rw [if_neg hnet]; rfl)

/-- It goes with the device. -/
theorem close_connect (nets : List Net) (t : Table) : (t.connect nets).close = t.close := by
  funext net
  unfold Table.close
  rcases connect_cases nets t net with h | ⟨hnone, h⟩
  · rw [h]
  · rw [h, hnone]
    rfl

/-- **Set up and taken down**: the recorded routes are added, deleted in reverse, and the device is closed. -/
theorem setUpAndTakeDown_eq (ipv6 : Bool) (iface : PhysicalInterface) (faults : Faults u)
    (before : Net → Option UInt32) :
    u.setUpAndTakeDown (·.drop u.os) ipv6 iface faults (.foreign before) =
      (u.deleteAll (u.recorded ipv6 iface faults).reverse
        (((Table.foreign before).connect (u.connected ipv6 faults)).addAll (u.recorded ipv6 iface faults))).close := by
  unfold setUpAndTakeDown create recorded
  cases faults.openDevice with
  | some e => exact ((close_connect _ _).trans (close_foreign before)).symm
  | none =>
    dsimp only
    cases u.configure ipv6 faults with
    | error e =>
      dsimp only
      rw [abandon_eq_drop, takeDown_drop]
      rfl
    | ok _ =>
      obtain ⟨error, heq, -⟩ := installRoutes_eq faults (routePlan u.os ipv6 iface) ⟨[]⟩
        ((Table.foreign before).connect (u.connected ipv6 faults))
      dsimp only
      rw [heq]
      cases error with
      | none => exact takeDown_drop ..
      | some e =>
        dsimp only
        rw [abandon_eq_drop, takeDown_drop]
        rfl

/-- What is routed to a network after adds: its entry before, or the interface of a route that was added. -/
theorem addAll_cases (routes : List RouteHandle) (t : Table) (net : Net) :
    t.addAll routes net = t net ∨
      t net = none ∧ ∃ route ∈ routes, route.net = net ∧ t.addAll routes net = some route.via := by
  rw [addAll_apply]
  rcases ht : t net with _ | via
  · rcases hfind : routes.find? (·.net = net) with _ | route
    · exact .inl (by rw [hfind]; rfl)
    · exact .inr ⟨rfl, route, List.mem_of_find?_eq_some hfind, by simpa using List.find?_some hfind, by rw [hfind]; rfl⟩
  · exact .inl rfl

/-- A network after a set-up and a teardown: it is as before, unless a recorded route matches its entry. -/
theorem setUpAndTakeDown_apply (ipv6 : Bool) (iface : PhysicalInterface) (faults : Faults u)
    (before : Net → Option UInt32) (net : Net) :
    u.setUpAndTakeDown (·.drop u.os) ipv6 iface faults (.foreign before) net =
      if ∃ route ∈ u.recorded ipv6 iface faults, route.net = net ∧ u.Matches route (Table.foreign before net) then none
      else Table.foreign before net := by
  have hclose : (Table.foreign before net).filter (· ≠ .tunnel) = Table.foreign before net :=
    congrFun (close_foreign before) net
  rw [setUpAndTakeDown_eq, Table.close, deleteAll_apply]
  simp only [List.mem_reverse]
  rcases addAll_cases (u.recorded ipv6 iface faults) ((Table.foreign before).connect (u.connected ipv6 faults)) net with
    h | ⟨hnone, route, hmem, hnet, h⟩
  · rw [h]
    rcases connect_cases (u.connected ipv6 faults) (.foreign before) net with hsame | ⟨hnone, hown⟩
    · rw [hsame, apply_ite (Option.filter _), hclose]
      rfl
    · -- an entry of the system leads into the tunnel, and goes with it
      rw [hown, hnone, ite_self, apply_ite (Option.filter _)]
      exact ite_self none
  · -- the route was added here, and its own handle deletes it
    have hbefore : Table.foreign before net = none := by
      rcases connect_cases (u.connected ipv6 faults) (.foreign before) net with hsame | ⟨hbefore, -⟩
      · rw [← hsame, hnone]
      · exact hbefore
    rw [h, if_pos ⟨route, hmem, hnet, matches_via route⟩, hbefore, ite_self]
    rfl

/-- **The table is restored** after a `create` that ends in any way, and a drop or a teardown of its adapter if there is
one, exactly if no route that was recorded matches an entry of the table before. -/
theorem restored_iff (u : Unix) (ipv6 : Bool) (iface : PhysicalInterface) (faults : Faults u)
    (before : Net → Option UInt32) :
    (u.setUpAndTakeDown (·.drop u.os) ipv6 iface faults (.foreign before) = .foreign before ∧
      u.setUpAndTakeDown (·.tearDown u.os) ipv6 iface faults (.foreign before) = .foreign before) ↔
    ∀ route ∈ u.recorded ipv6 iface faults, ¬ u.Matches route (Table.foreign before route.net) := by
  have hsame : (fun tun : TunAdapter => tun.tearDown u.os) = fun tun => tun.drop u.os :=
    funext (tearDown_eq_drop u)
  rw [hsame, and_self, funext_iff]
  constructor
  · intro h route hmem hmatch
    have hnet := h route.net
    rw [setUpAndTakeDown_apply, if_pos ⟨route, hmem, rfl, hmatch⟩] at hnet
    rw [← hnet] at hmatch
    exact not_matches_none route hmatch
  · intro h net
    rw [setUpAndTakeDown_apply, if_neg]
    rintro ⟨route, hmem, rfl, hmatch⟩
    exact h route hmem hmatch

/-- The interface that the routes of an example lead out of. -/
def eth : PhysicalInterface := ⟨some 2, none⟩

/-- A table with the usual multicast route, out of the physical interface. -/
def multicastTable : Net → Option UInt32 := fun net => if net = .of (.v4 (.new 224 0 0 0)) 4 then some 2 else none

/-- The multicast route that was there before is deleted, on both systems. -/
theorem multicast_route_is_lost :
    Table.foreign multicastTable (.of (.v4 (.new 224 0 0 0)) 4) = some (.physical 2) ∧
    linux.setUpAndTakeDown (·.drop .linux) false eth (.none linux) (.foreign multicastTable)
      (.of (.v4 (.new 224 0 0 0)) 4) = none ∧
    macos.setUpAndTakeDown (·.drop .macos) false eth (.none macos) (.foreign multicastTable)
      (.of (.v4 (.new 224 0 0 0)) 4) = none := by
  decide +kernel

end Unix

end AceTun
