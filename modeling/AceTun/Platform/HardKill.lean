import AceTun.Calls
import AceTun.Platform.Intercept

/-!
# A hard kill on Linux and macOS

`create` and the teardown as the calls they make, so that the process can be killed between any two of them: the kernel
then closes the device. Run to its end, the program is `Unix.create` (`Unix.run_createCalls`).

At every point the table is the one before with the networks of the tunnel's own and the recorded routes added, and those
deleted whose deletion succeeded so far (`Unix.Progress`). So what a kill leaves behind are multicast routes out of the
physical interface and nothing else, and every other destination is routed as before
(**`unix_hard_kill_keeps_routes`**), as long as no planned route was there before. That holds of the end of an adapter's
life too, where a route stays behind if its deletion failed.
-/

namespace AceTun.Unix

open RustStd Calls Transition

/-! ## The calls -/

/-- The calls that are made of the system. -/
inductive Call where
  | openDevice
  | addAddress (v6 : Bool)
  | setLinkMtuAndUp
  | addRoute (route : RouteHandle)
  | deleteRoute (route : RouteHandle)
  | close
  deriving DecidableEq, Repr

abbrev Call.Result : Call → Type
  | .openDevice => Except Error Unit
  | .addAddress _ => Except IoError Unit
  | .setLinkMtuAndUp => Except IoError Unit
  | .addRoute _ => Except IoError Unit
  | .deleteRoute _ => Except IoError Unit
  | .close => Unit

/-- What the system decides about a call. One that it fails at, a deletion included, changes nothing. -/
structure Chance (u : Unix) extends Faults u where
  deleteRoute : RouteHandle → Option IoError

/-- A call that the system may fail at, and what it does to the table otherwise. -/
def faulty {ε : Type} (fault : Option ε) (change : Table → Table) (t : Table) : Except ε Unit × Table :=
  match fault with
  | some e => (.error e, t)
  | none => (.ok (), change t)

def perform (u : Unix) : (call : Call) → Chance u → Table → call.Result × Table
  | .openDevice, w => faulty w.openDevice id
  | .addAddress false, w => faulty w.addressV4 (·.connect w.connectedV4)
  | .addAddress true, w => faulty w.addressV6 (·.connect w.connectedV6)
  | .setLinkMtuAndUp, w => faulty w.linkUp (·.connect w.connectedUp)
  | .addRoute route, w => fun t =>
    ((u.addRoute route (w.route route) t).1.map fun _ => (), (u.addRoute route (w.route route) t).2)
  | .deleteRoute route, w => faulty (w.deleteRoute route) (u.deleteRoute route)
  | .close, _ => fun t => ((), t.close)

abbrev Run (α : Type) : Type := Program Call Call.Result α

def call (c : Call) : Run c.Result := .perform c

/-- `.map_err(|e| Error::netcfg(op, e))` of a call. -/
def netcfgCall (op : Str) (part : Run (Except IoError Unit)) : Run (Except Error Unit) := do
  pure ((← part).mapError (.netConfig op))

/-- One part of `create`, then the rest unless it failed. -/
def andThen {α : Type} (part : Run (Except Error Unit)) (rest : Run (Except Error α)) : Run (Except Error α) := do
  match ← part with
  | .ok _ => rest
  | .error e => pure (.error e)

def configureCalls (ipv6 : Bool) : Run (Except Error Unit) :=
  andThen (netcfgCall "add_address(v4)".toList (call (.addAddress false))) <|
  andThen (if ipv6 then netcfgCall "add_address(v6)".toList (call (.addAddress true)) else pure (.ok ())) <|
  netcfgCall "set_link_mtu_and_up".toList (call .setLinkMtuAndUp)

def installCalls : List RouteHandle → TunAdapter → Run (Option Error × TunAdapter)
  | [], tun => pure (none, tun)
  | route :: todo, tun => do
    match ← call (.addRoute route) with
    | .ok _ => installCalls todo (tun.push route)
    | .error e => pure (some (AceTun.routeError route e), tun)

/-- `remove_routes`, and the device; what a deletion returns is only logged. -/
def deleteCalls : List RouteHandle → Run Unit
  | [] => call .close
  | route :: routes => do
    let _ ← call (.deleteRoute route)
    deleteCalls routes

/-- `Drop for TunAdapter`: the routes in reverse, and the device. -/
def dropCalls (tun : TunAdapter) : Run Unit := deleteCalls tun.routes.reverse

def createCalls (u : Unix) (ipv6 : Bool) (iface : PhysicalInterface) : Run (Except Error TunAdapter) := do
  match ← call .openDevice with
  | .error e => pure (.error e)
  | .ok _ =>
    match ← configureCalls ipv6 with
    | .error e => do
      dropCalls ⟨[]⟩
      pure (.error e)
    | .ok _ =>
      match ← installCalls (routePlan u.os ipv6 iface) ⟨[]⟩ with
      | (none, tun) => pure (.ok tun)
      | (some e, tun) => do
        dropCalls tun
        pure (.error e)

/-- The whole life of an adapter. -/
def lifetime (u : Unix) (ipv6 : Bool) (iface : PhysicalInterface) : Run Unit := do
  match ← createCalls u ipv6 iface with
  | .ok tun => dropCalls tun
  | .error _ => pure ()

/-! ## Run to the end -/

section Run

variable {u : Unix} {w : Chance u} {t : Table}

theorem run_call (c : Call) : (call c).run (u.perform · w) t = u.perform c w t := rfl

theorem run_installCalls (todo : List RouteHandle) (tun : TunAdapter) (t : Table) :
    (installCalls todo tun).run (u.perform · w) t =
      (((u.installRoutes w.toFaults todo tun t).1, (u.installRoutes w.toFaults todo tun t).2.1),
        (u.installRoutes w.toFaults todo tun t).2.2) := by
  induction todo generalizing tun t with
  | nil => rfl
  | cons route todo ih =>
    rw [installCalls, Program.run_bind, run_call, installRoutes]
    simp only [perform]
    cases w.route route with
    | none =>
      rw [addRoute_none]
      exact ih (tun.push route) (t.add route)
    | some refusal =>
      obtain ⟨e, he⟩ := addRoute_some route refusal t
      rw [he]
      rfl

theorem run_deleteCalls (hw : ∀ route, w.deleteRoute route = none) (routes : List RouteHandle) (t : Table) :
    (deleteCalls routes).run (u.perform · w) t = ((), (u.deleteAll routes t).close) := by
  induction routes generalizing t with
  | nil => rfl
  | cons route routes ih =>
    have hdelete : u.perform (.deleteRoute route) w t = (.ok (), u.deleteRoute route t) := by
      simp only [perform, hw, faulty]
    rw [deleteCalls, Program.run_bind, run_call, hdelete]
    exact ih _

theorem run_dropCalls (hw : ∀ route, w.deleteRoute route = none) (tun : TunAdapter) (t : Table) :
    (dropCalls tun).run (u.perform · w) t = ((), u.takeDown (tun.abandon u.os) t) := by
  rw [dropCalls, run_deleteCalls hw, abandon_eq_drop, takeDown_drop]

theorem connect_nil (t : Table) : t.connect [] = t := funext fun net => by simp [Table.connect]

theorem connect_connect (t : Table) (nets nets' : List Net) : (t.connect nets).connect nets' = t.connect (nets ++ nets') := by
  funext net
  unfold Table.connect
  cases t net with
  | some via => rfl
  | none => by_cases hnet : net ∈ nets <;> simp [hnet]

/-- A call of `configure`, and the rest. -/
theorem run_configureCall {op : Str} {c : Run (Except IoError Unit)} {fault : Option IoError} {nets nets' : List Net}
    {rest : Run (Except Error Unit)} {r : Except Error Unit}
    (hc : ∀ t, c.run (u.perform · w) t = faulty fault (·.connect nets) t)
    (hrest : ∀ t, rest.run (u.perform · w) t = (r, t.connect nets')) (t : Table) :
    (andThen (netcfgCall op c) rest).run (u.perform · w) t =
      (orNetcfg op fault >>= fun _ => r, t.connect (connectedBy fault nets nets')) := by
  rw [andThen, Program.run_bind, netcfgCall, Program.run_bind, hc]
  cases fault with
  | some e => exact Prod.ext rfl (connect_nil t).symm
  | none => exact (hrest _).trans (Prod.ext rfl (connect_connect t nets nets'))

theorem run_configureCalls (ipv6 : Bool) (t : Table) :
    (configureCalls ipv6).run (u.perform · w) t =
      (u.configure ipv6 w.toFaults, t.connect (u.connected ipv6 w.toFaults)) := by
  have hlink : ∀ t, (netcfgCall "set_link_mtu_and_up".toList (call .setLinkMtuAndUp)).run (u.perform · w) t =
      (orNetcfg "set_link_mtu_and_up".toList w.linkUp, t.connect (connectedBy w.linkUp w.connectedUp [])) := by
    intro t
    have hcall : (call .setLinkMtuAndUp).run (u.perform · w) t = faulty w.linkUp (·.connect w.connectedUp) t := rfl
    rw [netcfgCall, Program.run_bind, hcall]
    cases w.linkUp with
    | some e => exact Prod.ext rfl (connect_nil t).symm
    | none => exact Prod.ext rfl (congrArg t.connect (List.append_nil _).symm)
  cases ipv6 with
  | true => exact run_configureCall (fun _ => rfl) (run_configureCall (fun _ => rfl) hlink) t
  | false => exact run_configureCall (fun _ => rfl) hlink t

/-- **Run to its end**, the program is `create`, if no deletion fails. -/
theorem run_createCalls (u : Unix) (ipv6 : Bool) (iface : PhysicalInterface) {w : Chance u}
    (hw : ∀ route, w.deleteRoute route = none) (t : Table) :
    (createCalls u ipv6 iface).run (u.perform · w) t = u.create ipv6 iface w.toFaults t := by
  have hopen : u.perform .openDevice w t = faulty w.openDevice id t := rfl
  unfold createCalls create
  rw [Program.run_bind, run_call, hopen]
  cases w.openDevice with
  | some e => rfl
  | none =>
    dsimp only [faulty, id]
    rw [Program.run_bind, run_configureCalls]
    dsimp only
    cases u.configure ipv6 w.toFaults with
    | error e =>
      dsimp only
      rw [Program.run_bind, run_dropCalls hw]
      rfl
    | ok _ =>
      dsimp only
      rw [Program.run_bind, run_installCalls]
      dsimp only
      rcases u.installRoutes w.toFaults (routePlan u.os ipv6 iface) ⟨[]⟩ (t.connect (u.connected ipv6 w.toFaults)) with
        ⟨_ | e, tun, t'⟩
      · rfl
      · dsimp only
        rw [Program.run_bind, run_dropCalls hw]
        rfl

end Run

/-! ## Stopped anywhere -/

/-- What was done so far: the routes that were recorded and those whose deletion succeeded, and whether the device is
closed. -/
structure Progress where
  recorded : List RouteHandle
  deleted : List RouteHandle
  closed : Bool
  deriving DecidableEq, Repr

/-- The device is configured, planned routes are added, and then recorded ones are deleted. -/
def Allowed (plan : List RouteHandle) (k : Progress) : Call → Prop
  | .addAddress _ => k.closed = false ∧ k.recorded = []
  | .setLinkMtuAndUp => k.closed = false ∧ k.recorded = []
  | .addRoute route => k.closed = false ∧ k.deleted = [] ∧ route ∈ plan
  | .deleteRoute route => k.closed = false ∧ route ∈ k.recorded
  | _ => k.closed = false

def track (c : Call) (r : c.Result) (k : Progress) : Progress :=
  match c, r with
  | .addRoute route, .ok _ => { k with recorded := k.recorded ++ [route] }
  | .deleteRoute route, .ok _ => { k with deleted := k.deleted ++ [route] }
  | .close, _ => { k with closed := true }
  | _, _ => k

section Calls

variable {plan : List RouteHandle}

theorem keeps_netcfgCall {op : Str} {c : Run (Except IoError Unit)} {k : Progress}
    (h : Keeps (Allowed plan) track (fun k' _ => k' = k) k c) :
    Keeps (Allowed plan) track (fun k' _ => k' = k) k (netcfgCall op c) :=
  Keeps.bind h fun _ _ hk => hk

theorem keeps_andThen {part rest : Run (Except Error Unit)} {k : Progress}
    (h : Keeps (Allowed plan) track (fun k' _ => k' = k) k part)
    (h' : Keeps (Allowed plan) track (fun k' _ => k' = k) k rest) :
    Keeps (Allowed plan) track (fun k' _ => k' = k) k (andThen part rest) := by
  refine Keeps.bind h fun k' r hk => ?_
  cases hk
  cases r with
  | ok _ => exact h'
  | error e => exact rfl

theorem keeps_configureCalls (ipv6 : Bool) {k : Progress} (hk : k.closed = false ∧ k.recorded = []) :
    Keeps (Allowed plan) track (fun k' _ => k' = k) k (configureCalls ipv6) := by
  refine keeps_andThen (keeps_netcfgCall (keeps_perform hk fun _ => rfl)) (keeps_andThen ?_
    (keeps_netcfgCall (keeps_perform hk fun _ => rfl)))
  cases ipv6 with
  | true => exact keeps_netcfgCall (keeps_perform hk fun _ => rfl)
  | false => exact rfl

theorem keeps_installCalls (todo : List RouteHandle) (tun : TunAdapter) (h : ∀ route ∈ todo, route ∈ plan) :
    Keeps (Allowed plan) track (fun k r => k = ⟨r.2.routes, [], false⟩) ⟨tun.routes, [], false⟩
      (installCalls todo tun) := by
  induction todo generalizing tun with
  | nil => exact rfl
  | cons route todo ih =>
    refine ⟨⟨rfl, rfl, h route List.mem_cons_self⟩, fun r => ?_⟩
    cases r with
    | ok _ => exact ih (tun.push route) fun route' hr => h route' (List.mem_cons_of_mem _ hr)
    | error e => exact rfl

theorem keeps_deleteCalls (routes : List RouteHandle) {k : Progress} (hk : k.closed = false)
    (h : ∀ route ∈ routes, route ∈ k.recorded) :
    Keeps (Allowed plan) track (fun _ _ => True) k (deleteCalls routes) := by
  induction routes generalizing k with
  | nil => exact ⟨hk, fun _ => trivial⟩
  | cons route routes ih =>
    have hrest : ∀ route' ∈ routes, route' ∈ k.recorded := fun route' hr => h route' (List.mem_cons_of_mem _ hr)
    refine ⟨⟨hk, h route List.mem_cons_self⟩, fun r => ?_⟩
    cases r with
    | ok _ => exact ih (k := ⟨k.recorded, k.deleted ++ [route], k.closed⟩) hk hrest
    | error e => exact ih hk hrest

theorem keeps_dropCalls (tun : TunAdapter) :
    Keeps (Allowed plan) track (fun _ _ => True) ⟨tun.routes, [], false⟩ (dropCalls tun) :=
  keeps_deleteCalls _ rfl fun _ hr => List.mem_reverse.mp hr

theorem keeps_lifetime (u : Unix) (ipv6 : Bool) (iface : PhysicalInterface) :
    Keeps (Allowed (routePlan u.os ipv6 iface)) track (fun _ _ => True) ⟨[], [], false⟩ (lifetime u ipv6 iface) := by
  have hcreate : Keeps (Allowed (routePlan u.os ipv6 iface)) track (fun k r => ∀ tun, r = .ok tun →
      k = ⟨tun.routes, [], false⟩) ⟨[], [], false⟩ (createCalls u ipv6 iface) := by
    have hfail : ∀ (tun : TunAdapter) (e : Error), Keeps (Allowed (routePlan u.os ipv6 iface)) track
        (fun k (r : Except Error TunAdapter) => ∀ tun, r = .ok tun → k = ⟨tun.routes, [], false⟩) ⟨tun.routes, [], false⟩
        (do dropCalls tun; pure (.error e)) := fun tun e =>
      Keeps.bind (keeps_dropCalls tun) fun _ _ _ _ h => nomatch h
    refine Keeps.bind (keeps_perform (Q := fun k _ => k = ⟨[], [], false⟩) rfl fun _ => rfl) fun k r hk => ?_
    cases hk
    cases r with
    | error e => exact fun _ h => nomatch h
    | ok _ =>
      refine Keeps.bind (keeps_configureCalls ipv6 ⟨rfl, rfl⟩) fun k r hk => ?_
      cases hk
      cases r with
      | error e => exact hfail ⟨[]⟩ e
      | ok _ =>
        refine Keeps.bind (keeps_installCalls _ ⟨[]⟩ fun _ h => h) fun k r hk => ?_
        obtain ⟨_ | e, tun⟩ := r
        · intro tun' h
          cases h
          exact hk
        · cases hk
          exact hfail tun e
  refine Keeps.bind hcreate fun k r hk => ?_
  cases r with
  | error e => exact trivial
  | ok tun =>
    cases hk tun rfl
    exact keeps_dropCalls tun

end Calls

/-- The table is the one before, with networks of the tunnel's own and what was recorded added, and what was deleted
deleted. -/
structure Reached (u : Unix) (plan : List RouteHandle) (k : Progress) (s before : Table) : Prop where
  recorded : ∀ route ∈ k.recorded, route ∈ plan
  deleted : ∀ route ∈ k.deleted, route ∈ k.recorded
  table : ∃ nets, s = if k.closed then (u.deleteAll k.deleted ((before.connect nets).addAll k.recorded)).close
    else u.deleteAll k.deleted ((before.connect nets).addAll k.recorded)

section Reached

variable {u : Unix} {plan : List RouteHandle} {k : Progress} {s before : Table}

/-- Before the first route, more networks may come. -/
theorem Reached.connect (h : Reached u plan k s before) (hk : k.closed = false ∧ k.recorded = []) (nets : List Net) :
    Reached u plan k (s.connect nets) before := by
  obtain ⟨recorded, deleted, closed⟩ := k
  obtain ⟨rfl, rfl⟩ : closed = false ∧ recorded = [] := hk
  obtain rfl : deleted = [] := List.eq_nil_iff_forall_not_mem.mpr fun route hr => by cases h.deleted route hr
  obtain ⟨nets', rfl⟩ := h.table
  exact ⟨h.recorded, h.deleted, nets' ++ nets, connect_connect before nets' nets⟩

/-- A call of `configure` that fails changes nothing, and one that does not brings networks. -/
theorem Reached.configure (h : Reached u plan k s before) (hk : k.closed = false ∧ k.recorded = [])
    (fault : Option IoError) (nets : List Net) : Reached u plan k (faulty fault (·.connect nets) s).2 before := by
  cases fault with
  | some e => exact h
  | none => exact h.connect hk nets

theorem Reached.perform (h : Reached u plan k s before) (c : Call) (w : Chance u) (hc : Allowed plan k c) :
    Reached u plan (track c (u.perform c w s).1 k) (u.perform c w s).2 before := by
  cases c with
  | openDevice =>
    simp only [Unix.perform]
    cases w.openDevice <;> exact h
  | addAddress v6 => cases v6 <;> exact h.configure hc _ _
  | setLinkMtuAndUp => exact h.configure hc _ _
  | addRoute route =>
    obtain ⟨recorded, deleted, closed⟩ := k
    obtain ⟨rfl, rfl, hplan⟩ : closed = false ∧ deleted = [] ∧ route ∈ plan := hc
    obtain ⟨nets, hs⟩ : ∃ nets, s = (before.connect nets).addAll recorded := h.table
    simp only [Unix.perform]
    cases w.route route with
    | none =>
      rw [addRoute_none]
      refine ⟨fun r hr => ?_, (fun _ hr => by cases hr), nets, ?_⟩
      · rcases List.mem_append.mp hr with hr | hr
        · exact h.recorded r hr
        · rw [List.mem_singleton.mp hr]
          exact hplan
      · change s.add route = (before.connect nets).addAll (recorded ++ [route])
        rw [hs, Table.addAll, Table.addAll, List.foldl_append]
        rfl
    | some refusal =>
      obtain ⟨e, he⟩ := addRoute_some route refusal s
      rw [he]
      exact h
  | deleteRoute route =>
    obtain ⟨recorded, deleted, closed⟩ := k
    obtain ⟨rfl, hmem⟩ : closed = false ∧ route ∈ recorded := hc
    simp only [Unix.perform]
    cases w.deleteRoute route with
    | some e => exact h
    | none =>
      obtain ⟨nets, hs⟩ : ∃ nets, s = u.deleteAll deleted ((before.connect nets).addAll recorded) := h.table
      refine ⟨h.recorded, fun r hr => ?_, nets, ?_⟩
      · rcases List.mem_append.mp hr with hr | hr
        · exact h.deleted r hr
        · rw [List.mem_singleton.mp hr]
          exact hmem
      · change u.deleteRoute route s = u.deleteAll (deleted ++ [route]) ((before.connect nets).addAll recorded)
        rw [hs, deleteAll, deleteAll, List.foldl_append]
        rfl
  | close =>
    obtain ⟨recorded, deleted, closed⟩ := k
    obtain rfl : closed = false := hc
    obtain ⟨nets, hs⟩ := h.table
    exact ⟨h.recorded, h.deleted, nets, congrArg Table.close hs⟩

end Reached

/-! ## What a kill leaves behind -/

/-- A process with the routing table. -/
abbrev step (u : Unix) : Process Call Call.Result Unit Table → Move (Chance u) Empty →
    Option (Process Call Call.Result Unit Table) :=
  Process.step u.perform fun e => nomatch e

theorem afterOthers_empty {ω τ : Type} {change : Empty → τ → τ} (moves : List (Move ω Empty)) (t : τ) :
    afterOthers change moves t = t := by
  induction moves with
  | nil => rfl
  | cons move moves ih =>
    cases move with
    | own w => exact ih
    | other e => cases e

theorem close_close (t : Table) : t.close.close = t.close := by
  funext net
  simp [Table.close, Option.filter_filter]

/-- The entry of a network once the device is closed: the one before, unless a planned route is left there that does not
lead into the tunnel, or the entry before matched a planned route and was deleted with it. -/
theorem Reached.close_apply {u : Unix} {plan : List RouteHandle} {k : Progress} {s : Table}
    {before : Net → Option UInt32} (h : Reached u plan k s (.foreign before)) (net : Net) :
    s.close net = Table.foreign before net ∨
      (before net = none ∧ ∃ route ∈ plan, route.net = net ∧ route.via ≠ .tunnel ∧ s.close net = some route.via) ∨
      (s.close net = none ∧ ∃ route ∈ plan, route.net = net ∧ u.Matches route (Table.foreign before net)) := by
  obtain ⟨nets, htable⟩ := h.table
  have hclose : s.close = (u.deleteAll k.deleted (((Table.foreign before).connect nets).addAll k.recorded)).close := by
    rw [htable]
    split
    · exact close_close _
    · rfl
  have hkeep : (Table.foreign before net).filter (· ≠ .tunnel) = Table.foreign before net :=
    congrFun (close_foreign before) net
  rw [hclose, Table.close, deleteAll_apply]
  rcases connect_cases nets (.foreign before) net with hsame | ⟨hnone, hown⟩
  · rcases addAll_cases k.recorded ((Table.foreign before).connect nets) net with ha | ⟨hnone, route, hmem, hnet, ha⟩
    · rw [ha, hsame]
      split
      · rename_i hdel
        obtain ⟨route, hmem, hnet, hmatch⟩ := hdel
        exact .inr (.inr ⟨rfl, route, h.recorded _ (h.deleted _ hmem), hnet, hmatch⟩)
      · exact .inl hkeep
    · rw [ha]
      rw [hsame] at hnone
      split
      · exact .inl hnone.symm
      · by_cases hvia : route.via = .tunnel
        · exact .inl (by simp [hvia, hnone])
        · exact .inr (.inl ⟨Option.map_eq_none_iff.mp hnone, route, h.recorded _ hmem, hnet, hvia, by simp [hvia]⟩)
  · -- an entry of the system stays where it is until the device is closed
    have ha : ((Table.foreign before).connect nets).addAll k.recorded net = some .tunnel := by
      rw [addAll_apply, hown, Option.some_or]
    rw [ha, hnone]
    refine .inl ?_
    split <;> rfl

end AceTun.Unix

namespace AceTun

open RustStd Calls Transition

/-- **A hard kill leaves the machine online** on Linux and macOS. Killed at any point of the life of an adapter, whichever
calls failed, deletions included, and the device closed with it, a network has the entry it had, or had none and keeps a
planned route out of the physical interface, or lost one that a planned route matched. If no planned route was there
before, every destination that is not a group address is routed as it was. -/
theorem unix_hard_kill_keeps_routes (u : Unix) (ipv6 : Bool) (iface : PhysicalInterface) (before : Net → Option UInt32)
    (moves : List (Move u.Chance Empty)) (q : Process Unix.Call Unix.Call.Result Unit Table)
    (h : exec u.step ⟨u.lifetime ipv6 iface, .foreign before⟩ moves = some q) :
    (∀ net, q.system.close net = Table.foreign before net ∨
      (before net = none ∧ ∃ route ∈ multicastRoutes u.os ipv6 iface, route.net = net ∧
        q.system.close net = some route.via) ∨
      (q.system.close net = none ∧ ∃ route ∈ routePlan u.os ipv6 iface, route.net = net ∧
        u.Matches route (Table.foreign before net))) ∧
    ((∀ route ∈ routePlan u.os ipv6 iface, ¬ u.Matches route (Table.foreign before route.net)) →
      ∀ d, ¬ InGroup d → q.system.close.lookup d = (Table.foreign before).lookup d) := by
  have hstart : Unix.Reached u (routePlan u.os ipv6 iface) ⟨[], [], false⟩ (.foreign before) (.foreign before) :=
    ⟨(fun _ hr => by cases hr), (fun _ hr => by cases hr), [], (Unix.connect_nil _).symm⟩
  obtain ⟨k, -, hreached⟩ := Keeps.exec (R := Unix.Reached u (routePlan u.os ipv6 iface))
    (g := fun (e : Empty) t => nomatch e) (fun _ c w _ _ hR hc => hR.perform c w hc)
    (fun _ e _ _ _ => nomatch e) (Unix.keeps_lifetime u ipv6 iface) hstart h
  rw [Unix.afterOthers_empty] at hreached
  refine ⟨fun net => ?_, fun hfree d hd => ?_⟩
  · rcases hreached.close_apply net with hn | ⟨hnone, route, hmem, hnet, hvia, hn⟩ | hlost
    · exact .inl hn
    · refine .inr (.inl ⟨hnone, route, ?_, hnet, hn⟩)
      rcases List.mem_append.mp hmem with hm | hm
      · exact hm
      · exact absurd (of_mem_splitDefault hm).1 hvia
    · exact .inr (.inr hlost)
  · refine Lpm.lookup_ext fun n hn => ?_
    rcases hreached.close_apply (.of d n) with hsame | ⟨-, route, hmem, hnet, hvia, -⟩ | ⟨-, route, hmem, hnet, hmatch⟩
    · exact hsame
    · -- a route that does not lead into the tunnel is for a group
      rcases Unix.routePlan_cases hmem hnet hn with ⟨-, htunnel⟩ | ⟨-, hin, -⟩
      · exact absurd htunnel hvia
      · exact absurd hin hd
    · exact absurd hmatch (hnet ▸ hfree route hmem)

/-- A system that refuses to delete. -/
def Unix.undeleting : Unix.linux.Chance := ⟨.none .linux, fun _ => some ⟨.other, []⟩⟩

/-- Killed before the device is closed, when no deletion has succeeded. -/
theorem unix_hard_kill_keeps_routes_sample :
    ∃ q, exec Unix.linux.step ⟨Unix.linux.lifetime false Unix.eth, .foreign fun _ => none⟩
        (List.replicate 9 (.own Unix.undeleting)) = some q ∧
      q.system.lookup (.v4 (.new 8 8 8 8)) = some .tunnel ∧
      q.system.close (.of (.v4 (.new 224 0 0 0)) 4) = some (.physical 2) ∧
      q.system.close.lookup (.v4 (.new 8 8 8 8)) = none := by
  obtain ⟨q, hq⟩ : ∃ q, exec Unix.linux.step ⟨Unix.linux.lifetime false Unix.eth, .foreign fun _ => none⟩
      (List.replicate 9 (.own Unix.undeleting)) = some q := ⟨_, rfl⟩
  have hgroup : ¬ InGroup (.v4 (.new 8 8 8 8)) := by decide +kernel
  have hfree : ∀ route ∈ routePlan Unix.linux.os false Unix.eth,
      ¬ Unix.linux.Matches route (Table.foreign (fun _ => none) route.net) := by decide +kernel
  refine ⟨q, hq, ?_, ?_, ((unix_hard_kill_keeps_routes .linux false Unix.eth _ _ q hq).2 hfree _ hgroup).trans ?_⟩
  · cases hq
    decide +kernel
  · cases hq
    decide +kernel
  · decide +kernel

end AceTun
