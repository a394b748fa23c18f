import AceTun.Platform.Adapter
import AceTun.Transition

/-!
# The lifecycle of the engine

`TunRedirect` is started and stopped by concurrent calls, and each successful start leaves two tasks behind: the
netstack, and the watchdog that takes the adapter down once the netstack has ended. `Engine` is the state they share,
with a program counter for each call and each task, and `step` is one atomic step of any of them: an access to shared
state, or one call to the system. What the system answers to a call that sets a tunnel up is part of the action; the
calls that take it down are answered as `Device.effect` has it, so that every `delete_route` removes its route.

A call of `start` is named by its number, and so is the tunnel it makes.
-/

namespace AceTun

open RustStd

/-! ## One tunnel -/

/-- Who takes an adapter down. -/
inductive Party where
  | start
  | watchdog
  | stop
  | drop
  deriving DecidableEq, Repr

/-- Where the `TunAdapter` of a tunnel is. -/
inductive Custody where
  | absent
  /-- A local variable of `start_inner`. -/
  | building (tun : TunAdapter)
  /-- The slot that the watchdog and the `RunState` share. -/
  | slot (tun : TunAdapter)
  /-- Moved out of there by a party that has these calls left to make before the device is closed. -/
  | tearing (party : Party) (todo : List Undo)
  | gone
  deriving DecidableEq, Repr

/-- Where the watchdog of a tunnel is. -/
inductive Watchdog where
  | unborn
  | awaiting
  | tearing
  | joining
  | finished
  /-- Panicked or cancelled; its future has been dropped. -/
  | failed
  deriving DecidableEq, Repr

/-- What one call of `start` makes. -/
structure Tunnel where
  /-- What `create` was given. -/
  iface : PhysicalInterface
  device : Device
  custody : Custody
  /-- `true` was sent on the shutdown channel. -/
  shutdown : Bool
  netstackEnded : Bool
  watchdog : Watchdog
  /-- The `RunState` exists. -/
  held : Bool
  deriving DecidableEq, Repr

namespace Tunnel

def blank : Tunnel := ⟨.empty, .blank, .absent, false, false, .unborn, false⟩

/-- The device is open, and no route is installed. -/
def create (iface : PhysicalInterface) : Tunnel :=
  { blank with iface, device := Device.blank.perform .openDevice, custody := .building ⟨[]⟩ }

def install (tun : TunAdapter) (route : RouteHandle) (t : Tunnel) : Tunnel :=
  { t with device := t.device.perform (.addRoute route), custody := .building (tun.push route) }

/-- Both tasks are spawned, and the adapter is in the slot. -/
def spawn (tun : TunAdapter) (t : Tunnel) : Tunnel :=
  { t with custody := .slot tun, watchdog := .awaiting, held := true }

/-- The adapter is moved to a party. -/
def tear (party : Party) (todo : List Undo) (t : Tunnel) : Tunnel := { t with custody := .tearing party todo }

/-- A call of the teardown is made. -/
def undo (party : Party) (call : Undo) (todo : List Undo) (t : Tunnel) : Tunnel :=
  { t with device := t.device.perform (.undo call), custody := .tearing party todo }

/-- The adapter's handle is closed. -/
def close (t : Tunnel) : Tunnel := { t with device := t.device.perform .close, custody := .gone }

/-- The next call of a teardown, and whether it was the last. -/
def advance (party : Party) (t : Tunnel) : Option (Tunnel × Bool) :=
  match t.custody with
  | .tearing p [] => if p = party then some (t.close, true) else none
  | .tearing p (call :: todo) => if p = party then some (t.undo party call todo, false) else none
  | _ => none

variable (os : Os)

/-- `watchdog`, one step. -/
def watchdogStep (t : Tunnel) : Option Tunnel :=
  match t.watchdog with
  | .awaiting =>
    if t.netstackEnded then
      match t.custody with
      | .slot tun => some { t.tear .watchdog (tun.tearDown os) with watchdog := .tearing }
      | _ => some { t with watchdog := .joining }
    else none
  | .tearing => (t.advance .watchdog).map fun (t, last) => if last then { t with watchdog := .joining } else t
  | .joining => some { t with watchdog := .finished }
  -- dropping the future drops the slot with it, if nothing else shares it
  | .failed => (t.advance .watchdog).map (·.1)
  | .unborn => none
  | .finished => none

/-- The watchdog is cancelled at one of its awaits, or its last log call panics. -/
def watchdogFail (t : Tunnel) : Option Tunnel :=
  match t.watchdog with
  | .awaiting =>
    match t.held, t.custody with
    | false, .slot tun => some { t.tear .watchdog (tun.drop os) with watchdog := .failed }
    | _, _ => some { t with watchdog := .failed }
  | .joining => some { t with watchdog := .failed }
  | _ => none

end Tunnel

/-! ## The calls -/

abbrev CallId := Nat

/-- Where a call of `start` is; `installing` has the routes that are left. -/
inductive StartPc where
  | entered
  | claimed
  | discovered (iface : PhysicalInterface)
  | creating (iface : PhysicalInterface)
  | configuring (iface : PhysicalInterface)
  | installing (todo : List RouteHandle)
  | publishing
  /-- The adapter is dropped on the way out. -/
  | unwinding (error : Error)
  /-- `start_inner` has returned an error. -/
  | failed (error : Error)
  | returned (result : Except Error Unit)
  deriving DecidableEq

/-- Where a call of `stop` is, with the tunnel whose `RunState` it took. -/
inductive StopPc where
  | entered
  | taken (run : CallId)
  | cleared (run : CallId)
  | awaiting (run : CallId)
  /-- The watchdog failed, and the adapter is taken down here. -/
  | fallback (run : CallId)
  /-- The future was dropped, and the adapter with it. -/
  | unwinding (run : CallId)
  | cancelled
  | returned (result : Except Error Unit)
  deriving DecidableEq

inductive Call where
  | unmade
  | start (pc : StartPc)
  | stop (pc : StopPc)
  deriving DecidableEq

/-- The call has returned, or its future was dropped. -/
def Call.finished : Call → Bool
  | .start (.returned _) => true
  | .stop (.returned _) => true
  | .stop .cancelled => true
  | _ => false

/-- Where `Drop for TunRedirect` is. -/
inductive DropPc where
  | alive
  | entered
  | taken (run : CallId)
  | cleared (run : CallId)
  | signalled (run : CallId)
  | tearing (run : CallId)
  | aborting (run : CallId)
  | dropped
  deriving DecidableEq

structure Engine where
  cells : SharedCells
  /-- `Mutex<Option<RunState>>`, by the tunnel of the state. -/
  running : Option CallId
  /-- How many calls have been made. -/
  made : Nat
  call : CallId → Call
  tunnel : CallId → Tunnel
  dropping : DropPc

namespace Engine

/-- A built engine that was never started. -/
def init : Engine where
  cells := ⟨false, none⟩
  running := none
  made := 0
  call _ := .unmade
  tunnel _ := .blank
  dropping := .alive

def isRunning (s : Engine) : Bool := s.running.isSome

def setCall (s : Engine) (c : CallId) (call : Call) : Engine := { s with call := Function.update s.call c call }

def setTunnel (s : Engine) (r : CallId) (t : Tunnel) : Engine := { s with tunnel := Function.update s.tunnel r t }

def setFlag (s : Engine) (flag : Bool) : Engine := { s with cells := { s.cells with running := flag } }

/-- A new call. -/
def enter (s : Engine) (call : Call) : Engine := { s.setCall s.made call with made := s.made + 1 }

/-- The adapter of a failed start is dropped before the call goes on. -/
def unwind (s : Engine) (c : CallId) (todo : List Undo) (error : Error) : Engine :=
  (s.setTunnel c ((s.tunnel c).tear .start todo)).setCall c (.start (.unwinding error))

end Engine

/-- What the next step of a `start` meets. -/
inductive StartEvent where
  | compareExchange
  | discover (answer : PhysicalInterface)
  | setIface
  /-- `BackendImpl::create`, up to the open device. -/
  | create (outcome : Except Error Unit)
  /-- Addresses, MTU, metric and session. -/
  | configure (outcome : Except Error Unit)
  | addRoute (outcome : Except IoError Unit)
  /-- The session and the async device; the tasks are spawned if there is one. -/
  | device (outcome : Except IoError Unit)
  | publish
  | unwind
  | reset
  deriving DecidableEq

inductive Action where
  | beginStart
  | beginStop
  | beginDrop
  | start (c : CallId) (event : StartEvent)
  | stop (c : CallId)
  /-- The future is dropped at its await. -/
  | cancelStop (c : CallId)
  | drop
  | netstackEnds (r : CallId)
  | watchdog (r : CallId)
  | watchdogFails (r : CallId)
  deriving DecidableEq

/-- The error of a machine without connectivity. -/
def notConnected : Error :=
  .netConfig "discover_physical_interface".toList ⟨.notConnected, "no internet-facing interface found".toList⟩

section Steps

variable (os : Os) (ipv6 : Bool) (s : Engine)

/-- `start` and `start_inner`, one step. -/
def startStep (c : CallId) : StartPc → StartEvent → Option Engine
  | .entered, .compareExchange =>
    if s.cells.running then some (s.setCall c (.start (.returned (.error .alreadyRunning))))
    else some ((s.setFlag true).setCall c (.start .claimed))
  | .claimed, .discover iface =>
    some (s.setCall c (.start (if iface.isEmpty then .failed notConnected else .discovered iface)))
  | .discovered iface, .setIface =>
    some ({ s with cells := s.cells.setIface iface }.setCall c (.start (.creating iface)))
  | .creating _, .create (.error e) => some (s.setCall c (.start (.failed e)))
  | .creating iface, .create (.ok ()) =>
    some ((s.setTunnel c (.create iface)).setCall c (.start (.configuring iface)))
  | .configuring iface, .configure outcome =>
    match (s.tunnel c).custody, outcome with
    | .building tun, .error e => some (s.unwind c (tun.abandon os) e)
    | .building _, .ok () => some (s.setCall c (.start (.installing (routePlan os ipv6 iface))))
    | _, _ => none
  | .installing (route :: todo), .addRoute outcome =>
    match (s.tunnel c).custody, outcome with
    | .building tun, .error e => some (s.unwind c (tun.abandon os) (routeError route e))
    | .building tun, .ok () =>
      some ((s.setTunnel c ((s.tunnel c).install tun route)).setCall c (.start (.installing todo)))
    | _, _ => none
  | .installing [], .device outcome =>
    match (s.tunnel c).custody, outcome with
    | .building tun, .error e => some (s.unwind c (tun.drop os) (.io e))
    | .building tun, .ok () => some ((s.setTunnel c ((s.tunnel c).spawn tun)).setCall c (.start .publishing))
    | _, _ => none
  | .publishing, .publish => some ({ s with running := some c }.setCall c (.start (.returned (.ok ()))))
  | .unwinding e, .unwind =>
    ((s.tunnel c).advance .start).map fun (t, last) =>
      if last then (s.setTunnel c t).setCall c (.start (.failed e)) else s.setTunnel c t
  | .failed e, .reset => some ((s.setFlag false).setCall c (.start (.returned (.error e))))
  | _, _ => none

/-- `stop`, one step. -/
def stopStep (c : CallId) : StopPc → Option Engine
  | .entered =>
    match s.running with
    | none => some (s.setCall c (.stop (.returned (.error .notRunning))))
    | some r => some ({ s with running := none }.setCall c (.stop (.taken r)))
  | .taken r => some ((s.setFlag false).setCall c (.stop (.cleared r)))
  | .cleared r => some ((s.setTunnel r { s.tunnel r with shutdown := true }).setCall c (.stop (.awaiting r)))
  | .awaiting r =>
    let done := (s.setTunnel r { s.tunnel r with held := false }).setCall c (.stop (.returned (.ok ())))
    match (s.tunnel r).watchdog with
    | .finished => some done
    | .failed =>
      match (s.tunnel r).custody with
      | .slot tun => some ((s.setTunnel r ((s.tunnel r).tear .stop (tun.tearDown os))).setCall c (.stop (.fallback r)))
      | _ => some done
    | _ => none
  | .fallback r =>
    ((s.tunnel r).advance .stop).map fun (t, last) =>
      if last then (s.setTunnel r { t with held := false }).setCall c (.stop (.returned (.ok ()))) else s.setTunnel r t
  | .unwinding r =>
    ((s.tunnel r).advance .stop).map fun (t, last) =>
      if last then (s.setTunnel r t).setCall c (.stop .cancelled) else s.setTunnel r t
  | .cancelled => none
  | .returned _ => none

/-- The future of a `stop` is dropped at its await, and the `RunState` with it. If the watchdog is gone too, nothing
else shares the slot, and an adapter in it is dropped. -/
def cancelStop (c : CallId) : StopPc → Option Engine
  | .awaiting r =>
    match (s.tunnel r).watchdog, (s.tunnel r).custody with
    | .failed, .slot tun =>
      some ((s.setTunnel r { (s.tunnel r).tear .stop (tun.drop os) with held := false }).setCall c
        (.stop (.unwinding r)))
    | _, _ => some ((s.setTunnel r { s.tunnel r with held := false }).setCall c (.stop .cancelled))
  | _ => none

/-- `Drop for TunRedirect`, one step. An aborted watchdog is cancelled at its next await, if it gets there. -/
def dropStep : DropPc → Option Engine
  | .entered =>
    match s.running with
    | none => some { s with dropping := .dropped }
    | some r => some { s with running := none, dropping := .taken r }
  | .taken r => some { s.setFlag false with dropping := .cleared r }
  | .cleared r => some { s.setTunnel r { s.tunnel r with shutdown := true } with dropping := .signalled r }
  | .signalled r =>
    match (s.tunnel r).custody with
    | .slot tun => some { s.setTunnel r ((s.tunnel r).tear .drop (tun.tearDown os)) with dropping := .tearing r }
    | _ => some { s with dropping := .aborting r }
  | .tearing r =>
    ((s.tunnel r).advance .drop).map fun (t, last) =>
      if last then { s.setTunnel r t with dropping := .aborting r } else s.setTunnel r t
  | .aborting r => some { s.setTunnel r { s.tunnel r with held := false } with dropping := .dropped }
  | .alive => none
  | .dropped => none

/-- **One step of the engine.** Dropping it needs exclusive access: no call is left, and none begins. -/
def step : Action → Option Engine
  | .beginStart => if s.dropping = .alive then some (s.enter (.start .entered)) else none
  | .beginStop => if s.dropping = .alive then some (s.enter (.stop .entered)) else none
  | .beginDrop =>
    if s.dropping = .alive ∧ ∀ c < s.made, (s.call c).finished = true then some { s with dropping := .entered } else none
  | .start c event =>
    match s.call c with
    | .start pc => startStep os ipv6 s c pc event
    | _ => none
  | .stop c =>
    match s.call c with
    | .stop pc => stopStep os s c pc
    | _ => none
  | .cancelStop c =>
    match s.call c with
    | .stop pc => cancelStop os s c pc
    | _ => none
  | .drop => dropStep os s s.dropping
  | .netstackEnds r =>
    if (s.tunnel r).watchdog ≠ .unborn ∧ (s.tunnel r).netstackEnded = false then
      some (s.setTunnel r { s.tunnel r with netstackEnded := true })
    else none
  | .watchdog r => ((s.tunnel r).watchdogStep os).map (s.setTunnel r)
  | .watchdogFails r => ((s.tunnel r).watchdogFail os).map (s.setTunnel r)

end Steps

end AceTun
