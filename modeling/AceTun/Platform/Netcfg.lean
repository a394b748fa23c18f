import AceTun.Platform.Adapter
import Mathlib.Logic.Function.Basic

/-!
# Routes on Linux and macOS

A routing table maps networks to interfaces. An exclusive add of a network that the table has is refused and changes
nothing; a delete removes what it matches, which on Linux is the network with its interface and on macOS the network
alone. The networks on the link of an address the system routes into the tunnel by itself. Closing the device removes
what leads into the tunnel.

`add_route` takes the refusal for a success, and returns a handle for an entry that it did not make. So on both systems it
has two outcomes: the network is in the table and there is a handle (`Unix.addRoute_none`), or the system fails in some
other way and nothing changes (`Unix.addRoute_some`).
-/

namespace AceTun

open RustStd

/-! ## The system's side -/

/-- A network: its family, and the bits that are fixed. -/
structure Net where
  v6 : Bool
  bits : List Bool
  deriving DecidableEq, Repr

/-- The network of an address that has a length. -/
def Net.of (ip : IpAddr) (len : Nat) : Net := ⟨ip.isIpv6, ip.bits.take len⟩

def RouteHandle.net (route : RouteHandle) : Net := .of route.dest route.prefixLen

abbrev Table : Type := Net → Option Via

namespace Table

/-- A table before the tunnel exists: nothing leads into it. -/
def foreign (routes : Net → Option UInt32) : Table := fun net => (routes net).map .physical

/-- What a network is routed to after an exclusive add. -/
def add (route : RouteHandle) (t : Table) : Table :=
  if (t route.net).isSome then t else Function.update t route.net (some route.via)

/-- Exclusive adds in turn. -/
def addAll (routes : List RouteHandle) (t : Table) : Table := routes.foldl (fun t route => t.add route) t

/-- The system routes networks into the tunnel by itself, behind the entries that are there. -/
def connect (nets : List Net) (t : Table) : Table := fun net => (t net).or (if net ∈ nets then some .tunnel else none)

/-- The device is closed. -/
def close (t : Table) : Table := fun net => (t net).filter (· ≠ .tunnel)

end Table

/-! ## `add_route` on Linux -/

namespace Linux

/-- Adding what exists is not a failure. -/
def idempotentAlreadyExists (error : IoError) : Except IoError Unit :=
  if error.kind = .alreadyExists then .ok () else .error error

/-- `add_route`, on the kernel's answer to the request. -/
def addRoute (route : RouteHandle) (ack : Except IoError Unit) : Except IoError RouteHandle :=
  match ack with
  | .ok () => .ok route
  | .error e => (idempotentAlreadyExists e).map fun _ => route

/-- A failure that says nothing of what exists. -/
structure Refusal where
  error : IoError
  other : error.kind ≠ .alreadyExists

/-- The kernel's answer to a request with `NLM_F_CREATE | NLM_F_EXCL`. -/
def requestAck (route : RouteHandle) (t : Table) : Option Refusal → Except IoError Unit
  | some refusal => .error refusal.error
  | none => if (t route.net).isSome then .error ⟨.alreadyExists, "File exists (os error 17)".toList⟩ else .ok ()

end Linux

/-! ## `add_route` on macOS -/

namespace Macos

/-- How `/sbin/route` ends; there is no code where a signal killed it. -/
structure CommandOutput where
  code : Option Nat
  stderr : Str
  deriving DecidableEq, Repr

/-- `status.success()`. -/
def CommandOutput.Success (output : CommandOutput) : Prop := output.code = some 0

/-- The diagnosis of a route that is already in the table. -/
def CommandOutput.FileExists (output : CommandOutput) : Prop :=
  output.code = some 1 ∧ "file exists".toList <:+: toAsciiLowercase output.stderr

instance (output : CommandOutput) : Decidable output.Success := inferInstanceAs (Decidable (_ = _))

instance (output : CommandOutput) : Decidable output.FileExists := inferInstanceAs (Decidable (_ ∧ _))

def routeError (verb stderr : Str) : IoError :=
  .otherError ("route ".toList ++ verb ++ " failed: ".toList ++ trim stderr)

/-- `add_route`, on how the command ends; there is no output if the interface has no name or the command does not run. -/
def addRoute (route : RouteHandle) (output : Except IoError CommandOutput) : Except IoError RouteHandle :=
  match output with
  | .error e => .error e
  | .ok output =>
    if ¬ output.Success then
      if output.FileExists then .ok route else .error (routeError "add".toList output.stderr)
    else .ok route

/-- A failure that says nothing of what exists. -/
structure Refusal where
  output : Except IoError CommandOutput
  other : ∀ out, output = .ok out → ¬ out.Success ∧ ¬ out.FileExists

/-- How the command ends for a route that is already in the table. -/
def alreadyInTable : CommandOutput := ⟨some 1, "route: writing to routing socket: File exists".toList⟩

/-- How `route add` ends. -/
def routeAdd (route : RouteHandle) (t : Table) : Option Refusal → Except IoError CommandOutput
  | some refusal => refusal.output
  | none => .ok (if (t route.net).isSome then alreadyInTable else ⟨some 0, []⟩)

end Macos

/-! ## Both systems -/

/-- The systems whose routes are modelled. -/
inductive Unix where
  | linux
  | macos
  deriving DecidableEq, Repr

namespace Unix

def os : Unix → Os
  | linux => .linux
  | macos => .macos

def Refusal : Unix → Type
  | linux => Linux.Refusal
  | macos => Macos.Refusal

/-- `add_route` and what it does to the table; a refusal leaves it as it is. -/
def addRoute : (u : Unix) → (route : RouteHandle) → Option u.Refusal → Table → Except IoError RouteHandle × Table
  | linux, route, refusal, t =>
    (Linux.addRoute route (Linux.requestAck route t refusal), if refusal.isSome then t else t.add route)
  | macos, route, refusal, t =>
    (Macos.addRoute route (Macos.routeAdd route t refusal), if refusal.isSome then t else t.add route)

/-- The entry for a network is what `delete_route` of a handle removes. -/
def Matches (u : Unix) (route : RouteHandle) (entry : Option Via) : Prop :=
  match u with
  | linux => entry = some route.via
  | macos => entry.isSome

instance (u : Unix) (route : RouteHandle) (entry : Option Via) : Decidable (u.Matches route entry) := by
  unfold Matches
  cases u <;> infer_instance

/-- `delete_route`; what it returns is only logged. -/
def deleteRoute (u : Unix) (route : RouteHandle) (t : Table) : Table :=
  if u.Matches route (t route.net) then Function.update t route.net none else t

def deleteAll (u : Unix) (routes : List RouteHandle) (t : Table) : Table :=
  routes.foldl (fun t route => u.deleteRoute route t) t

theorem addRoute_none (u : Unix) (route : RouteHandle) (t : Table) :
    u.addRoute route none t = (.ok route, t.add route) := by
  cases u with
  | linux =>
    refine Prod.ext ?_ rfl
    change Linux.addRoute route (Linux.requestAck route t none) = .ok route
    simp only [Linux.requestAck]
    split <;> rfl
  | macos =>
    refine Prod.ext ?_ rfl
    change Macos.addRoute route (Macos.routeAdd route t none) = .ok route
    simp only [Macos.routeAdd]
    split
    · have hfail : ¬ Macos.alreadyInTable.Success := by decide
      have hexists : Macos.alreadyInTable.FileExists := by decide
      rw [Macos.addRoute, if_pos hfail, if_pos hexists]
    · rfl

theorem addRoute_some {u : Unix} (route : RouteHandle) (refusal : u.Refusal) (t : Table) :
    ∃ e, u.addRoute route (some refusal) t = (.error e, t) := by
  cases u with
  | linux =>
    refine ⟨refusal.error, Prod.ext ?_ rfl⟩
    change (Linux.idempotentAlreadyExists refusal.error).map (fun _ => route) = .error refusal.error
    rw [Linux.idempotentAlreadyExists, if_neg refusal.other]
    rfl
  | macos =>
    rcases refusal with ⟨e | out, hother⟩
    · exact ⟨e, rfl⟩
    · obtain ⟨hfail, hne⟩ := hother out rfl
      exact ⟨Macos.routeError "add".toList out.stderr, Prod.ext ((if_pos hfail).trans (if_neg hne)) rfl⟩

end Unix

end AceTun
