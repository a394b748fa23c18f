import AceTun.Platform.Linux.Process
import AceTun.Platform.Macos.Process

/-!
# What the endpoint cache changes

As long as the kernel's tables do not change, `resolve_pid` is the uncached lookup remembered by local endpoint: on Linux
the inode map is then always the one that a fresh scan would build (`Linux.resolvePid_eq_call`), on macOS there is no
other state (`Macos.resolvePid_eq_call`). So the answers are those of the uncached lookup exactly if no flow is asked for
while its local endpoint is remembered with another owner (**`resolvePid_transparent_iff`**).
-/

namespace AceTun

open RustStd

/-- A call of `resolve_pid`. -/
abbrev ResolveCall : Type := Memo.Call FlowEnds

namespace Linux

variable (kernel : Kernel)

/-- The lookup without caches: the kernel's inode, and a fresh scan. -/
def uncachedPid (flow : FlowEnds) : Option UInt32 :=
  (querySocketInode kernel.sockDiag flow).bind (scanSocketInodes kernel.proc).lookup

def resolveCall (cache : ProcessCache) (call : ResolveCall) : Option UInt32 × ProcessCache :=
  resolvePid kernel call.arg call.now cache

/-- The inode map, if there is one, is what a scan finds now. -/
def UpToDate (cache : ProcessCache) : Prop := ∀ map ∈ cache.inodes, map = scanSocketInodes kernel.proc

variable {kernel} {cache : ProcessCache}

theorem inodeToPid_upToDate (h : UpToDate kernel cache) (inode : UInt64) :
    (inodeToPid kernel.proc inode cache).1 = (scanSocketInodes kernel.proc).lookup inode ∧
      (inodeToPid kernel.proc inode cache).2.endpoints = cache.endpoints ∧
      UpToDate kernel (inodeToPid kernel.proc inode cache).2 := by
  unfold inodeToPid
  split
  · rename_i pid hpid
    obtain ⟨map, hmap, hlookup⟩ := Option.bind_eq_some_iff.mp hpid
    rw [h map hmap] at hlookup
    exact ⟨hlookup.symm, rfl, h⟩
  · refine ⟨rfl, rfl, fun map hmap => ?_⟩
    cases hmap
    rfl

/-- **A call is a remembered lookup**, and leaves the inode map up to date. -/
theorem resolvePid_eq_call (h : UpToDate kernel cache) (call : ResolveCall) :
    UpToDate kernel (resolveCall kernel cache call).2 ∧
      ((resolveCall kernel cache call).1, (resolveCall kernel cache call).2.endpoints) =
        Memo.call FlowEnds.key CACHE_TTL (uncachedPid kernel) cache.endpoints call := by
  unfold resolveCall resolvePid Memo.call uncachedPid
  rw [Endpoints.cached_eq_hit]
  cases Memo.hit FlowEnds.key CACHE_TTL cache.endpoints call with
  | some pid => exact ⟨h, rfl⟩
  | none =>
    cases querySocketInode kernel.sockDiag call.arg with
    | none => exact ⟨h, rfl⟩
    | some inode =>
      obtain ⟨hpid, hends, hup⟩ := inodeToPid_upToDate h inode
      rw [Option.bind_some, ← hpid, ← hends]
      dsimp only
      rcases hi : inodeToPid kernel.proc inode cache with ⟨_ | pid, cache'⟩ <;> rw [hi] at hup
      · exact ⟨hup, rfl⟩
      · exact ⟨hup, rfl⟩

end Linux

namespace Macos

variable (pcblistTable : PcblistTable)

/-- The lookup without a cache: a scan of the protocol's table. -/
def uncachedPid (flow : FlowEnds) : Option UInt32 := (pcblistTable flow.isUdp).bind (scanPcblist · flow)

def resolveCall (cache : ProcessCache) (call : ResolveCall) : Option UInt32 × ProcessCache :=
  resolvePid pcblistTable call.arg call.now cache

/-- **A call is a remembered lookup.** -/
theorem resolvePid_eq_call (cache : ProcessCache) (call : ResolveCall) :
    ((resolveCall pcblistTable cache call).1, (resolveCall pcblistTable cache call).2.endpoints) =
      Memo.call FlowEnds.key CACHE_TTL (uncachedPid pcblistTable) cache.endpoints call := by
  unfold resolveCall resolvePid Memo.call uncachedPid
  rw [Endpoints.cached_eq_hit]
  cases Memo.hit FlowEnds.key CACHE_TTL cache.endpoints call with
  | some pid => rfl
  | none =>
    cases pcblistTable call.arg.isUdp with
    | none => rfl
    | some table =>
      dsimp only [Option.bind_some]
      cases scanPcblist table call.arg <;> rfl

end Macos

/-- **The cache is transparent exactly on steady calls**, on Linux and on macOS: over calls that start with the empty
cache and see the same tables, the answers are those of the uncached lookup if and only if a flow that is asked for within
`CACHE_TTL` of the call whose answer is kept for its local endpoint and protocol has the owner of that call. -/
theorem resolvePid_transparent_iff (kernel : Linux.Kernel) (pcblistTable : Macos.PcblistTable)
    (calls : List ResolveCall) :
    (Memo.run (Linux.resolveCall kernel) .default calls = calls.map (fun c => Linux.uncachedPid kernel c.arg) ↔
      Memo.Steady FlowEnds.key CACHE_TTL (Linux.uncachedPid kernel) [] calls) ∧
    (Memo.run (Macos.resolveCall pcblistTable) .new calls =
        calls.map (fun c => Macos.uncachedPid pcblistTable c.arg) ↔
      Memo.Steady FlowEnds.key CACHE_TTL (Macos.uncachedPid pcblistTable) [] calls) := by
  constructor
  · have hstart : Linux.UpToDate kernel .default := fun map hmap => by cases hmap
    rw [Memo.run_eq_run Linux.ProcessCache.endpoints (Linux.UpToDate kernel)
      (fun cache call h => Linux.resolvePid_eq_call h call) hstart]
    exact Memo.run_call_eq_iff Memo.keeps_empty
  · rw [Memo.run_eq_run Macos.ProcessCache.endpoints (fun _ => True)
      (fun cache call _ => ⟨trivial, Macos.resolvePid_eq_call pcblistTable cache call⟩) trivial]
    exact Memo.run_call_eq_iff Memo.keeps_empty

/-! ## Two flows on one local port -/

/-- A TCP flow from `10.0.0.1:80` to a port of `10.0.0.2`. -/
def flowTo (port : UInt16) : FlowEnds := ⟨⟨.v4 (.new 10 0 0 1), 80⟩, ⟨.v4 (.new 10 0 0 2), port⟩, false⟩

/-- Two flows that share their local endpoint, one millisecond apart. -/
def sharedPort : List ResolveCall := [⟨flowTo 1000, 0⟩, ⟨flowTo 2000, 1000000⟩]

/-- Process 10 holds the socket of the first flow and process 20 that of the second. -/
def sharedPortKernel : Linux.Kernel where
  sockDiag _ _ id := if id.destinationPort = 1000 then some 1 else if id.destinationPort = 2000 then some 2 else none
  proc := some [⟨some "10".toList, some [some "socket:[1]".toList]⟩, ⟨some "20".toList, some [some "socket:[2]".toList]⟩]

/-- The records of a TCP socket that connects `10.0.0.1:80` to a port of `10.0.0.2`. -/
def connectedRecord (pid : UInt8) (port : UInt16) : Bytes :=
  let zeros (n : Nat) : Bytes := List.replicate n 0
  [100, 0, 0, 0] ++ zeros 12 ++ toBeBytes port ++ toBeBytes 80 ++ zeros 24 ++ [1] ++ zeros 3 ++
    (zeros 12 ++ [10, 0, 0, 2]) ++ (zeros 12 ++ [10, 0, 0, 1]) ++ zeros 20 ++
    ([104, 0, 0, 0] ++ zeros 64 ++ [pid, 0, 0, 0] ++ zeros 32)

/-- The same two sockets in a `pcblist_n` table. -/
def sharedPortTable : Macos.PcblistTable := fun _ =>
  some ([24, 0, 0, 0] ++ List.replicate 20 0 ++ connectedRecord 10 1000 ++ connectedRecord 20 2000)

/-- The second flow is given to the owner of the first, on both systems. -/
theorem shared_port_is_misattributed :
    (Memo.run (Linux.resolveCall sharedPortKernel) .default sharedPort = [some 10, some 10] ∧
      sharedPort.map (fun c => Linux.uncachedPid sharedPortKernel c.arg) = [some 10, some 20]) ∧
    (Memo.run (Macos.resolveCall sharedPortTable) .new sharedPort = [some 10, some 10] ∧
      sharedPort.map (fun c => Macos.uncachedPid sharedPortTable c.arg) = [some 10, some 20]) := by
  decide +kernel

end AceTun
