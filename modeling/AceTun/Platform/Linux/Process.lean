import AceTun.Platform.Endpoints

/-!
# Attribution on Linux

`querySocketInode` asks the kernel for the inode behind a flow's endpoints, and `inodeToPid` finds the process that holds
it, in a map that `scanSocketInodes` builds from `/proc` and that is kept until an inode is not in it. `resolvePid` puts
a cache of PIDs by local endpoint before both.

What a scan finds is the first process that holds each socket (`lookup_scanSocketInodes`).
-/

namespace AceTun.Linux

open RustStd

/-! ## The kernel's answer -/

def AF_INET : UInt8 := 2
def AF_INET6 : UInt8 := 10
def IPPROTO_TCP : UInt8 := 6
def IPPROTO_UDP : UInt8 := 17

structure SocketId where
  sourcePort : UInt16
  destinationPort : UInt16
  sourceAddress : IpAddr
  destinationAddress : IpAddr
  interfaceId : UInt32
  cookie : Bytes
  deriving DecidableEq, Repr

/-- The inode field of the kernel's answer to a `sock_diag` request, by family and protocol; there is none where the
request fails or the kernel reports an error. -/
abbrev SockDiag : Type := (family protocol : UInt8) → SocketId → Option UInt32

/-- The inode of a response; zero is none. -/
def inodeOf (inode : UInt32) : Option UInt64 := if inode = 0 then none else some inode.toUInt64

variable (sockDiag : SockDiag)

def queryOne (family protocol : UInt8) (socketId : SocketId) : Option UInt64 :=
  (sockDiag family protocol socketId).bind inodeOf

/-- The wildcard address of the same family. -/
def wildcard : IpAddr → IpAddr
  | .v4 _ => .v4 .UNSPECIFIED
  | .v6 _ => .v6 .UNSPECIFIED

/-- A request for a socket: on no particular interface, with the cookie that matches any. -/
def socketId (source destination : SocketAddr) : SocketId where
  sourcePort := source.port
  destinationPort := destination.port
  sourceAddress := source.ip
  destinationAddress := destination.ip
  interfaceId := 0
  cookie := List.replicate 8 0xff

def querySocketInode (flow : FlowEnds) : Option UInt64 :=
  let family := if flow.localAddr.ip.isIpv6 then AF_INET6 else AF_INET
  let protocol := if flow.isUdp then IPPROTO_UDP else IPPROTO_TCP
  let localAddress := flow.localAddr.ip
  let localPort := flow.localAddr.port
  if flow.isUdp then
    -- the addresses and the ports are swapped separately: `udp_diag` scores the ports the other way round
    (queryOne sockDiag family protocol
        (socketId ⟨localAddress, flow.remote.port⟩ ⟨flow.remote.ip, localPort⟩)).orElse fun _ =>
      (queryOne sockDiag family protocol (socketId ⟨localAddress, 0⟩ ⟨localAddress, localPort⟩)).orElse fun _ =>
        queryOne sockDiag family protocol (socketId ⟨wildcard localAddress, 0⟩ ⟨wildcard localAddress, localPort⟩)
  else
    (queryOne sockDiag family protocol (socketId flow.localAddr flow.remote)).orElse fun _ =>
      (queryOne sockDiag family protocol (socketId flow.localAddr ⟨wildcard localAddress, 0⟩)).orElse fun _ =>
        queryOne sockDiag family protocol (socketId ⟨wildcard localAddress, localPort⟩ ⟨wildcard localAddress, 0⟩)

/-! ## Who holds a socket -/

/-- An entry of `/proc` as the walk sees it: its name, unless it is no text, and the targets of its descriptors; what
cannot be read is missing. -/
structure ProcEntry where
  name : Option Str
  fds : Option (List (Option Str))
  deriving DecidableEq, Repr

/-- A snapshot of `/proc`, in the order of `read_dir`; there is none if the directory cannot be read. -/
abbrev Proc : Type := Option (List ProcEntry)

def ProcEntry.pid (entry : ProcEntry) : Option UInt32 := (entry.name.bind (parseUnsigned 32)).map UInt32.ofNat

def socketInodeOf (linkTarget : Str) : Option UInt64 := do
  let rest ← stripPrefix "socket:[".toList linkTarget
  let digits ← stripSuffix ']' rest
  let inode ← parseUnsigned 64 digits
  pure (UInt64.ofNat inode)

/-- The sockets among a process's descriptors, added to the map. -/
def scanFds (pid : UInt32) (fds : List (Option Str)) (map : HashMap UInt64 UInt32) : HashMap UInt64 UInt32 :=
  fds.foldl (fun map fd =>
    match fd.bind socketInodeOf with
    | some inode => map.orInsert inode pid
    | none => map) map

def scanSocketInodes (proc : Proc) : HashMap UInt64 UInt32 :=
  (proc.getD []).foldl (fun map entry =>
    match entry.pid, entry.fds with
    | some pid, some fds => scanFds pid fds map
    | _, _ => map) ∅

/-! ## Resolving -/

/-- `ProcessCache`; when the map of inodes was built is not kept, as nothing reads it. -/
structure ProcessCache where
  endpoints : Endpoints
  inodes : Option (HashMap UInt64 UInt32)

/-- `ProcessCache::default`. -/
def ProcessCache.default : ProcessCache := ⟨∅, none⟩

def inodeToPid (proc : Proc) (inode : UInt64) (cache : ProcessCache) : Option UInt32 × ProcessCache :=
  match cache.inodes.bind (·.lookup inode) with
  | some pid => (some pid, cache)
  | none => ((scanSocketInodes proc).lookup inode, { cache with inodes := some (scanSocketInodes proc) })

/-- What the kernel shows: the answers of `sock_diag`, and `/proc`. -/
structure Kernel where
  sockDiag : SockDiag
  proc : Proc

/-- `resolve_pid`, at a time. -/
def resolvePid (kernel : Kernel) (flow : FlowEnds) (now : Nat) (cache : ProcessCache) :
    Option UInt32 × ProcessCache :=
  match cache.endpoints.cached flow now with
  | some pid => (some pid, cache)
  | none =>
    match querySocketInode kernel.sockDiag flow with
    | none => (none, cache)
    | some inode =>
      match inodeToPid kernel.proc inode cache with
      | (some pid, cache) => (some pid, { cache with endpoints := cache.endpoints.insert flow.key (pid, now) })
      | (none, cache) => (none, cache)

/-! ## What a scan finds -/

/-- The sockets that a process shows. -/
def ProcEntry.sockets (entry : ProcEntry) : List (UInt64 × UInt32) :=
  match entry.pid, entry.fds with
  | some pid, some fds => (fds.filterMap (·.bind socketInodeOf)).map (·, pid)
  | _, _ => []

/-- The sockets that a snapshot shows, each with a process that holds it, in the order of the walk. -/
def sockets (proc : Proc) : List (UInt64 × UInt32) := (proc.getD []).flatMap ProcEntry.sockets

/-- A process holds a descriptor for a socket. -/
def Holds (proc : Proc) (pid : UInt32) (inode : UInt64) : Prop :=
  ∃ entry ∈ proc.getD [], entry.pid = some pid ∧
    ∃ fds, entry.fds = some fds ∧ ∃ link, some link ∈ fds ∧ socketInodeOf link = some inode

/-- The process that a scan finds for a socket: the first that holds it. -/
def firstHolder (proc : Proc) (inode : UInt64) : Option UInt32 :=
  ((sockets proc).find? (·.1 = inode)).map Prod.snd

theorem scanFds_eq (pid : UInt32) (fds : List (Option Str)) (map : HashMap UInt64 UInt32) :
    scanFds pid fds map =
      ((fds.filterMap (·.bind socketInodeOf)).map (·, pid)).foldl (fun map p => map.orInsert p.1 p.2) map := by
  unfold scanFds
  induction fds generalizing map with
  | nil => rfl
  | cons fd fds ih =>
    rw [List.foldl_cons, ih, List.filterMap_cons]
    cases fd.bind socketInodeOf <;> rfl

theorem scanSocketInodes_eq (proc : Proc) :
    scanSocketInodes proc = (sockets proc).foldl (fun map p => map.orInsert p.1 p.2) ∅ := by
  rw [scanSocketInodes, sockets, List.foldl_flatMap]
  congr 1
  funext map entry
  unfold ProcEntry.sockets
  split
  · exact scanFds_eq _ _ map
  · rfl

/-- **A scan finds the first process that holds a socket.** -/
theorem lookup_scanSocketInodes (proc : Proc) (inode : UInt64) :
    (scanSocketInodes proc).lookup inode = firstHolder proc inode := by
  rw [scanSocketInodes_eq, HashMap.lookup_collect]
  rfl

theorem mem_sockets {proc : Proc} {inode : UInt64} {pid : UInt32} :
    (inode, pid) ∈ sockets proc ↔ Holds proc pid inode := by
  rw [sockets, List.mem_flatMap]
  refine exists_congr fun entry => and_congr_right fun _ => ?_
  unfold ProcEntry.sockets
  rcases entry.pid with _ | pid'
  · simp
  · rcases entry.fds with _ | fds
    · simp
    · have hlink : (∃ fd ∈ fds, fd.bind socketInodeOf = some inode) ↔
          ∃ link, some link ∈ fds ∧ socketInodeOf link = some inode := by
        simp only [Option.bind_eq_some_iff]
        aesop
      simp [hlink, and_comm]

theorem holds_of_firstHolder {proc : Proc} {inode : UInt64} {pid : UInt32} (h : firstHolder proc inode = some pid) :
    Holds proc pid inode := by
  obtain ⟨⟨inode', pid'⟩, hfind, rfl⟩ := Option.map_eq_some_iff.mp h
  obtain rfl : inode' = inode := by simpa using List.find?_some hfind
  exact mem_sockets.mp (List.mem_of_find?_eq_some hfind)

theorem firstHolder_eq_none {proc : Proc} {inode : UInt64} :
    firstHolder proc inode = none ↔ ∀ pid, ¬ Holds proc pid inode := by
  rw [firstHolder, Option.map_eq_none_iff, List.find?_eq_none]
  constructor
  · intro h pid hpid
    exact h _ (mem_sockets.mpr hpid) (decide_eq_true rfl)
  · rintro h ⟨inode', pid⟩ hmem hdec
    obtain rfl : inode' = inode := of_decide_eq_true hdec
    exact h pid (mem_sockets.mp hmem)

end AceTun.Linux
