import AceTun.MemoThreads
import AceTun.Platform.Attribution
import AceTun.Platform.Macos.Scan

/-!
# Attribution by several flows at once

Every flow is attributed by a task of its own, so calls of `resolve_pid` overlap: the cache is locked to look into it and
again to write, and on Linux to read or to rebuild the inode map, while the kernel is asked in between. `Linux.lookup`
and `Macos.lookup` are what a call does between the two looks into the cache; a call that is not interrupted is
`resolvePid` (`Linux.resolvePid_alone`, `Macos.resolvePid_alone`).

Whatever the interleaving and however the kernel's tables change, a PID comes from a kernel query for the flow's local
endpoint and protocol that was made less than `CACHE_TTL` before the call, and a call that names none has asked itself
(**`macos_owner_was_recent`**, **`linux_inode_was_recent`**). On Linux the first holds for the inode only: the process may
come from any earlier scan.
-/

namespace AceTun

open RustStd Transition Memo

/-! ## Linux -/

namespace Linux

/-- Where a lookup is: the kernel is asked next, or the inode is known. -/
inductive Pending where
  | query (flow : FlowEnds)
  | resolve (inode : UInt64)
  deriving DecidableEq, Repr

/-- `query_socket_inode`, and `inode_to_pid` under the lock. -/
def lookup : Lookup FlowEnds UInt32 Pending (Option (HashMap UInt64 UInt32)) Kernel where
  start := .query
  next kernel pending inodes :=
    match pending with
    | .query flow =>
      match querySocketInode kernel.sockDiag flow with
      | none => (.done none, inodes)
      | some inode => (.more (.resolve inode), inodes)
    | .resolve inode =>
      let (pid, cache) := inodeToPid kernel.proc inode ⟨∅, inodes⟩
      (.done pid, cache.inodes)
  -- `/proc` is read only for an inode that the map does not have
  looks pending inodes :=
    match pending with
    | .query _ => true
    | .resolve inode => (inodes.bind (·.lookup inode)).isNone
  blind pending inodes h kernel kernel' := by
    cases pending with
    | query flow => cases h
    | resolve inode =>
      cases hl : inodes.bind (·.lookup inode) with
      | none => simp [hl] at h
      | some pid => simp only [inodeToPid, hl]

/-- The calls of `resolve_pid` that are under way. -/
abbrev Calls : Type := Threads EndpointKey FlowEnds UInt32 Pending (Option (HashMap UInt64 UInt32)) Kernel

def Calls.cache (s : Calls) : ProcessCache := ⟨s.map, s.memory⟩

abbrev step : Calls → Move FlowEnds Kernel → Option Calls := Threads.step FlowEnds.key CACHE_TTL lookup

/-- What a lookup finds with the cache as it is, in two stages. -/
def findWith (kernel : Kernel) (cache : ProcessCache) (flow : FlowEnds) : Option UInt32 × ProcessCache :=
  match querySocketInode kernel.sockDiag flow with
  | none => (none, cache)
  | some inode => inodeToPid kernel.proc inode cache

theorem run_lookup (kernel : Kernel) (flow : FlowEnds) (cache : ProcessCache) :
    lookup.run kernel 2 (lookup.start flow) cache.inodes =
      some ((findWith kernel cache flow).1, (findWith kernel cache flow).2.inodes) := by
  simp only [Lookup.run, lookup, findWith]
  cases querySocketInode kernel.sockDiag flow with
  | none => rfl
  | some inode =>
    simp only [inodeToPid]
    cases cache.inodes.bind (·.lookup inode) <;> rfl

theorem resolvePid_eq (kernel : Kernel) (flow : FlowEnds) (now : Nat) (cache : ProcessCache) :
    resolvePid kernel flow now cache =
      ((Memo.call FlowEnds.key CACHE_TTL (fun flow => (findWith kernel cache flow).1) cache.endpoints ⟨flow, now⟩).1,
        ⟨(Memo.call FlowEnds.key CACHE_TTL (fun flow => (findWith kernel cache flow).1) cache.endpoints ⟨flow, now⟩).2,
          (hit FlowEnds.key CACHE_TTL cache.endpoints ⟨flow, now⟩).elim (findWith kernel cache flow).2.inodes
            fun _ => cache.inodes⟩) := by
  have hhit := Endpoints.cached_eq_hit cache.endpoints ⟨flow, now⟩
  simp only at hhit
  unfold resolvePid Memo.call findWith
  rw [hhit]
  cases hit FlowEnds.key CACHE_TTL cache.endpoints ⟨flow, now⟩ with
  | some pid => rfl
  | none =>
    dsimp only
    cases querySocketInode kernel.sockDiag flow with
    | none => rfl
    | some inode =>
      simp only [inodeToPid]
      rcases cache.inodes.bind (·.lookup inode) with _ | pid
      · dsimp only
        cases (scanSocketInodes kernel.proc).lookup inode <;> rfl
      · rfl

/-- **A call that is not interrupted** is `resolvePid`. -/
theorem resolvePid_alone (kernel : Kernel) {s : Calls} {i : Nat} {flow : FlowEnds} {now : Nat}
    (hi : s.calls[i]? = some ⟨flow, now, .checking⟩) :
    ∃ moves t, exec step s moves = some t ∧
      t.calls[i]? = some ⟨flow, now, .returned (resolvePid kernel flow now s.cache).1⟩ ∧
      t.cache = (resolvePid kernel flow now s.cache).2 := by
  obtain ⟨moves, t, ht, hcall, hmap, hmem⟩ := Threads.exists_exec FlowEnds.key CACHE_TTL lookup kernel
    (f := fun flow => (findWith kernel s.cache flow).1) hi (run_lookup kernel flow s.cache)
  refine ⟨moves, t, ht, ?_⟩
  rw [resolvePid_eq]
  exact ⟨hcall, congrArg₂ ProcessCache.mk hmap hmem⟩

/-! ### What was seen -/

variable {seen seen' : List (Sight Pending Kernel)} {i : Nat} {flow : FlowEnds} {now : Nat}

/-- The inode map is that of a scan. -/
def Known (seen : List (Sight Pending Kernel)) (inodes : Option (HashMap UInt64 UInt32)) : Prop :=
  ∀ map ∈ inodes, ∃ e ∈ seen, (∃ inode, e.stage = .resolve inode) ∧ map = scanSocketInodes e.world.proc

/-- Call `i` asked the kernel for the flow's socket at or after a time, and this is what it was told. -/
def Asked (seen : List (Sight Pending Kernel)) (i : Nat) (flow : FlowEnds) (now : Nat) (inode : Option UInt64) : Prop :=
  ∃ e ∈ seen, e.call = i ∧ e.stage = .query flow ∧ now ≤ e.time ∧ querySocketInode e.world.sockDiag flow = inode

def Made (seen : List (Sight Pending Kernel)) (i : Nat) (flow : FlowEnds) (now : Nat) : Pending → Prop
  | .query flow' => flow' = flow
  | .resolve inode => Asked seen i flow now (some inode)

/-- A PID is that of a process which a scan found to hold the inode that call `i` was told. Without one, the call was told
none, or scanned `/proc` itself and found no process that holds it. -/
def Found (seen : List (Sight Pending Kernel)) (i : Nat) (flow : FlowEnds) (now : Nat) : Option UInt32 → Prop
  | some pid => ∃ inode, Asked seen i flow now (some inode) ∧
      ∃ e ∈ seen, (∃ sought, e.stage = .resolve sought) ∧ firstHolder e.world.proc inode = some pid
  | none => Asked seen i flow now none ∨ ∃ inode, Asked seen i flow now (some inode) ∧
      ∃ e ∈ seen, e.call = i ∧ e.stage = .resolve inode ∧ now ≤ e.time ∧ ∀ pid, ¬ Holds e.world.proc pid inode

theorem Asked.mono {inode : Option UInt64} (hle : seen <+: seen') (h : Asked seen i flow now inode) :
    Asked seen' i flow now inode := by
  obtain ⟨e, he, h⟩ := h
  exact ⟨e, hle.subset he, h⟩

theorem Made.mono {pending : Pending} (hle : seen <+: seen') (h : Made seen i flow now pending) :
    Made seen' i flow now pending := by
  cases pending with
  | query flow' => exact h
  | resolve inode => exact Asked.mono hle h

theorem Found.mono {answer : Option UInt32} (hle : seen <+: seen') (h : Found seen i flow now answer) :
    Found seen' i flow now answer := by
  cases answer with
  | some pid =>
    obtain ⟨inode, ha, e, he, h⟩ := h
    exact ⟨inode, ha.mono hle, e, hle.subset he, h⟩
  | none =>
    rcases h with ha | ⟨inode, ha, e, he, h⟩
    · exact .inl (ha.mono hle)
    · exact .inr ⟨inode, ha.mono hle, e, hle.subset he, h⟩

theorem Known.mono {inodes : Option (HashMap UInt64 UInt32)} (hle : seen <+: seen') (h : Known seen inodes) :
    Known seen' inodes := by
  intro map hmap
  obtain ⟨e, he, h⟩ := h map hmap
  exact ⟨e, hle.subset he, h⟩

theorem lookup_sound : lookup.Sound Known Made Found where
  made_mono hle h := h.mono hle
  found_mono hle h := h.mono hle
  start _ _ _ _ := rfl
  next {seen flow now pending inodes} i clock kernel hnow hk hm := by
    cases pending with
    | query flow' =>
      obtain rfl : flow' = flow := hm
      have hrecord : lookup.record inodes ⟨i, clock, .query flow', kernel⟩ seen =
          seen ++ [⟨i, clock, .query flow', kernel⟩] := rfl
      rw [hrecord]
      simp only [lookup]
      have hasked : Asked (seen ++ [⟨i, clock, .query flow', kernel⟩]) i flow' now
          (querySocketInode kernel.sockDiag flow') := ⟨_, List.mem_concat_self, rfl, rfl, hnow, rfl⟩
      cases hq : querySocketInode kernel.sockDiag flow' with
      | none =>
        rw [hq] at hasked
        exact ⟨hk.mono (List.prefix_append ..), .inl hasked⟩
      | some inode =>
        rw [hq] at hasked
        exact ⟨hk.mono (List.prefix_append ..), hasked⟩
    | resolve inode =>
      have hm : Asked seen i flow now (some inode) := hm
      cases hl : inodes.bind (·.lookup inode) with
      | some pid =>
        -- a scan of some call found the process, and this one does not look
        have hrecord : lookup.record inodes ⟨i, clock, .resolve inode, kernel⟩ seen = seen := by
          simp [Lookup.record, lookup, hl]
        obtain ⟨map, hmap, hpid⟩ := Option.bind_eq_some_iff.mp hl
        obtain ⟨e, he, hscan, rfl⟩ := hk map hmap
        rw [lookup_scanSocketInodes] at hpid
        rw [hrecord]
        simp only [lookup, inodeToPid, hl]
        exact ⟨hk, inode, hm, e, he, hscan, hpid⟩
      | none =>
        have hrecord : lookup.record inodes ⟨i, clock, .resolve inode, kernel⟩ seen =
            seen ++ [⟨i, clock, .resolve inode, kernel⟩] := by
          simp [Lookup.record, lookup, hl]
        have hlast : (⟨i, clock, .resolve inode, kernel⟩ : Sight Pending Kernel) ∈
            seen ++ [⟨i, clock, .resolve inode, kernel⟩] := List.mem_concat_self
        have ha := hm.mono (List.prefix_append seen [⟨i, clock, .resolve inode, kernel⟩])
        rw [hrecord]
        simp only [lookup, inodeToPid, hl]
        refine ⟨fun map hmap => ⟨_, hlast, ⟨inode, rfl⟩, ?_⟩, ?_⟩
        · cases hmap
          rfl
        · rw [lookup_scanSocketInodes]
          cases hf : firstHolder kernel.proc inode with
          | some pid => exact ⟨inode, ha, _, hlast, ⟨inode, rfl⟩, hf⟩
          | none => exact .inr ⟨inode, ha, _, hlast, rfl, rfl, hnow, firstHolder_eq_none.mp hf⟩

end Linux

/-! ## macOS -/

namespace Macos

/-- Where a lookup is: the table is read next, or it is there to be scanned. -/
inductive Pending where
  | fetch (flow : FlowEnds)
  | scan (flow : FlowEnds) (table : Bytes)
  deriving DecidableEq, Repr

/-- `pcblist_table` and `scan_pcblist`. -/
def lookup : Lookup FlowEnds UInt32 Pending Unit PcblistTable where
  start := .fetch
  next pcblistTable pending memory :=
    match pending with
    | .fetch flow =>
      match pcblistTable flow.isUdp with
      | none => (.done none, memory)
      | some table => (.more (.scan flow table), memory)
    | .scan flow table => (.done (scanPcblist table flow), memory)
  looks pending _ :=
    match pending with
    | .fetch _ => true
    | .scan _ _ => false
  blind pending _ h _ _ := by
    cases pending with
    | fetch flow => cases h
    | scan flow table => rfl

/-- The calls of `resolve_pid` that are under way. -/
abbrev Calls : Type := Threads EndpointKey FlowEnds UInt32 Pending Unit PcblistTable

def Calls.cache (s : Calls) : ProcessCache := ⟨s.map⟩

abbrev step : Calls → Move FlowEnds PcblistTable → Option Calls := Threads.step FlowEnds.key CACHE_TTL lookup

/-- A lookup takes two stages. -/
theorem run_lookup (pcblistTable : PcblistTable) (flow : FlowEnds) :
    lookup.run pcblistTable 2 (lookup.start flow) () = some (uncachedPid pcblistTable flow, ()) := by
  simp only [Lookup.run, lookup, uncachedPid]
  cases pcblistTable flow.isUdp <;> rfl

/-- **A call that is not interrupted** is `resolvePid`. -/
theorem resolvePid_alone (pcblistTable : PcblistTable) {s : Calls} {i : Nat} {flow : FlowEnds} {now : Nat}
    (hi : s.calls[i]? = some ⟨flow, now, .checking⟩) :
    ∃ moves t, exec step s moves = some t ∧
      t.calls[i]? = some ⟨flow, now, .returned (resolvePid pcblistTable flow now s.cache).1⟩ ∧
      t.cache = (resolvePid pcblistTable flow now s.cache).2 := by
  obtain ⟨moves, t, ht, hcall, hmap, -⟩ :=
    Threads.exists_exec FlowEnds.key CACHE_TTL lookup pcblistTable hi (run_lookup pcblistTable flow)
  have heq : ((resolvePid pcblistTable flow now s.cache).1, (resolvePid pcblistTable flow now s.cache).2.endpoints) =
      Memo.call FlowEnds.key CACHE_TTL (uncachedPid pcblistTable) s.map ⟨flow, now⟩ :=
    resolvePid_eq_call pcblistTable s.cache ⟨flow, now⟩
  rw [← heq] at hcall hmap
  exact ⟨moves, t, ht, hcall, congrArg ProcessCache.mk hmap⟩

/-! ### What was seen -/

variable {seen : List (Sight Pending PcblistTable)} {flow : FlowEnds}

/-- Call `i` read the tables at or after a time, and they were such. -/
def Read (seen : List (Sight Pending PcblistTable)) (i : Nat) (flow : FlowEnds) (now : Nat) (P : PcblistTable → Prop) :
    Prop :=
  ∃ e ∈ seen, e.call = i ∧ e.stage = .fetch flow ∧ now ≤ e.time ∧ P e.world

def Made (seen : List (Sight Pending PcblistTable)) (i : Nat) (flow : FlowEnds) (now : Nat) : Pending → Prop
  | .fetch flow' => flow' = flow
  | .scan flow' table => flow' = flow ∧ Read seen i flow now fun tables => tables flow.isUdp = some table

/-- The answer is that of the tables which call `i` read. -/
def Found (seen : List (Sight Pending PcblistTable)) (i : Nat) (flow : FlowEnds) (now : Nat) (answer : Option UInt32) :
    Prop :=
  Read seen i flow now fun tables => uncachedPid tables flow = answer

theorem lookup_sound : lookup.Sound (fun _ _ => True) Made Found where
  made_mono {seen seen' i flow now pending} hle h := by
    cases pending with
    | fetch flow' => exact h
    | scan flow' table =>
      obtain ⟨hflow, e, he, h⟩ := h
      exact ⟨hflow, e, hle.subset he, h⟩
  found_mono hle h := by
    obtain ⟨e, he, h⟩ := h
    exact ⟨e, hle.subset he, h⟩
  start _ _ _ _ := rfl
  next {seen flow now pending m} i clock tables hnow _ hm := by
    refine ⟨trivial, ?_⟩
    cases pending with
    | fetch flow' =>
      obtain rfl : flow' = flow := hm
      have hread : ∀ P : PcblistTable → Prop, P tables →
          Read (seen ++ [⟨i, clock, .fetch flow', tables⟩]) i flow' now P := fun P hP =>
        ⟨_, List.mem_concat_self, rfl, rfl, hnow, hP⟩
      simp only [lookup]
      cases ht : tables flow'.isUdp with
      | none => exact hread _ (by simp [uncachedPid, ht])
      | some table => exact ⟨rfl, hread _ ht⟩
    | scan flow' table =>
      obtain ⟨rfl, e, he, hcall, hstage, hle, ht⟩ := hm
      exact ⟨e, he, hcall, hstage, hle, by simp [uncachedPid, ht]⟩

/-- A scan finds a socket on the flow's local port. -/
theorem exists_socket_of_scanPcblist {table : Bytes} {pid : UInt32} (h : scanPcblist table flow = some pid) :
    ∃ s ∈ sockets table, s.pid = (pid.toNat : Int) ∧ s.OnPort flow := by
  rw [scanPcblist_eq_sockets] at h
  rcases firstBest_or_none (Socket.score flow) (sockets table) with ⟨s, c, hbest⟩ | hnone
  · rw [hbest.foldl_eq] at h
    cases h
    obtain ⟨before, after, hsplit, hs, -⟩ := hbest
    have hmem : s ∈ sockets table := by simp [hsplit]
    have hlt := pid_lt_of_mem_sockets hmem
    obtain ⟨hon, hpos, hc, -⟩ := Socket.score_eq_some hs
    refine ⟨s, hmem, ?_, hon⟩
    rw [hc, UInt32.toNat_ofNat']
    omega
  · rw [foldl_better_none hnone] at h
    cases h

end Macos

/-! ## Every interleaving -/

/-- **An owner that macOS names had a socket on the flow's local port less than 250 ms before the flow was asked for, or
later**, however calls overlap and the kernel's tables change: the socket was in the table of the flow's protocol, which a
call for the same local endpoint read. Where none is named, the call read that table itself after it began, and there was
no match in it, or it could read none. -/
theorem macos_owner_was_recent (start : Nat) (moves : List (Move FlowEnds Macos.PcblistTable)) (s : Macos.Calls)
    (h : exec Macos.step (Threads.init start ()) moves = some s) :
    ∀ i c, s.calls[i]? = some c →
      (∀ pid, c.phase = .returned (some pid) → ∃ e ∈ s.seen,
        (∃ flow : FlowEnds, e.stage = .fetch flow ∧ flow.key = c.arg.key) ∧ c.now < e.time + CACHE_TTL ∧
        ∃ table, e.world c.arg.isUdp = some table ∧
          ∃ socket ∈ Macos.sockets table, socket.pid = (pid.toNat : Int) ∧ socket.OnPort c.arg) ∧
      (c.phase = .returned none → ∃ e ∈ s.seen, e.call = i ∧ e.stage = .fetch c.arg ∧ c.now ≤ e.time ∧
        (e.world c.arg.isUdp = none ∨
          ∃ table, e.world c.arg.isUdp = some table ∧ Macos.scanPcblist table c.arg = none)) := by
  have hinv := Threads.Inv.exec Macos.lookup_sound (by decide) trivial h
  intro i c hc
  have hcall := hinv.call i c hc
  refine ⟨fun pid hp => ?_, fun hp => ?_⟩
  · rw [Threads.CallInv, hp] at hcall
    obtain ⟨j, flow, time, hkey, hfresh, e, he, -, hstage, hle, hpid⟩ := hcall
    obtain ⟨table, htable, hscan⟩ := Option.bind_eq_some_iff.mp hpid
    obtain ⟨socket, hsocket, hsame, hon⟩ := Macos.exists_socket_of_scanPcblist hscan
    have hends : flow.localAddr.ip = c.arg.localAddr.ip ∧ flow.localAddr.port = c.arg.localAddr.port ∧
        flow.isUdp = c.arg.isUdp := by
      simpa [FlowEnds.key] using hkey
    refine ⟨e, he, ⟨flow, hstage, hkey⟩, by omega, table, hends.2.2 ▸ htable, socket, hsocket, hsame, ?_⟩
    exact ⟨hends.1 ▸ hon.1, hends.2.1 ▸ hon.2⟩
  · rw [Threads.CallInv, hp] at hcall
    obtain ⟨e, he, hcaller, hstage, hle, hnone⟩ := hcall
    refine ⟨e, he, hcaller, hstage, hle, ?_⟩
    cases htable : e.world c.arg.isUdp with
    | none => exact .inl rfl
    | some table => exact .inr ⟨table, rfl, by simpa [Macos.uncachedPid, htable] using hnone⟩

/-- A call that runs alone names process 10. -/
theorem macos_owner_was_recent_sample :
    ∃ moves s, exec Macos.step (Threads.init 7 ()) moves = some s ∧
      ∃ c, s.calls[0]? = some c ∧ c.phase = .returned (some 10) ∧ ∃ e ∈ s.seen,
        (∃ flow : FlowEnds, e.stage = .fetch flow ∧ flow.key = c.arg.key) ∧ c.now < e.time + CACHE_TTL ∧
        ∃ table, e.world c.arg.isUdp = some table ∧
          ∃ socket ∈ Macos.sockets table, socket.pid = 10 ∧ socket.OnPort c.arg := by
  obtain ⟨moves, s, hs, hcall, -⟩ := Macos.resolvePid_alone sharedPortTable (i := 0)
    (s := ⟨7, ∅, (), [⟨flowTo 1000, 7, .checking⟩], []⟩) rfl
  have hpid : (Macos.resolvePid sharedPortTable (flowTo 1000) 7 ⟨∅⟩).1 = some 10 := by decide +kernel
  have hexec : exec Macos.step (Threads.init 7 ()) (.call (flowTo 1000) :: moves) = some s := hs
  have hphase : (Phase.returned (Macos.resolvePid sharedPortTable (flowTo 1000) 7 ⟨∅⟩).1 : Phase Macos.Pending UInt32) =
      .returned (some 10) := congrArg _ hpid
  exact ⟨_, s, hexec, _, hcall, hphase, (macos_owner_was_recent 7 _ s hexec 0 _ hcall).1 10 hphase⟩

/-- **The inode behind an owner that Linux names was the kernel's answer less than 250 ms before the flow was asked for,
or later**, to a call for a flow of the same protocol from the same local endpoint; the owner held that inode when some
call scanned `/proc`. Where none is named, the call asked the kernel itself after it began and was told no inode, because
there is no such socket or the query failed, or it was told one and then scanned `/proc` itself, where no process that it
could read held it. -/
theorem linux_inode_was_recent (start : Nat) (moves : List (Move FlowEnds Linux.Kernel)) (s : Linux.Calls)
    (h : exec Linux.step (Threads.init start none) moves = some s) :
    ∀ i c, s.calls[i]? = some c →
      (∀ pid, c.phase = .returned (some pid) → ∃ flow : FlowEnds, flow.key = c.arg.key ∧ ∃ inode,
        (∃ e ∈ s.seen, e.stage = .query flow ∧ c.now < e.time + CACHE_TTL ∧
          Linux.querySocketInode e.world.sockDiag flow = some inode) ∧
        ∃ e ∈ s.seen, (∃ sought, e.stage = .resolve sought) ∧ Linux.Holds e.world.proc pid inode) ∧
      (c.phase = .returned none →
        Linux.Asked s.seen i c.arg c.now none ∨
        ∃ inode, Linux.Asked s.seen i c.arg c.now (some inode) ∧
          ∃ e ∈ s.seen, e.call = i ∧ e.stage = .resolve inode ∧ c.now ≤ e.time ∧
            ∀ pid, ¬ Linux.Holds e.world.proc pid inode) := by
  have hinv := Threads.Inv.exec Linux.lookup_sound (by decide) (fun _ hmap => by cases hmap) h
  intro i c hc
  have hcall := hinv.call i c hc
  refine ⟨fun pid hp => ?_, fun hp => ?_⟩
  · rw [Threads.CallInv, hp] at hcall
    obtain ⟨j, flow, time, hkey, hfresh, inode, ⟨e, he, -, hstage, hle, hq⟩, e', he', hscan, hholder⟩ := hcall
    exact ⟨flow, hkey, inode, ⟨e, he, hstage, by omega, hq⟩, e', he', hscan, Linux.holds_of_firstHolder hholder⟩
  · rw [Threads.CallInv, hp] at hcall
    exact hcall

/-- A call that runs alone names process 20. -/
theorem linux_inode_was_recent_sample :
    ∃ moves s, exec Linux.step (Threads.init 7 none) moves = some s ∧
      ∃ c, s.calls[0]? = some c ∧ c.phase = .returned (some 20) ∧ ∃ flow : FlowEnds, flow.key = c.arg.key ∧ ∃ inode,
        (∃ e ∈ s.seen, e.stage = .query flow ∧ c.now < e.time + CACHE_TTL ∧
          Linux.querySocketInode e.world.sockDiag flow = some inode) ∧
        ∃ e ∈ s.seen, (∃ sought, e.stage = .resolve sought) ∧ Linux.Holds e.world.proc 20 inode := by
  obtain ⟨moves, s, hs, hcall, -⟩ := Linux.resolvePid_alone sharedPortKernel (i := 0)
    (s := ⟨7, ∅, none, [⟨flowTo 2000, 7, .checking⟩], []⟩) rfl
  have hpid : (Linux.resolvePid sharedPortKernel (flowTo 2000) 7 ⟨∅, none⟩).1 = some 20 := by decide +kernel
  have hexec : exec Linux.step (Threads.init 7 none) (.call (flowTo 2000) :: moves) = some s := hs
  have hphase : (Phase.returned (Linux.resolvePid sharedPortKernel (flowTo 2000) 7 ⟨∅, none⟩).1 :
      Phase Linux.Pending UInt32) = .returned (some 20) := congrArg _ hpid
  exact ⟨_, s, hexec, _, hcall, hphase, (linux_inode_was_recent 7 _ s hexec 0 _ hcall).1 20 hphase⟩

end AceTun
