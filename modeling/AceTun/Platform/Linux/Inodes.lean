import AceTun.Platform.Linux.Process

/-!
# The age of the inode map

The map of `inodeToPid` is rebuilt only when an inode is not in it, so a hit comes from the snapshot of an earlier call
(`lastScan`). A history of calls is answered accurately exactly if at each call the process that the last scan found for
the inode, if it found one, still holds it (`inodeToPid_accurate_iff`). A missing inode is always looked for again, so
`None` is always right.
-/

namespace AceTun.Linux

open RustStd

/-- A call of `inode_to_pid`, and the snapshot that is current at it. -/
structure InodeCall where
  proc : Proc
  inode : UInt64
  deriving DecidableEq, Repr

/-- What the calls are answered in turn. -/
def inodeAnswers : ProcessCache → List InodeCall → List (Option UInt32)
  | _, [] => []
  | cache, call :: calls =>
    (inodeToPid call.proc call.inode cache).1 :: inodeAnswers (inodeToPid call.proc call.inode cache).2 calls

/-- The answer names a process that holds the socket now; without one, no process does. -/
def Accurate (call : InodeCall) (answer : Option UInt32) : Prop :=
  (∀ pid, answer = some pid → Holds call.proc pid call.inode) ∧
    (answer = none → ∀ pid, ¬ Holds call.proc pid call.inode)

/-- The snapshot that was scanned last in the calls `past`, the latest of which comes first: that of the last call for an
inode not yet found. -/
def lastScan : (past : List InodeCall) → Option Proc
  | [] => none
  | call :: past =>
    if ((lastScan past).bind (firstHolder · call.inode)).isSome then lastScan past else some call.proc

/-- At each call the process that the last scan found for the inode still holds it. -/
def StillHeld : (past calls : List InodeCall) → Prop
  | _, [] => True
  | past, call :: calls =>
    (∀ proc pid, lastScan past = some proc → firstHolder proc call.inode = some pid →
      Holds call.proc pid call.inode) ∧ StillHeld (call :: past) calls

variable {cache : ProcessCache} {past calls : List InodeCall} {call : InodeCall}

theorem accurate_firstHolder (call : InodeCall) : Accurate call (firstHolder call.proc call.inode) :=
  ⟨fun _ h => holds_of_firstHolder h, firstHolder_eq_none.mp⟩

theorem bind_lookup_eq (h : cache.inodes = (lastScan past).map scanSocketInodes) (inode : UInt64) :
    cache.inodes.bind (·.lookup inode) = (lastScan past).bind (firstHolder · inode) := by
  rw [h]
  cases lastScan past with
  | none => rfl
  | some proc => exact lookup_scanSocketInodes proc inode

/-- One call leaves the map of the last scan. -/
theorem inodes_inodeToPid (h : cache.inodes = (lastScan past).map scanSocketInodes) (call : InodeCall) :
    (inodeToPid call.proc call.inode cache).2.inodes = (lastScan (call :: past)).map scanSocketInodes := by
  rw [inodeToPid, lastScan, bind_lookup_eq h]
  cases (lastScan past).bind (firstHolder · call.inode) with
  | none => rfl
  | some pid => exact h

theorem accurate_inodeToPid_iff (h : cache.inodes = (lastScan past).map scanSocketInodes) :
    Accurate call (inodeToPid call.proc call.inode cache).1 ↔
      ∀ proc pid, lastScan past = some proc → firstHolder proc call.inode = some pid →
        Holds call.proc pid call.inode := by
  rw [inodeToPid, bind_lookup_eq h]
  cases hscan : lastScan past with
  | none =>
    refine iff_of_true ?_ fun proc pid hproc => by cases hproc
    simpa only [Option.bind_none, lookup_scanSocketInodes] using accurate_firstHolder call
  | some proc =>
    rw [Option.bind_some]
    cases hfirst : firstHolder proc call.inode with
    | none =>
      refine iff_of_true ?_ fun proc' pid hproc hpid => ?_
      · simpa only [lookup_scanSocketInodes] using accurate_firstHolder call
      · cases hproc
        cases hfirst.symm.trans hpid
    | some pid =>
      constructor
      · rintro ⟨hacc, -⟩ proc' pid' hproc hpid
        cases hproc
        cases hfirst.symm.trans hpid
        exact hacc pid rfl
      · intro hheld
        refine ⟨fun pid' hpid => ?_, fun hnone => by cases hnone⟩
        cases hpid
        exact hheld proc pid rfl hfirst

theorem inodeAnswers_accurate_iff (h : cache.inodes = (lastScan past).map scanSocketInodes) :
    List.Forall₂ Accurate calls (inodeAnswers cache calls) ↔ StillHeld past calls := by
  induction calls generalizing cache past with
  | nil => exact iff_of_true .nil trivial
  | cons call calls ih =>
    rw [inodeAnswers, List.forall₂_cons, StillHeld, ih (inodes_inodeToPid h call), accurate_inodeToPid_iff h]

/-- **A hit is as accurate as the last scan still is**: over a history that starts with the empty cache, every answer is
accurate exactly if at each call the process that the last scan found for the inode still holds it. -/
theorem inodeToPid_accurate_iff (calls : List InodeCall) :
    List.Forall₂ Accurate calls (inodeAnswers .default calls) ↔ StillHeld [] calls :=
  inodeAnswers_accurate_iff rfl

/-- A snapshot with one process, which holds one socket. -/
def oneProcess (pid link : Str) : Proc := some [⟨some pid, some [some link]⟩]

/-- A process that passed a socket on and exited is still named. -/
theorem passed_socket_is_misattributed :
    let calls := [⟨oneProcess "10".toList "socket:[7]".toList, 7⟩, ⟨oneProcess "20".toList "socket:[7]".toList, 7⟩]
    inodeAnswers .default calls = [some 10, some 10] ∧
      ¬ List.Forall₂ Accurate calls (inodeAnswers .default calls) := by
  intro calls
  have hanswers : inodeAnswers .default calls = [some 10, some 10] := by decide +kernel
  refine ⟨hanswers, fun h => ?_⟩
  rw [hanswers, List.forall₂_cons, List.forall₂_cons] at h
  have hholds := mem_sockets.mpr (h.2.1.1 10 rfl)
  exact absurd hholds (by decide +kernel)

end AceTun.Linux
