import AceTun.Netstack.ShortNames
import AceTun.Platform.Concurrent

/-!
# Flows without an owner

`pcblist_table` asks for the size of a table and then for the table, which may have grown in between. It counts on a table
that is cut off where the buffer ends, but the kernel then refuses the call, and there is no table at all. While the table
of a protocol outgrows its buffer whenever it is read, calls name no owner as soon as what was remembered is 250 ms old. A
flow without an owner has the empty name, and is decided as if the rules that ask for any character of a name were not in
the list (**`outgrown_tables_name_no_owner`**).
-/

namespace AceTun

open RustStd Transition Memo

/-- A read of a table that had more bytes when it was copied than the buffer. -/
def Macos.Outgrown (read : Option Bytes) : Prop :=
  ∃ length table, length < table.length ∧ read = Macos.pcblistTable (some length) (some table)

theorem Macos.Outgrown.eq_none {read : Option Bytes} (h : Macos.Outgrown read) : read = none := by
  obtain ⟨length, table, hlt, rfl⟩ := h
  rw [Option.eq_none_iff_forall_ne_some]
  intro fetched hfetched
  obtain ⟨length', hlength, -, htable, hle⟩ := Macos.pcblistTable_eq_some.mp hfetched
  cases hlength
  cases htable
  omega

/-- A call that can remember nothing but reads without a table names no owner. Only calls for its own endpoint matter. -/
theorem Macos.returned_none_of_unread {start : Nat} {moves : List (Move FlowEnds Macos.PcblistTable)} {s : Macos.Calls}
    (h : exec Macos.step (Threads.init start ()) moves = some s) {i : Nat} {c : Running FlowEnds UInt32 Macos.Pending}
    (hc : s.calls[i]? = some c)
    (hunread : ∀ e ∈ s.seen, ∀ flow : FlowEnds, e.stage = .fetch flow → flow.key = c.arg.key →
      c.now < e.time + CACHE_TTL → e.world c.arg.isUdp = none)
    {answer : Option UInt32} (hanswer : c.phase = .returned answer) : answer = none := by
  have hcall := (Threads.Inv.exec Macos.lookup_sound (by decide) trivial h).call i c hc
  cases answer with
  | none => rfl
  | some pid =>
    rw [Threads.CallInv, hanswer] at hcall
    obtain ⟨j, flow, time, hkey, hfresh, e, he, -, hstage, hle, hpid⟩ := hcall
    obtain ⟨table, htable, -⟩ := Option.bind_eq_some_iff.mp hpid
    have hudp : flow.isUdp = c.arg.isUdp := congrArg EndpointKey.isUdp hkey
    rw [hudp, hunread e he flow hstage hkey (by omega)] at htable
    cases htable

/-- **A table that outgrew its buffer names no owner**, and the rules that name processes do not see the flow. A table is
read whole or not at all. If the table outgrew its buffer in all the reads for a flow's local endpoint since 250 ms before
a call, then whatever the other calls do the call names no process, and its flow is decided as without the rules whose
tokens all ask for at least one character. -/
theorem outgrown_tables_name_no_owner {R : RegexCrate} {fold : Char → Char → Prop} (hR : R.Documented fold) :
    (∀ sizing filling table, Macos.pcblistTable sizing filling = some table ↔
      ∃ length, sizing = some length ∧ length ≠ 0 ∧ filling = some table ∧ table.length ≤ length) ∧
    ∀ (start : Nat) (moves : List (Move FlowEnds Macos.PcblistTable)) (s : Macos.Calls),
      exec Macos.step (Threads.init start ()) moves = some s → ∀ (i : Nat) c, s.calls[i]? = some c →
      (∀ e ∈ s.seen, ∀ flow : FlowEnds, e.stage = .fetch flow → flow.key = c.arg.key → c.now < e.time + CACHE_TTL →
        Macos.Outgrown (e.world c.arg.isUdp)) →
      ∀ env : FlowEnv, c.phase = .returned env.pid → attributeFlow env = (none, []) ∧
        ∀ rules (shared : Shared R), RuleSet.new R rules = .ok shared.rules →
          ∃ kept, RuleSet.new R (rules.filter (!·.outOfReach 0)) = .ok kept ∧
            ∀ dest isUdp d, decide shared (factsOf env shared dest isUdp) = .ok d →
              decide { shared with rules := kept } (factsOf env { shared with rules := kept } dest isUdp) = .ok d := by
  refine ⟨fun _ _ _ => Macos.pcblistTable_eq_some, fun start moves s h i c hc hout env hanswer => ?_⟩
  have hpid : env.pid = none :=
    Macos.returned_none_of_unread h hc (fun e he flow hstage hkey hfresh => (hout e he flow hstage hkey hfresh).eq_none)
      hanswer
  have hname : attributeFlow env = (none, []) := by
    rw [attributeFlow, hpid]
    rfl
  exact ⟨hname, fun rules shared hrules => decide_filter hR (by rw [hname]; exact Nat.le_refl 0) hrules⟩

/-- The flow of the socket in the table. -/
def connectedFlow : FlowEnds := { Macos.wrongRemoteFlow with remote := ⟨.v4 (.new 8 8 8 8), 443⟩ }

/-- The table grew by that socket after it had 100 bytes. -/
def grownTable : Macos.PcblistTable := fun _ => Macos.pcblistTable (some 100) (some Macos.connectedV4Table)

/-- A socket that is in the table is not found, and the rule for its process does not apply. -/
theorem outgrown_tables_name_no_owner_sample :
    Macos.scanPcblist Macos.connectedV4Table connectedFlow = some 4242 ∧
      ∃ s, exec Macos.step (Threads.init 7 ()) [.call connectedFlow, .check 0, .look 0 grownTable] = some s ∧
        s.calls[0]? = some ⟨connectedFlow, 7, .returned none⟩ ∧
        ∃ set, RuleSet.new backslashRegex helperRules = .ok set ∧ ∃ kept, RuleSet.new backslashRegex [] = .ok kept ∧
          ∀ dest d,
            decide (sampleShared set) (factsOf { helperEnv with pid := none } (sampleShared set) dest false) = .ok d →
            decide { sampleShared set with rules := kept }
              (factsOf { helperEnv with pid := none } { sampleShared set with rules := kept } dest false) = .ok d := by
  have hgrown : ∀ isUdp, Macos.Outgrown (grownTable isUdp) := fun _ =>
    ⟨100, Macos.connectedV4Table, by decide +kernel, rfl⟩
  obtain ⟨s, hs, hcall, hseen⟩ : ∃ s : Macos.Calls,
      exec Macos.step (Threads.init 7 ()) [.call connectedFlow, .check 0, .look 0 grownTable] = some s ∧
        s.calls[0]? = some ⟨connectedFlow, 7, .returned none⟩ ∧
        s.seen = [⟨0, 7, .fetch connectedFlow, grownTable⟩] := by
    rw [show grownTable = fun _ => none from funext fun isUdp => (hgrown isUdp).eq_none]
    exact ⟨_, rfl, rfl, rfl⟩
  obtain ⟨set, hset⟩ : ∃ set, RuleSet.new backslashRegex helperRules = .ok set := ⟨_, rfl⟩
  have hout : ∀ e ∈ s.seen, ∀ flow : FlowEnds, e.stage = .fetch flow → flow.key = connectedFlow.key →
      7 < e.time + CACHE_TTL → Macos.Outgrown (e.world connectedFlow.isUdp) := by
    intro e he _ _ _ _
    rw [hseen, List.mem_singleton] at he
    subst he
    exact hgrown connectedFlow.isUdp
  obtain ⟨-, hrules⟩ := (outgrown_tables_name_no_owner backslashRegex_documented).2 7 _ s hs 0 _ hcall hout
    { helperEnv with pid := none } rfl
  obtain ⟨kept, hkept, hsame⟩ := hrules helperRules (sampleShared set) hset
  have hnone : helperRules.filter (!·.outOfReach 0) = [] := by decide +kernel
  rw [hnone] at hkept
  exact ⟨by decide +kernel, s, hs, hcall, set, hset, kept, hkept, fun dest d => hsame dest false d⟩

end AceTun
