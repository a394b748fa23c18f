import AceTun.Lpm
import AceTun.Platform.Restore

/-!
# What the tunnel intercepts

After a successful `create` a destination is looked up in a table with the planned routes in it, except where a network
was already there with an interface of its own. The planned routes that match a destination are the half of the address
space it is in and, for a group address, the multicast network (`routePlan_cases`). Beside them the system itself routes
the networks of the tunnel's addresses into the tunnel, whatever else would match there (`Captured`).

So a destination goes where the plan sends it unless the table before had a more specific route, or an entry for that very
network; and it goes where a more specific route sent it unless a network of the tunnel's own is more specific still
(**`interception_iff`**).
-/

namespace AceTun

open RustStd

/-! ## Where a destination goes, and where it should -/

/-- Where a destination is sent. -/
def Table.lookup (t : Table) (d : IpAddr) : Option Via := Lpm.lookup (fun bits => t ⟨d.isIpv6, bits⟩) d.bits

/-- The table has a match for a destination that is longer than a length. -/
def Table.LongerThan (t : Table) (d : IpAddr) (k : Nat) : Prop :=
  Lpm.LongerThan (fun bits => t ⟨d.isIpv6, bits⟩) d.bits k

instance (t : Table) (d : IpAddr) (k : Nat) : Decidable (t.LongerThan d k) :=
  inferInstanceAs (Decidable (Lpm.LongerThan _ _ _))

/-- The multicast network of a destination's family: `224.0.0.0/4` or `ff00::/8`. -/
def groupNet : IpAddr → IpAddr × Nat
  | .v4 _ => (.v4 (.new 224 0 0 0), 4)
  | .v6 _ => (.v6 (.new 0xff00 0 0 0 0 0 0 0), 8)

/-- A destination is a group address. -/
def InGroup (d : IpAddr) : Prop := Net.of d (groupNet d).2 = Net.of (groupNet d).1 (groupNet d).2

instance (d : IpAddr) : Decidable (InGroup d) := inferInstanceAs (Decidable (_ = _))

/-- The length of the most specific planned route for a destination. -/
def plannedLen (d : IpAddr) : Nat := if InGroup d then (groupNet d).2 else 1

/-- Where the plan sends a destination: a group address stays on the physical interface `i`. -/
def plannedVia (d : IpAddr) (i : UInt32) : Via := if InGroup d then .physical i else .tunnel

/-- A destination is sent where the plan sends it, unless a route was there before that is more specific; then it goes
where it went. -/
structure Intercepted (before after : Table) (d : IpAddr) (i : UInt32) : Prop where
  planned : ¬ before.LongerThan d (plannedLen d) → after.lookup d = some (plannedVia d i)
  specific : before.LongerThan d (plannedLen d) → after.lookup d = before.lookup d

/-- One of these networks holds a destination, has at least `k` bits, and is more specific than all that match it in a
table. -/
def Captured (connected : List Net) (before : Table) (d : IpAddr) (k : Nat) : Prop :=
  Lpm.Captured (fun bits => (⟨d.isIpv6, bits⟩ : Net) ∈ connected) (fun bits => before ⟨d.isIpv6, bits⟩) d.bits k

instance (connected : List Net) (before : Table) (d : IpAddr) (k : Nat) : Decidable (Captured connected before d k) :=
  inferInstanceAs (Decidable (Lpm.Captured _ _ _ _))

/-- Nothing is in the way of a destination. A network of the tunnel's own captures it only if it should enter the tunnel
and no route was there that is more specific than the planned one. If none does, the network that the plan routes it by
was not in the table with another interface, or a more specific route makes no use of it. -/
structure Unclaimed (connected : List Net) (before : Net → Option UInt32) (d : IpAddr) (i : UInt32) : Prop where
  captured : Captured connected (.foreign before) d (plannedLen d) →
    ¬ InGroup d ∧ ¬ (Table.foreign before).LongerThan d (plannedLen d)
  entry : ¬ Captured connected (.foreign before) d (plannedLen d) →
    ¬ (Table.foreign before).LongerThan d (plannedLen d) →
      ∀ j, before (.of d (plannedLen d)) = some j → .physical j = plannedVia d i

namespace Unix

variable {u : Unix} {ipv6 : Bool} {iface : PhysicalInterface} {route : RouteHandle} {d : IpAddr} {n : Nat}

/-! ## The planned routes for a destination -/

theorem mem_routePlan : route ∈ routePlan u.os ipv6 iface ↔
    (∃ i, iface.v4Index = some i ∧ ⟨.physical i, .v4 (.new 224 0 0 0), 4⟩ = route) ∨
    (ipv6 = true ∧ ∃ i, iface.v6Index = some i ∧ ⟨.physical i, .v6 (.new 0xff00 0 0 0 0 0 0 0), 8⟩ = route) ∨
    route ∈ splitDefault ipv6 := by
  have hos : multicastRoutes u.os ipv6 iface = multicastRoutes .linux ipv6 iface := by cases u <;> rfl
  rw [routePlan, List.mem_append, hos, ← or_assoc]
  cases ipv6 <;> simp [multicastRoutes]

theorem eq_of_net_eq {e : IpAddr} {k : Nat} (h : Net.of e k = Net.of d n) (hk : k ≤ 32) (hn : n ≤ d.bits.length) :
    e.isIpv6 = d.isIpv6 ∧ k = n := by
  obtain ⟨hv6, hbits⟩ := Net.mk.inj h
  refine ⟨hv6, ?_⟩
  have hlen := congrArg List.length hbits
  rw [List.length_take, List.length_take, Nat.min_eq_left hn, Nat.min_eq_left] at hlen
  · exact hlen
  · rw [IpAddr.length_bits]
    split <;> omega

/-- A planned route that matches a destination is for its half of the addresses, or for its multicast network. -/
theorem routePlan_cases (h : route ∈ routePlan u.os ipv6 iface) (hnet : route.net = .of d n)
    (hn : n ≤ d.bits.length) :
    n = 1 ∧ route.via = .tunnel ∨
      n = (groupNet d).2 ∧ InGroup d ∧ ∃ i, iface.indexFor d = some i ∧ route.via = .physical i := by
  rcases mem_routePlan.mp h with ⟨i, hi, rfl⟩ | ⟨-, i, hi, rfl⟩ | h
  · obtain ⟨hv6, rfl⟩ := eq_of_net_eq hnet (by simp) hn
    cases d with
    | v4 ip => exact .inr ⟨rfl, hnet.symm, i, hi, rfl⟩
    | v6 ip => cases hv6
  · obtain ⟨hv6, rfl⟩ := eq_of_net_eq hnet (by simp) hn
    cases d with
    | v4 ip => cases hv6
    | v6 ip => exact .inr ⟨rfl, hnet.symm, i, hi, rfl⟩
  · obtain ⟨hvia, hlen⟩ := of_mem_splitDefault h
    obtain ⟨-, hone⟩ := eq_of_net_eq hnet (by omega) hn
    exact .inl ⟨hone.symm.trans hlen, hvia⟩

theorem exists_half (hon : d.isIpv6 = true → ipv6 = true) :
    ∃ route ∈ routePlan u.os ipv6 iface, route.net = .of d 1 := by
  obtain ⟨b, rest, hbits⟩ : ∃ b rest, d.bits = b :: rest := by
    refine List.exists_cons_of_length_pos ?_
    rw [IpAddr.length_bits]
    split <;> omega
  have hnet : Net.of d 1 = ⟨d.isIpv6, [b]⟩ := by rw [Net.of, hbits]; rfl
  have hsplit : ∀ route ∈ splitDefault ipv6, route ∈ routePlan u.os ipv6 iface := fun route h =>
    mem_routePlan.mpr (.inr (.inr h))
  rw [hnet]
  cases d with
  | v4 ip =>
    cases b with
    | false => exact ⟨_, hsplit ⟨.tunnel, .v4 (.new 0 0 0 0), 1⟩ (by simp [splitDefault]), rfl⟩
    | true => exact ⟨_, hsplit ⟨.tunnel, .v4 (.new 128 0 0 0), 1⟩ (by simp [splitDefault]), rfl⟩
  | v6 ip =>
    obtain rfl := hon rfl
    cases b with
    | false => exact ⟨_, hsplit ⟨.tunnel, .v6 (.new 0 0 0 0 0 0 0 0), 1⟩ (by simp [splitDefault]), rfl⟩
    | true => exact ⟨_, hsplit ⟨.tunnel, .v6 (.new 0x8000 0 0 0 0 0 0 0), 1⟩ (by simp [splitDefault]), rfl⟩

theorem exists_group {i : UInt32} (hon : d.isIpv6 = true → ipv6 = true) (hi : iface.indexFor d = some i)
    (hd : InGroup d) : ∃ route ∈ routePlan u.os ipv6 iface, route.net = .of d (groupNet d).2 := by
  cases d with
  | v4 ip => exact ⟨_, mem_routePlan.mpr (.inl ⟨i, hi, rfl⟩), hd.symm⟩
  | v6 ip => exact ⟨_, mem_routePlan.mpr (.inr (.inl ⟨hon rfl, i, hi, rfl⟩)), hd.symm⟩

/-! ## The table after a successful `create` -/

theorem plannedLen_cases (d : IpAddr) :
    InGroup d ∧ plannedLen d = (groupNet d).2 ∧ 1 < (groupNet d).2 ∨ ¬ InGroup d ∧ plannedLen d = 1 := by
  unfold plannedLen
  split
  · rename_i h
    exact .inl ⟨h, rfl, by cases d <;> simp [groupNet]⟩
  · rename_i h
    exact .inr ⟨h, rfl⟩

theorem plannedLen_le (d : IpAddr) : plannedLen d ≤ d.bits.length := by
  rw [IpAddr.length_bits, plannedLen]
  cases d <;> split <;> simp [groupNet, IpAddr.isIpv6]

/-- Where a planned route for the planned length leads. -/
theorem via_of_planned {i : UInt32} (h : route ∈ routePlan u.os ipv6 iface) (hnet : route.net = .of d (plannedLen d))
    (hi : iface.indexFor d = some i) : route.via = plannedVia d i := by
  unfold plannedVia
  rcases plannedLen_cases d with ⟨hd, hlen, hlt⟩ | ⟨hd, hlen⟩
  · rw [if_pos hd]
    rcases routePlan_cases h hnet (plannedLen_le d) with ⟨hone, -⟩ | ⟨-, -, i', hi', hvia⟩
    · omega
    · rw [hvia, Option.some.inj (hi'.symm.trans hi)]
  · rw [if_neg hd]
    rcases routePlan_cases h hnet (plannedLen_le d) with ⟨-, hvia⟩ | ⟨-, hin, -⟩
    · exact hvia
    · exact absurd hin hd

theorem exists_planned {i : UInt32} (hon : d.isIpv6 = true → ipv6 = true) (hi : iface.indexFor d = some i) :
    ∃ route ∈ routePlan u.os ipv6 iface, route.net = .of d (plannedLen d) := by
  rcases plannedLen_cases d with ⟨hd, hlen, -⟩ | ⟨-, hlen⟩
  · rw [hlen]
    exact exists_group hon hi hd
  · rw [hlen]
    exact exists_half hon

section After

variable {t : Table} {nets : List Net} {before : Net → Option UInt32} {i : UInt32}

/-- The plan adds nothing more specific. -/
theorem addAll_of_longer (hlt : plannedLen d < n) (hn : n ≤ d.bits.length) :
    t.addAll (routePlan u.os ipv6 iface) (.of d n) = t (.of d n) := by
  rcases addAll_cases (routePlan u.os ipv6 iface) t (.of d n) with h | ⟨-, route, hmem, hnet, -⟩
  · exact h
  · rcases plannedLen_cases d with ⟨hd, hlen, hone⟩ | ⟨hd, hlen⟩
    · rcases routePlan_cases hmem hnet hn with ⟨rfl, -⟩ | ⟨rfl, -⟩ <;> omega
    · rcases routePlan_cases hmem hnet hn with ⟨rfl, -⟩ | ⟨-, hin, -⟩
      · omega
      · exact absurd hin hd

theorem addAll_planned (hon : d.isIpv6 = true → ipv6 = true) (hi : iface.indexFor d = some i) :
    t.addAll (routePlan u.os ipv6 iface) (.of d (plannedLen d)) =
      (t (.of d (plannedLen d))).or (some (plannedVia d i)) := by
  rw [addAll_apply]
  congr 1
  obtain ⟨route, hmem, hnet⟩ := @exists_planned u _ _ _ _ hon hi
  rcases hfind : (routePlan u.os ipv6 iface).find? (·.net = Net.of d (plannedLen d)) with _ | route'
  · exact absurd hnet (by simpa using List.find?_eq_none.mp hfind route hmem)
  · rw [hfind, Option.map_some]
    have hnet' : route'.net = Net.of d (plannedLen d) := by simpa using List.find?_some hfind
    rw [via_of_planned (List.mem_of_find?_eq_some hfind) hnet' hi]

theorem connect_of_mem {net : Net} (h : net ∈ nets) : t.connect nets net = (t net).or (some .tunnel) := by
  rw [Table.connect, if_pos h]

theorem connect_of_not_mem {net : Net} (h : net ∉ nets) : t.connect nets net = t net := by
  rw [Table.connect, if_neg h, Option.or_none]

/-- Where the networks of the tunnel's own send a destination. -/
theorem lookup_connect (t : Table) (nets : List Net) (d : IpAddr) :
    (t.connect nets).lookup d = if Captured nets t d 0 then some .tunnel else t.lookup d :=
  Lpm.lookup_overlay (fun _ _ h => connect_of_mem (by simpa using h)) fun _ _ h => connect_of_not_mem (by simpa using h)

/-- Beyond the planned length, the table after is the one before with the networks of the tunnel's own. -/
theorem overlay_planned (t : Table) (nets : List Net) :
    Lpm.Overlay (fun bits => (⟨d.isIpv6, bits⟩ : Net) ∈ nets) .tunnel (fun bits => t ⟨d.isIpv6, bits⟩)
      (fun bits => (t.connect nets).addAll (routePlan u.os ipv6 iface) ⟨d.isIpv6, bits⟩) d.bits (plannedLen d) where
  added m _ _ hown := by
    rw [addAll_apply, connect_of_mem (by simpa using hown)]
    cases t ⟨d.isIpv6, d.bits.take m⟩ <;> rfl
  rest m hlt hle hown := by
    have hlonger : (t.connect nets).addAll (routePlan u.os ipv6 iface) (.of d m) = t.connect nets (.of d m) :=
      addAll_of_longer hlt hle
    exact hlonger.trans (connect_of_not_mem (by simpa [Net.of] using hown))

/-- Before, nothing led into the tunnel. -/
theorem lookup_foreign_ne_tunnel (before : Net → Option UInt32) (d : IpAddr) :
    (Table.foreign before).lookup d ≠ some .tunnel := by
  intro h
  obtain ⟨m, -, hm⟩ := Lpm.exists_of_upTo h
  obtain ⟨j, -, hj⟩ := Option.map_eq_some_iff.mp hm
  cases hj

theorem plannedVia_eq_tunnel : plannedVia d i = .tunnel ↔ ¬ InGroup d := by
  unfold plannedVia
  split
  · next h => simp [h]
  · next h => simp [h]

/-- What the table has for the planned network, if nothing captures the destination. -/
theorem after_planned (hon : d.isIpv6 = true → ipv6 = true) (hi : iface.indexFor d = some i)
    (hc : ¬ Captured nets (.foreign before) d (plannedLen d))
    (hl : ¬ (Table.foreign before).LongerThan d (plannedLen d)) :
    ((Table.foreign before).connect nets).addAll (routePlan u.os ipv6 iface) (.of d (plannedLen d)) =
      (Table.foreign before (.of d (plannedLen d))).or (some (plannedVia d i)) := by
  rw [addAll_planned hon hi]
  cases ht : Table.foreign before (.of d (plannedLen d)) with
  | some via => rw [Table.connect, ht, Option.some_or, Option.some_or]
  | none =>
    -- a network of the tunnel's own would capture the destination here
    have hmem : Net.of d (plannedLen d) ∉ nets := by
      refine fun hmem => hc ⟨plannedLen d, Nat.le_refl _, plannedLen_le d, by simpa [Net.of] using hmem, fun m hm hle => ?_⟩
      rcases Nat.lt_or_eq_of_le hm with hlt | rfl
      · exact Option.not_isSome_iff_eq_none.mp fun hs => hl ⟨m, hlt, hle, hs⟩
      · exact ht
    rw [connect_of_not_mem hmem, ht]

/-- **A destination of a family in the plan** goes where it should exactly if nothing is in its way. -/
theorem intercepted_iff (hon : d.isIpv6 = true → ipv6 = true) (hi : iface.indexFor d = some i) :
    Intercepted (.foreign before) (((Table.foreign before).connect nets).addAll (routePlan u.os ipv6 iface)) d i ↔
      Unclaimed nets before d i := by
  have hover := @overlay_planned u ipv6 iface d (.foreign before) nets
  by_cases hc : Captured nets (.foreign before) d (plannedLen d)
  · have hlookup : (((Table.foreign before).connect nets).addAll (routePlan u.os ipv6 iface)).lookup d = some .tunnel :=
      hover.lookup_of_captured hc
    constructor
    · intro h
      have hl : ¬ (Table.foreign before).LongerThan d (plannedLen d) := fun hl =>
        lookup_foreign_ne_tunnel before d ((h.specific hl).symm.trans hlookup)
      have hvia : plannedVia d i = .tunnel := Option.some.inj ((h.planned hl).symm.trans hlookup)
      exact ⟨fun _ => ⟨plannedVia_eq_tunnel.mp hvia, hl⟩, fun hn => absurd hc hn⟩
    · intro h
      obtain ⟨hgroup, hl⟩ := h.captured hc
      exact ⟨fun _ => hlookup.trans (congrArg some (plannedVia_eq_tunnel.mpr hgroup).symm), fun hl' => absurd hl' hl⟩
  · by_cases hl : (Table.foreign before).LongerThan d (plannedLen d)
    · exact iff_of_true ⟨fun h => absurd hl h, fun _ => hover.lookup_of_not_captured hc hl⟩
        ⟨fun h => absurd h hc, fun _ h => absurd hl h⟩
    · have hl' := hover.not_longerThan hc (Nat.le_refl _) hl
      have hval := @after_planned u ipv6 iface d nets before i hon hi hc hl
      rcases hbefore : before (.of d (plannedLen d)) with _ | j
      · rw [Table.foreign, hbefore] at hval
        exact iff_of_true ⟨fun _ => Lpm.lookup_of_not_longer hl' (plannedLen_le d) hval, fun h => absurd h hl⟩
          ⟨fun h => absurd h hc, fun _ _ j hj => by cases hbefore.symm.trans hj⟩
      · rw [Table.foreign, hbefore] at hval
        have hlookup : (((Table.foreign before).connect nets).addAll (routePlan u.os ipv6 iface)).lookup d =
            some (.physical j) := Lpm.lookup_of_not_longer hl' (plannedLen_le d) hval
        constructor
        · intro h
          refine ⟨fun h => absurd h hc, fun _ _ j' hj => ?_⟩
          cases hbefore.symm.trans hj
          exact Option.some.inj (hlookup.symm.trans (h.planned hl))
        · intro h
          exact ⟨fun _ => hlookup.trans (congrArg some (h.entry hc hl j hbefore)), fun h => absurd h hl⟩

end After

/-- Without IPv6 no IPv6 network is planned. -/
theorem isIpv6_routePlan (h : route ∈ routePlan u.os false iface) : route.net.v6 = false := by
  rcases mem_routePlan.mp h with ⟨i, hi, rfl⟩ | ⟨hon, -⟩ | h
  · rfl
  · cases hon
  · rcases List.mem_cons.mp h with rfl | h
    · rfl
    · rw [List.mem_singleton.mp h]
      rfl

/-- Without IPv6, an IPv6 destination goes where it went unless a network of the tunnel's own captures it. -/
theorem lookup_v6_iff (nets : List Net) (before : Net → Option UInt32) (d : Ipv6Addr) :
    (((Table.foreign before).connect nets).addAll (routePlan u.os false iface)).lookup (.v6 d) =
        (Table.foreign before).lookup (.v6 d) ↔
      ¬ Captured nets (.foreign before) (.v6 d) 0 := by
  have hafter : ∀ bits, ((Table.foreign before).connect nets).addAll (routePlan u.os false iface) ⟨true, bits⟩ =
      (Table.foreign before).connect nets ⟨true, bits⟩ := by
    intro bits
    rcases addAll_cases (routePlan u.os false iface) ((Table.foreign before).connect nets) ⟨true, bits⟩ with
      h | ⟨-, route, hmem, hnet, -⟩
    · exact h
    · cases (isIpv6_routePlan hmem).symm.trans (congrArg Net.v6 hnet)
  have hsame : (((Table.foreign before).connect nets).addAll (routePlan u.os false iface)).lookup (.v6 d) =
      ((Table.foreign before).connect nets).lookup (.v6 d) :=
    congrArg (Lpm.lookup · _) (funext hafter)
  rw [hsame, lookup_connect]
  split
  · next hc => exact iff_of_false (lookup_foreign_ne_tunnel before (.v6 d)).symm (not_not.mpr hc)
  · next hc => exact iff_of_true rfl hc

/-- **Interception is complete** after a `create` that succeeds, for a destination of either family, exactly if nothing is
in its way: neither an entry of the table before for the network that the plan routes it by, with another interface, nor a
network of the tunnel's own that is more specific than the route it had. Without IPv6 an IPv6 destination is sent
elsewhere only by a network of the tunnel's own. -/
theorem interception_iff (u : Unix) (ipv6 : Bool) (iface : PhysicalInterface) (faults : Faults u)
    (before : Net → Option UInt32) {tun : TunAdapter} {after : Table} {i : UInt32}
    (hcreate : u.create ipv6 iface faults (.foreign before) = (.ok tun, after)) (hi : iface.v4Index = some i) :
    (∀ d : Ipv4Addr, Intercepted (.foreign before) after (.v4 d) i ↔
      Unclaimed (u.connected ipv6 faults) before (.v4 d) i) ∧
    (ipv6 = true → ∀ j, iface.v6Index = some j → ∀ d : Ipv6Addr,
      Intercepted (.foreign before) after (.v6 d) j ↔ Unclaimed (u.connected ipv6 faults) before (.v6 d) j) ∧
    (ipv6 = false → ∀ d : Ipv6Addr, after.lookup (.v6 d) = (Table.foreign before).lookup (.v6 d) ↔
      ¬ Captured (u.connected ipv6 faults) (.foreign before) (.v6 d) 0) := by
  obtain ⟨-, rfl⟩ := create_ok hcreate
  refine ⟨fun d => ?_, fun hon j hj d => ?_, fun hoff d => ?_⟩
  · exact intercepted_iff (fun h => by cases h) hi
  · exact intercepted_iff (fun _ => hon) hj
  · subst hoff
    exact lookup_v6_iff ..

/-- Destinations of one network are group addresses together. -/
theorem inGroup_of_net {e : IpAddr} {k : Nat} (h : Net.of d n = Net.of e k) (hn : n ≤ d.bits.length)
    (hle : plannedLen d ≤ n) (hd : InGroup d) : InGroup e := by
  obtain ⟨hv6, hbits⟩ := Net.mk.inj h
  have hgroup : groupNet e = groupNet d := by cases d <;> cases e <;> first | rfl | cases hv6
  rw [plannedLen, if_pos hd] at hle
  have hlen := congrArg List.length hbits
  rw [List.length_take, List.length_take, Nat.min_eq_left hn] at hlen
  have hsame : Net.of e (groupNet d).2 = Net.of d (groupNet d).2 := by
    have htake := congrArg (List.take (groupNet d).2) hbits
    rw [List.take_take, List.take_take, Nat.min_eq_left hle, Nat.min_eq_left (by omega)] at htake
    rw [Net.of, Net.of, hv6, htake]
  rw [InGroup, hgroup, hsame]
  exact hd

/-- On a machine without routes everything is intercepted, of either family. -/
theorem bare_machine_is_intercepted :
    let plan := routePlan .linux true ⟨some 2, some 3⟩
    let before : Net → Option UInt32 := fun _ => none
    let after := ((Table.foreign before).connect (linux.connected true (.none linux))).addAll plan
    linux.create true ⟨some 2, some 3⟩ (.none linux) (.foreign before) = (.ok ⟨plan⟩, after) ∧
      (∀ d : Ipv4Addr, Intercepted (.foreign before) after (.v4 d) 2) ∧
      ∀ d : Ipv6Addr, Intercepted (.foreign before) after (.v6 d) 3 := by
  intro plan before after
  have hcreate := create_of_no_faults linux true ⟨some 2, some 3⟩ (.foreign before)
  have hfree : ∀ d i, Unclaimed (linux.connected true (.none linux)) before d i := by
    intro d i
    refine ⟨fun hc => ⟨fun hd => ?_, ?_⟩, fun _ _ j hj => by cases hj⟩
    · obtain ⟨n, hle, hn, hown, -⟩ := hc
      have hmem : Net.of d n ∈ linux.connected true (.none linux) := by simpa [Net.of] using hown
      rcases List.mem_cons.mp hmem with h | hmem
      · exact absurd (inGroup_of_net h hn hle hd) (by decide +kernel)
      · exact absurd (inGroup_of_net (List.mem_singleton.mp hmem) hn hle hd) (by decide +kernel)
    · rintro ⟨m, -, -, hs⟩
      cases hs
  obtain ⟨hv4, hv6, -⟩ := interception_iff linux true ⟨some 2, some 3⟩ (.none linux) before hcreate rfl
  exact ⟨hcreate, fun d => (hv4 d).mpr (hfree _ _), fun d => (hv6 rfl 3 rfl d).mpr (hfree _ _)⟩

/-- The network of the tunnel's address takes its part of `10.0.0.0/8` from the interface that had it. -/
example : ¬ Unclaimed (linux.connected false (.none linux))
    (fun net => if net = .of (.v4 (.new 10 0 0 0)) 8 then some 9 else none) (.v4 (.new 10 63 7 5)) 2 := by
  intro h
  exact (h.captured (by decide +kernel)).2 (by decide +kernel)

/-- A table in which the lower half of the addresses is routed out of interface 9, as another tunnel does it. -/
def otherTunnel : Net → Option UInt32 := fun net => if net = .of (.v4 (.new 0 0 0 0)) 1 then some 9 else none

/-- `create` succeeds beside another tunnel, and `8.8.8.8`, for which there is no longer route, is left to that one, on
both systems. -/
theorem other_tunnel_keeps_its_half :
    (¬ InGroup (.v4 (.new 8 8 8 8)) ∧ ¬ (Table.foreign otherTunnel).LongerThan (.v4 (.new 8 8 8 8)) 1) ∧
    ((linux.create false eth (.none linux) (.foreign otherTunnel)).1 = .ok ⟨routePlan .linux false eth⟩ ∧
      (linux.create false eth (.none linux) (.foreign otherTunnel)).2.lookup (.v4 (.new 8 8 8 8)) =
        some (.physical 9)) ∧
    ((macos.create false eth (.none macos) (.foreign otherTunnel)).1 = .ok ⟨routePlan .macos false eth⟩ ∧
      (macos.create false eth (.none macos) (.foreign otherTunnel)).2.lookup (.v4 (.new 8 8 8 8)) =
        some (.physical 9)) := by
  rw [create_of_no_faults, create_of_no_faults]
  exact ⟨by decide +kernel, ⟨rfl, by decide +kernel⟩, rfl, by decide +kernel⟩

end Unix

end AceTun
