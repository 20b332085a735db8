import IpTcp.Delivery
import IpTcp.LoopFreedom

/-!
RIP and forwarding together. The routing tables that the nodes have at any moment of a run
of RIP on a stable network carry every packet to its destination: a learned route leads over
at most 15 links to a node with an interface in the prefix, that node is the destination or
linked to it, and the time to live that HandleSend puts into a packet is 16.
-/
namespace IpTcp

open Rip Runs

variable {V : Type*} [DecidableEq V]

/-- The nodes are connected as the network says. An address of a neighbour is that of a UDP
socket which the neighbour, and nobody else, listens on. A node with an interface in the
prefix has the destination as its own address or as that of a neighbour. -/
structure Wired (net : StableNetwork V Addr) (nodes : V → Node) (pre : Prefix) (dst : Addr) :
    Prop where
  recognises : ∀ u, (nodes u).OwnLongest
  link : ∀ u v, net.graph.Adj v u → ∃ udp, (nodes u).neighborUDP (net.addr v u) = some udp ∧
    (nodes v).Listens udp ∧ (∀ w, (nodes w).Listens udp → w = v) ∧
    (nodes u).ifaceName (net.addr v u) ∈ (nodes u).interfaces
  attached : ∀ u, net.Origin pre u → (nodes u).Owns dst ∨
    ∃ udp, (nodes u).neighborUDP dst = some udp ∧ (∃ w, (nodes w).Listens udp) ∧
      (∀ w, (nodes w).Listens udp → (nodes w).Owns dst) ∧
      (nodes u).ifaceName dst ∈ (nodes u).interfaces

def Longest (t : Traffic V Addr) (pre : Prefix) (dst : Addr) : Prop :=
  pre.Contains dst = true ∧ ∀ u pre' info', (t.table u).lookup pre' = some info' →
    pre'.Contains dst = true → pre'.bits ≤ pre.bits

section Routes

variable {net : StableNetwork V Addr} {t : Traffic V Addr} {nodes : V → Node} {pre : Prefix}
  {dst : Addr} {n : ℕ} {u : V}

omit [DecidableEq V] in
/-- The routes of RIP are routes that packets can take. -/
theorem departs_of_hops (htables : ∀ u, (nodes u).forwardingTable = t.table u)
    (hcanonical : ∀ u, Canonical (t.table u)) (hwired : Wired net nodes pre dst)
    (hlongest : Longest t pre dst) (h : Hops net t pre n u) :
    (nodes u).Owns dst ∨ ∃ next udp, Departs nodes dst n u next udp := by
  have hsends : ∀ u info, (t.table u).lookup pre = some info → ¬ (nodes u).Owns dst →
      (nodes u).SendsOn dst (if info.route_type = .L then dst else info.next) := by
    intro u info hinfo haway
    refine Node.sendsOn_of_longest (htables u ▸ hcanonical u) haway
      ⟨by rw [htables]; exact hinfo, hlongest.1⟩ ?_
    rintro pre' info' ⟨hlookup, hcontains⟩
    rw [htables] at hlookup
    exact hlongest.2 u pre' info' hlookup hcontains
  induction h with
  | @own u info hinfo htype horigin =>
    by_cases howns : (nodes u).Owns dst
    · exact Or.inl howns
    · obtain ⟨udp, hudp, hexists, hall, hiface⟩ := (hwired.attached u horigin).resolve_left howns
      have hnext := hsends u info hinfo howns
      rw [if_pos htype] at hnext
      exact Or.inr ⟨dst, udp, hnext, hudp, hiface, hexists,
        fun w hw => .here ((hwired.recognises w).takes (hall w hw))⟩
  | @hop n u v info hinfo htype hadj hvia hrest ih =>
    by_cases howns : (nodes u).Owns dst
    · exact Or.inl howns
    · obtain ⟨udp, hudp, hlistens, honly, hiface⟩ := hwired.link u v hadj
      have hnext := hsends u info hinfo howns
      rw [if_neg (by simp [htype]), hvia] at hnext
      refine Or.inr ⟨net.addr v u, udp, hnext, hudp, hiface, ⟨v, hlistens⟩, ?_⟩
      intro w hw
      rw [honly w hw]
      rcases ih with hthere | ⟨next, udp', hdeparts⟩
      · exact .here ((hwired.recognises v).takes hthere)
      · exact hdeparts.leads

end Routes

/-- At every moment of a run of RIP on a stable network, a packet that a node sends to an
address is dropped by no node as long as the tables stay as they are, and it can be handed up
at its destination from every state that is reached. The node has a route for a prefix around
the address, no table has one for a longer prefix, and at each origin of the prefix the
address is that of the node or of a neighbour. -/
theorem rip_routes_deliver (net : StableNetwork V Addr) [DecidableRel net.graph.Adj]
    (t : Traffic V Addr)
    (ht : Reach (Traffic.step net) (fun _ _ => True) (Traffic.start net) t)
    (nodes : V → Node) (htables : ∀ u, (nodes u).forwardingTable = t.table u) (pre : Prefix)
    (dst : Addr) (hwired : Wired net nodes pre dst) (hlongest : Longest t pre dst) (u : V)
    (info : ForwardingInfo Addr) (hroute : (t.table u).lookup pre = some info)
    (haway : ¬ (nodes u).Owns dst) (first : V → Node)
    (s s' : Network V) (hreach : Reach Network.step Network.Orderly (Network.start first) s)
    (halive : ∀ v, s.nodes v = some (nodes v)) (visit : Visit)
    (hvisit : (nodes u).Visits visit) (data : List UInt8) (protocolNum : ℕ)
    (hsize : data.length ≤ 1380)
    (hchecked : Injection.Checked (info.cost + 1)
      ⟨(nodes u).source visit dst, dst, protocolNum, data⟩)
    (hrun : Reach Network.step (Network.Steady s.injected.length)
      (s.inject u (nodes u) visit dst data protocolNum) s') :
    Network.Arrives s.injected.length s' := by
  have hgood := ((Converging.start net).reach ht).1
  have hcanonical : ∀ u, Canonical (t.table u) := fun u pre info hinfo =>
    ⟨(hgood.plain.table u pre info hinfo).key, (hgood.plain.table u pre info hinfo).masked⟩
  have hdst : dst ≠ .zero := by
    rintro rfl
    exact absurd hlongest.1 (by simp [Prefix.Contains])
  obtain ⟨n, hn, hops⟩ := hops_of_route hgood (.reach ht) info.cost u info hroute (Nat.le_refl _)
  have hcost := hgood.cost_le hroute
  obtain ⟨next, udp, hdeparts⟩ :=
    (departs_of_hops htables hcanonical hwired hlongest hops).resolve_left haway
  exact Network.arrives_of_departs hreach halive hvisit hdeparts hdst (by omega) hsize
    (hchecked.mono (by omega)) hrun

/-- A router with a second network behind it, and its neighbour. -/
def linkedConfig (u : Bool) : IPConfig where
  Interfaces := if u then
    [⟨"if0", .slash 167772162 24, ⟨2130706433, 5001⟩⟩,
      ⟨"if1", .slash 167837697 24, ⟨2130706433, 5002⟩⟩]
    else [⟨"if0", .slash 167772161 24, ⟨2130706433, 5000⟩⟩]
  Neighbors := if u then [⟨167772161, ⟨2130706433, 5000⟩, "if0"⟩]
    else [⟨167772162, ⟨2130706433, 5001⟩, "if0"⟩]
  OriginatingPrefixes := []
  RoutingMode := .rip
  RipNeighbors := [if u then .v4 167772161 else .v4 167772162]
  StaticRoutes := ∅

def linkedPair : StableNetwork Bool Addr where
  graph := ⊤
  addr v _ := if v then .v4 167772162 else .v4 167772161
  config u := (linkedConfig u).routing
  ripNeighbors u := (linkedConfig u).RipNeighbors
  mem_ripNeighbors := by
    intro u a
    cases u <;> simp [linkedConfig, eq_comm]
  addr_inj := by
    intro u v w hv hw _
    cases u <;> cases v <;> cases w <;> simp_all
  own_addr := by
    intro u v hadj
    have hother : ∀ u v : Bool, v ≠ u → ∀ iface ∈ (linkedConfig u).routing.Interfaces,
        iface.1 ≠ if v then .v4 167772162 else .v4 167772161 := by decide
    exact hother u v hadj
  static_nil u := by cases u <;> rfl

instance : DecidableRel linkedPair.graph.Adj :=
  inferInstanceAs (DecidableRel fun a b : Bool => a ≠ b)

def farPrefix : Prefix := .slash 167837696 24

def linkedNodes (t : Traffic Bool Addr) (u : Bool) : Node :=
  { (linkedConfig u).node with forwardingTable := t.table u }

theorem linkedNodes_wired (t : Traffic Bool Addr) :
    Wired linkedPair (linkedNodes t) farPrefix (.v4 167837697) where
  recognises u := by
    have hlongest : ∀ u, (linkedConfig u).node.OwnLongest := by
      unfold Node.OwnLongest
      decide
    exact hlongest u
  link u v hadj := by
    have hlinks : ∀ u v : Bool, v ≠ u → ∃ udp ∈ [AddrPort.mk 2130706433 5000, ⟨2130706433, 5001⟩],
        (linkedConfig u).node.neighborUDP (if v then .v4 167772162 else .v4 167772161) = some udp ∧
        (linkedConfig v).node.Listens udp ∧ (∀ w, (linkedConfig w).node.Listens udp → w = v) ∧
        (linkedConfig u).node.ifaceName (if v then .v4 167772162 else .v4 167772161) ∈
          (linkedConfig u).node.interfaces := by decide
    obtain ⟨udp, -, hlink⟩ := hlinks u v hadj
    exact ⟨udp, hlink⟩
  attached u horigin := by
    cases u with
    | true => exact Or.inl (show (linkedConfig true).node.Owns (.v4 167837697) by decide)
    | false =>
      -- the neighbour has no interface in the prefix
      obtain ⟨key, info, hinfo, hkey⟩ := horigin
      have hkeys : ∀ key ∈ (initialTable (linkedConfig false).routing).keys,
          key.masked ≠ farPrefix := by decide
      exact absurd hkey (hkeys key (mem_keys_of_lookup hinfo))

/-- The source of a packet is an address of the node. -/
theorem Node.owns_source {node : Node} {visit : Visit} {dst : Addr} {src : UInt32}
    (h : node.source visit dst = .v4 src) : node.Owns (.v4 src) := by
  unfold Node.source at h
  split at h
  · next iface next hout =>
    obtain ⟨found, t, -, -, neighbor, -, hlookup⟩ := Node.outgoing_eq_some_iff.mp hout
    exact ⟨iface, List.mem_map.mpr ⟨_, AList.mem_lookup_iff.mp hlookup, rfl⟩, h⟩
  · contradiction

/-- A packet for the network behind the router, right after the neighbour has learned it. -/
theorem rip_routes_deliver_pair :
    ∃ (t : Traffic Bool Addr) (s : Network Bool),
      (t.table false).lookup farPrefix = some ⟨.R, .v4 167772162, farPrefix, 1, 7⟩ ∧
        s.injected[0]?.map Injection.dst = some (.v4 167837697) ∧ s.timesHanded 0 = 1 ∧
        s.Arrives 0 := by
  obtain ⟨t, ht, hlookup, hkeys⟩ := exists_reach (Traffic.step linkedPair) (fun _ _ => True)
    (Traffic.start linkedPair)
    (fun t => (t.table false).lookup farPrefix = some ⟨.R, .v4 167772162, farPrefix, 1, 7⟩ ∧
      ∀ u, ∀ pre ∈ (t.table u).keys, pre.bits ≤ 24)
    [.deliver 5 false true .request, .deliver 6 true false .request,
      .deliver 7 true false (.response [⟨0, 167837696, cidrMask 24⟩, ⟨0, 167772160, cidrMask 24⟩])]
    (by decide +kernel)
  have hlongest : Longest t farPrefix (.v4 167837697) := by
    exact ⟨by decide, fun u pre info hinfo _ => hkeys u pre (mem_keys_of_lookup hinfo)⟩
  have haway : ¬ (linkedNodes t false).Owns (.v4 167837697) :=
    show ¬ (linkedConfig false).node.Owns (.v4 167837697) by decide
  have hchecked : Injection.Checked 2 ⟨(linkedNodes t false).source
      (linkedNodes t false).anyVisit (.v4 167837697), .v4 167837697, 0, [104, 105]⟩ := by
    intro src dst hsrc hdst ttl hfirst hhigh
    obtain ⟨iface, hiface, hip⟩ := Node.owns_source hsrc
    have hone : ∀ iface ∈ (linkedConfig false).node.ifaces,
        iface.AssignedIP = .v4 167772161 := by decide
    cases hip.symm.trans (hone iface hiface)
    cases hdst
    have hsums : ∀ ttl < 17, headerSum 167772161 167837697 (0 % 256) ttl 2 %
        InternetChecksum.maxWord ≠ 0 := by decide
    exact hsums ttl (by omega)
  have hbefore : Reach Network.step Network.Orderly (Network.start (linkedNodes t)) _ :=
    .tail (.other (.link ⟨2130706433, 5001⟩) [1, 2, 3]) .refl trivial rfl
  have harrives := fun s (hrun : Reach _ _ _ s) => rip_routes_deliver linkedPair t ht
    (linkedNodes t) (fun _ => rfl) farPrefix (.v4 167837697) (linkedNodes_wired t) hlongest false _
    hlookup haway (linkedNodes t) _ s hbefore (fun _ => rfl) _ (Node.anyVisit_visits _) [104, 105] 0
    (by decide) hchecked hrun
  -- the packet can be handed up, and the theorem is about that run too
  obtain ⟨s, hrun, hhanded⟩ := (harrives _ .refl).possible
  refine ⟨t, s, hlookup, ?_, hhanded, harrives s hrun⟩
  have hcall : s.injected[0]? = some ⟨(linkedNodes t false).source (linkedNodes t false).anyVisit
      (.v4 167837697), .v4 167837697, 0, [104, 105]⟩ :=
    hrun.invariant (fun s => s.injected[0]? = _) (by rw [Network.injected_inject]; rfl)
      fun _ _ _ hkept hok hstep => Network.injected_kept hok.orderly hstep hkept
  rw [hcall]
  rfl

end IpTcp
