import IpTcp.CanonicalKeys
import IpTcp.IpNode

/-!
What the two searches answer for a whole node, in every order in which its maps can be
visited. The search of the forwarding table is a longest-prefix match as soon as the
keys have no host bits. The test for local delivery does not ask whether some interface
has the destination as its address: it looks at one interface only, the first of those
with the longest prefix that contains the destination.
-/
namespace IpTcp

open Rip LongestMatch

theorem InterfaceConfig.contains_own (iface : InterfaceConfig) :
    iface.AssignedPrefix.Contains iface.AssignedIP = true :=
  iface.declared.contains_masked

namespace Node

def ifaces (node : Node) : List InterfaceConfig := node.interfaces.entries.map fun entry => entry.2

def Owns (node : Node) (dst : Addr) : Prop := ∃ iface ∈ node.ifaces, iface.AssignedIP = dst

instance (node : Node) (dst : Addr) : Decidable (node.Owns dst) :=
  inferInstanceAs (Decidable (∃ iface ∈ node.ifaces, iface.AssignedIP = dst))

def Matches (node : Node) (dst : Addr) (pre : Prefix) (info : ForwardingInfo Addr) : Prop :=
  node.forwardingTable.lookup pre = some info ∧ pre.Contains dst = true

variable {node : Node} {visit : Visit} {dst : Addr}

theorem owns_of_checkDest {order : List InterfaceConfig} (hperm : order.Perm node.ifaces)
    (h : checkDest order dst = true) : node.Owns dst := by
  obtain ⟨iface, hiface, hip⟩ := exists_iface_of_checkDest h
  exact ⟨iface, hperm.mem_iff.mp hiface, hip⟩

/-- A destination that is not the node's own is searched in the table. -/
theorem findNext_eq (hvisit : node.Visits visit) (hdst : ¬ node.Owns dst) :
    FindNext visit.interfaces visit.routes dst =
      (longest (fun forward => forward.pre.Contains dst) (fun forward => forward.pre.bits)
        visit.routes).map fun useForward => (useForward.next, useForward.route_type) :=
  if_neg fun hlocal => hdst (owns_of_checkDest hvisit.interfaces hlocal)

theorem mem_routes (hcanonical : Canonical node.forwardingTable) (hvisit : node.Visits visit)
    {info : ForwardingInfo Addr} :
    info ∈ visit.routes ↔ node.forwardingTable.lookup info.pre = some info := by
  rw [hvisit.routes.mem_iff, mem_visited]
  constructor
  · rintro ⟨pre, hlookup⟩
    rwa [(hcanonical pre info hlookup).1]
  · intro hlookup
    exact ⟨info.pre, hlookup⟩

/-- The route that the search ends with is the only longest one. -/
theorem longer_of_isLongest (hcanonical : Canonical node.forwardingTable)
    (hvisit : node.Visits visit) {info : ForwardingInfo Addr}
    (hlongest : IsLongest (fun forward => forward.pre.Contains dst)
      (fun forward => forward.pre.bits) visit.routes info)
    {pre : Prefix} {info' : ForwardingInfo Addr} (hmatch : node.Matches dst pre info')
    (hne : pre ≠ info.pre) : pre.bits < info.pre.bits := by
  obtain ⟨hlookup, hcontains⟩ := hmatch
  obtain ⟨hpre, hmasked⟩ := hcanonical pre info' hlookup
  subst hpre
  have hmem := (mem_routes hcanonical hvisit).mpr hlookup
  have hmasked' := (hcanonical _ _ ((mem_routes hcanonical hvisit).mp hlongest.mem)).2
  refine Nat.lt_of_le_of_ne (hlongest.max info' hmem hcontains) fun hbits => ?_
  exact hne (Prefix.eq_of_contains hmasked hmasked' hbits hcontains hlongest.covered)

/-- For a destination that is not the node's own, FindNext finds a route exactly if some
prefix contains the destination, and the route it finds is the one under the longest such
prefix, in whatever order the maps are visited. A default route is found only if there is
no other. -/
theorem findNext_longest_match (node : Node) (visit : Visit) (dst : Addr)
    (hcanonical : Canonical node.forwardingTable) (hvisit : node.Visits visit)
    (hdst : ¬ node.Owns dst) :
    ((FindNext visit.interfaces visit.routes dst).isSome ↔
        ∃ pre info, node.Matches dst pre info) ∧
      (∀ next t, FindNext visit.interfaces visit.routes dst = some (next, t) →
        ∃ pre info, node.Matches dst pre info ∧ next = info.next ∧ t = info.route_type ∧
          (∀ pre' info', node.Matches dst pre' info' → pre' ≠ pre → pre'.bits < pre.bits) ∧
          (pre.bits = 0 → ∀ pre' info', node.Matches dst pre' info' → pre' = pre)) ∧
      ∀ visit', node.Visits visit' → FindNext visit'.interfaces visit'.routes dst =
        FindNext visit.interfaces visit.routes dst := by
  rw [findNext_eq hvisit hdst]
  refine ⟨?_, ?_, ?_⟩
  · rw [Option.isSome_map]
    constructor
    · intro hsome
      obtain ⟨info, hinfo⟩ := Option.isSome_iff_exists.mp hsome
      have hlongest := isLongest_of_longest hinfo
      exact ⟨info.pre, info, (mem_routes hcanonical hvisit).mp hlongest.mem, hlongest.covered⟩
    · rintro ⟨pre, info, hlookup, hcontains⟩
      rw [Option.isSome_iff_ne_none, Ne, longest_eq_none_iff]
      intro hnone
      obtain ⟨rfl, -⟩ := hcanonical pre info hlookup
      rw [hnone info ((mem_routes hcanonical hvisit).mpr hlookup)] at hcontains
      contradiction
  · intro next t hfound
    obtain ⟨info, hinfo, hroute⟩ := Option.map_eq_some_iff.mp hfound
    cases hroute
    have hlongest := isLongest_of_longest hinfo
    refine ⟨info.pre, info, ⟨(mem_routes hcanonical hvisit).mp hlongest.mem, hlongest.covered⟩,
      rfl, rfl, fun pre' info' hmatch hne => longer_of_isLongest hcanonical hvisit hlongest hmatch
        hne, fun hzero pre' info' hmatch => ?_⟩
    by_contra hne
    have hlt := longer_of_isLongest hcanonical hvisit hlongest hmatch hne
    omega
  · intro visit' hvisit'
    have horder := hcanonical.orderFree visit'.interfaces dst
    have hsame := (horder visit'.routes hvisit'.routes).trans
      (horder visit.routes hvisit.routes).symm
    rw [hsame]
    exact if_neg fun hlocal => hdst (owns_of_checkDest hvisit'.interfaces hlocal)

/-- A host with a default route looks for 8.8.8.8. -/
theorem findNext_longest_match_default :
    FindNext hostVisit.interfaces hostVisit.routes (.v4 134744072) =
        some (.v4 167772162, .S) ∧
      ∃ pre info, hostConfig.node.Matches (.v4 134744072) pre info ∧ info.next = .v4 167772162 := by
  have hcanonical : Canonical hostConfig.node.forwardingTable := by
    refine (canonical_start_iff hostConfig).mpr fun pre hpre => ?_
    rcases AList.mem_insert _ |>.mp hpre with rfl | hempty
    · decide
    · exact absurd hempty (AList.notMem_empty pre)
  have hfound : FindNext hostVisit.interfaces hostVisit.routes (.v4 134744072) =
      some (.v4 167772162, .S) := by decide
  obtain ⟨pre, info, hmatch, hnext, -⟩ := (findNext_longest_match hostConfig.node hostVisit
    (.v4 134744072) hcanonical ⟨.refl _, .refl _, .refl _⟩ (by decide)).2.1 _ _ hfound
  exact ⟨hfound, pre, info, hmatch, hnext.symm⟩

structure Recognises (node : Node) (visit : Visit) : Prop where
  local_iff : ∀ dst : UInt32, checkDest visit.interfaces (.v4 dst) = true ↔ node.Owns (.v4 dst)
  not_forwarded : ∀ buffer header next data,
    packetAction visit buffer = .forward header next data → ¬ node.Owns header.Dst

/-- A prefix that contains an address of the node, but belongs to an interface with another
address, is shorter than the prefix of some interface with that address. -/
def OwnLongest (node : Node) : Prop :=
  ∀ own ∈ node.ifaces, ∀ other ∈ node.ifaces,
    other.AssignedPrefix.Contains own.AssignedIP = true → other.AssignedIP ≠ own.AssignedIP →
    ∃ iface ∈ node.ifaces, iface.AssignedIP = own.AssignedIP ∧
      other.AssignedPrefix.bits < iface.AssignedPrefix.bits

theorem OwnLongest.checkDest (h : node.OwnLongest) {order : List InterfaceConfig}
    (hperm : order.Perm node.ifaces) (howns : node.Owns dst) : checkDest order dst = true := by
  obtain ⟨own, hown, rfl⟩ := howns
  unfold IpTcp.checkDest
  cases huse : longest (fun iface => iface.AssignedPrefix.Contains own.AssignedIP)
    (fun iface => iface.AssignedPrefix.bits) order with
  | none =>
    have hnone := longest_eq_none_iff.mp huse own (hperm.mem_iff.mpr hown)
    rw [own.contains_own] at hnone
    contradiction
  | some toUse =>
    have hlongest := isLongest_of_longest huse
    refine decide_eq_true ?_
    by_contra hne
    obtain ⟨iface, hiface, hip, hlt⟩ := h own hown toUse (hperm.mem_iff.mp hlongest.mem)
      hlongest.covered (Ne.symm hne)
    have hle := hlongest.max iface (hperm.mem_iff.mpr hiface) (hip ▸ iface.contains_own)
    omega

/-- The order that visits the given interface first. -/
theorem exists_visit_first {iface : InterfaceConfig} (hiface : iface ∈ node.ifaces) :
    ∃ visit, node.Visits visit ∧ visit.interfaces = iface :: node.ifaces.erase iface :=
  ⟨⟨iface :: node.ifaces.erase iface, node.ifaces, visited node.forwardingTable⟩,
    ⟨(List.perm_cons_erase hiface).symm, .refl _, .refl _⟩, rfl⟩

theorem checkDest_first {iface : InterfaceConfig} {rest : List InterfaceConfig}
    (hlongest : IsLongest (fun iface => iface.AssignedPrefix.Contains dst)
      (fun iface => iface.AssignedPrefix.bits) (iface :: rest) iface) :
    checkDest (iface :: rest) dst = decide (dst = iface.AssignedIP) := by
  simp only [checkDest, longest_cons hlongest]

/-- If another interface has a prefix at least as long as all interfaces with the address,
then one with another address has a longest one. -/
theorem exists_longest_other {own other : InterfaceConfig} (hother : other ∈ node.ifaces)
    (hcontains : other.AssignedPrefix.Contains own.AssignedIP = true)
    (hne : other.AssignedIP ≠ own.AssignedIP)
    (hmax : ∀ iface ∈ node.ifaces, iface.AssignedIP = own.AssignedIP →
      iface.AssignedPrefix.bits ≤ other.AssignedPrefix.bits) :
    ∃ iface, iface.AssignedIP ≠ own.AssignedIP ∧
      IsLongest (fun iface => iface.AssignedPrefix.Contains own.AssignedIP)
        (fun iface => iface.AssignedPrefix.bits) node.ifaces iface := by
  cases huse : longest (fun iface => iface.AssignedPrefix.Contains own.AssignedIP)
    (fun iface => iface.AssignedPrefix.bits) node.ifaces with
  | none =>
    rw [longest_eq_none_iff.mp huse other hother] at hcontains
    contradiction
  | some toUse =>
    have hlongest := isLongest_of_longest huse
    by_cases hip : toUse.AssignedIP = own.AssignedIP
    · refine ⟨other, hne, hother, hcontains, fun iface hiface hcovers => ?_⟩
      exact (hlongest.max iface hiface hcovers).trans (hmax toUse hlongest.mem hip)
    · exact ⟨toUse, hip, hlongest⟩

/-- Own addresses are recognised in every order exactly if no other interface has a prefix
around such an address that is at least as long. -/
theorem recognises_own_iff (node : Node) :
    (∀ visit, node.Visits visit → node.Recognises visit) ↔ node.OwnLongest := by
  constructor
  · intro hall own hown other hother hcontains hne
    by_contra hnone
    have hmax : ∀ iface ∈ node.ifaces, iface.AssignedIP = own.AssignedIP →
        iface.AssignedPrefix.bits ≤ other.AssignedPrefix.bits := by
      intro iface hiface hip
      by_contra hlt
      exact hnone ⟨iface, hiface, hip, Nat.lt_of_not_le hlt⟩
    obtain ⟨first, hfirst, hlongest⟩ := exists_longest_other hother hcontains hne hmax
    obtain ⟨visit, hvisit, horder⟩ := exists_visit_first hlongest.mem
    have htrue := ((hall visit hvisit).local_iff own.declared.addr).mpr ⟨own, hown, rfl⟩
    have hperm := List.perm_cons_erase hlongest.mem
    change checkDest visit.interfaces own.AssignedIP = true at htrue
    rw [horder, checkDest_first ⟨List.mem_cons_self, hlongest.covered,
      fun iface hiface => hlongest.max iface (hperm.mem_iff.mpr hiface)⟩] at htrue
    exact hfirst (of_decide_eq_true htrue).symm
  · intro h visit hvisit
    refine ⟨fun dst => ⟨owns_of_checkDest hvisit.interfaces, h.checkDest hvisit.interfaces⟩, ?_⟩
    intro buffer header next data hforward howns
    have hfalse := (packetAction_forward hforward).2.1
    rw [h.checkDest hvisit.interfaces howns] at hfalse
    contradiction

/-- A node with the addresses 10.0.1.5/8 and 10.0.1.1/24. -/
def nestedConfig : IPConfig where
  Interfaces := [⟨"if0", .slash 167772421 8, ⟨2130706433, 5000⟩⟩,
    ⟨"if1", .slash 167772417 24, ⟨2130706433, 5001⟩⟩]
  Neighbors := []
  OriginatingPrefixes := []
  RoutingMode := .none
  RipNeighbors := []
  StaticRoutes := ∅

/-- The first of these addresses lies in the longer prefix of the second interface, so that it
is not taken for the node's own. -/
theorem nested_address_forwarded :
    ¬ ∀ (config : IPConfig) (visit : Visit), config.node.Visits visit →
      config.node.Recognises visit := by
  intro hclaim
  have hrecognises := hclaim nestedConfig ⟨nestedConfig.Interfaces, nestedConfig.Interfaces,
    visited nestedConfig.node.forwardingTable⟩
    ⟨List.Perm.swap _ _ _, List.Perm.swap _ _ _, .refl _⟩
  have hlocal := (hrecognises.local_iff 167772421).mpr ⟨⟨"if0", ⟨167772421, 8, by decide⟩,
    ⟨2130706433, 5000⟩⟩, by decide, rfl⟩
  exact absurd hlocal (by decide)

end Node

end IpTcp
