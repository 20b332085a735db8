import IpTcp.IpNode

/-!
Whether learned routes can be used. The next hop of a learned route is the source of
the packet that brought it, which need not be a neighbour. If every entry that the node
takes over comes from a neighbour, and every neighbour is on an interface of the node,
then a packet whose longest match is a learned route is sent.
-/
namespace IpTcp

open Rip Runs LongestMatch

def IsNeighbor (neighbors : List NeighborConfig) (a : Addr) : Prop :=
  ∃ neighbor ∈ neighbors, neighbor.DestAddr = a

instance (neighbors : List NeighborConfig) (a : Addr) : Decidable (IsNeighbor neighbors a) :=
  inferInstanceAs (Decidable (∃ neighbor ∈ neighbors, neighbor.DestAddr = a))

def Usable (neighbors : List NeighborConfig) (table : Table Addr) : Prop :=
  ∀ pre info, table.lookup pre = some info → info.route_type = .R →
    IsNeighbor neighbors info.next

/-- The entry brings a new route or a lower cost, so that its sender becomes the next hop. -/
def Adopts (table : Table Addr) (entry : RipUpdate) : Prop :=
  table.lookup entry.pre = none ∧ entry.cost ≠ infty ∨
    ∃ info ∈ table.lookup entry.pre, entry.cost < info.cost

instance (table : Table Addr) (entry : RipUpdate) : Decidable (Adopts table entry) :=
  inferInstanceAs (Decidable (_ ∧ _ ∨ ∃ info ∈ table.lookup entry.pre, entry.cost < info.cost))

def FromNeighbor (neighbors : List NeighborConfig) (table : Table Addr) : TableEvent Addr → Prop
  | .entry _ hop entry => Adopts table entry → IsNeighbor neighbors hop
  | .collect _ => True

instance (neighbors : List NeighborConfig) (table : Table Addr) (e : TableEvent Addr) :
    Decidable (FromNeighbor neighbors table e) :=
  match e with
  | .entry _ hop entry =>
      inferInstanceAs (Decidable (Adopts table entry → IsNeighbor neighbors hop))
  | .collect _ => .isTrue trivial

section Run

variable {neighbors : List NeighborConfig} {table table' : Table Addr} {e : TableEvent Addr}

theorem Usable.step_iff (hfree : Free table) (h : Usable neighbors table)
    (hstep : lockedStep table e = some table') :
    Usable neighbors table' ↔ FromNeighbor neighbors table e := by
  cases e with
  | entry now hop entry =>
    cases hstep
    unfold Usable
    rw [learn_keeps_iff h fun _ _ hinfo => hinfo]
    constructor
    · intro ⟨hnew, hlower⟩ hadopts
      rcases hadopts with ⟨hnone, hcost⟩ | ⟨info, hinfo, hlt⟩
      · exact hnew hnone hcost rfl
      · refine hlower info hinfo hlt ?_
        by_contra hne
        have hzero := hfree _ info hinfo hne
        omega
    · intro hok
      exact ⟨fun hnone hcost _ => hok (Or.inl ⟨hnone, hcost⟩),
        fun info hinfo hlt _ => hok (Or.inr ⟨info, hinfo, hlt⟩)⟩
  | collect now =>
    cases hstep
    exact iff_of_true (collect_keeps h) trivial

end Run

def IPConfig.Wired (config : IPConfig) : Prop :=
  ∀ neighbor ∈ config.Neighbors, ∃ iface ∈ config.Interfaces, iface.Name = neighbor.InterfaceName

def IPConfig.nodeWith (config : IPConfig) (table : Table Addr) : Node :=
  { config.node with forwardingTable := table }

section Transmit

variable {config : IPConfig} (table : Table Addr) {next : Addr}

theorem neighborUDP_of_isNeighbor (h : IsNeighbor config.Neighbors next) :
    ∃ udp, (config.nodeWith table).neighborUDP next = some udp := by
  obtain ⟨neighbor, hmem, hdest⟩ := h
  have hfind : (config.Neighbors.find? fun neighbor => neighbor.DestAddr = next).isSome := by
    rw [List.find?_isSome]
    exact ⟨neighbor, hmem, by simpa using hdest⟩
  obtain ⟨found, hfound⟩ := Option.isSome_iff_exists.mp hfind
  exact ⟨found.UDPAddr, congrArg (Option.map _) hfound⟩

theorem lookup_iface_of_isNeighbor (hwired : config.Wired) (h : IsNeighbor config.Neighbors next) :
    ∃ iface, (config.nodeWith table).interfaces.lookup
      ((config.nodeWith table).ifaceName next) = some iface := by
  obtain ⟨neighbor, hmem, hdest⟩ := h
  have hknown : next ∈ createNeighborTable config.Neighbors :=
    mem_foldl_insert NeighborConfig.DestAddr id _ _ (Or.inr ⟨neighbor, hmem, hdest⟩)
  obtain ⟨last, hlast⟩ := Option.isSome_iff_exists.mp (AList.lookup_isSome.mpr hknown)
  have hlastmem : last ∈ config.Neighbors := by
    rcases foldl_insert_lookup NeighborConfig.DestAddr id _ _ hlast with
      ⟨neighbor', hmem', -, heq⟩ | hempty
    · exact heq ▸ hmem'
    · simp at hempty
  obtain ⟨iface, hiface, hname⟩ := hwired last hlastmem
  have hdeclared : last.InterfaceName ∈ interfaceMap config.Interfaces :=
    mem_foldl_insert InterfaceConfig.Name id _ _ (Or.inr ⟨iface, hiface, hname⟩)
  have hifname : (config.nodeWith table).ifaceName next = last.InterfaceName := by
    simp only [Node.ifaceName, Node.neighborTable, IPConfig.nodeWith, IPConfig.node, hlast]
  rw [hifname]
  exact Option.isSome_iff_exists.mp (AList.lookup_isSome.mpr hdeclared)

/-- A route is found for addresses only that are set. -/
theorem exists_v4_of_findNext {ifaces : List InterfaceConfig}
    {routes : List (ForwardingInfo Addr)} {dst : Addr} {route : Addr × RouteType}
    (h : FindNext ifaces routes dst = some route) : ∃ bits, dst = .v4 bits := by
  cases dst with
  | v4 bits => exact ⟨bits, rfl⟩
  | zero =>
    have hnone : ∀ {α : Type} (pre : α → Prefix) (l : List α),
        longest (fun x => (pre x).Contains .zero) (fun x => (pre x).bits) l = none :=
      fun _ _ => longest_eq_none_iff.mpr fun _ _ => rfl
    simp [FindNext, checkDest, hnone InterfaceConfig.AssignedPrefix,
      hnone ForwardingInfo.pre] at h

/-- A packet for which a learned route is found goes out towards its next hop. -/
theorem handleSend_transmits (hwired : config.Wired) (husable : IsNeighbor config.Neighbors next)
    {visit : Visit} (hvisit : (config.nodeWith table).Visits visit) {dst : Addr}
    (hfind : FindNext visit.interfaces visit.routes dst = some (next, .R)) (data : List UInt8)
    (protocolNum : ℕ) :
    ∃ sent, (config.nodeWith table).HandleSend visit dst data protocolNum = .ok [sent] ∧
      sent.address = next := by
  obtain ⟨udp, hudp⟩ := neighborUDP_of_isNeighbor table husable
  obtain ⟨iface, hiface⟩ := lookup_iface_of_isNeighbor table hwired husable
  obtain ⟨bits, rfl⟩ := exists_v4_of_findNext hfind
  have hout : (config.nodeWith table).outgoing visit (.v4 bits) = some (iface, next) := by
    simp [Node.outgoing, hfind, hudp, hiface]
  rw [Node.handleSend_eq hvisit, hout]
  simp only [InterfaceConfig.AssignedIP, makePacket_eq]
  exact ⟨_, rfl, rfl⟩

/-- A packet that is to be sent on over a learned route is written to the link of its next
hop. -/
theorem forward_transmits (husable : IsNeighbor config.Neighbors next) {visit : Visit}
    {buffer : Slice} {header : IPv4Header} {hop : Addr} {data : List UInt8}
    (haction : packetAction visit buffer = .forward header hop data)
    (hfind : FindNext visit.again visit.routes header.Dst = some (next, .R)) (now : ℕ) :
    ∃ udp packet, (config.nodeWith table).handlePackets now visit buffer =
      .ok (config.nodeWith table, [.write udp packet]) := by
  obtain ⟨hparsed, -, -, -, found, t, hfound, hhop⟩ := packetAction_forward haction
  obtain ⟨udp, hudp⟩ := neighborUDP_of_isNeighbor table husable
  cases hfind.symm.trans hfound
  have hpacket : ∃ packet, makePacket header.Src header.Dst header.Protocol header.TTL data =
      .ok packet := by
    obtain ⟨-, -, -, -, rfl⟩ := validHeader_eq_some hparsed
    exact ⟨_, makePacket_eq ..⟩
  obtain ⟨packet, hpacket⟩ := hpacket
  refine ⟨udp, packet, ?_⟩
  simp [Node.handlePackets, haction, Node.perform, hpacket, Node.forwardPacket, hhop, hudp]

theorem findNext_learned {ifaces : List InterfaceConfig} {routes : List (ForwardingInfo Addr)}
    {dst : Addr} (h : FindNext ifaces routes dst = some (next, .R)) :
    ∃ info ∈ routes, info.next = next ∧ info.route_type = .R := by
  unfold FindNext at h
  split at h
  · simp at h
  · obtain ⟨info, hinfo, hroute⟩ := Option.map_eq_some_iff.mp h
    obtain ⟨hnext, htype⟩ := Prod.mk.inj hroute
    exact ⟨info, (isLongest_of_longest hinfo).mem, hnext, htype⟩

end Transmit

/-- In every run in which each entry that is taken over comes from a neighbour, the next hops
of learned routes are neighbours, and an entry that breaks the condition brings one that is
not. Every packet of others for which a learned route is found is sent on, and if all
neighbours are on interfaces of the node, every packet of its own goes out, too. -/
theorem learned_routes_usable (config : IPConfig) (table : Table Addr)
    (h : Reach lockedStep (FromNeighbor config.Neighbors) (initialTable config.routing) table) :
    Usable config.Neighbors table ∧
      (∀ e table', lockedStep table e = some table' →
        (Usable config.Neighbors table' ↔ FromNeighbor config.Neighbors table e)) ∧
      (∀ visit, (config.nodeWith table).Visits visit → ∀ next,
        (config.Wired → ∀ dst data protocolNum,
          FindNext visit.interfaces visit.routes dst = some (next, .R) →
          ∃ sent, (config.nodeWith table).HandleSend visit dst data protocolNum = .ok [sent] ∧
            sent.address = next) ∧
        ∀ now buffer header hop data,
          packetAction visit buffer = .forward header hop data →
          FindNext visit.again visit.routes header.Dst = some (next, .R) →
          ∃ udp packet, (config.nodeWith table).handlePackets now visit buffer =
            .ok (config.nodeWith table, [.write udp packet])) := by
  have hinv : Free table ∧ Usable config.Neighbors table :=
    h.invariant (fun table => Free table ∧ Usable config.Neighbors table)
      ⟨free_start _, fun _ _ hinfo htype => absurd htype (initialTable_installed hinfo).2.1⟩
      fun _ _ _ hinv hok hstep => ⟨hinv.1.step hstep, (hinv.2.step_iff hinv.1 hstep).mpr hok⟩
  refine ⟨hinv.2, fun _ _ hstep => hinv.2.step_iff hinv.1 hstep, ?_⟩
  intro visit hvisit next
  have hnext : ∀ ifaces dst, FindNext ifaces visit.routes dst = some (next, .R) →
      IsNeighbor config.Neighbors next := by
    intro ifaces dst hfind
    obtain ⟨info, hinfo, hhop, htype⟩ := findNext_learned hfind
    obtain ⟨pre, hlookup⟩ := mem_visited.mp (hvisit.routes.mem_iff.mp hinfo)
    exact hhop ▸ hinv.2 pre info hlookup htype
  refine ⟨?_, ?_⟩
  · intro hwired dst data protocolNum hfind
    exact handleSend_transmits table hwired (hnext _ _ hfind) hvisit hfind data protocolNum
  · intro now buffer header hop data haction hfind
    exact forward_transmits table (hnext _ _ hfind) haction hfind now

/-- A route over the neighbour of the sample host is learned. -/
theorem learned_routes_usable_host :
    ∃ table, Reach lockedStep (FromNeighbor hostConfig.Neighbors)
        (initialTable hostConfig.routing) table ∧
      table.lookup ⟨169082880, 24, by decide⟩ =
        some ⟨.R, .v4 167772162, ⟨169082880, 24, by decide⟩, 2, 5⟩ ∧
      Usable hostConfig.Neighbors table := by
  obtain ⟨table, hreach, hlookup⟩ := exists_reach lockedStep (FromNeighbor hostConfig.Neighbors)
    (initialTable hostConfig.routing)
    (fun table => table.lookup ⟨169082880, 24, by decide⟩ =
      some ⟨.R, .v4 167772162, ⟨169082880, 24, by decide⟩, 2, 5⟩)
    [.entry 5 (.v4 167772162) ⟨1, 169082880, cidrMask 24⟩,
      .entry 6 (.v4 168364297) ⟨1, 169082880, cidrMask 24⟩] (by decide)
  exact ⟨table, hreach, hlookup, (learned_routes_usable hostConfig table hreach).1⟩

/-- A response from 10.9.9.9, which is no neighbour, with the network 10.20.0.0/24. -/
def strangerDatagram : List UInt8 :=
  [69, 0, 0, 36, 0, 0, 0, 0, 16, 200, 141, 0, 10, 9, 9, 9, 10, 0, 0, 1,
    0, 2, 0, 1, 0, 0, 0, 1, 10, 20, 0, 0, 255, 255, 255, 0]

/-- The host takes the stranger's route over. -/
theorem stranger_route_learned :
    ¬ ∀ (config : IPConfig) (start node : Node) (sent : List Sent),
      Initialize config = .ok (start, sent) → Reach Node.step (fun _ _ => True) start node →
      Usable config.Neighbors node.forwardingTable := by
  intro hclaim
  obtain ⟨node, hreach, hlookup⟩ := exists_reach Node.step (fun _ _ => True) hostConfig.node
    (fun node => node.forwardingTable.lookup ⟨169082880, 24, by decide⟩ =
      some ⟨.R, .v4 168364297, ⟨169082880, 24, by decide⟩, 2, 5⟩)
    [.datagram 5 hostVisit strangerDatagram] (by decide +kernel)
  have hneighbor := hclaim hostConfig hostConfig.node node [] rfl hreach _ _ hlookup rfl
  exact absurd hneighbor (by decide)

end IpTcp
