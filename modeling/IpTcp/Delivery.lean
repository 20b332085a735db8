import IpTcp.Network

/-!
Packets arrive. A route leads from a node to a destination if every node on it either takes
the destination for its own or sends packets for it on to a neighbour that the route leads
on from. While the nodes stay as they are and the network does not lose it, a packet that
HandleSend sends along such a route of at most sixteen links is in transit on that route
until it is handed up, and it can be handed up from every state on the way.
-/
namespace IpTcp

open Rip BigEndian InternetChecksum Runs

theorem mem_keys_of_lookup {table : Table Addr} {pre : Prefix} {info : ForwardingInfo Addr}
    (h : table.lookup pre = some info) : pre ∈ table.keys :=
  AList.mem_keys.mp (AList.lookup_isSome.mp (by rw [h]; rfl))

namespace Node

def Takes (node : Node) (dst : Addr) : Prop :=
  ∀ visit, node.Visits visit → checkDest visit.interfaces dst = true

structure SendsOn (node : Node) (dst next : Addr) : Prop where
  away : ¬ node.Owns dst
  found : ∀ visit, node.Visits visit → ∃ found t,
    FindNext visit.interfaces visit.routes dst = some (found, t) ∧
      next = if t = .L then dst else found

theorem Visits.second {node : Node} {visit : Visit} (h : node.Visits visit) :
    node.Visits { visit with interfaces := visit.again } :=
  ⟨h.again, h.again, h.routes⟩

theorem OwnLongest.takes {node : Node} {dst : Addr} (h : node.OwnLongest)
    (howns : node.Owns dst) : node.Takes dst :=
  fun _ hvisit => h.checkDest hvisit.interfaces howns

/-- The route under the longest prefix around the destination is the one that is used. -/
theorem sendsOn_of_longest {node : Node} {dst : Addr} (hcanonical : Canonical node.forwardingTable)
    (haway : ¬ node.Owns dst) {pre : Prefix} {info : ForwardingInfo Addr}
    (hmatch : node.Matches dst pre info)
    (hlongest : ∀ pre' info', node.Matches dst pre' info' → pre'.bits ≤ pre.bits) :
    node.SendsOn dst (if info.route_type = .L then dst else info.next) := by
  refine ⟨haway, fun visit hvisit => ⟨info.next, info.route_type, ?_, rfl⟩⟩
  rw [findNext_eq hvisit haway]
  cases huse : LongestMatch.longest (fun forward => forward.pre.Contains dst)
    (fun forward => forward.pre.bits) visit.routes with
  | none =>
    obtain ⟨hlookup, hcontains⟩ := hmatch
    obtain ⟨rfl, -⟩ := hcanonical pre info hlookup
    have hnone := LongestMatch.longest_eq_none_iff.mp huse info
      ((mem_routes hcanonical hvisit).mpr hlookup)
    rw [hcontains] at hnone
    contradiction
  | some used =>
    have hused := LongestMatch.isLongest_of_longest huse
    have hlookup := (mem_routes hcanonical hvisit).mp hused.mem
    have hpre : pre = used.pre := by
      by_contra hne
      have hlt := longer_of_isLongest hcanonical hvisit hused hmatch hne
      have hle := hlongest used.pre used ⟨hlookup, hused.covered⟩
      omega
    rw [← hpre, hmatch.1] at hlookup
    cases hlookup
    rfl

def anyVisit (node : Node) : Visit := ⟨node.ifaces, node.ifaces, visited node.forwardingTable⟩

theorem anyVisit_visits (node : Node) : node.Visits node.anyVisit := ⟨.refl _, .refl _, .refl _⟩

end Node

section Leads

variable {ι : Type*} (nodes : ι → Node) (dst : Addr)

/-- From the node on, a packet for the destination crosses at most so many links. -/
inductive Leads : ℕ → ι → Prop
  | here {n : ℕ} {i : ι} : (nodes i).Takes dst → Leads n i
  | hop {n : ℕ} {i : ι} {next : Addr} {udp : AddrPort} : (nodes i).SendsOn dst next →
      (nodes i).neighborUDP next = some udp → (∃ j, (nodes j).Listens udp) →
      (∀ j, (nodes j).Listens udp → Leads n j) → Leads (n + 1) i

def Onward (n : ℕ) (udp : AddrPort) : Prop :=
  (∃ j, (nodes j).Listens udp) ∧ ∀ j, (nodes j).Listens udp → Leads nodes dst n j

structure Departs (n : ℕ) (i : ι) (next : Addr) (udp : AddrPort) : Prop where
  sends : (nodes i).SendsOn dst next
  neighbor : (nodes i).neighborUDP next = some udp
  iface : (nodes i).ifaceName next ∈ (nodes i).interfaces
  onward : Onward nodes dst n udp

variable {nodes dst} {n : ℕ} {i : ι}

theorem Departs.leads {next : Addr} {udp : AddrPort} (h : Departs nodes dst n i next udp) :
    Leads nodes dst (n + 1) i :=
  .hop h.sends h.neighbor h.onward.1 h.onward.2

/-- A route from a node that is not the destination has a first link. -/
theorem Leads.departs (h : Leads nodes dst n i) (haway : ¬ (nodes i).Owns dst)
    (hiface : ∀ next, (nodes i).SendsOn dst next →
      (nodes i).ifaceName next ∈ (nodes i).interfaces) :
    ∃ m next udp, n = m + 1 ∧ Departs nodes dst m i next udp := by
  cases h with
  | here htakes =>
    have hvisit := (nodes i).anyVisit_visits
    exact absurd (Node.owns_of_checkDest hvisit.interfaces (htakes _ hvisit)) haway
  | @hop m _ next udp hsends hudp hexists hall =>
    exact ⟨m, next, udp, rfl, hsends, hudp, hiface next hsends, hexists, hall⟩

end Leads

namespace Injection

def Made (call : Injection) (ttl : ℕ) (bytes : List UInt8) : Prop :=
  makePacket call.src call.dst (call.protocolNum % 256) ttl call.data = .ok bytes

/-- On the first `links` links no packet of the call has the header checksum zero. The time to
live is 16 on the first one. -/
def Checked (links : ℕ) (call : Injection) : Prop :=
  ∀ src dst, call.src = .v4 src → call.dst = .v4 dst → ∀ ttl, 16 < ttl + links → ttl ≤ 16 →
    headerSum src dst (call.protocolNum % 256) ttl call.data.length % maxWord ≠ 0

structure Reads (call : Injection) (ttl : ℕ) (buffer : List UInt8) (header : IPv4Header) :
    Prop where
  valid : validHeader buffer = some header
  src : header.Src = call.src
  dst : header.Dst = call.dst
  protocolNum : header.Protocol = call.protocolNum % 256
  ttl : header.TTL = ttl
  data : buffer.drop header.Len = call.data

variable {call : Injection} {ttl : ℕ} {bytes : List UInt8}

theorem made_of_makePacket
    (h : makePacket call.src call.dst call.protocolNum ttl call.data = .ok bytes) :
    call.Made ttl bytes := by
  obtain ⟨hsrc, hdst⟩ := (Node.makePacket_ok_iff ..).mp ⟨bytes, h⟩
  unfold Made
  cases hs : call.src with
  | zero => exact absurd hs hsrc
  | v4 src =>
    cases hd : call.dst with
    | zero => exact absurd hd hdst
    | v4 dst =>
      rw [makePacket_mod, ← h, hs, hd]

theorem Checked.mono {links links' : ℕ} (h : call.Checked links) (hle : links' ≤ links) :
    call.Checked links' :=
  fun src dst hsrc hdst ttl hfirst hhigh => h src dst hsrc hdst ttl (by omega) hhigh

theorem Made.reads {links : ℕ} (h : call.Made ttl bytes) (hchecked : call.Checked links)
    (hsize : call.data.length ≤ 1380) (hpos : 1 ≤ ttl) (httl : ttl ≤ 16)
    (hfirst : 16 < ttl + links) :
    ∃ header, call.Reads (ttl - 1) (received bytes).bytes header := by
  obtain ⟨hsrc, hdst⟩ := (Node.makePacket_ok_iff ..).mp ⟨bytes, h⟩
  have hproto : call.protocolNum % 256 < 256 := Nat.mod_lt _ (by decide)
  cases hs : call.src with
  | zero => exact absurd hs hsrc
  | v4 src =>
    cases hd : call.dst with
    | zero => exact absurd hd hdst
    | v4 dst =>
      unfold Made at h
      rw [hs, hd, makePacket_eq, Except.ok.injEq] at h
      subst h
      rw [computeChecksum_built hproto (by omega) hsize, received_built hsize]
      refine ⟨_, (validHeader_built src dst hproto (by omega) hpos hsize rfl).trans
        (if_pos (hchecked src dst hs hd ttl hfirst httl)), hs.symm, hd.symm, rfl, rfl,
        List.drop_left' (length_built ..)⟩

end Injection

/-- A packet for the node's own address is delivered. -/
theorem packetAction_takes {node : Node} {visit : Visit} {call : Injection} {ttl : ℕ}
    {bytes : List UInt8} {header : IPv4Header} (htakes : node.Takes call.dst)
    (hvisit : node.Visits visit) (hreads : call.Reads ttl (received bytes).bytes header) :
    packetAction visit (received bytes) =
      .deliver header ((received bytes).behind header.Len) := by
  simp only [packetAction, hreads.valid, hreads.dst, htakes visit hvisit, if_true]

/-- A packet that has time to live left is sent on as it came. -/
theorem packetAction_sendsOn {node : Node} {visit : Visit} {call : Injection} {next : Addr}
    {ttl : ℕ} {bytes : List UInt8} {header : IPv4Header} (hsends : node.SendsOn call.dst next)
    (hvisit : node.Visits visit) (hpos : 0 < ttl)
    (hreads : call.Reads ttl (received bytes).bytes header) :
    packetAction visit (received bytes) = .forward header next call.data := by
  have haway : ¬ checkDest visit.interfaces call.dst = true :=
    fun hdest => hsends.away (Node.owns_of_checkDest hvisit.interfaces hdest)
  obtain ⟨found, t, hsecond, rfl⟩ := hsends.found _ hvisit.second
  have hfind : FindNext visit.again visit.routes call.dst = some (found, t) := hsecond
  have hdata : ((received bytes).behind header.Len).bytes = call.data := hreads.data
  simp only [packetAction, hreads.valid, hreads.dst, hreads.ttl, if_neg haway, if_pos hpos, hfind,
    hdata]

namespace Network

variable {ι : Type*}

/-- After `n` more links the packet has crossed at most `links`, and its time to live suffices
for them. -/
structure InTime (links n ttl : ℕ) : Prop where
  suffices_ttl : n + 1 ≤ ttl
  ttl_le : ttl ≤ 16
  crossed : n + 17 ≤ ttl + links

inductive OnTrack (nodes : ι → Node) (call : Injection) (links n : ℕ) (item : InTransit ι) : Prop
  | channel (i : ι) (next : Addr) (udp : AddrPort) (ttl : ℕ) :
      item.place = .channel i next → (nodes i).neighborUDP next = some udp →
      Onward nodes call.dst n udp → call.Made ttl item.bytes → InTime links n ttl →
      OnTrack nodes call links n item
  | link (udp : AddrPort) (ttl : ℕ) : item.place = .link udp → Onward nodes call.dst n udp →
      call.Made ttl item.bytes → InTime links n ttl → OnTrack nodes call links n item

structure UnderWay (nodes : ι → Node) (o : ℕ) (call : Injection) (links : ℕ) (s : Network ι) :
    Prop where
  alive : ∀ i, s.nodes i = some (nodes i)
  present : ∃ item ∈ s.transit, item.origin = some o
  onTrack : ∀ item ∈ s.transit, item.origin = some o → ∃ n, OnTrack nodes call links n item

def SamePackets (o : ℕ) (s s' : Network ι) : Prop :=
  ∀ item : InTransit ι, item.origin = some o → (item ∈ s'.transit ↔ item ∈ s.transit)

section Same

variable {o k : ℕ} {s s' s'' : Network ι} {origin : Option ℕ}

theorem SamePackets.trans (h : SamePackets o s s') (h' : SamePackets o s' s'') :
    SamePackets o s s'' :=
  fun item hitem => (h' item hitem).trans (h item hitem)

theorem samePackets_of_transit (h : s'.transit = s.transit) : SamePackets o s s' :=
  fun item _ => by rw [h]

theorem mem_transit_iff {x : InTransit ι} (hx : s.transit[k]? = some x) (item : InTransit ι) :
    item ∈ s.transit ↔ item = x ∨ item ∈ (s.remove k).transit := by
  obtain ⟨hk, rfl⟩ := List.getElem?_eq_some_iff.mp hx
  rw [← (List.getElem_cons_eraseIdx_perm hk).mem_iff, List.mem_cons]
  rfl

theorem samePackets_remove {x : InTransit ι} (hx : s.transit[k]? = some x)
    (hne : x.origin ≠ some o) : SamePackets o s (s.remove k) := by
  intro item hitem
  rw [mem_transit_iff hx item, or_iff_right]
  rintro rfl
  exact hne hitem

theorem samePackets_put {items : List (InTransit ι)} (hitems : ∀ x ∈ items, x.origin ≠ some o)
    (sent : List ℕ) : SamePackets o s (s.put items sent) := by
  intro item hitem
  simp only [Network.put, List.mem_append, or_iff_left_iff_imp]
  exact fun hmem => absurd hitem (hitems item hmem)

/-- A packet that is sent on keeps its origin, and a new one has none. -/
theorem origin_of_mem_emit {i : ι} {effects : List Effect} {x : InTransit ι}
    (hx : x ∈ effects.flatMap (Effect.items i origin)) : x.origin = none ∨ x.origin = origin := by
  obtain ⟨effect, -, hx⟩ := List.mem_flatMap.mp hx
  cases effect with
  | passUp info => simp [Effect.items] at hx
  | send sent => exact Or.inl (by rw [List.mem_singleton.mp hx])
  | write udp packet => exact Or.inr (by rw [List.mem_singleton.mp hx])

theorem samePackets_emit (hne : origin ≠ some o) (i : ι) (effects : List Effect) :
    SamePackets o s (s.emit i origin effects) := by
  refine samePackets_put (fun x hx => ?_) _
  rcases origin_of_mem_emit hx with hnone | hsame
  · simp [hnone]
  · rwa [hsame]

variable [DecidableEq ι]

theorem samePackets_handle (hne : origin ≠ some o) (i : ι) (node : Node) (now : ℕ)
    (visit : Visit) (bytes : List UInt8) :
    SamePackets o s (s.handle i node now visit bytes origin) := by
  unfold Network.handle Network.settle
  simp only
  split
  · exact samePackets_of_transit rfl
  · exact (samePackets_of_transit rfl).trans (samePackets_emit hne i _)

theorem samePackets_inject (hne : s.injected.length ≠ o) (i : ι) (node : Node) (visit : Visit)
    (dst : Addr) (data : List UInt8) (protocolNum : ℕ) :
    SamePackets o s (s.inject i node visit dst data protocolNum) := by
  unfold Network.inject
  cases node.HandleSend visit dst data protocolNum with
  | error fault => exact samePackets_of_transit rfl
  | ok sent =>
    refine (samePackets_of_transit rfl).trans (samePackets_put (fun x hx => ?_) _)
    obtain ⟨y, -, rfl⟩ := List.mem_map.mp hx
    simpa using hne

end Same

theorem UnderWay.of_same {nodes : ι → Node} {o links : ℕ} {call : Injection} {s s' : Network ι}
    (h : UnderWay nodes o call links s) (hsame : SamePackets o s s') (hnodes : s'.nodes = s.nodes) :
    UnderWay nodes o call links s' where
  alive i := by rw [hnodes]; exact h.alive i
  present := by
    obtain ⟨item, hitem, horigin⟩ := h.present
    exact ⟨item, (hsame item horigin).mpr hitem, horigin⟩
  onTrack item hitem horigin := h.onTrack item ((hsame item horigin).mp hitem) horigin

/-- One packet of the call is replaced by another one that is on its way. -/
theorem UnderWay.replace {nodes : ι → Node} {o k links : ℕ} {call : Injection} {s s' : Network ι}
    {x y : InTransit ι} (h : UnderWay nodes o call links s) (hx : s.transit[k]? = some x)
    (hnodes : s'.nodes = s.nodes) (htransit : s'.transit = (s.remove k).transit ++ [y])
    (hy : y.origin = some o) {n : ℕ} (honTrack : OnTrack nodes call links n y) :
    UnderWay nodes o call links s' where
  alive i := by rw [hnodes]; exact h.alive i
  present := ⟨y, by rw [htransit]; exact List.mem_append_right _ (List.mem_singleton_self y), hy⟩
  onTrack item hitem horigin := by
    rw [htransit] at hitem
    rcases List.mem_append.mp hitem with hold | hnew
    · exact h.onTrack item ((mem_transit_iff hx item).mpr (Or.inr hold)) horigin
    · rw [List.mem_singleton.mp hnew]
      exact ⟨n, honTrack⟩

section Steps

variable [DecidableEq ι] {nodes : ι → Node} {o k links : ℕ} {call : Injection} {s s' : Network ι}
  {e : NetworkEvent ι}

/-- The network does not lose the packet, and the nodes stay as they are until it is handed
up. -/
structure Steady (o : ℕ) (s : Network ι) (e : NetworkEvent ι) : Prop where
  orderly : s.Orderly e
  kept : ∀ k item, e = .lose k → s.transit[k]? = some item → item.origin ≠ some o
  same : ∀ s', s.step e = some s' → s'.nodes = s.nodes ∨ 1 ≤ s'.timesHanded o

theorem steady_transmit (o : ℕ) (s : Network ι) (k : ℕ) : Steady o s (.transmit k) := by
  refine ⟨trivial, ?_, ?_⟩
  · intro k' item heq
    cases heq
  · intro s' hstep
    cases step_step hstep
    exact Or.inl rfl

@[simp] theorem handed_settle (i : ι) (origin : Option ℕ)
    (result : Except Fault (Node × List Effect)) :
    (s.settle i origin result).handed = s.handed := by
  cases result <;> rfl

theorem handed_step (h : Step s e s') : s.handed <+: s'.handed := by
  cases h with
  | inject visit dst data protocolNum =>
    unfold Network.inject
    simp only
    split <;> exact List.prefix_rfl
  | receive now visit =>
    unfold Network.handle
    simp only [handed_settle]
    exact List.prefix_append _ _
  | transmit | lose | reroute | other => exact List.prefix_rfl

theorem timesHanded_le (h : Step s e s') (o : ℕ) : s.timesHanded o ≤ s'.timesHanded o :=
  (handed_step h).sublist.countP_le

/-- The packet leaves the channel and is on the link. -/
theorem UnderWay.transmit (h : UnderWay nodes o call links s) {item : InTransit ι} {i : ι}
    {next : Addr} (hitem : s.transit[k]? = some item) (hplace : item.place = .channel i next)
    (horigin : item.origin = some o) {n : ℕ} (honTrack : OnTrack nodes call links n item) :
    ∃ s' y, s.step (.transmit k) = some s' ∧ s'.nodes = s.nodes ∧
      s'.transit = (s.remove k).transit ++ [y] ∧ y.origin = some o ∧
      (∃ udp, y.place = .link udp) ∧ OnTrack nodes call links n y := by
  obtain ⟨place, bytes, origin⟩ := item
  subst hplace
  subst horigin
  cases honTrack with
  | link udp ttl hplace => cases hplace
  | channel i' next' udp ttl hplace hudp honward hmade htime =>
    cases hplace
    refine ⟨(s.remove k).emit i (some o) ((nodes i).forwardPacket next bytes),
      ⟨.link udp, bytes, some o⟩, ?_, rfl, ?_, rfl, ⟨udp, rfl⟩,
      .link udp ttl rfl honward hmade htime⟩
    · simp only [Network.step, hitem, h.alive i, Option.map_some]
    · simp [Network.emit, Network.put, Node.forwardPacket, hudp, Effect.items]

/-- The packet reaches a node, which hands it up or sends it on. -/
theorem UnderWay.receive (h : UnderWay nodes o call links s) (hchecked : call.Checked links)
    (hsize : call.data.length ≤ 1380) {item : InTransit ι} {udp : AddrPort}
    (hitem : s.transit[k]? = some item) (hplace : item.place = .link udp)
    (horigin : item.origin = some o) {n : ℕ} (honTrack : OnTrack nodes call links n item) {j : ι}
    (hlistens : (nodes j).Listens udp) {visit : Visit} (hvisit : (nodes j).Visits visit)
    (now : ℕ) :
    ∃ s', s.step (.receive k j now visit) = some s' ∧ (1 ≤ s'.timesHanded o ∨
      ∃ m y, n = m + 1 ∧ s'.nodes = s.nodes ∧ s'.transit = (s.remove k).transit ++ [y] ∧
        y.origin = some o ∧ (∃ udp', y.place = .link udp') ∧ OnTrack nodes call links m y) := by
  obtain ⟨place, bytes, origin⟩ := item
  subst hplace
  subst horigin
  cases honTrack with
  | channel i next udp ttl hplace => cases hplace
  | link udp' ttl hplace honward hmade htime =>
    cases hplace
    obtain ⟨hlow, hhigh, hcrossed⟩ := htime
    obtain ⟨header, hreads⟩ := hmade.reads hchecked hsize (by omega) hhigh (by omega)
    refine ⟨(s.remove k).handle j (nodes j) now visit bytes (some o), ?_, ?_⟩
    · simp only [Network.step, hitem, h.alive j, if_pos hlistens]
    · cases honward.2 j hlistens with
      | here htakes =>
        refine Or.inl ?_
        unfold Network.handle timesHanded
        simp only [packetAction_takes htakes hvisit hreads, handed_settle, Action.handover,
          Network.hand]
        rw [List.countP_append, List.countP_singleton]
        simp
      | @hop m _ next udp' hsends hudp hexists hall =>
        refine Or.inr ⟨m, ?_⟩
        have hmake := hmade
        obtain ⟨hsrc, hdst⟩ := (Node.makePacket_ok_iff ..).mp ⟨_, hmake⟩
        obtain ⟨packet, hpacket⟩ := (Node.makePacket_ok_iff call.src call.dst
          (call.protocolNum % 256) (ttl - 1) call.data).mpr ⟨hsrc, hdst⟩
        refine ⟨⟨.link udp', packet, some o⟩, rfl, ?_, ?_, rfl, ⟨udp', rfl⟩,
          .link udp' (ttl - 1) rfl ⟨hexists, hall⟩ hpacket
            ⟨by omega, by omega, by omega⟩⟩
        · unfold Network.handle
          simp only [packetAction_sendsOn hsends hvisit (by omega) hreads, Node.perform,
            hreads.src, hreads.dst, hreads.protocolNum, hreads.ttl, hpacket, Network.settle]
          exact Function.update_eq_self_iff.mpr (h.alive j).symm
        · unfold Network.handle
          simp only [packetAction_sendsOn hsends hvisit (by omega) hreads, Node.perform,
            hreads.src, hreads.dst, hreads.protocolNum, hreads.ttl, hpacket, Network.settle]
          simp [Network.emit, Network.put, Network.setNode, Network.hand, Node.forwardPacket, hudp,
            Effect.items, Action.handover]

def Arriving (nodes : ι → Node) (o : ℕ) (call : Injection) (links : ℕ) (s : Network ι) : Prop :=
  o < s.injected.length ∧ (1 ≤ s.timesHanded o ∨ UnderWay nodes o call links s)

theorem Arriving.of_underWay (h : Arriving nodes o call links s) (hstep : Step s e s')
    (hunderWay : UnderWay nodes o call links s →
      1 ≤ s'.timesHanded o ∨ UnderWay nodes o call links s')
    (hinjected : s.injected.length ≤ s'.injected.length) : Arriving nodes o call links s' := by
  refine ⟨h.1.trans_le hinjected, ?_⟩
  rcases h.2 with hhanded | hway
  · exact Or.inl (hhanded.trans (timesHanded_le hstep o))
  · exact hunderWay hway

theorem injected_length_le (h : Step s e s') : s.injected.length ≤ s'.injected.length := by
  cases h with
  | inject visit dst data protocolNum => simp
  | receive now visit =>
    unfold Network.handle
    simp only [injected_settle]
    exact Nat.le_refl _
  | transmit | lose | reroute | other => exact Nat.le_refl _

/-- A step that is not one of the packet's own. -/
theorem UnderWay.other (h : UnderWay nodes o call links s) (hok : Steady o s e)
    (hstep : s.step e = some s') (hsame : SamePackets o s s') :
    1 ≤ s'.timesHanded o ∨ UnderWay nodes o call links s' := by
  rcases hok.same s' hstep with hnodes | hhanded
  · exact Or.inr (h.of_same hsame hnodes)
  · exact Or.inl hhanded

theorem UnderWay.step (h : UnderWay nodes o call links s) (ho : o < s.injected.length)
    (hchecked : call.Checked links) (hsize : call.data.length ≤ 1380) (hok : Steady o s e)
    (hstep : s.step e = some s') : 1 ≤ s'.timesHanded o ∨ UnderWay nodes o call links s' := by
  cases step_step hstep with
  | inject visit dst data protocolNum hnode =>
    exact h.other hok hstep (samePackets_inject (by omega) _ _ visit dst data protocolNum)
  | @transmit k i address bytes origin node hitem =>
    by_cases horigin : origin = some o
    · obtain ⟨n, honTrack⟩ := h.onTrack _ (List.mem_of_getElem? hitem) horigin
      obtain ⟨s₁, y, hnext, hnodes, htransit, hy, -, hy'⟩ := h.transmit hitem rfl horigin honTrack
      cases hstep.symm.trans hnext
      exact Or.inr (h.replace hitem hnodes htransit hy hy')
    · exact h.other hok hstep
        ((samePackets_remove hitem horigin).trans (samePackets_emit horigin i _))
  | @receive k j udp bytes origin node now visit hitem hnode =>
    obtain rfl : node = nodes j := Option.some.inj (hnode.symm.trans (h.alive j))
    by_cases horigin : origin = some o
    · obtain ⟨n, honTrack⟩ := h.onTrack _ (List.mem_of_getElem? hitem) horigin
      have hlistens : (nodes j).Listens udp := by
        by_contra hnot
        simp [Network.step, hitem, hnode, hnot] at hstep
      obtain ⟨s₁, hnext, hresult⟩ := h.receive hchecked hsize hitem rfl horigin honTrack hlistens
        (hok.orderly _ hnode) now
      cases hstep.symm.trans hnext
      refine hresult.imp id ?_
      rintro ⟨m, y, -, hnodes, htransit, hy, -, hy'⟩
      exact h.replace hitem hnodes htransit hy hy'
    · exact h.other hok hstep
        ((samePackets_remove hitem horigin).trans (samePackets_handle horigin j _ now visit bytes))
  | @lose k item hitem =>
    exact h.other hok hstep (samePackets_remove hitem (hok.kept k item rfl hitem))
  | reroute i table node => exact h.other hok hstep (samePackets_of_transit rfl)
  | other place bytes => exact h.other hok hstep (samePackets_put (by simp) [])

theorem Arriving.step (h : Arriving nodes o call links s) (hchecked : call.Checked links)
    (hsize : call.data.length ≤ 1380) (hok : Steady o s e) (hstep : s.step e = some s') :
    Arriving nodes o call links s' :=
  h.of_underWay (step_step hstep) (fun hway => hway.step h.1 hchecked hsize hok hstep)
    (injected_length_le (step_step hstep))

def LinkItem (nodes : ι → Node) (o : ℕ) (call : Injection) (links n : ℕ) (s : Network ι) : Prop :=
  ∃ item ∈ s.transit, item.origin = some o ∧ (∃ udp, item.place = .link udp) ∧
    OnTrack nodes call links n item

/-- Somebody can receive a packet on a link, and it then is nearer to its destination. -/
theorem UnderWay.next (h : UnderWay nodes o call links s) (hchecked : call.Checked links)
    (hsize : call.data.length ≤ 1380) {n : ℕ} (hlink : LinkItem nodes o call links n s) :
    ∃ e s', Steady o s e ∧ s.step e = some s' ∧ (1 ≤ s'.timesHanded o ∨
      ∃ m, n = m + 1 ∧ UnderWay nodes o call links s' ∧ LinkItem nodes o call links m s') := by
  obtain ⟨item, hmem, horigin, ⟨udp, hplace⟩, honTrack⟩ := hlink
  obtain ⟨k, hitem⟩ := List.getElem?_of_mem hmem
  have hlistener : ∃ j, (nodes j).Listens udp := by
    cases honTrack with
    | channel i next udp' ttl hchannel =>
      rw [hplace] at hchannel
      contradiction
    | link udp' ttl hlink honward =>
      rw [hplace] at hlink
      cases hlink
      exact honward.1
  obtain ⟨j, hlistens⟩ := hlistener
  obtain ⟨s', hstep, hresult⟩ := h.receive hchecked hsize hitem hplace horigin honTrack hlistens
    (nodes j).anyVisit_visits 0
  refine ⟨.receive k j 0 (nodes j).anyVisit, s', ⟨?_, ?_, ?_⟩, hstep, ?_⟩
  · intro node hnode
    obtain rfl := Option.some.inj ((h.alive j).symm.trans hnode)
    exact (nodes j).anyVisit_visits
  · intro k' item' heq
    cases heq
  · intro s'' hstep'
    cases hstep.symm.trans hstep'
    rcases hresult with hhanded | ⟨m, y, -, hnodes, -⟩
    · exact Or.inr hhanded
    · exact Or.inl hnodes
  · refine hresult.imp id ?_
    rintro ⟨m, y, hn, hnodes, htransit, hy, hlink, hy'⟩
    refine ⟨m, hn, h.replace hitem hnodes htransit hy hy', y, ?_, hy, hlink, hy'⟩
    rw [htransit]
    exact List.mem_append_right _ (List.mem_singleton_self y)

/-- From every link on the way the packet can be handed up. -/
theorem UnderWay.complete_link (h : UnderWay nodes o call links s) (hchecked : call.Checked links)
    (hsize : call.data.length ≤ 1380) {n : ℕ} (hlink : LinkItem nodes o call links n s) :
    ∃ s', Reach Network.step (Steady o) s s' ∧ 1 ≤ s'.timesHanded o := by
  induction n generalizing s with
  | zero =>
    obtain ⟨e, s', hok, hstep, hhanded | ⟨m, hm, -⟩⟩ := h.next hchecked hsize hlink
    · exact ⟨s', .tail e .refl hok hstep, hhanded⟩
    · omega
  | succ n ih =>
    obtain ⟨e, s', hok, hstep, hhanded | ⟨m, hm, hway, hlink'⟩⟩ := h.next hchecked hsize hlink
    · exact ⟨s', .tail e .refl hok hstep, hhanded⟩
    · obtain rfl : m = n := by omega
      obtain ⟨t, hreach, hhanded⟩ := ih hway hlink'
      exact ⟨t, (Reach.tail e .refl hok hstep).trans hreach, hhanded⟩

theorem UnderWay.complete (h : UnderWay nodes o call links s) (hchecked : call.Checked links)
    (hsize : call.data.length ≤ 1380) :
    ∃ s', Reach Network.step (Steady o) s s' ∧ 1 ≤ s'.timesHanded o := by
  obtain ⟨item, hmem, horigin⟩ := h.present
  obtain ⟨n, honTrack⟩ := h.onTrack item hmem horigin
  cases hplace : item.place with
  | link udp => exact h.complete_link hchecked hsize ⟨item, hmem, horigin, ⟨udp, hplace⟩, honTrack⟩
  | channel i next =>
    obtain ⟨k, hitem⟩ := List.getElem?_of_mem hmem
    obtain ⟨s', y, hstep, hnodes, htransit, hy, hlink, hy'⟩ :=
      h.transmit hitem hplace horigin honTrack
    have hway := h.replace hitem hnodes htransit hy hy'
    have hmem' : y ∈ s'.transit := by
      rw [htransit]
      exact List.mem_append_right _ (List.mem_singleton_self y)
    obtain ⟨t, hreach, hhanded⟩ := hway.complete_link hchecked hsize ⟨y, hmem', hy, hlink, hy'⟩
    exact ⟨t, (Reach.tail _ .refl (steady_transmit o s k) hstep).trans hreach, hhanded⟩

/-- HandleSend puts the packet on its way. -/
theorem underWay_inject {i : ι} {visit : Visit} {dst next : Addr} {udp : AddrPort}
    {data : List UInt8} {protocolNum n : ℕ} (halive : ∀ i, s.nodes i = some (nodes i))
    (hfresh : ∀ item ∈ s.transit, item.origin ≠ some s.injected.length)
    (hvisit : (nodes i).Visits visit) (hdeparts : Departs nodes dst n i next udp)
    (hdst : dst ≠ .zero) (hn : n + 1 ≤ 16) :
    UnderWay nodes s.injected.length ⟨(nodes i).source visit dst, dst, protocolNum, data⟩ (n + 1)
      (s.inject i (nodes i) visit dst data protocolNum) := by
  obtain ⟨hsends, hudp, hiface, honward⟩ := hdeparts
  obtain ⟨found, t, hfind, rfl⟩ := hsends.found visit hvisit
  obtain ⟨iface, hlookup⟩ := Option.isSome_iff_exists.mp (AList.lookup_isSome.mpr hiface)
  have hout : (nodes i).outgoing visit dst = some (iface, if t = .L then dst else found) := by
    simp only [Node.outgoing, hfind, hudp, hlookup, Option.map_some]
  have hsource : (nodes i).source visit dst = iface.AssignedIP := by
    simp only [Node.source, hout]
  obtain ⟨packet, hpacket⟩ := (Node.makePacket_ok_iff iface.AssignedIP dst protocolNum 16
    data).mpr ⟨by simp [InterfaceConfig.AssignedIP], hdst⟩
  have hmade : Injection.Made ⟨iface.AssignedIP, dst, protocolNum, data⟩ 16 packet :=
    Injection.made_of_makePacket hpacket
  have hsend := Node.handleSend_eq hvisit dst data protocolNum
  simp only [hout, hpacket] at hsend
  rw [hsource]
  unfold Network.inject
  rw [hsource, hsend]
  refine ⟨halive, ⟨_, List.mem_append_right _ List.mem_cons_self, rfl⟩, ?_⟩
  intro item hitem horigin
  rcases List.mem_append.mp hitem with hold | hnew
  · exact absurd horigin (hfresh item hold)
  · rw [List.map_singleton, List.mem_singleton] at hnew
    subst hnew
    exact ⟨n, .channel i _ udp 16 rfl hudp honward hmade ⟨hn, Nat.le_refl _, by omega⟩⟩

omit [DecidableEq ι] in
theorem one_le_packets {item : InTransit ι} (hitem : item ∈ s.transit)
    (horigin : item.origin = some o) :
    1 ≤ (s.transit.map (InTransit.ofCall o fun _ => 1)).sum := by
  obtain ⟨k, hk⟩ := List.getElem?_of_mem hitem
  have hsum := sum_map_eraseIdx (InTransit.ofCall o fun _ => 1) hk
  rw [InTransit.ofCall, if_pos horigin] at hsum
  omega

omit [DecidableEq ι] in
/-- Nothing has the number of a call that is still to come. -/
theorem Tracked.fresh (h : Tracked s o call 16 1) :
    ∀ item ∈ s.transit, item.origin ≠ some o := by
  intro item hitem horigin
  have hone := one_le_packets hitem horigin
  have hle := h.copies_le
  omega

omit [DecidableEq ι] in
/-- One packet of the call is left, or it was handed up once. -/
theorem Tracked.one_of_arriving (h : Tracked s o call 0 0)
    (harriving : 1 ≤ s.timesHanded o ∨ UnderWay nodes o call links s) :
    s.timesHanded o + (s.transit.map (InTransit.ofCall o fun _ => 1)).sum = 1 := by
  have hle := h.copies_le
  rcases harriving with hhanded | hway
  · omega
  · obtain ⟨item, hitem, horigin⟩ := hway.present
    have hone := one_le_packets hitem horigin
    omega

theorem arriving_reach (hchecked : call.Checked links) (hsize : call.data.length ≤ 1380)
    (h : Arriving nodes o call links s) (htracked : Tracked s o call 0 0)
    (hreach : Reach Network.step (Steady o) s s') :
    Arriving nodes o call links s' ∧ Tracked s' o call 0 0 := by
  refine hreach.invariant (fun s => Arriving nodes o call links s ∧ Tracked s o call 0 0)
    ⟨h, htracked⟩ ?_
  rintro s e s' ⟨harriving, htracked⟩ hok hstep
  exact ⟨harriving.step hchecked hsize hok hstep,
    htracked.step hsize hok.orderly (step_step hstep) (Or.inr (by have := harriving.1; omega))⟩

/-- The packet is in transit once or was handed up once, and it can be handed up. -/
structure Arrives (o : ℕ) (s : Network ι) : Prop where
  one : s.timesHanded o + (s.transit.map (InTransit.ofCall o fun _ => 1)).sum = 1
  possible : ∃ t, Reach Network.step (Steady o) s t ∧ t.timesHanded o = 1

/-- A packet that leaves along a route arrives. -/
theorem arrives_of_departs {first : ι → Node} (hreach : Reach step Orderly (start first) s)
    (halive : ∀ i, s.nodes i = some (nodes i)) {i : ι} {visit : Visit}
    (hvisit : (nodes i).Visits visit) {dst next : Addr} {udp : AddrPort} {data : List UInt8}
    {protocolNum n : ℕ} (hdeparts : Departs nodes dst n i next udp) (hdst : dst ≠ .zero)
    (hn : n + 1 ≤ 16) (hsize : data.length ≤ 1380)
    (hchecked : Injection.Checked (n + 1) ⟨(nodes i).source visit dst, dst, protocolNum, data⟩)
    (hrun : Reach step (Steady s.injected.length)
      (s.inject i (nodes i) visit dst data protocolNum) s') :
    Arrives s.injected.length s' := by
  have hconsistent : Consistent s := hreach.invariant Consistent (consistent_start first)
    fun _ _ _ h hok hstep => h.step hok hstep
  have hlater := hconsistent.later s.injected.length
    ⟨(nodes i).source visit dst, dst, protocolNum, data⟩ le_rfl hsize
  have hstart : Arriving nodes s.injected.length
      ⟨(nodes i).source visit dst, dst, protocolNum, data⟩ (n + 1)
      (s.inject i (nodes i) visit dst data protocolNum) :=
    ⟨by simp, Or.inr (underWay_inject halive hlater.fresh hvisit hdeparts hdst hn)⟩
  obtain ⟨harriving, htracked⟩ :=
    arriving_reach hchecked hsize hstart (.inject hvisit hlater i) hrun
  have hone := htracked.one_of_arriving harriving.2
  refine ⟨hone, ?_⟩
  rcases harriving.2 with hhanded | hway
  · exact ⟨s', .refl, by omega⟩
  · obtain ⟨t, hcomplete, hhanded⟩ := hway.complete hchecked hsize
    have hend := (arriving_reach hchecked hsize harriving htracked hcomplete).2.copies_le
    exact ⟨t, hcomplete, by omega⟩

/-- While the nodes stay as they are, a packet that HandleSend sends along a route of at most
sixteen links is dropped by no node: it is in transit or was handed up, once, and it can be
handed up from every state that is reached. -/
theorem routed_packet_arrives (first : ι → Node) (hreach : Reach step Orderly (start first) s)
    (nodes : ι → Node) (halive : ∀ i, s.nodes i = some (nodes i)) (i : ι) (visit : Visit)
    (hvisit : (nodes i).Visits visit) (dst : Addr) (data : List UInt8) (protocolNum n : ℕ)
    (hleads : Leads nodes dst n i) (hn : n ≤ 16) (haway : ¬ (nodes i).Owns dst)
    (hiface : ∀ next, (nodes i).SendsOn dst next →
      (nodes i).ifaceName next ∈ (nodes i).interfaces)
    (hdst : dst ≠ .zero) (hsize : data.length ≤ 1380)
    (hchecked : Injection.Checked n ⟨(nodes i).source visit dst, dst, protocolNum, data⟩)
    (hrun : Reach step (Steady s.injected.length)
      (s.inject i (nodes i) visit dst data protocolNum) s') :
    Arrives s.injected.length s' := by
  obtain ⟨m, next, udp, rfl, hdeparts⟩ := hleads.departs haway hiface
  exact arrives_of_departs hreach halive hvisit hdeparts hdst hn hsize hchecked hrun

end Steps

/-- A message that one host sends to the other one, on a link with other traffic. -/
theorem routed_packet_arrives_greeting :
    ∃ s : Network Bool, s.injected[0]? = some greeting ∧ s.timesHanded 0 = 1 ∧ Arrives 0 s := by
  let nodes : Bool → Node := fun i => bif i then peerConfig.node else hostConfig.node
  have hcanonical : Canonical hostConfig.node.forwardingTable := by
    refine (canonical_start_iff hostConfig).mpr fun pre hpre => ?_
    rcases AList.mem_insert _ |>.mp hpre with rfl | hempty
    · decide
    · exact absurd hempty (AList.notMem_empty pre)
  have hkeys : ∀ pre ∈ hostConfig.node.forwardingTable.keys, pre.bits ≤ 24 := by decide
  have hlocal : hostConfig.node.Matches (.v4 167772162) (.slash 167772160 24)
      ⟨.L, .v4 167772161, .slash 167772160 24, 0, 0⟩ := ⟨by decide, by decide⟩
  have hsends : (nodes false).SendsOn (.v4 167772162) (.v4 167772162) :=
    Node.sendsOn_of_longest hcanonical (by decide) hlocal fun pre' info' hmatch =>
      hkeys pre' (mem_keys_of_lookup hmatch.1)
  have hleads : Leads nodes (.v4 167772162) 1 false := by
    have hudp : (nodes false).neighborUDP (.v4 167772162) = some ⟨2130706433, 5001⟩ := by decide
    refine .hop hsends hudp ⟨true, by decide⟩ fun j hj => ?_
    cases j with
    | false => exact absurd hj (by decide)
    | true => exact .here (Node.OwnLongest.takes (by unfold Node.OwnLongest; decide) (by decide))
  have hchecked : Injection.Checked 1
      ⟨(nodes false).source hostVisit (.v4 167772162), .v4 167772162, 0, [104, 105]⟩ := by
    intro src dst hsrc hdst ttl hfirst hhigh
    cases hsrc
    cases hdst
    obtain rfl : ttl = 16 := by omega
    decide
  have hiface : ∀ next, (nodes false).SendsOn (.v4 167772162) next →
      (nodes false).ifaceName next ∈ (nodes false).interfaces := by
    intro next hnext
    obtain ⟨found, t, hfind, rfl⟩ := hnext.found _ (nodes false).anyVisit_visits
    obtain ⟨found', t', hfind', hnext'⟩ := hsends.found _ (nodes false).anyVisit_visits
    cases hfind.symm.trans hfind'
    rw [← hnext']
    decide
  have hbefore : Reach step Orderly (start nodes) _ :=
    .tail (.other (.link ⟨2130706433, 5001⟩) [1, 2, 3]) .refl trivial rfl
  have harrives := fun s (hrun : Reach _ _ _ s) => routed_packet_arrives nodes hbefore nodes
    (fun _ => rfl) false hostVisit ⟨.refl _, .refl _, .refl _⟩ (.v4 167772162) [104, 105] 0 1
    hleads (by decide) (by decide) hiface (by decide) (by decide) hchecked hrun
  -- the message can be handed up, and the theorem is about that run too
  obtain ⟨s, hrun, hhanded⟩ := (harrives _ .refl).possible
  refine ⟨s, ?_, hhanded, harrives s hrun⟩
  exact hrun.invariant (fun s => s.injected[0]? = some greeting) rfl
    fun _ _ _ hkept hok hstep => injected_kept hok.orderly hstep hkept

end Network

end IpTcp
