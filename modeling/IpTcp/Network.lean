import IpTcp.NextHop
import Mathlib.Algebra.BigOperators.Group.List.Basic

/-!
A network of nodes. Packets wait in the channels of interfaces or are under way on links;
a node that receives one delivers it, sends it on or drops it. Routes may change at any
time and in any way, and other traffic may appear anywhere. Every packet in transit that
comes from a call of HandleSend carries the number of that call. The times to live bound
what is left of its journey: what it was transmitted so far and what its time to live
still allows are sixteen at most.
-/
namespace IpTcp

open Rip BigEndian InternetChecksum Runs

/-- A call of HandleSend, with the source address that it chooses. -/
structure Injection where
  src : Addr
  dst : Addr
  protocolNum : ℕ
  data : List UInt8
  deriving DecidableEq, Repr

inductive Place (ι : Type*)
  | channel (i : ι) (address : Addr)
  | link (udp : AddrPort)

structure InTransit (ι : Type*) where
  place : Place ι
  bytes : List UInt8
  origin : Option ℕ

structure Handover where
  node : Node
  header : IPv4Header
  data : List UInt8
  origin : Option ℕ

/-- A node is `none` once its program has ended. What was injected, transmitted over a link
and handed to a handler is recorded. -/
structure Network (ι : Type*) where
  nodes : ι → Option Node
  transit : List (InTransit ι)
  injected : List Injection
  transmitted : List ℕ
  handed : List Handover

inductive NetworkEvent (ι : Type*)
  | inject (i : ι) (visit : Visit) (dst : Addr) (data : List UInt8) (protocolNum : ℕ)
  | transmit (k : ℕ)
  | receive (k : ℕ) (i : ι) (now : ℕ) (visit : Visit)
  | lose (k : ℕ)
  | reroute (i : ι) (table : Table Addr)
  | other (place : Place ι) (bytes : List UInt8)

namespace Node

def source (node : Node) (visit : Visit) (dst : Addr) : Addr :=
  match node.outgoing visit dst with
  | some (iface, _) => iface.AssignedIP
  | none => .zero

instance (node : Node) (visit : Visit) : Decidable (node.Visits visit) :=
  decidable_of_iff (visit.interfaces.Perm (node.interfaces.entries.map fun entry => entry.2) ∧
    visit.again.Perm (node.interfaces.entries.map fun entry => entry.2) ∧
    visit.routes.Perm (visited node.forwardingTable))
    ⟨fun h => ⟨h.1, h.2.1, h.2.2⟩, fun h => ⟨h.interfaces, h.again, h.routes⟩⟩

def Listens (node : Node) (udp : AddrPort) : Prop := ∃ iface ∈ node.ifaces, iface.UDPAddr = udp

instance (node : Node) (udp : AddrPort) : Decidable (node.Listens udp) :=
  inferInstanceAs (Decidable (∃ iface ∈ node.ifaces, iface.UDPAddr = udp))

end Node

section Effects

variable {ι : Type*}

/-- A packet that is sent on keeps its origin; one that a handler sends is a new one. -/
def Effect.items (i : ι) (origin : Option ℕ) : Effect → List (InTransit ι)
  | .passUp _ => []
  | .send sent => [⟨.channel i sent.address, sent.pack, none⟩]
  | .write udp packet => [⟨.link udp, packet, origin⟩]

def Effect.transmissions (origin : Option ℕ) : Effect → List ℕ
  | .passUp _ | .send _ => []
  | .write _ _ => origin.toList

/-- The handler that a packet is handed to is chosen by its protocol. -/
def Action.handover (node : Node) (origin : Option ℕ) : Action → List Handover
  | .deliver header message => [⟨node, header, message.bytes, origin⟩]
  | .drop | .forward _ _ _ => []

end Effects

namespace Network

variable {ι : Type*}

def start (nodes : ι → Node) : Network ι where
  nodes i := some (nodes i)
  transit := []
  injected := []
  transmitted := []
  handed := []

def remove (s : Network ι) (k : ℕ) : Network ι := { s with transit := s.transit.eraseIdx k }

def put (s : Network ι) (items : List (InTransit ι)) (sent : List ℕ) : Network ι :=
  { s with transit := s.transit ++ items, transmitted := s.transmitted ++ sent }

def emit (s : Network ι) (i : ι) (origin : Option ℕ) (effects : List Effect) : Network ι :=
  s.put (effects.flatMap (Effect.items i origin)) (effects.flatMap (Effect.transmissions origin))

def record (s : Network ι) (call : Injection) : Network ι :=
  { s with injected := s.injected ++ [call] }

def hand (s : Network ι) (handovers : List Handover) : Network ι :=
  { s with handed := s.handed ++ handovers }

variable [DecidableEq ι]

def setNode (s : Network ι) (i : ι) (node : Option Node) : Network ι :=
  { s with nodes := Function.update s.nodes i node }

def inject (s : Network ι) (i : ι) (node : Node) (visit : Visit) (dst : Addr)
    (data : List UInt8) (protocolNum : ℕ) : Network ι :=
  let s' := s.record ⟨node.source visit dst, dst, protocolNum, data⟩
  match node.HandleSend visit dst data protocolNum with
  | .error _ => s'.setNode i none
  | .ok sent =>
      s'.put (sent.map fun x => ⟨.channel i x.address, x.pack, some s.injected.length⟩) []

def settle (s : Network ι) (i : ι) (origin : Option ℕ) :
    Except Fault (Node × List Effect) → Network ι
  | .error _ => s.setNode i none
  | .ok (node, effects) => (s.setNode i (some node)).emit i origin effects

def handle (s : Network ι) (i : ι) (node : Node) (now : ℕ) (visit : Visit) (bytes : List UInt8)
    (origin : Option ℕ) : Network ι :=
  let action := packetAction visit (received bytes)
  (s.hand (action.handover node origin)).settle i origin (node.perform now action)

def step (s : Network ι) : NetworkEvent ι → Option (Network ι)
  | .inject i visit dst data protocolNum =>
      (s.nodes i).map fun node => s.inject i node visit dst data protocolNum
  | .transmit k =>
      match s.transit[k]? with
      | some ⟨.channel i address, bytes, origin⟩ => (s.nodes i).map fun node =>
          (s.remove k).emit i origin (node.forwardPacket address bytes)
      | _ => none
  | .receive k i now visit =>
      match s.transit[k]?, s.nodes i with
      | some ⟨.link udp, bytes, origin⟩, some node =>
          if node.Listens udp then some ((s.remove k).handle i node now visit bytes origin)
          else none
      | _, _ => none
  | .lose k => s.transit[k]?.map fun _ => s.remove k
  | .reroute i table =>
      some (s.setNode i ((s.nodes i).map fun node => { node with forwardingTable := table }))
  | .other place bytes => some (s.put [⟨place, bytes, none⟩] [])

def Orderly (s : Network ι) : NetworkEvent ι → Prop
  | .inject i visit _ _ _ | .receive _ i _ visit => ∀ node ∈ s.nodes i, node.Visits visit
  | .transmit _ | .lose _ | .reroute _ _ | .other _ _ => True

instance (s : Network ι) (e : NetworkEvent ι) : Decidable (s.Orderly e) :=
  match e with
  | .inject i visit _ _ _ | .receive _ i _ visit =>
      inferInstanceAs (Decidable (∀ node ∈ s.nodes i, node.Visits visit))
  | .transmit _ | .lose _ | .reroute _ _ | .other _ _ => .isTrue trivial

end Network

/-- The bytes are a packet of the call with the given time to live. The header has one byte
for the protocol number. -/
def Injection.Carried (call : Injection) (ttl : ℕ) (bytes : List UInt8) : Prop :=
  ∃ src dst check, call.src = .v4 src ∧ call.dst = .v4 dst ∧ check ≤ maxWord ∧
    bytes = (builtHeader (.v4 src) (.v4 dst) (call.protocolNum % 256) ttl call.data.length
      check).bytes ++ call.data

theorem makePacket_mod (src dst : UInt32) (protocolNum ttl : ℕ) (data : List UInt8) :
    makePacket (.v4 src) (.v4 dst) (protocolNum % 256) ttl data =
      makePacket (.v4 src) (.v4 dst) protocolNum ttl data := by
  have hput : put 1 (protocolNum % 256) = put 1 protocolNum := put_mod 1 protocolNum
  simp [makePacket_eq, builtHeader, IPv4Header.bytes, hput]

namespace Injection

variable {call : Injection} {ttl : ℕ} {bytes : List UInt8}

theorem carried_of_makePacket {protocolNum : ℕ}
    (hproto : protocolNum % 256 = call.protocolNum % 256)
    (h : makePacket call.src call.dst protocolNum ttl call.data = .ok bytes) :
    call.Carried ttl bytes := by
  obtain ⟨hsrc, hdst⟩ := (Node.makePacket_ok_iff ..).mp ⟨bytes, h⟩
  unfold Carried
  cases hs : call.src with
  | zero => exact absurd hs hsrc
  | v4 src =>
    cases hd : call.dst with
    | zero => exact absurd hd hdst
    | v4 dst =>
      rw [hs, hd, ← makePacket_mod, hproto, makePacket_eq, Except.ok.injEq] at h
      exact ⟨src, dst, _, rfl, rfl, Nat.sub_le _ _, h.symm⟩

theorem Carried.field_ttl (h : call.Carried ttl bytes) (httl : ttl ≤ 16) :
    field bytes 8 1 = ttl := by
  obtain ⟨src, dst, check, -, -, -, rfl⟩ := h
  simp [builtHeader, IPv4Header.bytes]
  omega

/-- What a node reads from a packet of the call. -/
theorem Carried.valid (h : call.Carried ttl bytes) (httl : ttl ≤ 16)
    (hsize : call.data.length ≤ 1380) {header : IPv4Header}
    (hvalid : validHeader (received bytes).bytes = some header) :
    header.Src = call.src ∧ header.Dst = call.dst ∧
      header.Protocol = call.protocolNum % 256 ∧ header.TTL = ttl - 1 ∧
      (received bytes).bytes.drop header.Len = call.data := by
  obtain ⟨src, dst, check, hsrc, hdst, hcheck, rfl⟩ := h
  have hproto : call.protocolNum % 256 < 256 := Nat.mod_lt _ (by decide)
  rw [received_built hsize] at hvalid ⊢
  have hparse : IPv4Header.Parse ((builtHeader (.v4 src) (.v4 dst) (call.protocolNum % 256) ttl
      call.data.length check).bytes ++ call.data) = .ok _ :=
    parse_built hproto (by omega) hsize hcheck
  obtain ⟨-, -, -, -, rfl⟩ := validHeader_eq_some hvalid
  rw [← (IPv4Header.parse_eq_ok_iff.mp hparse).2.2]
  exact ⟨hsrc.symm, hdst.symm, rfl, rfl, List.drop_left' (length_built ..)⟩

end Injection

/-- HandleSend makes one packet at most. -/
theorem Node.handleSend_source {node : Node} {visit : Visit} (hvisit : node.Visits visit)
    {dst : Addr} {data : List UInt8} {protocolNum : ℕ} {sent : List Sent}
    (h : node.HandleSend visit dst data protocolNum = .ok sent) :
    sent = [] ∨ ∃ x, sent = [x] ∧
      makePacket (node.source visit dst) dst protocolNum 16 data = .ok x.pack := by
  rw [handleSend_eq hvisit] at h
  unfold source
  cases hout : node.outgoing visit dst with
  | none =>
    rw [hout] at h
    cases h
    exact .inl rfl
  | some out =>
    simp only [hout] at h ⊢
    cases hmake : makePacket out.1.AssignedIP dst protocolNum 16 data with
    | error fault => simp [hmake] at h
    | ok packet =>
      rw [hmake] at h
      cases h
      exact .inr ⟨_, rfl, rfl⟩

theorem sum_map_eraseIdx {α : Type*} (f : α → ℕ) {l : List α} {k : ℕ} {x : α}
    (h : l[k]? = some x) : ((l.eraseIdx k).map f).sum + f x = (l.map f).sum := by
  obtain ⟨hk, rfl⟩ := List.getElem?_eq_some_iff.mp h
  have hperm := (List.getElem_cons_eraseIdx_perm hk).map f
  rw [← hperm.sum_eq, List.map_cons, List.sum_cons, Nat.add_comm]

namespace InTransit

variable {ι : Type*}

/-- How often a packet can still be transmitted. -/
def hopsLeft (item : InTransit ι) : ℕ :=
  match item.place with
  | .channel _ _ => field item.bytes 8 1
  | .link _ => field item.bytes 8 1 - 1

def ofCall (o : ℕ) (quantity : InTransit ι → ℕ) (item : InTransit ι) : ℕ :=
  if item.origin = some o then quantity item else 0

theorem sum_ofCall_eq_zero {o : ℕ} {items : List (InTransit ι)}
    (h : ∀ item ∈ items, item.origin ≠ some o) (quantity : InTransit ι → ℕ) :
    (items.map (ofCall o quantity)).sum = 0 := by
  refine List.sum_eq_zero fun n hn => ?_
  obtain ⟨item, hitem, rfl⟩ := List.mem_map.mp hn
  exact if_neg (h item hitem)

end InTransit

structure Handover.Proper (call : Injection) (handover : Handover) : Prop where
  owns : handover.node.Owns handover.header.Dst
  src : handover.header.Src = call.src
  dst : handover.header.Dst = call.dst
  protocolNum : handover.header.Protocol = call.protocolNum % 256
  data : handover.data = call.data

namespace Network

open InTransit

variable {ι : Type*}

def timesHanded (s : Network ι) (o : ℕ) : ℕ :=
  s.handed.countP fun handover => handover.origin = some o

/-- The call keeps to its limits, with so many transmissions and so many packets left. -/
structure Tracked (s : Network ι) (o : ℕ) (call : Injection) (hops copies : ℕ) : Prop where
  hops_le : s.transmitted.count o + (s.transit.map (ofCall o hopsLeft)).sum + hops ≤ 16
  copies_le : s.timesHanded o + (s.transit.map (ofCall o fun _ => 1)).sum + copies ≤ 1
  carried : ∀ item ∈ s.transit, item.origin = some o →
    ∃ ttl, 1 ≤ ttl ∧ ttl ≤ 16 ∧ call.Carried ttl item.bytes
  proper : ∀ handover ∈ s.handed, handover.origin = some o → handover.Proper call

namespace Tracked

variable {s s' : Network ι} {o hops copies k : ℕ} {call : Injection} {origin : Option ℕ}

theorem congr (h : Tracked s o call hops copies) (htransit : s'.transit = s.transit)
    (htransmitted : s'.transmitted = s.transmitted) (hhanded : s'.handed = s.handed) :
    Tracked s' o call hops copies := by
  obtain ⟨hhops, hcopies, hcarried, hproper⟩ := h
  constructor <;> simpa only [timesHanded, htransit, htransmitted, hhanded]

theorem mono {hops' copies' : ℕ} (h : Tracked s o call hops copies) (hle : hops' ≤ hops)
    (hle' : copies' ≤ copies) : Tracked s o call hops' copies' :=
  ⟨by have := h.hops_le; omega, by have := h.copies_le; omega, h.carried, h.proper⟩

/-- A packet that is taken away leaves its transmissions to others. -/
theorem remove {item : InTransit ι} (h : Tracked s o call hops copies)
    (hitem : s.transit[k]? = some item) :
    Tracked (s.remove k) o call (hops + ofCall o hopsLeft item)
      (copies + ofCall o (fun _ => 1) item) where
  hops_le := by
    have hsum := sum_map_eraseIdx (ofCall o hopsLeft) hitem
    have := h.hops_le
    simp only [Network.remove]
    omega
  copies_le := by
    have hsum := sum_map_eraseIdx (ofCall o fun _ => 1) hitem
    have := h.copies_le
    simp only [Network.remove, timesHanded] at this ⊢
    omega
  carried := fun item' hitem' => h.carried item' (List.mem_of_mem_eraseIdx hitem')
  proper := h.proper

/-- Packets of other origins do not count. -/
theorem others (h : Tracked s o call hops copies) {items : List (InTransit ι)}
    (hitems : ∀ item ∈ items, item.origin ≠ some o) {sent : List ℕ} (hsent : o ∉ sent) :
    Tracked (s.put items sent) o call hops copies where
  hops_le := by
    simpa [Network.put, sum_ofCall_eq_zero hitems, List.count_eq_zero.mpr hsent] using h.hops_le
  copies_le := by
    simpa [Network.put, timesHanded, sum_ofCall_eq_zero hitems] using h.copies_le
  carried := by
    intro item hitem horigin
    rcases List.mem_append.mp hitem with hitem | hitem
    · exact h.carried item hitem horigin
    · exact absurd horigin (hitems item hitem)
  proper := h.proper

/-- A new packet of the call uses up what is left to it. -/
theorem add (item : InTransit ι) (sent : List ℕ) {ttl : ℕ}
    (h : Tracked s o call (hops + (sent.count o + item.hopsLeft)) (copies + 1))
    (hcarried : call.Carried ttl item.bytes) (hpos : 1 ≤ ttl) (httl : ttl ≤ 16)
    (horigin : item.origin = some o) :
    Tracked (s.put [item] sent) o call hops copies where
  hops_le := by
    have := h.hops_le
    simp only [Network.put, List.map_append, List.map_singleton, List.sum_append,
      List.sum_singleton, List.count_append,
      show ofCall o hopsLeft item = item.hopsLeft from if_pos horigin]
    omega
  copies_le := by
    have := h.copies_le
    simp only [Network.put, timesHanded, List.map_append, List.map_singleton, List.sum_append,
      List.sum_singleton, show ofCall o (fun _ => 1) item = 1 from if_pos horigin] at this ⊢
    omega
  carried := by
    intro item' hitem' horigin'
    rcases List.mem_append.mp hitem' with hitem' | hitem'
    · exact h.carried item' hitem' horigin'
    · rw [List.mem_singleton.mp hitem']
      exact ⟨ttl, hpos, httl, hcarried⟩
  proper := h.proper

/-- Only a packet that is sent on has the origin of the packet that came. -/
theorem emit_of_ne (h : Tracked s o call hops copies) (i : ι) {effects : List Effect}
    (hne : ∀ udp packet, Effect.write udp packet ∈ effects → origin ≠ some o) :
    Tracked (s.emit i origin effects) o call hops copies := by
  refine h.others ?_ ?_
  · intro item hitem
    obtain ⟨effect, heffect, hitem⟩ := List.mem_flatMap.mp hitem
    cases effect with
    | passUp info => simp [Effect.items] at hitem
    | send sent =>
      rw [List.mem_singleton.mp hitem]
      simp
    | write udp packet =>
      rw [List.mem_singleton.mp hitem]
      exact hne udp packet heffect
  · intro hmem
    obtain ⟨effect, heffect, hmem⟩ := List.mem_flatMap.mp hmem
    cases effect with
    | passUp info => simp [Effect.transmissions] at hmem
    | send sent => simp [Effect.transmissions] at hmem
    | write udp packet => exact hne udp packet heffect (by simpa [Effect.transmissions] using hmem)

/-- Sending a packet on is one transmission, and its time to live bounds the others. -/
theorem forwardPacket {ttl : ℕ} {bytes : List UInt8}
    (h : Tracked s o call (hops + ttl) (copies + 1)) (hcarried : call.Carried ttl bytes)
    (hpos : 1 ≤ ttl) (httl : ttl ≤ 16) (i : ι) (node : Node) (next : Addr) :
    Tracked (s.emit i (some o) (node.forwardPacket next bytes)) o call hops copies := by
  unfold Node.forwardPacket
  cases node.neighborUDP next with
  | none => exact (h.mono (by omega) (by omega)).emit_of_ne i (by simp)
  | some udp =>
    have hleft : (⟨.link udp, bytes, some o⟩ : InTransit ι).hopsLeft = ttl - 1 := by
      simp only [hopsLeft, hcarried.field_ttl httl]
    refine add ⟨.link udp, bytes, some o⟩ [o] (h.mono ?_ le_rfl) hcarried hpos httl rfl
    rw [hleft, List.count_singleton_self]
    omega

theorem hand_of_ne (h : Tracked s o call hops copies) {handovers : List Handover}
    (hne : ∀ handover ∈ handovers, handover.origin ≠ some o) :
    Tracked (s.hand handovers) o call hops copies where
  hops_le := h.hops_le
  copies_le := by
    have hcount : handovers.countP (fun handover => handover.origin = some o) = 0 :=
      List.countP_eq_zero.mpr fun handover hmem => by simpa using hne handover hmem
    simpa [timesHanded, Network.hand, hcount] using h.copies_le
  carried := h.carried
  proper := by
    intro handover hmem horigin
    rcases List.mem_append.mp hmem with hmem | hmem
    · exact h.proper handover hmem horigin
    · exact absurd horigin (hne handover hmem)

theorem hand_proper {handover : Handover} (h : Tracked s o call hops (copies + 1))
    (hproper : handover.Proper call) : Tracked (s.hand [handover]) o call hops copies where
  hops_le := h.hops_le
  copies_le := by
    have hcount := List.countP_le_length
      (p := fun handover : Handover => decide (handover.origin = some o)) (l := [handover])
    have := h.copies_le
    simp only [timesHanded, Network.hand, List.countP_append, List.length_singleton]
      at this hcount ⊢
    omega
  carried := h.carried
  proper := by
    intro handover' hmem horigin
    rcases List.mem_append.mp hmem with hmem | hmem
    · exact h.proper handover' hmem horigin
    · rwa [List.mem_singleton.mp hmem]

theorem setNode [DecidableEq ι] (h : Tracked s o call hops copies) (i : ι) (node : Option Node) :
    Tracked (s.setNode i node) o call hops copies := h.congr rfl rfl rfl

theorem settle_of_ne [DecidableEq ι] (h : Tracked s o call hops copies) (i : ι)
    {result : Except Fault (Node × List Effect)}
    (hne : ∀ node effects, result = .ok (node, effects) →
      ∀ udp packet, Effect.write udp packet ∈ effects → origin ≠ some o) :
    Tracked (s.settle i origin result) o call hops copies := by
  cases result with
  | error fault => exact h.setNode i none
  | ok result => exact (h.setNode i _).emit_of_ne i (hne result.1 result.2 rfl)

/-- What becomes of a packet of the call is one of three: it is dropped, it is handed up and
is what was injected, or it is sent on with a smaller time to live. -/
theorem handle [DecidableEq ι] {bytes : List UInt8} {ttl : ℕ}
    (h : Tracked s o call (hops + (ttl - 1)) (copies + 1)) (hsize : call.data.length ≤ 1380)
    (hcarried : call.Carried ttl bytes) (httl : ttl ≤ 16) {node : Node} {visit : Visit}
    (hvisit : node.Visits visit) (i : ι) (now : ℕ) :
    Tracked (s.handle i node now visit bytes (some o)) o call hops copies := by
  unfold Network.handle
  cases haction : packetAction visit (received bytes) with
  | drop =>
    refine ((h.mono (by omega) (by omega)).hand_of_ne (by simp [Action.handover])).settle_of_ne i ?_
    intro node' effects hperform udp packet hwrite
    obtain ⟨_, _, _, hforward, -⟩ := Node.perform_write hperform hwrite
    contradiction
  | deliver header message =>
    obtain ⟨hvalid, hdest, rfl⟩ := packetAction_deliver haction
    obtain ⟨hsrc, hdst, hproto, -, hdata⟩ := hcarried.valid httl hsize hvalid
    refine ((h.mono (by omega) le_rfl).hand_proper ?_).settle_of_ne i ?_
    · exact ⟨Node.owns_of_checkDest hvisit.interfaces hdest, hsrc, hdst, hproto, hdata⟩
    · intro node' effects hperform udp packet hwrite
      obtain ⟨_, _, _, hforward, -⟩ := Node.perform_write hperform hwrite
      contradiction
  | forward header next data =>
    obtain ⟨hvalid, -, hpos, rfl, -⟩ := packetAction_forward haction
    obtain ⟨hsrc, hdst, hproto, httl', hdata⟩ := hcarried.valid httl hsize hvalid
    have hhand : Tracked (s.hand []) o call (hops + (ttl - 1)) (copies + 1) :=
      h.hand_of_ne (by simp)
    simp only [Action.handover, Node.perform, hsrc, hdst, hproto, httl', hdata]
    cases hmake : makePacket call.src call.dst (call.protocolNum % 256) (ttl - 1) call.data with
    | error fault => exact (hhand.mono (by omega) (by omega)).setNode i none
    | ok packet =>
      exact (hhand.setNode i (some node)).forwardPacket
        (Injection.carried_of_makePacket (Nat.mod_mod _ _) hmake) (by omega) (by omega) i node next

/-- Packets of other origins may do what they like. -/
theorem handle_of_ne [DecidableEq ι] (h : Tracked s o call hops copies) (hne : origin ≠ some o)
    (i : ι) (node : Node) (now : ℕ) (visit : Visit) (bytes : List UInt8) :
    Tracked (s.handle i node now visit bytes origin) o call hops copies := by
  refine (h.hand_of_ne fun handover hmem => ?_).settle_of_ne i fun _ _ _ _ _ _ => hne
  cases haction : packetAction visit (received bytes) with
  | drop | forward _ _ _ => simp [haction, Action.handover] at hmem
  | deliver header message =>
    rw [haction] at hmem
    rwa [List.mem_singleton.mp hmem]

theorem record (h : Tracked s o call hops copies) (call' : Injection) :
    Tracked (s.record call') o call hops copies := h.congr rfl rfl rfl

/-- Another call has another number. -/
theorem inject_of_ne [DecidableEq ι] (h : Tracked s o call hops copies)
    (hne : s.injected.length ≠ o) (i : ι) (node : Node) (visit : Visit) (dst : Addr)
    (data : List UInt8) (protocolNum : ℕ) :
    Tracked (s.inject i node visit dst data protocolNum) o call hops copies := by
  unfold Network.inject
  cases node.HandleSend visit dst data protocolNum with
  | error fault => exact (h.record _).setNode i none
  | ok sent =>
    refine (h.record _).others (fun item hitem => ?_) (by simp)
    obtain ⟨x, -, rfl⟩ := List.mem_map.mp hitem
    simpa using hne

/-- The packet of a new call may be transmitted sixteen times. -/
theorem inject [DecidableEq ι] {node : Node} {visit : Visit} (hvisit : node.Visits visit)
    {dst : Addr} {data : List UInt8} {protocolNum : ℕ}
    (h : Tracked s s.injected.length ⟨node.source visit dst, dst, protocolNum, data⟩ 16 1)
    (i : ι) :
    Tracked (s.inject i node visit dst data protocolNum) s.injected.length
      ⟨node.source visit dst, dst, protocolNum, data⟩ 0 0 := by
  have hless : Tracked s s.injected.length _ 0 0 := h.mono (by omega) (by omega)
  unfold Network.inject
  cases hsend : node.HandleSend visit dst data protocolNum with
  | error fault => exact (hless.record _).setNode i none
  | ok sent =>
    rcases Node.handleSend_source hvisit hsend with rfl | ⟨x, rfl, hmake⟩
    · exact (hless.record _).others (by simp) (by simp)
    · have hcarried : Injection.Carried ⟨node.source visit dst, dst, protocolNum, data⟩ 16 x.pack :=
        Injection.carried_of_makePacket rfl hmake
      refine add ⟨.channel i x.address, x.pack, some s.injected.length⟩ []
        ((h.record _).mono ?_ le_rfl) hcarried (by decide) le_rfl rfl
      simp [hopsLeft, hcarried.field_ttl le_rfl]

end Tracked

section Steps

variable [DecidableEq ι] {s s' : Network ι} {e : NetworkEvent ι} {o hops copies : ℕ}
  {call : Injection}

@[simp] theorem injected_settle (i : ι) (origin : Option ℕ)
    (result : Except Fault (Node × List Effect)) :
    (s.settle i origin result).injected = s.injected := by
  cases result <;> rfl

@[simp] theorem injected_inject (i : ι) (node : Node) (visit : Visit) (dst : Addr)
    (data : List UInt8) (protocolNum : ℕ) :
    (s.inject i node visit dst data protocolNum).injected =
      s.injected ++ [⟨node.source visit dst, dst, protocolNum, data⟩] := by
  unfold Network.inject
  cases node.HandleSend visit dst data protocolNum <;> rfl

/-- What a step can be: a call of HandleSend; a packet that leaves a channel, reaches a node
or is lost; new routes; other traffic. -/
inductive Step (s : Network ι) : NetworkEvent ι → Network ι → Prop
  | inject {i : ι} {node : Node} (visit : Visit) (dst : Addr) (data : List UInt8)
      (protocolNum : ℕ) : s.nodes i = some node →
      Step s (.inject i visit dst data protocolNum) (s.inject i node visit dst data protocolNum)
  | transmit {k : ℕ} {i : ι} {address : Addr} {bytes : List UInt8} {origin : Option ℕ}
      (node : Node) : s.transit[k]? = some ⟨.channel i address, bytes, origin⟩ →
      Step s (.transmit k) ((s.remove k).emit i origin (node.forwardPacket address bytes))
  | receive {k : ℕ} {i : ι} {udp : AddrPort} {bytes : List UInt8} {origin : Option ℕ}
      {node : Node} (now : ℕ) (visit : Visit) :
      s.transit[k]? = some ⟨.link udp, bytes, origin⟩ → s.nodes i = some node →
      Step s (.receive k i now visit) ((s.remove k).handle i node now visit bytes origin)
  | lose {k : ℕ} {item : InTransit ι} : s.transit[k]? = some item → Step s (.lose k) (s.remove k)
  | reroute (i : ι) (table : Table Addr) (node : Option Node) :
      Step s (.reroute i table) (s.setNode i node)
  | other (place : Place ι) (bytes : List UInt8) :
      Step s (.other place bytes) (s.put [⟨place, bytes, none⟩] [])

theorem step_step (h : s.step e = some s') : Step s e s' := by
  cases e with
  | inject i visit dst data protocolNum =>
    obtain ⟨node, hnode, rfl⟩ := Option.map_eq_some_iff.mp h
    exact .inject visit dst data protocolNum hnode
  | transmit k =>
    simp only [step] at h
    split at h
    · next i address bytes origin hitem =>
      obtain ⟨node, -, rfl⟩ := Option.map_eq_some_iff.mp h
      exact .transmit node hitem
    · contradiction
  | receive k i now visit =>
    simp only [step] at h
    split at h
    · next udp bytes origin node hitem hnode =>
      split at h
      · cases h
        exact .receive now visit hitem hnode
      · contradiction
    · contradiction
  | lose k =>
    obtain ⟨item, hitem, rfl⟩ := Option.map_eq_some_iff.mp h
    exact .lose hitem
  | reroute i table =>
    cases h
    exact .reroute i table _
  | other place bytes =>
    cases h
    exact .other place bytes

/-- A step keeps what is known of every call but a new one. -/
theorem Tracked.step (h : Tracked s o call hops copies) (hsize : call.data.length ≤ 1380)
    (hok : s.Orderly e) (hstep : Step s e s')
    (hne : s'.injected = s.injected ∨ s.injected.length ≠ o) :
    Tracked s' o call hops copies := by
  cases hstep with
  | inject visit dst data protocolNum hnode =>
    exact h.inject_of_ne (hne.resolve_left (by simp)) _ _ visit dst data protocolNum
  | @transmit k i address bytes origin node hitem =>
    have hremove := h.remove hitem
    by_cases horigin : origin = some o
    · subst horigin
      obtain ⟨ttl, hpos, httl, hcarried⟩ := h.carried _ (List.mem_of_getElem? hitem) rfl
      simp only [ofCall, hopsLeft, hcarried.field_ttl httl, if_true] at hremove
      exact hremove.forwardPacket hcarried hpos httl i node address
    · exact (hremove.mono (Nat.le_add_right ..) (Nat.le_add_right ..)).emit_of_ne i
        fun _ _ _ => horigin
  | @receive k i udp bytes origin node now visit hitem hnode =>
    have hremove := h.remove hitem
    by_cases horigin : origin = some o
    · subst horigin
      obtain ⟨ttl, hpos, httl, hcarried⟩ := h.carried _ (List.mem_of_getElem? hitem) rfl
      simp only [ofCall, hopsLeft, hcarried.field_ttl httl, if_true] at hremove
      exact hremove.handle hsize hcarried httl (hok node hnode) i now
    · exact (hremove.mono (Nat.le_add_right ..) (Nat.le_add_right ..)).handle_of_ne horigin i
        node now visit bytes
  | lose hitem => exact (h.remove hitem).mono (Nat.le_add_right ..) (Nat.le_add_right ..)
  | reroute i table node => exact h.setNode i node
  | other place bytes => exact h.others (by simp) (by simp)

/-- Only a call of HandleSend adds to the calls. -/
theorem injected_step (hok : s.Orderly e) (h : Step s e s') :
    s'.injected = s.injected ∨ ∃ i node visit dst data protocolNum, node.Visits visit ∧
      s' = s.inject i node visit dst data protocolNum := by
  cases h with
  | inject visit dst data protocolNum hnode =>
    exact .inr ⟨_, _, visit, dst, data, protocolNum, hok _ hnode, rfl⟩
  | receive now visit hitem hnode => exact .inl (injected_settle ..)
  | transmit | lose | reroute | other => exact .inl rfl

/-- What was injected stays injected. -/
theorem injected_kept (hok : s.Orderly e) (hstep : s.step e = some s')
    (hcall : s.injected[o]? = some call) : s'.injected[o]? = some call := by
  rcases injected_step hok (step_step hstep) with hsame | ⟨i, node, visit, dst, data, n, -, rfl⟩
  · rw [hsame]
    exact hcall
  · have hlt := (List.getElem?_eq_some_iff.mp hcall).1
    rw [injected_inject, List.getElem?_append_left hlt]
    exact hcall

structure Consistent (s : Network ι) : Prop where
  calls : ∀ o call, s.injected[o]? = some call → call.data.length ≤ 1380 → Tracked s o call 0 0
  later : ∀ o call, s.injected.length ≤ o → call.data.length ≤ 1380 → Tracked s o call 16 1

omit [DecidableEq ι] in
theorem consistent_start (nodes : ι → Node) : Consistent (start nodes) := by
  refine ⟨fun o call hcall => by simp [start] at hcall, fun o call _ _ => ?_⟩
  constructor <;> simp [start, timesHanded]

theorem Consistent.step (h : Consistent s) (hok : s.Orderly e) (hstep : s.step e = some s') :
    Consistent s' := by
  have hstep := step_step hstep
  rcases injected_step hok hstep with hsame | ⟨i, node, visit, dst, data, protocolNum, hvisit, rfl⟩
  · refine ⟨fun o call hcall hsize => ?_, fun o call ho hsize => ?_⟩
    · exact (h.calls o call (hsame ▸ hcall) hsize).step hsize hok hstep (.inl hsame)
    · exact (h.later o call (hsame ▸ ho) hsize).step hsize hok hstep (.inl hsame)
  · refine ⟨fun o call hcall hsize => ?_, fun o call ho hsize => ?_⟩
    · rw [injected_inject, List.getElem?_append] at hcall
      split at hcall
      · next ho => exact (h.calls o call hcall hsize).step hsize hok hstep (.inr (by omega))
      · -- the call is the new one
        obtain ⟨hlt, rfl⟩ := List.getElem?_eq_some_iff.mp hcall
        obtain rfl : o = s.injected.length := by
          rw [List.length_singleton] at hlt
          omega
        simp only [List.getElem_singleton] at hsize ⊢
        exact .inject hvisit (h.later _ _ le_rfl hsize) i
    · rw [injected_inject, List.length_append, List.length_singleton] at ho
      exact (h.later o call (by omega) hsize).step hsize hok hstep (.inr (by omega))

/-- Packets do not circulate. In every run, whatever routes the nodes have at any time, a
packet of at most 1380 bytes is transmitted sixteen times at most. It is handed to a
handler once at most, at a node that owns its destination and as it was injected. -/
theorem packets_do_not_circulate (nodes : ι → Node)
    (hreach : Reach step Orderly (start nodes) s) (hcall : s.injected[o]? = some call)
    (hsize : call.data.length ≤ 1380) :
    s.transmitted.count o ≤ 16 ∧ s.timesHanded o ≤ 1 ∧
      ∀ handover ∈ s.handed, handover.origin = some o → handover.Proper call := by
  have hconsistent : Consistent s := hreach.invariant Consistent (consistent_start nodes)
    fun _ _ _ h hok hstep => h.step hok hstep
  have htracked := hconsistent.calls o call hcall hsize
  exact ⟨by have := htracked.hops_le; omega, by have := htracked.copies_le; omega, htracked.proper⟩

end Steps

def peerConfig : IPConfig where
  Interfaces := [⟨"if0", .slash 167772162 24, ⟨2130706433, 5001⟩⟩]
  Neighbors := [⟨167772161, ⟨2130706433, 5000⟩, "if0"⟩]
  OriginatingPrefixes := []
  RoutingMode := .none
  RipNeighbors := []
  StaticRoutes := ∅

def peerVisit : Visit where
  interfaces := peerConfig.Interfaces
  again := peerConfig.Interfaces
  routes := visited (initialTable peerConfig.routing)

def greeting : Injection := ⟨.v4 167772161, .v4 167772162, 0, [104, 105]⟩

/-- A message that one host sends to the other one. -/
theorem packets_do_not_circulate_greeting :
    ∃ s : Network Bool, s.injected[0]? = some greeting ∧ s.timesHanded 0 = 1 ∧
      s.transmitted.count 0 ≤ 16 ∧ s.timesHanded 0 ≤ 1 ∧
      ∀ handover ∈ s.handed, handover.origin = some 0 → handover.Proper greeting := by
  let nodes : Bool → Node := fun i => bif i then peerConfig.node else hostConfig.node
  obtain ⟨s, hreach, hcall, honce⟩ := exists_reach step Orderly (start nodes)
    (fun s => s.injected[0]? = some greeting ∧ s.timesHanded 0 = 1)
    [.inject false hostVisit (.v4 167772162) [104, 105] 0, .transmit 0, .receive 0 true 0 peerVisit]
    (by decide)
  exact ⟨s, hcall, honce, packets_do_not_circulate nodes hreach hcall (by decide)⟩

end Network

end IpTcp
