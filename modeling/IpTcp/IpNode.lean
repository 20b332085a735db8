import IpTcp.Forwarding
import IpTcp.LearnedRoutes
import IpTcp.RipWire
import IpTcp.TcpWire

/-!
A node of the network: what it does with a datagram that arrives, how it sends packets of
its own, and the routing messages that it answers with. A map that the program ranges
over is visited in any order, and in another one each time. What ends a goroutine is an
error here: a slice expression out of bounds, the call of a handler that is not there,
an address that cannot be parsed, a channel that is nil.
-/
namespace IpTcp

open Rip BigEndian Runs

/-- The parts of a node that handling packets reads or changes. Interfaces are found under
their names. -/
structure Node where
  neighbors : List NeighborConfig
  interfaces : AList (fun _ : String => InterfaceConfig)
  forwardingTable : Table Addr
  ripNeighbors : List Addr
  named : ∀ name iface, interfaces.lookup name = some iface → iface.Name = name

structure Sent where
  iface : String
  pack : List UInt8
  address : Addr
  deriving DecidableEq, Repr

inductive Effect
  | passUp (info : TCPInfo)
  | send (sent : Sent)
  | write (udp : AddrPort) (packet : List UInt8)
  deriving DecidableEq, Repr

/-- The orders in which handling one packet visits the interfaces, twice, and the routes. -/
structure Visit where
  interfaces : List InterfaceConfig
  again : List InterfaceConfig
  routes : List (ForwardingInfo Addr)

inductive Action
  | drop
  | deliver (header : IPv4Header) (message : Slice)
  | forward (header : IPv4Header) (next : Addr) (data : List UInt8)
  deriving DecidableEq, Repr

def createNeighborTable (neighbors : List NeighborConfig) :
    AList (fun _ : Addr => NeighborConfig) :=
  neighbors.foldl (fun table neighbor => table.insert neighbor.DestAddr neighbor) ∅

/-- The first half of handlePackets. Parsing has checked that the header is inside the
datagram. -/
def packetAction (visit : Visit) (buffer : Slice) : Action :=
  match validHeader buffer.bytes with
  | none => .drop
  | some header =>
      let message := buffer.behind header.Len
      if checkDest visit.interfaces header.Dst then .deliver header message
      else if 0 < header.TTL then
        match FindNext visit.again visit.routes header.Dst with
        | none => .drop
        | some (next_addr, t) =>
            -- the next hop of a local route is the address of an interface, not that of a host
            .forward header (if t = .L then header.Dst else next_addr) message.bytes
      else .drop

namespace Node

def neighborTable (node : Node) : AList (fun _ : Addr => NeighborConfig) :=
  createNeighborTable node.neighbors

/-- The address of the interface `if0`, under which the TCP stack runs. -/
def IpAddr (node : Node) : Addr :=
  match node.interfaces.lookup "if0" with
  | some iface => iface.AssignedIP
  | none => .zero

def neighborUDP (node : Node) (dst : Addr) : Option AddrPort :=
  (node.neighbors.find? fun neighbor => neighbor.DestAddr = dst).map fun neighbor =>
    neighbor.UDPAddr

/-- The interface name that the neighbour table gives; for an unknown address it is empty. -/
def ifaceName (node : Node) (dst : Addr) : String :=
  match node.neighborTable.lookup dst with
  | some neighbor => neighbor.InterfaceName
  | none => ""

def ifaceIP (node : Node) (name : String) : Addr :=
  match node.interfaces.lookup name with
  | some iface => iface.AssignedIP
  | none => .zero

def sendMessage (node : Node) (dst : Addr) (message : RipMessage) : Except Fault Sent :=
  let inter := node.ifaceName dst
  match makePacket (node.ifaceIP inter) dst 200 16 (MarshalRIP message) with
  | .error fault => .error fault
  | .ok packet =>
      if inter ∈ node.interfaces then .ok ⟨inter, packet, dst⟩ else .error .nilChannel

def sendRIP (node : Node) (dst : Addr) (entries : List RipUpdate) : Except Fault Sent :=
  node.sendMessage dst ⟨2, entries.length, entries⟩

def sendAll (node : Node) (updates : List (Addr × List RipUpdate)) : Except Fault (List Sent) :=
  updates.mapM fun update => node.sendRIP update.1 update.2

def protocol200 (node : Node) (now : ℕ) (src : Addr) (message : Slice) :
    Except Fault (Node × List Effect) :=
  match ExtractRIP message with
  | none => .error .bounds
  | some rip_packet =>
      let result := Rip.protocol200 now node.ripNeighbors node.forwardingTable src rip_packet.packet
      match node.sendAll result.2 with
      | .error fault => .error fault
      | .ok sent => .ok ({ node with forwardingTable := result.1 }, sent.map .send)

def forwardPacket (node : Node) (nextAddr : Addr) (p : List UInt8) : List Effect :=
  match node.neighborUDP nextAddr with
  | none => []
  | some udp => [.write udp p]

/-- The second half of handlePackets. Handlers are registered for the protocols 0, 6 and 200;
the one for 0 only prints. -/
def perform (node : Node) (now : ℕ) : Action → Except Fault (Node × List Effect)
  | .drop => .ok (node, [])
  | .deliver header message =>
      if header.Protocol = 0 then .ok (node, [])
      else if header.Protocol = 6 then
        match protocol6 node.IpAddr message.bytes header.Src header.Dst with
        | .error fault => .error fault
        | .ok info => .ok (node, info.toList.map .passUp)
      else if header.Protocol = 200 then node.protocol200 now header.Src message
      else .error .nilCall
  | .forward header next data =>
      match makePacket header.Src header.Dst header.Protocol header.TTL data with
      | .error fault => .error fault
      | .ok packet => .ok (node, node.forwardPacket next packet)

def handlePackets (node : Node) (now : ℕ) (visit : Visit) (buffer : Slice) :
    Except Fault (Node × List Effect) :=
  node.perform now (packetAction visit buffer)

/-- Send a packet of the node's own, with the address of the outgoing interface as source. -/
def HandleSend (node : Node) (visit : Visit) (dst : Addr) (data : List UInt8)
    (protocolNum : ℕ) : Except Fault (List Sent) :=
  match FindNext visit.interfaces visit.routes dst with
  | none => .ok []
  | some (found, t) =>
      let next_addr := if t = .L then dst else found
      match node.neighborUDP next_addr with
      | none => .ok []
      | some _ =>
          let iface := node.ifaceName next_addr
          (visit.again.filter fun inter => inter.Name = iface).mapM fun inter =>
            match makePacket inter.AssignedIP dst protocolNum 16 data with
            | .error fault => .error fault
            | .ok p => .ok ⟨iface, p, next_addr⟩

def outgoing (node : Node) (visit : Visit) (dst : Addr) : Option (InterfaceConfig × Addr) :=
  match FindNext visit.interfaces visit.routes dst with
  | none => none
  | some (found, t) =>
      let next_addr := if t = .L then dst else found
      match node.neighborUDP next_addr with
      | none => none
      | some _ => (node.interfaces.lookup (node.ifaceName next_addr)).map fun iface =>
          (iface, next_addr)

structure Visits (node : Node) (visit : Visit) : Prop where
  interfaces : visit.interfaces.Perm (node.interfaces.entries.map fun entry => entry.2)
  again : visit.again.Perm (node.interfaces.entries.map fun entry => entry.2)
  routes : visit.routes.Perm (visited node.forwardingTable)

end Node

def interfaceMap (interfaces : List InterfaceConfig) : AList (fun _ : String => InterfaceConfig) :=
  interfaces.foldl (fun table iface => table.insert iface.Name iface) ∅

theorem interfaceMap_lookup {interfaces : List InterfaceConfig} {name : String}
    {iface : InterfaceConfig} (h : (interfaceMap interfaces).lookup name = some iface) :
    iface ∈ interfaces ∧ iface.Name = name := by
  rcases foldl_insert_lookup InterfaceConfig.Name id interfaces ∅ h with
    ⟨iface', hmem, hname, rfl⟩ | hempty
  · exact ⟨hmem, hname.symm⟩
  · simp at hempty

def IPConfig.node (config : IPConfig) : Node where
  neighbors := config.Neighbors
  interfaces := interfaceMap config.Interfaces
  forwardingTable := initialTable config.routing
  ripNeighbors := config.RipNeighbors
  named := fun _ _ h => (interfaceMap_lookup h).2

def Initialize (config : IPConfig) : Except Fault (Node × List Sent) :=
  match config.RipNeighbors.mapM fun neighbor => config.node.sendMessage neighbor ⟨1, 0, []⟩ with
  | .error fault => .error fault
  | .ok sent => .ok (config.node, sent)

inductive NodeInput
  | datagram (now : ℕ) (visit : Visit) (bytes : List UInt8)
  | collect (now : ℕ)
  | periodic

namespace Node

/-- The state after an event; there is none if it ends the program. -/
def step (node : Node) : NodeInput → Option Node
  | .datagram now visit bytes =>
      match node.handlePackets now visit (received bytes) with
      | .error _ => none
      | .ok result => some result.1
  | .collect now =>
      let u := garbageCollector now node.forwardingTable
      let updates := if 0 < u.triggered.entries.length then
        node.ripNeighbors.map fun neighbor => (neighbor, Rip.sendRIP neighbor u.triggered) else []
      match node.sendAll updates with
      | .error _ => none
      | .ok _ => some { node with forwardingTable := u.table }
  | .periodic =>
      match node.sendAll (periodicUpdates node.ripNeighbors node.forwardingTable) with
      | .error _ => none
      | .ok _ => some node

def Linked (node : Node) (dst : Addr) : Prop :=
  node.ifaceName dst ∈ node.interfaces ∧ dst ≠ .zero

instance (node : Node) (dst : Addr) : Decidable (node.Linked dst) :=
  inferInstanceAs (Decidable (node.ifaceName dst ∈ node.interfaces ∧ dst ≠ .zero))

end Node

/-- A packet is sent on if it is not for the node and a route is found. -/
theorem packetAction_forward {visit : Visit} {buffer : Slice} {header : IPv4Header} {hop : Addr}
    {data : List UInt8} (h : packetAction visit buffer = .forward header hop data) :
    validHeader buffer.bytes = some header ∧ checkDest visit.interfaces header.Dst = false ∧
      0 < header.TTL ∧ data = buffer.bytes.drop header.Len ∧
      ∃ found t, FindNext visit.again visit.routes header.Dst = some (found, t) ∧
        hop = if t = .L then header.Dst else found := by
  unfold packetAction at h
  cases hparsed : validHeader buffer.bytes with
  | none => simp [hparsed] at h
  | some header' =>
    simp only [hparsed] at h
    split at h
    · contradiction
    · next hdest =>
      split at h
      · next httl =>
        split at h
        · contradiction
        · next found t hfind =>
          cases h
          exact ⟨rfl, by simpa using hdest, httl, rfl, found, t, hfind, rfl⟩
      · contradiction

/-- A packet is delivered if its destination is the address of an interface. -/
theorem packetAction_deliver {visit : Visit} {buffer : Slice} {header : IPv4Header}
    {message : Slice} (h : packetAction visit buffer = .deliver header message) :
    validHeader buffer.bytes = some header ∧ checkDest visit.interfaces header.Dst = true ∧
      message = buffer.behind header.Len := by
  unfold packetAction at h
  cases hparsed : validHeader buffer.bytes with
  | none => simp [hparsed] at h
  | some header' =>
    simp only [hparsed] at h
    split at h
    · next hdest =>
      cases h
      exact ⟨rfl, hdest, rfl⟩
    · split at h
      · split at h <;> contradiction
      · contradiction

/-- All calls of a loop succeed. -/
theorem mapM_ok_iff {α β ε : Type} (f : α → Except ε β) (l : List α) :
    (∃ r, l.mapM f = .ok r) ↔ ∀ x ∈ l, ∃ y, f x = .ok y := by
  induction l with
  | nil => simp [pure, Except.pure]
  | cons x l ih =>
    rw [List.mapM_cons, List.forall_mem_cons, ← ih]
    cases f x with
    | error e => simp [bind, Except.bind]
    | ok y =>
      cases l.mapM f with
      | error e => simp [bind, Except.bind]
      | ok r => simp [bind, Except.bind, pure, Except.pure]

namespace Node

variable {node node' : Node} {dst : Addr}

theorem makePacket_ok_iff (src dst : Addr) (protocolNum ttl : ℕ) (data : List UInt8) :
    (∃ packet, makePacket src dst protocolNum ttl data = .ok packet) ↔
      src ≠ .zero ∧ dst ≠ .zero := by
  cases src with
  | zero => simp [makePacket]
  | v4 src =>
    cases dst with
    | zero => simp [makePacket]
    | v4 dst => exact iff_of_true ⟨_, makePacket_eq ..⟩ ⟨by simp, by simp⟩

theorem ifaceIP_ne_zero_iff {name : String} :
    node.ifaceIP name ≠ .zero ↔ name ∈ node.interfaces := by
  rw [← AList.lookup_isSome, ifaceIP]
  cases node.interfaces.lookup name with
  | none => simp
  | some iface => simp [InterfaceConfig.AssignedIP]

/-- A message can be sent exactly towards the addresses that the node is linked to. -/
theorem sendMessage_ok_iff (message : RipMessage) :
    (∃ sent, node.sendMessage dst message = .ok sent) ↔ node.Linked dst := by
  have hpacket := makePacket_ok_iff (node.ifaceIP (node.ifaceName dst)) dst 200 16
    (MarshalRIP message)
  rw [ifaceIP_ne_zero_iff] at hpacket
  unfold sendMessage Linked
  rw [← hpacket]
  cases hmake : makePacket (node.ifaceIP (node.ifaceName dst)) dst 200 16 (MarshalRIP message) with
  | error fault => simp [hmake]
  | ok packet =>
    have hiface := (hpacket.mp ⟨packet, hmake⟩).1
    simp [hmake, hiface]

theorem sendAll_ok_iff (updates : List (Addr × List RipUpdate)) :
    (∃ sent, node.sendAll updates = .ok sent) ↔ ∀ update ∈ updates, node.Linked update.1 :=
  (mapM_ok_iff _ updates).trans (forall₂_congr fun _ _ => sendMessage_ok_iff _)

/-- What becomes of a packet, one case for each way through the handlers. -/
inductive Performs (node : Node) (now : ℕ) : Action → Node → List Effect → Prop
  | drop : Performs node now .drop node []
  | test (header : IPv4Header) (message : Slice) : header.Protocol = 0 →
      Performs node now (.deliver header message) node []
  | segment (header : IPv4Header) (message : Slice) (info : Option TCPInfo) :
      header.Protocol = 6 →
      protocol6 node.IpAddr message.bytes header.Src header.Dst = .ok info →
      Performs node now (.deliver header message) node (info.toList.map .passUp)
  | rip (header : IPv4Header) (message : Slice) (rip_packet : RipMessage) (sent : List Sent) :
      header.Protocol = 200 → ExtractRIP message = some rip_packet →
      Performs node now (.deliver header message)
        { node with forwardingTable := (Rip.protocol200 now node.ripNeighbors
          node.forwardingTable header.Src rip_packet.packet).1 } (sent.map .send)
  | forward (header : IPv4Header) (next : Addr) (data packet : List UInt8) :
      makePacket header.Src header.Dst header.Protocol header.TTL data = .ok packet →
      Performs node now (.forward header next data) node (node.forwardPacket next packet)

section Performs

variable {now : ℕ} {action : Action} {effects : List Effect}

theorem perform_performs (h : node.perform now action = .ok (node', effects)) :
    Performs node now action node' effects := by
  cases action with
  | drop =>
    cases h
    exact .drop
  | forward header next data =>
    simp only [perform] at h
    split at h
    · contradiction
    · next packet hpacket =>
      cases h
      exact .forward header next data packet hpacket
  | deliver header message =>
    simp only [perform] at h
    split at h
    · next htest =>
      cases h
      exact .test header message htest
    · split at h
      · next htcp =>
        split at h
        · contradiction
        · next info hsegment =>
          cases h
          exact .segment header message info htcp hsegment
      · split at h
        · next hrip =>
          unfold protocol200 at h
          split at h
          · contradiction
          · next rip_packet hextract =>
            simp only at h
            split at h
            · contradiction
            · next sent _ =>
              cases h
              exact .rip header message rip_packet sent hrip hextract
        · contradiction

/-- What is passed up comes out of the handler of TCP. -/
theorem perform_passUp {info : TCPInfo} (h : node.perform now action = .ok (node', effects))
    (hinfo : .passUp info ∈ effects) :
    ∃ header message, action = .deliver header message ∧
      protocol6 node.IpAddr message.bytes header.Src header.Dst = .ok (some info) := by
  cases perform_performs h with
  | drop | test _ _ _ => simp at hinfo
  | rip _ _ _ _ _ _ => simp at hinfo
  | forward header next data packet _ =>
    unfold forwardPacket at hinfo
    split at hinfo <;> simp at hinfo
  | segment header message info' _ hsegment =>
    cases info' with
    | none => simp at hinfo
    | some info' =>
      simp only [Option.toList_some, List.map_cons, List.map_nil, List.mem_singleton,
        Effect.passUp.injEq] at hinfo
      exact ⟨header, message, rfl, hinfo ▸ hsegment⟩

/-- What is written to a link is a packet that was sent on. -/
theorem perform_write {udp : AddrPort} {packet : List UInt8}
    (h : node.perform now action = .ok (node', effects)) (hwrite : .write udp packet ∈ effects) :
    ∃ header next data, action = .forward header next data ∧
      makePacket header.Src header.Dst header.Protocol header.TTL data = .ok packet := by
  cases perform_performs h with
  | drop | test _ _ _ => simp at hwrite
  | rip _ _ _ _ _ _ => simp at hwrite
  | segment _ _ _ _ _ => simp at hwrite
  | forward header next data packet' hpacket =>
    unfold forwardPacket at hwrite
    split at hwrite
    · simp at hwrite
    · simp only [List.mem_singleton, Effect.write.injEq] at hwrite
      exact ⟨header, next, data, rfl, hwrite.2 ▸ hpacket⟩

/-- A handler changes nothing but routes, each change of them under the node's lock. -/
theorem perform_reach (h : node.perform now action = .ok (node', effects)) :
    ∃ table, node' = { node with forwardingTable := table } ∧
      Reach lockedStep (fun _ _ => True) node.forwardingTable table := by
  cases perform_performs h with
  | drop | test _ _ _ | segment _ _ _ _ _ | forward _ _ _ _ _ => exact ⟨_, rfl, .refl⟩
  | rip header message rip_packet sent _ _ =>
    refine ⟨_, rfl, ?_⟩
    cases rip_packet.packet with
    | request => exact .refl
    | response entries => exact receiveResponse_reach (fun _ _ => trivial) entries ⟨_, ∅⟩

end Performs

/-- What happens to a node is a run of changes of its routes. -/
theorem step_reach {e : NodeInput} (h : node.step e = some node') :
    ∃ table, node' = { node with forwardingTable := table } ∧
      Reach lockedStep (fun _ _ => True) node.forwardingTable table := by
  cases e with
  | datagram now visit bytes =>
    simp only [step] at h
    split at h
    · contradiction
    · next result hresult =>
      cases h
      exact perform_reach hresult
  | collect now =>
    simp only [step] at h
    split at h
    · contradiction
    · cases h
      exact ⟨_, rfl, .tail (.collect now) .refl trivial rfl⟩
  | periodic =>
    simp only [step] at h
    split at h
    · contradiction
    · cases h
      exact ⟨_, rfl, .refl⟩

/-- Along a run only routes change, each change of them under the node's lock. -/
theorem reach_routes {start : Node} (h : Reach step (fun _ _ => True) start node) :
    ∃ table, node = { start with forwardingTable := table } ∧
      Reach lockedStep (fun _ _ => True) start.forwardingTable table := by
  induction h with
  | refl => exact ⟨_, rfl, .refl⟩
  | tail e _ _ hstep ih =>
    obtain ⟨table, rfl, hreach⟩ := ih
    obtain ⟨table', rfl, hreach'⟩ := step_reach hstep
    exact ⟨table', rfl, hreach.trans hreach'⟩

end Node

section HandleSend

namespace Node

variable {node : Node} {visit : Visit}

/-- The interfaces, in one of the orders in which they can be visited. -/
theorem mem_interfaces_iff {iface : InterfaceConfig} :
    iface ∈ (node.interfaces.entries.map fun entry => entry.2) ↔
      node.interfaces.lookup iface.Name = some iface := by
  rw [List.mem_map]
  constructor
  · intro ⟨entry, hentry, heq⟩
    subst heq
    have hlookup := AList.mem_lookup_iff.mpr hentry
    rwa [node.named entry.1 entry.2 hlookup]
  · intro hlookup
    exact ⟨⟨_, iface⟩, AList.mem_lookup_iff.mp hlookup, rfl⟩

/-- No two interfaces have the same name. -/
theorem names_nodup (node : Node) :
    ((node.interfaces.entries.map fun entry => entry.2).map InterfaceConfig.Name).Nodup := by
  have hnames : (node.interfaces.entries.map fun entry => entry.2).map InterfaceConfig.Name =
      node.interfaces.entries.map Sigma.fst := by
    rw [List.map_map]
    refine List.map_congr_left fun entry hentry => ?_
    exact node.named entry.1 entry.2 (AList.mem_lookup_iff.mpr hentry)
  rw [hnames]
  exact node.interfaces.nodupKeys

theorem filter_name_eq {l : List InterfaceConfig} (hnodup : (l.map InterfaceConfig.Name).Nodup)
    {iface : InterfaceConfig} (hmem : iface ∈ l) :
    (l.filter fun inter => inter.Name = iface.Name) = [iface] := by
  induction l with
  | nil => simp at hmem
  | cons inter l ih =>
    rw [List.map_cons, List.nodup_cons] at hnodup
    rcases List.mem_cons.mp hmem with rfl | hmem
    · have hnone : (l.filter fun inter => inter.Name = iface.Name) = [] := by
        refine List.filter_eq_nil_iff.mpr fun inter hinter => ?_
        intro hname
        exact hnodup.1 (List.mem_map.mpr ⟨inter, hinter, by simpa using hname⟩)
      simp [hnone]
    · have hne : inter.Name ≠ iface.Name := fun hname =>
        hnodup.1 (List.mem_map.mpr ⟨iface, hmem, hname.symm⟩)
      simp [hne, ih hnodup.2 hmem]

/-- The loop over the interfaces finds the one that is stored under the name, if any. -/
theorem filter_again_eq (hvisit : node.Visits visit) (name : String) :
    (visit.again.filter fun inter => inter.Name = name) =
      (node.interfaces.lookup name).toList := by
  have hperm := hvisit.again.filter fun inter => inter.Name = name
  cases hlookup : node.interfaces.lookup name with
  | none =>
    refine List.filter_eq_nil_iff.mpr fun inter hinter hname => ?_
    have hsome := mem_interfaces_iff.mp (hvisit.again.mem_iff.mp hinter)
    rw [of_decide_eq_true hname, hlookup] at hsome
    contradiction
  | some iface =>
    have hname := node.named name iface hlookup
    subst hname
    rw [filter_name_eq node.names_nodup (mem_interfaces_iff.mpr hlookup)] at hperm
    exact List.perm_singleton.mp hperm

/-- A packet of the node's own leaves through one interface at most, with the address of that
interface as its source. -/
theorem handleSend_eq (hvisit : node.Visits visit) (dst : Addr) (data : List UInt8)
    (protocolNum : ℕ) :
    node.HandleSend visit dst data protocolNum =
      match node.outgoing visit dst with
      | none => .ok []
      | some (iface, next_addr) =>
          match makePacket iface.AssignedIP dst protocolNum 16 data with
          | .error fault => .error fault
          | .ok p => .ok [⟨node.ifaceName next_addr, p, next_addr⟩] := by
  unfold HandleSend outgoing
  cases FindNext visit.interfaces visit.routes dst with
  | none => rfl
  | some route =>
    obtain ⟨found, t⟩ := route
    simp only [filter_again_eq hvisit]
    cases node.neighborUDP (if t = .L then dst else found) with
    | none => rfl
    | some udp =>
      simp only
      cases node.interfaces.lookup (node.ifaceName (if t = .L then dst else found)) with
      | none => rfl
      | some iface =>
        simp only [Option.toList_some, Option.map_some, List.mapM_cons, List.mapM_nil]
        cases makePacket iface.AssignedIP dst protocolNum 16 data with
        | error fault => rfl
        | ok p => rfl

/-- Both tables of the neighbours know the same addresses. -/
theorem neighborUDP_isSome_iff (node : Node) (dst : Addr) :
    (node.neighborUDP dst).isSome ↔ ∃ neighbor, node.neighborTable.lookup dst = some neighbor := by
  rw [neighborUDP, Option.isSome_map, List.find?_isSome]
  constructor
  · intro ⟨neighbor, hmem, hdst⟩
    have hknown : dst ∈ node.neighborTable :=
      mem_foldl_insert NeighborConfig.DestAddr id node.neighbors ∅
        (.inr ⟨neighbor, hmem, of_decide_eq_true hdst⟩)
    exact Option.isSome_iff_exists.mp (AList.lookup_isSome.mpr hknown)
  · intro ⟨neighbor, hlookup⟩
    rcases foldl_insert_lookup NeighborConfig.DestAddr id node.neighbors ∅ hlookup with
      ⟨neighbor', hmem, hdst, -⟩ | hempty
    · exact ⟨neighbor', hmem, decide_eq_true hdst.symm⟩
    · simp at hempty

/-- A packet leaves through an interface exactly if a route is found, its next hop is a
neighbour and the neighbour's interface exists. -/
theorem outgoing_eq_some_iff {node : Node} {visit : Visit} {dst next : Addr}
    {iface : InterfaceConfig} :
    node.outgoing visit dst = some (iface, next) ↔
      ∃ found t, FindNext visit.interfaces visit.routes dst = some (found, t) ∧
        next = (if t = .L then dst else found) ∧
        ∃ neighbor, node.neighborTable.lookup next = some neighbor ∧
          node.interfaces.lookup neighbor.InterfaceName = some iface := by
  unfold outgoing
  cases hfind : FindNext visit.interfaces visit.routes dst with
  | none => simp
  | some route =>
    obtain ⟨found, t⟩ := route
    have hknown := node.neighborUDP_isSome_iff (if t = .L then dst else found)
    simp only [Option.some.injEq, Prod.mk.injEq]
    cases hudp : node.neighborUDP (if t = .L then dst else found) with
    | none =>
      rw [hudp] at hknown
      constructor
      · intro h
        contradiction
      · rintro ⟨_, _, ⟨rfl, rfl⟩, rfl, neighbor, hneighbor, -⟩
        exact absurd (hknown.mpr ⟨neighbor, hneighbor⟩) (by simp)
    | some udp =>
      rw [hudp] at hknown
      obtain ⟨neighbor, hneighbor⟩ := hknown.mp rfl
      have hname : node.ifaceName (if t = .L then dst else found) = neighbor.InterfaceName := by
        rw [ifaceName, hneighbor]
      simp only [Option.map_eq_some_iff, Prod.mk.injEq]
      constructor
      · rintro ⟨iface', hlookup, rfl, rfl⟩
        rw [hname] at hlookup
        exact ⟨found, t, ⟨rfl, rfl⟩, rfl, neighbor, hneighbor, hlookup⟩
      · rintro ⟨_, _, ⟨rfl, rfl⟩, rfl, neighbor', hneighbor', hlookup⟩
        cases hneighbor.symm.trans hneighbor'
        rw [← hname] at hlookup
        exact ⟨iface, hlookup, rfl, rfl⟩

end Node

end HandleSend

/-- A node that has started can reach all its RIP neighbours. -/
theorem initialize_linked {config : IPConfig} {node : Node} {sent : List Sent}
    (h : Initialize config = .ok (node, sent)) :
    node = config.node ∧ ∀ neighbor ∈ node.ripNeighbors, node.Linked neighbor := by
  unfold Initialize at h
  split at h
  · contradiction
  · next hrequests =>
    cases h
    refine ⟨rfl, fun neighbor hneighbor => ?_⟩
    exact (Node.sendMessage_ok_iff _).mp ((mapM_ok_iff _ _).mp ⟨_, hrequests⟩ neighbor
      hneighbor)

def hostVisit : Visit where
  interfaces := hostConfig.Interfaces
  again := hostConfig.Interfaces
  routes := visited (initialTable hostConfig.routing)

end IpTcp
