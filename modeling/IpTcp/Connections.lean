import IpTcp.Accept
import IpTcp.SegmentAddresses
import IpTcp.SocketTable
import IpTcp.UsableRoutes

/-!
A socket on its node, from the call of VConnect or VAccept that makes it. Its key has the
address of the interface `if0` on the local side, and so have the pseudo headers of all
its segments. HandleSend however takes the source address of a packet from the interface
that the packet leaves through, and a node delivers packets for the address of any of its
interfaces. On a node with one interface these are the same address.
-/
namespace IpTcp

open Rip Runs

inductive SocketPhase
  | synSent (tries : ℕ)
  | synReceived (sock : NormalSocket)
  | running (p : Endpoint)
  | failed

/-- `handshake` records what VConnect or VAccept sent, and `reached` the destination of every
packet for the socket. -/
structure Connection where
  node : Node
  key : SocketTableKey
  phase : SocketPhase
  normalChan : List TCPInfo
  handshake : List TCPPacket
  reached : List Addr

inductive ConnectionEvent
  | node (e : NodeInput)
  | timeout
  | take
  | complete (ci : TCPInfo)
  | thread (e : EndpointEvent)

def destination (bytes : List UInt8) : Addr :=
  match validHeader (received bytes).bytes with
  | some header => header.Dst
  | none => .zero

namespace Connection

def connectSegment (key : SocketTableKey) (flags : UInt8) (seqNum ackNum : UInt32) : TCPPacket :=
  (Listening.start key.RemoteAddr key.RemotePort).fromClient ⟨key.LocalAddr, key.LocalPort⟩ flags
    seqNum ackNum 65535 []

def synSegment (key : SocketTableKey) : TCPPacket := connectSegment key tcpFlagSyn 5000 0

def vConnect (node : Node) (destAddr : Addr) (destPort randSrcPort : UInt16) : Connection :=
  let key := (TCPStack.start node.IpAddr).connectKey destAddr destPort randSrcPort
  { node := node
    key := key
    phase := .synSent 0
    normalChan := []
    handshake := [synSegment key]
    reached := [] }

/-- VAccept up to its SYN-ACK, for a SYN that was sent to `dst`. -/
def vAccept (node : Node) (dst : Addr) (ci : TCPInfo) : Connection where
  node := node
  key := ci.key.flip
  phase := .synReceived (Listening.pending ci)
  normalChan := []
  handshake := [Listening.synAckPacket ci]
  reached := [dst]

/-- The dispatcher keeps segments off the channel until VAccept has returned. -/
def listens (s : Connection) : Bool :=
  match s.phase with
  | .synReceived _ => true
  | .synSent _ | .running _ | .failed => false

/-- The dispatcher finds the socket under the key of a segment, turned round. -/
def dispatch (dst : Addr) (s : Connection) : Effect → Connection
  | .passUp ci =>
      if ci.key.flip = s.key then
        { s with
          normalChan := if s.listens then s.normalChan else s.normalChan ++ [ci]
          reached := s.reached ++ [dst] }
      else s
  | .send _ | .write _ _ => s

def nodeStep (s : Connection) : NodeInput → Option Connection
  | .datagram now visit bytes =>
      match s.node.handlePackets now visit (received bytes) with
      | .error _ => none
      | .ok (node, effects) =>
          some (effects.foldl (dispatch (destination bytes)) { s with node := node })
  | .collect now => (s.node.step (.collect now)).map fun node => { s with node := node }
  | .periodic => (s.node.step .periodic).map fun node => { s with node := node }

def retry (s : Connection) (tries : ℕ) : Connection :=
  if tries + 1 = 3 then { s with phase := .failed }
  else { s with phase := .synSent (tries + 1), handshake := s.handshake ++ [synSegment s.key] }

def established (s : Connection) (ci : TCPInfo) : Connection :=
  let sock := {
    newSocket s.key (ci.AckNum - 1) ci.SeqNum ci.WindowSize with cumWriteUNA := ci.AckNum }
  { s with
    phase := .running (Endpoint.start sock)
    handshake := s.handshake ++ [connectSegment s.key tcpFlagAck ci.AckNum (ci.SeqNum + 1)] }

def take (s : Connection) : Option Connection :=
  match s.normalChan with
  | [] => none
  | ci :: more =>
      let s' := { s with normalChan := more }
      match s.phase with
      -- anything but a SYN-ACK counts as a failed try
      | .synSent tries => some (if ci.Flag = synAck then s'.established ci else s'.retry tries)
      | .running p => (p.step (.arrive ci)).map fun p' => { s' with phase := .running p' }
      | .synReceived _ | .failed => none

def step (s : Connection) : ConnectionEvent → Option Connection
  | .node e => s.nodeStep e
  | .timeout => match s.phase with
      | .synSent tries => some (s.retry tries)
      | _ => none
  | .take => s.take
  | .complete ci => match s.phase with
      | .synReceived sock =>
          -- any ACK for the listening port ends VAccept
          if ci.Flag = tcpFlagAck then
            some { s with phase := .running (Endpoint.start (Listening.completed sock ci)) }
          else none
      | _ => none
  | .thread e => match s.phase, e with
      | .running _, .arrive _ => none
      | .running p, e => (p.step e).map fun p' => { s with phase := .running p' }
      | _, _ => none

def segments (s : Connection) : List TCPPacket :=
  s.handshake ++ match s.phase with
    | .running p => p.emitted.map Emission.packet ++ p.replies
    | .synSent _ | .synReceived _ | .failed => []

def Faithful (s : Connection) : ConnectionEvent → Prop
  | .node (.datagram _ visit _) => s.node.Visits visit
  | _ => True

end Connection

inductive Opened (node : Node) : Connection → Prop
  | vConnect (destAddr : Addr) (destPort randSrcPort : UInt16) :
      Opened node (.vConnect node destAddr destPort randSrcPort)
  | vAccept (now : ℕ) (visit : Visit) (bytes : List UInt8) (node' : Node) (effects : List Effect)
      (ci : TCPInfo) (hvisit : node.Visits visit)
      (hpackets : node.handlePackets now visit (received bytes) = .ok (node', effects))
      (hpassed : .passUp ci ∈ effects) (hsyn : ci.Flag = tcpFlagSyn) :
      Opened node (.vAccept node' (destination bytes) ci)

/-- The packet that HandleSend makes of a segment has the addresses of its pseudo header, and
whoever it is for passes the segment up. -/
def Node.Carries (node : Node) (visit : Visit) (p : TCPPacket) : Prop :=
  ∃ sents, node.HandleSend visit p.destIp p.marshallTCPPacket 6 = .ok sents ∧
    ∀ sent ∈ sents, ∃ header, IPv4Header.Parse (received sent.pack).bytes = .ok header ∧
      header.Src = p.sourceIp ∧ header.Dst = p.destIp ∧
      ∀ IpAddr, protocol6 IpAddr ((received sent.pack).bytes.drop header.Len) header.Src
        header.Dst = .ok (some (p.passedUp IpAddr))

theorem Node.exists_v4_of_outgoing {node : Node} {visit : Visit} {dst : Addr}
    {hop : InterfaceConfig × Addr} (h : node.outgoing visit dst = some hop) :
    ∃ bits, dst = .v4 bits := by
  obtain ⟨found, t, hfind, -⟩ := Node.outgoing_eq_some_iff.mp h
  exact exists_v4_of_findNext hfind

/-- HandleSend and the receiver agree with the sender of a segment exactly if the interface
that the packet leaves through has the address of the pseudo header. -/
theorem carries_iff {node : Node} {visit : Visit} (hvisit : node.Visits visit) {p : TCPPacket}
    (hsize : p.payload.length ≤ mss) :
    node.Carries visit p ↔
      ∀ iface next, node.outgoing visit p.destIp = some (iface, next) →
        iface.AssignedIP = p.sourceIp := by
  unfold Node.Carries
  rw [Node.handleSend_eq hvisit]
  cases hout : node.outgoing visit p.destIp with
  | none => exact iff_of_true ⟨[], rfl, by simp⟩ (by simp)
  | some hop =>
    obtain ⟨iface, next⟩ := hop
    -- a route was found, so the destination is set and the packet can be built
    obtain ⟨dst, hdst⟩ := Node.exists_v4_of_outgoing hout
    have hshort : p.marshallTCPPacket.length ≤ 1380 := by
      simp only [mss] at hsize
      rw [p.length_marshall]
      omega
    obtain ⟨packet, header, hpacket, hparse, hsrc, hdst', hdrop⟩ := makePacket_received
      iface.declared.addr dst 6 16 (by decide) (by decide) hshort
    have hmake : makePacket iface.AssignedIP p.destIp 6 16 p.marshallTCPPacket = .ok packet := by
      rw [hdst]
      exact hpacket
    simp only [hmake]
    constructor
    · rintro ⟨sents, hsents, hall⟩ iface' next' hhop
      cases hsents
      cases hhop
      obtain ⟨header', hparse', hsrc', -⟩ := hall _ (List.mem_singleton_self _)
      cases hparse.symm.trans hparse'
      exact hsrc.symm.trans hsrc'
    · intro hsame
      have hsource : header.Src = p.sourceIp := hsrc.trans (hsame iface next rfl)
      have hdest : header.Dst = p.destIp := hdst'.trans hdst.symm
      refine ⟨_, rfl, fun sent hsent => ?_⟩
      rw [List.mem_singleton.mp hsent]
      refine ⟨header, hparse, hsource, hdest, fun IpAddr => ?_⟩
      rw [hdrop, hsource, hdest]
      exact p.protocol6_marshall IpAddr

/-- A segment that a node passes up has the node's address on the remote side of its key, and
its packet was for an interface of the node. -/
theorem Node.passed_up {node node' : Node} {now : ℕ} {visit : Visit} {bytes : List UInt8}
    {effects : List Effect} {ci : TCPInfo} (hvisit : node.Visits visit)
    (hpackets : node.handlePackets now visit (received bytes) = .ok (node', effects))
    (hpassed : .passUp ci ∈ effects) :
    ci.key.RemoteAddr = node.IpAddr ∧
      ∃ iface, node.interfaces.lookup iface.Name = some iface ∧
        iface.AssignedIP = destination bytes := by
  obtain ⟨header, message, haction, hsegment⟩ := perform_passUp hpackets hpassed
  obtain ⟨hparsed, hdest, -⟩ := packetAction_deliver haction
  obtain ⟨iface, hmem, hdst⟩ := exists_iface_of_checkDest hdest
  refine ⟨protocol6_key hsegment, iface, ?_, ?_⟩
  · exact mem_interfaces_iff.mp (hvisit.interfaces.mem_iff.mp hmem)
  · rw [destination, hparsed]
    exact hdst

namespace Connection

structure Inv (s : Connection) : Prop where
  address : s.key.LocalAddr = s.node.IpAddr
  handshake : ∀ p ∈ s.handshake, p.Outbound s.key
  normalChan : ∀ ci ∈ s.normalChan, ci.key = s.key.flip
  pending : ∀ sock, s.phase = .synReceived sock → sock.key = s.key
  running : ∀ p, s.phase = .running p → p.Outbound s.key
  reached : ∀ dst ∈ s.reached, ∃ iface, s.node.interfaces.lookup iface.Name = some iface ∧
    iface.AssignedIP = dst

theorem connectSegment_outbound (key : SocketTableKey) (flags : UInt8) (seqNum ackNum : UInt32) :
    (connectSegment key flags seqNum ackNum).Outbound key :=
  ⟨rfl, rfl, Nat.zero_le _⟩

theorem dispatch_node (s : Connection) (dst : Addr) (effect : Effect) :
    (s.dispatch dst effect).node = s.node := by
  unfold dispatch
  split
  · split <;> rfl
  · rfl
  · rfl

theorem dispatchAll_node (s : Connection) (dst : Addr) (effects : List Effect) :
    (effects.foldl (dispatch dst) s).node = s.node := by
  induction effects generalizing s with
  | nil => rfl
  | cons effect effects ih => exact (ih _).trans (dispatch_node s dst effect)

theorem retry_node (s : Connection) (tries : ℕ) : (s.retry tries).node = s.node := by
  unfold retry
  split <;> rfl

theorem take_node {s s' : Connection} (h : s.take = some s') : s'.node = s.node := by
  unfold take at h
  split at h
  · contradiction
  · simp only at h
    split at h
    · cases h
      split
      · rfl
      · exact retry_node ..
    · obtain ⟨p, -, rfl⟩ := Option.map_eq_some_iff.mp h
      rfl
    · contradiction
    · contradiction

/-- Only the routes of the node change. -/
theorem step_node {s s' : Connection} {e : ConnectionEvent} (h : s.step e = some s') :
    ∃ table, s'.node = { s.node with forwardingTable := table } := by
  cases e with
  | node e =>
    cases e with
    | datagram now visit bytes =>
      simp only [step, nodeStep] at h
      split at h
      · contradiction
      · next node effects hpackets =>
        obtain ⟨table, rfl, -⟩ := Node.perform_reach hpackets
        cases h
        exact ⟨table, dispatchAll_node ..⟩
    | collect now | periodic =>
      obtain ⟨node, hnode, rfl⟩ := Option.map_eq_some_iff.mp h
      obtain ⟨table, rfl, -⟩ := Node.step_reach hnode
      exact ⟨table, rfl⟩
  | timeout =>
    simp only [step] at h
    split at h
    · cases h
      exact ⟨_, retry_node ..⟩
    · contradiction
  | take => exact ⟨_, take_node h⟩
  | complete ci =>
    simp only [step] at h
    split at h
    · split at h
      · cases h
        exact ⟨_, rfl⟩
      · contradiction
    · contradiction
  | thread e =>
    simp only [step] at h
    split at h
    · contradiction
    · obtain ⟨p, -, rfl⟩ := Option.map_eq_some_iff.mp h
      exact ⟨_, rfl⟩
    · contradiction

namespace Inv

variable {s s' : Connection}

theorem of_opened {node : Node} (h : Opened node s) : s.Inv := by
  cases h with
  | vConnect destAddr destPort randSrcPort =>
    exact ⟨rfl, List.forall_mem_singleton.mpr (connectSegment_outbound ..), by simp [vConnect],
      by simp [vConnect], by simp [vConnect], by simp [vConnect]⟩
  | vAccept now visit bytes node' effects ci hvisit hpackets hpassed hsyn =>
    obtain ⟨hkey, iface, hiface, hdst⟩ := Node.passed_up hvisit hpackets hpassed
    obtain ⟨table, rfl, -⟩ := Node.perform_reach hpackets
    refine ⟨hkey, List.forall_mem_singleton.mpr ⟨rfl, rfl, Nat.zero_le _⟩, by simp [vAccept],
      fun sock hsock => ?_, by simp [vAccept], List.forall_mem_singleton.mpr ⟨iface, hiface, hdst⟩⟩
    cases hsock
    rfl

theorem sends (h : s.Inv) {p : TCPPacket} (hp : p.Outbound s.key) :
    ∀ q ∈ s.handshake ++ [p], q.Outbound s.key :=
  List.forall_mem_append.mpr ⟨h.handshake, List.forall_mem_singleton.mpr hp⟩

/-- Routes do not matter. -/
theorem withRoutes (h : s.Inv) (table : Table Addr) :
    { s with node := { s.node with forwardingTable := table } }.Inv :=
  ⟨h.address, h.handshake, h.normalChan, h.pending, h.running, h.reached⟩

theorem dispatch (h : s.Inv) {dst : Addr} {effect : Effect}
    (hdst : ∀ ci, effect = .passUp ci → ∃ iface, s.node.interfaces.lookup iface.Name = some iface ∧
      iface.AssignedIP = dst) : (s.dispatch dst effect).Inv := by
  cases effect with
  | send sent | write udp packet => exact h
  | passUp ci =>
    simp only [Connection.dispatch]
    split
    · next hkey =>
      refine ⟨h.address, h.handshake, ?_, h.pending, h.running, ?_⟩
      · simp only
        split
        · exact h.normalChan
        · have hci : ci.key = s.key.flip := by
            rw [← hkey]
            rfl
          exact List.forall_mem_append.mpr ⟨h.normalChan, List.forall_mem_singleton.mpr hci⟩
      · exact List.forall_mem_append.mpr
          ⟨h.reached, List.forall_mem_singleton.mpr (hdst ci rfl)⟩
    · exact h

theorem dispatchAll (h : s.Inv) {dst : Addr} {effects : List Effect}
    (hdst : ∀ ci, .passUp ci ∈ effects →
      ∃ iface, s.node.interfaces.lookup iface.Name = some iface ∧ iface.AssignedIP = dst) :
    (effects.foldl (Connection.dispatch dst) s).Inv := by
  induction effects generalizing s with
  | nil => exact h
  | cons effect effects ih =>
    refine ih (h.dispatch fun ci hci => hdst ci (hci ▸ List.mem_cons_self ..)) fun ci hci => ?_
    rw [dispatch_node]
    exact hdst ci (List.mem_cons_of_mem _ hci)

theorem nodeStep (h : s.Inv) {e : NodeInput} (hok : s.Faithful (.node e))
    (hstep : s.nodeStep e = some s') : s'.Inv := by
  cases e with
  | datagram now visit bytes =>
    simp only [Connection.nodeStep] at hstep
    split at hstep
    · contradiction
    · next node effects hpackets =>
      obtain ⟨table, rfl, -⟩ := Node.perform_reach hpackets
      cases hstep
      exact (h.withRoutes table).dispatchAll fun ci hci => (Node.passed_up hok hpackets hci).2
  | collect now | periodic =>
    obtain ⟨node, hnode, rfl⟩ := Option.map_eq_some_iff.mp hstep
    obtain ⟨table, rfl, -⟩ := Node.step_reach hnode
    exact h.withRoutes table

theorem retry (h : s.Inv) (tries : ℕ) : (s.retry tries).Inv := by
  unfold Connection.retry
  split
  · exact ⟨h.address, h.handshake, h.normalChan, by simp, by simp, h.reached⟩
  · exact ⟨h.address, h.sends (connectSegment_outbound ..), h.normalChan, by simp, by simp,
      h.reached⟩

theorem established (h : s.Inv) (ci : TCPInfo) : (s.established ci).Inv := by
  refine ⟨h.address, h.sends (connectSegment_outbound ..), h.normalChan,
    by simp [Connection.established], fun p hp => ?_, h.reached⟩
  cases hp
  exact Endpoint.Outbound.start rfl

/-- A step of a thread of the socket. -/
theorem thread (h : s.Inv) {p p' : Endpoint} (hphase : s.phase = .running p) {e : EndpointEvent}
    (harrive : ∀ received, e = .arrive received → received.key = s.key.flip)
    (hstep : p.step e = some p') : { s with phase := .running p' }.Inv := by
  refine ⟨h.address, h.handshake, h.normalChan, by simp, fun q hq => ?_, h.reached⟩
  cases hq
  exact (h.running p hphase).step harrive hstep

theorem take (h : s.Inv) (hstep : s.take = some s') : s'.Inv := by
  unfold Connection.take at hstep
  split at hstep
  · contradiction
  · next ci more hchan =>
    have hci : ci.key = s.key.flip := h.normalChan ci (hchan ▸ List.mem_cons_self ..)
    have hmore : { s with normalChan := more }.Inv := by
      refine ⟨h.address, h.handshake, fun ci' hci' => ?_, h.pending, h.running, h.reached⟩
      exact h.normalChan ci' (hchan ▸ List.mem_cons_of_mem _ hci')
    simp only at hstep
    split at hstep
    · cases hstep
      split
      · exact hmore.established ci
      · exact hmore.retry _
    · next p hphase =>
      obtain ⟨p', hp, rfl⟩ := Option.map_eq_some_iff.mp hstep
      refine hmore.thread hphase (fun received harrive => ?_) hp
      cases harrive
      exact hci
    · contradiction
    · contradiction

theorem step (h : s.Inv) {e : ConnectionEvent} (hok : s.Faithful e)
    (hstep : s.step e = some s') : s'.Inv := by
  cases e with
  | node e => exact h.nodeStep hok hstep
  | timeout =>
    simp only [Connection.step] at hstep
    split at hstep
    · cases hstep
      exact h.retry _
    · contradiction
  | take => exact h.take hstep
  | complete ci =>
    simp only [Connection.step] at hstep
    split at hstep
    · next sock hphase =>
      split at hstep
      · cases hstep
        refine ⟨h.address, h.handshake, h.normalChan, by simp, fun p hp => ?_, h.reached⟩
        cases hp
        exact Endpoint.Outbound.start (h.pending sock hphase)
      · contradiction
    · contradiction
  | thread e =>
    simp only [Connection.step] at hstep
    split at hstep
    · contradiction
    · next p _ hphase hne =>
      obtain ⟨p', hp, rfl⟩ := Option.map_eq_some_iff.mp hstep
      exact h.thread hphase (fun received harrive => absurd harrive (hne received)) hp
    · contradiction

theorem segments (h : s.Inv) : ∀ p ∈ s.segments, p.Outbound s.key := by
  intro p hp
  rcases List.mem_append.mp hp with hhandshake | hsent
  · exact h.handshake p hhandshake
  · cases hphase : s.phase with
    | synSent tries | synReceived sock | failed => simp [hphase] at hsent
    | running q =>
      rw [hphase] at hsent
      have hq := h.running q hphase
      rcases List.mem_append.mp hsent with hemitted | hreply
      · obtain ⟨m, hm, rfl⟩ := List.mem_map.mp hemitted
        exact hq.emitted m hm
      · exact hq.replies p hreply

end Inv

end Connection

/-- The interface of a name, if there is one, has the address of `if0`. -/
def IPConfig.AddressedAsIf0 (config : IPConfig) (name : String) : Prop :=
  ∀ iface, (interfaceMap config.Interfaces).lookup name = some iface →
    ∃ first, (interfaceMap config.Interfaces).lookup "if0" = some first ∧
      first.AssignedIP = iface.AssignedIP

/-- If a route is found for `dst` and its next hop is a neighbour, then the interface towards
that neighbour has the address of `if0`. -/
def IPConfig.RoutedAsIf0 (config : IPConfig) (visit : Visit) (dst : Addr) : Prop :=
  ∀ found t, FindNext visit.interfaces visit.routes dst = some (found, t) →
    ∀ neighbor, (createNeighborTable config.Neighbors).lookup (if t = .L then dst else found) =
      some neighbor → config.AddressedAsIf0 neighbor.InterfaceName

namespace IPConfig

variable {config : IPConfig} {table : Table Addr}

theorem addressedAsIf0_iff {name : String} {iface : InterfaceConfig}
    (hiface : (interfaceMap config.Interfaces).lookup name = some iface) :
    config.AddressedAsIf0 name ↔ iface.AssignedIP = (config.nodeWith table).IpAddr := by
  unfold AddressedAsIf0 Node.IpAddr nodeWith node
  constructor
  · intro h
    obtain ⟨first, hfirst, hsame⟩ := h iface hiface
    simp only [hfirst, hsame]
  · intro h iface' hiface'
    cases hiface.symm.trans hiface'
    cases hfirst : (interfaceMap config.Interfaces).lookup "if0" with
    -- without `if0` the stack has the zero address, which no interface has
    | none => simp [hfirst, InterfaceConfig.AssignedIP] at h
    | some first =>
      simp only [hfirst] at h
      exact ⟨first, rfl, h.symm⟩

theorem addressedAsIf0_of_only (hone : ∀ iface ∈ config.Interfaces, iface.Name = "if0")
    (name : String) : config.AddressedAsIf0 name := by
  intro iface hlookup
  obtain ⟨hmem, hname⟩ := interfaceMap_lookup hlookup
  rw [← hname, hone iface hmem] at hlookup
  exact ⟨iface, hlookup, rfl⟩

theorem routedAsIf0_of_only (hone : ∀ iface ∈ config.Interfaces, iface.Name = "if0")
    (visit : Visit) (dst : Addr) : config.RoutedAsIf0 visit dst := by
  intro found t hfind neighbor hneighbor
  exact addressedAsIf0_of_only hone neighbor.InterfaceName

/-- What `HandleSend` takes for a source address, in terms of the configuration. -/
theorem routedAsIf0_iff {visit : Visit} {dst : Addr} :
    config.RoutedAsIf0 visit dst ↔
      ∀ iface next, (config.nodeWith table).outgoing visit dst = some (iface, next) →
        iface.AssignedIP = (config.nodeWith table).IpAddr := by
  constructor
  · intro h iface next hout
    obtain ⟨found, t, hfind, rfl, neighbor, hneighbor, hiface⟩ := Node.outgoing_eq_some_iff.mp hout
    exact (addressedAsIf0_iff hiface).mp (h found t hfind neighbor hneighbor)
  · intro h found t hfind neighbor hneighbor iface hiface
    have hout : (config.nodeWith table).outgoing visit dst = some (iface, _) :=
      Node.outgoing_eq_some_iff.mpr ⟨found, t, hfind, rfl, neighbor, hneighbor, hiface⟩
    exact (addressedAsIf0_iff hiface).mpr (h iface _ hout) iface hiface

end IPConfig

section Sockets

variable {config : IPConfig} {node : Node} {requests : List Sent} {start s : Connection}

theorem connection_inv (hopened : Opened node start)
    (h : Reach Connection.step Connection.Faithful start s) : s.Inv :=
  h.invariant Connection.Inv (.of_opened hopened) fun _ _ _ hinv hok hstep => hinv.step hok hstep

/-- Of the node of a socket only the routes change. -/
theorem connection_node (hinit : Initialize config = .ok (node, requests))
    (hopened : Opened node start) (h : Reach Connection.step Connection.Faithful start s) :
    ∃ table, s.node = config.nodeWith table := by
  refine h.invariant (fun s => ∃ table, s.node = config.nodeWith table) ?_
    fun s e s' ⟨table, hnode⟩ _ hstep => ?_
  · obtain ⟨rfl, -⟩ := initialize_linked hinit
    cases hopened with
    | vConnect => exact ⟨_, rfl⟩
    | vAccept now visit bytes node' effects ci hvisit hpackets hpassed hsyn =>
      obtain ⟨table, rfl, -⟩ := Node.perform_reach hpackets
      exact ⟨table, rfl⟩
  · obtain ⟨table', hnode'⟩ := Connection.step_node hstep
    rw [hnode', hnode]
    exact ⟨table', rfl⟩

theorem segment_carries_iff (hinit : Initialize config = .ok (node, requests))
    (hopened : Opened node start) (h : Reach Connection.step Connection.Faithful start s)
    {p : TCPPacket} (hp : p ∈ s.segments) {visit : Visit} (hvisit : s.node.Visits visit) :
    s.node.Carries visit p ↔ config.RoutedAsIf0 visit s.key.RemoteAddr := by
  have hinv := connection_inv hopened h
  have hout := hinv.segments p hp
  obtain ⟨table, hnode⟩ := connection_node hinit hopened h
  rw [carries_iff hvisit hout.size, hout.sourceIp, hinv.address, hout.destIp, hnode]
  exact IPConfig.routedAsIf0_iff.symm

theorem reached_iff (hinit : Initialize config = .ok (node, requests))
    (hopened : Opened node start) (h : Reach Connection.step Connection.Faithful start s)
    {dst : Addr} (hdst : dst ∈ s.reached) :
    ∃ iface ∈ config.Interfaces, iface.AssignedIP = dst ∧
      (s.key.LocalAddr = dst ↔ config.AddressedAsIf0 iface.Name) := by
  have hinv := connection_inv hopened h
  obtain ⟨iface, hlookup, hdest⟩ := hinv.reached dst hdst
  obtain ⟨table, hnode⟩ := connection_node hinit hopened h
  have haddress := hinv.address
  rw [hnode] at hlookup haddress
  refine ⟨iface, (interfaceMap_lookup hlookup).1, hdest, ?_⟩
  rw [haddress, IPConfig.addressedAsIf0_iff hlookup, ← hdest]
  exact eq_comm

/-- If `if0` is the only interface of a configuration, then segments are carried as their
pseudo headers say, and what reaches a socket is for its local address. -/
theorem one_interface_addresses (hinit : Initialize config = .ok (node, requests))
    (hopened : Opened node start) (h : Reach Connection.step Connection.Faithful start s)
    (hone : ∀ iface ∈ config.Interfaces, iface.Name = "if0") :
    (∀ p ∈ s.segments, ∀ visit, s.node.Visits visit → s.node.Carries visit p) ∧
      ∀ dst ∈ s.reached, s.key.LocalAddr = dst := by
  constructor
  · intro p hp visit hvisit
    apply (segment_carries_iff hinit hopened h hp hvisit).mpr
    exact IPConfig.routedAsIf0_of_only hone visit _
  · intro dst hdst
    obtain ⟨iface, -, -, hlocal⟩ := reached_iff hinit hopened h hdst
    exact hlocal.mpr (IPConfig.addressedAsIf0_of_only hone iface.Name)

end Sockets

/-- Every segment that a socket sends is carried as its pseudo header says exactly if the route
for the socket's remote address leads to a neighbour that the configuration has on an interface
with the address of `if0`. A packet that reaches the socket was sent to the address of some
interface, and this is the socket's local address exactly if it is that of `if0`. -/
theorem segment_addresses_iff (config : IPConfig) (node : Node) (requests : List Sent)
    (start s : Connection) (hinit : Initialize config = .ok (node, requests))
    (hopened : Opened node start) (h : Reach Connection.step Connection.Faithful start s) :
    (∀ p ∈ s.segments, ∀ visit, s.node.Visits visit →
      (s.node.Carries visit p ↔ config.RoutedAsIf0 visit s.key.RemoteAddr)) ∧
      ∀ dst ∈ s.reached, ∃ iface ∈ config.Interfaces, iface.AssignedIP = dst ∧
        (s.key.LocalAddr = dst ↔ config.AddressedAsIf0 iface.Name) := by
  constructor
  · intro p hp visit hvisit
    exact segment_carries_iff hinit hopened h hp hvisit
  · intro dst hdst
    exact reached_iff hinit hopened h hdst

def synDatagram : List UInt8 :=
  [69, 0, 0, 40, 0, 0, 0, 0, 16, 6, 150, 206, 10, 0, 0, 2, 10, 0, 0, 1,
    0, 90, 0, 80, 0, 0, 19, 136, 0, 0, 0, 0, 80, 2, 255, 255, 135, 174, 0, 0]

def synInfo : TCPInfo where
  key := ⟨.v4 167772162, 90, .v4 167772161, 80⟩
  Flag := tcpFlagSyn
  SeqNum := 5000
  AckNum := 0
  WindowSize := 65535
  Payload := []

/-- The SYN-ACK of the sample host. -/
theorem segment_addresses_host :
    let s := Connection.vAccept hostConfig.node (.v4 167772161) synInfo
    (∀ p ∈ s.segments, s.node.Carries hostVisit p) ∧ ∀ dst ∈ s.reached, s.key.LocalAddr = dst := by
  have hvisit : hostConfig.node.Visits hostVisit := ⟨.refl _, .refl _, .refl _⟩
  have hopened : Opened hostConfig.node
      (.vAccept hostConfig.node (destination synDatagram) synInfo) :=
    .vAccept 0 hostVisit synDatagram hostConfig.node [.passUp synInfo] synInfo hvisit rfl
      (List.mem_singleton_self _) rfl
  have hdst : destination synDatagram = .v4 167772161 := by decide
  rw [hdst] at hopened
  obtain ⟨hsegments, hreached⟩ :=
    segment_addresses_iff hostConfig hostConfig.node [] _ _ rfl hopened .refl
  have hif : ∀ iface ∈ hostConfig.Interfaces, iface.Name = "if0" := by decide
  constructor
  · intro p hp
    apply (hsegments p hp hostVisit hvisit).mpr
    exact IPConfig.routedAsIf0_of_only hif hostVisit _
  · intro dst hdst
    obtain ⟨iface, -, -, hlocal⟩ := hreached dst hdst
    exact hlocal.mpr (IPConfig.addressedAsIf0_of_only hif iface.Name)

/-- A host with a second interface `if1`, 10.1.0.1, towards 10.1.0.2. -/
def twoHomedConfig : IPConfig where
  Interfaces := [⟨"if0", .slash 167772161 24, ⟨2130706433, 5000⟩⟩,
    ⟨"if1", .slash 167837697 24, ⟨2130706433, 5002⟩⟩]
  Neighbors := [⟨167772162, ⟨2130706433, 5001⟩, "if0"⟩, ⟨167837698, ⟨2130706433, 5003⟩, "if1"⟩]
  OriginatingPrefixes := []
  RoutingMode := .none
  RipNeighbors := []
  StaticRoutes := ∅

def twoHomedVisit : Visit where
  interfaces := twoHomedConfig.node.interfaces.entries.map fun entry => entry.2
  again := twoHomedConfig.node.interfaces.entries.map fun entry => entry.2
  routes := visited twoHomedConfig.node.forwardingTable

/-- The SYN that the host sends to 10.1.0.2 leaves with the address of `if1`, and its checksum
is that for the address of `if0`. -/
theorem second_interface_mismatch :
    ¬ ∀ (config : IPConfig) (node : Node) (requests : List Sent) (start s : Connection)
      (visit : Visit), Initialize config = .ok (node, requests) → Opened node start →
      Reach Connection.step Connection.Faithful start s → s.node.Visits visit →
      (∀ p ∈ s.segments, s.node.Carries visit p) ∧ ∀ dst ∈ s.reached, s.key.LocalAddr = dst := by
  intro hclaim
  have hvisit : twoHomedConfig.node.Visits twoHomedVisit := ⟨.refl _, .refl _, .refl _⟩
  obtain ⟨hcarries, -⟩ := hclaim twoHomedConfig twoHomedConfig.node [] _ _ twoHomedVisit rfl
    (.vConnect (.v4 167837698) 80 20000) .refl hvisit
  have hsource := (carries_iff hvisit (Nat.zero_le _)).mp (hcarries _ (List.mem_singleton_self _))
    ⟨"if1", ⟨167837697, 24, by decide⟩, ⟨2130706433, 5002⟩⟩ (.v4 167837698) (by decide)
  exact absurd hsource (by decide)

end IpTcp
