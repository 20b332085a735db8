import IpTcp.Handshake
import IpTcp.Network

/-!
A connection whose segments travel as packets through a network of nodes. Every segment is
marshalled and given to HandleSend on the host of its side; what the network hands to the
handler of TCP is unmarshalled, checked and dispatched by its key. The network may lose and
reorder packets, change its routes at any time and carry other traffic. The program cannot
tell a segment of somebody else with the addresses and ports of the connection from one of
the connection, so we assume that no such segment arrives. Then the bytes that leave a socket
are those that entered the other one, in order, because each segment that is passed up under
the key of the connection is one that was sent.
-/
namespace IpTcp

open Runs

def Handover.passedUp (handover : Handover) : Option TCPInfo :=
  if handover.header.Protocol = 6 then
    match protocol6 handover.node.IpAddr handover.data handover.header.Src handover.header.Dst with
    | .ok info => info
    | .error _ => none
  else none

def Handshake.keyOf (s : Handshake) : Side → SocketTableKey
  | .client => s.key
  | .server => s.key.flip

/-- A connection and the network below it. The calls of HandleSend that carry its segments are
recorded with the side that made them. -/
structure Transport (ι : Type*) where
  connection : Handshake
  network : Network ι
  calls : List (ℕ × Side)

inductive TransportEvent (ι : Type*)
  | timeout
  | own (side : Side) (e : EndpointEvent)
  | send (side : Side) (k : ℕ) (visit : Visit)
  | network (e : NetworkEvent ι)
  | arrive (side : Side) (h : ℕ)

namespace Transport

variable {ι : Type*}

def start (key : SocketTableKey) (nodes : ι → Node) : Transport ι where
  connection := .start key
  network := .start nodes
  calls := []

/-- The segment that the `h`-th packet brings to a side, if the dispatcher finds the connection
under its key. -/
def incoming (s : Transport ι) (side : Side) (h : ℕ) : Option TCPInfo :=
  match s.network.handed[h]? with
  | some handover => handover.passedUp.filter fun info => info.key.flip = s.connection.keyOf side
  | none => none

def CarriesFor (s : Transport ι) (side : Side) (h : ℕ) : Prop :=
  ∃ handover ∈ s.network.handed[h]?, ∃ o ∈ s.calls, handover.origin = some o.1 ∧ o.2 = side

instance (s : Transport ι) (side : Side) (h : ℕ) : Decidable (s.CarriesFor side h) :=
  inferInstanceAs (Decidable (∃ handover ∈ s.network.handed[h]?, ∃ o ∈ s.calls,
    handover.origin = some o.1 ∧ o.2 = side))

/-- What is dispatched to a side comes from the socket of the other one. -/
def Exclusive (s : Transport ι) (side : Side) (h : ℕ) : Prop :=
  (s.incoming side h).isSome → s.CarriesFor side.other h

instance (s : Transport ι) (side : Side) (h : ℕ) : Decidable (s.Exclusive side h) :=
  inferInstanceAs (Decidable ((s.incoming side h).isSome → s.CarriesFor side.other h))

/-- What is dispatched to a socket that runs does not open a connection. -/
def Follows (s : Transport ι) (side : Side) (h : ℕ) : Prop :=
  match s.connection.phase side with
  | some (.running _) =>
      ∀ info ∈ s.incoming side h, info.Flag ≠ tcpFlagSyn ∧ info.Flag ≠ synAck
  | some (.synSent _) | some (.synReceived _) | some .failed | none => True

instance (s : Transport ι) (side : Side) (h : ℕ) : Decidable (s.Follows side h) :=
  match hphase : s.connection.phase side with
  | some (.running _) => decidable_of_iff
      (∀ info ∈ s.incoming side h, info.Flag ≠ tcpFlagSyn ∧ info.Flag ≠ synAck)
      (by simp [Follows, hphase])
  | some (.synSent _) | some (.synReceived _) | some .failed | none =>
      .isTrue (by simp [Follows, hphase])

variable [DecidableEq ι] (host : Side → ι)

def step (s : Transport ι) : TransportEvent ι → Option (Transport ι)
  | .timeout => (s.connection.step .timeout).map fun c => { s with connection := c }
  | .own side e => (s.connection.step (.own side e)).map fun c => { s with connection := c }
  | .send side k visit => match (s.connection.sent side)[k]? with
      | some packet =>
          (s.network.step (.inject (host side) visit packet.destIp packet.marshallTCPPacket 6)).map
            fun n => { s with
              network := n
              calls := s.calls ++ [(s.network.injected.length, side)] }
      | none => none
  | .network e => (s.network.step e).map fun n => { s with network := n }
  | .arrive side h => match s.incoming side h with
      | some info => (s.connection.receive side info).map fun c => { s with connection := c }
      | none => none

/-- The threads are careful, no segment of anybody else reaches a socket, neither a SYN nor a
SYN-ACK reaches a running one, and the nodes visit their maps in orders of their own. -/
def Careful (s : Transport ι) : TransportEvent ι → Prop
  | .timeout => True
  | .own side e => s.connection.Careful (.own side e)
  | .send side k visit => ∀ packet ∈ (s.connection.sent side)[k]?,
      s.network.Orderly (.inject (host side) visit packet.destIp packet.marshallTCPPacket 6)
  | .network e => s.network.Orderly e
  | .arrive side h => s.Exclusive side h ∧ s.Follows side h

instance (s : Transport ι) (e : TransportEvent ι) : Decidable (s.Careful host e) :=
  match e with
  | .timeout => .isTrue trivial
  | .own side e => inferInstanceAs (Decidable (s.connection.Careful (.own side e)))
  | .send side k visit => inferInstanceAs (Decidable (∀ packet ∈ (s.connection.sent side)[k]?,
      s.network.Orderly (.inject (host side) visit packet.destIp packet.marshallTCPPacket 6)))
  | .network e => inferInstanceAs (Decidable (s.network.Orderly e))
  | .arrive side h => inferInstanceAs (Decidable (s.Exclusive side h ∧ s.Follows side h))

end Transport

/-- What a socket has sent stays sent. -/
theorem Endpoint.Step.sent_subset {p p' : Endpoint} {e : EndpointEvent} (h : Step p e p') :
    p.sent ⊆ p'.sent := by
  obtain ⟨out, hout⟩ := h.emits
  have hreplies : p.replies ⊆ p'.replies := by
    cases h with
    | reply received packet => exact List.subset_append_left _ _
    | _ => exact List.Subset.refl _
  intro packet hpacket
  rcases List.mem_append.mp hpacket with hemitted | hreply
  · refine List.mem_append_left _ ?_
    rw [hout, List.map_append]
    exact List.mem_append_left _ hemitted
  · exact List.mem_append_right _ (hreplies hreply)

theorem Endpoint.Outbound.replied {key : SocketTableKey} {p : Endpoint} (h : p.Outbound key)
    {packet : TCPPacket} (hpacket : packet.Outbound key) : (p.replied packet).Outbound key :=
  ⟨h.sock, h.sender, h.arriving, h.closers, h.emitted,
    List.forall_mem_append.mpr ⟨h.replies, List.forall_mem_singleton.mpr hpacket⟩⟩

namespace Handshake

variable {key : SocketTableKey} {s s' : Handshake} {side : Side}

theorem sent_put {phase : SocketPhase} {sent : List TCPPacket}
    (h : (s.phase side).elim [] SocketPhase.sent ⊆ phase.sent) (side' : Side) :
    s.sent side' ⊆ (s.put side phase sent).sent side' := by
  rw [Handshake.sent, Handshake.sent, phase_put, opening_put]
  split
  · next heq =>
    subst heq
    exact List.append_subset.mpr
      ⟨fun q hq => List.mem_append_left _ (List.mem_append_left _ hq),
        fun q hq => List.mem_append_right _ (h hq)⟩
  · exact List.Subset.refl _

theorem sent_retry {tries : ℕ} (hphase : s.phase side = some (.synSent tries))
    (side' : Side) : s.sent side' ⊆ (s.retry side tries).sent side' := by
  unfold retry
  split
  · exact sent_put (by simp [hphase]) side'
  · exact sent_put (by simp [hphase]) side'

/-- What a side has sent stays sent. -/
theorem sent_receive {ci : TCPInfo} (h : Receives s side ci s') (side' : Side) :
    s.sent side' ⊆ s'.sent side' := by
  cases h with
  | ignored => exact List.Subset.refl _
  | syn hphase _ => exact sent_put (by simp [hphase]) side'
  | synAck tries hphase _ => exact sent_put (by simp [hphase]) side'
  | retry tries hphase _ => exact sent_retry hphase side'
  | ack sock hphase _ => exact sent_put (by simp [hphase]) side'
  | segment p p' hphase hnext =>
    refine sent_put ?_ side'
    rw [hphase]
    exact (Endpoint.step_step hnext).2.sent_subset

def Outbound (s : Handshake) : Prop :=
  ∀ side p, s.phase side = some (.running p) → p.Outbound (s.keyOf side)

theorem Outbound.start (key : SocketTableKey) : (start key).Outbound := by
  intro side p hphase
  cases side <;> cases hphase

theorem Outbound.put (h : s.Outbound) {phase : SocketPhase} {sent : List TCPPacket}
    (hphase : ∀ p, phase = .running p → p.Outbound (s.keyOf side)) :
    (s.put side phase sent).Outbound := by
  intro side' p hp
  rw [phase_put] at hp
  split at hp
  · next heq =>
    cases hp
    exact heq ▸ hphase p rfl
  · exact h side' p hp

theorem Outbound.retry (h : s.Outbound) (side : Side) (tries : ℕ) :
    (s.retry side tries).Outbound := by
  unfold Handshake.retry
  split
  · exact h.put (by simp)
  · exact h.put (by simp)

theorem Outbound.receive (h : s.Outbound) (hsound : Sound key s) {ci : TCPInfo}
    (hkey : ci.key.flip = s.keyOf side) (hstep : Receives s side ci s') : s'.Outbound := by
  cases hstep with
  | ignored => exact h
  | syn hphase _ => exact h.put (by simp)
  | synAck tries hphase _ =>
    refine h.put fun p hp => ?_
    cases hp
    obtain rfl := hsound.stage.eq_client hphase
    have hstart : (Endpoint.start { newSocket s.key (ci.AckNum - 1) ci.SeqNum ci.WindowSize with
        cumWriteUNA := ci.AckNum }).Outbound s.key := .start rfl
    exact hstart.replied (Connection.connectSegment_outbound ..)
  | retry tries hphase _ => exact h.retry side tries
  | ack sock hphase _ =>
    refine h.put fun p hp => ?_
    cases hp
    obtain rfl : side = .server :=
      hsound.stage.eq_server (by simp [Unconnected, hphase]) (by simp [hphase])
    obtain rfl := hsound.stage.pending_eq hphase
    exact Endpoint.Outbound.start rfl
  | segment p p' hphase hnext =>
    refine h.put fun q hq => ?_
    cases hq
    refine (h side p hphase).step (fun received hr => ?_) hnext
    cases hr
    rw [← hkey]
    rfl

/-- Every segment of a side goes out under the key of its socket. -/
theorem Outbound.sent (h : s.Outbound) (hsound : Sound key s) {packet : TCPPacket}
    (hpacket : packet ∈ s.sent side) : packet.Outbound (s.keyOf side) := by
  rcases List.mem_append.mp hpacket with hopening | hsocket
  · rw [hsound.opening side packet hopening]
    cases side with
    | client => exact Connection.connectSegment_outbound ..
    | server => exact ⟨rfl, rfl, Nat.zero_le _⟩
  · cases hphase : s.phase side with
    | none => simp [hphase] at hsocket
    | some phase =>
      cases phase with
      | running p =>
        rw [hphase] at hsocket
        rcases List.mem_append.mp hsocket with hemitted | hreply
        · obtain ⟨m, hm, rfl⟩ := List.mem_map.mp hemitted
          exact (h side p hphase).emitted m hm
        · exact (h side p hphase).replies packet hreply
      | synSent _ | synReceived _ | failed => simp [hphase] at hsocket

/-- A segment that was sent can be delivered, unless it opens a connection that runs already. -/
theorem Sound.exists_deliver (h : Sound key s) {packet : TCPPacket}
    (hpacket : packet ∈ s.sent side.other)
    (hok : ∀ p, s.phase side = some (.running p) →
      packet.flags ≠ tcpFlagSyn ∧ packet.flags ≠ synAck) :
    ∃ k, (s.sent side.other)[k]? = some packet ∧ s.Careful (.deliver side k) := by
  rcases List.mem_append.mp hpacket with hopening | hsocket
  · obtain ⟨k, hk⟩ := List.getElem?_of_mem hopening
    have hlt := (List.getElem?_eq_some_iff.mp hk).1
    refine ⟨k, (List.getElem?_append_left hlt).trans hk, ?_⟩
    simp only [Careful]
    split
    · next p hphase =>
      obtain ⟨hsyn, hsynAck⟩ := hok p hphase
      rw [h.opening side.other packet hopening] at hsyn hsynAck
      cases side with
      | client => exact absurd rfl hsynAck
      | server => exact absurd rfl hsyn
    · trivial
  · obtain ⟨k, hk⟩ := List.getElem?_of_mem hsocket
    refine ⟨(s.opening side.other).length + k, ?_, ?_⟩
    · rw [Handshake.sent, List.getElem?_append_right (Nat.le_add_right ..), Nat.add_sub_cancel_left]
      exact hk
    · simp only [Careful]
      split
      · exact Nat.le_add_right ..
      · trivial

end Handshake

theorem protocol6_src {IpAddr src dst : Addr} {m : List UInt8} {info : TCPInfo}
    (h : protocol6 IpAddr m src dst = .ok (some info)) : info.key.LocalAddr = src := by
  unfold protocol6 at h
  split at h
  · contradiction
  · split at h
    · contradiction
    · simp only at h
      split at h
      · cases h
      · split at h
        · contradiction
        · cases h
          rfl

theorem Handshake.keyOf_other (s : Handshake) (side : Side) :
    s.keyOf side.other = (s.keyOf side).flip := by
  cases side <;> rfl

theorem Handover.protocol6_of_passedUp (handover : Handover) {src dst : Addr}
    {data : List UInt8} (hproper : handover.Proper ⟨src, dst, 6, data⟩) {info : TCPInfo}
    (h : handover.passedUp = some info) :
    protocol6 handover.node.IpAddr data src dst = .ok (some info) := by
  unfold passedUp at h
  rw [hproper.src, hproper.dst, hproper.data] at h
  split at h
  · split at h
    · next heq =>
      rw [h] at heq
      exact heq
    · contradiction
  · contradiction

/-- A segment that is passed up under a key is one that was sent under it. -/
theorem passedUp_eq {key : SocketTableKey} {packet : TCPPacket} (hpacket : packet.Outbound key)
    {IpAddr src : Addr} {info : TCPInfo}
    (hinfo : protocol6 IpAddr packet.marshallTCPPacket src packet.destIp = .ok (some info))
    (hkey : info.key = key) : info = packet.info := by
  have hsrc : src = packet.sourceIp := by
    rw [hpacket.sourceIp, ← hkey]
    exact (protocol6_src hinfo).symm
  have hremote : IpAddr = packet.destIp := by
    rw [hpacket.destIp, ← hkey]
    exact (protocol6_key hinfo).symm
  rw [hsrc, packet.protocol6_marshall, Except.ok.injEq, Option.some.injEq] at hinfo
  rw [← hinfo, hremote]
  rfl

namespace Transport

variable {ι : Type*} {key : SocketTableKey} {s s' : Transport ι}

structure Carrying (key : SocketTableKey) (s : Transport ι) : Prop where
  reach : Reach Handshake.step Handshake.Careful (Handshake.start key) s.connection
  outbound : s.connection.Outbound
  consistent : s.network.Consistent
  calls : ∀ o ∈ s.calls, ∃ packet ∈ s.connection.sent o.2, ∃ src,
    s.network.injected[o.1]? = some ⟨src, packet.destIp, 6, packet.marshallTCPPacket⟩

theorem Carrying.start (key : SocketTableKey) (nodes : ι → Node) :
    Carrying key (start key nodes) where
  reach := .refl
  outbound := .start key
  consistent := Network.consistent_start nodes
  calls := by simp [Transport.start]

namespace Carrying

/-- What is dispatched to a side, the other side has sent. -/
theorem incoming (h : Carrying key s) {side : Side} {n : ℕ} {info : TCPInfo}
    (hexclusive : s.Exclusive side n) (hinfo : s.incoming side n = some info) :
    info.key.flip = s.connection.keyOf side ∧
      ∃ packet ∈ s.connection.sent side.other, info = packet.info := by
  obtain ⟨handover, hhanded, o, ho, horigin, hside⟩ := hexclusive (hinfo ▸ rfl)
  have hhanded : s.network.handed[n]? = some handover := hhanded
  simp only [Transport.incoming, hhanded] at hinfo
  obtain ⟨hpassed, hkey⟩ := Option.filter_eq_some_iff.mp hinfo
  have hkey := of_decide_eq_true hkey
  obtain ⟨packet, hpacket, src, hinjected⟩ := h.calls o ho
  rw [hside] at hpacket
  have hout := h.outbound.sent (Handshake.Sound.reach h.reach) hpacket
  have hsize : packet.marshallTCPPacket.length ≤ 1380 := by
    have hpayload : packet.payload.length ≤ 1360 := hout.size
    rw [packet.length_marshall]
    omega
  have hproper := (h.consistent.calls o.1 _ hinjected hsize).proper handover
    (List.mem_of_getElem? hhanded) horigin
  have hprotocol := handover.protocol6_of_passedUp hproper hpassed
  refine ⟨hkey, packet, hpacket, passedUp_eq hout hprotocol ?_⟩
  rw [s.connection.keyOf_other, ← hkey]
  rfl

/-- The connection goes on. -/
theorem connection (h : Carrying key s) {c : Handshake}
    (hreach : Reach Handshake.step Handshake.Careful (Handshake.start key) c)
    (hout : c.Outbound) (hsent : ∀ side, s.connection.sent side ⊆ c.sent side) :
    Carrying key { s with connection := c } where
  reach := hreach
  outbound := hout
  consistent := h.consistent
  calls o ho := by
    obtain ⟨packet, hpacket, hinjected⟩ := h.calls o ho
    exact ⟨packet, hsent o.2 hpacket, hinjected⟩

theorem timeout (h : Carrying key s) {c : Handshake}
    (hstep : s.connection.step .timeout = some c) : Carrying key { s with connection := c } := by
  have hreach := h.reach.tail HandshakeEvent.timeout trivial hstep
  obtain ⟨tries, hclient, rfl⟩ := Handshake.step_timeout hstep
  exact h.connection hreach (h.outbound.retry _ _) (Handshake.sent_retry hclient)

/-- A thread of a socket takes a step. -/
theorem own (h : Carrying key s) {side : Side} {e : EndpointEvent} {c : Handshake}
    (hok : s.connection.Careful (.own side e)) (hstep : s.connection.step (.own side e) = some c) :
    Carrying key { s with connection := c } := by
  have hreach := h.reach.tail _ hok hstep
  obtain ⟨p, p', hphase, hne, hnext, rfl⟩ := Handshake.step_own hstep
  refine h.connection hreach (h.outbound.put fun q hq => ?_) (Handshake.sent_put ?_)
  · cases hq
    exact (h.outbound side p hphase).step (fun r hr => absurd hr (hne r)) hnext
  · rw [hphase]
    exact (Endpoint.step_step hnext).2.sent_subset

/-- A segment that reaches its side is one that the other side has sent, so the connection
takes a step of its own. -/
theorem delivers (h : Carrying key s) {side : Side} {n : ℕ} {info : TCPInfo} {c : Handshake}
    (hok : s.Exclusive side n ∧ s.Follows side n) (hinfo : s.incoming side n = some info)
    (hstep : s.connection.receive side info = some c) :
    ∃ k, s.connection.Careful (.deliver side k) ∧
      s.connection.step (.deliver side k) = some c := by
  obtain ⟨hexclusive, hfollows⟩ := hok
  obtain ⟨-, packet, hpacket, rfl⟩ := h.incoming hexclusive hinfo
  obtain ⟨k, hk, hcareful⟩ := (Handshake.Sound.reach h.reach).exists_deliver hpacket
    fun p hphase => by
      simp only [Follows, hphase] at hfollows
      exact hfollows _ hinfo
  exact ⟨k, hcareful, by simp only [Handshake.step, hk, hstep]⟩

theorem arrive (h : Carrying key s) {side : Side} {n : ℕ} {info : TCPInfo} {c : Handshake}
    (hok : s.Exclusive side n ∧ s.Follows side n) (hinfo : s.incoming side n = some info)
    (hstep : s.connection.receive side info = some c) :
    Carrying key { s with connection := c } := by
  obtain ⟨k, hcareful, hdeliver⟩ := h.delivers hok hinfo hstep
  obtain ⟨hkey, packet, hpacket, rfl⟩ := h.incoming hok.1 hinfo
  have hreceives := Handshake.receive_receives hstep
  exact h.connection (h.reach.tail (.deliver side k) hcareful hdeliver)
    (h.outbound.receive (Handshake.Sound.reach h.reach) hkey hreceives)
    (Handshake.sent_receive hreceives)

variable [DecidableEq ι] {host : Side → ι}

/-- The network goes on. -/
theorem network (h : Carrying key s) {e : NetworkEvent ι} {n : Network ι}
    (hok : s.network.Orderly e) (hstep : s.network.step e = some n) :
    Carrying key { s with network := n } where
  reach := h.reach
  outbound := h.outbound
  consistent := h.consistent.step hok hstep
  calls o ho := by
    obtain ⟨packet, hpacket, src, hinjected⟩ := h.calls o ho
    exact ⟨packet, hpacket, src, Network.injected_kept hok hstep hinjected⟩

/-- A segment is given to HandleSend. -/
theorem send (h : Carrying key s) {side : Side} {k : ℕ} {visit : Visit} {packet : TCPPacket}
    {n : Network ι} (hpacket : (s.connection.sent side)[k]? = some packet)
    (hok : s.network.Orderly
      (.inject (host side) visit packet.destIp packet.marshallTCPPacket 6))
    (hstep : s.network.step
      (.inject (host side) visit packet.destIp packet.marshallTCPPacket 6) = some n) :
    Carrying key { s with
      network := n
      calls := s.calls ++ [(s.network.injected.length, side)] } := by
  have hnext := h.network hok hstep
  refine ⟨hnext.reach, hnext.outbound, hnext.consistent, ?_⟩
  refine List.forall_mem_append.mpr ⟨hnext.calls, List.forall_mem_singleton.mpr ?_⟩
  obtain ⟨node, -, rfl⟩ := Option.map_eq_some_iff.mp hstep
  exact ⟨packet, List.mem_of_getElem? hpacket, node.source visit packet.destIp, by simp⟩

theorem step (h : Carrying key s) {e : TransportEvent ι} (hok : s.Careful host e)
    (hstep : s.step host e = some s') : Carrying key s' := by
  cases e with
  | timeout =>
    obtain ⟨c, hc, rfl⟩ := Option.map_eq_some_iff.mp hstep
    exact h.timeout hc
  | own side e =>
    obtain ⟨c, hc, rfl⟩ := Option.map_eq_some_iff.mp hstep
    exact h.own hok hc
  | send side k visit =>
    simp only [Transport.step] at hstep
    split at hstep
    · next packet hpacket =>
      obtain ⟨n, hn, rfl⟩ := Option.map_eq_some_iff.mp hstep
      exact h.send hpacket (hok packet hpacket) hn
    · contradiction
  | network e =>
    obtain ⟨n, hn, rfl⟩ := Option.map_eq_some_iff.mp hstep
    exact h.network hok hn
  | arrive side n =>
    simp only [Transport.step] at hstep
    split at hstep
    · next info hinfo =>
      obtain ⟨c, hc, rfl⟩ := Option.map_eq_some_iff.mp hstep
      exact h.arrive hok hinfo hc
    · contradiction

/-- The connection stays as it is, or it takes a careful step. -/
theorem connection_step (h : Carrying key s) {e : TransportEvent ι} (hok : s.Careful host e)
    (hstep : s.step host e = some s') :
    s'.connection = s.connection ∨
      ∃ e', s.connection.Careful e' ∧ s.connection.step e' = some s'.connection := by
  cases e with
  | timeout =>
    obtain ⟨c, hc, rfl⟩ := Option.map_eq_some_iff.mp hstep
    exact Or.inr ⟨.timeout, trivial, hc⟩
  | own side e =>
    obtain ⟨c, hc, rfl⟩ := Option.map_eq_some_iff.mp hstep
    exact Or.inr ⟨.own side e, hok, hc⟩
  | send side k visit =>
    simp only [Transport.step] at hstep
    split at hstep
    · obtain ⟨n, -, rfl⟩ := Option.map_eq_some_iff.mp hstep
      exact Or.inl rfl
    · contradiction
  | network e =>
    obtain ⟨n, -, rfl⟩ := Option.map_eq_some_iff.mp hstep
    exact Or.inl rfl
  | arrive side n =>
    simp only [Transport.step] at hstep
    split at hstep
    · next info hinfo =>
      obtain ⟨c, hc, rfl⟩ := Option.map_eq_some_iff.mp hstep
      obtain ⟨k, hcareful, hdeliver⟩ := h.delivers hok hinfo hc
      exact Or.inr ⟨.deliver side k, hcareful, hdeliver⟩
    · contradiction

end Carrying

def toServer (k n : ℕ) : List (TransportEvent Bool) :=
  [.send .client k hostVisit, .network (.transmit 0),
    .network (.receive 0 true 0 Network.peerVisit), .arrive .server n]

end Transport

end IpTcp
