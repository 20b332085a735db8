import IpTcp.Outgoing
import IpTcp.Stamps

/-!
Two connected sockets and the network between them. Either side may take any step of any
of its threads at any time, and the network may hand a socket any segment that the other
side ever sent, late, again or never. In runs of careful steps the bytes that one side has
read, followed by those it can read, are the beginning of what VWrite stored on the other
side, and they contain everything that was acknowledged there.
-/
namespace IpTcp

open Runs Feeding Incoming Outgoing

inductive Side
  | client
  | server
  deriving DecidableEq, Repr

def Side.other : Side → Side
  | .client => .server
  | .server => .client

@[simp] theorem Side.other_other (side : Side) : side.other.other = side := by
  cases side <;> rfl

theorem Side.eq_or_other (side side' : Side) : side = side' ∨ side = side'.other := by
  cases side <;> cases side' <;> decide

theorem Side.other_ne (side : Side) : side.other ≠ side := by
  cases side <;> decide

def Endpoint.sent (p : Endpoint) : List TCPPacket := p.emitted.map Emission.packet ++ p.replies

def Endpoint.replied (p : Endpoint) (packet : TCPPacket) : Endpoint :=
  { p with replies := p.replies ++ [packet] }

structure Conversation where
  party : Side → Endpoint

/-- A side takes a step of its own, or the network hands it one of the segments that the
other side has sent. -/
inductive ConversationEvent
  | own (side : Side) (e : EndpointEvent)
  | deliver (side : Side) (k : ℕ)

namespace Conversation

def handshakeAck (key : SocketTableKey) (seq ack : UInt32) : TCPPacket where
  sourceIp := key.LocalAddr
  destIp := key.RemoteAddr
  payload := []
  flags := tcpFlagAck
  sourcePort := key.LocalPort
  destPort := key.RemotePort
  seqNum := seq + 1
  ackNum := ack + 1
  window := 65535

/-- The sockets as the handshake leaves them. Its last segment may still be under way. -/
def start (key : SocketTableKey) (seq ack : UInt32) (window window' : UInt16) :
    Conversation where
  party
    | .client => (Endpoint.start (newSocket key seq ack window)).replied (handshakeAck key seq ack)
    | .server => Endpoint.start (newSocket key.flip ack seq window')

def put (c : Conversation) (side : Side) (p : Endpoint) : Conversation :=
  ⟨Function.update c.party side p⟩

def step (c : Conversation) : ConversationEvent → Option Conversation
  | .own side e =>
      match e with
      | .arrive _ => none
      | _ => ((c.party side).step e).map (c.put side)
  | .deliver side k =>
      match (c.party side.other).sent[k]? with
      | some packet => ((c.party side).step (.arrive packet.info)).map (c.put side)
      | none => none

/-- Each side is careful; the network is not restricted. -/
def Careful (c : Conversation) : ConversationEvent → Prop
  | .own side e => Outgoing.Careful (c.party side) e
  | .deliver _ _ => True

instance (c : Conversation) (e : ConversationEvent) : Decidable (c.Careful e) :=
  match e with
  | .own side e => inferInstanceAs (Decidable (Outgoing.Careful (c.party side) e))
  | .deliver _ _ => .isTrue trivial

/-- In every step one side moves, and what reaches it was sent by the other. -/
theorem step_cases {c c' : Conversation} {e : ConversationEvent} (hok : c.Careful e)
    (h : c.step e = some c') :
    ∃ side e' p', c' = c.put side p' ∧ (c.party side).step e' = some p' ∧
      Outgoing.Careful (c.party side) e' ∧
      ∀ r, e' = .arrive r → ∃ packet ∈ (c.party side.other).sent, r = packet.info := by
  cases e with
  | own side e =>
    have hown : ∀ e', (∀ r, e' ≠ EndpointEvent.arrive r) →
        Outgoing.Careful (c.party side) e' →
        ((c.party side).step e').map (c.put side) = some c' → ∃ side e' p', c' = c.put side p' ∧
          (c.party side).step e' = some p' ∧ Outgoing.Careful (c.party side) e' ∧
          ∀ r, e' = .arrive r → ∃ packet ∈ (c.party side.other).sent, r = packet.info := by
      intro e' hne hcareful hmap
      obtain ⟨p', hstep, rfl⟩ := Option.map_eq_some_iff.mp hmap
      exact ⟨side, e', p', rfl, hstep, hcareful, fun r hr => absurd hr (hne r)⟩
    unfold step at h
    simp only at h
    split at h
    · contradiction
    · next hne => exact hown e hne hok h
  | deliver side k =>
    simp only [step] at h
    split at h
    · next packet hsent =>
      obtain ⟨p', hstep, rfl⟩ := Option.map_eq_some_iff.mp h
      refine ⟨side, _, p', rfl, hstep, trivial, ?_⟩
      intro r hr
      exact ⟨packet, List.mem_of_getElem? hsent, (EndpointEvent.arrive.inj hr).symm⟩
    · contradiction

section Step

variable {c : Conversation} {side : Side} {p' : Endpoint}

theorem step_own {e : EndpointEvent} (hne : ∀ r, e ≠ .arrive r)
    (hstep : (c.party side).step e = some p') :
    c.step (.own side e) = some (c.put side p') := by
  simp only [step]
  rw [hstep]
  rfl

theorem step_deliver {k : ℕ} {packet : TCPPacket}
    (hk : (c.party side.other).sent[k]? = some packet)
    (hstep : (c.party side).step (.arrive packet.info) = some p') :
    c.step (.deliver side k) = some (c.put side p') := by
  simp only [step, hk, hstep]
  rfl

end Step

end Conversation

/-- The number behind the last byte that the socket has room for. -/
def NormalSocket.edge (sock : NormalSocket) : ℕ :=
  sock.cumReadNXT.toNat + sock.readBuffer.window.toNat

/-- An acknowledgement number and a window that the socket still stands by. -/
structure NormalSocket.Honours (b : UInt32) (sock : NormalSocket) (ackNum : UInt32)
    (window : UInt16) : Prop where
  low : b.toNat + 1 ≤ ackNum.toNat
  high : ackNum.toNat ≤ sock.cumReadNXT.toNat
  edge : ackNum.toNat + window.toNat ≤ sock.edge

/-- The edge leaves room for one ring of bytes behind those that were read. -/
theorem Incoming.Held.edge_add {b : UInt32} {written output : List UInt8} {ended : Prop}
    {sock : NormalSocket} {N : ℕ} (h : Held b written ended sock output N) :
    sock.edge + N = sock.cumReadNXT.toNat + 65535 + output.length := by
  have hlength := congrArg List.length h.content
  rw [List.length_append, ReadBuffer.unread_length, List.length_take_of_le h.le] at hlength
  have hwindow := sock.readBuffer.toNat_window
  have hcount : sock.readBuffer.unreadCount.toNat ≤ 65535 := by
    rw [ReadBuffer.toNat_unreadCount]
    omega
  unfold NormalSocket.edge
  omega

/-- What was accepted stays accepted. -/
theorem Incoming.Held.count_le {b : UInt32} {written output output' : List UInt8} {ended : Prop}
    {sock sock' : NormalSocket} {N N' : ℕ} (h : Held b written ended sock output N)
    (h' : Held b written ended sock' output' N')
    (hcum : sock.cumReadNXT.toNat ≤ sock'.cumReadNXT.toNat) : N ≤ N' := by
  have hle := h.le
  rcases h'.toNat_cum with hN' | ⟨-, hall, -, -⟩
  · rcases h.toNat_cum with hN | ⟨-, -, -, hN⟩
    · omega
    · omega
  · omega

/-- The edge moves on with what is read. A FIN that was taken stays taken. -/
theorem Incoming.Held.edge_le {b : UInt32} {written output output' : List UInt8} {ended : Prop}
    {sock sock' : NormalSocket} {N N' : ℕ} (h : Held b written ended sock output N)
    (h' : Held b written ended sock' output' N')
    (hcum : sock.cumReadNXT.toNat ≤ sock'.cumReadNXT.toNat)
    (hread : output.length ≤ output'.length) : sock.edge ≤ sock'.edge := by
  have hedge := h.edge_add
  have hedge' := h'.edge_add
  have hle := h'.le
  rcases h.toNat_cum with hN | ⟨-, hall, -, hN⟩
  · rcases h'.toNat_cum with hN' | ⟨-, -, -, hN'⟩
    · omega
    · omega
  · rcases h'.toNat_cum with hN' | ⟨-, -, -, hN'⟩
    · omega
    · omega

/-- What holds between a sender `p`, whose first number is the one behind `b`, and a
receiver `q`. -/
structure Toward (b : UInt32) (p q : Endpoint) : Prop where
  sends : Sends b q.sock.cumReadNXT.toNat p
  held : ∃ N, Held b p.accepted p.Ended q.sock q.output N
  meant : ∀ r, q.arriving = some r →
    Meant b p.accepted p.Ended q.sock.cumReadNXT.toNat r
  stamped : q.Stamped (q.sock.Honours b)

/-- Everything a socket sent is meant for its peer. -/
theorem Outgoing.Sends.meant {b : UInt32} {top : ℕ} {Q : UInt32 → UInt16 → Prop}
    {p : Endpoint} (h : Sends b top p) (hstamped : p.Stamped Q) {packet : TCPPacket}
    (hpacket : packet ∈ p.sent) :
    Meant b p.accepted p.Ended top packet.info := by
  rcases List.mem_append.mp hpacket with hemitted | hreply
  · obtain ⟨m, hm, rfl⟩ := List.mem_map.mp hemitted
    by_cases hfin : m.kind = .fin
    · obtain ⟨hstamp, hempty⟩ := hstamped.fins m hm hfin
      exact .fin ⟨m, hm, hfin⟩ hstamp.flags (h.ends.fins m hm hfin).1 hempty
    · exact .data (hstamped.data m hm hfin).flags (h.data m hm hfin)
  · obtain ⟨hstamp, hempty⟩ := hstamped.replies packet hreply
    obtain ⟨hlow, hhigh⟩ := h.replies packet hreply
    exact .pure hstamp.flags hempty hlow hhigh

theorem Endpoint.Stamped.sent {Q : UInt32 → UInt16 → Prop} {p : Endpoint} (h : p.Stamped Q)
    {packet : TCPPacket} (hpacket : packet ∈ p.sent) : Q packet.ackNum packet.window := by
  rcases List.mem_append.mp hpacket with hemitted | hreply
  · obtain ⟨m, hm, rfl⟩ := List.mem_map.mp hemitted
    by_cases hfin : m.kind = .fin
    · exact (h.fins m hm hfin).1.stamp
    · exact (h.data m hm hfin).stamp
  · exact (h.replies packet hreply).1.stamp

theorem Outgoing.Sends.replied {b : UInt32} {top : ℕ} {p : Endpoint} (h : Sends b top p)
    {packet : TCPPacket} (hlow : b.toNat + 1 ≤ packet.seqNum.toNat)
    (hhigh : packet.seqNum.toNat ≤ top) : Sends b top (p.replied packet) := by
  obtain ⟨A, S, H, L, sp, payloads, hfeeds⟩ := h.ends.feeds
  have hfeeds' : Feeds b (p.replied packet) p.accepted (Closing.Ending p) A S H L sp payloads :=
    ⟨hfeeds.flow, hfeeds.baseSeq, hfeeds.cum, hfeeds.una, hfeeds.slides, hfeeds.closed⟩
  exact ⟨⟨⟨A, S, H, L, sp, payloads, hfeeds'⟩, h.ends.data, h.ends.closers, h.ends.fins⟩, h.room,
    h.data, h.acks, h.asked,
    List.forall_mem_append.mpr ⟨h.replies, List.forall_mem_singleton.mpr ⟨hlow, hhigh⟩⟩⟩

theorem Endpoint.Stamped.replied {Q : UInt32 → UInt16 → Prop} {p : Endpoint} (h : p.Stamped Q)
    {packet : TCPPacket} (hpacket : packet.Stamped Q tcpFlagAck) (hempty : packet.payload = []) :
    (p.replied packet).Stamped Q :=
  ⟨h.own, h.call, h.data, h.fins, h.closers,
    List.forall_mem_append.mpr ⟨h.replies, List.forall_mem_singleton.mpr ⟨hpacket, hempty⟩⟩⟩

namespace Toward

variable {b : UInt32} {p p' q q' : Endpoint} {e : EndpointEvent}

theorem ended_step (hended : p.Ended) (hstep : p.step e = some p') : p'.Ended := by
  obtain ⟨m, hm, hfin⟩ := hended
  obtain ⟨out, hout⟩ := Endpoint.Step.emits (Endpoint.step_step hstep).2
  exact ⟨m, by rw [hout]; exact List.mem_append_left _ hm, hfin⟩

/-- What arrives at the sender acknowledges nothing that the receiver lacks. -/
theorem asked (h : Toward b p q)
    (harrive : ∀ r, e = .arrive r → ∃ packet ∈ q.sent, r = packet.info) (r : TCPInfo)
    (hr : e = .arrive r) :
    b.toNat + 1 ≤ r.AckNum.toNat ∧ r.AckNum.toNat ≤ q.sock.cumReadNXT.toNat := by
  obtain ⟨packet, hpacket, rfl⟩ := harrive r hr
  have hstamp := h.stamped.sent hpacket
  exact ⟨hstamp.low, hstamp.high⟩

/-- A step of the sender. -/
theorem sender_step (h : Toward b p q) (hok : Outgoing.Careful p e)
    (harrive : ∀ r, e = .arrive r → ∃ packet ∈ q.sent, r = packet.info)
    (hstep : p.step e = some p') : Toward b p' q := by
  obtain ⟨hsends, haccepted⟩ := h.sends.step hok (h.asked harrive) hstep
  have hended : p.Ended → p'.Ended := (ended_step · hstep)
  obtain ⟨N, hheld⟩ := h.held
  have hroom : b.toNat + 2 + p'.accepted.length < 4294967296 := by
    have hle := hsends.accepted_le
    have hfits := hsends.room
    omega
  rcases haccepted with hsame | ⟨hopen, hgrows⟩
  · refine ⟨hsends, ⟨N, ?_⟩, ?_, h.stamped⟩
    · rw [hsame]
      exact hheld.ending hended
    · rw [hsame]
      exact fun r hr => (h.meant r hr).mono hended (Nat.le_refl _)
  · exact ⟨hsends, ⟨N, hheld.grow hopen hgrows hroom⟩,
      fun r hr => (h.meant r hr).grow hopen hgrows, h.stamped⟩

/-- What the receiver holds stays the beginning of what was written. -/
theorem held_step (h : Toward b p q) (hok : Outgoing.Careful q e)
    (hstep : Endpoint.Step q e q') :
    (∃ N', Held b p.accepted p.Ended q'.sock q'.output N') ∧
      q.sock.cumReadNXT.toNat ≤ q'.sock.cumReadNXT.toNat := by
  obtain ⟨N, hheld⟩ := h.held
  have hstorable : e = .dispatch → ∀ r, q.arriving = some r →
      UnreadData.IsData q.sock r → Storable q.sock r := by
    rintro rfl r hr
    simpa only [Outgoing.Careful, hr] using hok
  exact hheld.step h.meant hstorable hstep

/-- A step of the receiver. -/
theorem receiver_step (h : Toward b p q) {Q : UInt32 → UInt16 → Prop} (hp : p.Stamped Q)
    (hok : Outgoing.Careful q e)
    (harrive : ∀ r, e = .arrive r → ∃ packet ∈ p.sent, r = packet.info)
    (hstep : q.step e = some q') : Toward b p q' := by
  obtain ⟨-, hstep⟩ := Endpoint.step_step hstep
  obtain ⟨N, hheld⟩ := h.held
  obtain ⟨⟨N', hnext⟩, hcum⟩ := h.held_step hok hstep
  have hedge := hheld.edge_le hnext hcum hstep.output.length_le
  have hstamped : q'.Stamped (q'.sock.Honours b) :=
    (h.stamped.mono fun _ _ hq => ⟨hq.low, hq.high.trans hcum, hq.edge.trans hedge⟩).step hstep
      ⟨h.stamped.own.low.trans hcum, Nat.le_refl _, Nat.le_refl _⟩
  refine ⟨h.sends.mono hcum, ⟨N', hnext⟩, ?_, hstamped⟩
  intro r hr
  rcases hstep.arriving with hsame | hnone | ⟨r', he, hnew⟩
  · rw [hsame] at hr
    exact (h.meant r hr).mono id hcum
  · rw [hnone] at hr
    contradiction
  · rw [hnew] at hr
    cases hr
    obtain ⟨packet, hpacket, rfl⟩ := harrive r he
    exact (h.sends.meant hp hpacket).mono id hcum

/-- A sender that sent its FIN stores nothing more. -/
theorem accepted_fixed (h : Toward b p q) (hended : p.Ended) (hok : Outgoing.Careful p e)
    (harrive : ∀ r, e = .arrive r → ∃ packet ∈ q.sent, r = packet.info)
    (hstep : p.step e = some p') : p'.accepted = p.accepted ∧ p'.Ended := by
  have hasked := h.asked harrive
  refine ⟨?_, ended_step hended hstep⟩
  rcases (h.sends.step hok hasked hstep).2 with hsame | ⟨hopen, -⟩
  · exact hsame
  · exact absurd hended hopen

theorem start (key key' : SocketTableKey) (seq ack : UInt32) (window window' : UInt16)
    (hseq : seq.toNat + 2 < 4294967296) :
    Toward seq (Endpoint.start (newSocket key seq ack window))
      (Endpoint.start (newSocket key' ack seq window')) := by
  have hone : (1 : UInt32).toNat = 1 := rfl
  have hcum : (newSocket key' ack seq window').cumReadNXT.toNat = seq.toNat + 1 := by
    change (seq + 1).toNat = _
    rw [UInt32.toNat_add, hone]
    omega
  refine ⟨?_, ⟨0, Held.start key' ack seq window' hseq⟩, by simp [Endpoint.start],
    .start ⟨hcum.ge, Nat.le_refl _, Nat.le_refl _⟩⟩
  have hsends := Sends.start key seq ack window hseq
  rw [← hcum] at hsends
  exact hsends

/-- What the receiver has read and can read begins what was written, and holds what was
acknowledged. -/
theorem streams (h : Toward b p q) :
    p.accepted <+: p.messages.flatten ∧ q.output ++ q.sock.readBuffer.unread <+: p.accepted ∧
      p.accepted.take (p.sock.cumWriteUNA - p.sock.baseSeq - 1).toNat <+:
        q.output ++ q.sock.readBuffer.unread := by
  obtain ⟨N, hheld⟩ := h.held
  obtain ⟨A, S, H, L, sp, payloads, hfeeds⟩ := h.sends.ends.feeds
  obtain ⟨hcum, -, -, hAS, hS⟩ := h.sends.in_flight hfeeds
  have hroom := hheld.room
  have hacked : (p.sock.cumWriteUNA - p.sock.baseSeq - 1).toNat = A := by
    have hone : (1 : UInt32).toNat = 1 := rfl
    rw [hfeeds.baseSeq, UInt32.toNat_sub, UInt32.toNat_sub, hcum, hone]
    omega
  have hAN : A ≤ N := by
    have htop := h.sends.acks.una
    rcases hheld.toNat_cum with hN | ⟨-, hall, -, -⟩
    · omega
    · omega
  rw [hheld.content, hacked]
  exact ⟨accepted_front hfeeds.flow.writer, List.take_prefix _ _, List.take_prefix_take_left hAN⟩

end Toward

namespace Conversation

def base (seq ack : UInt32) : Side → UInt32
  | .client => seq
  | .server => ack

def Agrees (seq ack : UInt32) (c : Conversation) : Prop :=
  ∀ side, Toward (base seq ack side) (c.party side) (c.party side.other)

theorem agrees_start (key : SocketTableKey) {seq ack : UInt32} (window window' : UInt16)
    (hseq : seq.toNat + 2 < 4294967296) (hack : ack.toNat + 2 < 4294967296) :
    Agrees seq ack (start key seq ack window window') := by
  have hone : (1 : UInt32).toNat = 1 := rfl
  intro side
  cases side with
  | client =>
    have h := Toward.start key key.flip seq ack window window' hseq
    refine ⟨h.sends.replied ?_ (Nat.le_refl _), h.held, h.meant, h.stamped⟩
    change _ ≤ (seq + 1).toNat
    rw [UInt32.toNat_add, hone]
    omega
  | server =>
    have h := Toward.start key.flip key ack seq window' window hack
    refine ⟨h.sends, h.held, h.meant, h.stamped.replied ⟨rfl, ?_, Nat.le_refl _, ?_⟩ rfl⟩
    · change _ ≤ (ack + 1).toNat
      rw [UInt32.toNat_add, hone]
      omega
    · have hwindow : newReadBuffer.window = 65535 := by decide
      change _ ≤ (ack + 1).toNat + newReadBuffer.window.toNat
      rw [hwindow]
      exact Nat.le_refl _

section Agrees

variable {seq ack : UInt32} {c c' : Conversation} {e : ConversationEvent}

theorem party_put (c : Conversation) (mover : Side) (p' : Endpoint) :
    (c.put mover p').party mover = p' ∧
      (c.put mover p').party mover.other = c.party mover.other :=
  ⟨Function.update_self _ _ _, Function.update_of_ne mover.other_ne _ _⟩

theorem Agrees.step (h : Agrees seq ack c) (hok : c.Careful e) (hstep : c.step e = some c') :
    Agrees seq ack c' := by
  obtain ⟨mover, e', p', rfl, hmove, hcareful, harrive⟩ := step_cases hok hstep
  obtain ⟨hself, hother⟩ := c.party_put mover p'
  intro side
  rcases side.eq_or_other mover with rfl | rfl
  · rw [hself, hother]
    exact (h side).sender_step hcareful harrive hmove
  · have hback := h mover.other
    rw [Side.other_other] at hback ⊢
    rw [hself, hother]
    exact hback.receiver_step (h mover).stamped hcareful harrive hmove

theorem Agrees.fixed_step (h : Agrees seq ack c) {side : Side} (hended : (c.party side).Ended)
    (hok : c.Careful e) (hstep : c.step e = some c') :
    (c'.party side).accepted = (c.party side).accepted ∧ (c'.party side).Ended := by
  obtain ⟨mover, e', p', rfl, hmove, hcareful, harrive⟩ := step_cases hok hstep
  obtain ⟨hself, hother⟩ := c.party_put mover p'
  rcases side.eq_or_other mover with rfl | rfl
  · rw [hself]
    exact (h side).accepted_fixed hended hcareful harrive hmove
  · rw [hother]
    exact ⟨rfl, hended⟩

theorem Agrees.reach (h : Agrees seq ack c) (hreach : Reach Conversation.step Careful c c') :
    Agrees seq ack c' :=
  hreach.invariant (Agrees seq ack) h (fun _ _ _ hc hok hstep => hc.step hok hstep)

theorem Agrees.fixed (h : Agrees seq ack c) {side : Side} (hended : (c.party side).Ended)
    (hreach : Reach Conversation.step Careful c c') :
    (c'.party side).accepted = (c.party side).accepted := by
  refine (hreach.invariant (fun c' => Agrees seq ack c' ∧ (c'.party side).Ended ∧
    (c'.party side).accepted = (c.party side).accepted) ⟨h, hended, rfl⟩ ?_).2.2
  rintro d e d' ⟨hd, hend, hsame⟩ hok hstep
  obtain ⟨hfixed, hend'⟩ := hd.fixed_step hend hok hstep
  exact ⟨hd.step hok hstep, hend', hfixed.trans hsame⟩

end Agrees

end Conversation

end IpTcp
