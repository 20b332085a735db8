import IpTcp.ReadRing
import IpTcp.Runs
import IpTcp.SlidingWindow
import Mathlib.Algebra.BigOperators.Group.Multiset.Basic
import Mathlib.Logic.Relation

/-!
Two connected sockets and the segments between them, when the applications are
silent and no timer expires. All that happens is that ReceiverThread takes a
segment and answers it or not. A segment without payload, SYN or FIN whose
acknowledgement number means nothing to the receiver is treated as data and
answered, and two fresh sockets answer each other for ever. If every such segment
is recognised, a weight of the segments under way goes down with every delivery.
-/
namespace IpTcp

open Runs

structure Link where
  client : NormalSocket
  server : NormalSocket
  toClient : Multiset TCPInfo
  toServer : Multiset TCPInfo

inductive LinkEvent
  | deliverClient (received : TCPInfo)
  | deliverServer (received : TCPInfo)
  | duplicateClient (received : TCPInfo)
  | duplicateServer (received : TCPInfo)

def TCPInfo.Pure (received : TCPInfo) : Prop :=
  received.Payload = [] ∧ received.Flag &&& (tcpFlagSyn ||| tcpFlagFin) = 0

instance (received : TCPInfo) : Decidable received.Pure := inferInstanceAs (Decidable (_ ∧ _))

def RecvAction.answer : RecvAction → Multiset TCPInfo
  | .reply packet => {packet.info}
  | _ => 0

namespace Link

def deliverClient (c : Link) (received : TCPInfo) : Link :=
  let turn := c.client.receiverThread received
  { c with
    client := turn.1
    toClient := c.toClient.erase received
    toServer := c.toServer + turn.2.answer }

def deliverServer (c : Link) (received : TCPInfo) : Link :=
  let turn := c.server.receiverThread received
  { c with
    server := turn.1
    toServer := c.toServer.erase received
    toClient := c.toClient + turn.2.answer }

def step (c : Link) : LinkEvent → Option Link
  | .deliverClient received =>
      if received ∈ c.toClient then some (c.deliverClient received) else none
  | .deliverServer received =>
      if received ∈ c.toServer then some (c.deliverServer received) else none
  | .duplicateClient received =>
      if received ∈ c.toClient then some { c with toClient := received ::ₘ c.toClient } else none
  | .duplicateServer received =>
      if received ∈ c.toServer then some { c with toServer := received ::ₘ c.toServer } else none

/-- The acknowledgement that ends the handshake, and every other one between sockets that
have sent nothing. -/
def handshakeAck (key : SocketTableKey) (seqNum ackNum : UInt32) : TCPInfo where
  key := key
  Flag := tcpFlagAck
  SeqNum := seqNum
  AckNum := ackNum
  WindowSize := 65535
  Payload := []

/-- VConnect and VAccept have returned, and the network still has a copy of the last segment
of the handshake. -/
def connected (key : SocketTableKey) (baseSeq baseAck : UInt32) : Link where
  client := newSocket key baseSeq baseAck 65535
  server := newSocket key.flip baseAck baseSeq 65535
  toClient := 0
  toServer := {handshakeAck key (baseSeq + 1) (baseAck + 1)}

inductive Delivers (ok : NormalSocket → TCPInfo → Prop) (c : Link) : Link → Prop
  | client (received : TCPInfo) : received ∈ c.toClient → ok c.client received →
      Delivers ok c (c.deliverClient received)
  | server (received : TCPInfo) : received ∈ c.toServer → ok c.server received →
      Delivers ok c (c.deliverServer received)

def Livelocks (ok : NormalSocket → TCPInfo → Prop) (c : Link) : Prop :=
  Relation.TransGen (Delivers ok) c c

end Link

namespace NormalSocket

/-- A pure segment that is no acknowledgement of something sent, and that is neither too early
nor finds the buffer full, does not reach the socket. -/
def Recognises (sock : NormalSocket) (received : TCPInfo) : Prop :=
  received.Pure → received.Flag &&& tcpFlagAck = 0 ∨ sock.unackedFINs received.AckNum ∨
    (sock.unackedNums received.AckNum).isSome ∨ received.SeqNum > sock.cumReadNXT ∨
    ringDist sock.readBuffer.LBR sock.readBuffer.NXT = 0

instance (sock : NormalSocket) (received : TCPInfo) : Decidable (sock.Recognises received) :=
  inferInstanceAs (Decidable (_ → _))

variable {sock : NormalSocket} {received : TCPInfo}

theorem fin_of_pure (hpure : received.Pure) : ¬ received.Flag &&& tcpFlagFin > 0 := by
  have hbit : received.Flag &&& tcpFlagFin =
      (received.Flag &&& (tcpFlagSyn ||| tcpFlagFin)) &&& tcpFlagFin := by
    rw [UInt8.and_assoc]
    rfl
  rw [hbit, hpure.2]
  decide

/-- Every answer is an empty acknowledgement. -/
theorem dispatch_reply {packet : TCPPacket} (h : (sock.dispatch received).2 = .reply packet) :
    packet.info.Pure := by
  obtain ⟨s, rfl⟩ := dispatch_reply_eq h
  exact ⟨rfl, show tcpFlagAck &&& (tcpFlagSyn ||| tcpFlagFin) = 0 by decide⟩

/-- A pure segment that is recognised gets no answer. -/
theorem Recognises.no_reply (h : sock.Recognises received) (hpure : received.Pure)
    (packet : TCPPacket) : (sock.receiverThread received).2 ≠ .reply packet := by
  have hnote : (sock.noteWindow received).Recognises received := by
    unfold noteWindow
    split <;> exact h
  unfold receiverThread
  generalize sock.noteWindow received = s at hnote
  unfold dispatch
  split
  · rename_i hack
    split
    · simp
    · split
      · simp
      · rename_i hfins
        split
        · simp
        · rename_i hnums
          unfold receiveData
          rcases hnote hpure with hflag | hfin | hnum | hearly | hfull
          · rw [hflag] at hack
            contradiction
          · contradiction
          · exact absurd ⟨hnum, by rw [hpure.1]; rfl⟩ hnums
          · rw [if_pos hearly]
            simp
          · split
            · simp
            · rw [if_neg (fin_of_pure hpure), if_neg (not_not_intro hfull)]
              simp
  · simp

end NormalSocket

namespace Link

/-- A pure segment weighs one, any other two. -/
def segmentWeight (received : TCPInfo) : ℕ := if received.Pure then 1 else 2

def weight (c : Link) : ℕ :=
  (c.toClient.map segmentWeight).sum + (c.toServer.map segmentWeight).sum

/-- The answer weighs less than the segment that it answers. -/
theorem answer_lt {sock : NormalSocket} {received : TCPInfo} (h : sock.Recognises received) :
    ((sock.receiverThread received).2.answer.map segmentWeight).sum < segmentWeight received := by
  cases haction : (sock.receiverThread received).2 with
  | reply packet =>
    have hpure : packet.info.Pure := NormalSocket.dispatch_reply haction
    have hother : ¬ received.Pure := fun hpure => h.no_reply hpure packet haction
    simp [RecvAction.answer, segmentWeight, hpure, hother]
  | _ =>
    simp only [RecvAction.answer, Multiset.map_zero, Multiset.sum_zero, segmentWeight]
    split <;> decide

theorem weight_erase {flight : Multiset TCPInfo} {received : TCPInfo} (h : received ∈ flight) :
    ((flight.erase received).map segmentWeight).sum + segmentWeight received =
      (flight.map segmentWeight).sum := by
  conv_rhs => rw [← Multiset.cons_erase h]
  rw [Multiset.map_cons, Multiset.sum_cons, Nat.add_comm]

/-- A delivery makes the segments under way lighter. -/
theorem Delivers.weight_lt {c c' : Link} (h : Delivers NormalSocket.Recognises c c') :
    c'.weight < c.weight := by
  cases h with
  | client received hmem hok =>
    have hanswer := answer_lt hok
    have herase := weight_erase hmem
    simp only [weight, deliverClient, Multiset.map_add, Multiset.sum_add]
    omega
  | server received hmem hok =>
    have hanswer := answer_lt hok
    have herase := weight_erase hmem
    simp only [weight, deliverServer, Multiset.map_add, Multiset.sum_add]
    omega

theorem weight_lt_of_transGen {c c' : Link}
    (h : Relation.TransGen (Delivers NormalSocket.Recognises) c c') : c'.weight < c.weight := by
  induction h with
  | single hstep => exact hstep.weight_lt
  | tail _ hstep ih => exact hstep.weight_lt.trans ih

/-- As long as every pure segment is recognised where it arrives, no configuration comes back,
and no pure segment is answered. -/
theorem recognised_deliveries_settle (c : Link) :
    ¬ c.Livelocks NormalSocket.Recognises ∧
      ∀ (sock : NormalSocket) (received : TCPInfo), received.Pure → sock.Recognises received →
        ∀ packet, (sock.receiverThread received).2 ≠ .reply packet := by
  refine ⟨?_, fun sock received hpure h packet => h.no_reply hpure packet⟩
  intro hback
  exact lt_irrefl _ (weight_lt_of_transGen hback)

/-- An acknowledgement of a number that the socket has sent. -/
theorem recognised_deliveries_settle_registered :
    let sock := (newSocket sampleKey 100 200 8).register 102
    (handshakeAck sampleKey 201 102).Pure ∧ sock.Recognises (handshakeAck sampleKey 201 102) ∧
      ∀ packet, (sock.receiverThread (handshakeAck sampleKey 201 102)).2 ≠ .reply packet := by
  have hpure : (handshakeAck sampleKey 201 102).Pure := by decide
  have hok : ((newSocket sampleKey 100 200 8).register 102).Recognises
      (handshakeAck sampleKey 201 102) := by decide
  exact ⟨hpure, hok, (recognised_deliveries_settle (connected sampleKey 100 200)).2 _ _ hpure hok⟩

/-- An empty payload in order changes nothing. -/
theorem insertPayload_nil (sock : NormalSocket)
    (h : sock.readBuffer.NXT = ringDist sock.cumReadNXT sock.baseAck) :
    sock.insertPayload sock.cumReadNXT [] = sock := by
  have hzero : sock.cumReadNXT + UInt32.ofNat 0 = sock.cumReadNXT := UInt32.add_zero _
  unfold NormalSocket.insertPayload
  simp only [List.length_nil, hzero, copyLoop, ← h]

/-- A socket that has sent nothing answers a pure acknowledgement in order and is the same
afterwards. -/
theorem unknown_ack_answered {sock : NormalSocket} {received : TCPInfo}
    (hflag : received.Flag = tcpFlagAck) (hpayload : received.Payload = [])
    (hseq : received.SeqNum = sock.cumReadNXT)
    (hwindow : received.WindowSize = sock.ClientWindowSize)
    (hnums : sock.unackedNums received.AckNum = none)
    (hfins : sock.unackedFINs received.AckNum = false) (hmtx : sock.unackedMtx = false)
    (hempty : sock.earlyPQ = #[])
    (hNXT : sock.readBuffer.NXT = ringDist sock.cumReadNXT sock.baseAck)
    (hroom : ringDist sock.readBuffer.LBR sock.readBuffer.NXT ≠ 0) :
    sock.receiverThread received = (sock, .reply (replyTo sock received)) := by
  have hack : received.Flag &&& tcpFlagAck > 0 := by
    rw [hflag]
    decide
  have hnote : sock.noteWindow received = sock := by
    rw [sock.noteWindow_ack hack, hwindow]
  have hfin : ¬ received.Flag &&& tcpFlagFin > 0 := by
    rw [hflag]
    decide
  rw [NormalSocket.receiverThread_data hack (Or.inr hnums) hmtx hfins, hnote,
    NormalSocket.receiveData, hseq, if_neg (UInt32.lt_irrefl _), if_neg hfin, if_pos hroom,
    hpayload, insertPayload_nil sock hNXT, NormalSocket.drainAndReply_empty hempty]

/-- A fresh socket answers the acknowledgement of its SYN. -/
theorem fresh_answers (key key' : SocketTableKey) (baseSeq baseAck : UInt32) :
    (newSocket key baseSeq baseAck 65535).receiverThread
        (handshakeAck key' (baseAck + 1) (baseSeq + 1)) =
      (newSocket key baseSeq baseAck 65535,
        .reply (replyTo (newSocket key baseSeq baseAck 65535)
          (handshakeAck key' (baseAck + 1) (baseSeq + 1)))) := by
  have hnext : ringDist (baseAck + 1) baseAck = 1 := by
    rw [← UInt32.toNat_inj, toNat_ringDist, UInt32.toNat_add]
    have := baseAck.toNat_lt
    simp only [UInt32.reduceToNat]
    omega
  have hroom : ringDist (0 : UInt32) 1 ≠ 0 := by decide
  exact unknown_ack_answered rfl rfl rfl rfl rfl rfl rfl rfl hnext.symm hroom

/-- Such an answer is the same acknowledgement in the other direction. -/
theorem fresh_answer_info (key key' : SocketTableKey) (baseSeq baseAck : UInt32) :
    (replyTo (newSocket key baseSeq baseAck 65535)
      (handshakeAck key' (baseAck + 1) (baseSeq + 1))).info =
        handshakeAck key'.flip (baseSeq + 1) (baseAck + 1) := by
  have hwindow : newReadBuffer.window = 65535 := by
    change (ringDist 0 1).toUInt16 = 65535
    decide
  simp only [replyTo, TCPPacket.info, hwindow, handshakeAck, SocketTableKey.flip, newSocket]

def returned (key : SocketTableKey) (baseSeq baseAck : UInt32) : Link :=
  { connected key baseSeq baseAck with
    toClient := {handshakeAck key.flip (baseAck + 1) (baseSeq + 1)}
    toServer := 0 }

theorem connected_returned (key : SocketTableKey) (baseSeq baseAck : UInt32) :
    Delivers (fun _ _ => True) (connected key baseSeq baseAck) (returned key baseSeq baseAck) := by
  have hdelivers : Delivers (fun _ _ => True) (connected key baseSeq baseAck)
      ((connected key baseSeq baseAck).deliverServer
        (handshakeAck key (baseSeq + 1) (baseAck + 1))) :=
    .server _ (Multiset.mem_singleton_self _) trivial
  simpa only [deliverServer, connected, fresh_answers, RecvAction.answer, fresh_answer_info,
    Multiset.erase_singleton, Multiset.zero_add, returned] using hdelivers

theorem returned_connected (key : SocketTableKey) (baseSeq baseAck : UInt32) :
    Delivers (fun _ _ => True) (returned key baseSeq baseAck) (connected key baseSeq baseAck) := by
  have hdelivers : Delivers (fun _ _ => True) (returned key baseSeq baseAck)
      ((returned key baseSeq baseAck).deliverClient
        (handshakeAck key.flip (baseAck + 1) (baseSeq + 1))) :=
    .client _ (Multiset.mem_singleton_self _) trivial
  have hflip : key.flip.flip = key := rfl
  simpa only [hflip, deliverClient, connected, fresh_answers, RecvAction.answer, fresh_answer_info,
    Multiset.erase_singleton, Multiset.zero_add, returned] using hdelivers

/-- The copy of the last segment of the handshake goes to and fro between the two sockets. -/
theorem handshake_ack_livelocks :
    ¬ ∀ (key : SocketTableKey) (baseSeq baseAck : UInt32) (c : Link),
      Reach step (fun _ _ => True) (connected key baseSeq baseAck) c →
      ¬ c.Livelocks (fun _ _ => True) := by
  intro hclaim
  refine hclaim sampleKey 5000 6000 _ .refl ?_
  exact (Relation.TransGen.single (connected_returned sampleKey 5000 6000)).tail
    (returned_connected sampleKey 5000 6000)

end Link

end IpTcp
