import IpTcp.Endpoint
import IpTcp.ReceiverRuns
import Mathlib.Data.List.InsertIdx

/-!
Two runs of a socket whose sequence numbers differ by constants: one for the
numbers of the peer, one for its own. Every assignment in the program commutes
with adding a constant modulo 2^32. The comparisons do not: they order sequence
numbers as plain 32-bit numbers. Two runs stay in step as long as the shift takes
all compared numbers past 2^32 or none of them, and no window node is taken for
the dummy node.
-/
namespace IpTcp

/-- What is added to the numbers of the peer and to those of this side. -/
structure Shift where
  peer : UInt32
  own : UInt32

def Crosses (k n : UInt32) : Prop := 4294967296 ≤ n.toNat + k.toNat

instance (k n : UInt32) : Decidable (Crosses k n) := inferInstanceAs (Decidable (_ ≤ _))

def AllOrNone (k : UInt32) (ns : List UInt32) : Prop :=
  (∀ n ∈ ns, Crosses k n) ∨ ∀ n ∈ ns, ¬ Crosses k n

instance (k : UInt32) (ns : List UInt32) : Decidable (AllOrNone k ns) :=
  @instDecidableOr _ _ (List.decidableBAll _ ns) (List.decidableBAll _ ns)

namespace AllOrNone

variable {k : UInt32} {ns ms : List UInt32}

theorem mono (h : AllOrNone k ns) (hsub : ∀ n ∈ ms, n ∈ ns) : AllOrNone k ms := by
  rcases h with hall | hnone
  · exact Or.inl fun n hn => hall n (hsub n hn)
  · exact Or.inr fun n hn => hnone n (hsub n hn)

theorem lt_iff (h : AllOrNone k ns) {a b : UInt32} (ha : a ∈ ns) (hb : b ∈ ns) :
    a + k < b + k ↔ a < b := by
  have hk := k.toNat_lt
  have hal := a.toNat_lt
  have hbl := b.toNat_lt
  have hside : Crosses k a ↔ Crosses k b := by
    rcases h with hall | hnone
    · exact iff_of_true (hall a ha) (hall b hb)
    · exact iff_of_false (hnone a ha) (hnone b hb)
  unfold Crosses at hside
  rw [UInt32.lt_iff_toNat_lt, UInt32.lt_iff_toNat_lt, UInt32.toNat_add, UInt32.toNat_add]
  omega

theorem le_iff (h : AllOrNone k ns) {a b : UInt32} (ha : a ∈ ns) (hb : b ∈ ns) :
    a + k ≤ b + k ↔ a ≤ b := by
  rw [← UInt32.not_lt, ← UInt32.not_lt, h.lt_iff hb ha]

end AllOrNone

theorem ringDist_add_right (a b k : UInt32) : ringDist (a + k) (b + k) = ringDist a b := by
  have hsub : a + k - (b + k) = a - b := by grind
  rw [ringDist, ringDist, hsub]

namespace Shift

variable (δ : Shift)

def segment (received : TCPInfo) : TCPInfo :=
  { received with
    SeqNum := received.SeqNum + δ.peer
    AckNum := received.AckNum + δ.own }

def packet (p : TCPPacket) : TCPPacket :=
  { p with seqNum := p.seqNum + δ.own, ackNum := p.ackNum + δ.peer }

def early (p : EarlyPacket) : EarlyPacket := { p with Priority := p.Priority + δ.peer }

def keyed {α : Type} (f : UInt32 → α) : UInt32 → α := fun n => f (n - δ.own)

def socket (sock : NormalSocket) : NormalSocket :=
  { sock with
    baseSeq := sock.baseSeq + δ.own
    baseAck := sock.baseAck + δ.peer
    ackChan := sock.ackChan.map δ.segment
    unackedNums := δ.keyed sock.unackedNums
    unackedFINs := δ.keyed sock.unackedFINs
    earlyPQ := sock.earlyPQ.map δ.early
    cumWriteUNA := sock.cumWriteUNA + δ.own
    cumReadNXT := sock.cumReadNXT + δ.peer }

def action : RecvAction → RecvAction
  | .toFinChan ack => .toFinChan (ack + δ.own)
  | .reply p => .reply (δ.packet p)
  | other => other

def node (n : WindowNode) : WindowNode :=
  { n with expectedAck := n.expectedAck + δ.own, packet := δ.packet n.packet }

def pc : SlidePc → SlidePc
  | .probing probe expectedAck => .probing (δ.packet probe) (expectedAck + δ.own)
  | .debit expectedAck => .debit (expectedAck + δ.own)
  | .allocate expectedAck => .allocate (expectedAck + δ.own)
  | other => other

def call (c : WindowCall) : WindowCall :=
  { c with
    packet := δ.packet c.packet
    before := c.before.map δ.node
    tail := δ.node c.tail
    pc := δ.pc c.pc }

def emission (m : Emission) : Emission := { m with packet := δ.packet m.packet }

def sender : SendPc → SendPc
  | .sliding c => .sliding (δ.call c)
  | other => other

def endpoint (p : Endpoint) : Endpoint :=
  { p with
    sock := δ.socket p.sock
    sender := δ.sender p.sender
    arriving := p.arriving.map δ.segment
    closers := p.closers.map δ.packet
    finAck := p.finAck.map (· + δ.own)
    emitted := p.emitted.map δ.emission
    replies := p.replies.map δ.packet }

def event : EndpointEvent → EndpointEvent
  | .arrive received => .arrive (δ.segment received)
  | other => other

end Shift

namespace SequenceShift

open Runs

section Receiver

variable (δ : Shift) {sock : NormalSocket} {received : TCPInfo}

theorem keyed_apply {α : Type} (f : UInt32 → α) (n : UInt32) :
    δ.keyed f (n + δ.own) = f n := by
  unfold Shift.keyed
  rw [UInt32.add_sub_cancel]

theorem keyed_update {α : Type} (f : UInt32 → α) (n : UInt32) (v : α) :
    δ.keyed (Function.update f n v) = Function.update (δ.keyed f) (n + δ.own) v := by
  funext m
  have hkey : m - δ.own = n ↔ m = n + δ.own := by
    constructor
    · rintro rfl
      rw [UInt32.sub_add_cancel]
    · rintro rfl
      rw [UInt32.add_sub_cancel]
  simp only [Shift.keyed, Function.update_apply, hkey]

theorem noteWindow : (δ.socket sock).noteWindow (δ.segment received) =
    δ.socket (sock.noteWindow received) := by
  unfold NormalSocket.noteWindow
  change (if received.Flag &&& tcpFlagAck > 0 then _ else _) = _
  split <;> rfl

theorem insertPayload (seq : UInt32) (payload : List UInt8) :
    (δ.socket sock).insertPayload (seq + δ.peer) payload =
      δ.socket (sock.insertPayload seq payload) := by
  have hend : seq + δ.peer + UInt32.ofNat payload.length =
      seq + UInt32.ofNat payload.length + δ.peer := by grind
  have hnxt : ringDist (seq + UInt32.ofNat payload.length + δ.peer) (sock.baseAck + δ.peer) =
      ringDist (seq + UInt32.ofNat payload.length) sock.baseAck := ringDist_add_right _ _ _
  simp only [NormalSocket.insertPayload, Shift.socket, hend, hnxt]

theorem acceptFIN : (δ.socket sock).acceptFIN = sock.acceptFIN.map δ.socket := by
  rcases sock with ⟨key, rb, wb, state, mtx⟩
  cases mtx with
  | true => rfl
  | false => cases state <;> rfl

/-- The numbers of the peer that draining the early queue compares. -/
def peerNumbers (sock : NormalSocket) : List UInt32 :=
  sock.cumReadNXT :: sock.earlyPQ.toList.flatMap fun p =>
    [p.Priority, p.Priority + UInt32.ofNat p.Payload.length]

theorem priority_mem {p : EarlyPacket} (h : p ∈ sock.earlyPQ.toList) :
    p.Priority ∈ peerNumbers sock ∧
      p.Priority + UInt32.ofNat p.Payload.length ∈ peerNumbers sock := by
  unfold peerNumbers
  constructor
  · exact List.mem_cons_of_mem _ (List.mem_flatMap.mpr ⟨p, h, by simp⟩)
  · exact List.mem_cons_of_mem _ (List.mem_flatMap.mpr ⟨p, h, by simp⟩)

theorem keepsOrder (h : AllOrNone δ.peer (peerNumbers sock)) :
    ContainerHeap.KeepsOrder EarlyPacket.rank EarlyPacket.rank δ.early sock.earlyPQ.toList := by
  intro p hp q hq
  have hiff := h.lt_iff (priority_mem hp).1 (priority_mem hq).1
  rw [UInt32.lt_iff_toNat_lt, UInt32.lt_iff_toNat_lt] at hiff
  exact hiff

theorem topEarly (hne : 0 < sock.earlyPQ.size) :
    (δ.socket sock).topEarly = δ.early sock.topEarly := by
  unfold NormalSocket.topEarly
  simp [Shift.socket, Array.getD, hne]

theorem popEarly (hne : 0 < sock.earlyPQ.size) (h : AllOrNone δ.peer (peerNumbers sock)) :
    (δ.socket sock).popEarly = δ.socket sock.popEarly := by
  have hpop := ContainerHeap.pop_map sock.earlyPQ hne (keepsOrder δ h)
  unfold NormalSocket.popEarly
  simp only [Shift.socket, hpop]

theorem peerNumbers_popEarly (hne : 0 < sock.earlyPQ.size) :
    ∀ n ∈ peerNumbers sock.popEarly, n ∈ peerNumbers sock := by
  intro n hn
  rcases List.mem_cons.mp hn with rfl | hqueue
  · exact List.mem_cons_self
  · obtain ⟨p, hp, hnp⟩ := List.mem_flatMap.mp hqueue
    have hold : p ∈ sock.earlyPQ.toList :=
      (NormalSocket.mem_popEarly hne p).mpr (Or.inr hp)
    exact List.mem_cons_of_mem _ (List.mem_flatMap.mpr ⟨p, hold, hnp⟩)

/-- `cumReadNXT` moves to the end of a packet that was queued. -/
theorem peerNumbers_insertPayload (hne : 0 < sock.earlyPQ.size)
    (hdue : sock.topEarly.Priority = sock.cumReadNXT) :
    ∀ n ∈ peerNumbers (sock.popEarly.insertPayload sock.cumReadNXT sock.topEarly.Payload),
      n ∈ peerNumbers sock := by
  intro n hn
  rcases List.mem_cons.mp hn with rfl | hqueue
  · rw [NormalSocket.insertPayload_cumReadNXT, ← hdue]
    exact (priority_mem (NormalSocket.topEarly_mem hne)).2
  · exact peerNumbers_popEarly hne n (List.mem_cons_of_mem _ hqueue)

/-- Draining the queue compares numbers of the peer only. -/
theorem drainEarly (fuel : ℕ) (h : AllOrNone δ.peer (peerNumbers sock)) :
    NormalSocket.drainEarly fuel (δ.socket sock) =
      (δ.socket (sock.drainEarly fuel).1, (sock.drainEarly fuel).2) := by
  induction fuel generalizing sock with
  | zero => rfl
  | succ fuel ih =>
    have hsize : (δ.socket sock).earlyPQ.size = sock.earlyPQ.size := Array.size_map
    by_cases hne : 0 < sock.earlyPQ.size
    · have hne' : 0 < (δ.socket sock).earlyPQ.size := by rwa [hsize]
      have htop := topEarly δ hne
      have hmem := priority_mem (NormalSocket.topEarly_mem hne)
      have hpop := popEarly δ hne h
      have hrest : AllOrNone δ.peer (peerNumbers sock.popEarly) :=
        h.mono (peerNumbers_popEarly hne)
      have hlt : (δ.socket sock).topEarly.Priority < (δ.socket sock).cumReadNXT ↔
          sock.topEarly.Priority < sock.cumReadNXT := by
        rw [htop]
        exact h.lt_iff hmem.1 List.mem_cons_self
      have hle : (δ.socket sock).topEarly.Priority ≤ (δ.socket sock).cumReadNXT ↔
          sock.topEarly.Priority ≤ sock.cumReadNXT := by
        rw [htop]
        exact h.le_iff hmem.1 List.mem_cons_self
      by_cases hold : sock.topEarly.Priority < sock.cumReadNXT
      · rw [NormalSocket.drainEarly_old fuel hne hold,
          NormalSocket.drainEarly_old fuel hne' (hlt.mpr hold), hpop, ih hrest]
      · by_cases hdue : sock.topEarly.Priority = sock.cumReadNXT
        · have hdue' : (δ.socket sock).topEarly.Priority = (δ.socket sock).cumReadNXT := by
            rw [htop]
            exact congrArg (· + δ.peer) hdue
          by_cases hfin : sock.topEarly.Flags &&& tcpFlagFin > 0
          · have hfin' : (δ.socket sock).topEarly.Flags &&& tcpFlagFin > 0 := by
              rw [htop]
              exact hfin
            rw [NormalSocket.drainEarly_fin fuel hne hdue hfin,
              NormalSocket.drainEarly_fin fuel hne' hdue' hfin', hpop, acceptFIN]
            cases hacc : sock.popEarly.acceptFIN with
            | none => rfl
            | some next =>
              obtain ⟨-, state, mtx, rfl⟩ := NormalSocket.acceptFIN_some hacc
              exact ih hrest
          · have hfin' : ¬ (δ.socket sock).topEarly.Flags &&& tcpFlagFin > 0 := by
              rw [htop]
              exact hfin
            have hinsert : (δ.socket sock.popEarly).insertPayload (δ.socket sock).cumReadNXT
                (δ.early sock.topEarly).Payload = δ.socket
                  (sock.popEarly.insertPayload sock.cumReadNXT sock.topEarly.Payload) :=
              insertPayload δ sock.cumReadNXT sock.topEarly.Payload
            rw [NormalSocket.drainEarly_data fuel hne hdue hfin,
              NormalSocket.drainEarly_data fuel hne' hdue' hfin', hpop, htop, hinsert,
              ih (h.mono (peerNumbers_insertPayload hne hdue))]
        · have hlate : ¬ (0 < sock.earlyPQ.size ∧ sock.topEarly.Priority ≤ sock.cumReadNXT) :=
            fun hboth => hdue (UInt32.le_antisymm hboth.2 (UInt32.not_lt.mp hold))
          rw [NormalSocket.drainEarly_stop _ hlate, NormalSocket.drainEarly_stop _ (by
            rw [hsize, hle]
            exact hlate)]
    · rw [NormalSocket.drainEarly_stop _ (by rw [hsize]; exact fun hdue => hne hdue.1),
        NormalSocket.drainEarly_stop _ (fun hdue => hne hdue.1)]

theorem drainAndReply (h : AllOrNone δ.peer (peerNumbers sock)) :
    (δ.socket sock).drainAndReply (δ.segment received) =
      (δ.socket (sock.drainAndReply received).1, δ.action (sock.drainAndReply received).2) := by
  have hsize : (δ.socket sock).earlyPQ.size = sock.earlyPQ.size := Array.size_map
  unfold NormalSocket.drainAndReply
  simp only [hsize, drainEarly δ _ h]
  split <;> rfl

/-- The numbers of the peer that a turn of ReceiverThread compares. -/
def comparedNumbers (sock : NormalSocket) (received : TCPInfo) : List UInt32 :=
  received.SeqNum :: (received.SeqNum + UInt32.ofNat received.Payload.length) ::
    (sock.cumReadNXT + 1) :: peerNumbers sock

theorem mem_comparedNumbers {n : UInt32} (h : n ∈ peerNumbers sock) :
    n ∈ comparedNumbers sock received :=
  List.mem_cons_of_mem _ (List.mem_cons_of_mem _ (List.mem_cons_of_mem _ h))

theorem pushEarly (h : AllOrNone δ.peer (comparedNumbers sock received)) :
    (δ.socket sock).pushEarly (δ.segment received) = δ.socket (sock.pushEarly received) := by
  have hkeep : ContainerHeap.KeepsOrder EarlyPacket.rank EarlyPacket.rank δ.early
      (received.early :: sock.earlyPQ.toList) := by
    have hmem : ∀ p ∈ received.early :: sock.earlyPQ.toList,
        p.Priority ∈ comparedNumbers sock received := by
      intro p hp
      rcases List.mem_cons.mp hp with rfl | hold
      · exact List.mem_cons_self
      · exact mem_comparedNumbers (priority_mem hold).1
    intro p hp q hq
    have hiff := h.lt_iff (hmem p hp) (hmem q hq)
    rw [UInt32.lt_iff_toNat_lt, UInt32.lt_iff_toNat_lt] at hiff
    exact hiff
  have hpush := ContainerHeap.push_map sock.earlyPQ received.early hkeep
  simp only [NormalSocket.pushEarly, Shift.socket]
  rw [← hpush]
  rfl

/-- `cumReadNXT` moves to a number that was compared. -/
theorem allOrNone_moved {sock' : NormalSocket}
    (h : AllOrNone δ.peer (comparedNumbers sock received))
    (hcum : sock'.cumReadNXT ∈ comparedNumbers sock received)
    (hqueue : sock'.earlyPQ = sock.earlyPQ) : AllOrNone δ.peer (peerNumbers sock') := by
  refine h.mono ?_
  intro n hn
  rcases List.mem_cons.mp hn with rfl | hrest
  · exact hcum
  · rw [hqueue] at hrest
    exact mem_comparedNumbers (List.mem_cons_of_mem _ hrest)

theorem passFIN : (δ.socket sock).passFIN = δ.socket sock.passFIN := by
  have hnext : sock.cumReadNXT + δ.peer + 1 = sock.cumReadNXT + 1 + δ.peer := by grind
  simp only [NormalSocket.passFIN, Shift.socket, hnext]

theorem receiveData (h : AllOrNone δ.peer (comparedNumbers sock received)) :
    (δ.socket sock).receiveData (δ.segment received) =
      (δ.socket (sock.receiveData received).1, δ.action (sock.receiveData received).2) := by
  have hgt : (δ.segment received).SeqNum > (δ.socket sock).cumReadNXT ↔
      received.SeqNum > sock.cumReadNXT :=
    h.lt_iff (mem_comparedNumbers List.mem_cons_self) List.mem_cons_self
  by_cases hahead : received.SeqNum > sock.cumReadNXT
  · rw [NormalSocket.receiveData_early hahead, NormalSocket.receiveData_early (hgt.mpr hahead),
      pushEarly δ h]
    rfl
  · have hahead' := mt hgt.mp hahead
    by_cases hfin : received.Flag &&& tcpFlagFin > 0
    · rw [NormalSocket.receiveData_fin hahead hfin, NormalSocket.receiveData_fin hahead' hfin,
        passFIN, acceptFIN]
      cases hacc : sock.passFIN.acceptFIN with
      | none => rfl
      | some next =>
        obtain ⟨-, state, mtx, rfl⟩ := NormalSocket.acceptFIN_some hacc
        exact drainAndReply δ (allOrNone_moved δ h
          (List.mem_cons_of_mem _ (List.mem_cons_of_mem _ List.mem_cons_self)) rfl)
    · by_cases hfull : ringDist sock.readBuffer.LBR sock.readBuffer.NXT = 0
      · rw [NormalSocket.receiveData_full hahead hfin hfull,
          NormalSocket.receiveData_full hahead' hfin hfull]
        rfl
      · have hinsert : (δ.socket sock).insertPayload (δ.segment received).SeqNum
            (δ.segment received).Payload =
              δ.socket (sock.insertPayload received.SeqNum received.Payload) :=
          insertPayload δ received.SeqNum received.Payload
        rw [NormalSocket.receiveData_insert hahead hfin hfull,
          NormalSocket.receiveData_insert hahead' hfin hfull, hinsert]
        refine drainAndReply δ (allOrNone_moved δ h ?_ rfl)
        exact List.mem_cons_of_mem _ List.mem_cons_self

theorem dispatch (h : AllOrNone δ.peer (comparedNumbers sock received)) :
    (δ.socket sock).dispatch (δ.segment received) =
      (δ.socket (sock.dispatch received).1, δ.action (sock.dispatch received).2) := by
  have hfins : (δ.socket sock).unackedFINs (δ.segment received).AckNum =
      sock.unackedFINs received.AckNum := keyed_apply δ _ _
  have hnums : (δ.socket sock).unackedNums (δ.segment received).AckNum =
      sock.unackedNums received.AckNum := keyed_apply δ _ _
  unfold NormalSocket.dispatch
  rw [hfins, hnums, receiveData δ h]
  change (if received.Flag &&& tcpFlagAck > 0 then if sock.unackedMtx then _ else _ else _) = _
  split
  · split
    · rfl
    · split
      · rfl
      · change (if (sock.unackedNums received.AckNum).isSome ∧ received.Payload.length = 0
          then _ else _) = _
        split
        · simp [Shift.socket, Shift.action]
        · rfl
  · rfl

theorem vRead (numbytes : UInt16) :
    (δ.socket sock).vRead numbytes =
      (δ.socket (sock.vRead numbytes).1, (sock.vRead numbytes).2) := by
  unfold NormalSocket.vRead
  change (if sock.stateMtx then _ else if sock.state = .closeWait ∨ sock.state = .lastAck then _
    else if sock.readBuffer.unreadCount = 0 then _ else _) = _
  split
  · rfl
  · split
    · rfl
    · split <;> rfl

end Receiver

section Sender

variable (δ : Shift) {sock : NormalSocket} {c : WindowCall}

def result (r : NormalSocket × WindowCall × List Emission) :
    NormalSocket × WindowCall × List Emission :=
  (δ.socket r.1, δ.call r.2.1, r.2.2.map δ.emission)

theorem segment (flags : UInt8) (seqNum : UInt32) (payload : List UInt8) :
    (δ.socket sock).segment flags (seqNum + δ.own) payload =
      δ.packet (sock.segment flags seqNum payload) := rfl

theorem nodes : (δ.call c).nodes = c.nodes.map δ.node := by
  simp [WindowCall.nodes, Shift.call]

theorem distUNA_add : (δ.socket sock).distUNA + (δ.socket sock).cumWriteUNA =
    sock.distUNA + sock.cumWriteUNA + δ.own :=
  (UInt32.add_assoc _ _ _).symm

theorem moveNXT (count : ℕ) :
    (δ.socket sock).moveNXT count = δ.socket (sock.moveNXT count) := rfl

theorem register (expectedAck : UInt32) :
    (δ.socket sock).register (expectedAck + δ.own) = δ.socket (sock.register expectedAck) := by
  simp only [NormalSocket.register, Shift.socket, keyed_update]

theorem countAck (ack : UInt32) :
    (δ.socket sock).countAck (ack + δ.own) = δ.socket (sock.countAck ack) := by
  simp only [NormalSocket.countAck, Shift.socket, keyed_update, keyed_apply]

theorem setWindow (window : UInt16) :
    (δ.socket sock).setWindow window = δ.socket (sock.setWindow window) := rfl

theorem ackUpTo (ack : UInt32) :
    (δ.socket sock).ackUpTo (ack + δ.own) = δ.socket (sock.ackUpTo ack) := by
  simp only [NormalSocket.ackUpTo, Shift.socket, ringDist_add_right]

theorem slidingWindow (p : TCPPacket) :
    (δ.socket sock).slidingWindow (δ.packet p) = δ.call (sock.slidingWindow p) := by
  have hack : sock.distUNA + (sock.cumWriteUNA + δ.own) +
      UInt32.ofNat (min (min mss p.payload.length) sock.ClientWindowSize.toNat) =
        sock.distUNA + sock.cumWriteUNA +
          UInt32.ofNat (min (min mss p.payload.length) sock.ClientWindowSize.toNat) + δ.own := by
    grind
  simp only [NormalSocket.slidingWindow, Shift.call, Shift.node, ← hack]
  rfl

theorem sendTail : (δ.call c).sendTail (δ.socket sock) = result δ (c.sendTail sock) := by
  simp only [WindowCall.sendTail, moveNXT, distUNA_add, register]
  change (if (sock.moveNXT c.bytesToSend).unackedMtx then _ else _) = _
  split <;> rfl

theorem sendProbe : (δ.call c).sendProbe (δ.socket sock) = result δ (c.sendProbe sock) := by
  have hseq : (sock.moveNXT 1).distUNA + (sock.moveNXT 1).cumWriteUNA + δ.own - 1 =
      (sock.moveNXT 1).distUNA + (sock.moveNXT 1).cumWriteUNA - 1 + δ.own := by grind
  simp only [WindowCall.sendProbe, moveNXT, distUNA_add, register, hseq, segment]
  change (if (sock.moveNXT 1).unackedMtx then _ else _) = _
  split <;> rfl

theorem allocateNext (expectedAck : UInt32) :
    (δ.call c).allocateNext (δ.socket sock) (expectedAck + δ.own) =
      δ.call (c.allocateNext sock expectedAck) := by
  have hack : ∀ n : ℕ, expectedAck + δ.own + UInt32.ofNat n =
      expectedAck + UInt32.ofNat n + δ.own := by
    intro n
    grind
  unfold WindowCall.allocateNext
  simp only [hack]
  change (if min (min mss (c.payloadSize - c.tail.payloadIndex.toNat)) c.packet.payload.length > 0
    then _ else _) = _
  split
  · simp only [Shift.call, List.map_append]
    rfl
  · rfl

theorem firstNode : (δ.call c).firstNode = δ.node c.firstNode := by
  unfold WindowCall.firstNode Shift.call
  cases c.before <;> rfl

theorem updatePacket (k : ℕ) {f g : TCPPacket → TCPPacket}
    (hf : ∀ p, g (δ.packet p) = δ.packet (f p)) :
    (δ.call c).updatePacket k g = δ.call (c.updatePacket k f) := by
  have hnode : ∀ n, WindowCall.modifyPacket g (δ.node n) =
      δ.node (WindowCall.modifyPacket f n) := by
    intro n
    simp only [WindowCall.modifyPacket, Shift.node, hf]
  have hlist : ∀ (ns : List WindowNode) (k : ℕ),
      (ns.map δ.node).modify k (WindowCall.modifyPacket g) =
        (ns.modify k (WindowCall.modifyPacket f)).map δ.node := by
    intro ns
    induction ns with
    | nil => intro k; cases k <;> rfl
    | cons n rest ih =>
      intro k
      cases k with
      | zero => simp [hnode]
      | succ k => simp [ih]
  unfold WindowCall.updatePacket
  simp only [Shift.call, List.length_map, hlist, hnode]
  split <;> rfl

theorem probeAcked (received : TCPInfo) :
    (δ.call c).probeAcked (δ.socket sock) (δ.segment received) =
      (δ.socket (c.probeAcked sock received).1, δ.call (c.probeAcked sock received).2) := by
  have hsock : ((δ.socket sock).setWindow (δ.segment received).WindowSize).ackUpTo
      (δ.segment received).AckNum =
        δ.socket ((sock.setWindow received.WindowSize).ackUpTo received.AckNum) := by
    rw [setWindow]
    exact ackUpTo δ received.AckNum
  have hupdate := updatePacket δ (c := c) 0 (f := fun p => { p with payload := p.payload.drop 1 })
    (g := fun p => { p with payload := p.payload.drop 1 }) (fun _ => rfl)
  have hfirst : (δ.node c.firstNode).packet.payload = c.firstNode.packet.payload := rfl
  have hpayload : (δ.call c).packet.payload = c.packet.payload := rfl
  unfold WindowCall.probeAcked
  simp only [hsock, firstNode, hupdate, hfirst, hpayload]
  split
  · cases c.packet.payload with
    | nil => rfl
    | cons byte rest => exact Prod.ext rfl (slidingWindow δ { c.packet with payload := rest })
  · rfl

/-- The dummy node's 0 is not shifted. -/
theorem expectedAckAt_cases (ns : List WindowNode) (k : ℕ) :
    (expectedAckAt ns k = 0 ∧ expectedAckAt (ns.map δ.node) k = 0) ∨
      ∃ n ∈ ns, expectedAckAt ns k = n.expectedAck ∧
        expectedAckAt (ns.map δ.node) k = n.expectedAck + δ.own := by
  cases k with
  | zero => exact Or.inl ⟨rfl, rfl⟩
  | succ k =>
    simp only [expectedAckAt, List.getElem?_map]
    cases hnode : ns[k]? with
    | none => exact Or.inl ⟨rfl, rfl⟩
    | some n => exact Or.inr ⟨n, List.mem_of_getElem? hnode, rfl, rfl⟩

theorem expectedAckAt_le {ns : List WindowNode} {ack : UInt32}
    (h : AllOrNone δ.own (ack :: ns.map WindowNode.expectedAck)) (k : ℕ) :
    expectedAckAt (ns.map δ.node) k ≤ ack + δ.own ↔ expectedAckAt ns k ≤ ack := by
  rcases expectedAckAt_cases δ ns k with ⟨hzero, hzero'⟩ | ⟨n, hn, hval, hval'⟩
  · rw [hzero, hzero']
    exact iff_of_true UInt32.zero_le UInt32.zero_le
  · rw [hval, hval']
    exact h.le_iff (List.mem_cons_of_mem _ (List.mem_map_of_mem hn)) List.mem_cons_self

theorem trimHead {ns : List WindowNode} {ack : UInt32}
    (h : AllOrNone δ.own (ack :: ns.map WindowNode.expectedAck)) (fuel : ℕ) (head : Option ℕ) :
    IpTcp.trimHead (ns.map δ.node) (ack + δ.own) fuel head = IpTcp.trimHead ns ack fuel head := by
  induction fuel generalizing head with
  | zero => rfl
  | succ fuel ih =>
    cases head with
    | none => rfl
    | some k =>
      unfold IpTcp.trimHead
      simp only [expectedAckAt_le δ h, List.length_map, ih]

/-- The numbers of this side that taking an acknowledgement compares. -/
def ackNumbers (sock : NormalSocket) (c : WindowCall) (received : TCPInfo) : List UInt32 :=
  sock.cumWriteUNA :: received.AckNum :: c.nodes.map WindowNode.expectedAck

theorem processAck_new {received : TCPInfo} (h : received.AckNum > sock.cumWriteUNA) :
    c.processAck sock received =
      (((sock.countAck received.AckNum).setWindow received.WindowSize).ackUpTo received.AckNum,
        { c with
          bytesSent := c.bytesSent + (received.AckNum - sock.cumWriteUNA).toNat
          head := IpTcp.trimHead c.nodes received.AckNum (c.nodes.length + 2) c.head }) :=
  if_pos h

theorem processAck_old {received : TCPInfo} (h : ¬ received.AckNum > sock.cumWriteUNA) :
    c.processAck sock received =
      ((sock.countAck received.AckNum).setWindow received.WindowSize, c) :=
  if_neg h

theorem processAck {received : TCPInfo} (h : AllOrNone δ.own (ackNumbers sock c received)) :
    (δ.call c).processAck (δ.socket sock) (δ.segment received) =
      (δ.socket (c.processAck sock received).1, δ.call (c.processAck sock received).2) := by
  have hgt : (δ.segment received).AckNum > (δ.socket sock).cumWriteUNA ↔
      received.AckNum > sock.cumWriteUNA :=
    h.lt_iff List.mem_cons_self (List.mem_cons_of_mem _ List.mem_cons_self)
  have hcount : ((δ.socket sock).countAck (δ.segment received).AckNum).setWindow
      (δ.segment received).WindowSize =
        δ.socket ((sock.countAck received.AckNum).setWindow received.WindowSize) := by
    rw [← setWindow]
    exact congrArg (NormalSocket.setWindow · received.WindowSize) (countAck δ received.AckNum)
  by_cases hnew : received.AckNum > sock.cumWriteUNA
  · have hdiff : (δ.segment received).AckNum - (δ.socket sock).cumWriteUNA =
        received.AckNum - sock.cumWriteUNA := by
      simp only [Shift.segment, Shift.socket]
      grind
    have htrim := trimHead δ (h.mono fun n hn => List.mem_cons_of_mem _ hn)
      (c.nodes.length + 2) c.head
    have hmoved : (δ.socket ((sock.countAck received.AckNum).setWindow
        received.WindowSize)).ackUpTo (δ.segment received).AckNum =
          δ.socket (((sock.countAck received.AckNum).setWindow received.WindowSize).ackUpTo
            received.AckNum) := ackUpTo δ received.AckNum
    rw [processAck_new hnew, processAck_new (hgt.mpr hnew), hcount, hdiff, hmoved, nodes,
      List.length_map]
    refine Prod.ext rfl ?_
    change ({ δ.call c with
      bytesSent := _
      head := IpTcp.trimHead _ (received.AckNum + δ.own) _ c.head } : WindowCall) = _
    rw [htrim]
    rfl
  · rw [processAck_old hnew, processAck_old (mt hgt.mp hnew), hcount]

theorem drainOne {received : TCPInfo} (h : AllOrNone δ.own (ackNumbers sock c received)) :
    (δ.call c).drainOne (δ.socket sock) (δ.segment received) =
      (δ.socket (c.drainOne sock received).1, δ.call (c.drainOne sock received).2) := by
  have hnums : (δ.socket sock).unackedNums (δ.segment received).AckNum =
      sock.unackedNums received.AckNum := keyed_apply δ _ _
  unfold WindowCall.drainOne
  rw [hnums, processAck δ h]
  change (if sock.unackedMtx then _ else _) = _
  split
  · rfl
  · split <;> rfl

/-- What the next step of slidingWindow needs: where it takes an acknowledgement, the
numbers that this compares lie on one side. -/
def AckAligned (own : UInt32) (sock : NormalSocket) (c : WindowCall) : SlidePc → List TCPInfo → Prop
  | .drain, received :: _ => AllOrNone own (ackNumbers sock c received)
  | _, _ => True

instance (own : UInt32) (sock : NormalSocket) (c : WindowCall) (pc : SlidePc)
    (chan : List TCPInfo) : Decidable (AckAligned own sock c pc chan) :=
  match pc, chan with
  | .drain, received :: _ =>
      inferInstanceAs (Decidable (AllOrNone own (ackNumbers sock c received)))
  | .drain, [] | .probing _ _, _ | .top, _ | .probeTest, _ | .probeSend, _ | .normal, _
  | .sending, _ | .debit _, _ | .allocate _, _ | .zeroTest, _ | .done, _ | .blocked, _
  | .panicked, _ => .isTrue trivial

theorem indexInReach (k : ℕ) : (δ.call c).indexInReach k = c.indexInReach k := by
  unfold WindowCall.indexInReach
  rw [nodes, List.getElem?_map]
  cases c.nodes[k]? <;> rfl

/-- The part of the socket that the channel of acknowledgements leaves. -/
theorem socket_ackChan (more : List TCPInfo) :
    ({ δ.socket sock with ackChan := more.map δ.segment } : NormalSocket) =
      δ.socket { sock with ackChan := more } := rfl

theorem run (h : AckAligned δ.own sock c c.pc sock.ackChan) :
    (δ.call c).run (δ.socket sock) = (c.run sock).map (result δ) := by
  have hpc' : (δ.call c).pc = δ.pc c.pc := rfl
  have hchan' : (δ.socket sock).ackChan = sock.ackChan.map δ.segment := rfl
  unfold WindowCall.run
  rw [hpc', hchan']
  cases hpc : c.pc with
  | top =>
    change (if c.bytesSent < c.payloadSize then if c.winLock then none else _ else _) = _
    split
    · split <;> rfl
    · rfl
  | probeTest =>
    change (if sock.writeBuffer.NXT = sock.writeBuffer.UNA ∧ c.skip_probe = false ∧
      sock.ClientWindowSize = 0 then _ else _) = _
    split <;> rfl
  | probeSend => exact congrArg some (sendProbe δ)
  | probing probe expectedAck =>
    cases hchan : sock.ackChan with
    | nil => rfl
    | cons received more =>
      have hack : (δ.segment received).AckNum = expectedAck + δ.own ↔
          received.AckNum = expectedAck := by
        simp only [Shift.segment]
        exact UInt32.add_left_inj _
      simp only [List.map_cons, Shift.pc, hack, socket_ackChan, probeAcked]
      change (if received.AckNum = expectedAck ∧ received.WindowSize > 0 then _ else _) = _
      split <;> rfl
  | normal =>
    have hwindow : (δ.socket sock).ClientWindowSize = sock.ClientWindowSize := rfl
    have hbytes : (δ.call c).bytesToSend = c.bytesToSend := rfl
    have hhead : (δ.call c).head = c.head := rfl
    simp only [Shift.pc, indexInReach, hwindow, hbytes, hhead]
    split
    · cases c.head with
      | none => rfl
      | some k => simp only; split <;> rfl
    · rfl
  | sending => exact congrArg some (sendTail δ)
  | debit expectedAck => rfl
  | allocate expectedAck => simp only [Shift.pc, allocateNext]; rfl
  | zeroTest =>
    change (if sock.ClientWindowSize = 0 then _ else _) = _
    split <;> rfl
  | drain =>
    cases hchan : sock.ackChan with
    | nil => rfl
    | cons received more =>
      rw [hpc, hchan] at h
      have hone : (δ.call c).drainOne (δ.socket { sock with ackChan := more })
          (δ.segment received) = _ := drainOne δ h
      simp only [List.map_cons, Shift.pc, socket_ackChan, hone]
      rfl
  | done | blocked | panicked => rfl

def closeResult : CloseResult → CloseResult
  | .sent p => .sent (δ.packet p)
  | other => other

theorem finPacket : (δ.socket sock).finPacket = δ.packet sock.finPacket := by
  unfold NormalSocket.finPacket
  rw [distUNA_add]
  rfl

theorem commitClose (p : TCPPacket) :
    (δ.socket sock).commitClose (δ.packet p) =
      (δ.socket (sock.commitClose p).1, closeResult δ (sock.commitClose p).2) := by
  have hnext : p.seqNum + δ.own + 1 = p.seqNum + 1 + δ.own := by grind
  have hnote : Function.update (δ.socket sock).unackedFINs ((δ.packet p).seqNum + 1) true =
      δ.keyed (Function.update sock.unackedFINs (p.seqNum + 1) true) := by
    rw [keyed_update, ← hnext]
    rfl
  unfold NormalSocket.commitClose
  rw [hnote]
  rcases sock with ⟨key, rb, wb, state, mtx, baseSeq, baseAck, window, chan, nums, fins, lost⟩
  cases mtx with
  | true => rfl
  | false => cases state <;> cases lost <;> rfl

theorem refresh (p : TCPPacket) :
    WindowCall.refresh (δ.socket sock) (δ.packet p) = δ.packet (WindowCall.refresh sock p) := rfl

theorem resend (k : ℕ) :
    (δ.call c).resend (δ.socket sock) k = result δ (c.resend sock k) := by
  have hupdate : (δ.call c).updatePacket k (WindowCall.refresh (δ.socket sock)) =
      δ.call (c.updatePacket k (WindowCall.refresh sock)) := updatePacket δ k fun _ => rfl
  have hclose : (δ.socket sock).vClose =
      (δ.socket sock.vClose.1, closeResult δ sock.vClose.2) := by
    unfold NormalSocket.vClose
    rw [finPacket, commitClose]
  unfold WindowCall.resend
  rw [nodes, List.getElem?_map, hupdate, hclose]
  cases c.nodes[k]? with
  | none => rfl
  | some n =>
    rcases n with ⟨payloadIndex, expectedAck, p, index, sent⟩
    cases sent with
    | false => rfl
    | true =>
      have hlast : (δ.call c).last_index = c.last_index := rfl
      have hcnt : (δ.call c).cnt = c.cnt := rfl
      simp only [Option.map_some, Shift.node, if_true, hlast, hcnt]
      generalize (if c.last_index = index then c.cnt + 1 else 1) = cnt
      split
      · rcases sock.vClose with ⟨closed, outcome⟩
        cases outcome <;> rfl
      · rfl

theorem resendFirst (k : ℕ) :
    (δ.call c).resendFirst (δ.socket sock) k = result δ (c.resendFirst sock k) := by
  have hupdate : (δ.call c).updatePacket k (WindowCall.refresh (δ.socket sock)) =
      δ.call (c.updatePacket k (WindowCall.refresh sock)) := updatePacket δ k fun _ => rfl
  unfold WindowCall.resendFirst
  rw [nodes, List.getElem?_map, hupdate]
  cases c.nodes[k]? with
  | none => rfl
  | some n =>
    rcases n with ⟨payloadIndex, expectedAck, p, index, sent⟩
    cases sent <;> rfl

/-- No node can be taken for the dummy node, in either run. -/
def Recognised (own : UInt32) (c : WindowCall) : Prop :=
  ∀ n ∈ c.nodes, n.expectedAck ≠ 0 ∧ n.expectedAck + own ≠ 0

instance (own : UInt32) (c : WindowCall) : Decidable (Recognised own c) :=
  inferInstanceAs (Decidable (∀ n ∈ c.nodes, n.expectedAck ≠ 0 ∧ n.expectedAck + own ≠ 0))

theorem unlocked : (δ.call c).unlocked ↔ c.unlocked := by
  unfold WindowCall.unlocked
  change ((δ.pc c.pc = .top ∨ δ.pc c.pc = .done) ∧ c.winLock = false) ↔ _
  cases c.pc <;> simp [Shift.pc]

theorem tick (h : Recognised δ.own c) :
    (δ.call c).tick (δ.socket sock) = (c.tick sock).map (result δ) := by
  have hdummy : ∀ k, expectedAckAt (δ.call c).nodes k ≠ 0 ↔ expectedAckAt c.nodes k ≠ 0 := by
    intro k
    rw [nodes]
    rcases expectedAckAt_cases δ c.nodes k with ⟨hzero, hzero'⟩ | ⟨n, hn, hval, hval'⟩
    · rw [hzero, hzero']
    · rw [hval, hval']
      exact iff_of_true (h n hn).2 (h n hn).1
  have hwindow : (δ.socket sock).ClientWindowSize = sock.ClientWindowSize := rfl
  have hhead : (δ.call c).head = c.head := rfl
  unfold WindowCall.tick
  simp only [unlocked, hdummy, resend, resendFirst, hwindow, hhead]
  split
  · split
    · cases c.head with
      | none => rfl
      | some k => simp only; split <;> rfl
    · rfl
  · rfl

end Sender

section Threads

variable (δ : Shift) {sock : NormalSocket} {p : Endpoint}

theorem takeChunk (lbw : UInt32) :
    (δ.socket sock).takeChunk lbw = (sock.takeChunk lbw).map (Option.map δ.packet) := by
  have hseq : sock.writeBuffer.UNA + (sock.baseSeq + δ.own) =
      sock.writeBuffer.UNA + sock.baseSeq + δ.own := (UInt32.add_assoc _ _ _).symm
  have hack : sock.readBuffer.NXT + (sock.baseAck + δ.peer) =
      sock.readBuffer.NXT + sock.baseAck + δ.peer := (UInt32.add_assoc _ _ _).symm
  unfold NormalSocket.takeChunk
  simp only [Shift.socket, hseq, hack, Option.bind_eq_bind]
  generalize (windowSize + (lbw - sock.writeBuffer.NXT + 1)) % windowSize = amount
  generalize min (windowSize - sock.writeBuffer.NXT) amount = first_seg
  split
  · cases RingBuffer.sub sock.writeBuffer.buffer sock.writeBuffer.NXT.toNat
        (sock.writeBuffer.NXT + first_seg).toNat with
    | none => rfl
    | some head =>
      cases RingBuffer.sub sock.writeBuffer.buffer 0 (amount - first_seg).toNat <;> rfl
  · rfl

theorem copyChunk (call : WriteCall) (space : UInt32) :
    (δ.socket sock).copyChunk call space =
      (sock.copyChunk call space).map fun r => (δ.socket r.1, r.2) := by
  have hbuffer : (δ.socket sock).writeBuffer = sock.writeBuffer := rfl
  unfold NormalSocket.copyChunk
  simp only [hbuffer, Option.bind_eq_bind]
  rw [Option.map_bind]
  refine Option.bind_congr fun head _ => ?_
  rw [Function.comp_apply, Option.map_bind]
  refine Option.bind_congr fun buffer _ => ?_
  rw [Function.comp_apply, Option.map_bind]
  refine Option.bind_congr fun tail _ => ?_
  rw [Function.comp_apply, Option.map_bind]
  refine Option.bind_congr fun buffer _ => ?_
  rw [Function.comp_apply, Option.map_some]
  rfl

def pipe (w : Pipe) : Pipe := { w with sock := δ.socket w.sock }

theorem writerStep (w : Pipe) (e : PipeEvent) :
    (pipe δ w).writerStep e = (w.writerStep e).map (pipe δ) := by
  exact Pipe.writerStep_map (g := δ.socket) (fun _ => rfl) (fun _ => rfl) (fun _ _ => rfl)
    (fun _ => copyChunk δ) id id w e

theorem finAcked (ack : UInt32) :
    (δ.socket sock).finAcked (ack + δ.own) = δ.socket (sock.finAcked ack) := by
  have hdrop : Function.update (δ.socket sock).unackedFINs (ack + δ.own) false =
      δ.keyed (Function.update sock.unackedFINs ack false) := (keyed_update δ _ _ _).symm
  unfold NormalSocket.finAcked
  rw [hdrop]
  rcases sock with ⟨key, rb, wb, state, mtx⟩
  cases mtx with
  | true => rfl
  | false => cases state <;> rfl

theorem finAckedStep : (δ.endpoint p).finAcked = p.finAcked.map δ.endpoint := by
  unfold Endpoint.finAcked
  simp only [Shift.endpoint]
  cases p.finAck with
  | none => rfl
  | some ack =>
    simp only [Option.map_some, finAcked]
    change (if p.sock.unackedMtx then _ else _) = _
    split <;> rfl

theorem ready (sender : SendPc) : (δ.sender sender).ready = sender.ready := by
  cases sender with
  | idle => rfl
  | received lbw => rfl
  | sliding c =>
    change decide (δ.pc c.pc = .done) = decide (c.pc = .done)
    cases c.pc <;> rfl

theorem update (r : NormalSocket × WindowCall × List Emission) :
    (δ.endpoint p).update (result δ r) = δ.endpoint (p.update r) := by
  have hpanic : δ.pc r.2.1.pc = .panicked ↔ r.2.1.pc = .panicked := by
    cases r.2.1.pc <;> simp [Shift.pc]
  simp only [Endpoint.update, result, Shift.endpoint, Shift.call, hpanic, List.map_append]
  rfl

theorem handOver : (δ.endpoint p).handOver = p.handOver.map δ.endpoint := by
  rcases p with ⟨sock, writer, sender⟩
  cases writer with
  | handing call =>
    simp only [Endpoint.handOver, Shift.endpoint, ready]
    cases sender.ready <;> rfl
  | idle | testing call | copying call space => rfl

theorem build : (δ.endpoint p).build = p.build.map δ.endpoint := by
  rcases p with ⟨sock, writer, sender⟩
  cases sender with
  | received lbw =>
    simp only [Endpoint.build, Shift.endpoint, Shift.sender, takeChunk]
    cases sock.takeChunk lbw with
    | none => rfl
    | some chunk =>
      cases chunk with
      | none => rfl
      | some packet =>
        simp only [Option.map_some, slidingWindow]
        rfl
  | idle | sliding c => rfl

theorem arrive (received : TCPInfo) :
    (δ.endpoint p).arrive (δ.segment received) = (p.arrive received).map δ.endpoint := by
  rcases p with ⟨sock, writer, sender, arriving, stuck⟩
  cases arriving with
  | none =>
    simp only [Endpoint.arrive, Shift.endpoint, Option.map_none, noteWindow]
    cases stuck <;> rfl
  | some earlier => rfl

theorem deliver {received : TCPInfo}
    (h : AllOrNone δ.peer (comparedNumbers p.sock received)) :
    (δ.endpoint p).deliver (δ.segment received) = (p.deliver received).map δ.endpoint := by
  unfold Endpoint.deliver
  simp only [Shift.endpoint, dispatch δ h]
  cases (p.sock.dispatch received).2 with
  | ignored | queued | bufferFull | blocked => rfl
  | toAckChan =>
    simp only [Shift.action]
    change (if (p.sock.ackChan.map δ.segment).length < 100 then _ else _) = _
    rw [List.length_map]
    split <;> rfl
  | toFinChan ack =>
    simp only [Shift.action]
    cases p.finAck <;> rfl
  | reply packet =>
    simp only [Shift.action, Option.map_some, Shift.endpoint, List.map_append]
    rfl

theorem read (numbytes : UInt16) :
    (δ.endpoint p).read numbytes = (p.read numbytes).map δ.endpoint := by
  unfold Endpoint.read
  simp only [Shift.endpoint, vRead]
  rcases p.sock.vRead numbytes with ⟨sock, outcome⟩
  cases outcome <;> rfl

theorem commit (k : ℕ) : (δ.endpoint p).commit k = (p.commit k).map δ.endpoint := by
  unfold Endpoint.commit
  simp only [Shift.endpoint, List.getElem?_map]
  cases p.closers[k]? with
  | none => rfl
  | some packet =>
    simp only [Option.map_some, commitClose, List.eraseIdx_map]
    cases (p.sock.commitClose packet).2 with
    | blocked | invalidState => rfl
    | sent packet =>
      simp only [closeResult, Option.map_some, Shift.endpoint, List.map_append]
      rfl

/-- What a step needs for the shifted run to follow it. -/
def Aligned (p : Endpoint) : EndpointEvent → Prop
  | .dispatch =>
      match p.arriving with
      | some received => AllOrNone δ.peer (comparedNumbers p.sock received)
      | none => True
  | .run =>
      match p.sender with
      | .sliding c => AckAligned δ.own p.sock c c.pc p.sock.ackChan
      | _ => True
  | .tick =>
      match p.sender with
      | .sliding c => Recognised δ.own c
      | _ => True
  | _ => True

instance (p : Endpoint) (e : EndpointEvent) : Decidable (Aligned δ p e) :=
  match e with
  | .dispatch =>
      match h : p.arriving with
      | some received => decidable_of_iff (AllOrNone δ.peer (comparedNumbers p.sock received))
          (by rw [Aligned, h])
      | none => .isTrue (by rw [Aligned, h]; trivial)
  | .run =>
      match h : p.sender with
      | .idle | .received _ => .isTrue (by rw [Aligned, h]; trivial)
      | .sliding c => decidable_of_iff (AckAligned δ.own p.sock c c.pc p.sock.ackChan)
          (by rw [Aligned, h])
  | .tick =>
      match h : p.sender with
      | .idle | .received _ => .isTrue (by rw [Aligned, h]; trivial)
      | .sliding c => decidable_of_iff (Recognised δ.own c) (by rw [Aligned, h])
  | .write _ | .handOver | .build | .timeout | .arrive _ | .finAcked | .read _ | .close
  | .commit _ => .isTrue trivial

theorem timeout {c : WindowCall} :
    (δ.call c).timeout = c.timeout.map (List.map δ.emission) := by
  have hpc : (δ.call c).pc = δ.pc c.pc := rfl
  unfold WindowCall.timeout
  rw [hpc]
  cases c.pc <;> rfl

theorem slide {e : EndpointEvent} (h : Aligned δ p e) :
    (δ.endpoint p).slide e = (p.slide e).map δ.endpoint := by
  cases hsender : p.sender with
  | idle | received lbw => simp [Endpoint.slide, Shift.endpoint, Shift.sender, hsender]
  | sliding c =>
    have hsender' : (δ.endpoint p).sender = .sliding (δ.call c) := by
      rw [Shift.endpoint, hsender]
      rfl
    have hsock : (δ.endpoint p).sock = δ.socket p.sock := rfl
    unfold Endpoint.slide
    rw [hsender, hsender', hsock]
    cases e with
    | run =>
      rw [Aligned, hsender] at h
      simp only [run δ h, Option.map_map, Function.comp_def, update]
    | timeout =>
      simp only [timeout, Option.map_map, Function.comp_def, Shift.endpoint, List.map_append]
      rfl
    | tick =>
      rw [Aligned, hsender] at h
      simp only [tick δ h, Option.map_map, Function.comp_def, update]
    | _ => rfl

theorem step {e : EndpointEvent} (h : Aligned δ p e) :
    (δ.endpoint p).step (δ.event e) = (p.step e).map δ.endpoint := by
  unfold Endpoint.step
  change (if p.panicked then none else _) = Option.map _ (if p.panicked then none else _)
  split
  · rfl
  · cases e with
    | write w =>
      have hmay : (δ.endpoint p).mayWrite w = p.mayWrite w := by
        cases w <;> rfl
      have hwrite : (δ.endpoint p).pipe.writerStep w = (p.pipe.writerStep w).map (pipe δ) :=
        writerStep δ p.pipe w
      simp only [Shift.event, hmay, hwrite]
      split
      · simp only [Option.map_map, Function.comp_def]
        rfl
      · rfl
    | handOver => exact handOver δ
    | build => exact build δ
    | run => exact slide δ h
    | timeout => exact slide δ h
    | tick => exact slide δ h
    | arrive received => exact arrive δ received
    | dispatch =>
      cases harriving : p.arriving with
      | none => simp [Shift.event, Shift.endpoint, harriving]
      | some received =>
        rw [Aligned, harriving] at h
        have harriving' : (δ.endpoint p).arriving = some (δ.segment received) := by
          rw [Shift.endpoint, harriving]
          rfl
        simp only [Shift.event, harriving', Option.bind_some, deliver δ h]
    | finAcked => exact finAckedStep δ
    | read numbytes => exact read δ numbytes
    | close =>
      simp only [Shift.event, Option.map_some, Shift.endpoint, finPacket, List.map_append]
      rfl
    | commit k => exact commit δ k

end Threads

/-- Every run whose steps are all aligned is followed, event by event, by the run whose
sequence numbers are shifted. The two end in states that differ by the shift alone, and
go on doing so. -/
theorem aligned_runs_agree (δ : Shift) (key : SocketTableKey) (baseSeq baseAck : UInt32)
    (window : UInt16) (events : List EndpointEvent) (p : Endpoint)
    (hrun : follow Endpoint.step (Aligned δ)
      (Endpoint.start (newSocket key baseSeq baseAck window)) events = some p) :
    follow Endpoint.step (fun _ _ => True)
        (Endpoint.start (newSocket key (baseSeq + δ.own) (baseAck + δ.peer) window))
        (events.map δ.event) = some (δ.endpoint p) ∧
      ∀ e, Aligned δ p e → (δ.endpoint p).step (δ.event e) = (p.step e).map δ.endpoint := by
  have hnext : ∀ n k : UInt32, n + k + 1 = n + 1 + k := by
    intro n k
    grind
  have hstart : Endpoint.start (newSocket key (baseSeq + δ.own) (baseAck + δ.peer) window) =
      δ.endpoint (Endpoint.start (newSocket key baseSeq baseAck window)) := by
    simp [Endpoint.start, newSocket, Shift.endpoint, Shift.socket, Shift.sender, hnext]
    exact ⟨rfl, rfl⟩
  refine ⟨?_, fun e he => step δ he⟩
  rw [hstart]
  exact follow_map δ.endpoint δ.event (fun s e he => step δ he) events hrun

def sampleEvents : List EndpointEvent :=
  [.arrive (sampleSegment 102 [2]), .dispatch, .arrive (sampleSegment 101 [1]), .dispatch,
    .read 10, .write (.call [9]), .write .test, .write .copy, .handOver, .build, .run, .run, .run,
    .run]

theorem aligned_runs_agree_overtaken :
    ∃ p, p.output = [1, 2] ∧ p.emitted.length = 1 ∧
      follow Endpoint.step (fun _ _ => True)
        (Endpoint.start (newSocket sampleKey (7 + 2000) (100 + 1000) 8))
        (sampleEvents.map (Shift.mk 1000 2000).event) = some ((Shift.mk 1000 2000).endpoint p) := by
  obtain ⟨p, hrun, houtput, hsent⟩ := exists_follow Endpoint.step (Aligned ⟨1000, 2000⟩)
    (Endpoint.start (newSocket sampleKey 7 100 8))
    (fun p => p.output = [1, 2] ∧ p.emitted.length = 1) sampleEvents (by decide +kernel)
  obtain ⟨hagree, -⟩ := aligned_runs_agree ⟨1000, 2000⟩ sampleKey 7 100 8 sampleEvents p hrun
  exact ⟨p, houtput, hsent, hagree⟩

/-- A segment that comes too early is queued, unless its number passes 2^32 where the
expected one does not. -/
theorem early_segment_wraps :
    ¬ ∀ (δ : Shift) (key : SocketTableKey) (baseSeq baseAck : UInt32) (window : UInt16)
      (events : List EndpointEvent) (p : Endpoint),
      follow Endpoint.step (fun _ _ => True)
        (Endpoint.start (newSocket key baseSeq baseAck window)) events = some p →
      follow Endpoint.step (fun _ _ => True)
        (Endpoint.start (newSocket key (baseSeq + δ.own) (baseAck + δ.peer) window))
        (events.map δ.event) = some (δ.endpoint p) := by
  intro hclaim
  obtain ⟨p, hrun, hp⟩ := exists_follow Endpoint.step (fun _ _ => True)
    (Endpoint.start (newSocket sampleKey 0 9 8)) (fun p => p.sock.earlyPQ.size = 1)
    [.arrive (sampleSegment 12 [5]), .dispatch] (by decide)
  have hsame := congrArg (Option.map fun p => p.sock.earlyPQ.size)
    (hclaim ⟨4294967285, 0⟩ sampleKey 0 9 8 _ p hrun)
  have hqueued : ((Shift.mk 4294967285 0).endpoint p).sock.earlyPQ.size = 1 :=
    Array.size_map.trans hp
  rw [Option.map_some, hqueued] at hsame
  exact absurd hsame (by decide)

end SequenceShift

end IpTcp
