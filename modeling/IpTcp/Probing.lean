import IpTcp.SlidingInvariant

/-!
slidingWindow against a peer that may close its window and open it again. Every
segment carries the bytes that its number denotes, and a successful probe leaves
a sender with one more byte sent and acknowledged, as long as no probe succeeds
while the first window node holds bytes. That node keeps its number and loses
the probed byte, after which what is sent no longer fits its numbers.
-/
namespace IpTcp.Probing

open Runs

/-- No acknowledgement misleads slidingWindow when it is taken off the channel. -/
def SafeAcks (t : Transfer) : TransferEvent → Prop
  | .run => t.call.SafeRun t.sock
  | _ => True

instance (t : Transfer) (e : TransferEvent) : Decidable (SafeAcks t e) :=
  match e with
  | .run => inferInstanceAs (Decidable (t.call.SafeRun t.sock))
  | .timeout | .tick | .dispatch | .arrive _ => .isTrue trivial

/-- From `t` to `t'` one more byte has been sent and acknowledged, and the next segment
starts behind it. -/
structure OneMore (t t' : Transfer) : Prop where
  cum : t'.sock.cumWriteUNA = t.sock.cumWriteUNA + 1
  una : t'.sock.writeBuffer.UNA = ringDist t'.sock.cumWriteUNA t'.sock.baseSeq
  nxt : t'.sock.writeBuffer.NXT = t'.sock.writeBuffer.UNA
  left : t'.call.payloadSize - t'.call.bytesSent + 1 = t.call.payloadSize - t.call.bytesSent
  toSend : t'.call.bytesToSend = min (min mss (t'.call.payloadSize - t'.call.bytesSent))
    t'.sock.ClientWindowSize.toNat
  seq : t'.call.tail.packet.seqNum = t'.sock.cumWriteUNA
  ack : t'.call.tail.expectedAck = t'.sock.cumWriteUNA + UInt32.ofNat t'.call.bytesToSend

structure Streams (first : UInt32) (P : List UInt8) (t : Transfer) : Prop where
  denotes : ∀ m ∈ t.emitted, m.kind ≠ .fin → Denotes first P m.packet
  probed : ∀ probe received more t', t.call.pc = .probing probe received.AckNum →
    t.sock.ackChan = received :: more → received.WindowSize > 0 → t.call.SafeRun t.sock →
    t.step .run = some t' → OneMore t t'

/-- A call on `P` whose emissions so far are what their numbers denote. -/
structure Faithful (first : UInt32) (P : List UInt8) (t : Transfer) : Prop where
  carries : ∃ base a, Carries first P base a t.sock t.call
  ring : Ring first P t.sock
  denotes : ∀ m ∈ t.emitted, m.kind ≠ .fin → Denotes first P m.packet

namespace Faithful

variable {first : UInt32} {P : List UInt8} {t t' : Transfer}

theorem denotes_append (h : Faithful first P t) {out : List Emission}
    (hout : ∀ m ∈ out, m.kind ≠ .fin → Denotes first P m.packet) :
    ∀ m ∈ t.emitted ++ out, m.kind ≠ .fin → Denotes first P m.packet := by
  intro m hm hkind
  rcases List.mem_append.mp hm with hold | hnew
  · exact h.denotes m hold hkind
  · exact hout m hnew hkind

theorem start {sock : NormalSocket} {packet : TCPPacket}
    (hshort : packet.payload.length ≤ 65535)
    (huna : sock.writeBuffer.UNA = ringDist sock.cumWriteUNA sock.baseSeq)
    (hnxt : sock.writeBuffer.NXT = sock.writeBuffer.UNA)
    (hring : Ring sock.cumWriteUNA packet.payload sock) :
    Faithful sock.cumWriteUNA packet.payload (Transfer.start sock packet) := by
  refine ⟨⟨0, 0, ?_⟩, hring, ?_⟩
  · exact Carries.start hshort (Nat.zero_le _) rfl (UInt32.add_zero _).symm huna hnxt
  · intro m hm
    simp [Transfer.start] at hm

theorem step (h : Faithful first P t) {e : TransferEvent} (hok : SafeAcks t e)
    (hnext : t.step e = some t') : Faithful first P t' := by
  obtain ⟨base, a, hcarries⟩ := h.carries
  cases e with
  | run =>
    obtain ⟨result, hrun, rfl⟩ := Option.map_eq_some_iff.mp hnext
    have hstep := WindowCall.run_step hrun
    obtain ⟨⟨base', a', -, hcarries', -⟩, hout⟩ :=
      hcarries.run (hcarries.unaByte h.ring) hok hstep
    exact ⟨⟨base', a', hcarries'⟩, h.ring.congr hstep.sameRing.buffer hstep.sameRing.baseSeq,
      h.denotes_append fun m hm _ => hout m hm⟩
  | timeout =>
    obtain ⟨again, hagain, rfl⟩ := Option.map_eq_some_iff.mp hnext
    exact ⟨h.carries, h.ring, h.denotes_append fun m hm _ => (hcarries.timeout hagain m hm).2⟩
  | tick =>
    obtain ⟨result, htick, rfl⟩ := Option.map_eq_some_iff.mp hnext
    obtain ⟨k, hresent, -⟩ := WindowCall.tick_resent htick
    obtain ⟨hcarries', hout⟩ := hcarries.resent hresent
    have hsame := hresent.closes
    exact ⟨⟨base, a, hcarries'⟩,
      h.ring.congr (congrArg WriteBuffer.buffer hsame.writeBuffer) hsame.baseSeq,
      h.denotes_append hout⟩
  | arrive received =>
    obtain ⟨-, rfl⟩ := Transfer.step_arrive hnext
    unfold Transfer.note
    rcases Transfer.noteWindow_cases t.sock received with heq | heq
    · rw [heq]
      exact ⟨⟨base, a, hcarries.of_same ⟨rfl, rfl, rfl⟩⟩, h.ring.congr rfl rfl, h.denotes⟩
    · rw [heq]
      exact ⟨⟨base, a, hcarries⟩, h.ring, h.denotes⟩
  | dispatch =>
    obtain ⟨received, sock', -, rfl, hcases⟩ := Transfer.step_dispatch hnext
    rcases hcases with hsame | ⟨-, -, -, rfl⟩
    · exact ⟨⟨base, a, hcarries.of_same hsame.sameSending⟩,
        h.ring.congr (congrArg WriteBuffer.buffer hsame.writeBuffer) hsame.baseSeq, h.denotes⟩
    · exact ⟨⟨base, a, hcarries.of_same ⟨rfl, rfl, rfl⟩⟩, h.ring.congr rfl rfl, h.denotes⟩

/-- A probe answered with an open window. -/
theorem oneMore (h : Faithful first P t) {probe : TCPPacket} {received : TCPInfo}
    {more : List TCPInfo} (hpc : t.call.pc = .probing probe received.AckNum)
    (hchan : t.sock.ackChan = received :: more) (hopen : received.WindowSize > 0)
    (hsafe : t.call.SafeRun t.sock) (hnext : t.step .run = some t') : OneMore t t' := by
  obtain ⟨base, a, hcarries⟩ := h.carries
  have hpopped : Carries first P base a { t.sock with ackChan := more } t.call :=
    hcarries.of_same ⟨rfl, rfl, rfl⟩
  unfold WindowCall.SafeRun at hsafe
  rw [hpc, hchan] at hsafe
  obtain ⟨heq, hcarries'⟩ := hpopped.probeAcked hpc rfl (hsafe ⟨rfl, hopen⟩)
  have hstep : t.step .run = some (t.update
      ((t.call.probeAcked { t.sock with ackChan := more } received).1,
        (t.call.probeAcked { t.sock with ackChan := more } received).2, [])) := by
    simp [Transfer.step, WindowCall.run, hpc, hchan, hopen]
  rw [hstep, Option.some.injEq] at hnext
  subst hnext
  have hok := hcarries.pcOk
  rw [hpc] at hok
  obtain ⟨-, -, hlt, -, -, -, hnumber⟩ := hok
  have hsize := hcarries.size
  have hcount := hcarries.count
  have hok' := hcarries'.pcOk
  rw [heq] at hcarries' hok' ⊢
  have hnxt := hok'.2
  rw [show (NormalSocket.slidingWindow _ _ : WindowCall).sentEnd (a + 1) = a + 1 from rfl] at hnxt
  refine ⟨?_, hcarries'.una, ?_, ?_, ?_, rfl, ?_⟩
  · change received.AckNum = t.sock.cumWriteUNA + 1
    rw [hnumber, hcarries.cum, ← add_ofNat_add]
    rfl
  · refine Eq.trans hnxt ?_
    rw [← hcarries'.cum]
    rfl
  · change (P.drop (a + 1)).length - 0 + 1 = t.call.payloadSize - t.call.bytesSent
    rw [List.length_drop]
    omega
  · rfl
  · have hlevel := hok'.1.1
    refine Eq.trans hcarries'.tail_expectedAck ?_
    rw [← add_ofNat_add, ← hcarries'.cum]
    exact congrArg (fun n => _ + UInt32.ofNat n) hlevel.symm

end Faithful

/-- In every run in which no acknowledgement misleads slidingWindow, what it emits is
what the numbers denote, and a probe that succeeds counts for one byte. -/
theorem safe_probing_preserves_stream {sock : NormalSocket} {packet : TCPPacket} {t : Transfer}
    (hshort : packet.payload.length ≤ 65535)
    (huna : sock.writeBuffer.UNA = ringDist sock.cumWriteUNA sock.baseSeq)
    (hnxt : sock.writeBuffer.NXT = sock.writeBuffer.UNA)
    (hring : Ring sock.cumWriteUNA packet.payload sock)
    (hreach : Reach Transfer.step SafeAcks (Transfer.start sock packet) t) :
    Streams sock.cumWriteUNA packet.payload t := by
  have hfaithful : Faithful sock.cumWriteUNA packet.payload t :=
    hreach.invariant (Faithful sock.cumWriteUNA packet.payload)
      (Faithful.start hshort huna hnxt hring) fun _ _ _ hs hok hnext => hs.step hok hnext
  exact ⟨hfaithful.denotes, fun _ _ _ _ hpc hchan hopen hsafe hnext =>
    hfaithful.oneMore hpc hchan hopen hsafe hnext⟩

def ringSocket (window : UInt16) : NormalSocket :=
  let sock := newSocket sampleKey 100 200 window
  { sock with writeBuffer := { sock.writeBuffer with
      buffer := fun i => if i.val = 1 then 7 else if i.val = 2 then 8 else 0
      LBW := 2
      LBW_lt := by decide } }

def ringPacket : TCPPacket := (ringSocket 0).segment tcpFlagAck 101 [7, 8]

def closedRun : List TransferEvent :=
  List.replicate 8 .run ++ [.timeout, .arrive (Transfer.sampleAck 102 5), .dispatch] ++
    List.replicate 9 .run ++ [.arrive (Transfer.sampleAck 103 5), .dispatch] ++
    List.replicate 7 .run

theorem safe_probing_preserves_stream_closed_window :
    ∃ t, Reach Transfer.step SafeAcks (Transfer.start (ringSocket 0) ringPacket) t ∧
      (t.call.pc = .done ∧ t.emitted.map Emission.kind = [.probe, .probe, .first]) ∧
      Streams 101 [7, 8] t := by
  obtain ⟨t, hreach, hdone⟩ := exists_reach Transfer.step SafeAcks
    (Transfer.start (ringSocket 0) ringPacket)
    (fun t => t.call.pc = .done ∧ t.emitted.map Emission.kind = [.probe, .probe, .first])
    closedRun (by decide)
  have hring : Ring 101 [7, 8] (ringSocket 0) := by
    unfold Ring
    decide
  exact ⟨t, hreach, hdone, @safe_probing_preserves_stream (ringSocket 0) ringPacket t (by decide)
    (by decide) rfl hring hreach⟩

def reopenedRun : List TransferEvent :=
  [.arrive (Transfer.sampleAck 101 0), .dispatch] ++ List.replicate 8 .run ++
    [.arrive (Transfer.sampleAck 102 5), .dispatch] ++ List.replicate 3 .run

/-- The second byte is sent under the number of the first. -/
theorem trimmed_segment_misnumbered :
    ¬ ∀ (sock : NormalSocket) (packet : TCPPacket) (t : Transfer),
      packet.payload.length ≤ 65535 →
      sock.writeBuffer.UNA = ringDist sock.cumWriteUNA sock.baseSeq →
      sock.writeBuffer.NXT = sock.writeBuffer.UNA →
      Ring sock.cumWriteUNA packet.payload sock →
      Reach Transfer.step Transfer.HonestAcks (Transfer.start sock packet) t →
      ∀ m ∈ t.emitted, m.kind ≠ .fin → Denotes sock.cumWriteUNA packet.payload m.packet := by
  intro hclaim
  obtain ⟨t, hreach, m, hm, hfirst, hseq, hpay⟩ := exists_reach Transfer.step Transfer.HonestAcks
    (Transfer.start (ringSocket 5) ringPacket)
    (fun t => ∃ m ∈ t.emitted, m.kind = .first ∧ m.packet.seqNum = 101 ∧ m.packet.payload = [8])
    reopenedRun (by decide)
  have hring : Ring 101 [7, 8] (ringSocket 5) := by
    unfold Ring
    decide
  have hdenotes := hclaim (ringSocket 5) ringPacket t (by decide) (by decide) rfl hring hreach m hm
    (by rw [hfirst]; decide)
  unfold Denotes at hdenotes
  rw [hseq, hpay] at hdenotes
  exact absurd hdenotes (by decide)

end IpTcp.Probing
