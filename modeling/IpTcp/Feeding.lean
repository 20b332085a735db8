import IpTcp.Endpoint
import IpTcp.SlidingInvariant

/-!
The sending half of a whole socket refines the pipe between VWrite and
SenderThread: every step of slidingWindow is a move of the pipe's pointers over
the chunk it was given. So the write buffer holds what the pipe says, the chunks
follow each other in the numbering of the bytes, and the pointers tell how many
bytes were sent and acknowledged since the connection was opened.
-/
namespace IpTcp.Feeding

open WriteRing RingBuffer

def number (b : UInt32) (off : ℕ) : UInt32 := b + 1 + UInt32.ofNat off

theorem number_add (b : UInt32) (off n : ℕ) :
    number b off + UInt32.ofNat n = number b (off + n) :=
  add_ofNat_add (b + 1) off n

theorem toNat_ringDist_number (b : UInt32) (off : ℕ) :
    (ringDist (number b off) b).toNat = (off + 1) % 65536 := by
  have hb := b.toNat_lt
  have hone : (1 : UInt32).toNat = 1 := rfl
  unfold number
  rw [toNat_ringDist_add, UInt32.toNat_add, hone]
  omega

def Within (b : UInt32) (n : ℕ) (packet : TCPPacket) : Prop :=
  ∃ off, packet.seqNum = number b off ∧ off + packet.payload.length ≤ n

theorem Within.mono {b : UInt32} {m n : ℕ} {packet : TCPPacket} (h : Within b m packet)
    (hle : m ≤ n) : Within b n packet := by
  obtain ⟨off, hseq, hend⟩ := h
  exact ⟨off, hseq, hend.trans hle⟩

theorem within_of_denotes {b : UInt32} {o : ℕ} {P : List UInt8} {packet : TCPPacket}
    (h : Denotes (number b o) P packet) (hne : packet.payload ≠ []) :
    Within b (o + P.length) packet := by
  refine ⟨o + (packet.seqNum - number b o).toNat, ?_, ?_⟩
  · rw [← number_add, UInt32.ofNat_toNat, UInt32.add_comm, UInt32.sub_add_cancel]
  · have hpos := List.length_pos_iff.mpr hne
    have hlen := congrArg List.length h
    rw [List.length_take, List.length_drop] at hlen
    omega

/-- The pipe that a socket refines when its SenderThread is at `sp`. -/
def mirror (p : Endpoint) (sp : SenderPc) (payloads : List (List UInt8)) : Pipe where
  sock := p.sock
  writer := p.writer
  sender := sp
  panicked := false
  messages := p.messages
  payloads := payloads

/-- SenderThread as the pipe sees it. -/
def Slides (b : UInt32) (sock : NormalSocket) (payloads : List (List UInt8)) (sp : SenderPc) :
    SendPc → Prop
  | .idle => sp = .idle
  | .received lbw => sp = .received lbw
  | .sliding call => ∃ earlier P s a base, sp = .sliding P s a ∧ payloads = earlier ++ [P] ∧
      Carries (number b earlier.flatten.length) P base a sock call

/-- The socket refines a pipe through which `written` went. `full` tells that no byte is
to be sent any more. -/
structure Feeds (b : UInt32) (p : Endpoint) (written : List UInt8) (full : Prop) (A S H L : ℕ)
    (sp : SenderPc) (payloads : List (List UInt8)) : Prop where
  flow : Flowing (mirror p sp payloads) written A S H L
  baseSeq : p.sock.baseSeq = b
  cum : p.sock.cumWriteUNA = number b A
  una : p.sock.writeBuffer.UNA = ringDist p.sock.cumWriteUNA b
  slides : Slides b p.sock payloads sp p.sender
  closed : full → p.writer = .idle ∧ S = written.length

/-- The pointers and numbers that only slidingWindow moves. -/
structure SameNumbers (sock sock' : NormalSocket) : Prop where
  UNA : sock'.writeBuffer.UNA = sock.writeBuffer.UNA
  NXT : sock'.writeBuffer.NXT = sock.writeBuffer.NXT
  cumWriteUNA : sock'.cumWriteUNA = sock.cumWriteUNA
  baseSeq : sock'.baseSeq = sock.baseSeq

theorem Slides.congr {b : UInt32} {sock sock' : NormalSocket} {payloads : List (List UInt8)}
    {sp : SenderPc} {pc : SendPc} (h : Slides b sock payloads sp pc)
    (hsame : SameNumbers sock sock') : Slides b sock' payloads sp pc := by
  cases pc with
  | idle | received lbw => exact h
  | sliding call =>
    obtain ⟨earlier, P, s, a, base, hsp, hpayloads, hcarries⟩ := h
    exact ⟨earlier, P, s, a, base, hsp, hpayloads,
      hcarries.congr hsame.cumWriteUNA hsame.UNA hsame.NXT hsame.baseSeq⟩

theorem writerStep_flowing {w w' : Pipe} {e : PipeEvent} {written : List UInt8} {A S H L : ℕ}
    (h : Flowing w written A S H L) (hshort : ShortMessages w e)
    (hstep : w.writerStep e = some w') :
    ∃ written', written.length ≤ written'.length ∧ Flowing w' written' A S H L ∧
      SameNumbers w.sock w'.sock := by
  cases e with
  | call message =>
    refine ⟨written, Nat.le_refl _, h.call hshort hstep, ?_⟩
    simp only [Pipe.writerStep] at hstep
    split at hstep
    · split at hstep
      · contradiction
      · cases hstep
        exact ⟨rfl, rfl, rfl, rfl⟩
    · contradiction
  | test =>
    refine ⟨written, Nat.le_refl _, h.test hstep, ?_⟩
    simp only [Pipe.writerStep] at hstep
    split at hstep
    · split at hstep <;> cases hstep <;> exact ⟨rfl, rfl, rfl, rfl⟩
    · contradiction
  | copy =>
    obtain ⟨chunk, -, hsock, hflow⟩ := h.copy hstep
    refine ⟨written ++ chunk, by simp, hflow, ?_⟩
    rw [hsock]
    exact ⟨rfl, rfl, rfl, rfl⟩
  | handOver | build | move sent acked | finish => simp [Pipe.writerStep] at hstep

/-- VWrite does not look at SenderThread. -/
theorem writerStep_frame (w : Pipe) (e : PipeEvent) (sp : SenderPc)
    (payloads : List (List UInt8)) :
    ({ w with sender := sp, payloads := payloads } : Pipe).writerStep e =
      (w.writerStep e).map fun w' => { w' with sender := sp, payloads := payloads } := by
  exact Pipe.writerStep_map (g := id) (fun _ => rfl) (fun _ => rfl) (fun _ _ => rfl)
    (fun _ _ _ => Option.map_id.symm ▸ rfl) (fun _ => sp) (fun _ => payloads) w e

namespace Feeds

variable {b : UInt32} {p p' : Endpoint} {written : List UInt8} {full : Prop} {A S H L : ℕ}
  {sp : SenderPc} {payloads : List (List UInt8)}

theorem start (key : SocketTableKey) (baseSeq baseAck : UInt32) (window : UInt16) :
    Feeds baseSeq (Endpoint.start (newSocket key baseSeq baseAck window)) [] full 0 0 0 0 .idle
      [] := by
  refine ⟨⟨rfl, rfl, rfl, rfl, Nat.le_refl _, Nat.le_refl _, rfl, rfl, ?_, ⟨rfl, rfl⟩,
    ⟨rfl, rfl, rfl⟩⟩, rfl, ?_, ?_, rfl, fun _ => ⟨rfl, rfl⟩⟩
  · simp [mirror]
  · exact (UInt32.add_zero _).symm
  · apply UInt32.toNat_inj.mp
    have hnumber : (newSocket key baseSeq baseAck window).cumWriteUNA = number baseSeq 0 :=
      (UInt32.add_zero _).symm
    change (1 : UInt32).toNat =
      (ringDist (newSocket key baseSeq baseAck window).cumWriteUNA _).toNat
    rw [hnumber, toNat_ringDist_number]
    rfl

/-- Steps of other threads leave the sending half alone. -/
theorem of_same (h : Feeds b p written full A S H L sp payloads)
    (hsock : SameSending p.sock p'.sock) (hwriter : p'.writer = p.writer)
    (hmessages : p'.messages = p.messages) (hsender : p'.sender = p.sender) :
    Feeds b p' written full A S H L sp payloads := by
  refine ⟨?_, ?_, ?_, ?_, ?_, ?_⟩
  · unfold mirror
    rw [hwriter, hmessages]
    exact h.flow.of_writeBuffer hsock.writeBuffer
  · rw [hsock.baseSeq]
    exact h.baseSeq
  · rw [hsock.cumWriteUNA]
    exact h.cum
  · rw [hsock.writeBuffer, hsock.cumWriteUNA]
    exact h.una
  · rw [hsender]
    exact h.slides.congr ⟨congrArg WriteBuffer.UNA hsock.writeBuffer,
      congrArg WriteBuffer.NXT hsock.writeBuffer, hsock.cumWriteUNA, hsock.baseSeq⟩
  · rw [hwriter]
    exact h.closed

theorem mono {full' : Prop} (h : Feeds b p written full A S H L sp payloads)
    (himp : full' → full) : Feeds b p written full' A S H L sp payloads :=
  ⟨h.flow, h.baseSeq, h.cum, h.una, h.slides, fun hfull => h.closed (himp hfull)⟩

/-- A step of VWrite is a step of the pipe. -/
theorem writer_step {w : PipeEvent} (hrunning : p.panicked = false)
    (hstep : (p.pipe.writerStep w).map p.wrote = some p') (sp : SenderPc)
    (payloads : List (List UInt8)) :
    ∃ w', (mirror p sp payloads).writerStep w = some w' ∧
      (w'.panicked = false → w' = mirror p' sp payloads) := by
  obtain ⟨w', hw, rfl⟩ := Option.map_eq_some_iff.mp hstep
  refine ⟨{ w' with sender := sp, payloads := payloads }, ?_, ?_⟩
  · have hframe := writerStep_frame p.pipe w sp payloads
    rw [hw] at hframe
    unfold Endpoint.pipe at hframe
    rw [hrunning] at hframe
    exact hframe
  · intro hfalse
    change w'.panicked = false at hfalse
    unfold mirror Endpoint.wrote
    rw [hfalse]

/-- What VWrite copies is written behind the rest; SenderThread notices nothing. -/
theorem write (h : Feeds b p written full A S H L sp payloads) {w : PipeEvent}
    (hrunning : p.panicked = false) (hshort : ShortMessages p.pipe w)
    (hopen : full → ∀ message, w ≠ .call message)
    (hstep : (p.pipe.writerStep w).map p.wrote = some p') :
    ¬ full ∧ ∃ written', written.length ≤ written'.length ∧
      Feeds b p' written' full A S H L sp payloads := by
  obtain ⟨w', hw, hmirror⟩ := writer_step hrunning hstep sp payloads
  have hbusy : ¬ full := by
    intro hfull
    have hidle : (mirror p sp payloads).writer = .idle := (h.closed hfull).1
    cases w with
    | call message => exact hopen hfull message rfl
    | _ => simp [Pipe.writerStep, hidle] at hw
  obtain ⟨written', hle, hflow, hnumbers⟩ := writerStep_flowing h.flow hshort hw
  obtain rfl := hmirror hflow.running
  have hsender : p'.sender = p.sender := by
    obtain ⟨w'', -, rfl⟩ := Option.map_eq_some_iff.mp hstep
    rfl
  refine ⟨hbusy, written', hle, hflow, ?_, ?_, ?_, ?_, fun hfull => (hbusy hfull).elim⟩
  · exact hnumbers.baseSeq.trans h.baseSeq
  · exact hnumbers.cumWriteUNA.trans h.cum
  · have hcum : p'.sock.cumWriteUNA = p.sock.cumWriteUNA := hnumbers.cumWriteUNA
    rw [hcum]
    exact hnumbers.UNA.trans h.una
  · rw [hsender]
    exact h.slides.congr hnumbers

/-- The bytes before the chunk that slidingWindow works on. -/
theorem chunk_end (h : Feeds b p written full A S H L sp payloads)
    {earlier : List (List UInt8)} {P : List UInt8} (hpayloads : payloads = earlier ++ [P]) :
    earlier.flatten.length + P.length = H := by
  have hall : payloads.flatten = written.take H := h.flow.payloads
  have hle := h.flow.handed_le
  have hlen := congrArg List.length hall
  rw [hpayloads, List.flatten_append, List.flatten_singleton, List.length_append,
    List.length_take] at hlen
  omega

theorem una_byte (h : Feeds b p written full A S H L sp payloads)
    {earlier : List (List UInt8)} {P : List UInt8} {a : ℕ} (hpayloads : payloads = earlier ++ [P])
    (hA : A = earlier.flatten.length + a) (hlt : a < P.length) :
    [p.sock.unaByte] = (P.drop a).take 1 := by
  have hend := h.chunk_end hpayloads
  have hle := h.flow.handed_le
  have hall : payloads.flatten = written.take H := h.flow.payloads
  rw [hpayloads, List.flatten_append, List.flatten_singleton] at hall
  have hdrop : P.drop a = (written.take H).drop A := by
    rw [← hall, hA, List.drop_append]
    simp
  have hbyte : [p.sock.unaByte] = (written.drop A).take 1 := h.flow.una_byte (by omega)
  rw [hdrop, hbyte, List.drop_take, List.take_take, Nat.min_eq_left (by omega)]

/-- A new chunk is passed to slidingWindow's thread. -/
theorem handOver (h : Feeds b p written full A S H L sp payloads) {call : WriteCall}
    (hwriter : p.writer = .handing call) (hready : p.sender.ready = true) :
    Feeds b { p with writer := .testing call, sender := .received p.sock.writeBuffer.LBW }
      written full A S H written.length (.received p.sock.writeBuffer.LBW) payloads := by
  have hidle : Flowing (mirror p .idle payloads) written A S H L := by
    have hslides := h.slides
    cases hpc : p.sender with
    | idle =>
      rw [hpc] at hslides
      cases hslides
      exact h.flow
    | received lbw => simp [hpc, SendPc.ready] at hready
    | sliding window =>
      rw [hpc] at hslides
      obtain ⟨earlier, P, s, a, base, rfl, -, hcarries⟩ := hslides
      have hok := hcarries.pcOk
      have hdone : window.pc = .done := by simpa [hpc, SendPc.ready] using hready
      rw [hdone] at hok
      refine h.flow.finish ?_
      simp only [Pipe.senderStep, mirror, hok.2.2, if_true]
  refine ⟨?_, h.baseSeq, h.cum, h.una, rfl, ?_⟩
  · refine hidle.handOver ?_
    simp only [Pipe.handOver, mirror, hwriter]
  · intro hfull
    have hw := (h.closed hfull).1
    rw [hwriter] at hw
    contradiction

section Build

variable {lbw : UInt32}

theorem received (h : Feeds b p written full A S H L sp payloads)
    (hsender : p.sender = .received lbw) :
    Flowing (mirror p (.received lbw) payloads) written A S H L := by
  have hslides := h.slides
  rw [hsender] at hslides
  cases hslides
  exact h.flow

/-- The chunk that SenderThread cuts out lies inside the ring. -/
theorem takeChunk_ne_none (h : Feeds b p written full A S H L sp payloads)
    (hsender : p.sender = .received lbw) : p.sock.takeChunk lbw ≠ none := by
  intro hnone
  have hpanic : Flowing { mirror p (.received lbw) payloads with panicked := true }
      written A S L L :=
    (h.received hsender).build (by simp only [Pipe.senderStep, mirror, hnone])
  exact absurd hpanic.running (by simp)

/-- SenderThread finds nothing to send. -/
theorem nothing (h : Feeds b p written full A S H L sp payloads)
    (hsender : p.sender = .received lbw) (hchunk : p.sock.takeChunk lbw = some none) :
    Feeds b { p with sender := .idle } written full A S L L .idle payloads := by
  refine ⟨(h.received hsender).build ?_, h.baseSeq, h.cum, h.una, rfl, h.closed⟩
  simp only [Pipe.senderStep, mirror, hchunk]

/-- SenderThread cuts the next chunk out of the ring and starts slidingWindow on it. -/
theorem build (h : Feeds b p written full A S H L sp payloads)
    (hsender : p.sender = .received lbw) {packet : TCPPacket}
    (hchunk : p.sock.takeChunk lbw = some (some packet)) :
    Feeds b { p with sender := .sliding (p.sock.slidingWindow packet) } written full A S L L
      (.sliding packet.payload 0 0) (payloads ++ [packet.payload]) := by
  have hbefore := h.received hsender
  have hsenderOk : SenderOk A S H L (.received lbw) := hbefore.sender
  obtain ⟨hA, hS, -⟩ := hsenderOk
  have hflow : Flowing (mirror { p with sender := .sliding (p.sock.slidingWindow packet) }
      (.sliding packet.payload 0 0) (payloads ++ [packet.payload])) written A S L L :=
    hbefore.build (by simp only [Pipe.senderStep, mirror, hchunk])
  have hlen : payloads.flatten.length = A := by
    have hle := h.flow.handed_le
    have hall : payloads.flatten = written.take H := h.flow.payloads
    rw [hall, List.length_take]
    omega
  have hsmall := hflow.small packet.payload (List.mem_append_right _ (List.mem_singleton.mpr rfl))
  refine ⟨hflow, h.baseSeq, h.cum, h.una, ⟨payloads, packet.payload, 0, 0, 0, rfl, rfl, ?_⟩,
    h.closed⟩
  refine Carries.start (by omega) (Nat.zero_le _) rfl ?_ ?_ ?_
  · rw [number_add, hlen]
    exact h.cum
  · rw [h.baseSeq]
    exact h.una
  · apply UInt32.toNat_inj.mp
    have hnxt : p.sock.writeBuffer.NXT.toNat = _ := h.flow.nxt
    have huna : p.sock.writeBuffer.UNA.toNat = _ := h.flow.una
    rw [hnxt, huna, hA, hS]

end Build

/-- What is sent of a chunk lies among the bytes written. -/
theorem within (h : Feeds b p written full A S H L sp payloads) {earlier : List (List UInt8)}
    {P : List UInt8} (hpayloads : payloads = earlier ++ [P]) {packet : TCPPacket}
    (hdenotes : Denotes (number b earlier.flatten.length) P packet)
    (hne : packet.payload ≠ []) : Within b written.length packet := by
  refine (within_of_denotes hdenotes hne).mono ?_
  rw [h.chunk_end hpayloads]
  exact h.flow.handed_le

/-- A step of slidingWindow moves the pointers of the pipe. -/
theorem slide (h : Feeds b p written full A S H L sp payloads) {call : WindowCall}
    (hsender : p.sender = .sliding call) (hsafe : call.SafeRun p.sock)
    {result : NormalSocket × WindowCall × List Emission} (hstep : call.Step p.sock result) :
    (∃ A' S' sp', Feeds b (p.update result) written full A' S' H L sp' payloads) ∧
      ∀ m ∈ result.2.2, m.packet.payload ≠ [] → Within b written.length m.packet := by
  have hslides := h.slides
  rw [hsender] at hslides
  obtain ⟨earlier, P, s, a, base, rfl, hpayloads, hcarries⟩ := hslides
  have hmoved : SenderOk A S H L (.sliding P s a) := h.flow.sender
  obtain ⟨-, -, has, hsl, hA, hS⟩ := hmoved
  have hend := h.chunk_end hpayloads
  have hle := h.flow.handed_le
  have hframe := hstep.sameRing
  have hbase : result.1.baseSeq = b := hframe.baseSeq.trans h.baseSeq
  have hat : ∀ {sock : NormalSocket} {off : ℕ}, sock.baseSeq = b →
      (NxtAt sock (number b earlier.flatten.length) off ↔
        sock.writeBuffer.NXT.toNat = (earlier.flatten.length + off + 1) % 65536) := by
    intro sock off hsock
    unfold NxtAt
    rw [← UInt32.toNat_inj, number_add, hsock, toNat_ringDist_number]
  have hnxt : NxtAt p.sock (number b earlier.flatten.length) s := by
    refine (hat h.baseSeq).mpr ?_
    have hflow : p.sock.writeBuffer.NXT.toNat = (S + 1) % 65536 := h.flow.nxt
    rw [hflow]
    omega
  obtain ⟨⟨base', a', haa, hcarries', s', hnxt', has', hsl'⟩, hout⟩ :=
    hcarries.run (h.una_byte hpayloads (by omega)) hsafe hstep
  refine ⟨⟨earlier.flatten.length + a', earlier.flatten.length + s', .sliding P s' a', ?_, hbase,
    ?_, ?_, ⟨earlier, P, s', a', base', rfl, hpayloads, hcarries'⟩, ?_⟩,
    fun m hm => h.within hpayloads (hout m hm)⟩
  · refine h.flow.slide rfl (by omega) (by omega) haa has' hsl' hframe.buffer hframe.LBW ?_ ?_
    · change result.1.writeBuffer.UNA.toNat = _
      rw [hcarries'.una, hcarries'.cum, hbase, number_add, toNat_ringDist_number]
    · exact (hat hbase).mp hnxt'
  · exact hcarries'.cum.trans (number_add _ _ _)
  · rw [← hbase]
    exact hcarries'.una
  · intro hfull
    obtain ⟨hidle, hall⟩ := h.closed hfull
    have hs : s = P.length := by omega
    rw [hs] at hnxt
    have hkept := hcarries.all_sent hnxt hstep
    have hs' := hcarries'.nxt_unique hnxt' hkept has' (has'.trans hsl') hsl' (Nat.le_refl _)
    exact ⟨hidle, by omega⟩

theorem timeout (h : Feeds b p written full A S H L sp payloads) {call : WindowCall}
    (hsender : p.sender = .sliding call) {again : List Emission}
    (hagain : call.timeout = some again) :
    ∀ m ∈ again, m.kind ≠ .fin ∧ (m.packet.payload ≠ [] → Within b written.length m.packet) := by
  have hslides := h.slides
  rw [hsender] at hslides
  obtain ⟨earlier, P, s, a, base, -, hpayloads, hcarries⟩ := hslides
  intro m hm
  obtain ⟨hkind, hdenotes⟩ := hcarries.timeout hagain m hm
  exact ⟨by rw [hkind]; nofun, h.within hpayloads hdenotes⟩

/-- A retransmission leaves the pointers alone. -/
theorem resent (h : Feeds b p written full A S H L sp payloads) {call : WindowCall}
    (hsender : p.sender = .sliding call) {k : ℕ}
    {result : NormalSocket × WindowCall × List Emission}
    (hresent : WindowCall.Resent p.sock call k result) :
    Feeds b (p.update result) written full A S H L sp payloads ∧
      ∀ m ∈ result.2.2, m.kind ≠ .fin → m.packet.payload ≠ [] →
        Within b written.length m.packet := by
  have hslides := h.slides
  rw [hsender] at hslides
  obtain ⟨earlier, P, s, a, base, hsp, hpayloads, hcarries⟩ := hslides
  obtain ⟨hcarries', hout⟩ := hcarries.resent hresent
  have hsame := hresent.closes
  refine ⟨⟨h.flow.of_writeBuffer hsame.writeBuffer, hsame.baseSeq.trans h.baseSeq,
    hsame.cumWriteUNA.trans h.cum, ?_, ⟨earlier, P, s, a, base, hsp, hpayloads, hcarries'⟩,
    h.closed⟩, fun m hm hkind => h.within hpayloads (hout m hm hkind)⟩
  change result.1.writeBuffer.UNA = ringDist result.1.cumWriteUNA b
  rw [hsame.writeBuffer, hsame.cumWriteUNA]
  exact h.una

theorem sent_bounds (h : Feeds b p written full A S H L sp payloads) :
    A ≤ S ∧ S ≤ A + 1360 ∧ S ≤ L := by
  have hsender : SenderOk A S H L sp := h.flow.sender
  cases sp with
  | idle =>
    obtain ⟨hA, hS, hL⟩ := hsender
    omega
  | received lbw =>
    obtain ⟨hA, hS, hL, -⟩ := hsender
    omega
  | sliding payload s a =>
    obtain ⟨hL, hsmall, has, hsl, hA, hS⟩ := hsender
    omega

/-- The FIN that VClose builds has the number behind the bytes that were sent. -/
theorem fin_number (h : Feeds b p written full A S H L sp payloads) :
    p.sock.distUNA + p.sock.cumWriteUNA = number b S := by
  have hbounds := h.sent_bounds
  have hword : p.sock.distUNA = UInt32.ofNat (S - A) := by
    have hnxt : p.sock.writeBuffer.NXT.toNat = _ := h.flow.nxt
    have huna : p.sock.writeBuffer.UNA.toNat = _ := h.flow.una
    apply UInt32.toNat_inj.mp
    unfold NormalSocket.distUNA
    rw [toNat_ringDist, hnxt, huna, UInt32.toNat_ofNat']
    omega
  rw [hword, h.cum, UInt32.add_comm, number_add, Nat.add_sub_cancel' hbounds.1]

/-- Between two calls of VWrite, the pointers meet when every byte was sent. -/
theorem all_sent_iff (h : Feeds b p written full A S H L sp payloads) (hidle : p.writer = .idle) :
    p.sock.writeBuffer.NXT = (p.sock.writeBuffer.LBW + 1) % windowSize ↔ S = written.length := by
  have hnxt : p.sock.writeBuffer.NXT.toNat = _ := h.flow.nxt
  have hlbw : p.sock.writeBuffer.LBW.toNat = _ := h.flow.lbw
  have hbounds := h.sent_bounds
  have hclose := h.flow.channel_close
  have hwriter : WriterOk p.messages written L p.writer := h.flow.writer
  rw [hidle] at hwriter
  have hL := hwriter.2
  have hone : (1 : UInt32).toNat = 1 := rfl
  have hwin : (windowSize : UInt32).toNat = 65536 := rfl
  rw [← UInt32.toNat_inj, hnxt, UInt32.toNat_mod, UInt32.toNat_add, hlbw, hone, hwin]
  omega

theorem settle (h : Feeds b p written full A S H L sp payloads) (hidle : p.writer = .idle)
    (hmeet : p.sock.writeBuffer.NXT = (p.sock.writeBuffer.LBW + 1) % windowSize) :
    Feeds b p written True A S H L sp payloads :=
  ⟨h.flow, h.baseSeq, h.cum, h.una, h.slides, fun _ => ⟨hidle, (h.all_sent_iff hidle).mp hmeet⟩⟩

end Feeds

end IpTcp.Feeding
