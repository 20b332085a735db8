import IpTcp.Closing

/-!
The addresses of the segments that the threads of a socket send. New segments, probes
and FINs take them from the key of the socket, which never changes; retransmissions and
later segments of one call of slidingWindow copy them; ReceiverThread takes them from
the key of the segment that it answers. A segment has at most 1360 bytes of payload.
-/
namespace IpTcp

open NormalSocket Closing

structure TCPPacket.Outbound (key : SocketTableKey) (p : TCPPacket) : Prop where
  sourceIp : p.sourceIp = key.LocalAddr
  destIp : p.destIp = key.RemoteAddr
  size : p.payload.length ≤ mss

section Keys

variable (sock : NormalSocket)

theorem commitClose_key (packet : TCPPacket) : (sock.commitClose packet).1.key = sock.key := by
  unfold commitClose
  split
  · rfl
  · simp only
    split
    · rfl
    · split <;> rfl

theorem drainEarly_key (fuel : ℕ) (hfuel : sock.earlyPQ.size ≤ fuel) :
    (sock.drainEarly fuel).1.key = sock.key := by
  have rules : DrainRules (fun s => s.key = sock.key) (fun s => s.key = sock.key) :=
    { old := fun _ hs _ _ => hs
      data := fun _ hs _ _ _ => hs
      fin := fun s s' hs _ _ _ hfin => by
        obtain ⟨-, state, mtx, rfl⟩ := acceptFIN_some hfin
        exact hs
      blocked := fun _ hs _ _ _ _ => hs }
  rcases drainEarly_spec rules fuel rfl hfuel with ⟨-, h, -⟩ | ⟨-, h⟩
  · exact h
  · exact h

theorem drainAndReply_key (received : TCPInfo) :
    (sock.drainAndReply received).1.key = sock.key := by
  have hdrain := drainEarly_key sock sock.earlyPQ.size (Nat.le_refl _)
  unfold drainAndReply
  simp only
  split <;> exact hdrain

theorem dispatch_key (received : TCPInfo) : (sock.dispatch received).1.key = sock.key := by
  have hdata : (sock.receiveData received).1.key = sock.key := by
    unfold receiveData
    split
    · rfl
    · split
      · split
        · rfl
        · next sock' hfin =>
          obtain ⟨-, state, mtx, rfl⟩ := acceptFIN_some hfin
          exact drainAndReply_key _ received
      · split
        · exact drainAndReply_key _ received
        · rfl
  unfold dispatch
  split
  · split
    · rfl
    · split
      · rfl
      · split
        · rfl
        · exact hdata
  · rfl

theorem vRead_key (numbytes : UInt16) : (sock.vRead numbytes).1.key = sock.key := by
  unfold vRead
  split
  · rfl
  · split
    · rfl
    · split <;> rfl

theorem finAcked_key (ack : UInt32) : (sock.finAcked ack).key = sock.key := by
  unfold finAcked
  simp only
  split
  · rfl
  · split <;> rfl

theorem noteWindow_key (received : TCPInfo) : (sock.noteWindow received).key = sock.key := by
  unfold noteWindow
  split <;> rfl

theorem copyChunk_key {call call' : WriteCall} {space : UInt32} {sock' : NormalSocket}
    (h : sock.copyChunk call space = some (sock', call')) : sock'.key = sock.key := by
  simp only [copyChunk, Option.bind_eq_bind, Option.bind_eq_some_iff, Option.some.injEq,
    Prod.mk.injEq] at h
  obtain ⟨-, -, -, -, -, -, -, -, rfl, -⟩ := h
  rfl

end Keys

theorem Pipe.writerStep_key {w w' : Pipe} {e : PipeEvent} (h : w.writerStep e = some w') :
    w'.sock.key = w.sock.key := by
  cases e with
  | call message =>
    simp only [writerStep] at h
    split at h
    · split at h
      · contradiction
      · cases h
        rfl
    · contradiction
  | test =>
    simp only [writerStep] at h
    split at h
    · split at h
      · cases h
        rfl
      · cases h
        rfl
    · contradiction
  | copy =>
    simp only [writerStep] at h
    split at h
    · split at h
      · cases h
        rfl
      · next sock call hcopy =>
        cases h
        exact copyChunk_key _ hcopy
    · contradiction
  | handOver | build | move sent acked | finish => contradiction

namespace TCPPacket.Outbound

variable {key : SocketTableKey} {p : TCPPacket} {sock : NormalSocket}

theorem segment (flags : UInt8) (seqNum : UInt32) {payload : List UInt8}
    (h : payload.length ≤ mss) : Outbound sock.key (sock.segment flags seqNum payload) :=
  ⟨rfl, rfl, h⟩

theorem finPacket (sock : NormalSocket) : Outbound sock.key sock.finPacket :=
  segment _ _ (Nat.zero_le _)

theorem refresh (h : Outbound key p) : Outbound key (WindowCall.refresh sock p) :=
  ⟨h.sourceIp, h.destIp, h.size⟩

theorem dropPayload (h : Outbound key p) (n : ℕ) :
    Outbound key { p with payload := p.payload.drop n } := by
  refine ⟨h.sourceIp, h.destIp, Nat.le_trans ?_ h.size⟩
  rw [List.length_drop]
  exact Nat.sub_le ..

/-- ReceiverThread answers with the addresses of the segment turned round. -/
theorem replyTo {received : TCPInfo} (h : received.key = key.flip) :
    Outbound key (replyTo sock received) := by
  refine ⟨?_, ?_, Nat.zero_le _⟩
  · exact congrArg SocketTableKey.RemoteAddr h
  · exact congrArg SocketTableKey.LocalAddr h

end TCPPacket.Outbound

structure WindowCall.Outbound (key : SocketTableKey) (call : WindowCall) : Prop where
  nodes : ∀ node ∈ call.nodes, node.packet.Outbound key
  probe : ∀ probe expectedAck, call.pc = .probing probe expectedAck → probe.Outbound key

structure SendsUnder (key : SocketTableKey) (result : NormalSocket × WindowCall × List Emission) :
    Prop where
  sock : result.1.key = key
  call : result.2.1.Outbound key
  out : ∀ m ∈ result.2.2, m.packet.Outbound key

theorem WindowCall.forall_mem_nodes {call : WindowCall} {P : WindowNode → Prop} :
    (∀ node ∈ call.nodes, P node) ↔ (∀ node ∈ call.before, P node) ∧ P call.tail := by
  rw [nodes, List.forall_mem_append, List.forall_mem_singleton]

namespace WindowCall.Outbound

variable {key : SocketTableKey} {sock : NormalSocket} {call call' : WindowCall}
  {result : NormalSocket × WindowCall × List Emission}

theorem slidingWindow (sock : NormalSocket) (packet : TCPPacket) :
    (sock.slidingWindow packet).Outbound sock.key := by
  refine ⟨fun node hnode => ?_, fun _ _ hpc => by cases hpc⟩
  rw [List.mem_singleton.mp hnode]
  refine TCPPacket.Outbound.segment _ _ ?_
  rw [List.length_take]
  omega

/-- The nodes stay and no probe is sent. -/
theorem of_nodes (h : call.Outbound key) (hnodes : call'.nodes = call.nodes)
    (hpc : ∀ probe expectedAck, call'.pc ≠ .probing probe expectedAck) : call'.Outbound key :=
  ⟨hnodes ▸ h.nodes, fun probe expectedAck h => absurd h (hpc probe expectedAck)⟩

theorem goto (h : call.Outbound key) {pc : SlidePc}
    (hpc : ∀ probe expectedAck, pc ≠ .probing probe expectedAck) : (call.goto pc).Outbound key :=
  h.of_nodes rfl hpc

theorem updatePacket (h : call.Outbound key) (k : ℕ) {f : TCPPacket → TCPPacket}
    (hf : ∀ p, p.Outbound key → (f p).Outbound key) :
    ∀ node ∈ (call.updatePacket k f).nodes, node.packet.Outbound key := by
  obtain ⟨hbefore, htail⟩ := forall_mem_nodes.mp h.nodes
  unfold WindowCall.updatePacket
  split
  · refine forall_mem_nodes.mpr ⟨fun node hnode => ?_, htail⟩
    obtain ⟨i, hi⟩ := List.getElem?_of_mem hnode
    rw [List.getElem?_modify] at hi
    obtain ⟨old, hold, heq⟩ := Option.map_eq_some_iff.mp hi
    have hpacket := hbefore old (List.mem_of_getElem? hold)
    rw [← heq]
    split
    · exact hf _ hpacket
    · exact hpacket
  · exact forall_mem_nodes.mpr ⟨hbefore, hf _ htail⟩

theorem refreshed (h : call.Outbound key) (sock : NormalSocket) (k : ℕ) :
    (call.updatePacket k (refresh sock)).Outbound key := by
  refine ⟨h.updatePacket k fun p hp => hp.refresh, ?_⟩
  unfold WindowCall.updatePacket
  split <;> exact h.probe

theorem allocateNext (h : call.Outbound key) (expectedAck : UInt32) :
    (call.allocateNext sock expectedAck).Outbound key := by
  refine ⟨?_, fun probe ack hpc => ?_⟩
  · unfold WindowCall.allocateNext
    simp only
    split
    · have htail := (forall_mem_nodes.mp h.nodes).2
      refine forall_mem_nodes.mpr ⟨h.nodes, htail.sourceIp, htail.destIp, ?_⟩
      simp only [List.length_take]
      omega
    · exact h.nodes
  · rw [allocateNext_pc] at hpc
    contradiction

theorem processAck (h : call.Outbound key) (sock : NormalSocket) (received : TCPInfo) :
    (call.processAck sock received).1.key = sock.key ∧
      (call.processAck sock received).2.Outbound key := by
  unfold WindowCall.processAck
  simp only
  split
  · exact ⟨rfl, h.nodes, h.probe⟩
  · exact ⟨rfl, h⟩

theorem probeAcked (sock : NormalSocket) (h : call.Outbound sock.key) (received : TCPInfo) :
    (call.probeAcked sock received).1.key = sock.key ∧
      (call.probeAcked sock received).2.Outbound sock.key := by
  unfold WindowCall.probeAcked
  simp only
  split
  · split
    · exact ⟨rfl, h.of_nodes rfl fun _ _ hpc => by cases hpc⟩
    · exact ⟨rfl, slidingWindow ((sock.setWindow received.WindowSize).ackUpTo _) _⟩
  · refine ⟨rfl, ?_, fun _ _ hpc => by cases hpc⟩
    exact h.updatePacket 0 fun p hp => hp.dropPayload 1

theorem run (h : call.Outbound sock.key) (hrun : call.run sock = some result) :
    SendsUnder sock.key result := by
  cases run_step hrun with
  | probe probe expectedAck hpc hmtx hack hprobe =>
    have hout : probe.Outbound sock.key := by
      rw [hprobe]
      exact TCPPacket.Outbound.segment _ _ (by simp [mss])
    refine ⟨rfl, ⟨h.nodes, fun probe' expectedAck' hpc' => ?_⟩, List.forall_mem_singleton.mpr hout⟩
    cases hpc'
    exact hout
  | probeAcked probe received more hpc hchan hopen =>
    have hacked := Outbound.probeAcked { sock with ackChan := more } h received
    exact ⟨hacked.1, hacked.2, by simp⟩
  | send expectedAck hpc hmtx hack =>
    obtain ⟨hbefore, htail⟩ := forall_mem_nodes.mp h.nodes
    refine ⟨rfl, ⟨forall_mem_nodes.mpr ⟨hbefore, htail⟩, fun _ _ hpc => by cases hpc⟩, ?_⟩
    exact List.forall_mem_singleton.mpr htail
  | allocate expectedAck hpc => exact ⟨rfl, h.allocateNext expectedAck, by simp⟩
  | ack received more hpc hchan hmtx hzero =>
    have hacked := h.processAck { sock with ackChan := more } received
    exact ⟨hacked.1, hacked.2, by simp⟩
  | probeOn probe expectedAck received more hpc hchan => exact ⟨rfl, h, by simp⟩
  | repeated received more hpc hchan hmtx hzero => exact ⟨rfl, h, by simp⟩
  | windowZero hpc hzero => exact ⟨rfl, h.of_nodes rfl (fun _ _ hpc => by cases hpc), by simp⟩
  -- the other steps move to another point of the loop, none of them a probe
  | _ => exact ⟨rfl, h.goto (fun _ _ hpc => by cases hpc), by simp⟩

theorem timeout (h : call.Outbound key) {again : List Emission}
    (htimeout : call.timeout = some again) : ∀ m ∈ again, m.packet.Outbound key := by
  unfold WindowCall.timeout at htimeout
  split at htimeout
  · next probe expectedAck hpc =>
    cases htimeout
    exact List.forall_mem_singleton.mpr (h.probe probe expectedAck hpc)
  · contradiction

theorem quiet (h : call.Outbound sock.key) : SendsUnder sock.key (sock, call, []) :=
  ⟨rfl, h, by simp⟩

theorem resendFirst (h : call.Outbound sock.key) (k : ℕ) :
    SendsUnder sock.key (call.resendFirst sock k) := by
  unfold WindowCall.resendFirst
  split
  · exact h.quiet
  · next node hnode =>
    split
    · refine ⟨rfl, h.refreshed sock k, List.forall_mem_singleton.mpr ?_⟩
      exact (h.nodes node (List.mem_of_getElem? hnode)).refresh
    · exact h.quiet

theorem resend (h : call.Outbound sock.key) (k : ℕ) :
    SendsUnder sock.key (call.resend sock k) := by
  have hcall := h.refreshed sock k
  have hkey : sock.vClose.1.key = sock.key := commitClose_key sock sock.finPacket
  unfold WindowCall.resend
  split
  · exact h.quiet
  · next node hnode =>
    split
    · simp only
      generalize (if call.last_index = node.index then call.cnt + 1 else 1) = cnt
      split
      · split
        · next closed packet hclose =>
          have hfin : packet = sock.finPacket := (commitClose_sent (congrArg Prod.snd hclose)).1
          rw [hclose] at hkey
          refine ⟨hkey, ⟨hcall.nodes, hcall.probe⟩, List.forall_mem_singleton.mpr ?_⟩
          rw [hfin]
          exact TCPPacket.Outbound.finPacket sock
        · next closed _ _ hclose =>
          rw [hclose] at hkey
          exact ⟨hkey, ⟨hcall.nodes, hcall.probe⟩, by simp⟩
      · refine ⟨rfl, ⟨hcall.nodes, hcall.probe⟩, List.forall_mem_singleton.mpr ?_⟩
        exact (h.nodes node (List.mem_of_getElem? hnode)).refresh
    · exact h.quiet

/-- The retransmission thread sends nodes again, or a FIN when it gives up. -/
theorem tick (h : call.Outbound sock.key) (htick : call.tick sock = some result) :
    SendsUnder sock.key result := by
  obtain ⟨-, rfl | ⟨-, k, -, ⟨-, rfl⟩ | ⟨-, rfl⟩⟩⟩ := WindowCall.tick_cases htick
  · exact h.quiet
  · exact h.resend (k - 1)
  · exact h.resendFirst k

end WindowCall.Outbound

/-- Everything that a socket sent, and what its threads are about to send, goes out under a
key, and so do the answers to what arrives. -/
structure Endpoint.Outbound (key : SocketTableKey) (p : Endpoint) : Prop where
  sock : p.sock.key = key
  sender : ∀ call, p.sender = .sliding call → call.Outbound key
  arriving : ∀ received, p.arriving = some received → received.key = key.flip
  closers : ∀ q ∈ p.closers, q.Outbound key
  emitted : ∀ m ∈ p.emitted, m.packet.Outbound key
  replies : ∀ q ∈ p.replies, q.Outbound key

namespace Endpoint.Outbound

variable {key : SocketTableKey} {p p' : Endpoint}

theorem start {sock : NormalSocket} (h : sock.key = key) : (Endpoint.start sock).Outbound key where
  sock := h
  sender := by simp [Endpoint.start]
  arriving := by simp [Endpoint.start]
  closers := by simp [Endpoint.start]
  emitted := by simp [Endpoint.start]
  replies := by simp [Endpoint.start]

theorem update (h : p.Outbound key) {result : NormalSocket × WindowCall × List Emission}
    (hresult : SendsUnder key result) : (p.update result).Outbound key where
  sock := hresult.sock
  sender := fun _ hcall => by
    cases hcall
    exact hresult.call
  arriving := h.arriving
  closers := h.closers
  emitted := List.forall_mem_append.mpr ⟨h.emitted, hresult.out⟩
  replies := h.replies

theorem deliver (h : p.Outbound key) (received : TCPInfo) :
    { p with sock := (p.sock.dispatch received).1, arriving := none }.Outbound key :=
  ⟨(dispatch_key p.sock received).trans h.sock, h.sender, by simp, h.closers, h.emitted, h.replies⟩

theorem commit (h : p.Outbound key) (packet : TCPPacket) (k : ℕ) :
    { p with
      sock := (p.sock.commitClose packet).1
      closers := p.closers.eraseIdx k }.Outbound key :=
  ⟨(commitClose_key p.sock packet).trans h.sock, h.sender, h.arriving,
    fun q hq => h.closers q (List.mem_of_mem_eraseIdx hq), h.emitted, h.replies⟩

theorem emit (h : p.Outbound key) {out : List Emission}
    (hout : ∀ m ∈ out, m.packet.Outbound key) :
    { p with emitted := p.emitted ++ out }.Outbound key :=
  ⟨h.sock, h.sender, h.arriving, h.closers, List.forall_mem_append.mpr ⟨h.emitted, hout⟩,
    h.replies⟩

/-- What a thread sends goes out under the key, if what arrives came in under it. -/
theorem step (h : p.Outbound key) {e : EndpointEvent}
    (harrive : ∀ received, e = .arrive received → received.key = key.flip)
    (hstep : p.step e = some p') : p'.Outbound key := by
  obtain ⟨-, hstep⟩ := Endpoint.step_step hstep
  cases hstep with
  | write e w hw =>
    exact ⟨(Pipe.writerStep_key hw).trans h.sock, h.sender, h.arriving, h.closers, h.emitted,
      h.replies⟩
  | handOver call hwriter hready =>
    exact ⟨h.sock, by simp, h.arriving, h.closers, h.emitted, h.replies⟩
  | outOfBounds lbw hsender hchunk =>
    exact ⟨h.sock, h.sender, h.arriving, h.closers, h.emitted, h.replies⟩
  | nothing lbw hsender hchunk =>
    exact ⟨h.sock, by simp, h.arriving, h.closers, h.emitted, h.replies⟩
  | build lbw packet hsender hchunk =>
    refine ⟨h.sock, fun call hcall => ?_, h.arriving, h.closers, h.emitted, h.replies⟩
    cases hcall
    exact h.sock ▸ WindowCall.Outbound.slidingWindow p.sock packet
  | run call result hsender hrun =>
    have hcall := h.sender call hsender
    rw [← h.sock] at hcall
    exact h.update (h.sock ▸ hcall.run hrun)
  | timeout call again hsender hagain => exact h.emit ((h.sender call hsender).timeout hagain)
  | tick call result hsender htick =>
    have hcall := h.sender call hsender
    rw [← h.sock] at hcall
    exact h.update (h.sock ▸ hcall.tick htick)
  | arrive received =>
    refine ⟨(noteWindow_key p.sock received).trans h.sock, h.sender, fun r hr => ?_, h.closers,
      h.emitted, h.replies⟩
    cases hr
    exact harrive received rfl
  | blocked received harriving hblocked =>
    have hnext := h.deliver received
    exact ⟨hnext.sock, hnext.sender, hnext.arriving, hnext.closers, hnext.emitted, hnext.replies⟩
  | absorbed received harriving => exact h.deliver received
  | toFinChan received ack harriving =>
    have hnext := h.deliver received
    exact ⟨hnext.sock, hnext.sender, hnext.arriving, hnext.closers, hnext.emitted, hnext.replies⟩
  | reply received packet harriving hreply =>
    have hnext := h.deliver received
    obtain ⟨s, rfl⟩ := dispatch_reply_eq hreply
    have hout : (replyTo s received).Outbound key := .replyTo (h.arriving received harriving)
    exact ⟨hnext.sock, hnext.sender, hnext.arriving, hnext.closers, hnext.emitted,
      List.forall_mem_append.mpr ⟨h.replies, List.forall_mem_singleton.mpr hout⟩⟩
  | finAcked ack =>
    exact ⟨(finAcked_key p.sock ack).trans h.sock, h.sender, h.arriving, h.closers, h.emitted,
      h.replies⟩
  | read numbytes sock data hread =>
    have hsock := vRead_key p.sock numbytes
    rw [hread] at hsock
    exact ⟨hsock.trans h.sock, h.sender, h.arriving, h.closers, h.emitted, h.replies⟩
  | close =>
    have hfin : p.sock.finPacket.Outbound key := h.sock ▸ .finPacket p.sock
    exact ⟨h.sock, h.sender, h.arriving, List.forall_mem_append.mpr
      ⟨h.closers, List.forall_mem_singleton.mpr hfin⟩, h.emitted, h.replies⟩
  | commit k packet hpacket => exact h.commit packet k
  | sendFIN k packet sent hpacket hsent =>
    have hfin := h.closers packet (List.mem_of_getElem? hpacket)
    rw [← (commitClose_sent hsent).1] at hfin
    exact (h.commit packet k).emit (List.forall_mem_singleton.mpr hfin)

end Endpoint.Outbound

end IpTcp
