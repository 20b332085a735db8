import IpTcp.SegmentAddresses

/-!
The flags, acknowledgement numbers and windows of the segments that a socket sends. Whatever
a thread sends carries the `cumReadNXT` and the window that the socket had when the segment
was built or sent again, so a bound on them that later steps only widen holds of all
segments. The packets of a call of slidingWindow are followed once, for any property that
building, restamping and trimming a packet keep.
-/
namespace IpTcp

open NormalSocket Closing

/-- Building a segment, stamping one anew and trimming one keep `Q`. -/
structure NormalSocket.Stamps (sock : NormalSocket) (Q : TCPPacket → Prop) : Prop where
  segment : ∀ seqNum payload, Q (sock.segment tcpFlagAck seqNum payload)
  restamp : ∀ p payload seqNum, Q p → Q { p with
    payload := payload
    seqNum := seqNum
    ackNum := sock.cumReadNXT
    window := sock.readBuffer.window }
  trim : ∀ p payload, Q p → Q { p with payload := payload }

/-- Every packet of a call has the property, and the rest of its payload is to be sent in
acknowledgements. -/
structure WindowCall.Every (Q : TCPPacket → Prop) (call : WindowCall) : Prop where
  flags : call.packet.flags = tcpFlagAck
  nodes : ∀ node ∈ call.nodes, Q node.packet
  probe : ∀ probe expectedAck, call.pc = .probing probe expectedAck → Q probe

namespace WindowCall.Every

variable {Q Q' : TCPPacket → Prop} {sock : NormalSocket} {call call' : WindowCall}
  {result : NormalSocket × WindowCall × List Emission}

theorem mono (h : call.Every Q) (himp : ∀ p, Q p → Q' p) : call.Every Q' :=
  ⟨h.flags, fun node hnode => himp _ (h.nodes node hnode),
    fun probe ack hpc => himp _ (h.probe probe ack hpc)⟩

theorem slidingWindow (hQ : sock.Stamps Q) {packet : TCPPacket}
    (hflags : packet.flags = tcpFlagAck) : (sock.slidingWindow packet).Every Q := by
  refine ⟨hflags, fun node hnode => ?_, fun _ _ hpc => by cases hpc⟩
  rw [List.mem_singleton.mp hnode]
  change Q (sock.segment packet.flags _ _)
  rw [hflags]
  exact hQ.segment _ _

/-- The packets stay and no probe is sent. -/
theorem of_nodes (h : call.Every Q) (hflags : call'.packet.flags = call.packet.flags)
    (hnodes : call'.nodes = call.nodes)
    (hpc : ∀ probe expectedAck, call'.pc ≠ .probing probe expectedAck) : call'.Every Q :=
  ⟨hflags.trans h.flags, hnodes ▸ h.nodes,
    fun probe expectedAck hprobe => absurd hprobe (hpc probe expectedAck)⟩

theorem goto (h : call.Every Q) {pc : SlidePc}
    (hpc : ∀ probe expectedAck, pc ≠ .probing probe expectedAck) : (call.goto pc).Every Q :=
  h.of_nodes rfl rfl hpc

theorem updatePacket (h : call.Every Q) (k : ℕ) {f : TCPPacket → TCPPacket}
    (hf : ∀ p, Q p → Q (f p)) : ∀ node ∈ (call.updatePacket k f).nodes, Q node.packet := by
  obtain ⟨hbefore, htail⟩ := forall_mem_nodes.mp h.nodes
  unfold WindowCall.updatePacket
  split
  · refine forall_mem_nodes.mpr ⟨fun node hnode => ?_, htail⟩
    obtain ⟨i, hi⟩ := List.getElem?_of_mem hnode
    rw [List.getElem?_modify] at hi
    obtain ⟨old, hold, heq⟩ := Option.map_eq_some_iff.mp hi
    have hpacket := hbefore old (List.mem_of_getElem? hold)
    rw [← heq]
    split
    · exact hf _ hpacket
    · exact hpacket
  · exact forall_mem_nodes.mpr ⟨hbefore, hf _ htail⟩

theorem refreshed (h : call.Every Q) (hQ : sock.Stamps Q) (k : ℕ) :
    (call.updatePacket k (refresh sock)).Every Q := by
  refine ⟨?_, h.updatePacket k fun p hp => hQ.restamp p p.payload p.seqNum hp, ?_⟩
  · unfold WindowCall.updatePacket
    split <;> exact h.flags
  · unfold WindowCall.updatePacket
    split <;> exact h.probe

theorem allocateNext (h : call.Every Q) (hQ : sock.Stamps Q) (expectedAck : UInt32) :
    (call.allocateNext sock expectedAck).Every Q := by
  refine ⟨?_, ?_, fun probe ack hpc => ?_⟩
  · unfold WindowCall.allocateNext
    simp only
    split <;> exact h.flags
  · unfold WindowCall.allocateNext
    simp only
    split
    · exact forall_mem_nodes.mpr ⟨h.nodes, hQ.restamp _ _ _ (forall_mem_nodes.mp h.nodes).2⟩
    · exact h.nodes
  · rw [allocateNext_pc] at hpc
    contradiction

theorem processAck (h : call.Every Q) (sock : NormalSocket) (received : TCPInfo) :
    (call.processAck sock received).2.Every Q := by
  unfold WindowCall.processAck
  simp only
  split
  · exact ⟨h.flags, h.nodes, h.probe⟩
  · exact h

theorem probeAcked (h : call.Every Q) (hQ : sock.Stamps Q) (received : TCPInfo) :
    (call.probeAcked sock received).2.Every Q := by
  unfold WindowCall.probeAcked
  simp only
  split
  · split
    · exact h.of_nodes rfl rfl fun _ _ hpc => by cases hpc
    · -- the socket differs only in what the sending side owns
      have hsame : ((sock.setWindow received.WindowSize).ackUpTo received.AckNum).Stamps Q :=
        ⟨hQ.segment, hQ.restamp, hQ.trim⟩
      exact slidingWindow hsame h.flags
  · refine ⟨?_, h.updatePacket 0 fun p hp => hQ.trim p _ hp, fun _ _ hpc => by cases hpc⟩
    unfold WindowCall.updatePacket
    split <;> exact h.flags

/-- A step of slidingWindow keeps the property, and what it sends has it. -/
theorem run (h : call.Every Q) (hQ : sock.Stamps Q) (hstep : call.Step sock result) :
    result.2.1.Every Q ∧ ∀ m ∈ result.2.2, Q m.packet := by
  cases hstep with
  | probe probe expectedAck hpc hmtx hack hprobe =>
    have hnew : Q probe := by
      rw [hprobe]
      exact hQ.segment _ _
    refine ⟨⟨h.flags, h.nodes, fun probe' expectedAck' hpc' => ?_⟩,
      List.forall_mem_singleton.mpr hnew⟩
    cases hpc'
    exact hnew
  | probeAcked probe received more hpc hchan hopen =>
    have hsame : ({ sock with ackChan := more } : NormalSocket).Stamps Q :=
      ⟨hQ.segment, hQ.restamp, hQ.trim⟩
    exact ⟨h.probeAcked hsame received, by simp⟩
  | send expectedAck hpc hmtx hack =>
    obtain ⟨hbefore, htail⟩ := forall_mem_nodes.mp h.nodes
    exact ⟨⟨h.flags, forall_mem_nodes.mpr ⟨hbefore, htail⟩, fun _ _ hpc => by cases hpc⟩,
      List.forall_mem_singleton.mpr htail⟩
  | allocate expectedAck hpc => exact ⟨h.allocateNext hQ expectedAck, by simp⟩
  | ack received more hpc hchan hmtx hzero => exact ⟨h.processAck _ received, by simp⟩
  | probeOn probe expectedAck received more hpc hchan => exact ⟨h, by simp⟩
  | repeated received more hpc hchan hmtx hzero => exact ⟨h, by simp⟩
  | windowZero hpc hzero => exact ⟨h.of_nodes rfl rfl (fun _ _ hpc => by cases hpc), by simp⟩
  -- the other steps move to another point of the loop, none of them a probe
  | _ => exact ⟨h.goto (fun _ _ hpc => by cases hpc), by simp⟩

theorem timeout (h : call.Every Q) {again : List Emission}
    (htimeout : call.timeout = some again) : ∀ m ∈ again, Q m.packet := by
  unfold WindowCall.timeout at htimeout
  split at htimeout
  · next probe expectedAck hpc =>
    cases htimeout
    exact List.forall_mem_singleton.mpr (h.probe probe expectedAck hpc)
  · contradiction

theorem resend (h : call.Every Q) (hQ : sock.Stamps Q) (k : ℕ) :
    (call.resend sock k).2.1.Every Q ∧
      ∀ m ∈ (call.resend sock k).2.2, m.kind ≠ .fin → Q m.packet := by
  have hcall := h.refreshed hQ k
  unfold WindowCall.resend
  split
  · exact ⟨h, by simp⟩
  · next node hnode =>
    split
    · simp only
      generalize (if call.last_index = node.index then call.cnt + 1 else 1) = cnt
      split
      · split <;> exact ⟨⟨hcall.flags, hcall.nodes, hcall.probe⟩, by simp⟩
      · refine ⟨⟨hcall.flags, hcall.nodes, hcall.probe⟩, ?_⟩
        refine List.forall_mem_singleton.mpr fun _ => ?_
        exact hQ.restamp _ _ _ (h.nodes node (List.mem_of_getElem? hnode))
    · exact ⟨h, by simp⟩

theorem resendFirst (h : call.Every Q) (hQ : sock.Stamps Q) (k : ℕ) :
    (call.resendFirst sock k).2.1.Every Q ∧
      ∀ m ∈ (call.resendFirst sock k).2.2, m.kind ≠ .fin → Q m.packet := by
  unfold WindowCall.resendFirst
  split
  · exact ⟨h, by simp⟩
  · next node hnode =>
    split
    · refine ⟨h.refreshed hQ k, List.forall_mem_singleton.mpr fun _ => ?_⟩
      exact hQ.restamp _ _ _ (h.nodes node (List.mem_of_getElem? hnode))
    · exact ⟨h, by simp⟩

/-- The retransmission thread sends packets of the call again. -/
theorem tick (h : call.Every Q) (hQ : sock.Stamps Q) (htick : call.tick sock = some result) :
    result.2.1.Every Q ∧ ∀ m ∈ result.2.2, m.kind ≠ .fin → Q m.packet := by
  obtain ⟨-, rfl | ⟨-, k, -, ⟨-, rfl⟩ | ⟨-, rfl⟩⟩⟩ := WindowCall.tick_cases htick
  · exact ⟨h, by simp⟩
  · exact h.resend hQ (k - 1)
  · exact h.resendFirst hQ k

end WindowCall.Every

/-- The packet has the given flags, and its acknowledgement number and window satisfy `Q`. -/
structure TCPPacket.Stamped (Q : UInt32 → UInt16 → Prop) (flags : UInt8) (p : TCPPacket) :
    Prop where
  flags : p.flags = flags
  stamp : Q p.ackNum p.window

theorem TCPPacket.Stamped.mono {Q Q' : UInt32 → UInt16 → Prop} {flags : UInt8} {p : TCPPacket}
    (h : p.Stamped Q flags) (himp : ∀ a w, Q a w → Q' a w) : p.Stamped Q' flags :=
  ⟨h.flags, himp _ _ h.stamp⟩

theorem NormalSocket.stamps_stamped {sock : NormalSocket} {Q : UInt32 → UInt16 → Prop}
    (hown : Q sock.cumReadNXT sock.readBuffer.window) :
    sock.Stamps (TCPPacket.Stamped Q tcpFlagAck) where
  segment _ _ := ⟨rfl, hown⟩
  restamp _ _ _ hp := ⟨hp.flags, hown⟩
  trim _ _ hp := ⟨hp.flags, hp.stamp⟩

section Reply

variable {sock : NormalSocket} {received : TCPInfo} {packet : TCPPacket}

theorem NormalSocket.drainAndReply_reply (h : (sock.drainAndReply received).2 = .reply packet) :
    packet = replyTo (sock.drainAndReply received).1 received := by
  unfold drainAndReply at h ⊢
  simp only at h ⊢
  split at h
  · contradiction
  · next hdone =>
    rw [if_neg hdone]
    cases h
    rfl

theorem NormalSocket.receiveData_reply (h : (sock.receiveData received).2 = .reply packet) :
    packet = replyTo (sock.receiveData received).1 received := by
  by_cases hearly : received.SeqNum > sock.cumReadNXT
  · rw [receiveData_early hearly] at h
    contradiction
  · by_cases hfin : received.Flag &&& tcpFlagFin > 0
    · rw [receiveData_fin hearly hfin] at h ⊢
      cases hnext : sock.passFIN.acceptFIN with
      | none =>
        rw [hnext] at h
        contradiction
      | some sock' =>
        rw [hnext] at h
        exact drainAndReply_reply h
    · by_cases hfull : ringDist sock.readBuffer.LBR sock.readBuffer.NXT = 0
      · rw [receiveData_full hearly hfin hfull] at h
        contradiction
      · rw [receiveData_insert hearly hfin hfull] at h ⊢
        exact drainAndReply_reply h

/-- An answer acknowledges what was accepted when it was made. -/
theorem NormalSocket.dispatch_reply_self (h : (sock.dispatch received).2 = .reply packet) :
    packet = replyTo (sock.dispatch received).1 received := by
  unfold dispatch at h ⊢
  split at h
  · next hflag =>
    rw [if_pos hflag]
    split at h
    · contradiction
    · next hmtx =>
      rw [if_neg hmtx]
      split at h
      · contradiction
      · next hfins =>
        rw [if_neg hfins]
        split at h
        · contradiction
        · next hack =>
          rw [if_neg hack]
          exact receiveData_reply h
  · contradiction

end Reply

/-- What a socket would acknowledge and offer now satisfies `Q`, and so does what the
segments carry that it sent and those that its threads hold ready. FINs and answers are
empty. -/
structure Endpoint.Stamped (Q : UInt32 → UInt16 → Prop) (p : Endpoint) : Prop where
  own : Q p.sock.cumReadNXT p.sock.readBuffer.window
  call : ∀ call, p.sender = .sliding call → call.Every (TCPPacket.Stamped Q tcpFlagAck)
  data : ∀ m ∈ p.emitted, m.kind ≠ .fin → m.packet.Stamped Q tcpFlagAck
  fins : ∀ m ∈ p.emitted, m.kind = .fin →
    m.packet.Stamped Q IpTcp.finAck ∧ m.packet.payload = []
  closers : ∀ q ∈ p.closers, q.Stamped Q IpTcp.finAck ∧ q.payload = []
  replies : ∀ q ∈ p.replies, q.Stamped Q tcpFlagAck ∧ q.payload = []

namespace Endpoint.Stamped

variable {Q Q' : UInt32 → UInt16 → Prop} {p p' : Endpoint}

theorem start {sock : NormalSocket} (hown : Q sock.cumReadNXT sock.readBuffer.window) :
    (Endpoint.start sock).Stamped Q where
  own := hown
  call := by simp [Endpoint.start]
  data := by simp [Endpoint.start]
  fins := by simp [Endpoint.start]
  closers := by simp [Endpoint.start]
  replies := by simp [Endpoint.start]

theorem mono (h : p.Stamped Q) (himp : ∀ a w, Q a w → Q' a w) : p.Stamped Q' where
  own := himp _ _ h.own
  call call hcall := (h.call call hcall).mono fun _ hq => hq.mono himp
  data m hm hkind := (h.data m hm hkind).mono himp
  fins m hm hkind := ⟨(h.fins m hm hkind).1.mono himp, (h.fins m hm hkind).2⟩
  closers q hq := ⟨(h.closers q hq).1.mono himp, (h.closers q hq).2⟩
  replies q hq := ⟨(h.replies q hq).1.mono himp, (h.replies q hq).2⟩

theorem stamps (h : p.Stamped Q) : p.sock.Stamps (TCPPacket.Stamped Q tcpFlagAck) :=
  stamps_stamped h.own

/-- Only the socket, and what it accepted, changes. -/
theorem of_same (h : p.Stamped Q) (hown : Q p'.sock.cumReadNXT p'.sock.readBuffer.window)
    (hsender : p'.sender = p.sender)
    (hclosers : p'.closers = p.closers) (hemitted : p'.emitted = p.emitted)
    (hreplies : p'.replies = p.replies) : p'.Stamped Q :=
  ⟨hown, hsender ▸ h.call, hemitted ▸ h.data, hemitted ▸ h.fins, hclosers ▸ h.closers,
    hreplies ▸ h.replies⟩

/-- A step of one of the sending threads. -/
theorem update (h : p.Stamped Q) {result : NormalSocket × WindowCall × List Emission}
    (hown : Q result.1.cumReadNXT result.1.readBuffer.window)
    (hcall : result.2.1.Every (TCPPacket.Stamped Q tcpFlagAck))
    (hdata : ∀ m ∈ result.2.2, m.kind ≠ .fin → m.packet.Stamped Q tcpFlagAck)
    (hfins : ∀ m ∈ result.2.2, m.kind = .fin →
      m.packet.Stamped Q IpTcp.finAck ∧ m.packet.payload = []) :
    (p.update result).Stamped Q where
  own := hown
  call _ hsender := by
    cases hsender
    exact hcall
  data := List.forall_mem_append.mpr ⟨h.data, hdata⟩
  fins := List.forall_mem_append.mpr ⟨h.fins, hfins⟩
  closers := h.closers
  replies := h.replies

theorem finPacket (h : p.Stamped Q) :
    p.sock.finPacket.Stamped Q IpTcp.finAck ∧ p.sock.finPacket.payload = [] :=
  ⟨⟨rfl, h.own⟩, rfl⟩

/-- Every step stamps with what is accepted at that moment. -/
theorem step (h : p.Stamped Q) {e : EndpointEvent} (hstep : Endpoint.Step p e p')
    (hown : Q p'.sock.cumReadNXT p'.sock.readBuffer.window) :
    p'.Stamped Q := by
  cases hstep with
  | write e w hw => exact h.of_same hown rfl rfl rfl rfl
  | handOver call hwriter hready =>
    exact ⟨hown, by simp, h.data, h.fins, h.closers, h.replies⟩
  | outOfBounds lbw hsender hchunk => exact h.of_same hown rfl rfl rfl rfl
  | nothing lbw hsender hchunk =>
    exact ⟨hown, by simp, h.data, h.fins, h.closers, h.replies⟩
  | build lbw packet hsender hchunk =>
    refine ⟨hown, fun call hcall => ?_, h.data, h.fins, h.closers, h.replies⟩
    cases hcall
    have hflags : packet.flags = tcpFlagAck := by
      unfold takeChunk at hchunk
      simp only [Option.bind_eq_bind] at hchunk
      split at hchunk
      · obtain ⟨head, -, hchunk⟩ := Option.bind_eq_some_iff.mp hchunk
        obtain ⟨tail, -, hchunk⟩ := Option.bind_eq_some_iff.mp hchunk
        cases hchunk
        rfl
      · cases hchunk
    exact .slidingWindow h.stamps hflags
  | run call result hsender hrun =>
    have hstep := WindowCall.run_step hrun
    obtain ⟨hcall, hout⟩ := (h.call call hsender).run h.stamps hstep
    exact h.update hown hcall (fun m hm _ => hout m hm)
      (fun m hm hfin => absurd hfin (hstep.no_fin m hm))
  | timeout call again hsender hagain =>
    have hout := (h.call call hsender).timeout hagain
    have hkind : ∀ m ∈ again, m.kind ≠ .fin := by
      unfold WindowCall.timeout at hagain
      split at hagain
      · cases hagain
        simp
      · contradiction
    exact ⟨hown, h.call, List.forall_mem_append.mpr ⟨h.data, fun m hm _ => hout m hm⟩,
      List.forall_mem_append.mpr ⟨h.fins, fun m hm hfin => absurd hfin (hkind m hm)⟩, h.closers,
      h.replies⟩
  | tick call result hsender htick =>
    obtain ⟨hcall, hout⟩ := (h.call call hsender).tick h.stamps htick
    refine h.update hown hcall hout ?_
    rcases WindowCall.tick_closes htick with ⟨-, hkinds⟩ | ⟨-, -, hout⟩
    · exact fun m hm hfin => absurd hfin (hkinds m hm)
    · intro m hm _
      rw [(commitClose_sent (CloseResult.mem_emissions (hout ▸ hm)).2).1]
      exact h.finPacket
  | arrive received => exact h.of_same hown rfl rfl rfl rfl
  | blocked received harriving hblocked => exact h.of_same hown rfl rfl rfl rfl
  | absorbed received harriving => exact h.of_same hown rfl rfl rfl rfl
  | toFinChan received ack harriving => exact h.of_same hown rfl rfl rfl rfl
  | reply received packet harriving hreply =>
    have hnew : packet.Stamped Q tcpFlagAck ∧ packet.payload = [] := by
      rw [dispatch_reply_self hreply]
      exact ⟨⟨rfl, hown⟩, rfl⟩
    exact ⟨hown, h.call, h.data, h.fins, h.closers,
      List.forall_mem_append.mpr ⟨h.replies, List.forall_mem_singleton.mpr hnew⟩⟩
  | finAcked ack => exact h.of_same hown rfl rfl rfl rfl
  | read numbytes sock data hread => exact h.of_same hown rfl rfl rfl rfl
  | close =>
    exact ⟨hown, h.call, h.data, h.fins, List.forall_mem_append.mpr
      ⟨h.closers, List.forall_mem_singleton.mpr h.finPacket⟩, h.replies⟩
  | commit k packet hpacket =>
    exact ⟨hown, h.call, h.data, h.fins,
      fun q hq => h.closers q (List.mem_of_mem_eraseIdx hq), h.replies⟩
  | sendFIN k packet sent hpacket hsent =>
    have hfin := h.closers packet (List.mem_of_getElem? hpacket)
    rw [← (commitClose_sent hsent).1] at hfin
    exact ⟨hown, h.call, List.forall_mem_append.mpr ⟨h.data, by simp⟩,
      List.forall_mem_append.mpr ⟨h.fins, List.forall_mem_singleton.mpr fun _ => hfin⟩,
      fun q hq => h.closers q (List.mem_of_mem_eraseIdx hq), h.replies⟩

end Endpoint.Stamped

end IpTcp
