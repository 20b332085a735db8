import IpTcp.WindowChain

/-!
What every call of slidingWindow keeps, whatever the peer advertises. The window
nodes are a chain over the payload, `cumWriteUNA` and the two ring pointers count
the acknowledged and the sent bytes of it, and at each point of the loop
`bytesToSend` and the last node agree. A call that starts again after a probe is
the same picture with its chain starting further on.
-/
namespace IpTcp

/-- `NXT` stands behind the first `off` bytes of the payload. -/
def NxtAt (sock : NormalSocket) (first : UInt32) (off : ℕ) : Prop :=
  sock.writeBuffer.NXT = ringDist (first + UInt32.ofNat off) sock.baseSeq

theorem NxtAt.moveNXT {sock : NormalSocket} {first : UInt32} {off : ℕ} (h : NxtAt sock first off)
    (count : ℕ) : NxtAt (sock.moveNXT count) first (off + count) := by
  have hb := sock.baseSeq.toNat_lt
  have hwin : (windowSize : UInt32).toNat = 65536 := rfl
  have hsame : (sock.moveNXT count).baseSeq = sock.baseSeq := rfl
  apply UInt32.toNat_inj.mp
  rw [hsame, toNat_ringDist_add]
  unfold NxtAt at h
  simp only [NormalSocket.moveNXT, UInt32.toNat_mod, UInt32.toNat_add, hwin,
    UInt32.toNat_ofNat', h, toNat_ringDist_add]
  omega

/-- Two ring pointers give the number of bytes between them, if that is less than a turn. -/
theorem toNat_ringDist_ringDist (first base : UInt32) (a s : ℕ) (has : a ≤ s)
    (hturn : s < a + 65536) :
    (ringDist (ringDist (first + UInt32.ofNat s) base)
      (ringDist (first + UInt32.ofNat a) base)).toNat = s - a := by
  have hb := base.toNat_lt
  rw [toNat_ringDist, toNat_ringDist_add, toNat_ringDist_add]
  omega

theorem add_ofNat_add (first : UInt32) (a b : ℕ) :
    first + UInt32.ofNat a + UInt32.ofNat b = first + UInt32.ofNat (a + b) := by
  rw [UInt32.ofNat_add, UInt32.add_assoc]

namespace WindowCall

/-- The offset behind the sent bytes of a call whose chain starts at `base`. -/
def sentEnd (call : WindowCall) (base : ℕ) : ℕ := base + nodesSize call.sentNodes

/-- `bytesToSend` is what the last node still has to send, and nothing is left behind
a last node that is sent. -/
def Level (call : WindowCall) : Prop :=
  call.bytesToSend = (if call.tail.sent then 0 else call.tail.size) ∧
    (call.tail.sent = true → call.packet.payload = [])

end WindowCall

/-- What holds at each point of the loop, `a` bytes being acknowledged. -/
def PcOk (first : UInt32) (P : List UInt8) (base a : ℕ) (sock : NormalSocket)
    (call : WindowCall) : SlidePc → Prop
  | .top | .normal | .zeroTest | .drain =>
      call.Level ∧ NxtAt sock first (call.sentEnd base)
  | .probeTest => call.Level ∧ NxtAt sock first (call.sentEnd base) ∧ a < P.length
  | .probeSend => call.Level ∧ NxtAt sock first (call.sentEnd base) ∧ a < P.length ∧
      call.sentEnd base = a
  | .probing probe expectedAck => call.Level ∧ NxtAt sock first (a + 1) ∧ a < P.length ∧
      call.sentEnd base = a ∧ probe.seqNum = first + UInt32.ofNat a ∧
      probe.payload = (P.drop a).take 1 ∧ expectedAck = first + UInt32.ofNat (a + 1)
  | .sending => call.Level ∧ NxtAt sock first (call.sentEnd base) ∧ call.tail.sent = false ∧
      0 < call.tail.size
  | .debit expectedAck | .allocate expectedAck => NxtAt sock first (call.sentEnd base) ∧
      call.tail.sent = true ∧ expectedAck = first + UInt32.ofNat (call.sentEnd base)
  | .done => call.Level ∧ NxtAt sock first (call.sentEnd base) ∧ a = P.length
  | .blocked | .panicked => True

/-- A call on the payload `P`, whose first byte has the number `first`. -/
structure Carries (first : UInt32) (P : List UInt8) (base a : ℕ) (sock : NormalSocket)
    (call : WindowCall) : Prop where
  short : P.length ≤ 65535
  chain : Chain first base (P.drop base) call.nodes call.packet.payload
  base_le : base ≤ a
  acked_le : a ≤ call.sentEnd base
  size : call.payloadSize + base = P.length
  count : call.bytesSent + base = a
  cum : sock.cumWriteUNA = first + UInt32.ofNat a
  una : sock.writeBuffer.UNA = ringDist sock.cumWriteUNA sock.baseSeq
  before_sent : ∀ node ∈ call.before, node.sent = true
  positive : ∀ node ∈ call.sentNodes, 0 < node.size
  index : call.packet.payload ≠ [] → call.tail.payloadIndex.toNat ≤ nodesSize call.nodes
  pcOk : PcOk first P base a sock call call.pc

/-- The ring holds the payload, whose first byte has the number `first`. -/
def Ring (first : UInt32) (P : List UInt8) (sock : NormalSocket) : Prop :=
  RingBuffer.slice sock.writeBuffer.buffer (ringDist first sock.baseSeq).toNat P.length = P

theorem Ring.congr {first : UInt32} {P : List UInt8} {sock sock' : NormalSocket}
    (h : Ring first P sock) (hbuffer : sock'.writeBuffer.buffer = sock.writeBuffer.buffer)
    (hbase : sock'.baseSeq = sock.baseSeq) : Ring first P sock' := by
  unfold Ring
  rw [hbuffer, hbase]
  exact h

/-- What slidingWindow leaves alone. -/
structure SameRing (sock sock' : NormalSocket) : Prop where
  buffer : sock'.writeBuffer.buffer = sock.writeBuffer.buffer
  LBW : sock'.writeBuffer.LBW = sock.writeBuffer.LBW
  baseSeq : sock'.baseSeq = sock.baseSeq
  state : sock'.state = sock.state
  stateMtx : sock'.stateMtx = sock.stateMtx

/-- slidingWindow reads the ring and never writes it. -/
theorem WindowCall.Step.sameRing {sock : NormalSocket} {call : WindowCall}
    {result : NormalSocket × WindowCall × List Emission} (hstep : call.Step sock result) :
    SameRing sock result.1 := by
  cases hstep with
  | probeAcked probe received more =>
    simp only [WindowCall.probeAcked]
    split
    · split <;> exact ⟨rfl, rfl, rfl, rfl, rfl⟩
    · exact ⟨rfl, rfl, rfl, rfl, rfl⟩
  | ack received more =>
    simp only [WindowCall.processAck]
    split <;> exact ⟨rfl, rfl, rfl, rfl, rfl⟩
  | _ => exact ⟨rfl, rfl, rfl, rfl, rfl⟩

theorem WindowCall.Step.no_fin {sock : NormalSocket} {call : WindowCall}
    {result : NormalSocket × WindowCall × List Emission} (hstep : call.Step sock result) :
    ∀ m ∈ result.2.2, m.kind ≠ .fin := by
  cases hstep <;> simp

/-- The packet carries the bytes of the payload that its number denotes. -/
def Denotes (first : UInt32) (P : List UInt8) (packet : TCPPacket) : Prop :=
  packet.payload = (P.drop (packet.seqNum - first).toNat).take packet.payload.length

theorem denotes_of_offset {first : UInt32} {P : List UInt8} {packet : TCPPacket} {off : ℕ}
    (hoff : off < 4294967296) (hseq : packet.seqNum = first + UInt32.ofNat off)
    (hpay : packet.payload = (P.drop off).take packet.payload.length) :
    Denotes first P packet := by
  have hsub : (packet.seqNum - first).toNat = off := by
    rw [hseq, UInt32.add_comm, UInt32.add_sub_cancel, UInt32.toNat_ofNat']
    omega
  unfold Denotes
  rw [hsub]
  exact hpay

theorem NxtAt.congr {sock sock' : NormalSocket} {first : UInt32} {off : ℕ}
    (h : NxtAt sock first off)
    (hnxt : sock'.writeBuffer.NXT = sock.writeBuffer.NXT) (hbase : sock'.baseSeq = sock.baseSeq) :
    NxtAt sock' first off := by
  unfold NxtAt
  rw [hnxt, hbase]
  exact h

theorem NxtAt.ackUpTo {sock : NormalSocket} {first : UInt32} {off : ℕ} (h : NxtAt sock first off)
    (ack : UInt32) : NxtAt (sock.ackUpTo ack) first off :=
  h.congr rfl rfl

theorem NxtAt.of_same {sock sock' : NormalSocket} {first : UInt32} {off : ℕ}
    (h : NxtAt sock first off) (hsame : SameSending sock sock') : NxtAt sock' first off :=
  h.congr (by rw [hsame.writeBuffer]) hsame.baseSeq

namespace Carries

variable {first : UInt32} {P : List UInt8} {base a : ℕ} {sock sock' : NormalSocket}
  {call call' : WindowCall}

theorem sentEnd_le (h : Carries first P base a sock call) : call.sentEnd base ≤ P.length := by
  have hlen := h.chain.length
  have hsize := h.size
  rw [List.length_drop] at hlen
  unfold WindowCall.sentEnd WindowCall.sentNodes
  split
  · omega
  · unfold WindowCall.nodes at hlen
    rw [nodesSize_append] at hlen
    omega

theorem sent_chain (h : Carries first P base a sock call) :
    ∃ rest, Chain first base (P.drop base) call.sentNodes rest := by
  unfold WindowCall.sentNodes
  split
  · exact ⟨_, h.chain⟩
  · obtain ⟨rest, hbefore, -⟩ := h.chain.split
    exact ⟨rest, hbefore⟩

theorem tail_expectedAck (h : Carries first P base a sock call) :
    call.tail.expectedAck = first + UInt32.ofNat (base + nodesSize call.nodes) := by
  obtain ⟨_, _, htail⟩ := h.chain.split
  rw [htail.2.1, WindowCall.nodes, nodesSize_append, nodesSize_cons, nodesSize_nil,
    Nat.add_zero, Nat.add_assoc]

/-- The distance of the pointers counts the bytes in flight. -/
theorem distUNA (h : Carries first P base a sock call) {s : ℕ} (hnxt : NxtAt sock first s)
    (has : a ≤ s) (hs : s ≤ P.length) : sock.distUNA.toNat = s - a := by
  have hshort := h.short
  unfold NormalSocket.distUNA
  rw [h.una, h.cum, hnxt]
  exact toNat_ringDist_ringDist first sock.baseSeq a s has (by omega)

theorem distUNA_add_cum (h : Carries first P base a sock call) {s : ℕ}
    (hnxt : NxtAt sock first s) (has : a ≤ s) (hs : s ≤ P.length) :
    sock.distUNA + sock.cumWriteUNA = first + UInt32.ofNat s := by
  have hshort := h.short
  have hdist := h.distUNA hnxt has hs
  have hword : sock.distUNA = UInt32.ofNat (s - a) := by
    apply UInt32.toNat_inj.mp
    rw [hdist, UInt32.toNat_ofNat']
    omega
  rw [hword, h.cum, UInt32.add_comm, add_ofNat_add, Nat.add_sub_cancel' has]

/-- Of the socket only the pointers that slidingWindow moves matter. -/
theorem congr (h : Carries first P base a sock call)
    (hcum : sock'.cumWriteUNA = sock.cumWriteUNA)
    (huna : sock'.writeBuffer.UNA = sock.writeBuffer.UNA)
    (hnxt : sock'.writeBuffer.NXT = sock.writeBuffer.NXT) (hbase : sock'.baseSeq = sock.baseSeq) :
    Carries first P base a sock' call := by
  refine ⟨h.short, h.chain, h.base_le, h.acked_le, h.size, h.count, ?_, ?_, h.before_sent,
    h.positive, h.index, ?_⟩
  · rw [hcum]
    exact h.cum
  · rw [huna, hcum, hbase]
    exact h.una
  · have hpc := h.pcOk
    have hat : ∀ off, NxtAt sock first off → NxtAt sock' first off := fun off hoff =>
      hoff.congr hnxt hbase
    cases hcase : call.pc with
    | top | normal | zeroTest | drain =>
      rw [hcase] at hpc
      exact ⟨hpc.1, hat _ hpc.2⟩
    | probeTest | probeSend | sending | done =>
      rw [hcase] at hpc
      exact ⟨hpc.1, hat _ hpc.2.1, hpc.2.2⟩
    | probing probe expectedAck =>
      rw [hcase] at hpc
      exact ⟨hpc.1, hat _ hpc.2.1, hpc.2.2⟩
    | debit expectedAck | allocate expectedAck =>
      rw [hcase] at hpc
      exact ⟨hat _ hpc.1, hpc.2⟩
    | blocked | panicked => trivial

theorem of_same (h : Carries first P base a sock call) (hsame : SameSending sock sock') :
    Carries first P base a sock' call :=
  h.congr hsame.cumWriteUNA (congrArg WriteBuffer.UNA hsame.writeBuffer)
    (congrArg WriteBuffer.NXT hsame.writeBuffer) hsame.baseSeq

/-- Only the counters, the shapes of the nodes and the point in the loop matter. -/
theorem goto (h : Carries first P base a sock call) (pc : SlidePc)
    (hpc : PcOk first P base a sock call pc) : Carries first P base a sock (call.goto pc) := by
  refine ⟨h.short, h.chain, h.base_le, h.acked_le, h.size, h.count, h.cum, h.una, h.before_sent,
    h.positive, h.index, ?_⟩
  cases pc <;> exact hpc

/-- A retransmission renews packets and counters of its own. -/
theorem of_sameShape (h : Carries first P base a sock call)
    (hshape : WindowCall.SameShape call call') : Carries first P base a sock call' := by
  have hend : call'.sentEnd base = call.sentEnd base := by
    unfold WindowCall.sentEnd
    rw [nodesSize_congr hshape.sentNodes]
  have hlevel : call.Level → call'.Level := by
    unfold WindowCall.Level
    rw [hshape.bytesToSend, hshape.tail_sent, hshape.tail_size, hshape.packet]
    exact id
  refine ⟨h.short, ?_, h.base_le, ?_, ?_, ?_, h.cum, h.una, hshape.all_sent h.before_sent, ?_, ?_,
    ?_⟩
  · rw [hshape.packet]
    exact h.chain.congr hshape.nodes
  · rw [hend]
    exact h.acked_le
  · rw [hshape.payloadSize]
    exact h.size
  · rw [hshape.bytesSent]
    exact h.count
  · intro node hnode
    have hmem := List.mem_map_of_mem (f := WindowNode.shape) hnode
    rw [hshape.sentNodes] at hmem
    obtain ⟨old, hold, heq⟩ := List.mem_map.mp hmem
    have hpay := congrArg (fun s => s.2.1.length) heq
    exact (h.positive old hold).trans_eq hpay
  · rw [hshape.packet, hshape.payloadIndex, nodesSize_congr hshape.nodes]
    exact h.index
  · have hok := h.pcOk
    rw [hshape.pc]
    cases hcase : call.pc with
    | top | normal | zeroTest | drain =>
      rw [hcase] at hok
      exact ⟨hlevel hok.1, by rw [hend]; exact hok.2⟩
    | probeTest | done =>
      rw [hcase] at hok
      exact ⟨hlevel hok.1, by rw [hend]; exact hok.2.1, hok.2.2⟩
    | probeSend =>
      rw [hcase] at hok
      exact ⟨hlevel hok.1, by rw [hend]; exact hok.2.1, hok.2.2.1, by rw [hend]; exact hok.2.2.2⟩
    | probing probe expectedAck =>
      rw [hcase] at hok
      exact ⟨hlevel hok.1, hok.2.1, hok.2.2.1, by rw [hend]; exact hok.2.2.2.1, hok.2.2.2.2⟩
    | sending =>
      rw [hcase] at hok
      exact ⟨hlevel hok.1, by rw [hend]; exact hok.2.1, by rw [hshape.tail_sent]; exact hok.2.2.1,
        by rw [hshape.tail_size]; exact hok.2.2.2⟩
    | debit expectedAck | allocate expectedAck =>
      rw [hcase] at hok
      exact ⟨by rw [hend]; exact hok.1, by rw [hshape.tail_sent]; exact hok.2.1,
        by rw [hend]; exact hok.2.2⟩
    | blocked | panicked => trivial

/-- The call as it is when it starts on the bytes from `base` on. -/
theorem start {packet : TCPPacket} (hshort : P.length ≤ 65535) (hbase : base ≤ P.length)
    (hpayload : packet.payload = P.drop base)
    (hcum : sock.cumWriteUNA = first + UInt32.ofNat base)
    (huna : sock.writeBuffer.UNA = ringDist sock.cumWriteUNA sock.baseSeq)
    (hnxt : sock.writeBuffer.NXT = sock.writeBuffer.UNA) :
    Carries first P base base sock (sock.slidingWindow packet) := by
  have hdist : sock.distUNA = 0 := by
    apply UInt32.toNat_inj.mp
    unfold NormalSocket.distUNA
    rw [hnxt, toNat_ringDist]
    simp only [UInt32.reduceToNat]
    omega
  have hlen : packet.payload.length = P.length - base := by
    rw [hpayload, List.length_drop]
  have hsize : (sock.slidingWindow packet).tail.size =
      min (min mss packet.payload.length) sock.ClientWindowSize.toNat := by
    simp only [NormalSocket.slidingWindow, WindowNode.size, NormalSocket.segment, List.length_take]
    omega
  have hend : (sock.slidingWindow packet).sentEnd base = base := rfl
  refine ⟨hshort, ⟨hcum, ?_, ?_, ?_, ?_⟩, Nat.le_refl _, Nat.le_of_eq hend.symm, ?_,
    Nat.zero_add _, hcum, huna, ?_, ?_, ?_, ⟨?_, ?_⟩, ?_⟩
  · rw [hsize]
    change sock.distUNA + sock.cumWriteUNA + UInt32.ofNat _ = _
    rw [hdist, UInt32.zero_add, hcum, add_ofNat_add]
  · rw [hsize]
    omega
  · rw [← hpayload]
    exact List.take_prefix _ _
  · rw [hsize, ← hpayload]
    rfl
  · change packet.payload.length + base = P.length
    omega
  · intro node hnode
    simp [NormalSocket.slidingWindow] at hnode
  · intro node hnode
    simp [NormalSocket.slidingWindow, WindowCall.sentNodes] at hnode
  · intro _
    exact Nat.zero_le _
  · rw [hsize]
    rfl
  · intro hsent
    simp [NormalSocket.slidingWindow] at hsent
  · rw [hend]
    unfold NxtAt
    rw [hnxt, huna, hcum]

theorem sentEnd_of_unsent (base : ℕ) (htail : call.tail.sent = false) :
    call.sentEnd base = base + nodesSize call.before := by
  unfold WindowCall.sentEnd WindowCall.sentNodes
  rw [htail]
  rfl

theorem sentEnd_markSent (base : ℕ) (htail : call.tail.sent = false) (pc : SlidePc) :
    (call.markSent pc).sentEnd base = call.sentEnd base + call.tail.size := by
  rw [sentEnd_of_unsent base htail]
  change base + nodesSize (call.before ++ [{ call.tail with sent := true }]) = _
  rw [nodesSize_append, nodesSize_cons, nodesSize_nil]
  change base + (nodesSize call.before + (call.tail.size + 0)) = _
  omega

/-- The last node, still to be sent, ends within the payload. -/
theorem unsent_le (h : Carries first P base a sock call) (htail : call.tail.sent = false) :
    call.sentEnd base + call.tail.size ≤ P.length := by
  have hlen := h.chain.length
  have hsize := h.size
  rw [List.length_drop, WindowCall.nodes, nodesSize_append, nodesSize_cons, nodesSize_nil] at hlen
  rw [sentEnd_of_unsent base htail]
  omega

/-- The number that `sendTail` registers is the one behind the segment. -/
theorem sendTail_expectedAck (h : Carries first P base a sock call) (hpc : call.pc = .sending) :
    (sock.moveNXT call.bytesToSend).distUNA + (sock.moveNXT call.bytesToSend).cumWriteUNA =
      first + UInt32.ofNat (call.sentEnd base + call.tail.size) := by
  have hok := h.pcOk
  rw [hpc] at hok
  obtain ⟨hlevel, hnxt, htail, -⟩ := hok
  have hbytes : call.bytesToSend = call.tail.size := by
    rw [hlevel.1, htail]
    rfl
  have hmoved := hnxt.moveNXT call.bytesToSend
  have hle := h.unsent_le htail
  have hacked := h.acked_le
  have hshort := h.short
  rw [hbytes] at hmoved ⊢
  have hword : (sock.moveNXT call.tail.size).distUNA =
      UInt32.ofNat (call.sentEnd base + call.tail.size - a) := by
    apply UInt32.toNat_inj.mp
    have huna : (sock.moveNXT call.tail.size).writeBuffer.UNA =
        ringDist (first + UInt32.ofNat a) (sock.moveNXT call.tail.size).baseSeq := by
      rw [← h.cum]
      exact h.una
    unfold NormalSocket.distUNA
    rw [hmoved, huna, toNat_ringDist_ringDist _ _ _ _ (by omega) (by omega), UInt32.toNat_ofNat']
    omega
  have hcum : (sock.moveNXT call.tail.size).cumWriteUNA = first + UInt32.ofNat a := h.cum
  rw [hword, hcum, UInt32.add_comm, add_ofNat_add, Nat.add_sub_cancel' (by omega)]

/-- Sending the last node. -/
theorem sendTail (h : Carries first P base a sock call) (hpc : call.pc = .sending)
    {expectedAck : UInt32}
    (hack : expectedAck = first + UInt32.ofNat (call.sentEnd base + call.tail.size)) :
    Carries first P base a ((sock.moveNXT call.bytesToSend).register expectedAck)
      (call.markSent (.debit expectedAck)) := by
  have hok := h.pcOk
  rw [hpc] at hok
  obtain ⟨hlevel, hnxt, htail, hpos⟩ := hok
  have hbytes : call.bytesToSend = call.tail.size := by
    rw [hlevel.1, htail]
    rfl
  have hmoved := hnxt.moveNXT call.bytesToSend
  rw [hbytes] at hmoved ⊢
  have hend := sentEnd_markSent base htail (.debit expectedAck)
  have hacked := h.acked_le
  refine ⟨h.short, ?_, h.base_le, by omega, h.size, h.count, h.cum, h.una, h.before_sent, ?_, ?_,
    ⟨?_, rfl, ?_⟩⟩
  · refine h.chain.congr ?_
    simp [WindowCall.nodes, WindowNode.shape, WindowCall.markSent]
  · intro node hnode
    rcases List.mem_append.mp hnode with hold | hnew
    · apply h.positive node
      unfold WindowCall.sentNodes
      rw [htail]
      exact hold
    · rw [List.mem_singleton.mp hnew]
      exact hpos
  · have hindex := h.index
    simpa [WindowCall.nodes, WindowNode.size, WindowCall.markSent] using hindex
  · rw [hend]
    exact hmoved
  · rw [hend]
    exact hack

/-- Appending the node of the next segment, or noticing that there is none. -/
theorem allocateNext (h : Carries first P base a sock call) {expectedAck : UInt32}
    (hpc : call.pc = .allocate expectedAck) :
    Carries first P base a sock (call.allocateNext sock expectedAck) := by
  have hok := h.pcOk
  rw [hpc] at hok
  obtain ⟨hnxt, htail, hack⟩ := hok
  have hlen := h.chain.length
  have hsize := h.size
  rw [List.length_drop] at hlen
  have hnodes : call.sentNodes = call.nodes := by
    unfold WindowCall.sentNodes
    rw [htail]
    rfl
  have hend : call.sentEnd base = base + nodesSize call.nodes := by
    unfold WindowCall.sentEnd
    rw [hnodes]
  have hbytes : min (min mss (call.payloadSize - call.tail.payloadIndex.toNat))
      call.packet.payload.length = min mss call.packet.payload.length := by
    by_cases hnil : call.packet.payload = []
    · simp [hnil]
    · have hindex := h.index hnil
      omega
  unfold WindowCall.allocateNext
  simp only [hbytes]
  split
  · rename_i hpos
    generalize hb : min mss call.packet.payload.length = b at hpos
    have hble : b ≤ mss ∧ b ≤ call.packet.payload.length := by omega
    have htake : (call.packet.payload.take b).length = b := by
      rw [List.length_take]
      omega
    refine ⟨h.short, ?_, h.base_le, ?_, h.size, h.count, h.cum, h.una, ?_, ?_, ?_, ⟨⟨?_, ?_⟩, ?_⟩⟩
    · refine h.chain.append ?_
      refine ⟨?_, ?_, ?_, List.take_prefix _ _, ?_⟩
      · rw [← hend]
        exact hack
      · simp only [WindowNode.size, htake]
        rw [hack, add_ofNat_add, hend]
      · simp only [WindowNode.size, htake]
        exact hble.1
      · simp only [WindowNode.size, htake]
        rfl
    · have hacked := h.acked_le
      rw [hend] at hacked
      exact hacked
    · intro node hnode
      rcases List.mem_append.mp hnode with hold | hnew
      · exact h.before_sent node hold
      · rw [List.mem_singleton.mp hnew]
        exact htail
    · intro node hnode
      apply h.positive node
      rw [hnodes]
      exact hnode
    · intro hleft
      have hmore : b < call.packet.payload.length := by
        by_contra hle
        exact hleft (List.drop_eq_nil_of_le (by omega))
      have hindex := h.index (by
        intro hnil
        rw [hnil] at hmore
        simp at hmore)
      have hshort := h.short
      have hmss : (UInt16.ofNat mss).toNat = 1360 := rfl
      have hval : mss = 1360 := rfl
      simp only [WindowCall.nodes, nodesSize_append, nodesSize_cons, nodesSize_nil,
        WindowNode.size, htake, UInt16.toNat_add, hmss] at hindex hlen ⊢
      omega
    · simp only [WindowNode.size, htake]
      rfl
    · intro hsent
      simp at hsent
    · have hgoal := hnxt
      rw [hend] at hgoal
      exact hgoal
  · rename_i hzero
    have hnil : call.packet.payload = [] := by
      apply List.length_eq_zero_iff.mp
      have hmss : mss = 1360 := rfl
      omega
    refine ⟨h.short, h.chain, h.base_le, h.acked_le, h.size, h.count, h.cum, h.una, h.before_sent,
      h.positive, h.index, ⟨⟨?_, fun _ => hnil⟩, hnxt⟩⟩
    simp [htail, hnil]

/-- Processing an acknowledgement that, if it lies ahead, lies within the bytes in flight. -/
theorem processAck (h : Carries first P base a sock call) (hpc : call.pc = .drain)
    {received : TCPInfo}
    (hrange : received.AckNum > sock.cumWriteUNA →
      (received.AckNum - sock.cumWriteUNA).toNat ≤ sock.distUNA.toNat) :
    ∃ a', a ≤ a' ∧
      Carries first P base a' (call.processAck sock received).1
        (call.processAck sock received).2 := by
  have hok := h.pcOk
  rw [hpc] at hok
  obtain ⟨hlevel, hnxt⟩ := hok
  unfold WindowCall.processAck
  simp only
  split
  · rename_i hahead
    have hdist := h.distUNA hnxt h.acked_le h.sentEnd_le
    have hle := hrange hahead
    rw [hdist] at hle
    have hacked := h.acked_le
    have hbase := h.base_le
    have hcount := h.count
    have hmoved : NxtAt (((sock.countAck received.AckNum).setWindow
        received.WindowSize).ackUpTo received.AckNum) first (call.sentEnd base) :=
      (hnxt.of_same ⟨rfl, rfl, rfl⟩).ackUpTo received.AckNum
    have hnumber : received.AckNum =
        first + UInt32.ofNat (a + (received.AckNum - sock.cumWriteUNA).toNat) := by
      rw [← add_ofNat_add, ← h.cum, UInt32.ofNat_toNat, UInt32.add_comm, UInt32.sub_add_cancel]
    refine ⟨a + (received.AckNum - sock.cumWriteUNA).toNat, Nat.le_add_right _ _, h.short, h.chain,
      by omega, ?_, h.size, ?_, hnumber, rfl, h.before_sent, h.positive, h.index, ?_⟩
    · change _ ≤ call.sentEnd base
      omega
    · change call.bytesSent + (received.AckNum - sock.cumWriteUNA).toNat + base = _
      omega
    · rw [show ({ call with
        bytesSent := _
        head := _ } : WindowCall).pc = .drain from hpc]
      exact ⟨hlevel, hmoved⟩
  · exact ⟨a, Nat.le_refl _, h.of_same ⟨rfl, rfl, rfl⟩⟩

/-- Every node carries what its number denotes. -/
theorem denotes (h : Carries first P base a sock call) {node : WindowNode}
    (hnode : node ∈ call.nodes) : Denotes first P node.packet := by
  obtain ⟨o, hlow, hhigh, hseq, -, -, hpay⟩ := h.chain.mem hnode
  have hlen := h.chain.length
  have hshort := h.short
  have hsize := h.size
  rw [List.length_drop] at hlen
  rw [List.drop_drop, show base + (o - base) = o by omega] at hpay
  exact denotes_of_offset (by omega) hseq hpay

/-- The byte at `UNA` is the first one that is not acknowledged. -/
theorem unaByte (h : Carries first P base a sock call) (hring : Ring first P sock)
    (hlt : a < P.length) : [sock.unaByte] = (P.drop a).take 1 := by
  unfold Ring at hring
  conv_rhs => rw [← hring]
  rw [RingBuffer.slice_drop _ _ _ _ (by omega), RingBuffer.slice_take _ _ _ _ (by omega)]
  change RingBuffer.slice sock.writeBuffer.buffer sock.writeBuffer.UNA.toNat 1 = _
  apply RingBuffer.slice_congr_start
  have hf := first.toNat_lt
  have hb := sock.baseSeq.toNat_lt
  rw [h.una, h.cum, toNat_ringDist, toNat_ringDist]
  simp only [UInt32.toNat_add, UInt32.toNat_ofNat', bufferSize]
  omega

/-- The probe carries the byte at `UNA` under the number of that byte. -/
theorem sendProbe (h : Carries first P base a sock call) (hpc : call.pc = .probeSend)
    (hbyte : [sock.unaByte] = (P.drop a).take 1) {expectedAck : UInt32} {probe : TCPPacket}
    (hack : expectedAck = (sock.moveNXT 1).distUNA + (sock.moveNXT 1).cumWriteUNA)
    (hprobe : probe = (sock.moveNXT 1).segment tcpFlagAck
      ((sock.moveNXT 1).distUNA + (sock.moveNXT 1).cumWriteUNA - 1) [(sock.moveNXT 1).unaByte]) :
    Carries first P base a ((sock.moveNXT 1).register expectedAck)
        (call.goto (.probing probe expectedAck)) ∧ Denotes first P probe := by
  have hok := h.pcOk
  rw [hpc] at hok
  obtain ⟨hlevel, hnxt, hlt, hend⟩ := hok
  have hshort := h.short
  have hmoved := hnxt.moveNXT 1
  rw [hend] at hmoved
  have hmovedCarries : Carries first P base a ((sock.moveNXT 1).register expectedAck)
      (call.goto .blocked) :=
    ⟨h.short, h.chain, h.base_le, h.acked_le, h.size, h.count, h.cum, h.una, h.before_sent,
      h.positive, h.index, trivial⟩
  have hnumber : expectedAck = first + UInt32.ofNat (a + 1) := by
    rw [hack]
    exact hmovedCarries.distUNA_add_cum (s := a + 1) hmoved (Nat.le_add_right _ _) hlt
  have hseq : probe.seqNum = first + UInt32.ofNat a := by
    rw [hprobe]
    change (sock.moveNXT 1).distUNA + (sock.moveNXT 1).cumWriteUNA - 1 = _
    rw [← hack, hnumber, ← add_ofNat_add]
    exact UInt32.add_sub_cancel _ _
  have hpay : probe.payload = (P.drop a).take 1 := by
    rw [hprobe]
    exact hbyte
  refine ⟨⟨h.short, h.chain, h.base_le, h.acked_le, h.size, h.count, h.cum, h.una, h.before_sent,
    h.positive, h.index, ⟨hlevel, hmoved, hlt, hend, hseq, hpay, hnumber⟩⟩, ?_⟩
  refine denotes_of_offset (by omega) hseq ?_
  rw [hpay]
  simp

/-- With an empty first node nothing of the call was sent. -/
theorem empty_first (h : Carries first P base a sock call)
    (hempty : call.firstNode.packet.payload = []) :
    call.before = [] ∧ call.tail.sent = false ∧ call.packet.payload = P.drop base ∧
      call.sentEnd base = base := by
  have hbefore : call.before = [] := by
    cases hcase : call.before with
    | nil => rfl
    | cons node more =>
      have hmem : node ∈ call.sentNodes := by
        unfold WindowCall.sentNodes WindowCall.nodes
        rw [hcase]
        split <;> simp
      have hpos := h.positive node hmem
      have hfirst : call.firstNode = node := by
        unfold WindowCall.firstNode
        rw [hcase]
        rfl
      rw [hfirst] at hempty
      unfold WindowNode.size at hpos
      rw [hempty] at hpos
      simp at hpos
  have hfirst : call.firstNode = call.tail := by
    unfold WindowCall.firstNode
    rw [hbefore]
    rfl
  rw [hfirst] at hempty
  have htail : call.tail.sent = false := by
    cases hsent : call.tail.sent with
    | false => rfl
    | true =>
      have hpos := h.positive call.tail (by simp [WindowCall.sentNodes, WindowCall.nodes, hsent])
      unfold WindowNode.size at hpos
      rw [hempty] at hpos
      simp at hpos
  have hend := sentEnd_of_unsent base htail
  rw [hbefore] at hend
  refine ⟨hbefore, htail, ?_, hend⟩
  have hrest := h.chain.rest_eq
  rw [WindowCall.nodes, hbefore] at hrest
  simpa [nodesSize, WindowNode.size, hempty] using hrest

/-- A probe that succeeds before anything of the call was sent starts the call again one
byte further on. -/
theorem probeAcked (h : Carries first P base a sock call) {probe : TCPPacket}
    {expectedAck : UInt32} (hpc : call.pc = .probing probe expectedAck) {received : TCPInfo}
    (hack : received.AckNum = expectedAck) (hempty : call.firstNode.packet.payload = []) :
    call.probeAcked sock received =
        ((sock.setWindow received.WindowSize).ackUpTo received.AckNum,
          ((sock.setWindow received.WindowSize).ackUpTo received.AckNum).slidingWindow
            { call.packet with payload := P.drop (a + 1) }) ∧
      Carries first P (a + 1) (a + 1) (call.probeAcked sock received).1
        (call.probeAcked sock received).2 := by
  have hok := h.pcOk
  rw [hpc] at hok
  obtain ⟨hlevel, hnxt, hlt, hend, -, -, hnumber⟩ := hok
  obtain ⟨-, -, hpayload, hstart⟩ := h.empty_first hempty
  have hbase : base = a := by omega
  rw [hbase] at hpayload
  have hcons : call.packet.payload = P[a] :: P.drop (a + 1) := by
    rw [hpayload]
    exact List.drop_eq_getElem_cons hlt
  have heq : call.probeAcked sock received =
      ((sock.setWindow received.WindowSize).ackUpTo received.AckNum,
        ((sock.setWindow received.WindowSize).ackUpTo received.AckNum).slidingWindow
          { call.packet with payload := P.drop (a + 1) }) := by
    unfold WindowCall.probeAcked
    simp only [hempty, List.length_nil, if_true, hcons]
  have hack' : received.AckNum = first + UInt32.ofNat (a + 1) := hack.trans hnumber
  have hmoved : NxtAt ((sock.setWindow received.WindowSize).ackUpTo received.AckNum) first
      (a + 1) := (hnxt.of_same ⟨rfl, rfl, rfl⟩).ackUpTo received.AckNum
  refine ⟨heq, ?_⟩
  rw [heq]
  refine Carries.start h.short hlt rfl hack' rfl ?_
  refine hmoved.trans ?_
  rw [← hack']
  rfl

end Carries

namespace WindowCall

/-- The acknowledgement that slidingWindow is about to take does not mislead it. One
that compares greater than `cumWriteUNA` acknowledges bytes in flight, and one that
answers a probe with an open window finds the first node empty. -/
def SafeAt (sock : NormalSocket) (call : WindowCall) : SlidePc → List TCPInfo → Prop
  | .drain, received :: _ => received.AckNum > sock.cumWriteUNA →
      (received.AckNum - sock.cumWriteUNA).toNat ≤ sock.distUNA.toNat
  | .probing _ expectedAck, received :: _ =>
      received.AckNum = expectedAck ∧ received.WindowSize > 0 →
        call.firstNode.packet.payload = []
  | _, _ => True

instance (sock : NormalSocket) (call : WindowCall) (pc : SlidePc) (chan : List TCPInfo) :
    Decidable (SafeAt sock call pc chan) :=
  match pc, chan with
  | .drain, _ :: _ => inferInstanceAs (Decidable (_ → _))
  | .probing _ _, _ :: _ => inferInstanceAs (Decidable (_ → _))
  | .drain, [] | .probing _ _, [] | .top, _ | .probeTest, _ | .probeSend, _ | .normal, _
  | .sending, _ | .debit _, _ | .allocate _, _ | .zeroTest, _ | .done, _ | .blocked, _
  | .panicked, _ => .isTrue trivial

def SafeRun (sock : NormalSocket) (call : WindowCall) : Prop :=
  SafeAt sock call call.pc sock.ackChan

instance (sock : NormalSocket) (call : WindowCall) : Decidable (call.SafeRun sock) :=
  inferInstanceAs (Decidable (SafeAt sock call call.pc sock.ackChan))

end WindowCall

namespace Carries

variable {first : UInt32} {P : List UInt8} {base a : ℕ} {sock sock' : NormalSocket}
  {call call' : WindowCall}

/-- The probe test is passed when the pointers meet: everything sent is acknowledged. -/
theorem sentEnd_eq (h : Carries first P base a sock call) (hnxt : NxtAt sock first
    (call.sentEnd base)) (hmeet : sock.writeBuffer.NXT = sock.writeBuffer.UNA) :
    call.sentEnd base = a := by
  have hdist := h.distUNA hnxt h.acked_le h.sentEnd_le
  have hacked := h.acked_le
  unfold NormalSocket.distUNA at hdist
  rw [hmeet, toNat_ringDist] at hdist
  omega

/-- A step that only changes registers outside the picture. -/
theorem stuck (h : Carries first P base a sock call) (count : ℕ) :
    Carries first P base a (sock.moveNXT count) (call.goto .blocked) :=
  ⟨h.short, h.chain, h.base_le, h.acked_le, h.size, h.count, h.cum, h.una, h.before_sent,
    h.positive, h.index, trivial⟩

/-- Where the program sends the last node, that node is not sent yet and not empty. -/
theorem sending_ok (h : Carries first P base a sock call) (hpc : call.pc = .normal)
    (hsend : 0 < call.bytesToSend) : PcOk first P base a sock call .sending := by
  have hok := h.pcOk
  rw [hpc] at hok
  have hbytes := hok.1.1
  cases htail : call.tail.sent with
  | false =>
    rw [htail] at hbytes
    simp only [Bool.false_eq_true, if_false] at hbytes
    exact ⟨hok.1, hok.2, htail, by omega⟩
  | true =>
    rw [htail] at hbytes
    simp only [if_true] at hbytes
    omega

/-- `NXT` stands between the acknowledged bytes and the end of the payload. -/
def Behind (first : UInt32) (P : List UInt8) (a : ℕ) (sock : NormalSocket) : Prop :=
  ∃ s, NxtAt sock first s ∧ a ≤ s ∧ s ≤ P.length

/-- Between a probe and its acknowledgement `NXT` is one byte ahead of the sent nodes,
everywhere else it stands behind them. -/
theorem behind (h : Carries first P base a sock call) (hblocked : call.pc ≠ .blocked)
    (hpanicked : call.pc ≠ .panicked) : Behind first P a sock := by
  have hok := h.pcOk
  have hsent : NxtAt sock first (call.sentEnd base) → Behind first P a sock :=
    fun hnxt => ⟨_, hnxt, h.acked_le, h.sentEnd_le⟩
  cases hpc : call.pc with
  | top | normal | zeroTest | drain =>
    rw [hpc] at hok
    exact hsent hok.2
  | probeTest | probeSend | sending | done =>
    rw [hpc] at hok
    exact hsent hok.2.1
  | probing probe expectedAck =>
    rw [hpc] at hok
    obtain ⟨-, hnxt, hlt, -⟩ := hok
    exact ⟨a + 1, hnxt, Nat.le_succ a, hlt⟩
  | debit expectedAck | allocate expectedAck =>
    rw [hpc] at hok
    exact hsent hok.1
  | blocked => contradiction
  | panicked => contradiction

/-- Every step of the thread keeps the picture, and what it sends is what its number denotes. -/
theorem run (h : Carries first P base a sock call)
    (hbyte : a < P.length → [sock.unaByte] = (P.drop a).take 1)
    (hsafe : call.SafeRun sock) {result : NormalSocket × WindowCall × List Emission}
    (hstep : call.Step sock result) :
    (∃ base' a', a ≤ a' ∧ Carries first P base' a' result.1 result.2.1 ∧
        Behind first P a' result.1) ∧
      ∀ m ∈ result.2.2, Denotes first P m.packet := by
  have hok := h.pcOk
  have hkeep : ∀ {sock' call'}, Carries first P base a sock' call' → Behind first P a sock' →
      (∃ base' a', a ≤ a' ∧ Carries first P base' a' sock' call' ∧ Behind first P a' sock') ∧
        ∀ m ∈ ([] : List Emission), Denotes first P m.packet := fun hnext hbehind =>
    ⟨⟨base, a, Nat.le_refl _, hnext, hbehind⟩, by simp⟩
  cases hstep with
  | enter hpc hmore =>
    rw [hpc] at hok
    have hsize := h.size
    have hcount := h.count
    have hnext := h.goto .probeTest ⟨hok.1, hok.2, by omega⟩
    exact hkeep hnext (hnext.behind (by rintro ⟨⟩) (by rintro ⟨⟩))
  | leave hpc hend =>
    rw [hpc] at hok
    have hsize := h.size
    have hcount := h.count
    have hacked := h.acked_le
    have hle := h.sentEnd_le
    have hnext := h.goto .done ⟨hok.1, hok.2, by omega⟩
    exact hkeep hnext (hnext.behind (by rintro ⟨⟩) (by rintro ⟨⟩))
  | closed hpc hmeet =>
    rw [hpc] at hok
    obtain ⟨hlevel, hnxt, hlt⟩ := hok
    have hnext := h.goto .probeSend ⟨hlevel, hnxt, hlt, h.sentEnd_eq hnxt hmeet⟩
    exact hkeep hnext (hnext.behind (by rintro ⟨⟩) (by rintro ⟨⟩))
  | skip hpc =>
    rw [hpc] at hok
    have hnext := h.goto .normal ⟨hok.1, hok.2.1⟩
    exact hkeep hnext (hnext.behind (by rintro ⟨⟩) (by rintro ⟨⟩))
  | probeBlocked hpc =>
    rw [hpc] at hok
    obtain ⟨-, hnxt, hlt, hend⟩ := hok
    have hmoved := hnxt.moveNXT 1
    rw [hend] at hmoved
    exact hkeep (h.stuck 1) ⟨a + 1, hmoved, Nat.le_succ a, hlt⟩
  | probe probe expectedAck hpc _ hack hprobe =>
    rw [hpc] at hok
    obtain ⟨hnext, hdenotes⟩ := h.sendProbe hpc (hbyte hok.2.2.1) hack hprobe
    refine ⟨⟨base, a, Nat.le_refl _, hnext, hnext.behind (by rintro ⟨⟩) (by rintro ⟨⟩)⟩, ?_⟩
    intro m hm
    rw [List.mem_singleton.mp hm]
    exact hdenotes
  | probeAcked probe received more hpc hchan hopen =>
    unfold WindowCall.SafeRun at hsafe
    rw [hpc, hchan] at hsafe
    have hpopped : Carries first P base a { sock with ackChan := more } call :=
      h.of_same ⟨rfl, rfl, rfl⟩
    obtain ⟨heq, hnext⟩ := hpopped.probeAcked hpc rfl (hsafe ⟨rfl, hopen⟩)
    have hpc' : (call.probeAcked { sock with ackChan := more } received).2.pc = .top := by
      rw [heq]
      rfl
    exact ⟨⟨a + 1, a + 1, Nat.le_succ _, hnext,
      hnext.behind (by simp [hpc']) (by simp [hpc'])⟩, by simp⟩
  | probeOn probe expectedAck received more hpc =>
    have hnext : Carries first P base a { sock with ackChan := more } call :=
      h.of_same ⟨rfl, rfl, rfl⟩
    exact hkeep hnext (hnext.behind (by simp [hpc]) (by simp [hpc]))
  | crash hpc =>
    have hbehind := h.behind (by simp [hpc]) (by simp [hpc])
    exact hkeep (h.goto .panicked trivial) hbehind
  | choose k hpc _ hsend =>
    have hnext := h.goto .sending (h.sending_ok hpc hsend)
    exact hkeep hnext (hnext.behind (by rintro ⟨⟩) (by rintro ⟨⟩))
  | hold hpc =>
    rw [hpc] at hok
    have hnext := h.goto .zeroTest hok
    exact hkeep hnext (hnext.behind (by rintro ⟨⟩) (by rintro ⟨⟩))
  | sendBlocked hpc =>
    rw [hpc] at hok
    obtain ⟨hlevel, hnxt, htail, hpos⟩ := hok
    have hbytes : call.bytesToSend = call.tail.size := by
      rw [hlevel.1, htail]
      rfl
    have hle := h.unsent_le htail
    have hacked := h.acked_le
    rw [hbytes]
    exact hkeep (h.stuck _) ⟨_, hnxt.moveNXT _, by omega, hle⟩
  | send expectedAck hpc _ hack =>
    rw [hpc] at hok
    have hnext := h.sendTail hpc (hack.trans (h.sendTail_expectedAck hpc))
    refine ⟨⟨base, a, Nat.le_refl _, hnext, hnext.behind (by rintro ⟨⟩) (by rintro ⟨⟩)⟩, ?_⟩
    intro m hm
    rw [List.mem_singleton.mp hm]
    exact h.denotes (by simp [WindowCall.nodes])
  | debit expectedAck hpc =>
    rw [hpc] at hok
    have hnext : Carries first P base a (sock.setWindow (sock.ClientWindowSize -
        UInt16.ofNat call.tail.packet.payload.length)) (call.goto (.allocate expectedAck)) :=
      (h.goto (.allocate expectedAck) hok).of_same ⟨rfl, rfl, rfl⟩
    exact hkeep hnext (hnext.behind (by rintro ⟨⟩) (by rintro ⟨⟩))
  | allocate expectedAck hpc =>
    rw [hpc] at hok
    have hnext := h.allocateNext hpc
    exact hkeep hnext (hnext.behind (by simp) (by simp))
  | windowZero hpc =>
    rw [hpc] at hok
    have hnext : Carries first P base a sock { call with skip_probe := false, pc := .drain } :=
      ⟨h.short, h.chain, h.base_le, h.acked_le, h.size, h.count, h.cum, h.una, h.before_sent,
        h.positive, h.index, hok⟩
    exact hkeep hnext (hnext.behind (by rintro ⟨⟩) (by rintro ⟨⟩))
  | windowOpen hpc =>
    rw [hpc] at hok
    have hnext := h.goto .drain hok
    exact hkeep hnext (hnext.behind (by rintro ⟨⟩) (by rintro ⟨⟩))
  | drained hpc =>
    rw [hpc] at hok
    have hnext := h.goto .top hok
    exact hkeep hnext (hnext.behind (by rintro ⟨⟩) (by rintro ⟨⟩))
  | ackBlocked received more hpc =>
    obtain ⟨s, hnxt, hbehind⟩ := h.behind (by simp [hpc]) (by simp [hpc])
    exact hkeep ((h.goto .blocked trivial).of_same ⟨rfl, rfl, rfl⟩)
      ⟨s, hnxt.of_same ⟨rfl, rfl, rfl⟩, hbehind⟩
  | ack received more hpc hchan =>
    unfold WindowCall.SafeRun at hsafe
    rw [hpc, hchan] at hsafe
    have hpopped : Carries first P base a { sock with ackChan := more } call :=
      h.of_same ⟨rfl, rfl, rfl⟩
    obtain ⟨a', hle, hnext⟩ := hpopped.processAck hpc hsafe
    exact ⟨⟨base, a', hle, hnext, hnext.behind (by simp [hpc]) (by simp [hpc])⟩, by simp⟩
  | repeated received more hpc =>
    have hnext : Carries first P base a { sock with ackChan := more, unackedMtx := true } call :=
      h.of_same ⟨rfl, rfl, rfl⟩
    exact hkeep hnext (hnext.behind (by simp [hpc]) (by simp [hpc]))

/-- Two positions of `NXT` within one turn of the ring are the same. -/
theorem nxt_unique (h : Carries first P base a sock call) {s s' : ℕ} (hs : NxtAt sock first s)
    (hs' : NxtAt sock first s') (has : a ≤ s) (has' : a ≤ s') (hle : s ≤ P.length)
    (hle' : s' ≤ P.length) : s = s' := by
  have hdist := h.distUNA hs has hle
  have hdist' := h.distUNA hs' has' hle'
  omega

/-- Once `NXT` stands behind the whole payload, no step moves it. -/
theorem all_sent (h : Carries first P base a sock call) (hall : NxtAt sock first P.length)
    {result : NormalSocket × WindowCall × List Emission} (hstep : call.Step sock result) :
    NxtAt result.1 first P.length := by
  have hok := h.pcOk
  have hacked := h.acked_le
  have hend := h.sentEnd_le
  have hsame : NxtAt sock first (call.sentEnd base) → call.sentEnd base = P.length := fun hnxt =>
    h.nxt_unique hnxt hall hacked (hacked.trans hend) hend (Nat.le_refl _)
  cases hstep with
  | probeBlocked hpc =>
    rw [hpc] at hok
    obtain ⟨-, hnxt, hlt, hmeet⟩ := hok
    have heq := hsame hnxt
    omega
  | probe probe expectedAck hpc =>
    rw [hpc] at hok
    obtain ⟨-, hnxt, hlt, hmeet⟩ := hok
    have heq := hsame hnxt
    omega
  | sendBlocked hpc =>
    rw [hpc] at hok
    obtain ⟨-, hnxt, htail, hpos⟩ := hok
    have heq := hsame hnxt
    have hle := h.unsent_le htail
    omega
  | send expectedAck hpc =>
    rw [hpc] at hok
    obtain ⟨-, hnxt, htail, hpos⟩ := hok
    have heq := hsame hnxt
    have hle := h.unsent_le htail
    omega
  | probeAcked probe received more =>
    simp only [WindowCall.probeAcked]
    split
    · split <;> exact hall.congr rfl rfl
    · exact hall.congr rfl rfl
  | ack received more =>
    simp only [WindowCall.processAck]
    split <;> exact hall.congr rfl rfl
  | _ => exact hall.congr rfl rfl

/-- The probe that is sent again is the one that was sent. -/
theorem timeout (h : Carries first P base a sock call) {again : List Emission}
    (hagain : call.timeout = some again) :
    ∀ m ∈ again, m.kind = .probe ∧ Denotes first P m.packet := by
  have hok := h.pcOk
  unfold WindowCall.timeout at hagain
  split at hagain
  · rename_i probe expectedAck hpc
    rw [hpc] at hok
    obtain ⟨-, -, hlt, -, hseq, hpay, -⟩ := hok
    cases hagain
    intro m hm
    rw [List.mem_singleton.mp hm]
    have hshort := h.short
    refine ⟨rfl, denotes_of_offset (by omega) hseq ?_⟩
    rw [hpay]
    simp
  · contradiction

/-- A retransmission resends a node as it is. -/
theorem resent (h : Carries first P base a sock call) {k : ℕ}
    {result : NormalSocket × WindowCall × List Emission}
    (hresent : WindowCall.Resent sock call k result) :
    Carries first P base a result.1 result.2.1 ∧
      ∀ m ∈ result.2.2, m.kind ≠ .fin → Denotes first P m.packet := by
  refine ⟨(h.of_sameShape hresent.shape).of_same hresent.closes.toSameSending, ?_⟩
  intro m hm hkind
  obtain ⟨-, node, hnode, -, hpacket⟩ := hresent.out m hm hkind
  rw [hpacket]
  exact h.denotes (List.mem_of_getElem? hnode)

end Carries

end IpTcp
