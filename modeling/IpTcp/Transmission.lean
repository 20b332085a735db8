import IpTcp.SlidingInvariant

/-!
slidingWindow against a peer that acknowledges what it was sent and never closes
its window. The acknowledgements are pure, of registered numbers, each of them
once, in any order and at any time. Then the payload is cut into segments that
follow on from each other, the retransmission thread resends the lowest segment
that is sent and not acknowledged, and the loop ends when the last byte is
acknowledged and not before.
-/
namespace IpTcp.Transmission

open Runs

def endSeq (p : TCPPacket) : UInt32 := p.seqNum + UInt32.ofNat p.payload.length

def Contiguous : UInt32 → List TCPPacket → Prop
  | _, [] => True
  | seq, p :: more => p.seqNum = seq ∧ 0 < p.payload.length ∧ p.payload.length ≤ mss ∧
      Contiguous (endSeq p) more

def Processed (sock : NormalSocket) (ack : UInt32) : Prop :=
  ∃ c, sock.unackedNums ack = some (c + 1)

def Acked (sock : NormalSocket) (p : TCPPacket) : Prop :=
  ∃ ack, Processed sock ack ∧ endSeq p ≤ ack

def Dropped (call : WindowCall) (k : ℕ) : Prop := ∀ h, call.head = some h → k + 1 < h

structure Ready (sock : NormalSocket) : Prop where
  una : sock.writeBuffer.UNA = ringDist sock.cumWriteUNA sock.baseSeq
  nxt : sock.writeBuffer.NXT = sock.writeBuffer.UNA
  window : sock.ClientWindowSize > 0
  registered : ∀ ack, (sock.unackedNums ack).isSome → ack ≤ sock.cumWriteUNA
  fresh : ∀ r ∈ sock.ackChan, r.WindowSize > 0 ∧ sock.unackedNums r.AckNum = some 0
  distinct : (sock.ackChan.map TCPInfo.AckNum).Nodup
  mutex : sock.unackedMtx = false

/-- What arrives is a pure acknowledgement of a registered number, with an open
window; no acknowledgement of that number was processed or is on its way. -/
def PureAcks (t : Transfer) : TransferEvent → Prop
  | .arrive r => r.Flag &&& tcpFlagAck > 0 ∧ r.Payload = [] ∧ r.WindowSize > 0 ∧
      t.sock.unackedNums r.AckNum = some 0 ∧ ∀ q ∈ t.sock.ackChan, q.AckNum ≠ r.AckNum
  | _ => True

instance (t : Transfer) (e : TransferEvent) : Decidable (PureAcks t e) :=
  match e with
  | .run | .timeout | .tick | .dispatch => .isTrue trivial
  | .arrive _ => inferInstanceAs (Decidable (_ ∧ _))

/-- What a retransmission keeps of a packet. -/
def sig (p : TCPPacket) : UInt32 × List UInt8 := (p.seqNum, p.payload)

theorem endSeq_congr {p q : TCPPacket} (h : sig p = sig q) : endSeq p = endSeq q := by
  simp only [sig, Prod.mk.injEq] at h
  unfold endSeq
  rw [h.1, h.2]

section Numbers

variable {first : UInt32} {P : List UInt8}

theorem toNat_offset (hwrap : first.toNat + P.length < 4294967296) {off : ℕ}
    (hoff : off ≤ P.length) : (first + UInt32.ofNat off).toNat = first.toNat + off := by
  rw [UInt32.toNat_add, UInt32.toNat_ofNat']
  omega

theorem offset_le_iff (hwrap : first.toNat + P.length < 4294967296) {off off' : ℕ}
    (hoff : off ≤ P.length) (hoff' : off' ≤ P.length) :
    first + UInt32.ofNat off ≤ first + UInt32.ofNat off' ↔ off ≤ off' := by
  rw [UInt32.le_iff_toNat_le, toNat_offset hwrap hoff, toNat_offset hwrap hoff']
  omega

end Numbers

/-- The chain lists the segments in the order of their numbers. -/
theorem contiguous_of_chain {first : UInt32} {off : ℕ} {bytes rest : List UInt8}
    {nodes : List WindowNode} {ps : List TCPPacket} (h : Chain first off bytes nodes rest)
    (hpos : ∀ node ∈ nodes, 0 < node.size)
    (hsig : ps.map sig = nodes.map fun node => sig node.packet) :
    Contiguous (first + UInt32.ofNat off) ps ∧
      (ps.map TCPPacket.payload).flatten ++ rest = bytes := by
  induction nodes generalizing off bytes ps with
  | nil =>
    rw [List.map_nil, List.map_eq_nil_iff] at hsig
    subst hsig
    exact ⟨trivial, h.symm⟩
  | cons node more ih =>
    cases ps with
    | nil => simp at hsig
    | cons p ps =>
      simp only [List.map_cons, List.cons.injEq, sig, Prod.mk.injEq] at hsig
      obtain ⟨⟨hseq, hpay⟩, hmore⟩ := hsig
      obtain ⟨hseq', -, hmss, hfront, htail⟩ := h
      have hsize : p.payload.length = node.size := by
        rw [hpay]
        rfl
      obtain ⟨hcont, hflat⟩ := ih htail (fun n hn => hpos n (List.mem_cons_of_mem _ hn)) hmore
      refine ⟨⟨hseq.trans hseq', ?_, ?_, ?_⟩, ?_⟩
      · rw [hsize]
        exact hpos node List.mem_cons_self
      · rw [hsize]
        exact hmss
      · unfold endSeq
        rw [hseq, hseq', hsize, add_ofNat_add]
        exact hcont
      · rw [List.map_cons, List.flatten_cons, List.append_assoc, hflat, hpay]
        have htake := List.prefix_iff_eq_take.mp hfront
        rw [htake]
        exact List.take_append_drop _ _

/-- The first entry from `j` on that an acknowledgement does not cover, if there is one. -/
def Uncovered (nodes : List WindowNode) (ack : UInt32) (j : ℕ) : Option ℕ → Prop
  | none => ∀ i, j ≤ i → i ≤ nodes.length → expectedAckAt nodes i ≤ ack
  | some k => k ≤ nodes.length ∧ (∀ i, j ≤ i → i < k → expectedAckAt nodes i ≤ ack) ∧
      ack < expectedAckAt nodes k

theorem Uncovered.extend {nodes : List WindowNode} {ack : UInt32} {j j' : ℕ} {head : Option ℕ}
    (h : Uncovered nodes ack j head)
    (hbelow : ∀ i, j' ≤ i → i < j → expectedAckAt nodes i ≤ ack) :
    Uncovered nodes ack j' head := by
  cases head with
  | none =>
    intro i hi hlen
    rcases Nat.lt_or_ge i j with hlt | hge
    · exact hbelow i hi hlt
    · exact h i hge hlen
  | some k =>
    obtain ⟨hk, hmid, habove⟩ := h
    refine ⟨hk, ?_, habove⟩
    intro i hi hik
    rcases Nat.lt_or_ge i j with hlt | hge
    · exact hbelow i hi hlt
    · exact hmid i hge hik

theorem trimHead_none (nodes : List WindowNode) (ack : UInt32) (fuel : ℕ) :
    trimHead nodes ack fuel none = none := by
  cases fuel <;> rfl

theorem trimHead_uncovered (nodes : List WindowNode) (ack : UInt32) (fuel j : ℕ)
    (hj : j ≤ nodes.length) (hfuel : nodes.length + 2 ≤ fuel + j) :
    Uncovered nodes ack j (trimHead nodes ack fuel (some j)) := by
  induction fuel generalizing j with
  | zero => omega
  | succ fuel ih =>
    unfold trimHead
    by_cases hle : expectedAckAt nodes j ≤ ack
    · rw [if_pos hle]
      by_cases hlast : j < nodes.length
      · rw [if_pos hlast]
        refine (ih (j + 1) hlast (by omega)).extend ?_
        intro i hi hij
        rw [show i = j by omega]
        exact hle
      · rw [if_neg hlast, trimHead_none]
        intro i hi hlen
        rw [show i = j by omega]
        exact hle
    · rw [if_neg hle]
      refine ⟨hj, ?_, UInt32.not_le.mp hle⟩
      intro i hi hij
      omega

/-- `head` stands at the first entry that is not acknowledged; before any
acknowledgement it is the dummy node. -/
def HeadOk (nodes : List WindowNode) (cum : UInt32) (a : ℕ) (head : Option ℕ) : Prop :=
  (head = some 0 ∧ a = 0) ∨ Uncovered nodes cum 0 head

theorem Uncovered.trim {nodes : List WindowNode} {cum ack : UInt32} {head : Option ℕ}
    (h : Uncovered nodes cum 0 head) (hahead : cum < ack) :
    Uncovered nodes ack 0 (trimHead nodes ack (nodes.length + 2) head) := by
  have hlift : ∀ {i}, expectedAckAt nodes i ≤ cum → expectedAckAt nodes i ≤ ack := fun hi =>
    UInt32.le_trans hi (UInt32.le_of_lt hahead)
  cases head with
  | none =>
    rw [trimHead_none]
    intro i hi hlen
    exact hlift (h i hi hlen)
  | some j =>
    obtain ⟨hj, hbelow, -⟩ := h
    refine (trimHead_uncovered nodes ack (nodes.length + 2) j hj (by omega)).extend ?_
    intro i hi hij
    exact hlift (hbelow i hi hij)

theorem HeadOk.trim {nodes : List WindowNode} {cum ack : UInt32} {a : ℕ} {head : Option ℕ}
    (h : HeadOk nodes cum a head) (hahead : cum < ack) :
    Uncovered nodes ack 0 (trimHead nodes ack (nodes.length + 2) head) := by
  rcases h with ⟨hdummy, -⟩ | huncovered
  · rw [hdummy]
    exact trimHead_uncovered nodes ack (nodes.length + 2) 0 (Nat.zero_le _) (by omega)
  · exact huncovered.trim hahead

theorem expectedAckAt_append {nodes : List WindowNode} {i : ℕ} (more : List WindowNode)
    (hi : i ≤ nodes.length) : expectedAckAt (nodes ++ more) i = expectedAckAt nodes i := by
  cases i with
  | zero => rfl
  | succ i =>
    simp only [expectedAckAt]
    rw [List.getElem?_append_left hi]

theorem expectedAckAt_congr {xs ys : List WindowNode}
    (hshape : ys.map WindowNode.shape = xs.map WindowNode.shape) (i : ℕ) :
    expectedAckAt ys i = expectedAckAt xs i := by
  cases i with
  | zero => rfl
  | succ i =>
    have hget : ∀ l : List WindowNode, expectedAckAt l (i + 1) =
        ((l.map WindowNode.shape)[i]?.map fun s => s.2.2).getD 0 := by
      intro l
      simp only [expectedAckAt, List.getElem?_map, Option.map_map]
      rfl
    rw [hget, hget, hshape]

theorem HeadOk.congr {xs ys : List WindowNode} {cum : UInt32} {a : ℕ} {head : Option ℕ}
    (h : HeadOk xs cum a head) (hshape : ys.map WindowNode.shape = xs.map WindowNode.shape) :
    HeadOk ys cum a head := by
  have hlen : ys.length = xs.length := by
    simpa using congrArg List.length hshape
  refine h.imp id ?_
  cases head with
  | none =>
    simp only [Uncovered, hlen, expectedAckAt_congr hshape]
    exact id
  | some k =>
    simp only [Uncovered, hlen, expectedAckAt_congr hshape]
    exact id

/-- Appending a node keeps `head`, unless `head` is nil. -/
theorem HeadOk.append {nodes : List WindowNode} {cum : UInt32} {a : ℕ} {head : Option ℕ}
    (h : HeadOk nodes cum a head) (node : WindowNode) (hhead : head ≠ none) :
    HeadOk (nodes ++ [node]) cum a head := by
  refine h.imp id ?_
  cases head with
  | none => exact absurd rfl hhead
  | some k =>
    rintro ⟨hk, hbelow, habove⟩
    refine ⟨?_, ?_, ?_⟩
    · rw [List.length_append]
      omega
    · intro i hi hik
      rw [expectedAckAt_append [node] (by omega)]
      exact hbelow i hi hik
    · rw [expectedAckAt_append [node] hk]
      exact habove

/-- The registered numbers are those of before and those of the segments sent, the
highest one processed is `cumWriteUNA`, and what is on its way is new. -/
structure Numbers (entry : UInt32 → Option ℕ) (a : ℕ) (sock : NormalSocket)
    (acks : List UInt32) (arriving : Option TCPInfo) : Prop where
  registered : ∀ ack, (sock.unackedNums ack).isSome ↔ (entry ack).isSome ∨ ack ∈ acks
  processed : ∀ ack, Processed sock ack → ack ≤ sock.cumWriteUNA
  reached : 0 < a → Processed sock sock.cumWriteUNA
  mutex : sock.unackedMtx = false
  fresh : ∀ r ∈ sock.ackChan ++ arriving.toList,
    r.WindowSize > 0 ∧ sock.unackedNums r.AckNum = some 0
  distinct : ((sock.ackChan ++ arriving.toList).map TCPInfo.AckNum).Nodup
  pure : ∀ r, arriving = some r → r.Flag &&& tcpFlagAck > 0 ∧ r.Payload = []

namespace Numbers

variable {entry : UInt32 → Option ℕ} {a : ℕ} {sock sock' : NormalSocket} {acks : List UInt32}
  {arriving : Option TCPInfo}

theorem congr (h : Numbers entry a sock acks arriving)
    (hnums : sock'.unackedNums = sock.unackedNums) (hcum : sock'.cumWriteUNA = sock.cumWriteUNA)
    (hmtx : sock'.unackedMtx = sock.unackedMtx) (hchan : sock'.ackChan = sock.ackChan) :
    Numbers entry a sock' acks arriving := by
  refine ⟨?_, ?_, ?_, ?_, ?_, ?_, h.pure⟩
  · rw [hnums]
    exact h.registered
  · unfold Processed
    rw [hnums, hcum]
    exact h.processed
  · unfold Processed
    rw [hnums, hcum]
    exact h.reached
  · rw [hmtx]
    exact h.mutex
  · rw [hnums, hchan]
    exact h.fresh
  · rw [hchan]
    exact h.distinct

/-- A number is registered that was not registered before. -/
theorem register (h : Numbers entry a sock acks arriving) (count : ℕ) {expectedAck : UInt32}
    (hnew : sock.unackedNums expectedAck = none) :
    Numbers entry a ((sock.moveNXT count).register expectedAck) (acks ++ [expectedAck])
      arriving := by
  have hother : ∀ {ack}, (sock.unackedNums ack).isSome →
      ((sock.moveNXT count).register expectedAck).unackedNums ack = sock.unackedNums ack := by
    intro ack hsome
    apply Function.update_of_ne
    rintro rfl
    rw [hnew] at hsome
    simp at hsome
  have hself : ((sock.moveNXT count).register expectedAck).unackedNums expectedAck = some 0 :=
    Function.update_self _ _ _
  have hprocessed : ∀ ack, Processed ((sock.moveNXT count).register expectedAck) ack →
      Processed sock ack := by
    rintro ack ⟨c, hc⟩
    by_cases heq : ack = expectedAck
    · rw [heq, hself] at hc
      simp at hc
    · rw [show ((sock.moveNXT count).register expectedAck).unackedNums ack = sock.unackedNums ack
        from Function.update_of_ne heq _ _] at hc
      exact ⟨c, hc⟩
  refine ⟨?_, ?_, ?_, h.mutex, ?_, h.distinct, h.pure⟩
  · intro ack
    by_cases heq : ack = expectedAck
    · rw [heq, hself]
      simp
    · rw [show ((sock.moveNXT count).register expectedAck).unackedNums ack = sock.unackedNums ack
        from Function.update_of_ne heq _ _, h.registered ack]
      simp [heq]
  · intro ack hack
    exact h.processed ack (hprocessed ack hack)
  · intro hpos
    obtain ⟨c, hc⟩ := h.reached hpos
    have hsome : (sock.unackedNums sock.cumWriteUNA).isSome := by
      rw [hc]
      rfl
    exact ⟨c, (hother hsome).trans hc⟩
  · intro r hr
    obtain ⟨hopen, hzero⟩ := h.fresh r hr
    exact ⟨hopen, (hother (by rw [hzero]; rfl)).trans hzero⟩

/-- The acknowledgement at the front of the channel is counted. -/
theorem count (h : Numbers entry a sock acks arriving) {received : TCPInfo} {more : List TCPInfo}
    (hchan : sock.ackChan = received :: more) {cum : UInt32} {a' : ℕ}
    (hnums : sock'.unackedNums = Function.update sock.unackedNums received.AckNum (some 1))
    (hmtx : sock'.unackedMtx = sock.unackedMtx) (hmore : sock'.ackChan = more)
    (hcum : sock'.cumWriteUNA = cum) (hle : received.AckNum ≤ cum) (hold : sock.cumWriteUNA ≤ cum)
    (hreached : cum = received.AckNum ∨ cum = sock.cumWriteUNA ∧ a' = a) :
    Numbers entry a' sock' acks arriving := by
  have hfront := h.fresh received (by rw [hchan]; simp)
  have hdistinct := h.distinct
  rw [hchan, List.cons_append, List.map_cons, List.nodup_cons] at hdistinct
  have hself : sock'.unackedNums received.AckNum = some 1 := by
    rw [hnums]
    exact Function.update_self _ _ _
  have hother : ∀ {ack}, ack ≠ received.AckNum → sock'.unackedNums ack = sock.unackedNums ack := by
    intro ack hne
    rw [hnums]
    exact Function.update_of_ne hne _ _
  refine ⟨?_, ?_, ?_, hmtx.trans h.mutex, ?_, ?_, h.pure⟩
  · intro ack
    rw [← h.registered ack]
    by_cases heq : ack = received.AckNum
    · rw [heq, hself, hfront.2]
      simp
    · rw [hother heq]
  · rintro ack ⟨c, hc⟩
    rw [hcum]
    by_cases heq : ack = received.AckNum
    · rw [heq]
      exact hle
    · rw [hother heq] at hc
      exact UInt32.le_trans (h.processed ack ⟨c, hc⟩) hold
  · intro hpos
    rw [hcum]
    by_cases heq : cum = received.AckNum
    · rw [heq]
      exact ⟨0, hself⟩
    · obtain ⟨hsame, ha⟩ := hreached.resolve_left heq
      rw [ha] at hpos
      obtain ⟨c, hc⟩ := h.reached hpos
      rw [← hsame] at hc
      exact ⟨c, (hother heq).trans hc⟩
  · intro r hr
    rw [hmore] at hr
    have hne : r.AckNum ≠ received.AckNum := by
      intro heq
      exact hdistinct.1 (heq ▸ List.mem_map_of_mem hr)
    obtain ⟨hopen, hzero⟩ := h.fresh r (by rw [hchan]; exact List.mem_cons_of_mem _ hr)
    exact ⟨hopen, (hother hne).trans hzero⟩
  · rw [hmore]
    exact hdistinct.2

end Numbers

/-- No probe is sent, nothing is stuck, and inside a turn bytes are left to acknowledge. -/
def Plain (P : List UInt8) (a : ℕ) (call : WindowCall) : SlidePc → Prop
  | .top | .drain | .done => True
  | .probeTest | .normal | .sending | .zeroTest => a < P.length
  | .debit _ | .allocate _ => a < call.sentEnd 0
  | .probeSend | .probing _ _ | .blocked | .panicked => False

/-- A transfer of `P`, `a` bytes of which are acknowledged. -/
structure Sending (first : UInt32) (P : List UInt8) (entry : UInt32 → Option ℕ) (a : ℕ)
    (t : Transfer) : Prop where
  carries : Carries first P 0 a t.sock t.call
  tail_pos : 0 < t.call.tail.size
  plain : Plain P a t.call t.call.pc
  window : a = t.call.sentEnd 0 → t.sock.ClientWindowSize > 0
  head : HeadOk t.call.nodes t.sock.cumWriteUNA a t.call.head
  sent : (firsts t.emitted).map sig = t.call.sentNodes.map fun node => sig node.packet
  numbers : Numbers entry a t.sock (t.call.sentNodes.map WindowNode.expectedAck) t.arriving

/-- The payload does not wrap around, and no number inside it was registered before. -/
structure Fits (first : UInt32) (P : List UInt8) (entry : UInt32 → Option ℕ) : Prop where
  wrap : first.toNat + P.length < 4294967296
  old : ∀ ack, (entry ack).isSome → ack ≤ first

namespace Sending

variable {first : UInt32} {P : List UInt8} {entry : UInt32 → Option ℕ} {a : ℕ} {t : Transfer}

theorem acked_le (h : Sending first P entry a t) : a ≤ P.length :=
  h.carries.acked_le.trans h.carries.sentEnd_le

/-- A step that leaves the socket and the window alone. -/
theorem move (h : Sending first P entry a t) {call' : WindowCall}
    (hcarries : Carries first P 0 a t.sock call') (hbefore : call'.before = t.call.before)
    (htail : call'.tail = t.call.tail) (hhead : call'.head = t.call.head)
    (hplain : Plain P a call' call'.pc) :
    Sending first P entry a (t.update (t.sock, call', [])) := by
  have hnodes : call'.nodes = t.call.nodes := by
    unfold WindowCall.nodes
    rw [hbefore, htail]
  have hsent : call'.sentNodes = t.call.sentNodes := by
    unfold WindowCall.sentNodes
    rw [hnodes, hbefore, htail]
  have hend : call'.sentEnd 0 = t.call.sentEnd 0 := by
    unfold WindowCall.sentEnd
    rw [hsent]
  refine ⟨hcarries, ?_, hplain, ?_, ?_, ?_, ?_⟩
  · change 0 < call'.tail.size
    rw [htail]
    exact h.tail_pos
  · change a = call'.sentEnd 0 → _
    rw [hend]
    exact h.window
  · change HeadOk call'.nodes _ _ call'.head
    rw [hnodes, hhead]
    exact h.head
  · change (firsts (t.emitted ++ [])).map sig = call'.sentNodes.map _
    rw [hsent, List.append_nil]
    exact h.sent
  · change Numbers entry a t.sock (call'.sentNodes.map _) _
    rw [hsent]
    exact h.numbers

/-- Every sent node's number lies within the bytes sent. -/
theorem sent_offset (h : Sending first P entry a t) {ack : UInt32}
    (hack : ack ∈ t.call.sentNodes.map WindowNode.expectedAck) :
    ∃ off, off ≤ t.call.sentEnd 0 ∧ ack = first + UInt32.ofNat off := by
  obtain ⟨node, hnode, rfl⟩ := List.mem_map.mp hack
  obtain ⟨rest, hchain⟩ := h.carries.sent_chain
  obtain ⟨o, -, hhigh, -, hnumber, -⟩ := hchain.mem hnode
  exact ⟨o + node.size, hhigh, hnumber⟩

/-- A registered number that is ahead is the number of a segment in flight. -/
theorem ahead_offset (h : Sending first P entry a t) (hfits : Fits first P entry) {ack : UInt32}
    (hreg : (t.sock.unackedNums ack).isSome) (hahead : ack > t.sock.cumWriteUNA) :
    ∃ off, a < off ∧ off ≤ t.call.sentEnd 0 ∧ ack = first + UInt32.ofNat off := by
  have hcum := h.carries.cum
  have hle := h.acked_le
  rcases (h.numbers.registered ack).mp hreg with hold | hsent
  · have hlow := hfits.old ack hold
    rw [hcum] at hahead
    have hstart : first ≤ first + UInt32.ofNat a := by
      rw [UInt32.le_iff_toNat_le, toNat_offset hfits.wrap hle]
      omega
    exact absurd (UInt32.le_trans hlow hstart) (UInt32.not_le.mpr hahead)
  · obtain ⟨off, hoff, rfl⟩ := h.sent_offset hsent
    refine ⟨off, ?_, hoff, rfl⟩
    rw [hcum] at hahead
    have hend := h.carries.sentEnd_le
    by_contra hnot
    exact UInt32.not_le.mpr hahead
      ((offset_le_iff hfits.wrap (by omega) hle).mpr (Nat.le_of_not_lt hnot))

/-- The number of the last node as long as that node is not sent. -/
theorem tail_number (h : Sending first P entry a t) (htail : t.call.tail.sent = false) :
    t.call.tail.expectedAck =
      first + UInt32.ofNat (t.call.sentEnd 0 + t.call.tail.size) := by
  rw [h.carries.tail_expectedAck, Carries.sentEnd_of_unsent 0 htail, WindowCall.nodes,
    nodesSize_append, nodesSize_cons, nodesSize_nil, Nat.add_zero, Nat.zero_add, Nat.zero_add]

/-- A last node in flight keeps `head` from becoming nil. -/
theorem head_ne_none (h : Sending first P entry a t) (hfits : Fits first P entry)
    (hlt : a < nodesSize t.call.nodes) : t.call.head ≠ none := by
  intro hnone
  have hle := h.acked_le
  have hlen := h.carries.chain.length
  rw [List.drop_zero] at hlen
  have hend := h.head
  rw [hnone] at hend
  rcases hend with ⟨hcontra, -⟩ | hall
  · contradiction
  · have hlast := hall t.call.nodes.length (Nat.zero_le _) (Nat.le_refl _)
    have hnumber : expectedAckAt t.call.nodes t.call.nodes.length = t.call.tail.expectedAck := by
      simp [WindowCall.nodes, expectedAckAt]
    rw [hnumber, h.carries.tail_expectedAck, Nat.zero_add, h.carries.cum,
      offset_le_iff hfits.wrap (by omega) hle] at hlast
    omega

/-- The last node is sent and its number registered. -/
theorem send (h : Sending first P entry a t) (hfits : Fits first P entry)
    (hpc : t.call.pc = .sending) {expectedAck : UInt32}
    (hack : expectedAck = (t.sock.moveNXT t.call.bytesToSend).distUNA +
      (t.sock.moveNXT t.call.bytesToSend).cumWriteUNA) :
    Sending first P entry a (t.update ((t.sock.moveNXT t.call.bytesToSend).register expectedAck,
      t.call.markSent (.debit expectedAck), [⟨.first, t.call.tail.packet⟩])) := by
  have hok := h.carries.pcOk
  rw [hpc] at hok
  obtain ⟨-, -, htail, hpos⟩ := hok
  have hnumber := hack.trans (h.carries.sendTail_expectedAck hpc)
  have hself : t.call.tail.expectedAck = expectedAck := (h.tail_number htail).trans hnumber.symm
  have hend := Carries.sentEnd_markSent 0 htail (.debit expectedAck)
  have hacked := h.carries.acked_le
  have hfit := h.carries.unsent_le htail
  have hsent : t.call.sentNodes = t.call.before := by
    unfold WindowCall.sentNodes
    rw [htail]
    rfl
  have hnew : t.sock.unackedNums expectedAck = none := by
    by_contra hsome
    have hahead : expectedAck > t.sock.cumWriteUNA := by
      rw [hnumber, h.carries.cum, gt_iff_lt, ← UInt32.not_le,
        offset_le_iff hfits.wrap hfit (by omega)]
      omega
    obtain ⟨off, -, hoff, heq⟩ := h.ahead_offset hfits (Option.isSome_iff_ne_none.mpr hsome) hahead
    have hsame := heq.symm.trans hnumber
    have hle := (offset_le_iff hfits.wrap hfit (by omega)).mp (UInt32.le_of_eq hsame.symm)
    omega
  refine ⟨h.carries.sendTail hpc hnumber, hpos, ?_, ?_, ?_, ?_, ?_⟩
  · change a < (t.call.markSent (.debit expectedAck)).sentEnd 0
    omega
  · change a = (t.call.markSent (.debit expectedAck)).sentEnd 0 → _
    omega
  · refine h.head.congr ?_
    simp [WindowCall.nodes, WindowNode.shape, WindowCall.markSent, Transfer.update]
  · have hold := h.sent
    rw [hsent] at hold
    change (firsts (t.emitted ++ [⟨.first, t.call.tail.packet⟩])).map sig =
      (t.call.before ++ [{ t.call.tail with sent := true }]).map _
    rw [firsts_append, List.map_append, List.map_append, hold]
    rfl
  · have hold := h.numbers.register t.call.bytesToSend hnew
    rw [hsent] at hold
    change Numbers entry a _
      ((t.call.before ++ [{ t.call.tail with sent := true }]).map WindowNode.expectedAck) _
    rw [List.map_append]
    change Numbers entry a _ (_ ++ [t.call.tail.expectedAck]) _
    rw [hself]
    exact hold

theorem debit (h : Sending first P entry a t) {expectedAck : UInt32}
    (hpc : t.call.pc = .debit expectedAck) (window : UInt16) :
    Sending first P entry a
      (t.update (t.sock.setWindow window, t.call.goto (.allocate expectedAck), [])) := by
  have hok := h.carries.pcOk
  have hplain := h.plain
  rw [hpc] at hok hplain
  have hcarries := h.carries.goto (.allocate expectedAck) hok
  refine ⟨hcarries.of_same ⟨rfl, rfl, rfl⟩, h.tail_pos, hplain, ?_, h.head, ?_, ?_⟩
  · intro hall
    exact absurd hall (Nat.ne_of_lt hplain)
  · change (firsts (t.emitted ++ [])).map sig = _
    rw [List.append_nil]
    exact h.sent
  · exact h.numbers.congr rfl rfl rfl rfl

/-- The next node is appended, or there is none. -/
theorem allocate (h : Sending first P entry a t) (hfits : Fits first P entry)
    {expectedAck : UInt32} (hpc : t.call.pc = .allocate expectedAck) :
    Sending first P entry a (t.update (t.sock, t.call.allocateNext t.sock expectedAck, [])) := by
  have hcarries := h.carries.allocateNext hpc
  have hok := h.carries.pcOk
  have hplain := h.plain
  rw [hpc] at hok hplain
  obtain ⟨-, htail, -⟩ := hok
  have hle := h.carries.sentEnd_le
  have hsent : t.call.sentNodes = t.call.nodes := by
    unfold WindowCall.sentNodes
    rw [htail]
    rfl
  have hlt : a < nodesSize t.call.nodes := by
    unfold Plain WindowCall.sentEnd at hplain
    rw [hsent, Nat.zero_add] at hplain
    exact hplain
  have hhead := h.head_ne_none hfits hlt
  have hlong : a < P.length := by
    have hend : a < t.call.sentEnd 0 := hplain
    omega
  unfold WindowCall.allocateNext at hcarries ⊢
  simp only at hcarries ⊢
  split
  · rename_i hpos
    rw [if_pos hpos] at hcarries
    refine ⟨hcarries, ?_, hlong, ?_, h.head.append _ hhead, ?_, ?_⟩
    · change 0 < (t.call.packet.payload.take _).length
      rw [List.length_take]
      omega
    · change a = 0 + nodesSize t.call.nodes → _
      omega
    · change (firsts (t.emitted ++ [])).map sig = t.call.nodes.map _
      rw [List.append_nil, ← hsent]
      exact h.sent
    · change Numbers entry a t.sock (t.call.nodes.map _) _
      rw [← hsent]
      exact h.numbers
  · rename_i hzero
    rw [if_neg hzero] at hcarries
    exact h.move hcarries rfl rfl rfl hlong

/-- An acknowledgement is processed. -/
theorem ack (h : Sending first P entry a t) (hfits : Fits first P entry)
    (hpc : t.call.pc = .drain) {received : TCPInfo} {more : List TCPInfo}
    (hchan : t.sock.ackChan = received :: more) :
    ∃ a', a ≤ a' ∧ Sending first P entry a'
      (t.update ((t.call.processAck { t.sock with ackChan := more } received).1,
        (t.call.processAck { t.sock with ackChan := more } received).2, [])) := by
  have hfresh := h.numbers.fresh received (by rw [hchan]; simp)
  have hreg : (t.sock.unackedNums received.AckNum).isSome := by
    rw [hfresh.2]
    rfl
  have hpopped : Carries first P 0 a { t.sock with ackChan := more } t.call :=
    h.carries.of_same ⟨rfl, rfl, rfl⟩
  have hok := h.carries.pcOk
  rw [hpc] at hok
  have hle := h.acked_le
  have hend := h.carries.sentEnd_le
  have hrange : received.AckNum > t.sock.cumWriteUNA →
      (received.AckNum - t.sock.cumWriteUNA).toNat ≤ t.sock.distUNA.toNat := by
    intro hahead
    obtain ⟨off, hlow, hoff, heq⟩ := h.ahead_offset hfits hreg hahead
    rw [h.carries.distUNA hok.2 h.carries.acked_le hend, UInt32.toNat_sub_of_le _ _
      (UInt32.le_of_lt hahead), heq, h.carries.cum, toNat_offset hfits.wrap (by omega),
      toNat_offset hfits.wrap hle]
    omega
  obtain ⟨a', haa', hnext⟩ := hpopped.processAck hpc hrange
  have hcount : ∀ (sock' : NormalSocket) (cum : UInt32),
      sock'.unackedNums = Function.update t.sock.unackedNums received.AckNum (some 1) →
      sock'.unackedMtx = t.sock.unackedMtx → sock'.ackChan = more → sock'.cumWriteUNA = cum →
      received.AckNum ≤ cum → t.sock.cumWriteUNA ≤ cum →
      (cum = received.AckNum ∨ cum = t.sock.cumWriteUNA ∧ a' = a) →
      Numbers entry a' sock' (t.call.sentNodes.map WindowNode.expectedAck) t.arriving :=
    fun sock' cum => h.numbers.count hchan
  have hnums : Function.update t.sock.unackedNums received.AckNum
      (some ((t.sock.unackedNums received.AckNum).getD 0 + 1)) =
        Function.update t.sock.unackedNums received.AckNum (some 1) := by
    rw [hfresh.2]
    rfl
  refine ⟨a', haa', ?_⟩
  unfold WindowCall.processAck at hnext ⊢
  simp only at hnext ⊢
  split
  · rename_i hahead
    rw [if_pos hahead] at hnext
    refine ⟨hnext, h.tail_pos, ?_, fun _ => hfresh.1, Or.inr (h.head.trim hahead), ?_, ?_⟩
    · change Plain P a' _ t.call.pc
      rw [hpc]
      trivial
    · change (firsts (t.emitted ++ [])).map sig = _
      rw [List.append_nil]
      exact h.sent
    · exact hcount _ received.AckNum hnums rfl rfl rfl (UInt32.le_refl _)
        (UInt32.le_of_lt hahead) (Or.inl rfl)
  · rename_i hbehind
    rw [if_neg hbehind] at hnext
    have hsame : a' = a := by
      have hcum : first + UInt32.ofNat a = first + UInt32.ofNat a' :=
        h.carries.cum.symm.trans hnext.cum
      have hle' := hnext.acked_le.trans hnext.sentEnd_le
      have hback := (offset_le_iff hfits.wrap hle' hle).mp (UInt32.le_of_eq hcum.symm)
      omega
    subst hsame
    refine ⟨hnext, h.tail_pos, ?_, fun _ => hfresh.1, h.head, ?_, ?_⟩
    · change Plain P a' _ t.call.pc
      rw [hpc]
      trivial
    · change (firsts (t.emitted ++ [])).map sig = _
      rw [List.append_nil]
      exact h.sent
    · exact hcount _ t.sock.cumWriteUNA hnums rfl rfl rfl (UInt32.not_lt.mp hbehind)
        (UInt32.le_refl _) (Or.inr ⟨rfl, rfl⟩)

/-- Every step of the thread that runs slidingWindow. -/
theorem run (h : Sending first P entry a t) (hfits : Fits first P entry)
    {result : NormalSocket × WindowCall × List Emission} (hstep : t.call.Step t.sock result) :
    ∃ a', a ≤ a' ∧ Sending first P entry a' (t.update result) := by
  have hok := h.carries.pcOk
  have hplain := h.plain
  have hmtx := h.numbers.mutex
  have hkeep : ∀ {u}, Sending first P entry a u → ∃ a', a ≤ a' ∧ Sending first P entry a' u :=
    fun hnext => ⟨a, Nat.le_refl _, hnext⟩
  cases hstep with
  | enter hpc hmore =>
    rw [hpc] at hok
    have hsize := h.carries.size
    have hcount := h.carries.count
    have hlt : a < P.length := by omega
    exact hkeep (h.move (h.carries.goto .probeTest ⟨hok.1, hok.2, hlt⟩) rfl rfl rfl hlt)
  | leave hpc hend =>
    rw [hpc] at hok
    have hsize := h.carries.size
    have hcount := h.carries.count
    have hle := h.acked_le
    have hall : a = P.length := by omega
    exact hkeep (h.move (h.carries.goto .done ⟨hok.1, hok.2, hall⟩) rfl rfl rfl trivial)
  | closed hpc hmeet hzero =>
    rw [hpc] at hok
    have hall := h.carries.sentEnd_eq hok.2.1 hmeet
    have hopen := h.window hall.symm
    rw [hzero] at hopen
    exact absurd hopen (by decide)
  | skip hpc =>
    rw [hpc] at hok hplain
    exact hkeep (h.move (h.carries.goto .normal ⟨hok.1, hok.2.1⟩) rfl rfl rfl hplain)
  | probeBlocked hpc | probe _ _ hpc | probeAcked _ _ _ hpc | probeOn _ _ _ _ hpc =>
    rw [hpc] at hplain
    exact hplain.elim
  | crash hpc hsend hhead =>
    obtain ⟨-, -, htail, hpos⟩ := h.carries.sending_ok hpc hsend
    refine absurd hhead (h.head_ne_none hfits ?_)
    have hacked := h.carries.acked_le
    rw [Carries.sentEnd_of_unsent 0 htail] at hacked
    rw [WindowCall.nodes, nodesSize_append, nodesSize_cons, nodesSize_nil]
    omega
  | choose k hpc _ hsend =>
    rw [hpc] at hplain
    exact hkeep (h.move (h.carries.goto .sending (h.carries.sending_ok hpc hsend)) rfl rfl rfl
      hplain)
  | hold hpc =>
    rw [hpc] at hok hplain
    exact hkeep (h.move (h.carries.goto .zeroTest hok) rfl rfl rfl hplain)
  | sendBlocked _ hlost | ackBlocked _ _ _ _ hlost =>
    rw [hmtx] at hlost
    contradiction
  | send expectedAck hpc _ hack => exact hkeep (h.send hfits hpc hack)
  | debit expectedAck hpc => exact hkeep (h.debit hpc _)
  | allocate expectedAck hpc => exact hkeep (h.allocate hfits hpc)
  | windowZero hpc =>
    rw [hpc] at hok
    refine hkeep (h.move ?_ rfl rfl rfl trivial)
    have hdrain := h.carries.goto .drain hok
    exact ⟨hdrain.short, hdrain.chain, hdrain.base_le, hdrain.acked_le, hdrain.size, hdrain.count,
      hdrain.cum, hdrain.una, hdrain.before_sent, hdrain.positive, hdrain.index, hdrain.pcOk⟩
  | windowOpen hpc =>
    rw [hpc] at hok
    exact hkeep (h.move (h.carries.goto .drain hok) rfl rfl rfl trivial)
  | drained hpc =>
    rw [hpc] at hok
    exact hkeep (h.move (h.carries.goto .top hok) rfl rfl rfl trivial)
  | ack received more hpc hchan => exact h.ack hfits hpc hchan
  | repeated received more _ hchan _ hseen =>
    have hfresh := h.numbers.fresh received (by rw [hchan]; simp)
    rw [hfresh.2] at hseen
    exact absurd rfl hseen

/-- A retransmission changes nothing that matters here. -/
theorem resent (h : Sending first P entry a t) {k : ℕ}
    {result : NormalSocket × WindowCall × List Emission}
    (hresent : WindowCall.Resent t.sock t.call k result) :
    Sending first P entry a (t.update result) := by
  have hshape := hresent.shape
  have hclosed := hresent.closes
  have hend : result.2.1.sentEnd 0 = t.call.sentEnd 0 := by
    unfold WindowCall.sentEnd
    rw [nodesSize_congr hshape.sentNodes]
  have hmap : ∀ {β : Type} (f : UInt32 × List UInt8 × UInt32 → β),
      result.2.1.sentNodes.map (fun node => f node.shape) =
        t.call.sentNodes.map fun node => f node.shape := by
    intro β f
    have hboth := congrArg (List.map f) hshape.sentNodes
    rwa [List.map_map, List.map_map] at hboth
  refine ⟨(h.carries.resent hresent).1, ?_, ?_, ?_, ?_, ?_, ?_⟩
  · exact h.tail_pos.trans_eq hshape.tail_size.symm
  · have hplain := h.plain
    change Plain P a result.2.1 result.2.1.pc
    rw [hshape.pc]
    cases hpc : t.call.pc with
    | debit _ | allocate _ =>
      rw [hpc] at hplain
      exact hplain.trans_eq hend.symm
    | top | drain | done | probeTest | normal | sending | zeroTest | probeSend | probing
      | blocked | panicked =>
      rw [hpc] at hplain
      exact hplain
  · change a = result.2.1.sentEnd 0 → result.1.ClientWindowSize > 0
    rw [hend, hclosed.ClientWindowSize]
    exact h.window
  · change HeadOk result.2.1.nodes result.1.cumWriteUNA a result.2.1.head
    rw [hclosed.cumWriteUNA, hshape.head]
    exact h.head.congr hshape.nodes
  · change (firsts (t.emitted ++ result.2.2)).map sig = _
    rw [firsts_append, hresent.no_firsts, List.append_nil, h.sent]
    exact (hmap fun s => (s.1, s.2.1)).symm
  · have hacks := hmap fun s => s.2.2
    change Numbers entry a result.1 (result.2.1.sentNodes.map fun node => node.shape.2.2) t.arriving
    rw [hacks]
    exact h.numbers.congr hclosed.unackedNums hclosed.cumWriteUNA hclosed.unackedMtx
      hclosed.ackChan

/-- A pure acknowledgement arrives and its window is noted. -/
theorem arrive (h : Sending first P entry a t) {received : TCPInfo} (hnone : t.arriving = none)
    (hok : PureAcks t (.arrive received)) : Sending first P entry a (t.note received) := by
  obtain ⟨hflag, hpay, hopen, hzero, hnew⟩ := hok
  have hnote : t.sock.noteWindow received = t.sock.setWindow received.WindowSize := by
    unfold NormalSocket.noteWindow
    rw [if_pos hflag]
    rfl
  unfold Transfer.note
  rw [hnote]
  have hpending := h.numbers.fresh
  have hdistinct := h.numbers.distinct
  rw [hnone] at hpending hdistinct
  refine ⟨h.carries.of_same ⟨rfl, rfl, rfl⟩, h.tail_pos, h.plain, fun _ => hopen, h.head, h.sent,
    ⟨h.numbers.registered, h.numbers.processed, h.numbers.reached, h.numbers.mutex, ?_, ?_, ?_⟩⟩
  · intro r hr
    rcases List.mem_append.mp hr with hold | hself
    · exact hpending r (List.mem_append_left _ hold)
    · have heq : r = received := by simpa using hself
      rw [heq]
      exact ⟨hopen, hzero⟩
  · change ((t.sock.ackChan ++ [received]).map TCPInfo.AckNum).Nodup
    rw [List.map_append, List.nodup_append]
    rw [Option.toList_none, List.append_nil] at hdistinct
    refine ⟨hdistinct, by simp, ?_⟩
    intro ack hack ack' hack'
    obtain ⟨q, hq, rfl⟩ := List.mem_map.mp hack
    rw [List.map_singleton, List.mem_singleton] at hack'
    rw [hack']
    exact hnew q hq
  · intro r hr
    cases hr
    exact ⟨hflag, hpay⟩

/-- ReceiverThread passes the acknowledgement on, or takes it for that of a FIN. -/
theorem dispatch (h : Sending first P entry a t) {t' : Transfer}
    (hnext : t.step .dispatch = some t') : Sending first P entry a t' := by
  obtain ⟨received, sock', hsome, rfl, hcases⟩ := Transfer.step_dispatch hnext
  have hpending := h.numbers.fresh
  have hdistinct := h.numbers.distinct
  rw [hsome, Option.toList_some] at hpending hdistinct
  rcases hcases with hsame | ⟨-, -, -, rfl⟩
  · refine ⟨h.carries.of_same hsame.sameSending, h.tail_pos, h.plain, ?_, ?_, h.sent, ?_⟩
    · rw [hsame.ClientWindowSize]
      exact h.window
    · rw [hsame.cumWriteUNA]
      exact h.head
    · have hnumbers := h.numbers.congr hsame.unackedNums hsame.cumWriteUNA hsame.unackedMtx
        hsame.ackChan
      refine ⟨hnumbers.registered, hnumbers.processed, hnumbers.reached, hnumbers.mutex, ?_, ?_,
        by simp⟩
      · intro r hr
        rw [Option.toList_none, List.append_nil, hsame.ackChan] at hr
        rw [hsame.unackedNums]
        exact hpending r (List.mem_append_left _ hr)
      · rw [Option.toList_none, List.append_nil, hsame.ackChan]
        rw [List.map_append, List.nodup_append] at hdistinct
        exact hdistinct.1
  · refine ⟨h.carries.of_same ⟨rfl, rfl, rfl⟩, h.tail_pos, h.plain, h.window, h.head, h.sent,
      ⟨h.numbers.registered, h.numbers.processed, h.numbers.reached, h.numbers.mutex, ?_, ?_,
        by simp⟩⟩
    · intro r hr
      rw [Option.toList_none, List.append_nil] at hr
      exact hpending r hr
    · rw [Option.toList_none, List.append_nil]
      exact hdistinct

theorem step (h : Sending first P entry a t) (hfits : Fits first P entry) {e : TransferEvent}
    {t' : Transfer} (hok : PureAcks t e) (hnext : t.step e = some t') :
    ∃ a', a ≤ a' ∧ Sending first P entry a' t' := by
  cases e with
  | run =>
    obtain ⟨result, hrun, rfl⟩ := Option.map_eq_some_iff.mp hnext
    exact h.run hfits (WindowCall.run_step hrun)
  | timeout =>
    have hplain := h.plain
    cases hpc : t.call.pc with
    | probing =>
      rw [hpc] at hplain
      exact hplain.elim
    | _ => simp [Transfer.step, WindowCall.timeout, hpc] at hnext
  | tick =>
    obtain ⟨result, htick, rfl⟩ := Option.map_eq_some_iff.mp hnext
    obtain ⟨k, hresent, -⟩ := WindowCall.tick_resent htick
    exact ⟨a, Nat.le_refl _, h.resent hresent⟩
  | arrive received =>
    obtain ⟨hnone, rfl⟩ := Transfer.step_arrive hnext
    exact ⟨a, Nat.le_refl _, h.arrive hnone hok⟩
  | dispatch =>
    exact ⟨a, Nat.le_refl _, h.dispatch hnext⟩

/-- The packets sent first are the sent nodes, up to what a retransmission renews. -/
theorem first_of_node (h : Sending first P entry a t) {node : WindowNode}
    (hnode : node ∈ t.call.sentNodes) :
    ∃ p ∈ firsts t.emitted, sig p = sig node.packet ∧ endSeq p = node.expectedAck := by
  have hmem : sig node.packet ∈ (firsts t.emitted).map sig := by
    rw [h.sent]
    exact List.mem_map_of_mem hnode
  obtain ⟨p, hp, hsig⟩ := List.mem_map.mp hmem
  obtain ⟨rest, hchain⟩ := h.carries.sent_chain
  obtain ⟨o, -, -, hseq, hack, -⟩ := hchain.mem hnode
  refine ⟨p, hp, hsig, ?_⟩
  rw [endSeq_congr hsig, hack, endSeq, hseq, add_ofNat_add]
  rfl

theorem node_of_first (h : Sending first P entry a t) {p : TCPPacket}
    (hp : p ∈ firsts t.emitted) :
    ∃ node ∈ t.call.sentNodes, sig p = sig node.packet ∧ endSeq p = node.expectedAck := by
  have hmem : sig p ∈ t.call.sentNodes.map fun node => sig node.packet := by
    rw [← h.sent]
    exact List.mem_map_of_mem hp
  obtain ⟨node, hnode, hsig⟩ := List.mem_map.mp hmem
  obtain ⟨q, -, hq, hend⟩ := h.first_of_node hnode
  exact ⟨node, hnode, hsig.symm, (endSeq_congr (hsig.symm.trans hq.symm)).trans hend⟩

/-- A segment is acknowledged when `cumWriteUNA` has passed it. -/
theorem acked_iff (h : Sending first P entry a t) (hfits : Fits first P entry) {p : TCPPacket}
    (hp : p ∈ firsts t.emitted) : Acked t.sock p ↔ endSeq p ≤ t.sock.cumWriteUNA := by
  constructor
  · rintro ⟨ack, hprocessed, hle⟩
    exact UInt32.le_trans hle (h.numbers.processed ack hprocessed)
  · intro hle
    obtain ⟨node, hnode, -, hend⟩ := h.node_of_first hp
    obtain ⟨rest, hchain⟩ := h.carries.sent_chain
    obtain ⟨o, -, hhigh, -, hack, -⟩ := hchain.mem hnode
    have hpos := h.carries.positive node hnode
    have hlast := h.carries.sentEnd_le
    have hacked := h.acked_le
    have hup : o + node.size ≤ t.call.sentEnd 0 := hhigh
    have hoff := hle
    rw [hend, hack, h.carries.cum, offset_le_iff hfits.wrap (by omega) hacked] at hoff
    exact ⟨t.sock.cumWriteUNA, h.numbers.reached (by omega), hle⟩

/-- A node that `cumWriteUNA` has passed was sent. -/
theorem mem_sentNodes (h : Sending first P entry a t) (hfits : Fits first P entry)
    {node : WindowNode} (hnode : node ∈ t.call.nodes)
    (hle : node.expectedAck ≤ t.sock.cumWriteUNA) : node ∈ t.call.sentNodes := by
  unfold WindowCall.sentNodes
  cases htail : t.call.tail.sent with
  | true => exact hnode
  | false =>
    rcases List.mem_append.mp hnode with hbefore | hlast
    · exact hbefore
    · exfalso
      rw [List.mem_singleton.mp hlast, h.tail_number htail, h.carries.cum,
        offset_le_iff hfits.wrap (h.carries.unsent_le htail) h.acked_le] at hle
      have hpos := h.tail_pos
      have hacked := h.carries.acked_le
      omega

theorem sent_of_mem (h : Sending first P entry a t) {node : WindowNode}
    (hnode : node ∈ t.call.sentNodes) : node.sent = true := by
  unfold WindowCall.sentNodes at hnode
  split at hnode
  · rename_i htail
    rcases List.mem_append.mp hnode with hbefore | hlast
    · exact h.carries.before_sent node hbefore
    · rw [List.mem_singleton.mp hlast]
      exact htail
  · exact h.carries.before_sent node hnode

/-- `cumWriteUNA` has passed every node that `head` has. -/
theorem dropped_le (h : Sending first P entry a t) {k : ℕ} {node : WindowNode}
    (hnode : t.call.nodes[k]? = some node) (hdropped : Dropped t.call k) :
    node.expectedAck ≤ t.sock.cumWriteUNA := by
  have hlt := (List.getElem?_eq_some_iff.mp hnode).1
  have hself : expectedAckAt t.call.nodes (k + 1) = node.expectedAck := by
    simp [expectedAckAt, hnode]
  rw [← hself]
  rcases h.head with ⟨hdummy, -⟩ | huncovered
  · have hcontra := hdropped 0 hdummy
    omega
  · unfold Uncovered at huncovered
    split at huncovered
    · exact huncovered (k + 1) (Nat.zero_le _) hlt
    · rename_i j hhead
      exact huncovered.2.1 (k + 1) (Nat.zero_le _) (hdropped j hhead)

theorem mem_nodes {call : WindowCall} {node : WindowNode} (hnode : node ∈ call.sentNodes) :
    node ∈ call.nodes := by
  unfold WindowCall.sentNodes at hnode
  split at hnode
  · exact hnode
  · exact List.mem_append_left _ hnode

theorem mem_of_sent {call : WindowCall} {node : WindowNode} (hnode : node ∈ call.nodes)
    (hsent : node.sent = true) : node ∈ call.sentNodes := by
  unfold WindowCall.sentNodes
  split
  · exact hnode
  · rename_i htail
    rcases List.mem_append.mp hnode with hbefore | hlast
    · exact hbefore
    · rw [List.mem_singleton.mp hlast] at hsent
      exact absurd hsent htail

/-- The node that the retransmission thread looks at is the first one not acknowledged. -/
theorem target_first (h : Sending first P entry a t) (hfits : Fits first P entry) {k : ℕ}
    (htarget : t.call.target = some k) :
    (∀ j node, j < k → t.call.nodes[j]? = some node → node.expectedAck ≤ t.sock.cumWriteUNA) ∧
      ∀ node, t.call.nodes[k]? = some node → node ∈ t.call.sentNodes →
        t.sock.cumWriteUNA < node.expectedAck := by
  have hat : ∀ {j node}, t.call.nodes[j]? = some node →
      expectedAckAt t.call.nodes (j + 1) = node.expectedAck := by
    intro j node hnode
    simp [expectedAckAt, hnode]
  obtain ⟨j, hhead, hk⟩ := Option.map_eq_some_iff.mp htarget
  rcases h.head with ⟨hdummy, hzero⟩ | huncovered
  · rw [hhead, Option.some.injEq] at hdummy
    subst hdummy
    have hk0 : k = 0 := by
      rw [← hk]
      exact if_neg (by simp [expectedAckAt])
    subst hk0
    refine ⟨by omega, ?_⟩
    intro node hnode hsent
    obtain ⟨rest, hchain⟩ := h.carries.sent_chain
    obtain ⟨o, -, hhigh, -, hack, -⟩ := hchain.mem hsent
    have hpos := h.carries.positive node hsent
    have hlast := h.carries.sentEnd_le
    have hup : o + node.size ≤ t.call.sentEnd 0 := hhigh
    rw [hack, h.carries.cum, ← UInt32.not_le, offset_le_iff hfits.wrap (by omega) (by omega)]
    omega
  · rw [hhead] at huncovered
    obtain ⟨-, hbelow, habove⟩ := huncovered
    have hnonzero : expectedAckAt t.call.nodes j ≠ 0 := by
      intro hzero
      rw [hzero] at habove
      simp at habove
    rw [if_pos hnonzero] at hk
    obtain ⟨i, rfl⟩ : ∃ i, j = i + 1 := by
      cases j with
      | zero => exact absurd rfl hnonzero
      | succ i => exact ⟨i, rfl⟩
    have hki : k = i := hk.symm
    subst hki
    constructor
    · intro j node hj hnode
      rw [← hat hnode]
      exact hbelow (j + 1) (Nat.zero_le _) (by omega)
    · intro node hnode _
      rw [← hat hnode]
      exact habove

/-- A retransmission is the lowest segment that is sent and not acknowledged. -/
theorem resends_lowest (h : Sending first P entry a t) (hfits : Fits first P entry) {k : ℕ}
    {result : NormalSocket × WindowCall × List Emission}
    (hresent : WindowCall.Resent t.sock t.call k result)
    (htarget : result.2.2 = [] ∨ t.call.target = some k) {m : Emission} (hm : m ∈ result.2.2)
    (hkind : m.kind ≠ .fin) :
    ∃ p ∈ firsts t.emitted, sig m.packet = sig p ∧ ¬ Acked t.sock p ∧
      ∀ q ∈ firsts t.emitted, ¬ Acked t.sock q → p.seqNum ≤ q.seqNum := by
  obtain ⟨-, node, hnode, hflag, hpacket⟩ := hresent.out m hm hkind
  have hsent := mem_of_sent (List.mem_of_getElem? hnode) hflag
  have htarget' := htarget.resolve_left (List.ne_nil_of_mem hm)
  obtain ⟨hlower, hself⟩ := h.target_first hfits htarget'
  obtain ⟨p, hp, hsig, hend⟩ := h.first_of_node hsent
  refine ⟨p, hp, ?_, ?_, ?_⟩
  · rw [hpacket, hsig]
    rfl
  · rw [h.acked_iff hfits hp, hend, UInt32.not_le]
    exact hself node hnode hsent
  · intro q hq hacked
    rw [h.acked_iff hfits hq] at hacked
    obtain ⟨other, hother, hsigq, hendq⟩ := h.node_of_first hq
    obtain ⟨j, hj⟩ := List.getElem?_of_mem (mem_nodes hother)
    have hkj : k ≤ j := by
      by_contra hlt
      exact hacked (hendq ▸ hlower j other (Nat.lt_of_not_le hlt) hj)
    have hlen := h.carries.chain.length
    rw [List.drop_zero] at hlen
    have hall : ∀ i, nodesSize (t.call.nodes.take i) ≤ P.length := by
      intro i
      have hle := nodesSize_take_le t.call.nodes (Nat.le_max_left i t.call.nodes.length)
      rw [List.take_of_length_le (Nat.le_max_right i t.call.nodes.length)] at hle
      omega
    have hp' : p.seqNum = node.packet.seqNum := congrArg Prod.fst hsig
    have hq' : q.seqNum = other.packet.seqNum := congrArg Prod.fst hsigq
    rw [hp', hq', (h.carries.chain.at_index hnode).1, (h.carries.chain.at_index hj).1,
      Nat.zero_add, Nat.zero_add, offset_le_iff hfits.wrap (hall k) (hall j)]
    exact nodesSize_take_le t.call.nodes hkj

/-- The last byte is acknowledged when its number has been processed. -/
theorem last_iff (h : Sending first P entry a t) (hfits : Fits first P entry) (hne : P ≠ []) :
    Processed t.sock (first + UInt32.ofNat P.length) ↔ a = P.length := by
  have hle := h.acked_le
  constructor
  · intro hlast
    have hcum := h.numbers.processed _ hlast
    rw [h.carries.cum, offset_le_iff hfits.wrap (Nat.le_refl _) hle] at hcum
    omega
  · intro hall
    have hpos := List.length_pos_of_ne_nil hne
    have hreached := h.numbers.reached (by omega)
    rw [h.carries.cum, hall] at hreached
    exact hreached

/-- At the head of the loop the thread leaves when all is acknowledged, and only then. -/
theorem leaves_iff (h : Sending first P entry a t) (hpc : t.call.pc = .top) :
    (∃ t', t.step .run = some t' ∧ t'.call.pc = .done) ↔ a = P.length := by
  have hsize := h.carries.size
  have hcount := h.carries.count
  have hle := h.acked_le
  simp only [Transfer.step, WindowCall.run, hpc]
  split
  · rename_i hmore
    constructor
    · rintro ⟨t', hnext, hdone⟩
      split at hnext
      · simp at hnext
      · cases hnext
        simp [Transfer.update, WindowCall.goto] at hdone
    · intro hall
      omega
  · constructor
    · intro _
      omega
    · intro _
      exact ⟨_, rfl, rfl⟩

/-- Once all is acknowledged, the thread is about to leave. -/
theorem late (h : Sending first P entry a t) (hall : a = P.length) :
    t.call.pc = .drain ∨ t.call.pc = .top ∨ t.call.pc = .done := by
  have hplain := h.plain
  cases hpc : t.call.pc with
  | drain => exact Or.inl rfl
  | top => exact Or.inr (Or.inl rfl)
  | done => exact Or.inr (Or.inr rfl)
  | debit | allocate =>
    rw [hpc] at hplain
    have hend := h.carries.sentEnd_le
    have hlt : a < t.call.sentEnd 0 := hplain
    omega
  | probeTest | normal | sending | zeroTest =>
    rw [hpc] at hplain
    have hlt : a < P.length := hplain
    omega
  | probeSend | probing | blocked | panicked =>
    rw [hpc] at hplain
    exact hplain.elim

theorem processAck_ackChan (sock : NormalSocket) (call : WindowCall) (received : TCPInfo) :
    (call.processAck sock received).1.ackChan = sock.ackChan := by
  unfold WindowCall.processAck
  simp only
  split <;> rfl

/-- Then it empties the channel and leaves. -/
theorem runs_out (hfits : Fits first P entry) (pending : List TCPInfo)
    (h : Sending first P entry a t) (hall : a = P.length) (hchan : t.sock.ackChan = pending) :
    ∃ t', Reach Transfer.step (fun _ e => e = .run) t t' ∧ t'.call.pc = .done := by
  induction pending generalizing a t with
  | nil =>
    rcases h.late hall with hpc | hpc | hpc
    · have hnext : t.step .run = some (t.update (t.sock, t.call.goto .top, [])) := by
        simp [Transfer.step, WindowCall.run, hpc, hchan]
      obtain ⟨a', haa', hsending⟩ := h.step hfits (e := .run) trivial hnext
      have hle := hsending.acked_le
      obtain ⟨t', hlast, hdone⟩ := (hsending.leaves_iff rfl).mpr (by omega)
      exact ⟨t', Reach.tail .run (Reach.tail .run Reach.refl rfl hnext) rfl hlast, hdone⟩
    · obtain ⟨t', hnext, hdone⟩ := (h.leaves_iff hpc).mpr hall
      exact ⟨t', Reach.tail .run Reach.refl rfl hnext, hdone⟩
    · exact ⟨t, Reach.refl, hpc⟩
  | cons received more ih =>
    rcases h.late hall with hpc | hpc | hpc
    · have hfresh := (h.numbers.fresh received (by rw [hchan]; simp)).2
      have hmtx := h.numbers.mutex
      have hnext : t.step .run = some (t.update
          ((t.call.processAck { t.sock with ackChan := more } received).1,
            (t.call.processAck { t.sock with ackChan := more } received).2, [])) := by
        simp [Transfer.step, WindowCall.run, hpc, hchan, WindowCall.drainOne, hmtx, hfresh]
      obtain ⟨a', haa', hsending⟩ := h.step hfits (e := .run) trivial hnext
      have hle := hsending.acked_le
      obtain ⟨t', hreach, hdone⟩ := ih hsending (by omega) (processAck_ackChan _ _ _)
      exact ⟨t', Reach.trans (Reach.tail TransferEvent.run Reach.refl rfl hnext) hreach, hdone⟩
    · obtain ⟨t', hnext, hdone⟩ := (h.leaves_iff hpc).mpr hall
      exact ⟨t', Reach.tail .run Reach.refl rfl hnext, hdone⟩
    · exact ⟨t, Reach.refl, hpc⟩

theorem start {sock : NormalSocket} {packet : TCPPacket} (hready : Ready sock)
    (hne : packet.payload ≠ []) (hshort : packet.payload.length ≤ 65535) :
    Sending sock.cumWriteUNA packet.payload sock.unackedNums 0 (Transfer.start sock packet) := by
  have hpos := List.length_pos_of_ne_nil hne
  have hopen := UInt16.lt_iff_toNat_lt.mp hready.window
  have hval : mss = 1360 := rfl
  refine ⟨?_, ?_, trivial, fun _ => hready.window, Or.inl ⟨rfl, rfl⟩, rfl, ?_⟩
  · exact Carries.start hshort (Nat.zero_le _) rfl (UInt32.add_zero _).symm hready.una hready.nxt
  · change 0 < (packet.payload.take _).length
    rw [List.length_take]
    simp only [UInt16.reduceToNat] at hopen
    omega
  · refine ⟨?_, ?_, by omega, hready.mutex, ?_, ?_, ?_⟩
    · intro ack
      simp [Transfer.start, NormalSocket.slidingWindow, WindowCall.sentNodes]
    · rintro ack ⟨c, hc⟩
      exact hready.registered ack (by rw [show sock.unackedNums ack = some (c + 1) from hc]; rfl)
    · change ∀ r ∈ sock.ackChan ++ [], _
      rw [List.append_nil]
      exact hready.fresh
    · change ((sock.ackChan ++ []).map TCPInfo.AckNum).Nodup
      rw [List.append_nil]
      exact hready.distinct
    · intro r hr
      simp [Transfer.start] at hr

/-- The socket that a call leaves is one that the next call may start on. -/
theorem ready (h : Sending first P entry a t) (hfits : Fits first P entry)
    (hpc : t.call.pc = .done) : Ready t.sock := by
  have hok := h.carries.pcOk
  rw [hpc] at hok
  obtain ⟨-, hnxt, hall⟩ := hok
  have hend := h.carries.sentEnd_le
  have hacked := h.carries.acked_le
  have hsame : t.call.sentEnd 0 = a := by omega
  refine ⟨h.carries.una, ?_, h.window hsame.symm, ?_, ?_, ?_, h.numbers.mutex⟩
  · rw [hsame] at hnxt
    rw [h.carries.una, h.carries.cum]
    exact hnxt
  · intro ack hreg
    by_contra hnot
    obtain ⟨off, hlow, hoff, -⟩ := h.ahead_offset hfits hreg (UInt32.not_le.mp hnot)
    omega
  · intro r hr
    exact h.numbers.fresh r (List.mem_append_left _ hr)
  · have hdistinct := h.numbers.distinct
    rw [List.map_append, List.nodup_append] at hdistinct
    exact hdistinct.1

end Sending

/-- What slidingWindow, called on `sock` and `packet`, has done when `t` is reached. -/
structure Exact (sock : NormalSocket) (packet : TCPPacket) (t : Transfer) : Prop where
  contiguous : Contiguous sock.cumWriteUNA (firsts t.emitted)
  front : ((firsts t.emitted).map TCPPacket.payload).flatten <+: packet.payload
  registered : ∀ ack, (t.sock.unackedNums ack).isSome ↔
    (sock.unackedNums ack).isSome ∨ ∃ p ∈ firsts t.emitted, ack = endSeq p
  dropped : ∀ k node, t.call.nodes[k]? = some node → Dropped t.call k → node.sent = true ∧
    ∃ p ∈ firsts t.emitted, sig p = sig node.packet ∧ Acked t.sock p
  never_nil : t.call.pc ≠ .panicked
  resends : ∀ t', t.step .tick = some t' → ∃ out, t'.emitted = t.emitted ++ out ∧
    ∀ m ∈ out, m.kind ≠ .fin → ∃ p ∈ firsts t.emitted, sig m.packet = sig p ∧
      ¬ Acked t.sock p ∧ ∀ q ∈ firsts t.emitted, ¬ Acked t.sock q → p.seqNum ≤ q.seqNum
  leaves : t.call.pc = .top → ((∃ t', t.step .run = some t' ∧ t'.call.pc = .done) ↔
    Processed t.sock (sock.cumWriteUNA + UInt32.ofNat packet.payload.length))
  ends : Processed t.sock (sock.cumWriteUNA + UInt32.ofNat packet.payload.length) →
    ∃ t', Reach Transfer.step (fun _ e => e = .run) t t' ∧ t'.call.pc = .done
  done : t.call.pc = .done →
    Processed t.sock (sock.cumWriteUNA + UInt32.ofNat packet.payload.length) ∧
      t.sock.cumWriteUNA = sock.cumWriteUNA + UInt32.ofNat packet.payload.length ∧ Ready t.sock

theorem Sending.exact {sock : NormalSocket} {packet : TCPPacket} {a : ℕ} {t : Transfer}
    (h : Sending sock.cumWriteUNA packet.payload sock.unackedNums a t)
    (hfits : Fits sock.cumWriteUNA packet.payload sock.unackedNums) (hne : packet.payload ≠ []) :
    Exact sock packet t := by
  obtain ⟨rest, hchain⟩ := h.carries.sent_chain
  obtain ⟨hcontiguous, hflat⟩ := contiguous_of_chain hchain h.carries.positive h.sent
  constructor
  · rw [← UInt32.add_zero sock.cumWriteUNA]
    exact hcontiguous
  · rw [List.drop_zero] at hflat
    exact ⟨rest, hflat⟩
  · intro ack
    rw [h.numbers.registered ack]
    refine or_congr Iff.rfl ?_
    constructor
    · intro hack
      obtain ⟨node, hnode, rfl⟩ := List.mem_map.mp hack
      obtain ⟨p, hp, -, hend⟩ := h.first_of_node hnode
      exact ⟨p, hp, hend.symm⟩
    · rintro ⟨p, hp, rfl⟩
      obtain ⟨node, hnode, -, hend⟩ := h.node_of_first hp
      rw [hend]
      exact List.mem_map_of_mem hnode
  · intro k node hnode hdropped
    have hle := h.dropped_le hnode hdropped
    have hsent := h.mem_sentNodes hfits (List.mem_of_getElem? hnode) hle
    obtain ⟨p, hp, hsig, hend⟩ := h.first_of_node hsent
    rw [← hend] at hle
    exact ⟨h.sent_of_mem hsent, p, hp, hsig, (h.acked_iff hfits hp).mpr hle⟩
  · intro hpc
    have hplain := h.plain
    rw [hpc] at hplain
    exact hplain
  · intro t' hnext
    obtain ⟨result, htick, rfl⟩ := Option.map_eq_some_iff.mp hnext
    obtain ⟨k, hresent, htarget⟩ := WindowCall.tick_resent htick
    exact ⟨result.2.2, rfl, fun m hm hkind => h.resends_lowest hfits hresent htarget hm hkind⟩
  · intro hpc
    exact (h.leaves_iff hpc).trans (h.last_iff hfits hne).symm
  · intro hlast
    exact Sending.runs_out hfits t.sock.ackChan h ((h.last_iff hfits hne).mp hlast) rfl
  · intro hpc
    have hok := h.carries.pcOk
    rw [hpc] at hok
    refine ⟨(h.last_iff hfits hne).mpr hok.2.2, ?_, h.ready hfits hpc⟩
    rw [h.carries.cum, hok.2.2]

/-- Against a peer that acknowledges registered numbers with an open window, slidingWindow
transmits its payload exactly and ends when the last byte is acknowledged. -/
theorem payload_transmitted_exactly {sock : NormalSocket} {packet : TCPPacket} {t : Transfer}
    (hready : Ready sock) (hne : packet.payload ≠ []) (hshort : packet.payload.length ≤ 65535)
    (hwrap : sock.cumWriteUNA.toNat + packet.payload.length < 4294967296)
    (hreach : Reach Transfer.step PureAcks (Transfer.start sock packet) t) :
    Exact sock packet t := by
  have hfits : Fits sock.cumWriteUNA packet.payload sock.unackedNums :=
    ⟨hwrap, hready.registered⟩
  have hinv : ∃ a, Sending sock.cumWriteUNA packet.payload sock.unackedNums a t := by
    refine hreach.invariant (fun t => ∃ a, Sending _ _ _ a t)
      ⟨0, Sending.start hready hne hshort⟩ ?_
    rintro s e s' ⟨a, hs⟩ hok hnext
    obtain ⟨a', -, hs'⟩ := hs.step hfits hok hnext
    exact ⟨a', hs'⟩
  obtain ⟨a, hsending⟩ := hinv
  exact hsending.exact hfits hne

def sampleSocket : NormalSocket := newSocket sampleKey 100 200 2

def samplePacket : TCPPacket := sampleSocket.segment tcpFlagAck 101 [1, 2, 3, 4, 5]

def sampleRun : List TransferEvent :=
  List.replicate 8 .run ++ [.arrive (Transfer.sampleAck 103 10), .tick, .dispatch] ++
    List.replicate 9 .run ++ [.arrive (Transfer.sampleAck 106 10), .dispatch] ++
    List.replicate 7 .run

theorem sampleSocket_ready : Ready sampleSocket where
  una := by decide
  nxt := rfl
  window := by decide
  registered := by
    intro ack hack
    simp [sampleSocket, newSocket] at hack
  fresh := by
    intro r hr
    simp [sampleSocket, newSocket] at hr
  distinct := List.nodup_nil
  mutex := rfl

theorem payload_transmitted_exactly_in_two_segments :
    ∃ t, Reach Transfer.step PureAcks (Transfer.start sampleSocket samplePacket) t ∧
      (t.call.pc = .done ∧ t.emitted.map Emission.kind = [.first, .retransmission, .first]) ∧
      Exact sampleSocket samplePacket t := by
  obtain ⟨t, hreach, hdone⟩ := exists_reach Transfer.step PureAcks
    (Transfer.start sampleSocket samplePacket)
    (fun t => t.call.pc = .done ∧
      t.emitted.map Emission.kind = [.first, .retransmission, .first]) sampleRun (by decide)
  exact ⟨t, hreach, hdone, payload_transmitted_exactly sampleSocket_ready (by decide) (by decide)
    (by decide) hreach⟩

end IpTcp.Transmission
