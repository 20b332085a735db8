import IpTcp.SenderRuns

/-!
The window nodes of one call as a chain of segments. Each node starts where the
one before it ends, numbers its first byte by its offset in the payload, and
expects the number behind its last byte. Retransmission renews the
acknowledgement and the window of a packet only, which the chain does not look at.
-/
namespace IpTcp

namespace WindowNode

def size (node : WindowNode) : ℕ := node.packet.payload.length

def shape (node : WindowNode) : UInt32 × List UInt8 × UInt32 :=
  (node.packet.seqNum, node.packet.payload, node.expectedAck)

end WindowNode

def nodesSize (nodes : List WindowNode) : ℕ := (nodes.map WindowNode.size).sum

@[simp] theorem nodesSize_nil : nodesSize [] = 0 := rfl

@[simp] theorem nodesSize_cons (node : WindowNode) (nodes : List WindowNode) :
    nodesSize (node :: nodes) = node.size + nodesSize nodes := by
  simp [nodesSize]

@[simp] theorem nodesSize_append (xs ys : List WindowNode) :
    nodesSize (xs ++ ys) = nodesSize xs + nodesSize ys := by
  simp [nodesSize]

theorem nodesSize_take_le (nodes : List WindowNode) {j k : ℕ} (hjk : j ≤ k) :
    nodesSize (nodes.take j) ≤ nodesSize (nodes.take k) := by
  induction nodes generalizing j k with
  | nil => simp
  | cons node more ih =>
    cases j with
    | zero => simp
    | succ j =>
      cases k with
      | zero => omega
      | succ k =>
        have hle := ih (Nat.le_of_succ_le_succ hjk)
        simp only [List.take_succ_cons, nodesSize_cons]
        omega

/-- The nodes carry the front of `bytes`, whose first byte is the one at `off`, and
leave `rest`. The byte at offset 0 has the number `first`. -/
def Chain (first : UInt32) : ℕ → List UInt8 → List WindowNode → List UInt8 → Prop
  | _, bytes, [], rest => bytes = rest
  | off, bytes, node :: more, rest =>
      node.packet.seqNum = first + UInt32.ofNat off ∧
        node.expectedAck = first + UInt32.ofNat (off + node.size) ∧ node.size ≤ mss ∧
        node.packet.payload <+: bytes ∧
        Chain first (off + node.size) (bytes.drop node.size) more rest

namespace Chain

variable {first : UInt32} {off : ℕ} {bytes mid rest : List UInt8} {nodes xs ys : List WindowNode}

theorem append (h : Chain first off bytes xs mid)
    (h' : Chain first (off + nodesSize xs) mid ys rest) :
    Chain first off bytes (xs ++ ys) rest := by
  induction xs generalizing off bytes with
  | nil =>
    cases h
    exact h'
  | cons node more ih =>
    obtain ⟨hseq, hack, hmss, hfront, hmore⟩ := h
    refine ⟨hseq, hack, hmss, hfront, ih hmore ?_⟩
    rw [nodesSize_cons, ← Nat.add_assoc] at h'
    exact h'

theorem split (h : Chain first off bytes (xs ++ ys) rest) :
    ∃ mid, Chain first off bytes xs mid ∧ Chain first (off + nodesSize xs) mid ys rest := by
  induction xs generalizing off bytes with
  | nil => exact ⟨bytes, rfl, h⟩
  | cons node more ih =>
    obtain ⟨hseq, hack, hmss, hfront, hmore⟩ := h
    obtain ⟨mid, hxs, hys⟩ := ih hmore
    refine ⟨mid, ⟨hseq, hack, hmss, hfront, hxs⟩, ?_⟩
    rw [nodesSize_cons, ← Nat.add_assoc]
    exact hys

theorem length (h : Chain first off bytes nodes rest) :
    bytes.length = nodesSize nodes + rest.length := by
  induction nodes generalizing off bytes with
  | nil =>
    cases h
    simp
  | cons node more ih =>
    obtain ⟨-, -, -, hfront, hmore⟩ := h
    have hle := hfront.length_le
    have hmore' := ih hmore
    rw [List.length_drop] at hmore'
    rw [nodesSize_cons]
    unfold WindowNode.size at hmore' ⊢
    omega

theorem rest_eq (h : Chain first off bytes nodes rest) : rest = bytes.drop (nodesSize nodes) := by
  induction nodes generalizing off bytes with
  | nil => exact h.symm
  | cons node more ih =>
    obtain ⟨-, -, -, -, hmore⟩ := h
    rw [ih hmore, List.drop_drop, nodesSize_cons]

/-- Every node lies at some offset of the chain. -/
theorem mem (h : Chain first off bytes nodes rest) {node : WindowNode} (hnode : node ∈ nodes) :
    ∃ o, off ≤ o ∧ o + node.size ≤ off + nodesSize nodes ∧
      node.packet.seqNum = first + UInt32.ofNat o ∧
      node.expectedAck = first + UInt32.ofNat (o + node.size) ∧ node.size ≤ mss ∧
      node.packet.payload = (bytes.drop (o - off)).take node.size := by
  induction nodes generalizing off bytes with
  | nil => simp at hnode
  | cons head more ih =>
    obtain ⟨hseq, hack, hmss, hfront, hmore⟩ := h
    rcases List.mem_cons.mp hnode with heq | hmem
    · subst heq
      refine ⟨off, Nat.le_refl _, by simp, hseq, hack, hmss, ?_⟩
      rw [Nat.sub_self, List.drop_zero]
      exact List.prefix_iff_eq_take.mp hfront
    · obtain ⟨o, hlow, hhigh, hseq', hack', hmss', hpay⟩ := ih hmore hmem
      refine ⟨o, by omega, ?_, hseq', hack', hmss', ?_⟩
      · rw [nodesSize_cons]
        omega
      · rw [hpay, List.drop_drop, show head.size + (o - (off + head.size)) = o - off by omega]

/-- Node `k` starts behind the nodes before it. -/
theorem at_index (h : Chain first off bytes nodes rest) {k : ℕ} {node : WindowNode}
    (hnode : nodes[k]? = some node) :
    node.packet.seqNum = first + UInt32.ofNat (off + nodesSize (nodes.take k)) ∧
      node.expectedAck = first + UInt32.ofNat (off + nodesSize (nodes.take (k + 1))) ∧
      nodesSize (nodes.take (k + 1)) = nodesSize (nodes.take k) + node.size := by
  induction nodes generalizing off bytes k with
  | nil => simp at hnode
  | cons head more ih =>
    obtain ⟨hseq, hack, -, -, hmore⟩ := h
    cases k with
    | zero =>
      simp only [List.getElem?_cons_zero, Option.some.injEq] at hnode
      subst hnode
      simp only [List.take_zero, List.take_succ_cons, nodesSize_nil, nodesSize_cons, Nat.add_zero,
        Nat.zero_add]
      exact ⟨hseq, hack, trivial⟩
    | succ k =>
      rw [List.getElem?_cons_succ] at hnode
      obtain ⟨hseq', hack', hsum⟩ := ih hmore hnode
      simp only [List.take_succ_cons, nodesSize_cons, ← Nat.add_assoc]
      refine ⟨hseq', hack', ?_⟩
      omega

theorem congr (h : Chain first off bytes xs rest)
    (hshape : ys.map WindowNode.shape = xs.map WindowNode.shape) :
    Chain first off bytes ys rest := by
  induction xs generalizing off bytes ys with
  | nil =>
    simp only [List.map_nil, List.map_eq_nil_iff] at hshape
    subst hshape
    exact h
  | cons node more ih =>
    cases ys with
    | nil => simp at hshape
    | cons node' more' =>
      obtain ⟨hseq, hack, hmss, hfront, hmore⟩ := h
      simp only [List.map_cons, List.cons.injEq, WindowNode.shape, Prod.mk.injEq] at hshape
      obtain ⟨⟨hseq', hpay', hack'⟩, hrest⟩ := hshape
      have hsize : node'.size = node.size := by
        unfold WindowNode.size
        rw [hpay']
      refine ⟨hseq'.trans hseq, ?_, ?_, ?_, ?_⟩
      · rw [hack', hack, hsize]
      · rw [hsize]
        exact hmss
      · rw [hpay']
        exact hfront
      · rw [hsize]
        exact ih hmore hrest

end Chain

theorem nodesSize_congr {xs ys : List WindowNode}
    (hshape : ys.map WindowNode.shape = xs.map WindowNode.shape) : nodesSize ys = nodesSize xs := by
  have hsizes : ∀ l : List WindowNode,
      l.map WindowNode.size = (l.map WindowNode.shape).map (fun s => s.2.1.length) := by
    intro l
    rw [List.map_map]
    rfl
  unfold nodesSize
  rw [hsizes, hsizes, hshape]

namespace WindowCall

/-- The nodes whose segment was sent: all of them, or all but the last. -/
def sentNodes (call : WindowCall) : List WindowNode :=
  if call.tail.sent then call.nodes else call.before

def Renews (f : TCPPacket → TCPPacket) : Prop :=
  ∀ p, (f p).seqNum = p.seqNum ∧ (f p).payload = p.payload

theorem refresh_renews (sock : NormalSocket) : Renews (refresh sock) := fun _ => ⟨rfl, rfl⟩

theorem shape_modifyPacket {f : TCPPacket → TCPPacket} (hf : Renews f) (node : WindowNode) :
    (modifyPacket f node).shape = node.shape := by
  obtain ⟨hseq, hpay⟩ := hf node.packet
  simp [WindowNode.shape, modifyPacket, hseq, hpay]

theorem map_modify {β : Type*} {f : TCPPacket → TCPPacket} (g : WindowNode → β)
    (hg : ∀ node, g (modifyPacket f node) = g node) (nodes : List WindowNode) (k : ℕ) :
    (nodes.modify k (modifyPacket f)).map g = nodes.map g := by
  induction nodes generalizing k with
  | nil => cases k <;> rfl
  | cons node more ih =>
    cases k with
    | zero => simp [hg]
    | succ k => simp [ih]

/-- A retransmission leaves alone the shapes of the nodes, what was sent and the
variables of slidingWindow itself. -/
structure SameShape (call call' : WindowCall) : Prop where
  before : call'.before.map WindowNode.shape = call.before.map WindowNode.shape
  before_sent : call'.before.map WindowNode.sent = call.before.map WindowNode.sent
  tail : call'.tail.shape = call.tail.shape
  tail_sent : call'.tail.sent = call.tail.sent
  payloadIndex : call'.tail.payloadIndex = call.tail.payloadIndex
  packet : call'.packet = call.packet
  payloadSize : call'.payloadSize = call.payloadSize
  bytesToSend : call'.bytesToSend = call.bytesToSend
  bytesSent : call'.bytesSent = call.bytesSent
  head : call'.head = call.head
  pc : call'.pc = call.pc

theorem sameShape_updatePacket {f : TCPPacket → TCPPacket} (hf : Renews f) (call : WindowCall)
    (k : ℕ) (last_index : UInt32) (cnt : ℕ) (winLock : Bool) :
    SameShape call { call.updatePacket k f with
      last_index := last_index, cnt := cnt, winLock := winLock } := by
  unfold updatePacket
  split
  · exact ⟨map_modify _ (shape_modifyPacket hf) _ _, map_modify _ (fun _ => rfl) _ _, rfl, rfl, rfl,
      rfl, rfl, rfl, rfl, rfl, rfl⟩
  · exact ⟨rfl, rfl, shape_modifyPacket hf _, rfl, rfl, rfl, rfl, rfl, rfl, rfl, rfl⟩

namespace SameShape

variable {call call' : WindowCall}

theorem nodes (h : SameShape call call') :
    call'.nodes.map WindowNode.shape = call.nodes.map WindowNode.shape := by
  simp [WindowCall.nodes, h.before, h.tail]

theorem all_sent (h : SameShape call call') (hsent : ∀ node ∈ call.before, node.sent = true) :
    ∀ node ∈ call'.before, node.sent = true := by
  have hall : ∀ b ∈ call'.before.map WindowNode.sent, b = true := by
    rw [h.before_sent]
    simpa using hsent
  simpa using hall

theorem sentNodes (h : SameShape call call') :
    call'.sentNodes.map WindowNode.shape = call.sentNodes.map WindowNode.shape := by
  unfold WindowCall.sentNodes
  rw [h.tail_sent]
  split
  · exact h.nodes
  · exact h.before

theorem tail_size (h : SameShape call call') : call'.tail.size = call.tail.size :=
  congrArg (fun s => s.2.1.length) h.tail

end SameShape

end WindowCall

/-- The part of a socket that slidingWindow works on. -/
structure SameSending (sock sock' : NormalSocket) : Prop where
  writeBuffer : sock'.writeBuffer = sock.writeBuffer
  cumWriteUNA : sock'.cumWriteUNA = sock.cumWriteUNA
  baseSeq : sock'.baseSeq = sock.baseSeq

theorem NormalSocket.Receives.sameSending {sock sock' : NormalSocket}
    (h : NormalSocket.Receives sock sock') : SameSending sock sock' :=
  ⟨h.writeBuffer, h.cumWriteUNA, h.baseSeq⟩

/-- VClose changes the connection state and the numbers of FINs only. -/
structure Closes (sock sock' : NormalSocket) : Prop extends SameSending sock sock' where
  ClientWindowSize : sock'.ClientWindowSize = sock.ClientWindowSize
  ackChan : sock'.ackChan = sock.ackChan
  unackedNums : sock'.unackedNums = sock.unackedNums
  unackedMtx : sock'.unackedMtx = sock.unackedMtx

theorem Closes.refl (sock : NormalSocket) : Closes sock sock :=
  ⟨⟨rfl, rfl, rfl⟩, rfl, rfl, rfl, rfl⟩

theorem vClose_closes (sock : NormalSocket) : Closes sock sock.vClose.1 := by
  unfold NormalSocket.vClose NormalSocket.commitClose
  split
  · exact Closes.refl sock
  · simp only
    split
    · exact Closes.refl sock
    · split
      · exact ⟨⟨rfl, rfl, rfl⟩, rfl, rfl, rfl, rfl⟩
      · exact ⟨⟨rfl, rfl, rfl⟩, rfl, rfl, rfl, rfl⟩

namespace WindowCall

def target (call : WindowCall) : Option ℕ :=
  call.head.map fun k => if expectedAckAt call.nodes k ≠ 0 then k - 1 else k

/-- What a retransmission of node `k` leaves behind. -/
structure Resent (sock : NormalSocket) (call : WindowCall) (k : ℕ)
    (result : NormalSocket × WindowCall × List Emission) : Prop where
  closes : Closes sock result.1
  shape : SameShape call result.2.1
  out : ∀ m ∈ result.2.2, m.kind ≠ .fin → m.kind = .retransmission ∧
    ∃ node, call.nodes[k]? = some node ∧ node.sent = true ∧ m.packet = refresh sock node.packet

variable {sock : NormalSocket} {call : WindowCall}
  {result : NormalSocket × WindowCall × List Emission}

theorem Resent.no_firsts {k : ℕ} (h : Resent sock call k result) : firsts result.2.2 = [] := by
  unfold firsts
  rw [List.map_eq_nil_iff, List.filter_eq_nil_iff]
  intro m hm hfirst
  rw [decide_eq_true_eq] at hfirst
  have hkind := (h.out m hm (by rw [hfirst]; decide)).1
  rw [hfirst] at hkind
  contradiction

theorem resent_quiet (sock : NormalSocket) (call : WindowCall) (k : ℕ) :
    Resent sock call k (sock, call, []) :=
  ⟨Closes.refl sock, ⟨rfl, rfl, rfl, rfl, rfl, rfl, rfl, rfl, rfl, rfl, rfl⟩, by simp⟩

theorem resent_resend (sock : NormalSocket) (call : WindowCall) (k : ℕ) :
    Resent sock call k (call.resend sock k) := by
  have hshape := sameShape_updatePacket (refresh_renews sock) call k
  unfold resend
  split
  · exact resent_quiet sock call k
  · rename_i node hnode
    split
    · rename_i hsent
      simp only
      generalize (if call.last_index = node.index then call.cnt + 1 else 1) = cnt
      split
      · have hclosed := vClose_closes sock
        split
        · rename_i sock' packet hclose
          rw [hclose] at hclosed
          refine ⟨hclosed, hshape node.index cnt true, ?_⟩
          intro m hm hkind
          rw [List.mem_singleton.mp hm] at hkind
          simp at hkind
        · rename_i sock' _ _ hclose
          rw [hclose] at hclosed
          exact ⟨hclosed, hshape node.index cnt true, by simp⟩
      · refine ⟨Closes.refl sock, hshape node.index cnt _, ?_⟩
        intro m hm _
        rw [List.mem_singleton.mp hm]
        exact ⟨rfl, node, hnode, hsent, rfl⟩
    · exact resent_quiet sock call k

theorem resent_resendFirst (sock : NormalSocket) (call : WindowCall) (k : ℕ) :
    Resent sock call k (call.resendFirst sock k) := by
  unfold resendFirst
  split
  · exact resent_quiet sock call k
  · rename_i node hnode
    split
    · rename_i hsent
      refine ⟨Closes.refl sock, sameShape_updatePacket (refresh_renews sock) call k _ _ _, ?_⟩
      intro m hm _
      rw [List.mem_singleton.mp hm]
      exact ⟨rfl, node, hnode, hsent, rfl⟩
    · exact resent_quiet sock call k

/-- What the retransmission thread can do when its ticker expires. -/
theorem tick_resent (htick : call.tick sock = some result) :
    ∃ k, Resent sock call k result ∧ (result.2.2 = [] ∨ call.target = some k) := by
  obtain ⟨-, rfl | ⟨-, k, hhead, ⟨hack, rfl⟩ | ⟨hack, rfl⟩⟩⟩ := tick_cases htick
  · exact ⟨0, resent_quiet sock call 0, Or.inl rfl⟩
  · exact ⟨k - 1, resent_resend sock call (k - 1), Or.inr (by simp [target, hhead, hack])⟩
  · exact ⟨k, resent_resendFirst sock call k, Or.inr (by simp [target, hhead, hack])⟩

end WindowCall

end IpTcp
