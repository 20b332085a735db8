import IpTcp.Incoming

/-!
The sending side of a socket whose peer acknowledges no more than it has accepted. The
numbers registered for acknowledgement never lie beyond what was sent, so an
acknowledgement that slidingWindow takes off its channel cannot mislead it, and
`cumWriteUNA` stays behind what the peer accepted. Everything that is sent is an excerpt
of what VWrite has stored, the FIN stands behind all of it, and the answers to the peer's
segments carry numbers that the peer itself acknowledged.
-/
namespace IpTcp

def WriterPc.accepted (messages : List (List UInt8)) : WriterPc → List UInt8
  | .idle => messages.flatten
  | .testing call | .copying call _ | .handing call =>
      messages.dropLast.flatten ++ call.message.take call.bytesSent.toNat

namespace Endpoint

def accepted (p : Endpoint) : List UInt8 := p.writer.accepted p.messages

def Ended (p : Endpoint) : Prop := ∃ m ∈ p.emitted, m.kind = .fin

/-- What was sent stays sent. -/
theorem Step.emits {p p' : Endpoint} {e : EndpointEvent} (h : Step p e p') :
    ∃ out, p'.emitted = p.emitted ++ out := by
  cases h with
  | run call result => exact ⟨result.2.2, rfl⟩
  | timeout call again => exact ⟨again, rfl⟩
  | tick call result => exact ⟨result.2.2, rfl⟩
  | sendFIN k packet sent => exact ⟨[⟨.fin, sent⟩], rfl⟩
  | _ => exact ⟨[], (List.append_nil _).symm⟩

/-- What was read stays read. -/
theorem Step.output {p p' : Endpoint} {e : EndpointEvent} (h : Step p e p') :
    p.output <+: p'.output := by
  cases h with
  | read numbytes sock data => exact List.prefix_append _ _
  | _ => exact List.prefix_rfl

theorem Step.arriving {p p' : Endpoint} {e : EndpointEvent} (h : Step p e p') :
    p'.arriving = p.arriving ∨ p'.arriving = none ∨ ∃ r, e = .arrive r ∧ p'.arriving = some r := by
  cases h with
  | arrive received => exact Or.inr (Or.inr ⟨received, rfl, rfl⟩)
  | blocked | absorbed | toFinChan | reply => exact Or.inr (Or.inl rfl)
  | _ => exact Or.inl rfl

end Endpoint

namespace Outgoing

open Feeding Closing WriteRing Incoming

/-- A probe that is answered with an open window finds the first node empty. -/
def ProbeSafe (sock : NormalSocket) (call : WindowCall) : Prop :=
  match call.pc, sock.ackChan with
  | .probing _ expectedAck, received :: _ =>
      received.AckNum = expectedAck ∧ received.WindowSize > 0 →
        call.firstNode.packet.payload = []
  | _, _ => True

instance (sock : NormalSocket) (call : WindowCall) : Decidable (ProbeSafe sock call) := by
  unfold ProbeSafe
  split
  · infer_instance
  · exact .isTrue trivial

theorem accepted_eq {messages : List (List UInt8)} {written : List UInt8} {L : ℕ} {pc : WriterPc}
    (h : WriterOk messages written L pc) : pc.accepted messages = written := by
  have hcall : ∀ {call}, Progress messages written call →
      messages.dropLast.flatten ++ call.message.take call.bytesSent.toNat = written := by
    rintro call ⟨earlier, rfl, rfl, -, -⟩
    rw [List.dropLast_concat]
  cases pc with
  | idle => exact h.1.symm
  | testing call => exact hcall h.1
  | copying call space => exact hcall h.1
  | handing call => exact hcall h.1

theorem accepted_front {messages : List (List UInt8)} {written : List UInt8} {L : ℕ}
    {pc : WriterPc} (h : WriterOk messages written L pc) : written <+: messages.flatten := by
  have hcall : ∀ {call}, Progress messages written call → written <+: messages.flatten := by
    rintro call ⟨earlier, rfl, rfl, -, -⟩
    rw [List.flatten_append, List.flatten_singleton]
    exact (List.prefix_append_right_inj _).mpr (List.take_prefix _ _)
  cases pc with
  | idle => exact h.1 ▸ List.prefix_rfl
  | testing call => exact hcall h.1
  | copying call space => exact hcall h.1
  | handing call => exact hcall h.1

/-- VWrite only adds to what it stored. -/
theorem writerStep_accepted {w w' : Pipe} {e : PipeEvent} {written : List UInt8} {A S H L : ℕ}
    (h : Flowing w written A S H L) (hshort : ShortMessages w e)
    (hstep : w.writerStep e = some w') :
    w.writer.accepted w.messages <+: w'.writer.accepted w'.messages := by
  obtain ⟨written', hle, hflow, -⟩ := writerStep_flowing h hshort hstep
  have hmessages : w.messages.flatten <+: w'.messages.flatten := by
    cases e with
    | call message =>
      simp only [Pipe.writerStep] at hstep
      split at hstep
      · split at hstep
        · contradiction
        · cases hstep
          rw [List.flatten_append]
          exact List.prefix_append _ _
      · contradiction
    | test | copy =>
      simp only [Pipe.writerStep] at hstep
      split at hstep
      · split at hstep <;> cases hstep <;> exact List.prefix_refl _
      · contradiction
    | handOver | build | move sent acked | finish => simp [Pipe.writerStep] at hstep
  rw [accepted_eq h.writer, accepted_eq hflow.writer]
  exact List.prefix_of_prefix_length_le ((accepted_front h.writer).trans hmessages)
    (accepted_front hflow.writer) hle

section Excerpts

variable {b : UInt32} {p : Endpoint} {written : List UInt8} {full : Prop} {A S H L : ℕ}
  {sp : SenderPc} {payloads : List (List UInt8)}

theorem written_eq (h : Feeds b p written full A S H L sp payloads) : p.accepted = written :=
  accepted_eq h.flow.writer

/-- What denotes bytes of a chunk denotes bytes of the whole stream. -/
theorem excerpt (h : Feeds b p written full A S H L sp payloads) {earlier : List (List UInt8)}
    {P : List UInt8} (hpayloads : payloads = earlier ++ [P]) {packet : TCPPacket}
    (hdenotes : Denotes (number b earlier.flatten.length) P packet)
    (hne : packet.payload ≠ []) : Excerpt b written packet.seqNum packet.payload := by
  have hend := h.chunk_end hpayloads
  have hle := h.flow.handed_le
  have hpos := List.length_pos_iff.mpr hne
  have hall : payloads.flatten = written.take H := h.flow.payloads
  rw [hpayloads, List.flatten_append, List.flatten_singleton] at hall
  have hchunk : P = (written.take H).drop earlier.flatten.length := by
    rw [← hall, List.drop_left]
  unfold Denotes at hdenotes
  generalize hoff : (packet.seqNum - number b earlier.flatten.length).toNat = off at hdenotes
  have hlen := congrArg List.length hdenotes
  rw [List.length_take, List.length_drop] at hlen
  refine ⟨earlier.flatten.length + off, ?_, by omega, ?_, hne⟩
  · rw [← number_add, ← hoff, UInt32.ofNat_toNat, UInt32.add_comm, UInt32.sub_add_cancel]
  · conv_lhs => rw [hdenotes, hchunk]
    rw [List.drop_drop, List.drop_take, List.take_take, Nat.min_eq_left (by omega)]

/-- Between two positions of `NXT` within one chunk lies what was sent in between. -/
theorem sent_eq {p' : Endpoint} {A' S' : ℕ} {sp' : SenderPc} {P P' : List UInt8} {s a s' a' : ℕ}
    (h : Feeds b p written full A S H L sp payloads)
    (h' : Feeds b p' written full A' S' H L sp' payloads) (hsp : sp = .sliding P s a)
    (hsp' : sp' = .sliding P' s' a') {count : ℕ} (hcount : count ≤ 1360)
    (hnxt : p'.sock.writeBuffer.NXT.toNat = (p.sock.writeBuffer.NXT.toNat + count) % 65536) :
    S' = S + count := by
  have hsender : SenderOk A S H L sp := h.flow.sender
  have hsender' : SenderOk A' S' H L sp' := h'.flow.sender
  rw [hsp] at hsender
  rw [hsp'] at hsender'
  obtain ⟨-, hsmall, -, hs, -, hS⟩ := hsender
  obtain ⟨-, hsmall', -, hs', -, hS'⟩ := hsender'
  have hat : p.sock.writeBuffer.NXT.toNat = (S + 1) % 65536 := h.flow.nxt
  have hat' : p'.sock.writeBuffer.NXT.toNat = (S' + 1) % 65536 := h'.flow.nxt
  omega

end Excerpts

/-- The acknowledgements under way and the numbers they are checked against. -/
structure Acks (top : ℕ) (sock : NormalSocket) : Prop where
  registered : ∀ n, (sock.unackedNums n).isSome →
    n.toNat ≤ (sock.distUNA + sock.cumWriteUNA).toNat
  chan : ∀ r ∈ sock.ackChan, (sock.unackedNums r.AckNum).isSome ∧ r.AckNum.toNat ≤ top
  una : sock.cumWriteUNA.toNat ≤ top

namespace Acks

variable {top : ℕ} {sock sock' : NormalSocket} {call : WindowCall}
  {result : NormalSocket × WindowCall × List Emission}

theorem of_numbers (h : Acks top sock) (hdist : sock'.distUNA = sock.distUNA)
    (hcum : sock'.cumWriteUNA = sock.cumWriteUNA) (hnums : sock'.unackedNums = sock.unackedNums)
    (hchan : sock'.ackChan = sock.ackChan) : Acks top sock' := by
  refine ⟨?_, ?_, ?_⟩
  · rw [hnums, hdist, hcum]
    exact h.registered
  · rw [hchan, hnums]
    exact h.chan
  · rw [hcum]
    exact h.una

theorem of_same (h : Acks top sock) (hsame : SameSending sock sock')
    (hnums : sock'.unackedNums = sock.unackedNums) (hchan : sock'.ackChan = sock.ackChan) :
    Acks top sock' := by
  refine h.of_numbers ?_ hsame.cumWriteUNA hnums hchan
  unfold NormalSocket.distUNA
  rw [hsame.writeBuffer]

/-- The number behind a new segment is registered. -/
theorem register (h : Acks top sock) {moved : NormalSocket} {expectedAck : UInt32}
    (hack : expectedAck = moved.distUNA + moved.cumWriteUNA)
    (hgrows : (sock.distUNA + sock.cumWriteUNA).toNat ≤
      (moved.distUNA + moved.cumWriteUNA).toNat)
    (hnums : moved.unackedNums = sock.unackedNums) (hchan : moved.ackChan = sock.ackChan)
    (hcum : moved.cumWriteUNA = sock.cumWriteUNA) : Acks top (moved.register expectedAck) := by
  have hdist : (moved.register expectedAck).distUNA = moved.distUNA := rfl
  have hsome : ∀ n, (sock.unackedNums n).isSome →
      ((moved.register expectedAck).unackedNums n).isSome := by
    intro n hn
    simp only [NormalSocket.register, Function.update_apply]
    split
    · rfl
    · rw [hnums]
      exact hn
  refine ⟨fun n hn => ?_, fun r hr => ?_, ?_⟩
  · simp only [NormalSocket.register, Function.update_apply] at hn
    rw [hdist]
    change n.toNat ≤ (moved.distUNA + moved.cumWriteUNA).toNat
    split at hn
    · next heq => rw [heq, hack]
    · rw [hnums] at hn
      exact (h.registered n hn).trans hgrows
  · change r ∈ moved.ackChan at hr
    rw [hchan] at hr
    obtain ⟨hreg, htop⟩ := h.chan r hr
    exact ⟨hsome _ hreg, htop⟩
  · change moved.cumWriteUNA.toNat ≤ top
    rw [hcum]
    exact h.una

/-- An acknowledgement taken off the channel moves `cumWriteUNA` to its number. -/
theorem ackUpTo (h : Acks top sock) {received : TCPInfo} {more : List TCPInfo}
    (hchan : sock.ackChan = received :: more)
    (hsame : sock'.unackedNums = sock.unackedNums ∨ ∃ n, sock'.unackedNums =
      Function.update sock.unackedNums received.AckNum (some n))
    (hmore : sock'.ackChan = more)
    (hcum : sock'.cumWriteUNA = sock.cumWriteUNA ∨ sock'.cumWriteUNA = received.AckNum)
    (hgrows : (sock.distUNA + sock.cumWriteUNA).toNat ≤
      (sock'.distUNA + sock'.cumWriteUNA).toNat) : Acks top sock' := by
  obtain ⟨hreg, htop⟩ := h.chan received (by rw [hchan]; exact List.mem_cons_self)
  have hsome : ∀ n, (sock'.unackedNums n).isSome ↔ (sock.unackedNums n).isSome := by
    intro n
    rcases hsame with heq | ⟨count, heq⟩
    · rw [heq]
    · rw [heq, Function.update_apply]
      split
      · next hn =>
        rw [hn]
        simp [hreg]
      · exact Iff.rfl
  refine ⟨fun n hn => (h.registered n ((hsome n).mp hn)).trans hgrows, fun r hr => ?_, ?_⟩
  · rw [hmore] at hr
    obtain ⟨hr, hle⟩ := h.chan r (by rw [hchan]; exact List.mem_cons_of_mem _ hr)
    exact ⟨(hsome _).mpr hr, hle⟩
  · rcases hcum with heq | heq
    · rw [heq]
      exact h.una
    · rw [heq]
      exact htop

theorem run (h : Acks top sock) (hstep : call.Step sock result)
    (hgrows : (sock.distUNA + sock.cumWriteUNA).toNat ≤
      (result.1.distUNA + result.1.cumWriteUNA).toNat) : Acks top result.1 := by
  have hmoved : ∀ count, (sock.distUNA + sock.cumWriteUNA).toNat ≤
      ((sock.moveNXT count).distUNA + (sock.moveNXT count).cumWriteUNA).toNat →
      Acks top (sock.moveNXT count) := fun count hle =>
    ⟨fun n hn => (h.registered n hn).trans hle, h.chan, h.una⟩
  have hpopped : ∀ {received more}, sock.ackChan = received :: more → ∀ mtx,
      Acks top { sock with ackChan := more, unackedMtx := mtx } := by
    intro received more hchan mtx
    exact h.ackUpTo hchan (Or.inl rfl) rfl (Or.inl rfl) (Nat.le_refl _)
  cases hstep with
  | probeBlocked hpc => exact hmoved 1 hgrows
  | sendBlocked hpc => exact hmoved _ hgrows
  | probe probe expectedAck hpc hmtx hack => exact h.register hack hgrows rfl rfl rfl
  | send expectedAck hpc hmtx hack => exact h.register hack hgrows rfl rfl rfl
  | probeAcked probe received more hpc hchan hopen =>
    have hsock : (call.probeAcked { sock with ackChan := more } received).1 =
        ({ sock with ackChan := more }.setWindow received.WindowSize).ackUpTo received.AckNum := by
      unfold WindowCall.probeAcked
      simp only
      split
      · split <;> rfl
      · rfl
    rw [hsock] at hgrows ⊢
    exact h.ackUpTo hchan (Or.inl rfl) rfl (Or.inr rfl) hgrows
  | ack received more hpc hchan hmtx hzero =>
    have hsock : (call.processAck { sock with ackChan := more } received).1.unackedNums =
          Function.update sock.unackedNums received.AckNum
            (some ((sock.unackedNums received.AckNum).getD 0 + 1)) ∧
        (call.processAck { sock with ackChan := more } received).1.ackChan = more ∧
        ((call.processAck { sock with ackChan := more } received).1.cumWriteUNA =
            sock.cumWriteUNA ∨
          (call.processAck { sock with ackChan := more } received).1.cumWriteUNA =
            received.AckNum) := by
      unfold WindowCall.processAck
      simp only
      split
      · exact ⟨rfl, rfl, Or.inr rfl⟩
      · exact ⟨rfl, rfl, Or.inl rfl⟩
    exact h.ackUpTo hchan (Or.inr ⟨_, hsock.1⟩) hsock.2.1 hsock.2.2 hgrows
  | probeOn probe expectedAck received more hpc hchan => exact hpopped hchan _
  | ackBlocked received more hpc hchan => exact hpopped hchan _
  | repeated received more hpc hchan => exact hpopped hchan _
  | _ => exact h.of_same ⟨rfl, rfl, rfl⟩ rfl rfl

end Acks

/-- slidingWindow moves `NXT` over at most one chunk in a step. -/
theorem nxt_moves {first : UInt32} {P : List UInt8} {base a : ℕ} {sock : NormalSocket}
    {call : WindowCall} {result : NormalSocket × WindowCall × List Emission}
    (h : Carries first P base a sock call) (hsmall : P.length ≤ 1360)
    (hstep : call.Step sock result) :
    ∃ count ≤ 1360, result.1.writeBuffer.NXT.toNat =
      (sock.writeBuffer.NXT.toNat + count) % 65536 := by
  have hlt := sock.writeBuffer.NXT_lt
  have hwin : (windowSize : UInt32).toNat = 65536 := rfl
  have hmoved : ∀ count ≤ 1360, (sock.moveNXT count).writeBuffer.NXT.toNat =
      (sock.writeBuffer.NXT.toNat + count) % 65536 := by
    intro count hcount
    simp only [NormalSocket.moveNXT, UInt32.toNat_mod, UInt32.toNat_add, UInt32.toNat_ofNat', hwin]
    omega
  have hstays : sock.writeBuffer.NXT.toNat = (sock.writeBuffer.NXT.toNat + 0) % 65536 := by
    omega
  have hbytes : call.pc = .sending → call.bytesToSend ≤ 1360 := by
    intro hpc
    have hok := h.pcOk
    rw [hpc] at hok
    obtain ⟨hlevel, -, htail, -⟩ := hok
    have hle := h.unsent_le htail
    have hsize : call.bytesToSend = call.tail.size := by
      rw [hlevel.1, htail]
      rfl
    omega
  cases hstep with
  | probeBlocked hpc => exact ⟨1, by omega, hmoved 1 (by omega)⟩
  | probe probe expectedAck hpc => exact ⟨1, by omega, hmoved 1 (by omega)⟩
  | sendBlocked hpc => exact ⟨_, hbytes hpc, hmoved _ (hbytes hpc)⟩
  | send expectedAck hpc => exact ⟨_, hbytes hpc, hmoved _ (hbytes hpc)⟩
  | probeAcked probe received more =>
    refine ⟨0, by omega, ?_⟩
    simp only [WindowCall.probeAcked]
    split
    · split <;> exact hstays
    · exact hstays
  | ack received more =>
    refine ⟨0, by omega, ?_⟩
    simp only [WindowCall.processAck]
    split <;> exact hstays
  | _ => exact ⟨0, by omega, hstays⟩

/-- What slidingWindow sends has a payload. -/
theorem run_nonempty {first : UInt32} {P : List UInt8} {base a : ℕ} {sock : NormalSocket}
    {call : WindowCall} {result : NormalSocket × WindowCall × List Emission}
    (h : Carries first P base a sock call) (hstep : call.Step sock result) :
    ∀ m ∈ result.2.2, m.packet.payload ≠ [] := by
  cases hstep with
  | probe probe expectedAck hpc hmtx hack hprobe =>
    refine List.forall_mem_singleton.mpr ?_
    rw [hprobe]
    exact List.cons_ne_nil _ _
  | send expectedAck hpc =>
    have hok := h.pcOk
    rw [hpc] at hok
    exact List.forall_mem_singleton.mpr (List.length_pos_iff.mp hok.2.2.2)
  | _ => simp

theorem timeout_nonempty {first : UInt32} {P : List UInt8} {base a : ℕ} {sock : NormalSocket}
    {call : WindowCall} (h : Carries first P base a sock call) {again : List Emission}
    (hagain : call.timeout = some again) : ∀ m ∈ again, m.packet.payload ≠ [] := by
  have hok := h.pcOk
  unfold WindowCall.timeout at hagain
  split at hagain
  · next probe expectedAck hpc =>
    rw [hpc] at hok
    obtain ⟨-, -, hlt, -, -, hpay, -⟩ := hok
    cases hagain
    refine List.forall_mem_singleton.mpr ?_
    rw [hpay, Ne, ← List.length_eq_zero_iff, List.length_take, List.length_drop]
    omega
  · contradiction

theorem resent_nonempty {first : UInt32} {P : List UInt8} {base a : ℕ} {sock : NormalSocket}
    {call : WindowCall} {k : ℕ} {result : NormalSocket × WindowCall × List Emission}
    (h : Carries first P base a sock call) (hresent : WindowCall.Resent sock call k result) :
    ∀ m ∈ result.2.2, m.kind ≠ .fin → m.packet.payload ≠ [] := by
  intro m hm hkind
  obtain ⟨-, node, hnode, hsent, hpacket⟩ := hresent.out m hm hkind
  have hmem : node ∈ call.sentNodes := by
    have hin := List.mem_of_getElem? hnode
    unfold WindowCall.sentNodes
    split
    · exact hin
    · next htail =>
      rcases List.mem_append.mp hin with hbefore | hlast
      · exact hbefore
      · rw [List.mem_singleton.mp hlast] at hsent
        exact absurd hsent htail
  rw [hpacket]
  exact List.length_pos_iff.mp (h.positive node hmem)

structure Sends (b : UInt32) (top : ℕ) (p : Endpoint) : Prop where
  ends : Ends b p p.accepted
  room : b.toNat + 2 + p.messages.flatten.length < 4294967296
  data : ∀ m ∈ p.emitted, m.kind ≠ .fin → Excerpt b p.accepted m.packet.seqNum m.packet.payload
  acks : Acks top p.sock
  asked : ∀ r, p.arriving = some r → b.toNat + 1 ≤ r.AckNum.toNat ∧ r.AckNum.toNat ≤ top
  replies : ∀ q ∈ p.replies, b.toNat + 1 ≤ q.seqNum.toNat ∧ q.seqNum.toNat ≤ top

/-- The steps under which two sockets understand each other. The conditions on VWrite,
VClose and the tenth retransmission are those under which the FIN stays behind the data;
a probe must not succeed while the first node holds bytes; and what ReceiverThread takes
as data must be harmless. -/
def Careful (p : Endpoint) : EndpointEvent → Prop
  | .write (.call message) => p.closers = [] ∧ p.sock.state ≠ .lastAck ∧
      p.sock.baseSeq.toNat + 2 + p.messages.flatten.length + message.length < 4294967296
  | .run => match p.sender with
      | .sliding call => ProbeSafe p.sock call
      | _ => True
  | .tick => match p.sender with
      | .sliding call => call.cnt = 9 → p.Settled
      | _ => True
  | .close => p.Settled
  | .dispatch => match p.arriving with
      | some r => UnreadData.IsData p.sock r → Storable p.sock r
      | none => True
  | _ => True

instance (p : Endpoint) : Decidable (Careful p .run) :=
  match h : p.sender with
  | .sliding call => decidable_of_iff (ProbeSafe p.sock call) (by simp [Careful, h])
  | .idle | .received _ => .isTrue (by simp [Careful, h])

instance (p : Endpoint) : Decidable (Careful p .dispatch) :=
  match h : p.arriving with
  | some r => decidable_of_iff (UnreadData.IsData p.sock r → Storable p.sock r)
      (by simp [Careful, h])
  | none => .isTrue (by simp [Careful, h])

instance (p : Endpoint) (e : EndpointEvent) : Decidable (Careful p e) :=
  match e with
  | .write (.call _) => inferInstanceAs (Decidable (p.closers = [] ∧ _ ∧ _))
  | .run => inferInstance
  | .tick => inferInstanceAs (Decidable (Orderly p .tick))
  | .close => inferInstanceAs (Decidable p.Settled)
  | .dispatch => inferInstance
  | .write .test | .write .copy | .write .handOver | .write .build | .write (.move _ _)
  | .write .finish | .handOver | .build | .timeout | .arrive _
  | .finAcked | .read _ | .commit _ => .isTrue trivial

namespace Sends

variable {b : UInt32} {top top' : ℕ} {p p' : Endpoint}

theorem start (key : SocketTableKey) (baseSeq baseAck : UInt32) (window : UInt16)
    (hroom : baseSeq.toNat + 2 < 4294967296) :
    Sends baseSeq (baseSeq.toNat + 1) (Endpoint.start (newSocket key baseSeq baseAck window)) where
  ends := Ends.start key baseSeq baseAck window
  room := hroom
  data := by simp [Endpoint.start]
  acks := by
    refine ⟨by simp [Endpoint.start, newSocket], by simp [Endpoint.start, newSocket], ?_⟩
    have hone : (1 : UInt32).toNat = 1 := rfl
    change (baseSeq + 1).toNat ≤ _
    rw [UInt32.toNat_add, hone]
    omega
  asked := by simp [Endpoint.start]
  replies := by simp [Endpoint.start]

/-- The peer accepts more. -/
theorem mono (h : Sends b top p) (hle : top ≤ top') : Sends b top' p where
  ends := h.ends
  room := h.room
  data := h.data
  acks := ⟨h.acks.registered, fun r hr => ⟨(h.acks.chan r hr).1, (h.acks.chan r hr).2.trans hle⟩,
    h.acks.una.trans hle⟩
  asked r hr := ⟨(h.asked r hr).1, (h.asked r hr).2.trans hle⟩
  replies q hq := ⟨(h.replies q hq).1, (h.replies q hq).2.trans hle⟩

theorem accepted_le (h : Sends b top p) : p.accepted.length ≤ p.messages.flatten.length := by
  obtain ⟨A, S, H, L, sp, payloads, hfeeds⟩ := h.ends.feeds
  exact (accepted_front hfeeds.flow.writer).length_le

/-- The numbers of the two ends of the bytes in flight. -/
theorem in_flight (h : Sends b top p) {full : Prop} {A S H L : ℕ} {sp : SenderPc}
    {payloads : List (List UInt8)} (hfeeds : Feeds b p p.accepted full A S H L sp payloads) :
    p.sock.cumWriteUNA.toNat = b.toNat + 1 + A ∧
      (p.sock.distUNA + p.sock.cumWriteUNA).toNat = b.toNat + 1 + S ∧
      p.sock.distUNA.toNat = S - A ∧ A ≤ S ∧ S ≤ p.accepted.length := by
  have hbounds := hfeeds.sent_bounds
  have hle : L ≤ p.accepted.length := hfeeds.flow.channel_le
  have hroom := h.room
  have hall := h.accepted_le
  have hcum : p.sock.cumWriteUNA.toNat = b.toNat + 1 + A := by
    rw [hfeeds.cum, toNat_number (by omega)]
  have hend : (p.sock.distUNA + p.sock.cumWriteUNA).toNat = b.toNat + 1 + S := by
    rw [hfeeds.fin_number, toNat_number (by omega)]
  refine ⟨hcum, hend, ?_, hbounds.1, by omega⟩
  have hdist : p.sock.distUNA.toNat < 65536 := ringDist_lt _ _
  rw [UInt32.toNat_add, hcum] at hend
  omega

/-- No acknowledgement misleads slidingWindow, a careless probe apart. -/
theorem safeRun (h : Sends b top p) {call : WindowCall} (hprobe : ProbeSafe p.sock call) :
    call.SafeRun p.sock := by
  obtain ⟨A, S, H, L, sp, payloads, hfeeds⟩ := h.ends.feeds
  obtain ⟨hcum, hend, hdist, hle, -⟩ := h.in_flight hfeeds
  unfold WindowCall.SafeRun
  unfold ProbeSafe at hprobe
  cases hpc : call.pc with
  | drain =>
    cases hchan : p.sock.ackChan with
    | nil => trivial
    | cons received more =>
      intro hnew
      obtain ⟨hreg, -⟩ := h.acks.chan received (by rw [hchan]; exact List.mem_cons_self)
      have hbound := h.acks.registered _ hreg
      have hlt := UInt32.lt_iff_toNat_lt.mp hnew
      rw [UInt32.toNat_sub_of_le _ _ (UInt32.le_of_lt hnew), hdist]
      omega
  | probing probe expectedAck =>
    cases hchan : p.sock.ackChan with
    | nil => trivial
    | cons received more =>
      rw [hpc, hchan] at hprobe
      exact hprobe
  | top | probeTest | probeSend | normal | sending | debit expectedAck | allocate expectedAck
  | zeroTest | done | blocked | panicked => trivial

/-- Careful steps are orderly ones. -/
theorem orderly (h : Sends b top p) {e : EndpointEvent} (hok : Careful p e) : Orderly p e := by
  cases e with
  | write w =>
    cases w with
    | call message =>
      obtain ⟨hclosers, hstate, hroom⟩ := hok
      exact ⟨hclosers, hstate, by omega⟩
    | test | copy | handOver | build | move sent acked | finish => trivial
  | run =>
    simp only [Careful, Orderly] at hok ⊢
    cases hsender : p.sender with
    | sliding call =>
      rw [hsender] at hok
      exact h.safeRun hok
    | idle | received packet => trivial
  | tick => exact hok
  | close => exact hok
  | handOver | build | timeout | arrive received | dispatch | finAcked | read numbytes
  | commit k => trivial

/-- A step that stores nothing and sends `out`. -/
theorem keep (h : Sends b top p) (hends : Ends b p' p'.accepted) {out : List Emission}
    (hmessages : p'.messages = p.messages) (haccepted : p'.accepted = p.accepted)
    (hemitted : p'.emitted = p.emitted ++ out)
    (hout : ∀ m ∈ out, m.kind ≠ .fin → Excerpt b p.accepted m.packet.seqNum m.packet.payload)
    (hacks : Acks top p'.sock)
    (hasked : ∀ r, p'.arriving = some r → b.toNat + 1 ≤ r.AckNum.toNat ∧ r.AckNum.toNat ≤ top)
    (hreplies : ∀ q ∈ p'.replies, b.toNat + 1 ≤ q.seqNum.toNat ∧ q.seqNum.toNat ≤ top) :
    Sends b top p' where
  ends := hends
  room := by rw [hmessages]; exact h.room
  data := by
    rw [hemitted, haccepted]
    exact List.forall_mem_append.mpr ⟨h.data, hout⟩
  acks := hacks
  asked := hasked
  replies := hreplies

/-- A step that changes nothing the peer will see. -/
theorem quiet (h : Sends b top p) (hends : Ends b p' p'.accepted)
    (hmessages : p'.messages = p.messages) (haccepted : p'.accepted = p.accepted)
    (hemitted : p'.emitted = p.emitted) (hacks : Acks top p'.sock)
    (harriving : p'.arriving = p.arriving) (hreplies : p'.replies = p.replies) :
    Sends b top p' :=
  h.keep hends hmessages haccepted (hemitted.trans (List.append_nil _).symm) (by simp) hacks
    (harriving ▸ h.asked) (hreplies ▸ h.replies)

theorem run (h : Sends b top p) {call : WindowCall} (hsender : p.sender = .sliding call)
    (hsafe : call.SafeRun p.sock) {result : NormalSocket × WindowCall × List Emission}
    (hrun : call.run p.sock = some result)
    (hends : Ends b (p.update result) (p.update result).accepted) :
    Sends b top (p.update result) := by
  have hstep := WindowCall.run_step hrun
  obtain ⟨A, S, H, L, sp, payloads, hfeeds⟩ := h.ends.feeds
  have hslides := hfeeds.slides
  rw [hsender] at hslides
  obtain ⟨earlier, P, s, a, base, hsp, hpayloads, hcarries⟩ := hslides
  obtain ⟨⟨A', S', sp', hfeeds'⟩, -⟩ := hfeeds.slide hsender hsafe hstep
  obtain ⟨-, P', s', a', -, hsp', -⟩ := hfeeds'.slides
  have hsenderOk : SenderOk A S H L sp := hfeeds.flow.sender
  rw [hsp] at hsenderOk
  obtain ⟨-, hsmall, has, hsl, hA, -⟩ := hsenderOk
  -- what is in flight afterwards reaches at least as far
  obtain ⟨count, hcount, hnxt⟩ := nxt_moves hcarries hsmall hstep
  have hS := sent_eq hfeeds hfeeds' hsp hsp' hcount hnxt
  have hroom := h.room
  have hall := h.accepted_le
  obtain ⟨-, hend, -, -, -⟩ := h.in_flight hfeeds
  have hgrows : (p.sock.distUNA + p.sock.cumWriteUNA).toNat ≤
      (result.1.distUNA + result.1.cumWriteUNA).toNat := by
    have hnumber : result.1.distUNA + result.1.cumWriteUNA = number b S' := hfeeds'.fin_number
    have hbounds := hfeeds'.sent_bounds
    have hle : L ≤ p.accepted.length := hfeeds.flow.channel_le
    rw [hnumber, toNat_number (by omega), hend]
    omega
  have hend' := hfeeds.chunk_end hpayloads
  refine h.keep hends rfl rfl rfl ?_ (h.acks.run hstep hgrows) h.asked h.replies
  intro m hm _
  exact excerpt hfeeds hpayloads
    ((hcarries.run (hfeeds.una_byte hpayloads (by omega)) hsafe hstep).2 m hm)
    (run_nonempty hcarries hstep m hm)

theorem timeout (h : Sends b top p) {call : WindowCall} (hsender : p.sender = .sliding call)
    {again : List Emission} (hagain : call.timeout = some again)
    (hends : Ends b { p with emitted := p.emitted ++ again } p.accepted) :
    Sends b top { p with emitted := p.emitted ++ again } := by
  obtain ⟨A, S, H, L, sp, payloads, hfeeds⟩ := h.ends.feeds
  have hslides := hfeeds.slides
  rw [hsender] at hslides
  obtain ⟨earlier, P, s, a, base, -, hpayloads, hcarries⟩ := hslides
  refine h.keep hends rfl rfl rfl ?_ h.acks h.asked h.replies
  intro m hm _
  exact excerpt hfeeds hpayloads (hcarries.timeout hagain m hm).2
    (timeout_nonempty hcarries hagain m hm)

theorem tick (h : Sends b top p) {call : WindowCall} (hsender : p.sender = .sliding call)
    {result : NormalSocket × WindowCall × List Emission} (htick : call.tick p.sock = some result)
    (hends : Ends b (p.update result) (p.update result).accepted) :
    Sends b top (p.update result) := by
  obtain ⟨k, hresent, -⟩ := WindowCall.tick_resent htick
  obtain ⟨A, S, H, L, sp, payloads, hfeeds⟩ := h.ends.feeds
  have hslides := hfeeds.slides
  rw [hsender] at hslides
  obtain ⟨earlier, P, s, a, base, -, hpayloads, hcarries⟩ := hslides
  have hacks : Acks top result.1 := h.acks.of_same hresent.closes.toSameSending
    hresent.closes.unackedNums hresent.closes.ackChan
  refine h.keep hends rfl rfl rfl ?_ hacks h.asked h.replies
  intro m hm hkind
  exact excerpt hfeeds hpayloads ((hcarries.resent hresent).2 m hm hkind)
    (resent_nonempty hcarries hresent m hm hkind)

/-- An acknowledgement that arrives is put on the channel, or the sending side sees nothing. -/
theorem dispatch (h : Sends b top p) {received : TCPInfo} (harriving : p.arriving = some received) :
    Acks top (p.sock.dispatch received).1 := by
  rcases p.sock.dispatch_cases received with hsame | ⟨-, hreg, -, heq⟩
  · exact h.acks.of_same hsame.sameSending hsame.unackedNums hsame.ackChan
  · rw [heq]
    refine ⟨h.acks.registered, ?_, h.acks.una⟩
    exact List.forall_mem_append.mpr ⟨h.acks.chan,
      List.forall_mem_singleton.mpr ⟨hreg, (h.asked received harriving).2⟩⟩

/-- VWrite stores bytes only as long as no FIN was sent. -/
theorem write (h : Sends b top p) (hrunning : p.panicked = false) {e : PipeEvent} {w : Pipe}
    (hok : Careful p (.write e)) (hw : p.pipe.writerStep e = some w)
    (hends : Ends b (p.wrote w) (p.wrote w).accepted) :
    Sends b top (p.wrote w) ∧
      ((p.wrote w).accepted = p.accepted ∨
        ¬ p.Ended ∧ p.accepted <+: (p.wrote w).accepted) := by
  obtain ⟨A, S, H, L, sp, payloads, hfeeds⟩ := h.ends.feeds
  have hshort : ShortMessages p.pipe e := by
    cases e with
    | call message =>
      change message.length < 4294967296
      have hroom := hok.2.2
      omega
    | test | copy | handOver | build | move sent acked | finish => trivial
  have hframe := writerStep_frame p.pipe e sp payloads
  rw [hw, Option.map_some] at hframe
  have hpipe : ({ p.pipe with sender := sp, payloads := payloads } : Pipe) =
      mirror p sp payloads := by
    unfold Endpoint.pipe mirror
    rw [hrunning]
  rw [hpipe] at hframe
  have hgrows := writerStep_accepted hfeeds.flow hshort hframe
  change p.accepted <+: (p.wrote w).accepted at hgrows
  refine ⟨?_, ?_⟩
  · refine ⟨hends, ?_, fun m hm hkind => (h.data m hm hkind).mono hgrows, ?_, h.asked, h.replies⟩
    · have hbase : p.sock.baseSeq = b := hfeeds.baseSeq
      have hroom := h.room
      change _ + w.messages.flatten.length < _
      cases e with
      | call message =>
        simp only [Pipe.writerStep] at hw
        split at hw
        · split at hw
          · contradiction
          · cases hw
            have hnew := hok.2.2
            rw [hbase] at hnew
            simp only [Endpoint.pipe, List.flatten_append, List.length_append,
              List.flatten_singleton]
            omega
        · contradiction
      | test | copy =>
        simp only [Pipe.writerStep] at hw
        split at hw
        · split at hw <;> cases hw <;> exact hroom
        · contradiction
      | handOver | build | move sent acked | finish => simp [Pipe.writerStep] at hw
    · obtain ⟨buffer, LBW, first, hLBW, heq⟩ := Pipe.writerStep_stores hw
      have hsock : (p.wrote w).sock = w.sock := rfl
      rw [hsock, heq]
      exact h.acks.of_numbers rfl rfl rfl rfl
  · by_cases hended : p.Ended
    · -- the writer is idle, and a new call has stored nothing yet
      have hidle : p.writer = .idle := (hfeeds.closed (Or.inr hended)).1
      have hpc : p.pipe.writer = .idle := hidle
      refine Or.inl ?_
      cases e with
      | call message =>
        simp only [Pipe.writerStep, hpc] at hw
        split at hw
        · contradiction
        · cases hw
          simp [Endpoint.accepted, Endpoint.wrote, WriterPc.accepted, hidle, Endpoint.pipe]
      | test | copy | handOver | build | move sent acked | finish =>
        simp [Pipe.writerStep, hpc] at hw
    · exact Or.inr ⟨hended, hgrows⟩

theorem commitClose_acks (h : Sends b top p) (packet : TCPPacket) :
    Acks top (p.sock.commitClose packet).1 := by
  refine h.acks.of_same (commitClose_sameSending p.sock packet) ?_ ?_
  all_goals
    unfold NormalSocket.commitClose
    split
    · rfl
    · simp only
      split
      · rfl
      · split <;> rfl

theorem vRead_acks (h : Sends b top p) (numbytes : UInt16) :
    Acks top (p.sock.vRead numbytes).1 := by
  refine h.acks.of_same (vRead_same p.sock numbytes).1 ?_ ?_
  all_goals
    unfold NormalSocket.vRead
    split
    · rfl
    · split
      · rfl
      · split <;> rfl

theorem finAcked_acks (h : Sends b top p) (ack : UInt32) : Acks top (p.sock.finAcked ack) := by
  refine h.acks.of_same (finAcked_finSent p.sock ack).1 ?_ ?_
  all_goals
    unfold NormalSocket.finAcked
    simp only
    split
    · rfl
    · split <;> rfl

/-- Every careful step keeps the sending side in order, whatever the peer sent, as long as
it acknowledges no more than it accepted. -/
theorem step (h : Sends b top p) {e : EndpointEvent} (hok : Careful p e)
    (hasked : ∀ r, e = .arrive r → b.toNat + 1 ≤ r.AckNum.toNat ∧ r.AckNum.toNat ≤ top)
    (hstep : p.step e = some p') :
    Sends b top p' ∧
      (p'.accepted = p.accepted ∨ ¬ p.Ended ∧ p.accepted <+: p'.accepted) := by
  have hends : Ends b p' p'.accepted := by
    obtain ⟨written, hnext⟩ := h.ends.step (h.orderly hok) hstep
    obtain ⟨A, S, H, L, sp, payloads, hfeeds⟩ := hnext.feeds
    rw [written_eq hfeeds]
    exact hnext
  obtain ⟨hrunning, hstep⟩ := Endpoint.step_step hstep
  cases hstep with
  | write e w hw => exact h.write hrunning hok hw hends
  | handOver call hwriter hready =>
    refine ⟨h.quiet hends rfl ?_ rfl h.acks rfl rfl, Or.inl ?_⟩
    all_goals
      unfold Endpoint.accepted
      rw [hwriter]
      rfl
  | outOfBounds lbw hsender hchunk =>
    exact ⟨h.quiet hends rfl rfl rfl h.acks rfl rfl, Or.inl rfl⟩
  | nothing lbw hsender hchunk => exact ⟨h.quiet hends rfl rfl rfl h.acks rfl rfl, Or.inl rfl⟩
  | build lbw packet hsender hchunk =>
    exact ⟨h.quiet hends rfl rfl rfl h.acks rfl rfl, Or.inl rfl⟩
  | run call result hsender hrun =>
    have hsafe := h.safeRun (by simpa only [Careful, hsender] using hok)
    exact ⟨h.run hsender hsafe hrun hends, Or.inl rfl⟩
  | timeout call again hsender hagain => exact ⟨h.timeout hsender hagain hends, Or.inl rfl⟩
  | tick call result hsender htick => exact ⟨h.tick hsender htick hends, Or.inl rfl⟩
  | arrive received =>
    have hacks : Acks top (p.sock.noteWindow received) := by
      rcases Transfer.noteWindow_cases p.sock received with heq | heq
      · rw [heq]
        exact h.acks.of_same ⟨rfl, rfl, rfl⟩ rfl rfl
      · rw [heq]
        exact h.acks
    refine ⟨h.keep hends rfl rfl (List.append_nil _).symm (by simp) hacks ?_ h.replies, Or.inl rfl⟩
    intro r hr
    cases hr
    exact hasked received rfl
  | blocked received harriving hblocked | absorbed received harriving
  | toFinChan received ack harriving =>
    exact ⟨h.keep hends rfl rfl (List.append_nil _).symm (by simp) (h.dispatch harriving) (by simp)
      h.replies, Or.inl rfl⟩
  | reply received packet harriving hreply =>
    refine ⟨h.keep hends rfl rfl (List.append_nil _).symm (by simp) (h.dispatch harriving)
      (by simp) ?_, Or.inl rfl⟩
    obtain ⟨s, rfl⟩ := NormalSocket.dispatch_reply_eq hreply
    exact List.forall_mem_append.mpr ⟨h.replies,
      List.forall_mem_singleton.mpr (h.asked received harriving)⟩
  | finAcked ack =>
    exact ⟨h.quiet hends rfl rfl rfl (h.finAcked_acks ack) rfl rfl, Or.inl rfl⟩
  | read numbytes sock data hread =>
    have hacks := h.vRead_acks numbytes
    rw [hread] at hacks
    exact ⟨h.quiet hends rfl rfl rfl hacks rfl rfl, Or.inl rfl⟩
  | close => exact ⟨h.quiet hends rfl rfl rfl h.acks rfl rfl, Or.inl rfl⟩
  | commit k packet hpacket =>
    exact ⟨h.quiet hends rfl rfl rfl (h.commitClose_acks packet) rfl rfl, Or.inl rfl⟩
  | sendFIN k packet sent hpacket hsent =>
    exact ⟨h.keep hends rfl rfl rfl (by simp) (h.commitClose_acks packet) h.asked h.replies,
      Or.inl rfl⟩

end Sends

end Outgoing

end IpTcp
