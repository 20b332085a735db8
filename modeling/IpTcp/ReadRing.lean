import IpTcp.Close
import IpTcp.Receiver

/-!
The read buffer as a queue of bytes. The copy loop of the receiver is a write
behind the unread bytes; when the payload fits it appends to them, and whatever
it does to the count it keeps them in place as long as it does not lap them. A
read takes a prefix off and changes no cell.
-/
namespace IpTcp

open RingBuffer

/-- The copy loop stores the payload from the running position `NXT` on. -/
theorem copyLoop_fst (fuel : ℕ) (buffer : Fin bufferSize → UInt8) (NXT : UInt32)
    (payload : List UInt8) (hNXT : NXT.toNat < 65536) (hfuel : payload.length ≤ fuel) :
    (copyLoop fuel buffer NXT payload).1 = write buffer NXT.toNat payload := by
  induction fuel generalizing buffer NXT payload with
  | zero =>
    have hnil : payload = [] := List.length_eq_zero_iff.mp (by omega)
    subst hnil
    rfl
  | succ fuel ih =>
    unfold copyLoop
    split
    · rename_i hzero
      have hnil : payload = [] := List.length_eq_zero_iff.mp hzero
      subst hnil
      rfl
    · rename_i hpos
      have hcurr : (payload.take (min (bufferSize - NXT.toNat) payload.length)).length =
          min (bufferSize - NXT.toNat) payload.length := by
        simp
      generalize hc : min (bufferSize - NXT.toNat) payload.length = curr at hcurr
      have hbounds : 0 < curr ∧ NXT.toNat + curr ≤ 65536 ∧ curr ≤ payload.length := by
        simp only [bufferSize] at hc
        omega
      have hnext : ((NXT + UInt32.ofNat curr) % windowSize).toNat = (NXT.toNat + curr) % 65536 := by
        simp only [UInt32.toNat_mod, UInt32.toNat_add, UInt32.toNat_ofNat', windowSize,
          UInt32.reduceToNat]
        omega
      rw [ih _ _ _ (by rw [hnext]; omega) (by rw [List.length_drop]; omega), hnext,
        copyAt_eq_write _ _ _ (by rw [hcurr]; omega)]
      rw [write_congr_start _ ((NXT.toNat + curr) % 65536) (NXT.toNat + curr) _ (by simp)]
      conv_rhs => rw [← List.take_append_drop curr payload, write_append, hcurr]

namespace NormalSocket

@[simp] theorem insertPayload_cumReadNXT (sock : NormalSocket) (seq : UInt32)
    (payload : List UInt8) : (sock.insertPayload seq payload).cumReadNXT =
      seq + UInt32.ofNat payload.length := rfl

@[simp] theorem insertPayload_LBR (sock : NormalSocket) (seq : UInt32) (payload : List UInt8) :
    (sock.insertPayload seq payload).readBuffer.LBR = sock.readBuffer.LBR := rfl

@[simp] theorem insertPayload_NXT (sock : NormalSocket) (seq : UInt32) (payload : List UInt8) :
    (sock.insertPayload seq payload).readBuffer.NXT =
      ringDist (seq + UInt32.ofNat payload.length) sock.baseAck := rfl

@[simp] theorem insertPayload_earlyPQ (sock : NormalSocket) (seq : UInt32)
    (payload : List UInt8) : (sock.insertPayload seq payload).earlyPQ = sock.earlyPQ := rfl

@[simp] theorem insertPayload_baseAck (sock : NormalSocket) (seq : UInt32)
    (payload : List UInt8) : (sock.insertPayload seq payload).baseAck = sock.baseAck := rfl

@[simp] theorem insertPayload_state (sock : NormalSocket) (seq : UInt32)
    (payload : List UInt8) : (sock.insertPayload seq payload).state = sock.state := rfl

theorem insertPayload_popEarly (sock : NormalSocket) (seq : UInt32) (payload : List UInt8) :
    (sock.insertPayload seq payload).popEarly = sock.popEarly.insertPayload seq payload := rfl

section Drain

variable {sock : NormalSocket}

theorem drainEarly_stop (fuel : ℕ)
    (h : ¬ (0 < sock.earlyPQ.size ∧ sock.topEarly.Priority ≤ sock.cumReadNXT)) :
    sock.drainEarly fuel = (sock, false) := by
  cases fuel with
  | zero => rfl
  | succ fuel => rw [drainEarly, if_neg h]

theorem drainEarly_old (fuel : ℕ) (hne : 0 < sock.earlyPQ.size)
    (hold : sock.topEarly.Priority < sock.cumReadNXT) :
    sock.drainEarly (fuel + 1) = sock.popEarly.drainEarly fuel := by
  rw [drainEarly, if_pos ⟨hne, UInt32.le_of_lt hold⟩, if_pos hold]

theorem drainEarly_data (fuel : ℕ) (hne : 0 < sock.earlyPQ.size)
    (hdue : sock.topEarly.Priority = sock.cumReadNXT)
    (hfin : ¬ sock.topEarly.Flags &&& tcpFlagFin > 0) :
    sock.drainEarly (fuel + 1) =
      (sock.popEarly.insertPayload sock.cumReadNXT sock.topEarly.Payload).drainEarly fuel := by
  have hfst : (ContainerHeap.pop EarlyPacket.rank sock.earlyPQ).1 = sock.topEarly :=
    ContainerHeap.pop_fst EarlyPacket.rank sock.earlyPQ hne
  rw [drainEarly, if_pos ⟨hne, by rw [hdue]; exact UInt32.le_refl _⟩,
    if_neg (by rw [hdue]; exact UInt32.lt_irrefl _)]
  simp only [hfst, hfin, hdue, if_false]

theorem drainEarly_fin (fuel : ℕ) (hne : 0 < sock.earlyPQ.size)
    (hdue : sock.topEarly.Priority = sock.cumReadNXT)
    (hfin : sock.topEarly.Flags &&& tcpFlagFin > 0) :
    sock.drainEarly (fuel + 1) =
      (sock.popEarly.acceptFIN.map (fun sock' => sock'.drainEarly fuel)).getD
        (sock.popEarly, true) := by
  have hfst : (ContainerHeap.pop EarlyPacket.rank sock.earlyPQ).1 = sock.topEarly :=
    ContainerHeap.pop_fst EarlyPacket.rank sock.earlyPQ hne
  rw [drainEarly, if_pos ⟨hne, by rw [hdue]; exact UInt32.le_refl _⟩,
    if_neg (by rw [hdue]; exact UInt32.lt_irrefl _)]
  simp only [hfst, hfin, if_true]
  cases sock.popEarly.acceptFIN with
  | none => rfl
  | some sock' => rfl

theorem popEarly_size (hne : 0 < sock.earlyPQ.size) :
    sock.popEarly.earlyPQ.size + 1 = sock.earlyPQ.size := by
  have hsize := (ContainerHeap.pop_perm EarlyPacket.rank sock.earlyPQ hne).length_eq
  simp only [List.length_cons, Array.length_toList] at hsize
  exact hsize.symm

theorem topEarly_mem (hne : 0 < sock.earlyPQ.size) : sock.topEarly ∈ sock.earlyPQ.toList := by
  rw [topEarly, ContainerHeap.getD_of_lt _ _ hne]
  simp

/-- Popping removes the first packet and nothing else. -/
theorem mem_popEarly (hne : 0 < sock.earlyPQ.size) (p : EarlyPacket) :
    p ∈ sock.earlyPQ.toList ↔ p = sock.topEarly ∨ p ∈ sock.popEarly.earlyPQ.toList := by
  have hfst : (ContainerHeap.pop EarlyPacket.rank sock.earlyPQ).1 = sock.topEarly :=
    ContainerHeap.pop_fst EarlyPacket.rank sock.earlyPQ hne
  rw [(ContainerHeap.pop_perm EarlyPacket.rank sock.earlyPQ hne).mem_iff, List.mem_cons, hfst]
  rfl

def Due (sock : NormalSocket) : Prop :=
  0 < sock.earlyPQ.size ∧ sock.topEarly.Priority ≤ sock.cumReadNXT

/-- A FIN changes the connection state and its mutex only. -/
theorem acceptFIN_some {sock' : NormalSocket} (h : sock.acceptFIN = some sock') :
    sock.stateMtx = false ∧
      ∃ state mtx, sock' = { sock with state := state, stateMtx := mtx } := by
  unfold acceptFIN at h
  cases hmtx : sock.stateMtx with
  | true => simp [hmtx] at h
  | false =>
    refine ⟨rfl, ?_⟩
    simp only [hmtx, Bool.false_eq_true, if_false] at h
    cases hstate : sock.state with
    | established | finWait2 | listen | synSent | synReceived | finWait1 | closeWait | lastAck
    | timeWait =>
      rw [hstate] at h
      exact ⟨_, _, (Option.some.inj h).symm⟩

/-- What the turns of the drain loop have to keep: `I` as long as it goes on, `J`
where it waits for ever. -/
structure DrainRules (I J : NormalSocket → Prop) : Prop where
  old : ∀ s, I s → 0 < s.earlyPQ.size → s.topEarly.Priority < s.cumReadNXT → I s.popEarly
  data : ∀ s, I s → 0 < s.earlyPQ.size → s.topEarly.Priority = s.cumReadNXT →
    ¬ s.topEarly.Flags &&& tcpFlagFin > 0 →
    I (s.popEarly.insertPayload s.cumReadNXT s.topEarly.Payload)
  fin : ∀ s s', I s → 0 < s.earlyPQ.size → s.topEarly.Priority = s.cumReadNXT →
    s.topEarly.Flags &&& tcpFlagFin > 0 → s.popEarly.acceptFIN = some s' → I s'
  blocked : ∀ s, I s → 0 < s.earlyPQ.size → s.topEarly.Priority = s.cumReadNXT →
    s.topEarly.Flags &&& tcpFlagFin > 0 → s.popEarly.acceptFIN = none → J s.popEarly

/-- The drain loop runs until nothing is due, or waits for ever at a FIN. -/
theorem drainEarly_spec {I J : NormalSocket → Prop} (rules : DrainRules I J) (fuel : ℕ)
    (h : I sock) (hfuel : sock.earlyPQ.size ≤ fuel) :
    ((sock.drainEarly fuel).2 = false ∧ I (sock.drainEarly fuel).1 ∧
        ¬ (sock.drainEarly fuel).1.Due) ∨
      ((sock.drainEarly fuel).2 = true ∧ J (sock.drainEarly fuel).1) := by
  induction fuel generalizing sock with
  | zero =>
    refine Or.inl ⟨rfl, h, ?_⟩
    rintro ⟨hne, -⟩
    change 0 < sock.earlyPQ.size at hne
    omega
  | succ fuel ih =>
    by_cases hdue : sock.Due
    · obtain ⟨hne, hle⟩ := hdue
      have hsize := popEarly_size hne
      by_cases hold : sock.topEarly.Priority < sock.cumReadNXT
      · rw [drainEarly_old fuel hne hold]
        exact ih (rules.old sock h hne hold) (by omega)
      · have hseq : sock.topEarly.Priority = sock.cumReadNXT :=
          UInt32.le_antisymm hle (UInt32.not_lt.mp hold)
        by_cases hfin : sock.topEarly.Flags &&& tcpFlagFin > 0
        · rw [drainEarly_fin fuel hne hseq hfin]
          cases hnext : sock.popEarly.acceptFIN with
          | none => exact Or.inr ⟨rfl, rules.blocked sock h hne hseq hfin hnext⟩
          | some sock' =>
            obtain ⟨-, state, mtx, hsame⟩ := acceptFIN_some hnext
            have hqueue : sock'.earlyPQ = sock.popEarly.earlyPQ := by rw [hsame]
            exact ih (rules.fin sock sock' h hne hseq hfin hnext) (by rw [hqueue]; omega)
        · rw [drainEarly_data fuel hne hseq hfin]
          refine ih (rules.data sock h hne hseq hfin) ?_
          rw [insertPayload_earlyPQ]
          omega
    · rw [drainEarly_stop _ hdue]
      exact Or.inl ⟨rfl, h, hdue⟩

end Drain

section Receive

variable {sock : NormalSocket} {received : TCPInfo}

theorem receiveData_early (h : received.SeqNum > sock.cumReadNXT) :
    sock.receiveData received = (sock.pushEarly received, .queued) := by
  rw [receiveData, if_pos h]

theorem receiveData_fin (h : ¬ received.SeqNum > sock.cumReadNXT)
    (hfin : received.Flag &&& tcpFlagFin > 0) :
    sock.receiveData received =
      (sock.passFIN.acceptFIN.map (fun sock' => sock'.drainAndReply received)).getD
        (sock.passFIN, .blocked) := by
  rw [receiveData, if_neg h, if_pos hfin]
  cases sock.passFIN.acceptFIN with
  | none => rfl
  | some sock' => rfl

theorem receiveData_insert (h : ¬ received.SeqNum > sock.cumReadNXT)
    (hfin : ¬ received.Flag &&& tcpFlagFin > 0)
    (hroom : ringDist sock.readBuffer.LBR sock.readBuffer.NXT ≠ 0) :
    sock.receiveData received =
      (sock.insertPayload received.SeqNum received.Payload).drainAndReply received := by
  rw [receiveData, if_neg h, if_neg hfin, if_pos hroom]

theorem receiveData_full (h : ¬ received.SeqNum > sock.cumReadNXT)
    (hfin : ¬ received.Flag &&& tcpFlagFin > 0)
    (hfull : ringDist sock.readBuffer.LBR sock.readBuffer.NXT = 0) :
    sock.receiveData received = (sock, .bufferFull) := by
  rw [receiveData, if_neg h, if_neg hfin, if_neg (by simp [hfull])]

theorem drainAndReply_done (h : (sock.drainEarly sock.earlyPQ.size).2 = false) :
    sock.drainAndReply received =
      ((sock.drainEarly sock.earlyPQ.size).1,
        .reply (replyTo (sock.drainEarly sock.earlyPQ.size).1 received)) := by
  rw [drainAndReply]
  simp only [h, Bool.false_eq_true, if_false]

theorem drainAndReply_blocked (h : (sock.drainEarly sock.earlyPQ.size).2 = true) :
    sock.drainAndReply received = ((sock.drainEarly sock.earlyPQ.size).1, .blocked) := by
  rw [drainAndReply]
  simp only [h, if_true]

/-- Nothing becomes due when a payload ends where the accepted bytes end. -/
theorem insertPayload_not_due {seq : UInt32} {payload : List UInt8}
    (hcum : seq + UInt32.ofNat payload.length = sock.cumReadNXT) (h : ¬ sock.Due) :
    ¬ (sock.insertPayload seq payload).Due := by
  rintro ⟨hne, hle⟩
  rw [insertPayload_cumReadNXT, hcum] at hle
  exact h ⟨hne, hle⟩

/-- A segment that carries data is never taken for an acknowledgement, unless its
number is that of a FIN of ours. -/
theorem receiverThread_data (hack : received.Flag &&& tcpFlagAck > 0)
    (hdata : received.Payload ≠ [] ∨ sock.unackedNums received.AckNum = none)
    (hmtx : sock.unackedMtx = false) (hfins : sock.unackedFINs received.AckNum = false) :
    sock.receiverThread received = (sock.noteWindow received).receiveData received := by
  have hnote := sock.noteWindow_ack hack
  have hnot : ¬ ((sock.unackedNums received.AckNum).isSome ∧ received.Payload.length = 0) := by
    rcases hdata with hpayload | hnone
    · simp [hpayload]
    · simp [hnone]
  rw [receiverThread, dispatch, if_pos hack, hnote]
  simp only [hmtx, hfins, hnot, Bool.false_eq_true, if_false]

theorem drainAndReply_empty (hempty : sock.earlyPQ = #[]) (received : TCPInfo) :
    sock.drainAndReply received = (sock, .reply (replyTo sock received)) := by
  unfold drainAndReply
  rw [hempty]
  rfl

/-- The state that the peer's FIN leads to where it is expected. -/
inductive TakesFIN : ConnState → ConnState → Prop
  | passive : TakesFIN .established .closeWait
  | active : TakesFIN .finWait2 .timeWait

theorem TakesFIN.facts {old state : ConnState} (h : TakesFIN old state) :
    old.finSeen = false ∧ state.finSeen = true ∧ state.finSent = old.finSent ∧
      state.connected = true ∧
      (old = .established ∨ old = .finWait2 ∧ state = .timeWait) := by
  cases h with
  | passive => exact ⟨rfl, rfl, rfl, rfl, Or.inl rfl⟩
  | active => exact ⟨rfl, rfl, rfl, rfl, Or.inr ⟨rfl, rfl⟩⟩

def afterFIN (sock : NormalSocket) (received : TCPInfo) (state : ConnState) : NormalSocket :=
  { sock with
    ClientWindowSize := received.WindowSize
    cumReadNXT := sock.cumReadNXT + 1
    state := state }

/-- A FIN in order, with nothing queued behind it, is acknowledged. -/
theorem receiverThread_fin {state : ConnState} (hflag : received.Flag = finAck)
    (hseq : received.SeqNum = sock.cumReadNXT) (hnums : sock.unackedNums received.AckNum = none)
    (hfins : sock.unackedFINs received.AckNum = false) (hmtx : sock.unackedMtx = false)
    (hstateMtx : sock.stateMtx = false) (hempty : sock.earlyPQ = #[])
    (hstate : TakesFIN sock.state state) :
    sock.receiverThread received = (sock.afterFIN received state,
      .reply (replyTo (sock.afterFIN received state) received)) := by
  have hack : received.Flag &&& tcpFlagAck > 0 := by
    rw [hflag]
    decide
  have hfin : received.Flag &&& tcpFlagFin > 0 := by
    rw [hflag]
    decide
  have hnote := sock.noteWindow_ack hack
  have haccept : (sock.noteWindow received).passFIN.acceptFIN =
      some (sock.afterFIN received state) := by
    rw [hnote]
    unfold acceptFIN passFIN afterFIN
    generalize sock.state = old at hstate ⊢
    cases hstate with
    | passive => simp only [hstateMtx, Bool.false_eq_true, if_false]
    | active => simp only [hstateMtx, Bool.false_eq_true, if_false]
  have hin : ¬ received.SeqNum > (sock.noteWindow received).cumReadNXT := by
    rw [hnote, hseq]
    exact UInt32.lt_irrefl _
  have hempty' : (sock.afterFIN received state).earlyPQ = #[] := hempty
  rw [receiverThread_data hack (Or.inr hnums) hmtx hfins, receiveData_fin hin hfin, haccept,
    Option.map_some, Option.getD_some]
  exact drainAndReply_empty hempty' received

/-- The receiving side leaves the sending side of a socket alone. -/
structure Receives (sock sock' : NormalSocket) : Prop where
  writeBuffer : sock'.writeBuffer = sock.writeBuffer
  cumWriteUNA : sock'.cumWriteUNA = sock.cumWriteUNA
  baseSeq : sock'.baseSeq = sock.baseSeq
  ClientWindowSize : sock'.ClientWindowSize = sock.ClientWindowSize
  ackChan : sock'.ackChan = sock.ackChan
  unackedNums : sock'.unackedNums = sock.unackedNums
  unackedFINs : sock'.unackedFINs = sock.unackedFINs
  unackedMtx : sock'.unackedMtx = sock.unackedMtx

theorem Receives.refl (sock : NormalSocket) : Receives sock sock :=
  ⟨rfl, rfl, rfl, rfl, rfl, rfl, rfl, rfl⟩

theorem Receives.trans {sock sock' sock'' : NormalSocket} (h : Receives sock sock')
    (h' : Receives sock' sock'') : Receives sock sock'' :=
  ⟨h'.writeBuffer.trans h.writeBuffer, h'.cumWriteUNA.trans h.cumWriteUNA,
    h'.baseSeq.trans h.baseSeq, h'.ClientWindowSize.trans h.ClientWindowSize,
    h'.ackChan.trans h.ackChan, h'.unackedNums.trans h.unackedNums,
    h'.unackedFINs.trans h.unackedFINs, h'.unackedMtx.trans h.unackedMtx⟩

theorem acceptFIN_receives {sock' : NormalSocket} (h : sock.acceptFIN = some sock') :
    Receives sock sock' := by
  obtain ⟨-, state, mtx, rfl⟩ := acceptFIN_some h
  exact ⟨rfl, rfl, rfl, rfl, rfl, rfl, rfl, rfl⟩

theorem drainEarly_receives (sock : NormalSocket) (fuel : ℕ) (hfuel : sock.earlyPQ.size ≤ fuel) :
    Receives sock (sock.drainEarly fuel).1 := by
  have hpop : ∀ s, Receives sock s → Receives sock s.popEarly := fun s hs =>
    hs.trans ⟨rfl, rfl, rfl, rfl, rfl, rfl, rfl, rfl⟩
  have rules : DrainRules (Receives sock) (Receives sock) :=
    { old := fun s hs _ _ => hpop s hs
      data := fun s hs _ _ _ => (hpop s hs).trans ⟨rfl, rfl, rfl, rfl, rfl, rfl, rfl, rfl⟩
      fin := fun s s' hs _ _ _ hfin => (hpop s hs).trans (acceptFIN_receives hfin)
      blocked := fun s hs _ _ _ _ => hpop s hs }
  rcases drainEarly_spec rules fuel (Receives.refl sock) hfuel with ⟨-, h, -⟩ | ⟨-, h⟩
  · exact h
  · exact h

theorem drainAndReply_receives (sock : NormalSocket) (received : TCPInfo) :
    Receives sock (sock.drainAndReply received).1 := by
  have hdrain := drainEarly_receives sock sock.earlyPQ.size (Nat.le_refl _)
  unfold drainAndReply
  simp only
  split
  · exact hdrain
  · exact hdrain

theorem receiveData_receives (sock : NormalSocket) (received : TCPInfo) :
    Receives sock (sock.receiveData received).1 := by
  unfold receiveData
  split
  · exact ⟨rfl, rfl, rfl, rfl, rfl, rfl, rfl, rfl⟩
  · split
    · have hpass : Receives sock sock.passFIN := ⟨rfl, rfl, rfl, rfl, rfl, rfl, rfl, rfl⟩
      split
      · exact hpass
      · rename_i sock' hfin
        exact (hpass.trans (acceptFIN_receives hfin)).trans (drainAndReply_receives _ _)
    · split
      · refine Receives.trans ?_ (drainAndReply_receives _ _)
        exact ⟨rfl, rfl, rfl, rfl, rfl, rfl, rfl, rfl⟩
      · exact Receives.refl sock

/-- Data goes to none of the channels. -/
theorem receiveData_noSend (sock : NormalSocket) (received : TCPInfo) :
    (sock.receiveData received).2 ≠ .toAckChan ∧
      ∀ ack, (sock.receiveData received).2 ≠ .toFinChan ack := by
  have hdrain : ∀ s : NormalSocket, (s.drainAndReply received).2 ≠ .toAckChan ∧
      ∀ ack, (s.drainAndReply received).2 ≠ .toFinChan ack := by
    intro s
    unfold drainAndReply
    simp only
    split <;> simp
  unfold receiveData
  split
  · simp
  · split
    · split
      · simp
      · exact hdrain _
    · split
      · exact hdrain _
      · simp

/-- An acknowledgement of a registered number is passed on; everything else stays on
the receiving side. -/
theorem dispatch_cases (sock : NormalSocket) (received : TCPInfo) :
    Receives sock (sock.dispatch received).1 ∨
      (received.Flag &&& tcpFlagAck > 0 ∧ (sock.unackedNums received.AckNum).isSome ∧
        received.Payload = [] ∧
        sock.dispatch received =
          ({ sock with ackChan := sock.ackChan ++ [received] }, .toAckChan)) := by
  unfold dispatch
  split
  · rename_i hflag
    split
    · exact Or.inl (Receives.refl sock)
    · split
      · exact Or.inl (Receives.refl sock)
      · split
        · rename_i hack
          exact Or.inr ⟨hflag, hack.1, List.length_eq_zero_iff.mp hack.2, rfl⟩
        · exact Or.inl (receiveData_receives sock received)
  · exact Or.inl (Receives.refl sock)

/-- An answer is made for the segment that ReceiverThread works on. -/
theorem dispatch_reply_eq {packet : TCPPacket} (h : (sock.dispatch received).2 = .reply packet) :
    ∃ s, packet = replyTo s received := by
  have hdrain : ∀ s : NormalSocket, (s.drainAndReply received).2 = .reply packet →
      ∃ s', packet = replyTo s' received := by
    intro s hs
    unfold drainAndReply at hs
    simp only at hs
    split at hs
    · contradiction
    · cases hs
      exact ⟨_, rfl⟩
  unfold dispatch receiveData at h
  repeat' split at h
  all_goals first | contradiction | exact hdrain _ h

/-- The moves of the connection state and its mutex that a FIN makes keep `Q`. -/
structure KeptByFIN (Q : ConnState → Bool → Prop) : Prop where
  established : Q .established false → Q .closeWait false
  finWait2 : Q .finWait2 false → Q .timeWait false
  other : ∀ state, state ≠ .established → state ≠ .finWait2 → Q state false → Q state true

variable {Q : ConnState → Bool → Prop}

theorem acceptFIN_state (hQ : KeptByFIN Q) {sock' : NormalSocket} (h : Q sock.state sock.stateMtx)
    (hfin : sock.acceptFIN = some sock') : Q sock'.state sock'.stateMtx := by
  unfold acceptFIN at hfin
  split at hfin
  · contradiction
  · rename_i hmtx
    rw [Bool.not_eq_true] at hmtx
    rw [hmtx] at h
    split at hfin
    · rename_i hstate
      cases hfin
      rw [hstate] at h
      simpa [hmtx] using hQ.established h
    · rename_i hstate
      cases hfin
      rw [hstate] at h
      simpa [hmtx] using hQ.finWait2 h
    · rename_i hest hwait
      cases hfin
      exact hQ.other _ hest hwait h

theorem drainAndReply_state (hQ : KeptByFIN Q) (received : TCPInfo)
    (h : Q sock.state sock.stateMtx) :
    Q (sock.drainAndReply received).1.state (sock.drainAndReply received).1.stateMtx := by
  have rules : DrainRules (fun s => Q s.state s.stateMtx) (fun s => Q s.state s.stateMtx) :=
    { old := fun _ hs _ _ => hs
      data := fun _ hs _ _ _ => hs
      fin := fun s _ hs _ _ _ hfin =>
        acceptFIN_state hQ (show Q s.popEarly.state s.popEarly.stateMtx from hs) hfin
      blocked := fun _ hs _ _ _ _ => hs }
  have hdrain : Q (sock.drainEarly sock.earlyPQ.size).1.state
      (sock.drainEarly sock.earlyPQ.size).1.stateMtx := by
    rcases drainEarly_spec rules _ h (Nat.le_refl _) with ⟨-, hend, -⟩ | ⟨-, hend⟩
    · exact hend
    · exact hend
  unfold drainAndReply
  simp only
  split
  · exact hdrain
  · exact hdrain

/-- ReceiverThread changes the connection state at FINs only. -/
theorem dispatch_state (hQ : KeptByFIN Q) (received : TCPInfo) (h : Q sock.state sock.stateMtx) :
    Q (sock.dispatch received).1.state (sock.dispatch received).1.stateMtx := by
  unfold dispatch
  split
  · split
    · exact h
    · split
      · exact h
      · split
        · exact h
        · unfold receiveData
          split
          · exact h
          · split
            · split
              · exact h
              · rename_i sock' hfin
                exact drainAndReply_state hQ received
                  (acceptFIN_state hQ (by exact h) hfin)
            · split
              · exact drainAndReply_state hQ received h
              · exact h
  · exact h

end Receive

/-- The payload goes directly behind the unread bytes. -/
theorem insertPayload_buffer (sock : NormalSocket) (seq : UInt32) (payload : List UInt8) :
    (sock.insertPayload seq payload).readBuffer.buffer =
      write sock.readBuffer.buffer
        (sock.readBuffer.LBR.toNat + 1 + sock.readBuffer.unreadCount.toNat) payload := by
  have hcopy := copyLoop_fst payload.length sock.readBuffer.buffer sock.readBuffer.NXT payload
    sock.readBuffer.NXT_lt (le_refl _)
  change (copyLoop _ _ _ _).1 = _
  rw [hcopy]
  apply write_congr_start
  have hL := sock.readBuffer.LBR_lt
  have hN := sock.readBuffer.NXT_lt
  rw [sock.readBuffer.toNat_unreadCount]
  simp only [bufferSize]
  omega

/-- Unread bytes that the payload does not lap stay in front when the count does
not shrink. -/
theorem unread_prefix_insertPayload (sock : NormalSocket) (seq : UInt32) (payload : List UInt8)
    (hfit : sock.readBuffer.unreadCount.toNat + payload.length ≤ 65536)
    (hcount : sock.readBuffer.unreadCount.toNat ≤
      (sock.insertPayload seq payload).readBuffer.unreadCount.toNat) :
    sock.readBuffer.unread <+: (sock.insertPayload seq payload).readBuffer.unread := by
  have hkeep : slice (sock.insertPayload seq payload).readBuffer.buffer
      (sock.readBuffer.LBR.toNat + 1) sock.readBuffer.unreadCount.toNat =
        sock.readBuffer.unread := by
    rw [insertPayload_buffer]
    exact slice_write_of_disjoint _ _ _ _ _ (le_refl _) (by simp only [bufferSize]; omega)
  rw [← hkeep]
  conv_rhs => rw [ReadBuffer.unread, insertPayload_LBR]
  rw [← slice_take _ _ _ _ hcount]
  exact List.take_prefix _ _

/-- A payload that moves the count by its own length is appended. -/
theorem unread_insertPayload (sock : NormalSocket) (seq : UInt32) (payload : List UInt8)
    (hcount : (sock.insertPayload seq payload).readBuffer.unreadCount.toNat =
      sock.readBuffer.unreadCount.toNat + payload.length) :
    (sock.insertPayload seq payload).readBuffer.unread = sock.readBuffer.unread ++ payload := by
  have hlt := ringDist_lt ((sock.insertPayload seq payload).readBuffer.NXT - 1)
    (sock.insertPayload seq payload).readBuffer.LBR
  change (sock.insertPayload seq payload).readBuffer.unreadCount.toNat < 65536 at hlt
  rw [ReadBuffer.unread, hcount, insertPayload_LBR, insertPayload_buffer,
    slice_write_extend _ _ _ _ (by simp only [bufferSize]; omega)]
  rfl

/-- A payload that leaves the pointers alone leaves the unread bytes alone. -/
theorem unread_insertPayload_same (sock : NormalSocket) (seq : UInt32) (payload : List UInt8)
    (hnxt : (sock.insertPayload seq payload).readBuffer.NXT = sock.readBuffer.NXT)
    (hfit : sock.readBuffer.unreadCount.toNat + payload.length ≤ 65536) :
    (sock.insertPayload seq payload).readBuffer.unread = sock.readBuffer.unread := by
  have hcount : (sock.insertPayload seq payload).readBuffer.unreadCount =
      sock.readBuffer.unreadCount := by
    rw [ReadBuffer.unreadCount, hnxt, insertPayload_LBR]
    rfl
  have hfront := unread_prefix_insertPayload sock seq payload hfit (by rw [hcount])
  exact (hfront.eq_of_length (by simp [hcount])).symm

/-- The locked part of VRead takes a prefix of the unread bytes. -/
theorem readOut_spec (sock : NormalSocket) (num_buf : ℕ) (numbytes : UInt16)
    (h : num_buf ≤ sock.readBuffer.unreadCount.toNat) :
    (sock.readOut num_buf numbytes).2 =
        sock.readBuffer.unread.take (min num_buf numbytes.toNat) ∧
      (sock.readOut num_buf numbytes).1.readBuffer.buffer = sock.readBuffer.buffer ∧
      (sock.readOut num_buf numbytes).1.readBuffer.LBR.toNat =
        (sock.readBuffer.LBR.toNat + min num_buf numbytes.toNat) % 65536 := by
  have hL := sock.readBuffer.LBR_lt
  have hlt : sock.readBuffer.unreadCount.toNat < 65536 := ringDist_lt _ _
  simp only [readOut]
  generalize hr : min num_buf numbytes.toNat = num_read
  have hread : num_read ≤ sock.readBuffer.unreadCount.toNat := by omega
  generalize hf : min (sock.readBuffer.LBR.toNat + num_read) (bufferSize - 1) = first_seg
  simp only [bufferSize] at hf
  refine ⟨?_, ?_, ?_⟩
  · rw [ReadBuffer.unread, slice_take _ _ _ _ hread]
    generalize hs : num_read - (first_seg - sock.readBuffer.LBR.toNat) = second_seg
    have hsum : num_read = (first_seg - sock.readBuffer.LBR.toNat) + second_seg := by omega
    rw [hsum, slice_add]
    congr 1
    by_cases hzero : second_seg = 0
    · rw [hzero]
      rfl
    · apply slice_congr_start
      simp only [bufferSize]
      omega
  · split
    · rename_i hroom
      have hzero : num_read - (first_seg - sock.readBuffer.LBR.toNat) = 0 := by
        simp only [bufferSize] at hroom
        omega
      rw [hzero, slice_zero]
      funext i
      simp [copyAt]
    · rfl
  · simp only [UInt32.toNat_mod, UInt32.toNat_add, UInt32.toNat_ofNat', windowSize,
      UInt32.reduceToNat]
    omega

@[simp] theorem readOut_baseAck (sock : NormalSocket) (num_buf : ℕ) (numbytes : UInt16) :
    (sock.readOut num_buf numbytes).1.baseAck = sock.baseAck := rfl

@[simp] theorem readOut_cumReadNXT (sock : NormalSocket) (num_buf : ℕ) (numbytes : UInt16) :
    (sock.readOut num_buf numbytes).1.cumReadNXT = sock.cumReadNXT := rfl

theorem readOut_unread (sock : NormalSocket) (num_buf : ℕ) (numbytes : UInt16)
    (h : num_buf ≤ sock.readBuffer.unreadCount.toNat) :
    (sock.readOut num_buf numbytes).1.readBuffer.unread =
      sock.readBuffer.unread.drop (min num_buf numbytes.toNat) := by
  obtain ⟨-, hbuffer, hLBR⟩ := readOut_spec sock num_buf numbytes h
  have hL := sock.readBuffer.LBR_lt
  have hN := sock.readBuffer.NXT_lt
  have hNXT : (sock.readOut num_buf numbytes).1.readBuffer.NXT = sock.readBuffer.NXT := rfl
  have hu := sock.readBuffer.toNat_unreadCount
  have hcount := (sock.readOut num_buf numbytes).1.readBuffer.toNat_unreadCount
  rw [hNXT, hLBR] at hcount
  have hread : min num_buf numbytes.toNat ≤ sock.readBuffer.unreadCount.toNat := by omega
  generalize min num_buf numbytes.toNat = num_read at hLBR hcount hread ⊢
  rw [ReadBuffer.unread, hbuffer, hLBR, ReadBuffer.unread, slice_drop _ _ _ _ hread, hcount]
  have hlen : (sock.readBuffer.NXT.toNat + 65535 - (sock.readBuffer.LBR.toNat + num_read) % 65536)
      % 65536 = sock.readBuffer.unreadCount.toNat - num_read := by omega
  rw [hlen]
  apply slice_congr_start
  simp only [bufferSize]
  omega

end NormalSocket

/-- `N` bytes were accepted from the peer and `R` of them read. -/
structure InSync (sock : NormalSocket) (N R : ℕ) : Prop where
  cum : sock.cumReadNXT = sock.baseAck + 1 + UInt32.ofNat N
  nxt : sock.readBuffer.NXT.toNat = (N + 1) % 65536
  lbr : sock.readBuffer.LBR.toNat = R % 65536
  read_le : R ≤ N
  le_window : N ≤ R + 65535

namespace InSync

variable {sock : NormalSocket} {N R : ℕ}

theorem unreadCount (h : InSync sock N R) : sock.readBuffer.unreadCount.toNat = N - R := by
  have h1 := h.read_le
  have h2 := h.le_window
  rw [sock.readBuffer.toNat_unreadCount, h.nxt, h.lbr]
  omega

theorem toNat_cum (h : InSync sock N R) (hwrap : sock.baseAck.toNat + 1 + N < 4294967296) :
    sock.cumReadNXT.toNat = sock.baseAck.toNat + 1 + N := by
  have h3 : (1 : UInt32).toNat = 1 := rfl
  rw [h.cum]
  simp only [UInt32.toNat_add, UInt32.toNat_ofNat', h3]
  omega

/-- The buffer counts as full exactly when a whole turn of it less one byte is unread. -/
theorem full_iff (h : InSync sock N R) :
    ringDist sock.readBuffer.LBR sock.readBuffer.NXT = 0 ↔ N = R + 65535 := by
  have h1 := h.read_le
  have h2 := h.le_window
  rw [← UInt32.toNat_inj, toNat_ringDist, h.nxt, h.lbr]
  simp only [UInt32.reduceToNat]
  omega

theorem cum_add (h : InSync sock N R) (payload : List UInt8) :
    sock.cumReadNXT + UInt32.ofNat payload.length =
      sock.baseAck + 1 + UInt32.ofNat (N + payload.length) := by
  rw [h.cum, UInt32.ofNat_add, UInt32.add_assoc]

/-- Where `NXT` stands after a payload, whether it fits or not. -/
theorem insertPayload_nxt (h : InSync sock N R) (payload : List UInt8) :
    (sock.insertPayload sock.cumReadNXT payload).readBuffer.NXT.toNat =
      (N + payload.length + 1) % 65536 := by
  rw [NormalSocket.insertPayload_NXT, h.cum_add, toNat_ringDist]
  have h3 : (1 : UInt32).toNat = 1 := rfl
  have h4 := sock.baseAck.toNat_lt
  simp only [UInt32.toNat_add, UInt32.toNat_ofNat', h3]
  omega

/-- A payload that starts where the accepted bytes end and fits extends them. -/
theorem insertPayload (h : InSync sock N R) (payload : List UInt8)
    (hfit : N + payload.length ≤ R + 65535) :
    InSync (sock.insertPayload sock.cumReadNXT payload) (N + payload.length) R ∧
      (sock.insertPayload sock.cumReadNXT payload).readBuffer.unread =
        sock.readBuffer.unread ++ payload := by
  have h1 := h.read_le
  have hsync : InSync (sock.insertPayload sock.cumReadNXT payload) (N + payload.length) R :=
    ⟨h.cum_add payload, h.insertPayload_nxt payload, h.lbr, by omega, hfit⟩
  refine ⟨hsync, NormalSocket.unread_insertPayload _ _ _ ?_⟩
  rw [hsync.unreadCount, h.unreadCount]
  omega

theorem readOut (h : InSync sock N R) (num_buf : ℕ) (numbytes : UInt16)
    (hbuf : num_buf ≤ N - R) :
    InSync (sock.readOut num_buf numbytes).1 N (R + min num_buf numbytes.toNat) ∧
      (sock.readOut num_buf numbytes).2 ++ (sock.readOut num_buf numbytes).1.readBuffer.unread =
        sock.readBuffer.unread ∧
      (sock.readOut num_buf numbytes).2.length = min num_buf numbytes.toNat := by
  have h1 := h.read_le
  have h2 := h.le_window
  have hcount : num_buf ≤ sock.readBuffer.unreadCount.toNat := by
    rw [h.unreadCount]
    exact hbuf
  obtain ⟨hdata, -, hLBR⟩ := sock.readOut_spec num_buf numbytes hcount
  have hunread := sock.readOut_unread num_buf numbytes hcount
  refine ⟨⟨h.cum, h.nxt, ?_, by omega, by omega⟩, ?_, ?_⟩
  · rw [hLBR, h.lbr]
    omega
  · rw [hdata, hunread, List.take_append_drop]
  · rw [hdata, List.length_take, ReadBuffer.unread_length]
    omega

end InSync
end IpTcp
