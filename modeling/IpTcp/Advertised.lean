import IpTcp.WindowChain

/-!
slidingWindow and the window that the peer advertises. Only the first segment of a
payload is cut to the window; after that the loop asks whether the window is zero
and not whether the next segment fits. What it still owes to the window, the bytes
not yet subtracted from it, shrinks with every segment, so a window that covers
all of it never runs out.
-/
namespace IpTcp

namespace WindowCall

def unsent (call : WindowCall) : ℕ :=
  (if call.tail.sent then 0 else call.tail.size) + call.packet.payload.length

def undebited (call : WindowCall) : ℕ :=
  match call.pc with
  | .debit _ => call.tail.size
  | _ => 0

def owed (call : WindowCall) : ℕ := call.undebited + call.unsent

end WindowCall

namespace Advertised

open Runs

def sentBytes (t : Transfer) : ℕ := ((firsts t.emitted).map fun p => p.payload.length).sum

def ackedBytes (sock : NormalSocket) (r : TCPInfo) : ℕ := (r.AckNum - sock.cumWriteUNA).toNat

/-- What arrives acknowledges only bytes that were subtracted from the window before, and
advertises a window that reaches the end of the payload. -/
def Covering (sock : NormalSocket) (packet : TCPPacket) (t : Transfer) : TransferEvent → Prop
  | .arrive r => r.Flag &&& tcpFlagAck > 0 →
      ackedBytes sock r + t.call.owed ≤ packet.payload.length ∧
        packet.payload.length ≤ ackedBytes sock r + r.WindowSize.toNat
  | _ => True

instance (sock : NormalSocket) (packet : TCPPacket) (t : Transfer) (e : TransferEvent) :
    Decidable (Covering sock packet t e) :=
  match e with
  | .run | .timeout | .tick | .dispatch => .isTrue trivial
  | .arrive _ => inferInstanceAs (Decidable (_ → _))

/-- A window of `w` bytes is closed, or covers all that is owed to it, or is that of a
first segment cut to size. While a segment is being sent it is not closed. -/
def WindowOk (w : ℕ) (call : WindowCall) : SlidePc → Prop
  | .sending => call.tail.sent = false ∧ (call.owed ≤ w ∨ w = call.tail.size)
  | .debit _ => call.tail.sent = true ∧ (call.owed ≤ w ∨ w = call.tail.size)
  | .allocate _ => call.tail.sent = true ∧ (w = 0 ∨ call.owed ≤ w)
  | _ => (call.tail.sent = true → call.bytesToSend = 0) ∧
      (w = 0 ∨ call.owed ≤ w ∨ call.tail.sent = false ∧ w = call.tail.size)

theorem WindowOk.covered {w w' : ℕ} {call : WindowCall} {pc : SlidePc} (h : WindowOk w call pc)
    (hle : call.owed ≤ w') : WindowOk w' call pc := by
  cases pc with
  | sending | debit _ => exact ⟨h.1, Or.inl hle⟩
  | allocate _ => exact ⟨h.1, Or.inr hle⟩
  | top | probeTest | probeSend | probing | normal | zeroTest | drain | done | blocked
    | panicked => exact ⟨h.1, Or.inr (Or.inl hle)⟩

/-- Only the last node, the bytes left and the point in the loop matter. -/
theorem WindowOk.congr {w : ℕ} {call call' : WindowCall} {pc : SlidePc} (h : WindowOk w call pc)
    (hsent : call'.tail.sent = call.tail.sent) (hsize : call'.tail.size = call.tail.size)
    (howed : call'.owed = call.owed) (hbytes : call'.bytesToSend = call.bytesToSend) :
    WindowOk w call' pc := by
  unfold WindowOk at h ⊢
  rw [hsent, hsize, howed, hbytes]
  exact h

/-- A call on `n` bytes that was entered with the socket `sock`. -/
structure Within (sock : NormalSocket) (n : ℕ) (t : Transfer) : Prop where
  total : sentBytes t + t.call.unsent ≤ n
  ok : WindowOk t.sock.ClientWindowSize.toNat t.call t.call.pc
  chan : ∀ r ∈ t.sock.ackChan, t.call.owed ≤ r.WindowSize.toNat
  arriving : ∀ r, t.arriving = some r → r.Flag &&& tcpFlagAck > 0 →
    t.call.owed ≤ r.WindowSize.toNat ∧ t.latest ≠ none
  latest : ∀ r, t.latest = some r → n ≤ ackedBytes sock r + r.WindowSize.toNat
  entry : t.latest = none → n ≤ sock.ClientWindowSize.toNat ∨
    (t.sock.ackChan = [] ∧ sentBytes t + t.sock.ClientWindowSize.toNat ≤
      sock.ClientWindowSize.toNat + t.call.undebited)

namespace Within

variable {sock : NormalSocket} {n : ℕ} {t : Transfer}

theorem sentBytes_update (t : Transfer) (sock' : NormalSocket) (call' : WindowCall)
    (out : List Emission) :
    sentBytes (t.update (sock', call', out)) =
      sentBytes t + ((firsts out).map fun p => p.payload.length).sum := by
  simp [sentBytes, Transfer.update]

/-- A step that sends nothing for the first time and leaves the window alone. -/
theorem move (h : Within sock n t) {sock' : NormalSocket} {call' : WindowCall}
    {out : List Emission} (hout : firsts out = [])
    (hwindow : sock'.ClientWindowSize = t.sock.ClientWindowSize)
    (hchan : ∀ r ∈ sock'.ackChan, r ∈ t.sock.ackChan)
    (hunsent : call'.unsent = t.call.unsent) (hdebit : call'.undebited = t.call.undebited)
    (hok : WindowOk t.sock.ClientWindowSize.toNat call' call'.pc) :
    Within sock n (t.update (sock', call', out)) := by
  have hbytes : sentBytes (t.update (sock', call', out)) = sentBytes t := by
    rw [sentBytes_update, hout]
    rfl
  have howed : call'.owed = t.call.owed := by
    unfold WindowCall.owed
    rw [hunsent, hdebit]
  refine ⟨?_, ?_, ?_, ?_, h.latest, ?_⟩
  · rw [hbytes]
    exact (Nat.add_le_add_left (Nat.le_of_eq hunsent) _).trans h.total
  · change WindowOk sock'.ClientWindowSize.toNat call' call'.pc
    rw [hwindow]
    exact hok
  · intro r hr
    exact (Nat.le_of_eq howed).trans (h.chan r (hchan r hr))
  · intro r hr hflag
    obtain ⟨hle, hsome⟩ := h.arriving r hr hflag
    exact ⟨(Nat.le_of_eq howed).trans hle, hsome⟩
  · intro hnone
    refine (h.entry hnone).imp id ?_
    rintro ⟨hempty, hsum⟩
    rw [hbytes]
    refine ⟨?_, ?_⟩
    · apply List.eq_nil_iff_forall_not_mem.mpr
      intro r hr
      have hmem := hchan r hr
      rw [hempty] at hmem
      simp at hmem
    · change sentBytes t + sock'.ClientWindowSize.toNat ≤ _ + call'.undebited
      rw [hwindow, hdebit]
      exact hsum

/-- A step that takes the window over from an acknowledgement in the channel. -/
theorem adopt (h : Within sock n t) {sock' : NormalSocket} {call' : WindowCall}
    {received : TCPInfo} (hmem : received ∈ t.sock.ackChan)
    (hwindow : sock'.ClientWindowSize = received.WindowSize)
    (hchan : ∀ r ∈ sock'.ackChan, r ∈ t.sock.ackChan) (hunsent : call'.unsent ≤ t.call.unsent)
    (hdebit : call'.undebited = 0)
    (hok : call'.owed ≤ received.WindowSize.toNat →
      WindowOk received.WindowSize.toNat call' call'.pc) :
    Within sock n (t.update (sock', call', [])) := by
  have hbytes : sentBytes (t.update (sock', call', [])) = sentBytes t := sentBytes_update _ _ _ _
  have howed : call'.owed ≤ t.call.owed := by
    unfold WindowCall.owed
    omega
  refine ⟨?_, ?_, ?_, ?_, h.latest, ?_⟩
  · rw [hbytes]
    exact (Nat.add_le_add_left hunsent _).trans h.total
  · change WindowOk sock'.ClientWindowSize.toNat call' call'.pc
    rw [hwindow]
    exact hok (howed.trans (h.chan received hmem))
  · intro r hr
    exact howed.trans (h.chan r (hchan r hr))
  · intro r hr hflag
    obtain ⟨hle, hsome⟩ := h.arriving r hr hflag
    exact ⟨howed.trans hle, hsome⟩
  · intro hnone
    refine Or.inl ((h.entry hnone).resolve_right ?_)
    rintro ⟨hempty, -⟩
    rw [hempty] at hmem
    simp at hmem

theorem undebited_of_ne {call : WindowCall} (h : ∀ e, call.pc ≠ .debit e) :
    call.undebited = 0 := by
  unfold WindowCall.undebited
  split
  · rename_i e hpc
    exact absurd hpc (h e)
  · rfl

/-- The last node is sent; it is owed until it is subtracted. -/
theorem send (h : Within sock n t) (hpc : t.call.pc = .sending) (expectedAck : UInt32) :
    Within sock n (t.update ((t.sock.moveNXT t.call.bytesToSend).register expectedAck,
      t.call.markSent (.debit expectedAck), [⟨.first, t.call.tail.packet⟩])) := by
  have hok := h.ok
  rw [hpc] at hok
  obtain ⟨htail, hwindow⟩ := hok
  have hunsent : t.call.unsent = t.call.tail.size + t.call.packet.payload.length := by
    unfold WindowCall.unsent
    rw [htail]
    rfl
  have hunsent' : (t.call.markSent (.debit expectedAck)).unsent = t.call.packet.payload.length :=
    Nat.zero_add _
  have hdebit : t.call.undebited = 0 := undebited_of_ne (by simp [hpc])
  have hdebit' : (t.call.markSent (.debit expectedAck)).undebited = t.call.tail.size := rfl
  have howed : (t.call.markSent (.debit expectedAck)).owed = t.call.owed := by
    unfold WindowCall.owed
    omega
  have hbytes : sentBytes (t.update ((t.sock.moveNXT t.call.bytesToSend).register expectedAck,
      t.call.markSent (.debit expectedAck), [⟨.first, t.call.tail.packet⟩])) =
        sentBytes t + t.call.tail.size := sentBytes_update _ _ _ _
  refine ⟨?_, ⟨rfl, ?_⟩, ?_, ?_, h.latest, ?_⟩
  · have htotal := h.total
    rw [hbytes]
    change sentBytes t + t.call.tail.size + (t.call.markSent (.debit expectedAck)).unsent ≤ n
    omega
  · exact hwindow.imp (fun hle => (Nat.le_of_eq howed).trans hle) id
  · intro r hr
    exact (Nat.le_of_eq howed).trans (h.chan r hr)
  · intro r hr hflag
    obtain ⟨hle, hsome⟩ := h.arriving r hr hflag
    exact ⟨(Nat.le_of_eq howed).trans hle, hsome⟩
  · intro hnone
    refine (h.entry hnone).imp id ?_
    rintro ⟨hempty, hsum⟩
    refine ⟨hempty, ?_⟩
    rw [hbytes]
    change sentBytes t + t.call.tail.size + t.sock.ClientWindowSize.toNat ≤
      _ + (t.call.markSent (.debit expectedAck)).undebited
    omega

theorem tail_le (h : Within sock n t) {expectedAck : UInt32}
    (hpc : t.call.pc = .debit expectedAck) :
    t.call.tail.size ≤ t.sock.ClientWindowSize.toNat := by
  have hok := h.ok
  rw [hpc] at hok
  have hdebit : t.call.undebited = t.call.tail.size := by
    unfold WindowCall.undebited
    rw [hpc]
  rcases hok.2 with hle | heq
  · unfold WindowCall.owed at hle
    omega
  · omega

/-- The subtraction takes from the window what it owes. -/
theorem debit (h : Within sock n t) {expectedAck : UInt32} (hpc : t.call.pc = .debit expectedAck) :
    Within sock n (t.update (t.sock.setWindow
      (t.sock.ClientWindowSize - UInt16.ofNat t.call.tail.packet.payload.length),
      t.call.goto (.allocate expectedAck), [])) := by
  have htail := h.tail_le hpc
  have hok := h.ok
  rw [hpc] at hok
  obtain ⟨hsent, hwindow⟩ := hok
  have hdebit : t.call.undebited = t.call.tail.size := by
    unfold WindowCall.undebited
    rw [hpc]
  have hdebit' : (t.call.goto (.allocate expectedAck)).undebited = 0 := rfl
  have hunsent' : (t.call.goto (.allocate expectedAck)).unsent = t.call.unsent := rfl
  have howed : (t.call.goto (.allocate expectedAck)).owed + t.call.tail.size = t.call.owed := by
    unfold WindowCall.owed
    omega
  have hsub : (t.sock.ClientWindowSize - UInt16.ofNat t.call.tail.packet.payload.length).toNat =
      t.sock.ClientWindowSize.toNat - t.call.tail.size := by
    have hlt := t.sock.ClientWindowSize.toNat_lt
    rw [UInt16.toNat_sub_of_le _ _ ?_, UInt16.toNat_ofNat']
    · change _ - t.call.tail.size % _ = _
      rw [Nat.mod_eq_of_lt (by omega)]
    · rw [UInt16.le_iff_toNat_le, UInt16.toNat_ofNat']
      exact (Nat.mod_le _ _).trans htail
  have hbytes : sentBytes (t.update (t.sock.setWindow
      (t.sock.ClientWindowSize - UInt16.ofNat t.call.tail.packet.payload.length),
      t.call.goto (.allocate expectedAck), [])) = sentBytes t := sentBytes_update _ _ _ _
  refine ⟨?_, ⟨hsent, ?_⟩, ?_, ?_, h.latest, ?_⟩
  · rw [hbytes]
    exact h.total
  · change (t.sock.ClientWindowSize - UInt16.ofNat _).toNat = 0 ∨ _ ≤
      (t.sock.ClientWindowSize - UInt16.ofNat _).toNat
    rw [hsub]
    change _ ∨ (t.call.goto (.allocate expectedAck)).owed ≤ _
    omega
  · intro r hr
    have hle := h.chan r hr
    change (t.call.goto (.allocate expectedAck)).owed ≤ _
    omega
  · intro r hr hflag
    obtain ⟨hle, hsome⟩ := h.arriving r hr hflag
    refine ⟨?_, hsome⟩
    change (t.call.goto (.allocate expectedAck)).owed ≤ _
    omega
  · intro hnone
    refine (h.entry hnone).imp id ?_
    rintro ⟨hempty, hsum⟩
    refine ⟨hempty, ?_⟩
    rw [hbytes]
    change sentBytes t + (t.sock.ClientWindowSize - UInt16.ofNat _).toNat ≤
      _ + (t.call.goto (.allocate expectedAck)).undebited
    rw [hsub]
    omega

/-- The next node takes its bytes from those left. -/
theorem allocate (h : Within sock n t) {expectedAck : UInt32}
    (hpc : t.call.pc = .allocate expectedAck) :
    Within sock n (t.update (t.sock, t.call.allocateNext t.sock expectedAck, [])) := by
  have hok := h.ok
  rw [hpc] at hok
  obtain ⟨htail, hwindow⟩ := hok
  have hunsent : t.call.unsent = t.call.packet.payload.length := by
    unfold WindowCall.unsent
    rw [htail]
    exact Nat.zero_add _
  have hdebit : t.call.undebited = 0 := undebited_of_ne (by simp [hpc])
  have hnext : (t.call.allocateNext t.sock expectedAck).unsent = t.call.packet.payload.length ∧
      (t.call.allocateNext t.sock expectedAck).undebited = 0 ∧
      ((t.call.allocateNext t.sock expectedAck).tail.sent = true →
        (t.call.allocateNext t.sock expectedAck).bytesToSend = 0) := by
    unfold WindowCall.allocateNext
    simp only
    split
    · refine ⟨?_, rfl, by simp⟩
      change (t.call.packet.payload.take _).length + (t.call.packet.payload.drop _).length = _
      rw [← List.length_append, List.take_append_drop]
    · rename_i hzero
      refine ⟨?_, rfl, fun _ => Nat.eq_zero_of_not_pos hzero⟩
      exact hunsent
  obtain ⟨hunsent', hdebit', hbytes⟩ := hnext
  have howed : (t.call.allocateNext t.sock expectedAck).owed = t.call.owed := by
    unfold WindowCall.owed
    rw [hunsent', hdebit', hunsent, hdebit]
  refine h.move rfl rfl (fun _ hr => hr) (hunsent'.trans hunsent.symm)
    (hdebit'.trans hdebit.symm) ?_
  rw [WindowCall.allocateNext_pc]
  exact ⟨hbytes, hwindow.imp id fun hle => Or.inl ((Nat.le_of_eq howed).trans hle)⟩

theorem probeAcked_frame (sock : NormalSocket) (call : WindowCall) (received : TCPInfo) :
    (call.probeAcked sock received).1.ClientWindowSize = received.WindowSize ∧
      (call.probeAcked sock received).1.ackChan = sock.ackChan := by
  unfold WindowCall.probeAcked
  simp only
  split
  · split <;> exact ⟨rfl, rfl⟩
  · exact ⟨rfl, rfl⟩

/-- A successful probe leaves at most what was left before. -/
theorem probeAcked_unsent (sock' : NormalSocket) {call : WindowCall} (received : TCPInfo)
    (hlevel : call.tail.sent = true → call.bytesToSend = 0) :
    (call.probeAcked sock' received).2.unsent ≤ call.unsent ∧
      (call.probeAcked sock' received).2.undebited = 0 ∧
      ∀ w, (call.probeAcked sock' received).2.owed ≤ w →
        WindowOk w (call.probeAcked sock' received).2 (call.probeAcked sock' received).2.pc := by
  unfold WindowCall.probeAcked
  simp only
  split
  · split
    · exact ⟨Nat.le_refl _, rfl, fun w hle => ⟨hlevel, Or.inr (Or.inl hle)⟩⟩
    · rename_i byte rest hpay
      refine ⟨?_, rfl, fun w hle => ⟨by simp [NormalSocket.slidingWindow], Or.inr (Or.inl hle)⟩⟩
      change (rest.take _).length + (rest.drop _).length ≤ _
      rw [← List.length_append, List.take_append_drop]
      unfold WindowCall.unsent
      rw [hpay, List.length_cons]
      omega
  · have htrim : (call.updatePacket 0 fun p =>
        { p with payload := p.payload.drop 1 }).tail.sent = call.tail.sent ∧
        (call.updatePacket 0 fun p =>
          { p with payload := p.payload.drop 1 }).tail.size ≤ call.tail.size ∧
        (call.updatePacket 0 fun p =>
          { p with payload := p.payload.drop 1 }).packet = call.packet ∧
        (call.updatePacket 0 fun p =>
          { p with payload := p.payload.drop 1 }).bytesToSend = call.bytesToSend := by
      unfold WindowCall.updatePacket
      split
      · exact ⟨rfl, Nat.le_refl _, rfl, rfl⟩
      · refine ⟨rfl, ?_, rfl, rfl⟩
        simp [WindowNode.size, WindowCall.modifyPacket]
    obtain ⟨hsent, hsize, hpacket, hbytes⟩ := htrim
    refine ⟨?_, rfl, fun w hle => ⟨?_, Or.inr (Or.inl hle)⟩⟩
    · unfold WindowCall.unsent
      simp only [hsent, hpacket]
      split
      · exact Nat.le_refl _
      · omega
    · simp only [hsent, hbytes]
      exact hlevel

theorem processAck_frame (sock' : NormalSocket) (call : WindowCall) (received : TCPInfo) :
    (call.processAck sock' received).1.ClientWindowSize = received.WindowSize ∧
      (call.processAck sock' received).1.ackChan = sock'.ackChan ∧
      (call.processAck sock' received).2.tail = call.tail ∧
      (call.processAck sock' received).2.packet = call.packet ∧
      (call.processAck sock' received).2.bytesToSend = call.bytesToSend := by
  unfold WindowCall.processAck
  simp only
  split <;> exact ⟨rfl, rfl, rfl, rfl, rfl⟩

theorem popped {chan more : List TCPInfo} {received : TCPInfo} (h : chan = received :: more) :
    ∀ r ∈ more, r ∈ chan := by
  intro r hr
  rw [h]
  exact List.mem_cons_of_mem _ hr

/-- Every step of the thread that runs slidingWindow. -/
theorem run (h : Within sock n t) {result : NormalSocket × WindowCall × List Emission}
    (hstep : t.call.Step t.sock result) : Within sock n (t.update result) := by
  have hok := h.ok
  have hzero : (∀ e, t.call.pc ≠ .debit e) → t.call.undebited = 0 := undebited_of_ne
  cases hstep with
  | enter hpc | leave hpc | closed hpc | skip hpc | crash hpc | hold hpc | windowZero hpc
    | windowOpen hpc | drained hpc =>
    rw [hpc] at hok
    have hdebit := hzero (by simp [hpc])
    refine h.move rfl rfl (fun _ hr => hr) rfl hdebit.symm ?_
    exact WindowOk.congr hok rfl rfl
      (congrArg (fun k => k + t.call.unsent) hdebit.symm) rfl
  | probeBlocked hpc | probe _ _ hpc =>
    rw [hpc] at hok
    have hdebit := hzero (by simp [hpc])
    refine h.move rfl rfl (fun _ hr => hr) rfl hdebit.symm ?_
    exact WindowOk.congr hok rfl rfl
      (congrArg (fun k => k + t.call.unsent) hdebit.symm) rfl
  | probeAcked probe received more hpc hchan =>
    rw [hpc] at hok
    obtain ⟨hwindow, hrest⟩ := probeAcked_frame { t.sock with ackChan := more } t.call received
    obtain ⟨hunsent, hdebit, hnext⟩ :=
      probeAcked_unsent { t.sock with ackChan := more } received hok.1
    have hmem : received ∈ t.sock.ackChan := by
      rw [hchan]
      exact List.mem_cons_self
    refine h.adopt hmem hwindow ?_ hunsent hdebit (hnext _)
    intro r hr
    rw [hrest] at hr
    exact popped hchan r hr
  | probeOn probe expectedAck received more hpc hchan =>
    exact h.move rfl rfl (popped hchan) rfl rfl h.ok
  | choose k hpc hopen hsend =>
    rw [hpc] at hok
    obtain ⟨hlevel, hwindow⟩ := hok
    have hdebit := hzero (by simp [hpc])
    have htail : t.call.tail.sent = false := by
      cases hsent : t.call.tail.sent with
      | false => rfl
      | true =>
        have hnone := hlevel hsent
        omega
    have hpos : 0 < t.sock.ClientWindowSize.toNat := UInt16.lt_iff_toNat_lt.mp hopen
    have howed : (t.call.goto .sending).owed = t.call.owed :=
      congrArg (fun k => k + t.call.unsent) hdebit.symm
    refine h.move rfl rfl (fun _ hr => hr) rfl hdebit.symm ⟨htail, ?_⟩
    rcases hwindow with hclosed | hle | ⟨-, heq⟩
    · omega
    · exact Or.inl ((Nat.le_of_eq howed).trans hle)
    · exact Or.inr heq
  | sendBlocked hpc =>
    rw [hpc] at hok
    obtain ⟨htail, hwindow⟩ := hok
    have hdebit := hzero (by simp [hpc])
    have howed : (t.call.goto .blocked).owed = t.call.owed :=
      congrArg (fun k => k + t.call.unsent) hdebit.symm
    refine h.move rfl rfl (fun _ hr => hr) rfl hdebit.symm ⟨?_, Or.inr ?_⟩
    · intro hsent
      exact absurd (htail.symm.trans hsent) (by decide)
    · exact hwindow.imp (fun hle => (Nat.le_of_eq howed).trans hle) fun heq => ⟨htail, heq⟩
  | send expectedAck hpc => exact h.send hpc expectedAck
  | debit expectedAck hpc => exact h.debit hpc
  | allocate expectedAck hpc => exact h.allocate hpc
  | ackBlocked received more hpc hchan =>
    rw [hpc] at hok
    have hdebit := hzero (by simp [hpc])
    refine h.move rfl rfl (popped hchan) rfl hdebit.symm ?_
    exact WindowOk.congr hok rfl rfl
      (congrArg (fun k => k + t.call.unsent) hdebit.symm) rfl
  | ack received more hpc hchan =>
    rw [hpc] at hok
    obtain ⟨hwindow, hrest, htail, hpacket, hbytes⟩ :=
      processAck_frame { t.sock with ackChan := more } t.call received
    have hunsent : (t.call.processAck { t.sock with ackChan := more } received).2.unsent =
        t.call.unsent := by
      unfold WindowCall.unsent
      rw [htail, hpacket]
    have hmem : received ∈ t.sock.ackChan := by
      rw [hchan]
      exact List.mem_cons_self
    refine h.adopt hmem hwindow ?_ (Nat.le_of_eq hunsent)
      (undebited_of_ne (by simp [hpc])) ?_
    · intro r hr
      rw [hrest] at hr
      exact popped hchan r hr
    · intro hle
      rw [WindowCall.processAck_pc, hpc]
      refine ⟨?_, Or.inr (Or.inl hle)⟩
      rw [htail, hbytes]
      exact hok.1
  | repeated received more hpc hchan => exact h.move rfl rfl (popped hchan) rfl rfl h.ok

/-- A retransmission is not subtracted from the window. -/
theorem resent (h : Within sock n t) {k : ℕ}
    {result : NormalSocket × WindowCall × List Emission}
    (hresent : WindowCall.Resent t.sock t.call k result) : Within sock n (t.update result) := by
  have hshape := hresent.shape
  have hclosed := hresent.closes
  have hunsent : result.2.1.unsent = t.call.unsent := by
    unfold WindowCall.unsent
    rw [hshape.tail_sent, hshape.tail_size, hshape.packet]
  have hdebit : result.2.1.undebited = t.call.undebited := by
    unfold WindowCall.undebited
    rw [hshape.pc, hshape.tail_size]
  refine h.move hresent.no_firsts hclosed.ClientWindowSize ?_ hunsent hdebit ?_
  · intro r hr
    rw [hclosed.ackChan] at hr
    exact hr
  · rw [hshape.pc]
    refine h.ok.congr hshape.tail_sent hshape.tail_size ?_ hshape.bytesToSend
    unfold WindowCall.owed
    rw [hunsent, hdebit]

/-- A window that reaches the end of the payload covers all that is owed. -/
theorem arrive {packet : TCPPacket} (h : Within sock packet.payload.length t)
    {received : TCPInfo} (hok : Covering sock packet t (.arrive received)) :
    Within sock packet.payload.length (t.note received) := by
  unfold Transfer.note NormalSocket.noteWindow
  by_cases hflag : received.Flag &&& tcpFlagAck > 0
  · obtain ⟨hacked, hreach⟩ := hok hflag
    have hle : t.call.owed ≤ received.WindowSize.toNat := by omega
    rw [if_pos hflag, if_pos hflag]
    refine ⟨h.total, h.ok.covered hle, h.chan, ?_, ?_, by simp⟩
    · intro r hr _
      cases hr
      exact ⟨hle, by simp⟩
    · intro r hr
      cases hr
      exact hreach
  · rw [if_neg hflag, if_neg hflag]
    refine ⟨h.total, h.ok, h.chan, ?_, h.latest, h.entry⟩
    intro r hr hself
    cases hr
    exact absurd hself hflag

theorem dispatch (h : Within sock n t) {t' : Transfer} (hnext : t.step .dispatch = some t') :
    Within sock n t' := by
  obtain ⟨received, sock', hsome, rfl, hcases⟩ := Transfer.step_dispatch hnext
  rcases hcases with hsame | ⟨hflag, -, -, rfl⟩
  · refine ⟨h.total, ?_, ?_, by simp, h.latest, ?_⟩
    · rw [hsame.ClientWindowSize]
      exact h.ok
    · rw [hsame.ackChan]
      exact h.chan
    · rw [hsame.ackChan, hsame.ClientWindowSize]
      exact h.entry
  · obtain ⟨hle, hlatest⟩ := h.arriving received hsome hflag
    refine ⟨h.total, h.ok, ?_, by simp, h.latest, fun hnone => absurd hnone hlatest⟩
    intro r hr
    rcases List.mem_append.mp hr with hold | hnew
    · exact h.chan r hold
    · rw [List.mem_singleton.mp hnew]
      exact hle

theorem step {packet : TCPPacket} (h : Within sock packet.payload.length t) {e : TransferEvent}
    {t' : Transfer} (hok : Covering sock packet t e) (hnext : t.step e = some t') :
    Within sock packet.payload.length t' := by
  cases e with
  | run =>
    obtain ⟨result, hrun, rfl⟩ := Option.map_eq_some_iff.mp hnext
    exact h.run (WindowCall.run_step hrun)
  | timeout =>
    obtain ⟨again, hagain, rfl⟩ := Option.map_eq_some_iff.mp hnext
    have hquiet : firsts again = [] := by
      unfold WindowCall.timeout at hagain
      split at hagain
      · cases hagain
        rfl
      · contradiction
    exact h.move hquiet rfl (fun _ hr => hr) rfl rfl h.ok
  | tick =>
    obtain ⟨result, htick, rfl⟩ := Option.map_eq_some_iff.mp hnext
    obtain ⟨k, hresent, -⟩ := WindowCall.tick_resent htick
    exact h.resent hresent
  | arrive received =>
    obtain ⟨-, rfl⟩ := Transfer.step_arrive hnext
    exact h.arrive hok
  | dispatch => exact h.dispatch hnext

/-- The first segment is cut to the window. -/
theorem start {packet : TCPPacket}
    (hwindow : packet.payload.length ≤ sock.ClientWindowSize.toNat ∨
      (sock.ClientWindowSize.toNat ≤ mss ∧ sock.ackChan = []))
    (hchan : ∀ r ∈ sock.ackChan, packet.payload.length ≤ r.WindowSize.toNat) :
    Within sock packet.payload.length (Transfer.start sock packet) := by
  have hunsent : (sock.slidingWindow packet).unsent = packet.payload.length := by
    change (packet.payload.take _).length + (packet.payload.drop _).length = _
    rw [← List.length_append, List.take_append_drop]
  have howed : (sock.slidingWindow packet).owed = packet.payload.length := by
    unfold WindowCall.owed
    rw [hunsent]
    exact Nat.zero_add _
  have hsize : (sock.slidingWindow packet).tail.size =
      min (min (min mss packet.payload.length) sock.ClientWindowSize.toNat)
        packet.payload.length := List.length_take
  refine ⟨?_, ⟨?_, ?_⟩, ?_, ?_, ?_, ?_⟩
  · exact (Nat.zero_add _).trans_le (Nat.le_of_eq hunsent)
  · simp [Transfer.start, NormalSocket.slidingWindow]
  · change sock.ClientWindowSize.toNat = 0 ∨ (sock.slidingWindow packet).owed ≤ _ ∨
      _ ∧ sock.ClientWindowSize.toNat = (sock.slidingWindow packet).tail.size
    rw [howed, hsize]
    rcases Nat.lt_or_ge sock.ClientWindowSize.toNat packet.payload.length with hlt | hge
    · have hsmall := (hwindow.resolve_left (by omega)).1
      exact Or.inr (Or.inr ⟨rfl, by omega⟩)
    · exact Or.inr (Or.inl hge)
  · intro r hr
    exact (Nat.le_of_eq howed).trans (hchan r hr)
  · intro r hr
    simp [Transfer.start] at hr
  · intro r hr
    simp [Transfer.start] at hr
  · intro _
    refine hwindow.imp id ?_
    rintro ⟨-, hempty⟩
    refine ⟨hempty, ?_⟩
    change 0 + sock.ClientWindowSize.toNat ≤ _ + 0
    omega

end Within

/-- The window is respected when `t` is reached: a segment about to be sent or to be
subtracted fits, and the bytes in flight fit the window that was advertised last. -/
structure Respects (sock : NormalSocket) (t : Transfer) : Prop where
  sends : t.call.pc = .sending →
    t.call.tail.packet.payload.length ≤ t.sock.ClientWindowSize.toNat
  subtracts : ∀ e, t.call.pc = .debit e →
    t.call.tail.packet.payload.length ≤ t.sock.ClientWindowSize.toNat
  inFlight : ∀ r, t.latest = some r → sentBytes t - ackedBytes sock r ≤ r.WindowSize.toNat
  inFlight_entry : t.latest = none → sentBytes t ≤ sock.ClientWindowSize.toNat

theorem Within.respects {sock : NormalSocket} {n : ℕ} {t : Transfer} (h : Within sock n t) :
    Respects sock t := by
  have htotal := h.total
  refine ⟨?_, fun e hpc => h.tail_le hpc, ?_, ?_⟩
  · intro hpc
    have hok := h.ok
    rw [hpc] at hok
    obtain ⟨htail, hwindow⟩ := hok
    rcases hwindow with hle | heq
    · unfold WindowCall.owed WindowCall.unsent at hle
      rw [htail] at hle
      change t.call.tail.size ≤ _
      simp only [Bool.false_eq_true, if_false] at hle
      omega
    · exact Nat.le_of_eq heq.symm
  · intro r hr
    have hlatest := h.latest r hr
    omega
  · intro hnone
    rcases h.entry hnone with hle | ⟨-, hsum⟩
    · omega
    · by_cases hdebit : ∃ e, t.call.pc = .debit e
      · obtain ⟨e, hpc⟩ := hdebit
        have htail := h.tail_le hpc
        have hundebited : t.call.undebited = t.call.tail.size := by
          unfold WindowCall.undebited
          rw [hpc]
        omega
      · have hundebited := Within.undebited_of_ne fun e hpc => hdebit ⟨e, hpc⟩
        omega

/-- In every run in which the windows reach the end of the payload, the window is
respected. At the start a window of at most one segment will do, since the first segment
is cut to it. -/
theorem covering_window_respected {sock : NormalSocket} {packet : TCPPacket} {t : Transfer}
    (hwindow : packet.payload.length ≤ sock.ClientWindowSize.toNat ∨
      (sock.ClientWindowSize.toNat ≤ mss ∧ sock.ackChan = []))
    (hchan : ∀ r ∈ sock.ackChan, packet.payload.length ≤ r.WindowSize.toNat)
    (hreach : Reach Transfer.step (Covering sock packet) (Transfer.start sock packet) t) :
    Respects sock t := by
  have hwithin : Within sock packet.payload.length t :=
    hreach.invariant (Within sock packet.payload.length) (Within.start hwindow hchan)
      fun _ _ _ hs hok hnext => hs.step hok hnext
  exact hwithin.respects

def narrowSocket : NormalSocket := newSocket sampleKey 100 200 2

def narrowPacket : TCPPacket := narrowSocket.segment tcpFlagAck 101 [1, 2, 3, 4, 5]

def narrowRun (window : UInt16) : List TransferEvent :=
  List.replicate 8 .run ++ [.arrive (Transfer.sampleAck 103 window), .dispatch] ++
    List.replicate 4 .run

theorem covering_window_respected_first_segment :
    ∃ t, Reach Transfer.step (Covering narrowSocket narrowPacket)
        (Transfer.start narrowSocket narrowPacket) t ∧
      t.emitted.map (fun m => m.packet.payload) = [[1, 2], [3, 4, 5]] ∧
      Respects narrowSocket t := by
  obtain ⟨t, hreach, hsent⟩ := exists_reach Transfer.step (Covering narrowSocket narrowPacket)
    (Transfer.start narrowSocket narrowPacket)
    (fun t => t.emitted.map (fun m => m.packet.payload) = [[1, 2], [3, 4, 5]])
    (narrowRun 3) (by decide)
  exact ⟨t, hreach, hsent, covering_window_respected (Or.inr ⟨by decide, rfl⟩)
    (fun r hr => by simp [narrowSocket, newSocket] at hr) hreach⟩

/-- Against a window of one byte three are sent, and the subtraction underflows. -/
theorem second_segment_exceeds_window :
    ¬ ∀ (sock : NormalSocket) (packet : TCPPacket) (t : Transfer),
      Reach Transfer.step Transfer.HonestAcks (Transfer.start sock packet) t → Respects sock t := by
  intro hclaim
  obtain ⟨t, hreach, hpc, hwindow, hsize, -⟩ := exists_reach Transfer.step Transfer.HonestAcks
    (Transfer.start narrowSocket narrowPacket)
    (fun t => t.call.pc = .debit 106 ∧ t.sock.ClientWindowSize = 1 ∧
      t.call.tail.packet.payload.length = 3 ∧
      (t.step .run).map (fun t' => t'.sock.ClientWindowSize) = some 65534)
    (narrowRun 1) (by decide)
  have hle := (hclaim narrowSocket narrowPacket t hreach).subtracts 106 hpc
  rw [hwindow, hsize] at hle
  exact absurd hle (by decide)

end Advertised

end IpTcp
