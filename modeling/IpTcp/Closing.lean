import IpTcp.Feeding
import IpTcp.StepEffects

/-!
The FIN comes behind the data. VClose takes the number of its FIN from `NXT`, so
the FIN closes the stream only if everything that VWrite accepted was sent by
then. Runs in which every VClose finds the ring sent out keep the FIN behind the
last byte, whatever the peer answers; a VClose directly behind VWrite does not.
-/
namespace IpTcp

def WriterPc.resting : WriterPc → Bool
  | .idle => true
  | .testing _ | .copying _ _ | .handing _ => false

def Endpoint.Settled (p : Endpoint) : Prop :=
  p.writer.resting = true ∧ p.sock.writeBuffer.NXT = (p.sock.writeBuffer.LBW + 1) % windowSize

instance (p : Endpoint) : Decidable p.Settled := inferInstanceAs (Decidable (_ ∧ _))

namespace Closing

open Runs Feeding

/-- VClose is called when the calls of VWrite have returned, and no call comes while it
runs. -/
def InTurn (p : Endpoint) : EndpointEvent → Prop
  | .write (.call _) => p.closers = []
  | .close => p.writer.resting = true
  | _ => True

/-- VClose finds the ring sent out, also when retransThread calls it, and VWrite is not
called in LAST_ACK. The other conditions are those of VWrite and slidingWindow alone. -/
def Orderly (p : Endpoint) : EndpointEvent → Prop
  | .write (.call message) => p.closers = [] ∧ p.sock.state ≠ .lastAck ∧
      message.length < 4294967296
  | .run => match p.sender with
      | .sliding call => call.SafeRun p.sock
      | _ => True
  | .tick => match p.sender with
      | .sliding call => call.cnt = 9 → p.Settled
      | _ => True
  | .close => p.Settled
  | _ => True

instance (p : Endpoint) (e : EndpointEvent) : Decidable (InTurn p e) :=
  match e with
  | .write (.call _) => decidable_of_iff (p.closers.isEmpty = true) List.isEmpty_iff
  | .close => inferInstanceAs (Decidable (_ = true))
  | .write .test | .write .copy | .write .handOver | .write .build | .write (.move _ _)
  | .write .finish | .handOver | .build | .run | .timeout | .tick | .arrive _ | .dispatch
  | .finAcked | .read _ | .commit _ => .isTrue trivial

instance (p : Endpoint) (e : EndpointEvent) : Decidable (Orderly p e) :=
  match e with
  | .write (.call _) =>
      have := decidable_of_iff (p.closers.isEmpty = true) List.isEmpty_iff
      inferInstanceAs (Decidable (p.closers = [] ∧ _ ∧ _))
  | .run => match h : p.sender with
      | .sliding call => decidable_of_iff (call.SafeRun p.sock) (by simp [Orderly, h])
      | .idle | .received _ => .isTrue (by simp [Orderly, h])
  | .tick => match h : p.sender with
      | .sliding call => decidable_of_iff (call.cnt = 9 → p.Settled) (by simp [Orderly, h])
      | .idle | .received _ => .isTrue (by simp [Orderly, h])
  | .close => inferInstanceAs (Decidable p.Settled)
  | .write .test | .write .copy | .write .handOver | .write .build | .write (.move _ _)
  | .write .finish | .handOver | .build | .timeout | .arrive _ | .dispatch
  | .finAcked | .read _ | .commit _ => .isTrue trivial

def Ending (p : Endpoint) : Prop := p.closers ≠ [] ∨ ∃ m ∈ p.emitted, m.kind = .fin

structure Ends (b : UInt32) (p : Endpoint) (written : List UInt8) : Prop where
  feeds : ∃ A S H L sp payloads, Feeds b p written (Ending p) A S H L sp payloads
  data : ∀ m ∈ p.emitted, m.kind ≠ .fin → m.packet.payload ≠ [] →
    Within b written.length m.packet
  closers : ∀ q ∈ p.closers, q.seqNum = number b written.length
  fins : ∀ m ∈ p.emitted, m.kind = .fin →
    m.packet.seqNum = number b written.length ∧ p.sock.state.finSent = true

theorem finSent_keptByFIN :
    NormalSocket.KeptByFIN fun state _ => state.finSent = true where
  established := nofun
  finWait2 := id
  other := fun _ _ _ => id

theorem commitClose_sameSending (sock : NormalSocket) (packet : TCPPacket) :
    SameSending sock (sock.commitClose packet).1 := by
  unfold NormalSocket.commitClose
  split
  · exact ⟨rfl, rfl, rfl⟩
  · simp only
    split
    · exact ⟨rfl, rfl, rfl⟩
    · split <;> exact ⟨rfl, rfl, rfl⟩

theorem commitClose_finSent (sock : NormalSocket) (packet : TCPPacket)
    (h : sock.state.finSent = true) : (sock.commitClose packet).1.state.finSent = true := by
  unfold NormalSocket.commitClose
  split
  · exact h
  · cases hstate : sock.state <;> simp [hstate, ConnState.finSent] at h ⊢

theorem commitClose_sent {sock : NormalSocket} {packet q : TCPPacket}
    (h : (sock.commitClose packet).2 = .sent q) :
    q = packet ∧ (sock.commitClose packet).1.state.finSent = true := by
  unfold NormalSocket.commitClose at h ⊢
  split at h
  · contradiction
  · rename_i hmtx
    rw [if_neg hmtx]
    cases hstate : sock.state <;> simp only [hstate] at h ⊢
    all_goals first | contradiction | skip
    all_goals
      split at h
      · contradiction
      · rename_i hnums
        rw [if_neg hnums]
        cases h
        exact ⟨rfl, rfl⟩

theorem dispatch_sameSending (sock : NormalSocket) (received : TCPInfo) :
    SameSending sock (sock.dispatch received).1 := by
  rcases sock.dispatch_cases received with hreceives | ⟨-, -, -, heq⟩
  · exact hreceives.sameSending
  · rw [heq]
    exact ⟨rfl, rfl, rfl⟩

theorem finAcked_finSent (sock : NormalSocket) (ack : UInt32) :
    SameSending sock (sock.finAcked ack) ∧
      (sock.state.finSent = true → (sock.finAcked ack).state.finSent = true) := by
  unfold NormalSocket.finAcked
  simp only
  split
  · exact ⟨⟨rfl, rfl, rfl⟩, id⟩
  · split
    · exact ⟨⟨rfl, rfl, rfl⟩, fun _ => rfl⟩
    · exact ⟨⟨rfl, rfl, rfl⟩, id⟩

theorem vRead_same (sock : NormalSocket) (numbytes : UInt16) :
    SameSending sock (sock.vRead numbytes).1 ∧
      (sock.vRead numbytes).1.state = sock.state := by
  unfold NormalSocket.vRead
  split
  · exact ⟨⟨rfl, rfl, rfl⟩, rfl⟩
  · split
    · exact ⟨⟨rfl, rfl, rfl⟩, rfl⟩
    · split
      · exact ⟨⟨rfl, rfl, rfl⟩, rfl⟩
      · exact ⟨⟨rfl, rfl, rfl⟩, rfl⟩

namespace Ends

variable {b : UInt32} {p p' : Endpoint} {written : List UInt8}

theorem start (key : SocketTableKey) (baseSeq baseAck : UInt32) (window : UInt16) :
    Ends baseSeq (Endpoint.start (newSocket key baseSeq baseAck window)) [] where
  feeds := ⟨0, 0, 0, 0, .idle, [], Feeds.start key baseSeq baseAck window⟩
  data := by simp [Endpoint.start]
  closers := by simp [Endpoint.start]
  fins := by simp [Endpoint.start]

/-- A step that sends no FIN and accepts no byte. -/
theorem keep (h : Ends b p written) {out : List Emission}
    (hfeeds : ∃ A S H L sp payloads, Feeds b p' written (Ending p) A S H L sp payloads)
    (hclosers : p'.closers = p.closers) (hemitted : p'.emitted = p.emitted ++ out)
    (hout : ∀ m ∈ out, m.kind ≠ .fin ∧
      (m.packet.payload ≠ [] → Within b written.length m.packet))
    (hstate : p.sock.state.finSent = true → p'.sock.state.finSent = true) :
    Ends b p' written := by
  have hend : Ending p' → Ending p := by
    rintro (hne | ⟨m, hm, hfin⟩)
    · exact Or.inl (hclosers ▸ hne)
    · rw [hemitted] at hm
      rcases List.mem_append.mp hm with hold | hnew
      · exact Or.inr ⟨m, hold, hfin⟩
      · exact absurd hfin (hout m hnew).1
  obtain ⟨A, S, H, L, sp, payloads, hfeeds⟩ := hfeeds
  refine ⟨⟨A, S, H, L, sp, payloads, hfeeds.mono hend⟩, ?_, ?_, ?_⟩
  · rw [hemitted, List.forall_mem_append]
    exact ⟨h.data, fun m hm _ => (hout m hm).2⟩
  · rw [hclosers]
    exact h.closers
  · rw [hemitted, List.forall_mem_append]
    exact ⟨fun m hm hfin => ⟨(h.fins m hm hfin).1, hstate (h.fins m hm hfin).2⟩,
      fun m hm hfin => absurd hfin (hout m hm).1⟩

/-- A step of a thread that does not send. -/
theorem of_same (h : Ends b p written) (hsock : SameSending p.sock p'.sock)
    (hwriter : p'.writer = p.writer) (hmessages : p'.messages = p.messages)
    (hsender : p'.sender = p.sender) (hclosers : p'.closers = p.closers)
    (hemitted : p'.emitted = p.emitted)
    (hstate : p.sock.state.finSent = true → p'.sock.state.finSent = true) :
    Ends b p' written := by
  obtain ⟨A, S, H, L, sp, payloads, hfeeds⟩ := h.feeds
  have hnone : p'.emitted = p.emitted ++ [] := by rw [hemitted, List.append_nil]
  exact h.keep ⟨A, S, H, L, sp, payloads, hfeeds.of_same hsock hwriter hmessages hsender⟩ hclosers
    hnone (by simp) hstate

theorem write (h : Ends b p written) {w : PipeEvent} (hrunning : p.panicked = false)
    (hok : Orderly p (.write w)) (hstep : (p.pipe.writerStep w).map p.wrote = some p') :
    ∃ written', Ends b p' written' := by
  obtain ⟨A, S, H, L, sp, payloads, hfeeds⟩ := h.feeds
  have hshort : WriteRing.ShortMessages p.pipe w := by
    cases w with
    | call message => exact hok.2.2
    | _ => trivial
  have hopen : Ending p → ∀ message, w ≠ .call message := by
    rintro hend message rfl
    obtain ⟨hnone, hlast, -⟩ := hok
    rcases hend with hne | ⟨m, hm, hfin⟩
    · exact hne hnone
    · have hsent := (h.fins m hm hfin).2
      obtain ⟨w', hw, -⟩ := Option.map_eq_some_iff.mp hstep
      have hrefused : ¬ p.sock.writeRefused := by
        intro hrefused
        have hpipe : p.pipe.sock.writeRefused := hrefused
        simp only [Pipe.writerStep, if_pos hpipe] at hw
        split at hw <;> contradiction
      unfold NormalSocket.writeRefused at hrefused
      cases hstate : p.sock.state <;> simp [hstate, ConnState.finSent] at hsent hrefused hlast
  obtain ⟨hopened, written', hle, hfeeds'⟩ := hfeeds.write hrunning hshort hopen hstep
  obtain ⟨w', -, rfl⟩ := Option.map_eq_some_iff.mp hstep
  have hfins : ∀ m ∈ p.emitted, m.kind ≠ .fin := fun m hm hfin => hopened (Or.inr ⟨m, hm, hfin⟩)
  have hclosers : p.closers = [] := by
    by_contra hne
    exact hopened (Or.inl hne)
  refine ⟨written', ⟨A, S, H, L, sp, payloads, hfeeds'⟩, ?_, ?_, ?_⟩
  · intro m hm hkind hne
    exact (h.data m hm hkind hne).mono hle
  · intro q hq
    change q ∈ p.closers at hq
    simp [hclosers] at hq
  · intro m hm hfin
    exact absurd hfin (hfins m hm)

/-- The FIN that VClose builds when everything is sent. -/
theorem finPacket_number (h : Ends b p written) (hsettled : p.Settled) :
    p.sock.finPacket.seqNum = number b written.length ∧
      ∃ A S H L sp payloads, Feeds b p written True A S H L sp payloads := by
  obtain ⟨A, S, H, L, sp, payloads, hfeeds⟩ := h.feeds
  have hidle : p.writer = .idle := by
    have hresting := hsettled.1
    cases hpc : p.writer <;> simp [hpc, WriterPc.resting] at hresting ⊢
  have hnumber := hfeeds.fin_number
  rw [(hfeeds.all_sent_iff hidle).mp hsettled.2] at hnumber
  exact ⟨hnumber, A, S, H, L, sp, payloads, hfeeds.settle hidle hsettled.2⟩

theorem close (h : Ends b p written) (hsettled : p.Settled) :
    Ends b { p with closers := p.closers ++ [p.sock.finPacket] } written := by
  obtain ⟨hnumber, A, S, H, L, sp, payloads, hfeeds⟩ := h.finPacket_number hsettled
  refine ⟨⟨A, S, H, L, sp, payloads, ?_⟩, h.data, ?_, h.fins⟩
  · exact (hfeeds.mono fun _ => trivial).of_same ⟨rfl, rfl, rfl⟩ rfl rfl rfl
  · exact List.forall_mem_append.mpr ⟨h.closers, List.forall_mem_singleton.mpr hnumber⟩

/-- A step that sends FINs behind the written bytes. -/
theorem sendFINs (h : Ends b p written) {out : List Emission}
    (hfeeds : ∃ A S H L sp payloads, Feeds b p' written True A S H L sp payloads)
    (hclosers : ∀ q ∈ p'.closers, q.seqNum = number b written.length)
    (hemitted : p'.emitted = p.emitted ++ out)
    (hout : ∀ m ∈ out, m.kind = .fin ∧ m.packet.seqNum = number b written.length ∧
      p'.sock.state.finSent = true)
    (hstate : p.sock.state.finSent = true → p'.sock.state.finSent = true) :
    Ends b p' written := by
  obtain ⟨A, S, H, L, sp, payloads, hfeeds⟩ := hfeeds
  refine ⟨⟨A, S, H, L, sp, payloads, hfeeds.mono fun _ => trivial⟩, ?_, hclosers, ?_⟩
  · rw [hemitted, List.forall_mem_append]
    exact ⟨h.data, fun m hm hkind => absurd (hout m hm).1 hkind⟩
  · rw [hemitted, List.forall_mem_append]
    exact ⟨fun m hm hfin => ⟨(h.fins m hm hfin).1, hstate (h.fins m hm hfin).2⟩,
      fun m hm _ => (hout m hm).2⟩

section Commit

variable {k : ℕ} {packet : TCPPacket}

/-- A call of VClose goes on with the FIN that it has built. -/
theorem committing (h : Ends b p written) (hpacket : p.closers[k]? = some packet) :
    (∀ q ∈ p.closers.eraseIdx k, q.seqNum = number b written.length) ∧
      ∀ emitted : List Emission, ∃ A S H L sp payloads, Feeds b { p with
        sock := (p.sock.commitClose packet).1
        closers := p.closers.eraseIdx k
        emitted := emitted } written True A S H L sp payloads := by
  have hend : Ending p := Or.inl (List.ne_nil_of_mem (List.mem_of_getElem? hpacket))
  obtain ⟨A, S, H, L, sp, payloads, hfeeds⟩ := h.feeds
  refine ⟨fun q hq => h.closers q (List.mem_of_mem_eraseIdx hq), fun _ => ?_⟩
  exact ⟨A, S, H, L, sp, payloads, (hfeeds.mono fun _ => hend).of_same
    (commitClose_sameSending p.sock packet) rfl rfl rfl⟩

theorem commit (h : Ends b p written) (hpacket : p.closers[k]? = some packet) :
    Ends b { p with
      sock := (p.sock.commitClose packet).1
      closers := p.closers.eraseIdx k } written := by
  obtain ⟨hclosers, hfeeds⟩ := h.committing hpacket
  exact h.sendFINs (hfeeds p.emitted) hclosers (List.append_nil _).symm (by simp)
    (commitClose_finSent p.sock packet)

theorem sendFIN (h : Ends b p written) (hpacket : p.closers[k]? = some packet) {sent : TCPPacket}
    (hsent : (p.sock.commitClose packet).2 = .sent sent) :
    Ends b { p with
      sock := (p.sock.commitClose packet).1
      closers := p.closers.eraseIdx k
      emitted := p.emitted ++ [⟨.fin, sent⟩] } written := by
  obtain ⟨hclosers, hfeeds⟩ := h.committing hpacket
  obtain ⟨rfl, hstate⟩ := commitClose_sent hsent
  refine h.sendFINs (hfeeds _) hclosers rfl (List.forall_mem_singleton.mpr ?_)
    (commitClose_finSent p.sock sent)
  exact ⟨rfl, h.closers sent (List.mem_of_getElem? hpacket), hstate⟩

end Commit

theorem tick (h : Ends b p written) {call : WindowCall} (hsender : p.sender = .sliding call)
    (hsettled : call.cnt = 9 → p.Settled) {result : NormalSocket × WindowCall × List Emission}
    (htick : call.tick p.sock = some result) : Ends b (p.update result) written := by
  obtain ⟨k, hresent, -⟩ := WindowCall.tick_resent htick
  rcases WindowCall.tick_closes htick with ⟨hsock, hkinds⟩ | ⟨hnine, hsock, hout⟩
  · obtain ⟨A, S, H, L, sp, payloads, hfeeds⟩ := h.feeds
    obtain ⟨hfeeds', hwithin⟩ := hfeeds.resent hsender hresent
    refine h.keep ⟨A, S, H, L, sp, payloads, hfeeds'⟩ rfl rfl ?_ ?_
    · exact fun m hm => ⟨hkinds m hm, hwithin m hm (hkinds m hm)⟩
    · change _ → result.1.state.finSent = true
      rw [hsock]
      exact id
  · obtain ⟨hnumber, A, S, H, L, sp, payloads, hfeeds⟩ := h.finPacket_number (hsettled hnine)
    refine h.sendFINs ⟨A, S, H, L, sp, payloads, (hfeeds.resent hsender hresent).1⟩ h.closers rfl
      (fun m hm => ?_) ?_
    · obtain ⟨hkind, hsent⟩ := CloseResult.mem_emissions (hout ▸ hm)
      obtain ⟨hpacket, hstate⟩ := commitClose_sent hsent
      change m.kind = .fin ∧ _ ∧ result.1.state.finSent = true
      rw [hsock, hpacket]
      exact ⟨hkind, hnumber, hstate⟩
    · change _ → result.1.state.finSent = true
      rw [hsock]
      exact commitClose_finSent _ _

theorem run (h : Ends b p written) {call : WindowCall} (hsender : p.sender = .sliding call)
    (hsafe : call.SafeRun p.sock) {result : NormalSocket × WindowCall × List Emission}
    (hrun : call.run p.sock = some result) : Ends b (p.update result) written := by
  obtain ⟨A, S, H, L, sp, payloads, hfeeds⟩ := h.feeds
  have hrun' := WindowCall.run_step hrun
  obtain ⟨⟨A', S', sp', hfeeds'⟩, hwithin⟩ := hfeeds.slide hsender hsafe hrun'
  refine h.keep ⟨A', S', H, L, sp', payloads, hfeeds'⟩ rfl rfl ?_ ?_
  · exact fun m hm => ⟨hrun'.no_fin m hm, hwithin m hm⟩
  · change _ → result.1.state.finSent = true
    rw [hrun'.sameRing.state]
    exact id

theorem step (h : Ends b p written) {e : EndpointEvent} (hok : Orderly p e)
    (hstep : p.step e = some p') : ∃ written', Ends b p' written' := by
  obtain ⟨hrunning, hstep⟩ := Endpoint.step_step hstep
  obtain ⟨A, S, H, L, sp, payloads, hfeeds⟩ := h.feeds
  cases hstep with
  | write e w hw => exact h.write hrunning hok (by rw [hw, Option.map_some])
  | handOver call hwriter hready =>
    exact ⟨written, h.keep ⟨_, _, _, _, _, _, hfeeds.handOver hwriter hready⟩ rfl
      (List.append_nil _).symm (by simp) id⟩
  | outOfBounds lbw hsender hchunk => exact absurd hchunk (hfeeds.takeChunk_ne_none hsender)
  | nothing lbw hsender hchunk =>
    exact ⟨written, h.keep ⟨_, _, _, _, _, _, hfeeds.nothing hsender hchunk⟩ rfl
      (List.append_nil _).symm (by simp) id⟩
  | build lbw packet hsender hchunk =>
    exact ⟨written, h.keep ⟨_, _, _, _, _, _, hfeeds.build hsender hchunk⟩ rfl
      (List.append_nil _).symm (by simp) id⟩
  | run call result hsender hrun =>
    exact ⟨written, h.run hsender (by simpa only [Orderly, hsender] using hok) hrun⟩
  | timeout call again hsender hagain =>
    exact ⟨written, h.keep
      ⟨A, S, H, L, sp, payloads, hfeeds.of_same ⟨rfl, rfl, rfl⟩ rfl rfl rfl⟩ rfl rfl
      (hfeeds.timeout hsender hagain) id⟩
  | tick call result hsender htick =>
    exact ⟨written, h.tick hsender (by simpa only [Orderly, hsender] using hok) htick⟩
  | arrive received =>
    refine ⟨written, ?_⟩
    rcases Transfer.noteWindow_cases p.sock received with heq | heq <;> rw [heq]
    · exact h.of_same ⟨rfl, rfl, rfl⟩ rfl rfl rfl rfl rfl id
    · exact h.of_same ⟨rfl, rfl, rfl⟩ rfl rfl rfl rfl rfl id
  | blocked received harriving hblocked | absorbed received harriving
  | toFinChan received ack harriving | reply received packet harriving hreply =>
    exact ⟨written, h.of_same (dispatch_sameSending p.sock received) rfl rfl rfl rfl rfl
      (NormalSocket.dispatch_state finSent_keptByFIN received)⟩
  | finAcked ack =>
    obtain ⟨hsame, hstate⟩ := finAcked_finSent p.sock ack
    exact ⟨written, h.of_same hsame rfl rfl rfl rfl rfl hstate⟩
  | read numbytes sock data hread =>
    obtain ⟨hsame, hstate⟩ := vRead_same p.sock numbytes
    rw [hread] at hsame hstate
    exact ⟨written, h.of_same hsame rfl rfl rfl rfl rfl (by rw [hstate]; exact id)⟩
  | close => exact ⟨written, h.close hok⟩
  | commit k packet hpacket => exact ⟨written, h.commit hpacket⟩
  | sendFIN k packet sent hpacket hsent => exact ⟨written, h.sendFIN hpacket hsent⟩

end Ends

end Closing

end IpTcp
