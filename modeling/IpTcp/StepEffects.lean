import IpTcp.Endpoint
import IpTcp.SlidingInvariant

/-!
What a step does to a connected socket, said once for all of its threads. VWrite, the
sending threads and a segment that only arrives leave the receiving side, the connection
state and the registered FINs alone. ReceiverThread, VRead, VClose and the goroutine that
VClose leaves behind do not, and each of them is one function of the model. Results about
the receiving side, the state or the FINs look at these five cases.
-/
namespace IpTcp

def CloseResult.emissions : CloseResult → List Emission
  | .sent packet => [⟨.fin, packet⟩]
  | .blocked | .invalidState => []

theorem CloseResult.mem_emissions {result : CloseResult} {m : Emission}
    (h : m ∈ result.emissions) : m.kind = .fin ∧ result = .sent m.packet := by
  cases result with
  | sent packet =>
    cases List.mem_singleton.mp h
    exact ⟨rfl, rfl⟩
  | blocked | invalidState => contradiction

/-- VWrite changes the write buffer behind `LBW` and its own flag. -/
theorem Pipe.writerStep_stores {w w' : Pipe} {e : PipeEvent} (h : w.writerStep e = some w') :
    ∃ buffer LBW first, ∃ hLBW : LBW.toNat < 65536, w'.sock = { w.sock with
      writeBuffer := { w.sock.writeBuffer with buffer := buffer, LBW := LBW, LBW_lt := hLBW }
      notFirstWrite := first } := by
  cases e with
  | call message =>
    simp only [writerStep] at h
    split at h
    · split at h
      · contradiction
      · cases h
        exact ⟨_, _, _, w.sock.writeBuffer.LBW_lt, rfl⟩
    · contradiction
  | test =>
    simp only [writerStep] at h
    split at h
    · split at h <;> cases h <;> exact ⟨_, _, _, w.sock.writeBuffer.LBW_lt, rfl⟩
    · contradiction
  | copy =>
    simp only [writerStep] at h
    split at h
    · split at h
      · cases h
        exact ⟨_, _, _, w.sock.writeBuffer.LBW_lt, rfl⟩
      · next sock call hcopy =>
        cases h
        simp only [NormalSocket.copyChunk, Option.bind_eq_bind, Option.bind_eq_some_iff,
          Option.some.injEq, Prod.mk.injEq] at hcopy
        obtain ⟨-, -, -, -, -, -, -, -, rfl, -⟩ := hcopy
        exact ⟨_, _, _, mod_windowSize_lt _, rfl⟩
    · contradiction
  | handOver | build | move sent acked | finish => contradiction

/-- The retransmission thread resends, or gives up and closes. -/
theorem WindowCall.tick_closes {sock : NormalSocket} {call : WindowCall}
    {result : NormalSocket × WindowCall × List Emission} (htick : call.tick sock = some result) :
    (result.1 = sock ∧ ∀ m ∈ result.2.2, m.kind ≠ .fin) ∨
      (call.cnt = 9 ∧ result.1 = sock.vClose.1 ∧ result.2.2 = sock.vClose.2.emissions) := by
  obtain ⟨-, rfl | ⟨-, k, -, ⟨-, rfl⟩ | ⟨-, rfl⟩⟩⟩ := tick_cases htick
  · exact Or.inl ⟨rfl, by simp⟩
  · unfold resend
    split
    · exact Or.inl ⟨rfl, by simp⟩
    · next node _ =>
      split
      · simp only
        generalize hcnt : (if call.last_index = node.index then call.cnt + 1 else 1) = cnt
        split
        · next hten =>
          have hnine : call.cnt = 9 := by
            rw [hten] at hcnt
            split at hcnt
            · omega
            · contradiction
          refine Or.inr ⟨hnine, ?_⟩
          rcases sock.vClose with ⟨closed, _ | _ | packet⟩ <;> exact ⟨rfl, rfl⟩
        · exact Or.inl ⟨rfl, by simp⟩
      · exact Or.inl ⟨rfl, by simp⟩
  · refine Or.inl ?_
    unfold resendFirst
    split
    · exact ⟨rfl, by simp⟩
    · split <;> exact ⟨rfl, by simp⟩

/-- What VWrite, the sending threads and an arrival leave alone. The acknowledgement mutex may
be lost. -/
structure Untouched (sock sock' : NormalSocket) : Prop where
  readBuffer : sock'.readBuffer = sock.readBuffer
  cumReadNXT : sock'.cumReadNXT = sock.cumReadNXT
  baseAck : sock'.baseAck = sock.baseAck
  earlyPQ : sock'.earlyPQ = sock.earlyPQ
  state : sock'.state = sock.state
  stateMtx : sock'.stateMtx = sock.stateMtx
  unackedFINs : sock'.unackedFINs = sock.unackedFINs
  unackedMtx : sock.unackedMtx = true → sock'.unackedMtx = true

namespace Untouched

variable {sock : NormalSocket}

theorem refl (sock : NormalSocket) : Untouched sock sock :=
  ⟨rfl, rfl, rfl, rfl, rfl, rfl, rfl, id⟩

theorem noteWindow (sock : NormalSocket) (received : TCPInfo) :
    Untouched sock (sock.noteWindow received) := by
  unfold NormalSocket.noteWindow
  split
  · exact ⟨rfl, rfl, rfl, rfl, rfl, rfl, rfl, id⟩
  · exact .refl sock

theorem writerStep {w w' : Pipe} {e : PipeEvent} (h : w.writerStep e = some w') :
    Untouched w.sock w'.sock := by
  obtain ⟨buffer, LBW, first, hLBW, heq⟩ := Pipe.writerStep_stores h
  rw [heq]
  exact ⟨rfl, rfl, rfl, rfl, rfl, rfl, rfl, id⟩

theorem run {call : WindowCall} {result : NormalSocket × WindowCall × List Emission}
    (hstep : call.Step sock result) : Untouched sock result.1 := by
  cases hstep with
  | probeAcked probe received more =>
    simp only [WindowCall.probeAcked]
    split
    · split <;> exact ⟨rfl, rfl, rfl, rfl, rfl, rfl, rfl, id⟩
    · exact ⟨rfl, rfl, rfl, rfl, rfl, rfl, rfl, id⟩
  | ack received more =>
    simp only [WindowCall.processAck]
    split <;> exact ⟨rfl, rfl, rfl, rfl, rfl, rfl, rfl, id⟩
  | repeated received more => exact ⟨rfl, rfl, rfl, rfl, rfl, rfl, rfl, fun _ => rfl⟩
  | _ => exact ⟨rfl, rfl, rfl, rfl, rfl, rfl, rfl, id⟩

end Untouched

namespace NormalSocket

variable (sock : NormalSocket)

theorem dispatch_unackedMtx (received : TCPInfo) :
    (sock.dispatch received).1.unackedMtx = sock.unackedMtx := by
  rcases sock.dispatch_cases received with hreceives | ⟨-, -, -, heq⟩
  · exact hreceives.unackedMtx
  · rw [heq]

theorem vRead_unackedMtx (numbytes : UInt16) :
    (sock.vRead numbytes).1.unackedMtx = sock.unackedMtx := by
  unfold vRead
  split
  · rfl
  · split
    · rfl
    · split <;> rfl

theorem commitClose_unackedMtx (packet : TCPPacket) :
    (sock.commitClose packet).1.unackedMtx = sock.unackedMtx := by
  unfold commitClose
  split
  · rfl
  · simp only
    split
    · rfl
    · split <;> rfl

theorem finAcked_unackedMtx (ack : UInt32) : (sock.finAcked ack).unackedMtx = sock.unackedMtx := by
  unfold finAcked
  simp only
  split
  · rfl
  · split <;> rfl

end NormalSocket

namespace Endpoint

/-- The effect of a step: none on what `Untouched` names, or that of one of the four functions
that change it. Only VClose sends a FIN. -/
inductive Affects (p p' : Endpoint) : EndpointEvent → Prop
  | untouched (e : EndpointEvent) (out : List Emission) : Untouched p.sock p'.sock →
      p'.emitted = p.emitted ++ out → (∀ m ∈ out, m.kind ≠ .fin) → p'.output = p.output →
      p'.finAck = p.finAck → Affects p p' e
  | receive (received : TCPInfo) : p.arriving = some received →
      p'.sock = (p.sock.dispatch received).1 → p'.emitted = p.emitted → p'.output = p.output →
      (p'.finAck = p.finAck ∨ ∃ ack, p'.finAck = some ack ∧
        (p.sock.dispatch received).2 = .toFinChan ack) → Affects p p' .dispatch
  | read (numbytes : UInt16) : p'.sock = (p.sock.vRead numbytes).1 → p'.emitted = p.emitted →
      p'.finAck = p.finAck → Affects p p' (.read numbytes)
  | close (e : EndpointEvent) (packet : TCPPacket) : p'.sock = (p.sock.commitClose packet).1 →
      p'.emitted = p.emitted ++ (p.sock.commitClose packet).2.emissions →
      p'.output = p.output → p'.finAck = p.finAck → Affects p p' e
  | finAcked (ack : UInt32) : p.finAck = some ack → p'.sock = p.sock.finAcked ack →
      p'.emitted = p.emitted → p'.output = p.output → p'.finAck = none → Affects p p' .finAcked

theorem Step.affects {p p' : Endpoint} {e : EndpointEvent} (h : Step p e p') : Affects p p' e := by
  cases h with
  | write e w hw =>
    exact .untouched _ [] (.writerStep hw) (List.append_nil _).symm (by simp) rfl rfl
  | handOver | outOfBounds | nothing | build | close =>
    exact .untouched _ [] (.refl _) (List.append_nil _).symm (by simp) rfl rfl
  | run call result hsender hrun =>
    have hturn := WindowCall.run_step hrun
    exact .untouched _ result.2.2 (.run hturn) rfl hturn.no_fin rfl rfl
  | timeout call again hsender hagain =>
    refine .untouched _ again (.refl _) rfl ?_ rfl rfl
    unfold WindowCall.timeout at hagain
    split at hagain
    · cases hagain
      simp
    · contradiction
  | tick call result hsender htick =>
    rcases WindowCall.tick_closes htick with ⟨hsock, hout⟩ | ⟨-, hsock, hout⟩
    · exact .untouched _ result.2.2 (hsock ▸ .refl _) rfl hout rfl rfl
    · exact .close _ p.sock.finPacket hsock (congrArg (p.emitted ++ ·) hout) rfl rfl
  | arrive received =>
    exact .untouched _ [] (.noteWindow _ received) (List.append_nil _).symm (by simp) rfl rfl
  | blocked received harriving | absorbed received harriving
  | reply received packet harriving =>
    exact .receive received harriving rfl rfl rfl (Or.inl rfl)
  | toFinChan received ack harriving hack =>
    exact .receive received harriving rfl rfl rfl (Or.inr ⟨ack, rfl, hack⟩)
  | finAcked ack hack => exact .finAcked ack hack rfl rfl rfl rfl
  | read numbytes sock data hread => exact .read numbytes (by rw [hread]) rfl rfl
  | commit k packet hpacket hsent =>
    refine .close _ packet rfl ?_ rfl rfl
    cases hresult : (p.sock.commitClose packet).2 with
    | sent sent => exact absurd hresult (hsent sent)
    | blocked | invalidState => exact (List.append_nil _).symm
  | sendFIN k packet sent hpacket hsent =>
    refine .close _ packet rfl ?_ rfl rfl
    rw [hsent]
    rfl

/-- A lost acknowledgement mutex stays lost. -/
theorem Step.unackedMtx {p p' : Endpoint} {e : EndpointEvent} (h : Step p e p')
    (hmtx : p.sock.unackedMtx = true) : p'.sock.unackedMtx = true := by
  cases h.affects with
  | untouched _ out hsame => exact hsame.unackedMtx hmtx
  | receive received _ hsock => rw [hsock, p.sock.dispatch_unackedMtx, hmtx]
  | read numbytes hsock => rw [hsock, p.sock.vRead_unackedMtx, hmtx]
  | close _ packet hsock => rw [hsock, p.sock.commitClose_unackedMtx, hmtx]
  | finAcked ack _ hsock => rw [hsock, p.sock.finAcked_unackedMtx, hmtx]

end Endpoint

end IpTcp
