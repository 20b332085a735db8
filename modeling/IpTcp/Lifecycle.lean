import IpTcp.Incoming

/-!
The connection state over whole runs of a connected socket, whatever segments arrive and
however its threads interleave. The state only moves along five edges of the TCP state
diagram, one in a step, and the socket sends at most one FIN: VClose and the retransmission
thread that gives up both send it together with the move, except when they find the
acknowledgement mutex lost and wait for ever.
-/
namespace IpTcp.Lifecycle

open Runs NormalSocket Closing

/-- The moves that the code makes after the handshake. -/
inductive Follows : ConnState → ConnState → Prop
  | activeClose : Follows .established .finWait1
  | finAcked : Follows .finWait1 .finWait2
  | bothClosed : Follows .finWait2 .timeWait
  | peerClose : Follows .established .closeWait
  | passiveClose : Follows .closeWait .lastAck

theorem Follows.ne_established {old state : ConnState} (h : Follows old state) :
    state ≠ .established := by
  cases h <;> decide

/-- At most one move, and mutexes that are lost stay lost. -/
structure Moves (sock sock' : NormalSocket) : Prop where
  state : sock'.state = sock.state ∨ Follows sock.state sock'.state
  stateMtx : sock.stateMtx = true → sock'.stateMtx = true
  unackedMtx : sock.unackedMtx = true → sock'.unackedMtx = true

structure Quiet (sock sock' : NormalSocket) : Prop extends Moves sock sock' where
  finSent : sock'.state.finSent = sock.state.finSent

namespace Quiet

variable {sock sock' : NormalSocket}

theorem of_state (hstate : sock'.state = sock.state)
    (hmtx : sock.stateMtx = true → sock'.stateMtx = true)
    (hunacked : sock.unackedMtx = true → sock'.unackedMtx = true) : Quiet sock sock' :=
  ⟨⟨Or.inl hstate, hmtx, hunacked⟩, by rw [hstate]⟩

theorem of_untouched (h : Untouched sock sock') : Quiet sock sock' :=
  .of_state h.state (fun hmtx => h.stateMtx.trans hmtx) h.unackedMtx

theorem refl (sock : NormalSocket) : Quiet sock sock := .of_state rfl id id

/-- Behind a FIN of the peer no further one moves the state. -/
theorem keptByFIN (old : NormalSocket) : KeptByFIN fun state mtx =>
    (state = old.state ∨ Follows old.state state ∧ state.finSeen = true) ∧
      (old.stateMtx = true → mtx = true) ∧ state.finSent = old.state.finSent where
  established := by
    rintro ⟨hstate | ⟨hfollows, -⟩, hmtx, hsent⟩
    · exact ⟨Or.inr ⟨hstate ▸ .peerClose, rfl⟩, hmtx, hsent⟩
    · exact absurd rfl hfollows.ne_established
  finWait2 := by
    rintro ⟨hstate | ⟨-, hseen⟩, hmtx, hsent⟩
    · exact ⟨Or.inr ⟨hstate ▸ .bothClosed, rfl⟩, hmtx, hsent⟩
    · contradiction
  other _ _ _ := fun ⟨hstate, _, hsent⟩ => ⟨hstate, fun _ => rfl, hsent⟩

theorem dispatch (sock : NormalSocket) (received : TCPInfo) :
    Quiet sock (sock.dispatch received).1 := by
  obtain ⟨hstate, hmtx, hsent⟩ := dispatch_state (keptByFIN sock) received
    ⟨Or.inl rfl, id, rfl⟩
  exact ⟨⟨hstate.imp id And.left, hmtx, (sock.dispatch_unackedMtx received).trans⟩, hsent⟩

theorem finAcked (sock : NormalSocket) (ack : UInt32) : Quiet sock (sock.finAcked ack) := by
  unfold NormalSocket.finAcked
  simp only
  split
  · exact .of_state rfl id id
  · split
    · next hstate =>
      exact ⟨⟨Or.inr (by rw [hstate]; exact .finAcked), id, id⟩, by rw [hstate]; rfl⟩
    · exact .of_state rfl id id

theorem vRead (sock : NormalSocket) (numbytes : UInt16) :
    Quiet sock (sock.vRead numbytes).1 := by
  unfold NormalSocket.vRead
  split
  · exact .refl sock
  · split
    · exact .refl sock
    · split
      · exact .refl sock
      · exact .of_state rfl id id

end Quiet

def fins (emitted : List Emission) : ℕ := emitted.countP fun m => m.kind = .fin

theorem fins_eq_zero {emitted : List Emission} (h : ∀ m ∈ emitted, m.kind ≠ .fin) :
    fins emitted = 0 :=
  List.countP_eq_zero.mpr fun m hm => by simpa using h m hm

inductive Closes (n : ℕ) (sock : NormalSocket) : Prop
  | unsent : n = 0 → (sock.state.finSent = true → sock.stateMtx = true ∧ sock.unackedMtx = true) →
      Closes n sock
  | sent : n = 1 → sock.state.finSent = true → Closes n sock

namespace Closes

variable {n : ℕ} {sock sock' : NormalSocket} {p p' : Endpoint}

theorem quiet (h : Closes n sock) (hquiet : Quiet sock sock') : Closes n sock' := by
  cases h with
  | unsent hn hlost =>
    refine .unsent hn fun hsent => ?_
    obtain ⟨hmtx, hunacked⟩ := hlost (hquiet.finSent ▸ hsent)
    exact ⟨hquiet.stateMtx hmtx, hquiet.unackedMtx hunacked⟩
  | sent hn hsent => exact .sent hn (hquiet.finSent.trans hsent)

/-- VClose from the state mutex on. The state moves with the FIN, or the mutex is lost. -/
theorem commitClose (h : Closes n sock) (packet : TCPPacket) :
    Moves sock (sock.commitClose packet).1 ∧
      Closes (n + fins (sock.commitClose packet).2.emissions) (sock.commitClose packet).1 := by
  have hstays : Moves sock sock ∧ Closes (n + 0) sock := ⟨⟨Or.inl rfl, id, id⟩, h⟩
  unfold NormalSocket.commitClose
  split
  · exact hstays
  · next hmtx =>
    simp only
    split
    · exact hstays
    · next state hnext =>
      have hfollows : Follows sock.state state ∧ sock.state.finSent = false ∧
          state.finSent = true := by
        cases hstate : sock.state <;> rw [hstate] at hnext <;> cases hnext
        · exact ⟨.activeClose, rfl, rfl⟩
        · exact ⟨.passiveClose, rfl, rfl⟩
      obtain ⟨hedge, hopen, hclosed⟩ := hfollows
      have hn : n = 0 := by
        cases h with
        | unsent hn => exact hn
        | sent _ hsent => rw [hopen] at hsent; contradiction
      subst hn
      split
      · next hunacked =>
        exact ⟨⟨Or.inr hedge, fun _ => rfl, id⟩, .unsent rfl fun _ => ⟨rfl, hunacked⟩⟩
      · exact ⟨⟨Or.inr hedge, id, id⟩, .sent rfl hclosed⟩

end Closes

theorem quiet_step {p p' : Endpoint} {out : List Emission} (h : Closes (fins p.emitted) p.sock)
    (hquiet : Quiet p.sock p'.sock) (hemitted : p'.emitted = p.emitted ++ out)
    (hout : ∀ m ∈ out, m.kind ≠ .fin) :
    Moves p.sock p'.sock ∧ Closes (fins p'.emitted) p'.sock := by
  refine ⟨hquiet.toMoves, ?_⟩
  rw [hemitted, fins, List.countP_append, ← fins, ← fins, fins_eq_zero hout]
  exact h.quiet hquiet

/-- Every step of every thread. -/
theorem Closes.step {p p' : Endpoint} {e : EndpointEvent} (h : Closes (fins p.emitted) p.sock)
    (hstep : p.step e = some p') :
    Moves p.sock p'.sock ∧ Closes (fins p'.emitted) p'.sock := by
  have hsilent : Quiet p.sock p'.sock → p'.emitted = p.emitted →
      Moves p.sock p'.sock ∧ Closes (fins p'.emitted) p'.sock := by
    intro hquiet hemitted
    exact quiet_step h hquiet (hemitted.trans (List.append_nil _).symm) (by simp)
  cases (Endpoint.step_step hstep).2.affects with
  | untouched _ out hsame hemitted hout => exact quiet_step h (.of_untouched hsame) hemitted hout
  | receive received _ hsock hemitted => exact hsilent (hsock ▸ .dispatch p.sock received) hemitted
  | read numbytes hsock hemitted => exact hsilent (hsock ▸ .vRead p.sock numbytes) hemitted
  | close _ packet hsock hemitted =>
    rw [hsock, hemitted, fins, List.countP_append, ← fins, ← fins]
    exact h.commitClose packet
  | finAcked ack _ hsock hemitted => exact hsilent (hsock ▸ .finAcked p.sock ack) hemitted

/-- In every run the state moves along the diagram, and the FIN is sent once, when the state
moves to one that says so. -/
theorem one_fin_follows_diagram (key : SocketTableKey) (baseSeq baseAck : UInt32)
    (window : UInt16) {p : Endpoint}
    (h : Reach Endpoint.step (fun _ _ => True)
      (Endpoint.start (newSocket key baseSeq baseAck window)) p) :
    fins p.emitted ≤ 1 ∧ (fins p.emitted = 1 → p.sock.state.finSent = true) ∧
      (p.sock.state.finSent = true → fins p.emitted = 1 ∨
        p.sock.stateMtx = true ∧ p.sock.unackedMtx = true) ∧
      ∀ e p', p.step e = some p' →
        p'.sock.state = p.sock.state ∨ Follows p.sock.state p'.sock.state := by
  have hcloses : Closes (fins p.emitted) p.sock :=
    h.invariant (fun p => Closes (fins p.emitted) p.sock)
      (.unsent rfl fun hsent => by cases hsent)
      (fun _ _ _ hp _ hstep => (hp.step hstep).2)
  have hmoves : ∀ e p', p.step e = some p' →
      p'.sock.state = p.sock.state ∨ Follows p.sock.state p'.sock.state :=
    fun e p' hstep => (hcloses.step hstep).1.state
  cases hcloses with
  | unsent hn hlost =>
    exact ⟨by omega, by omega, fun hsent => Or.inr (hlost hsent), hmoves⟩
  | sent hn hsent => exact ⟨by omega, fun _ => hsent, fun _ => Or.inl hn, hmoves⟩

/-- A socket that closes, is acknowledged and sees the FIN of its peer. -/
theorem one_fin_follows_diagram_both_closed :
    ∃ p : Endpoint, p.sock.state = .timeWait ∧ fins p.emitted ≤ 1 := by
  obtain ⟨p, hreach, hstate⟩ := exists_reach Endpoint.step (fun _ _ => True)
    (Endpoint.start (newSocket sampleKey 7 100 8)) (fun p => p.sock.state = .timeWait)
    [.close, .commit 0, .close, .commit 0,
      .arrive ⟨sampleKey, tcpFlagAck, 101, 9, 8, []⟩, .dispatch, .finAcked,
      .arrive ⟨sampleKey, finAck, 101, 9, 8, []⟩, .dispatch] (by decide)
  exact ⟨p, hstate, (one_fin_follows_diagram sampleKey 7 100 8 hreach).1⟩

end IpTcp.Lifecycle
