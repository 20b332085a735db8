import IpTcp.Conversation
import IpTcp.Lifecycle

/-!
How a conversation ends. A side that has seen the FIN of the other one holds everything that
was written there; a side whose own FIN was acknowledged knows that everything it wrote has
been received. In TIME_WAIT both directions are complete.
-/
namespace IpTcp.Release

open Runs NormalSocket Incoming Outgoing Conversation

/-- What no step does to the FINs of a socket but VClose and the goroutine that waits for the
acknowledgement. -/
structure Keeps (sock sock' : NormalSocket) : Prop where
  fins : ∀ ack, sock'.unackedFINs ack = true → sock.unackedFINs ack = true
  finWait2 : sock'.state = .finWait2 → sock.state = .finWait2
  timeWait : sock'.state = .timeWait → sock.state = .timeWait ∨ sock.state = .finWait2
  seen : sock'.state.finSeen = true → sock.state.finSeen = true ∨ sock'.unackedMtx = false
  kept : sock.state.finSeen = true → sock'.state.finSeen = true

namespace Keeps

variable {sock sock' : NormalSocket}

theorem of_same (hfins : sock'.unackedFINs = sock.unackedFINs)
    (hstate : sock'.state = sock.state) : Keeps sock sock' :=
  ⟨fun _ h => hfins ▸ h, fun h => hstate ▸ h, fun h => Or.inl (hstate ▸ h),
    fun h => Or.inl (hstate ▸ h), fun h => hstate ▸ h⟩

theorem of_untouched (h : Untouched sock sock') : Keeps sock sock' :=
  .of_same h.unackedFINs h.state

theorem refl (sock : NormalSocket) : Keeps sock sock := .of_same rfl rfl

/-- A FIN moves the state along one of two edges, or not at all. -/
theorem dispatch_moves (sock : NormalSocket) (received : TCPInfo) :
    (sock.dispatch received).1.state = sock.state ∨
      sock.state = .established ∧ (sock.dispatch received).1.state = .closeWait ∨
      sock.state = .finWait2 ∧ (sock.dispatch received).1.state = .timeWait := by
  have hkept : KeptByFIN fun state _ => state = sock.state ∨
      sock.state = .established ∧ state = .closeWait ∨
      sock.state = .finWait2 ∧ state = .timeWait := by
    constructor
    · rintro (hstate | ⟨-, hstate⟩ | ⟨-, hstate⟩)
      · exact Or.inr (Or.inl ⟨hstate.symm, rfl⟩)
      · contradiction
      · contradiction
    · rintro (hstate | ⟨-, hstate⟩ | ⟨-, hstate⟩)
      · exact Or.inr (Or.inr ⟨hstate.symm, rfl⟩)
      · contradiction
      · contradiction
    · exact fun _ _ _ h => h
  exact dispatch_state hkept received (Or.inl rfl)

/-- Without its mutex ReceiverThread changes nothing. -/
theorem dispatch_blocked (hmtx : sock.unackedMtx = true) (received : TCPInfo) :
    (sock.dispatch received).1 = sock := by
  unfold NormalSocket.dispatch
  rw [if_pos hmtx]
  split
  · rfl
  · rfl

theorem dispatch (sock : NormalSocket) (received : TCPInfo) :
    Keeps sock (sock.dispatch received).1 := by
  cases hmtx : sock.unackedMtx with
  | true =>
    rw [dispatch_blocked hmtx received]
    exact .refl sock
  | false =>
    have hsame : (sock.dispatch received).1.unackedFINs = sock.unackedFINs ∧
        (sock.dispatch received).1.unackedMtx = sock.unackedMtx := by
      rcases sock.dispatch_cases received with hreceives | ⟨-, -, -, heq⟩
      · exact ⟨hreceives.unackedFINs, hreceives.unackedMtx⟩
      · rw [heq]
        exact ⟨rfl, rfl⟩
    have hseen : (sock.dispatch received).1.state.finSeen = true → sock.state.finSeen = true ∨
        (sock.dispatch received).1.unackedMtx = false :=
      fun _ => Or.inr (hsame.2.trans hmtx)
    rcases dispatch_moves sock received with hstate | ⟨hold, hstate⟩ | ⟨hold, hstate⟩
    · exact .of_same hsame.1 hstate
    · refine ⟨fun ack h => hsame.1 ▸ h, ?_, ?_, hseen, fun _ => by rw [hstate]; rfl⟩
      · rw [hstate]
        exact fun h => by contradiction
      · rw [hstate]
        exact fun h => by contradiction
    · refine ⟨fun ack h => hsame.1 ▸ h, ?_, fun _ => Or.inr hold, hseen,
        fun _ => by rw [hstate]; rfl⟩
      rw [hstate]
      exact fun h => by contradiction

theorem vRead (sock : NormalSocket) (numbytes : UInt16) : Keeps sock (sock.vRead numbytes).1 := by
  unfold NormalSocket.vRead
  split
  · exact .refl sock
  · split
    · exact .refl sock
    · split
      · exact .refl sock
      · exact .of_same rfl rfl

end Keeps

structure Releases (p p' : Endpoint) : Prop where
  fins : ∀ ack, p'.sock.unackedFINs ack = true → p.sock.unackedFINs ack = true ∨
    ∃ m ∈ p'.emitted, m.kind = .fin ∧ ack = m.packet.seqNum + 1
  finWait2 : p'.sock.state = .finWait2 → p.sock.state = .finWait2 ∨ ∃ ack, p.finAck = some ack
  timeWait : p'.sock.state = .timeWait → p.sock.state = .timeWait ∨ p.sock.state = .finWait2
  seen : p'.sock.state.finSeen = true → p.sock.state.finSeen = true ∨ p'.sock.unackedMtx = false
  kept : p.sock.state.finSeen = true → p'.sock.state.finSeen = true

namespace Releases

variable {p p' : Endpoint} {e : EndpointEvent}

theorem of_keeps (h : Keeps p.sock p'.sock) : Releases p p' :=
  ⟨fun ack hack => Or.inl (h.fins ack hack), fun hstate => Or.inl (h.finWait2 hstate),
    h.timeWait, h.seen, h.kept⟩

/-- VClose changes nothing, or it moves the state and then waits for ever or sends its FIN. -/
theorem commitClose_cases (sock : NormalSocket) (packet : TCPPacket) :
    (sock.commitClose packet).1 = sock ∨ ∃ state, SendsFIN sock.state state ∧
      (sock.commitClose packet = ({ sock with state := state, stateMtx := true }, .blocked) ∨
        sock.commitClose packet = ({ sock with
          state := state
          unackedFINs := Function.update sock.unackedFINs (packet.seqNum + 1) true },
          .sent packet)) := by
  unfold NormalSocket.commitClose
  split
  · exact Or.inl rfl
  · simp only
    split
    · exact Or.inl rfl
    · next state hnext =>
      have hsends : SendsFIN sock.state state := by
        cases hstate : sock.state <;> rw [hstate] at hnext <;> cases hnext
        · exact .active
        · exact .passive
      refine Or.inr ⟨state, hsends, ?_⟩
      split
      · exact Or.inl rfl
      · exact Or.inr rfl

/-- VClose enters the number behind the FIN that it sends. -/
theorem commitClose {packet : TCPPacket} (hsock : p'.sock = (p.sock.commitClose packet).1)
    (hemitted : p'.emitted = p.emitted ++ (p.sock.commitClose packet).2.emissions) :
    Releases p p' := by
  rcases commitClose_cases p.sock packet with hsame | ⟨state, hsends, hcases⟩
  · exact .of_keeps (by rw [hsock, hsame]; exact .refl _)
  · have hstate : p'.sock.state = state := by
      rcases hcases with heq | heq
      · rw [hsock, heq]
      · rw [hsock, heq]
    obtain ⟨hclosed, hseen⟩ := hsends.next
    refine ⟨fun ack hack => ?_, fun h => ?_, fun h => ?_, fun h => Or.inl ?_, fun h => ?_⟩
    · rcases hcases with heq | heq
      · rw [hsock, heq] at hack
        exact Or.inl hack
      · rw [hsock, heq] at hack
        by_cases hnew : ack = packet.seqNum + 1
        · refine Or.inr ⟨⟨.fin, packet⟩, ?_, rfl, hnew⟩
          rw [hemitted, heq]
          exact List.mem_append_right _ (List.mem_singleton_self _)
        · exact Or.inl ((Function.update_of_ne hnew _ _).symm.trans hack)
    · rw [hstate] at h
      rcases hclosed with hfin | hlast <;> simp_all
    · rw [hstate] at h
      rcases hclosed with hfin | hlast <;> simp_all
    · rw [hstate, hseen] at h
      exact h
    · rw [hstate, hseen]
      exact h

theorem finAcked_cases (sock : NormalSocket) (ack : UInt32) :
    (∀ n, (sock.finAcked ack).unackedFINs n = true → sock.unackedFINs n = true) ∧
      ((sock.finAcked ack).state = sock.state ∨
        sock.state = .finWait1 ∧ (sock.finAcked ack).state = .finWait2) := by
  have hfins : ∀ n, Function.update sock.unackedFINs ack false n = true →
      sock.unackedFINs n = true := by
    intro n hn
    rw [Function.update_apply] at hn
    split at hn
    · contradiction
    · exact hn
  unfold NormalSocket.finAcked
  simp only
  split
  · exact ⟨hfins, Or.inl rfl⟩
  · split
    · next hstate => exact ⟨hfins, Or.inr ⟨hstate, rfl⟩⟩
    · exact ⟨hfins, Or.inl rfl⟩

/-- The goroutine of VClose has its acknowledgement. -/
theorem finAcked {ack ack' : UInt32} (hack : p.finAck = some ack)
    (hsock : p'.sock = p.sock.finAcked ack') : Releases p p' := by
  obtain ⟨hfins, hstate⟩ := finAcked_cases p.sock ack'
  rw [← hsock] at hfins hstate
  refine ⟨fun n hn => Or.inl (hfins n hn), fun _ => Or.inr ⟨ack, hack⟩, fun h => ?_, fun h => ?_,
    fun h => ?_⟩
  · rcases hstate with hsame | ⟨-, hwait⟩
    · exact Or.inl (hsame ▸ h)
    · rw [hwait] at h
      contradiction
  · rcases hstate with hsame | ⟨-, hwait⟩
    · exact Or.inl (hsame ▸ h)
    · rw [hwait] at h
      contradiction
  · rcases hstate with hsame | ⟨hold, -⟩
    · exact hsame ▸ h
    · rw [hold] at h
      contradiction

theorem step (hstep : p.step e = some p') : Releases p p' := by
  cases (Endpoint.step_step hstep).2.affects with
  | untouched _ out hsame => exact .of_keeps (.of_untouched hsame)
  | receive received _ hsock => exact .of_keeps (hsock ▸ .dispatch p.sock received)
  | read numbytes hsock => exact .of_keeps (hsock ▸ .vRead p.sock numbytes)
  | close _ packet hsock hemitted => exact .commitClose hsock hemitted
  | finAcked ack hack hsock => exact .finAcked hack hsock

/-- ReceiverThread passes on the acknowledgement of a FIN that is registered. -/
theorem dispatch_toFinChan {sock : NormalSocket} {received : TCPInfo} {ack : UInt32}
    (h : (sock.dispatch received).2 = .toFinChan ack) :
    ack = received.AckNum ∧ sock.unackedFINs ack = true := by
  unfold NormalSocket.dispatch at h
  split at h
  · split at h
    · contradiction
    · split at h
      · next hfin =>
        cases h
        exact ⟨rfl, hfin⟩
      · split at h
        · contradiction
        · exact absurd h ((sock.receiveData_noSend received).2 ack)
  · contradiction

/-- What waits in the channel of VClose acknowledges a FIN that is registered. -/
theorem finAck_step (hstep : p.step e = some p') {ack : UInt32} (hack : p'.finAck = some ack) :
    p.finAck = some ack ∨
      ∃ r, p.arriving = some r ∧ ack = r.AckNum ∧ p.sock.unackedFINs ack = true := by
  cases (Endpoint.step_step hstep).2.affects with
  | untouched _ out hsame hemitted hout houtput hkept => exact Or.inl (hkept ▸ hack)
  | receive received harriving hsock hemitted houtput hto =>
    rcases hto with hkept | ⟨ack', hnew, hsent⟩
    · exact Or.inl (hkept ▸ hack)
    · rw [hnew] at hack
      cases hack
      exact Or.inr ⟨received, harriving, dispatch_toFinChan hsent⟩
  | read numbytes hsock hemitted hkept => exact Or.inl (hkept ▸ hack)
  | close _ packet hsock hemitted houtput hkept => exact Or.inl (hkept ▸ hack)
  | finAcked ack' _ hsock hemitted houtput hnone =>
    rw [hnone] at hack
    contradiction

end Releases

/-- The FIN of `p` was sent, and `q` acknowledges it. -/
def Taken (b : UInt32) (p q : Endpoint) : Prop :=
  p.Ended ∧ b.toNat + 2 + p.accepted.length ≤ q.sock.cumReadNXT.toNat

def Complete (p q : Endpoint) : Prop :=
  p.Ended ∧ q.output ++ q.sock.readBuffer.unread = p.accepted

theorem Taken.complete {b : UInt32} {p q : Endpoint} (h : Taken b p q) (htoward : Toward b p q) :
    Complete p q := by
  obtain ⟨hended, hcum⟩ := h
  obtain ⟨N, hheld⟩ := htoward.held
  have hle := hheld.le
  have hall : N = p.accepted.length := by
    rcases hheld.toNat_cum with hN | ⟨-, hall, -, -⟩
    · omega
    · exact hall
  refine ⟨hended, ?_⟩
  rw [hheld.content, hall, List.take_length]

/-- How the end of a direction is known to its two sides, the sender `p` and the receiver
`q`. -/
structure Releasing (b : UInt32) (p q : Endpoint) : Prop where
  fins : ∀ ack, p.sock.unackedFINs ack = true →
    p.Ended ∧ ack.toNat = b.toNat + 2 + p.accepted.length
  acked : ∀ ack, p.finAck = some ack → Taken b p q
  finWait2 : p.sock.state = .finWait2 → Taken b p q
  timeWait : p.sock.state = .timeWait → Taken b p q
  seen : q.sock.state.finSeen = true → Complete p q

namespace Releasing

variable {b : UInt32} {p p' q q' : Endpoint} {e : EndpointEvent}

theorem start (key key' : SocketTableKey) (seq ack : UInt32) (window window' : UInt16) :
    Releasing b (Endpoint.start (newSocket key seq ack window))
      (Endpoint.start (newSocket key' ack seq window')) where
  fins := by simp [Endpoint.start, newSocket]
  acked := by simp [Endpoint.start]
  finWait2 := by simp [Endpoint.start, newSocket]
  timeWait := by simp [Endpoint.start, newSocket]
  seen := by simp [Endpoint.start, newSocket, ConnState.finSeen]

/-- A step of the sender. -/
theorem sender_step (h : Releasing b p q) (htoward : Toward b p q) (hok : Outgoing.Careful p e)
    (harrive : ∀ r, e = .arrive r → ∃ packet ∈ q.sent, r = packet.info)
    (hstep : p.step e = some p') : Releasing b p' q := by
  have hfixed := fun hended => htoward.accepted_fixed hended hok harrive hstep
  have hreleases := Releases.step hstep
  have hsends := (htoward.sender_step hok harrive hstep).sends
  have htaken : Taken b p q → Taken b p' q := by
    rintro ⟨hended, hcum⟩
    obtain ⟨hsame, hended'⟩ := hfixed hended
    exact ⟨hended', hsame ▸ hcum⟩
  refine ⟨fun ack hack => ?_, fun ack hack => ?_, fun hstate => ?_, fun hstate => ?_,
    fun hseen => ?_⟩
  · rcases hreleases.fins ack hack with hold | ⟨m, hm, hfin, rfl⟩
    · obtain ⟨hended, hnumber⟩ := h.fins ack hold
      obtain ⟨hsame, hended'⟩ := hfixed hended
      exact ⟨hended', hsame ▸ hnumber⟩
    · have hone : (1 : UInt32).toNat = 1 := rfl
      have hle := hsends.accepted_le
      have hroom := hsends.room
      refine ⟨⟨m, hm, hfin⟩, ?_⟩
      rw [(hsends.ends.fins m hm hfin).1, UInt32.toNat_add, toNat_number (by omega), hone]
      omega
  · rcases Releases.finAck_step hstep hack with hold | ⟨r, hr, rfl, hreg⟩
    · exact htaken (h.acked ack hold)
    · obtain ⟨hended, hnumber⟩ := h.fins _ hreg
      have htop := (htoward.sends.asked r hr).2
      exact htaken ⟨hended, by omega⟩
  · rcases hreleases.finWait2 hstate with hold | ⟨ack, hack⟩
    · exact htaken (h.finWait2 hold)
    · exact htaken (h.acked ack hack)
  · rcases hreleases.timeWait hstate with hold | hold
    · exact htaken (h.timeWait hold)
    · exact htaken (h.finWait2 hold)
  · obtain ⟨hended, hall⟩ := h.seen hseen
    obtain ⟨hsame, hended'⟩ := hfixed hended
    exact ⟨hended', hsame ▸ hall⟩

/-- A step of the receiver. It sees a FIN only with its mutex in hand, and then everything
before that FIN has come. -/
theorem receiver_step (h : Releasing b p q) (htoward : Toward b p q)
    (hok : Outgoing.Careful q e) (hstep : q.step e = some q') : Releasing b p q' := by
  obtain ⟨N, hheld⟩ := htoward.held
  obtain ⟨⟨N', hheld'⟩, hcum⟩ := htoward.held_step hok (Endpoint.step_step hstep).2
  have htaken : Taken b p q → Taken b p q' := fun ht => ⟨ht.1, ht.2.trans hcum⟩
  refine ⟨h.fins, fun ack hack => htaken (h.acked ack hack), fun hs => htaken (h.finWait2 hs),
    fun hs => htaken (h.timeWait hs), fun hseen => ?_⟩
  have hall : p.Ended ∧ N' = p.accepted.length := by
    rcases (Releases.step hstep).seen hseen with hold | hmtx
    · obtain ⟨hended, hall⟩ := h.seen hold
      have hlength := congrArg List.length (hheld.content.symm.trans hall)
      have hle := hheld'.le
      have hcount := hheld.count_le hheld' hcum
      rw [List.length_take_of_le hheld.le] at hlength
      exact ⟨hended, by omega⟩
    · have hshut : ¬ UnreadData.Open q'.sock := by
        rintro ⟨-, hcloseWait, hlastAck, htimeWait⟩
        cases hstate : q'.sock.state <;> simp_all [ConnState.finSeen]
      rcases hheld'.shut hshut with hlost | hdone
      · rw [hmtx] at hlost
        contradiction
      · exact hdone
  refine ⟨hall.1, ?_⟩
  rw [hheld'.content, hall.2, List.take_length]

end Releasing

def Settles (seq ack : UInt32) (c : Conversation) : Prop :=
  Agrees seq ack c ∧
    ∀ side, Releasing (base seq ack side) (c.party side) (c.party side.other)

section Settles

variable {seq ack : UInt32} {c c' : Conversation} {e : ConversationEvent}

theorem settles_start (key : SocketTableKey) (window window' : UInt16)
    (hseq : seq.toNat + 2 < 4294967296) (hack : ack.toNat + 2 < 4294967296) :
    Settles seq ack (Conversation.start key seq ack window window') := by
  refine ⟨agrees_start key window window' hseq hack, fun side => ?_⟩
  cases side with
  | client =>
    have h := Releasing.start (b := seq) key key.flip seq ack window window'
    exact ⟨h.fins, h.acked, h.finWait2, h.timeWait, h.seen⟩
  | server =>
    have h := Releasing.start (b := ack) key.flip key ack seq window' window
    exact ⟨h.fins, h.acked, h.finWait2, h.timeWait, h.seen⟩

theorem Settles.step (h : Settles seq ack c) (hok : c.Careful e)
    (hstep : c.step e = some c') : Settles seq ack c' := by
  refine ⟨h.1.step hok hstep, ?_⟩
  obtain ⟨mover, e', p', rfl, hmove, hcareful, harrive⟩ := step_cases hok hstep
  obtain ⟨hself, hother⟩ := c.party_put mover p'
  intro side
  rcases side.eq_or_other mover with rfl | rfl
  · rw [hself, hother]
    exact (h.2 side).sender_step (h.1 side) hcareful harrive hmove
  · have hback := h.2 mover.other
    have htoward := h.1 mover.other
    rw [Side.other_other] at hback htoward ⊢
    rw [hself, hother]
    exact hback.receiver_step htoward hcareful hmove

theorem Settles.reach (h : Settles seq ack c) (hreach : Reach Conversation.step Careful c c') :
    Settles seq ack c' :=
  hreach.invariant (Settles seq ack) h (fun _ _ _ hc hok hstep => hc.step hok hstep)

/-- Complete stays complete: the sender stores nothing more. -/
theorem Settles.later (h : Settles seq ack c) {side : Side} {data : List UInt8}
    (hended : (c.party side).Ended) (hall : data = (c.party side).accepted)
    (hlater : Reach Conversation.step Careful c c') : data = (c'.party side).accepted :=
  hall.trans (h.1.fixed hended hlater).symm

end Settles

/-- In careful runs a side in CLOSE_WAIT, LAST_ACK or TIME_WAIT has received all that the other
side's VWrite ever stores. Once the acknowledgement of its FIN is in `finChan`, and in FIN_WAIT_2
and TIME_WAIT, the other side has received all that it ever stores itself. -/
theorem release_agreed (key : SocketTableKey) (seq ack : UInt32) (window window' : UInt16)
    (hseq : seq.toNat + 2 < 4294967296) (hack : ack.toNat + 2 < 4294967296)
    {c c' : Conversation}
    (h : Reach Conversation.step Careful (Conversation.start key seq ack window window') c)
    (hlater : Reach Conversation.step Careful c c') (side : Side) :
    ((c.party side).sock.state.finSeen = true →
        (c.party side).output ++ (c.party side).sock.readBuffer.unread =
          (c'.party side.other).accepted) ∧
      ((c.party side).finAck.isSome ∨ (c.party side).sock.state = .finWait2 ∨
          (c.party side).sock.state = .timeWait →
        (c.party side.other).output ++ (c.party side.other).sock.readBuffer.unread =
          (c'.party side).accepted) := by
  have hsettles := (settles_start key window window' hseq hack).reach h
  constructor
  · intro hseen
    have hback := hsettles.2 side.other
    rw [Side.other_other] at hback
    obtain ⟨hended, hall⟩ := hback.seen hseen
    exact hsettles.later hended hall hlater
  · intro hknown
    have htaken : Taken (base seq ack side) (c.party side) (c.party side.other) := by
      rcases hknown with hacked | hwait | hwait
      · obtain ⟨ack', hack'⟩ := Option.isSome_iff_exists.mp hacked
        exact (hsettles.2 side).acked ack' hack'
      · exact (hsettles.2 side).finWait2 hwait
      · exact (hsettles.2 side).timeWait hwait
    obtain ⟨hended, hall⟩ := htaken.complete (hsettles.1 side)
    exact hsettles.later hended hall hlater

/-- Both sides close, the client first, and end with all that the other one wrote. -/
theorem release_agreed_time_wait :
    ∃ c : Conversation, (c.party .client).sock.state = .timeWait ∧
      (c.party .server).output ++ (c.party .server).sock.readBuffer.unread =
        (c.party .client).accepted := by
  obtain ⟨c, hreach, hstate⟩ := exists_reach Conversation.step Careful
    (Conversation.start sampleKey 7 100 8 8)
    (fun c => (c.party .client).sock.state = .timeWait)
    [.own .client (.write (.call [9])), .own .client (.write .test),
      .own .client (.write .copy), .own .client .handOver, .own .client (.write .test),
      .own .client .build, .own .client .run, .own .client .run, .own .client .run,
      .own .client .run, .own .client .close, .own .client (.commit 0), .deliver .server 0,
      .own .server .dispatch, .deliver .server 1, .own .server .dispatch, .deliver .client 1,
      .own .client .dispatch, .own .client .finAcked, .own .server .close,
      .own .server (.commit 0), .deliver .client 0, .own .client .dispatch]
    (by decide)
  exact ⟨c, hstate, (release_agreed sampleKey 7 100 8 8 (by decide) (by decide) hreach .refl
    .client).2 (Or.inr (Or.inr hstate))⟩

end IpTcp.Release
