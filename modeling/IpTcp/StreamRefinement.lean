import IpTcp.Release
import IpTcp.ReliableStream
import IpTcp.Transport

/-!
A connection over a network of nodes is a pair of reliable streams. What can be seen of the
two sockets (bytes that VWrite stores, bytes that VRead returns, the FIN, the state in which
VRead reports the end) can be seen of two streams that deliver everything in order and once.
-/
namespace IpTcp

open Runs Release ReliableStream Traces

def Endpoint.view (p : Endpoint) : View UInt8 where
  stored := p.accepted
  output := p.output
  unread := p.sock.readBuffer.unread
  ended := p.emitted.any fun m => m.kind = .fin
  seen := p.sock.state.finSeen

theorem Endpoint.view_ended (p : Endpoint) : p.view.ended = true ↔ p.Ended := by
  simp [view, Ended]

theorem Endpoint.view_start (key : SocketTableKey) (seq ack : UInt32) (window : UInt16) :
    (Endpoint.start (newSocket key seq ack window)).view = View.empty := by
  have hunread : newReadBuffer.unread = [] :=
    List.length_eq_zero_iff.mp newReadBuffer.unread_length
  change (⟨[], [], newReadBuffer.unread, false, false⟩ : View UInt8) = _
  rw [hunread]
  rfl

namespace Release

variable {seq ack : UInt32} {c c' : Conversation} {e : ConversationEvent}

theorem Settles.content (h : Settles seq ack c) (side : Side) :
    (c.party side.other).view.held <+: (c.party side).view.stored := (h.1 side).streams.2.1

theorem Settles.all (h : Settles seq ack c) (side : Side)
    (hseen : (c.party side.other).view.seen = true) :
    (c.party side).view.ended = true ∧
      (c.party side.other).view.held = (c.party side).view.stored := by
  obtain ⟨hended, hall⟩ := (h.2 side).seen hseen
  exact ⟨(Endpoint.view_ended _).mpr hended, hall⟩

theorem Settles.advance_refl (h : Settles seq ack c) (side : Side) :
    Advance (c.party side).view (c.party side).view (c.party side.other).view
      (c.party side.other).view :=
  ⟨Or.inl rfl, id, List.prefix_rfl, Nat.le_refl _, h.content side, id, h.all side⟩

/-- A step of either side is an advance in both directions. -/
theorem Settles.advance (h : Settles seq ack c) (hok : c.Careful e)
    (hstep : c.step e = some c') (side : Side) :
    Advance (c.party side).view (c'.party side).view (c.party side.other).view
      (c'.party side.other).view := by
  have h' := h.step hok hstep
  have hcontent := h'.content side
  have hall := h'.all side
  obtain ⟨mover, e', p', rfl, hmove, hcareful, harrive⟩ := Conversation.step_cases hok hstep
  obtain ⟨hself, hother⟩ := c.party_put mover p'
  rcases side.eq_or_other mover with rfl | rfl
  · rw [hself, hother] at hcontent hall ⊢
    refine ⟨?_, fun hended => ?_, List.prefix_rfl, Nat.le_refl _, hcontent, id, hall⟩
    · rcases ((h.1 side).sends.step hcareful ((h.1 side).asked harrive) hmove).2 with
        hsame | ⟨hopen, hgrows⟩
      · exact Or.inl hsame
      · refine Or.inr ⟨?_, hgrows⟩
        rwa [← Bool.not_eq_true, Endpoint.view_ended]
    · rw [Endpoint.view_ended] at hended ⊢
      exact Toward.ended_step hended hmove
  · have htoward := h.1 mover.other
    rw [Side.other_other] at htoward hcontent hall ⊢
    rw [hself, hother] at hcontent hall ⊢
    have hinv := (Endpoint.step_step hmove).2
    refine ⟨Or.inl rfl, id, hinv.output, ?_, hcontent, (Releases.step hmove).kept, hall⟩
    obtain ⟨N, hheld⟩ := htoward.held
    obtain ⟨⟨N', hheld'⟩, hcum⟩ := htoward.held_step hcareful hinv
    have hlength : (c.party mover).view.held.length = N :=
      (congrArg List.length hheld.content).trans (List.length_take_of_le hheld.le)
    have hlength' : p'.view.held.length = N' :=
      (congrArg List.length hheld'.content).trans (List.length_take_of_le hheld'.le)
    rw [hlength, hlength']
    exact hheld.count_le hheld' hcum

end Release

namespace Handshake

variable {key : SocketTableKey} {s s' : Handshake} {side : Side}

/-- What can be seen of the sockets of a connection. Nothing can be seen of a socket that
VConnect or VAccept has not returned. -/
def view (s : Handshake) (side : Side) : View UInt8 :=
  match s.phase side with
  | some (.running p) => p.view
  | some (.synSent _) | some (.synReceived _) | some .failed | none => View.empty

theorem view_running {p : Endpoint} (h : s.phase side = some (.running p)) :
    s.view side = p.view := by
  simp only [view, h]

theorem Talks.settles {window : UInt16} {c : Conversation} (h : Talks key window c) :
    Settles 5000 6000 c :=
  (settles_start key 65535 window (by decide) (by decide)).reach h

/-- In every stage the sockets look like those of a conversation. -/
theorem Stage.conversation (h : Stage s) :
    ∃ window c, Talks s.key window c ∧ ∀ side, s.view side = (c.party side).view := by
  have hunconnected : Unconnected (s.phase .client) → s.view .client = View.empty := by
    rintro (⟨tries, htries⟩ | hfailed)
    · simp [view, htries]
    · simp [view, hfailed]
  have hstart : ∀ side, ((Conversation.start s.key 5000 6000 65535 0).party side).view =
      View.empty := by
    intro side
    cases side with
    | client => exact Endpoint.view_start s.key 5000 6000 65535
    | server => exact Endpoint.view_start s.key.flip 6000 5000 0
  cases h with
  | listening hserver _ hclient =>
    refine ⟨0, _, .refl, fun side => ?_⟩
    cases side with
    | client => rw [hunconnected hclient, hstart]
    | server => rw [hstart, view, hserver]
  | answered hserver hclient =>
    refine ⟨0, _, .refl, fun side => ?_⟩
    cases side with
    | client => rw [hunconnected hclient, hstart]
    | server => rw [hstart, view, hserver]
  | connected p hserver hclient htalks =>
    obtain ⟨c, hreach, rfl, hnew⟩ := htalks 0
    refine ⟨0, c, hreach, fun side => ?_⟩
    cases side with
    | client => exact view_running hclient
    | server => rw [hnew, Endpoint.view_start, view, hserver]
  | talking window c htalks hc => exact ⟨window, c, htalks, fun side => view_running (hc side)⟩

/-- A socket that runs is one side of such a conversation. -/
theorem Stage.running_view (h : Stage s) {p : Endpoint}
    (hphase : s.phase side = some (.running p)) :
    ∃ window c, Talks s.key window c ∧ c.party side = p ∧
      ∀ side', s.view side' = (c.party side').view := by
  rcases h.running hphase with ⟨rfl, hserver, htalks⟩ | ⟨window, c, htalks, hc, rfl⟩
  · obtain ⟨c, hreach, rfl, hnew⟩ := htalks 0
    refine ⟨0, c, hreach, rfl, fun side' => ?_⟩
    cases side' with
    | client => exact view_running hphase
    | server => rw [hnew, Endpoint.view_start, view, hserver]
  · exact ⟨window, c, htalks, rfl, fun side' => view_running (hc side')⟩

def Converses (s s' : Handshake) : Prop :=
  ∃ c e c', Settles 5000 6000 c ∧ c.Careful e ∧ c.step e = some c' ∧
    (∀ side, s.view side = (c.party side).view) ∧ ∀ side, s'.view side = (c'.party side).view

/-- As long as a socket is not there, or has just been returned, nothing is to be seen. -/
theorem view_put_empty {phase : SocketPhase} {sent : List TCPPacket}
    (hold : s.view side = View.empty) (hnew : (s.put side phase sent).view side = View.empty) :
    (s.put side phase sent).view = s.view := by
  funext side'
  rcases side'.eq_or_other side with rfl | rfl
  · rw [hold, hnew]
  · simp only [view, phase_put, if_neg side.other_ne]

theorem view_put_running {p' : Endpoint} {c : Conversation}
    (hview : ∀ side', s.view side' = (c.party side').view) (side' : Side) :
    (s.put side (.running p') []).view side' = ((c.put side p').party side').view := by
  obtain ⟨hself, hother⟩ := c.party_put side p'
  rcases side'.eq_or_other side with rfl | rfl
  · rw [hself]
    exact view_running (by simp)
  · rw [hother, ← hview]
    simp only [view, phase_put, if_neg side.other_ne]

theorem view_retry {tries : ℕ} (hphase : s.phase side = some (.synSent tries)) :
    (s.retry side tries).view = s.view := by
  unfold retry
  split
  · exact view_put_empty (by simp [view, hphase]) (by simp [view])
  · exact view_put_empty (by simp [view, hphase]) (by simp [view])

theorem Sound.own_view (h : Sound key s) {p p' : Endpoint} {e : EndpointEvent}
    (hphase : s.phase side = some (.running p)) (hok : Outgoing.Careful p e)
    (hne : ∀ r, e ≠ .arrive r) (hstep : p.step e = some p') :
    Converses s (s.put side (.running p') []) := by
  obtain ⟨window, c, htalks, rfl, hview⟩ := h.stage.running_view hphase
  exact ⟨c, .own side e, _, htalks.settles, hok, Conversation.step_own hne hstep, hview,
    view_put_running hview⟩

theorem Sound.arrive_view (h : Sound key s) {p p' : Endpoint} {k : ℕ} {packet : TCPPacket}
    (hphase : s.phase side = some (.running p)) (hk : (s.opening side.other).length ≤ k)
    (hpacket : (s.sent side.other)[k]? = some packet)
    (hstep : p.step (.arrive packet.info) = some p') :
    Converses s (s.put side (.running p') []) := by
  rw [sent, List.getElem?_append_right hk] at hpacket
  rcases h.stage.running hphase with ⟨rfl, hserver, -⟩ | ⟨window, c, htalks, hc, rfl⟩
  · change s.phase Side.client.other = _ at hserver
    simp [hserver] at hpacket
  · have hview : ∀ side', s.view side' = (c.party side').view := fun side' =>
      view_running (hc side')
    rw [hc side.other] at hpacket
    exact ⟨c, .deliver side _, _, htalks.settles, trivial,
      Conversation.step_deliver hpacket hstep, hview, view_put_running hview⟩

theorem Sound.receive_view (h : Sound key s) {k : ℕ} {packet : TCPPacket}
    (hok : s.Careful (.deliver side k)) (hpacket : (s.sent side.other)[k]? = some packet)
    (hstep : s.receive side packet.info = some s') : s'.view = s.view ∨ Converses s s' := by
  cases receive_receives hstep with
  | ignored => exact Or.inl rfl
  | syn hphase _ => exact Or.inl (view_put_empty (by simp [view, hphase]) (by simp [view]))
  | retry tries hphase _ => exact Or.inl (view_retry hphase)
  | synAck tries hphase _ =>
    refine Or.inl (view_put_empty (by simp [view, hphase]) ?_)
    obtain rfl := h.stage.eq_client hphase
    obtain ⟨rfl, -⟩ := h.connect hphase (List.mem_of_getElem? hpacket)
    rw [view_running (by rw [phase_put, if_pos rfl]), connected_synAck]
    exact Endpoint.view_start s.key 5000 6000 65535
  | ack sock hphase _ =>
    refine Or.inl (view_put_empty (by simp [view, hphase]) ?_)
    obtain rfl : side = .server :=
      h.stage.eq_server (by simp [Unconnected, hphase]) (by simp [hphase])
    obtain rfl := h.stage.pending_eq hphase
    rw [view_running (by rw [phase_put, if_pos rfl]), completed_pending]
    exact Endpoint.view_start s.key.flip 6000 5000 packet.window
  | segment p p' hphase hnext =>
    simp only [Careful, hphase] at hok
    exact Or.inr (h.arrive_view hphase hok hpacket hnext)

/-- A step of a connection is a step of a conversation, or nothing is to be seen of it. -/
theorem Sound.view_step (h : Sound key s) {e : HandshakeEvent} (hok : s.Careful e)
    (hstep : s.step e = some s') : s'.view = s.view ∨ Converses s s' := by
  cases e with
  | timeout =>
    obtain ⟨tries, hclient, rfl⟩ := step_timeout hstep
    exact Or.inl (view_retry hclient)
  | own side e =>
    obtain ⟨p, p', hphase, hne, hnext, rfl⟩ := step_own hstep
    simp only [Careful, hphase] at hok
    exact Or.inr (h.own_view hphase hok hne hnext)
  | deliver side k =>
    simp only [Handshake.step] at hstep
    split at hstep
    · next packet hpacket => exact h.receive_view hok hpacket hstep
    · contradiction

theorem Sound.advance_refl (h : Sound key s) (side : Side) :
    Advance (s.view side) (s.view side) (s.view side.other) (s.view side.other) := by
  obtain ⟨window, c, htalks, hview⟩ := h.stage.conversation
  rw [hview, hview]
  exact htalks.settles.advance_refl side

theorem Sound.advance (h : Sound key s) {e : HandshakeEvent} (hok : s.Careful e)
    (hstep : s.step e = some s') (side : Side) :
    Advance (s.view side) (s'.view side) (s.view side.other) (s'.view side.other) := by
  rcases h.view_step hok hstep with hsame | ⟨c, e', c', hsettles, hcareful, hnext, hview, hview'⟩
  · rw [hsame]
    exact h.advance_refl side
  · rw [hview, hview, hview', hview']
    exact hsettles.advance hcareful hnext side

end Handshake

namespace Transport

variable {ι : Type*} [DecidableEq ι] {host : Side → ι}

def changes (s s' : Transport ι) : List (Side × StreamAction UInt8) :=
  actions Side.other [.client, .server] s.connection.view s'.connection.view

def Streams (key : SocketTableKey) (s : Transport ι) (d : Side → Channel UInt8) : Prop :=
  Carrying key s ∧ ∀ side, Shows (s.connection.view side) (s.connection.view side.other) (d side)

theorem Streams.step {key : SocketTableKey} {s s' : Transport ι} {d : Side → Channel UInt8}
    (h : Streams key s d) {e : TransportEvent ι} (hok : s.Careful host e)
    (hstep : s.step host e = some s') :
    ∃ d', Explains Next d (s.changes s') d' ∧ Streams key s' d' := by
  obtain ⟨hcarrying, hshows⟩ := h
  have hsound := Handshake.Sound.reach hcarrying.reach
  have hadvance : ∀ side, Advance (s.connection.view side) (s'.connection.view side)
      (s.connection.view side.other) (s'.connection.view side.other) := by
    rcases hcarrying.connection_step hok hstep with hsame | ⟨e', hcareful, hnext⟩
    · rw [hsame]
      exact hsound.advance_refl
    · exact hsound.advance hcareful hnext
  obtain ⟨d', hexplains, hshows', -⟩ := actions_explained Side.other [.client, .server]
    (by decide) d (fun side _ => hshows side) (fun side _ => hadvance side)
  refine ⟨d', hexplains, hcarrying.step hok hstep, fun side => hshows' side ?_⟩
  cases side <;> decide

end Transport

end IpTcp
