import IpTcp.Connections
import IpTcp.Conversation

/-!
A connection from its first SYN. The client runs VConnect while the server waits in VAccept,
and the network may lose, delay, reorder and repeat their segments. VAccept returns only
after VConnect has; from then on the two sockets hold a conversation, with the numbers 5000
and 6000 that the program uses. Excluded are a SYN and a SYN-ACK that reach a socket that
runs already, which takes them for old data.
-/
namespace IpTcp

open Runs

@[simp] def SocketPhase.sent : SocketPhase → List TCPPacket
  | .running p => p.sent
  | .synSent _ | .synReceived _ | .failed => []

/-- The two ends of a connection, under the key of the client. VAccept waits for a SYN as
long as the server has no phase. The SYNs and the SYN-ACK that were sent are recorded. -/
structure Handshake where
  key : SocketTableKey
  phase : Side → Option SocketPhase
  opening : Side → List TCPPacket

/-- VConnect waits in vain, a thread of a socket takes a step, or the network hands a side one
of the segments that the other side has sent. -/
inductive HandshakeEvent
  | timeout
  | own (side : Side) (e : EndpointEvent)
  | deliver (side : Side) (k : ℕ)

namespace Handshake

def start (key : SocketTableKey) : Handshake where
  key := key
  phase
    | .client => some (.synSent 0)
    | .server => none
  opening
    | .client => [Connection.synSegment key]
    | .server => []

def put (s : Handshake) (side : Side) (phase : SocketPhase) (sent : List TCPPacket) :
    Handshake where
  key := s.key
  phase := Function.update s.phase side (some phase)
  opening := Function.update s.opening side (s.opening side ++ sent)

def sent (s : Handshake) (side : Side) : List TCPPacket :=
  s.opening side ++ (s.phase side).elim [] SocketPhase.sent

def retry (s : Handshake) (side : Side) (tries : ℕ) : Handshake :=
  if tries + 1 = 3 then s.put side .failed []
  else s.put side (.synSent (tries + 1)) [Connection.synSegment s.key]

/-- The socket that VConnect returns for a SYN-ACK, which it has acknowledged. -/
def connected (key : SocketTableKey) (ci : TCPInfo) : Endpoint :=
  (Endpoint.start { newSocket key (ci.AckNum - 1) ci.SeqNum ci.WindowSize with
    cumWriteUNA := ci.AckNum }).replied
      (Connection.connectSegment key tcpFlagAck ci.AckNum (ci.SeqNum + 1))

def receive (s : Handshake) (side : Side) (ci : TCPInfo) : Option Handshake :=
  match s.phase side with
  | none =>
      if ci.Flag = tcpFlagSyn ∧ ci.key.RemotePort = s.key.RemotePort then
        some (s.put side (.synReceived (Listening.pending ci)) [Listening.synAckPacket ci])
      else some s
  | some (.synSent tries) =>
      some (if ci.Flag = synAck then s.put side (.running (connected s.key ci)) []
        else s.retry side tries)
  | some (.synReceived sock) =>
      if ci.Flag = tcpFlagAck ∧ ci.key.RemotePort = s.key.RemotePort then
        some (s.put side (.running (Endpoint.start (Listening.completed sock ci))) [])
      else some s
  | some (.running p) => (p.step (.arrive ci)).map fun p' => s.put side (.running p') []
  | some .failed => none

def step (s : Handshake) : HandshakeEvent → Option Handshake
  | .timeout => match s.phase .client with
      | some (.synSent tries) => some (s.retry .client tries)
      | _ => none
  | .own side e => match s.phase side, e with
      | some (.running _), .arrive _ => none
      | some (.running p), e => (p.step e).map fun p' => s.put side (.running p') []
      | _, _ => none
  | .deliver side k => match (s.sent side.other)[k]? with
      | some packet => s.receive side packet.info
      | none => none

/-- The threads are careful, and neither a SYN nor a SYN-ACK reaches a running socket. -/
def Careful (s : Handshake) : HandshakeEvent → Prop
  | .timeout => True
  | .own side e => match s.phase side with
      | some (.running p) => Outgoing.Careful p e
      | _ => True
  | .deliver side k => match s.phase side with
      | some (.running _) => (s.opening side.other).length ≤ k
      | _ => True

instance (s : Handshake) (e : HandshakeEvent) : Decidable (s.Careful e) :=
  match e with
  | .timeout => .isTrue trivial
  | .own side e => match h : s.phase side with
      | some (.running p) => decidable_of_iff (Outgoing.Careful p e) (by simp [Careful, h])
      | some (.synSent _) | some (.synReceived _) | some .failed | none =>
          .isTrue (by simp [Careful, h])
  | .deliver side k => match h : s.phase side with
      | some (.running _) => decidable_of_iff ((s.opening side.other).length ≤ k)
          (by simp [Careful, h])
      | some (.synSent _) | some (.synReceived _) | some .failed | none =>
          .isTrue (by simp [Careful, h])

theorem step_timeout {s s' : Handshake} (h : s.step .timeout = some s') :
    ∃ tries, s.phase .client = some (.synSent tries) ∧ s' = s.retry .client tries := by
  simp only [step] at h
  split at h
  · next tries hphase => exact ⟨tries, hphase, (Option.some.inj h).symm⟩
  · contradiction

theorem step_own {s s' : Handshake} {side : Side} {e : EndpointEvent}
    (h : s.step (.own side e) = some s') :
    ∃ p p', s.phase side = some (.running p) ∧ (∀ r, e ≠ .arrive r) ∧ p.step e = some p' ∧
      s' = s.put side (.running p') [] := by
  simp only [step] at h
  split at h
  · contradiction
  · next p hphase hne =>
    obtain ⟨p', hnext, rfl⟩ := Option.map_eq_some_iff.mp h
    exact ⟨p, p', hphase, hne, hnext, rfl⟩
  · contradiction

inductive Receives (s : Handshake) (side : Side) (ci : TCPInfo) : Handshake → Prop
  | ignored : Receives s side ci s
  | syn : s.phase side = none → ci.Flag = tcpFlagSyn → Receives s side ci
      (s.put side (.synReceived (Listening.pending ci)) [Listening.synAckPacket ci])
  | synAck (tries : ℕ) : s.phase side = some (.synSent tries) → ci.Flag = synAck →
      Receives s side ci (s.put side (.running (connected s.key ci)) [])
  | retry (tries : ℕ) : s.phase side = some (.synSent tries) → ci.Flag ≠ IpTcp.synAck →
      Receives s side ci (s.retry side tries)
  | ack (sock : NormalSocket) : s.phase side = some (.synReceived sock) →
      ci.Flag = tcpFlagAck → Receives s side ci
      (s.put side (.running (Endpoint.start (Listening.completed sock ci))) [])
  | segment (p p' : Endpoint) : s.phase side = some (.running p) →
      p.step (.arrive ci) = some p' → Receives s side ci (s.put side (.running p') [])

theorem receive_receives {s s' : Handshake} {side : Side} {ci : TCPInfo}
    (h : s.receive side ci = some s') : Receives s side ci s' := by
  unfold receive at h
  split at h
  · next hphase =>
    split at h
    · next hsyn =>
      cases h
      exact .syn hphase hsyn.1
    · cases h
      exact .ignored
  · next tries hphase =>
    split at h
    · next hflag =>
      cases h
      exact .synAck tries hphase hflag
    · next hflag =>
      cases h
      exact .retry tries hphase hflag
  · next sock hphase =>
    split at h
    · next hack =>
      cases h
      exact .ack sock hphase hack.1
    · cases h
      exact .ignored
  · next p hphase =>
    obtain ⟨p', hstep, rfl⟩ := Option.map_eq_some_iff.mp h
    exact .segment p p' hphase hstep
  · contradiction

def syn (key : SocketTableKey) : TCPInfo := (Connection.synSegment key).info

/-- A conversation that began with the program's numbers. The window is the one that VAccept
notes. -/
def Talks (key : SocketTableKey) (window : UInt16) (c : Conversation) : Prop :=
  Reach Conversation.step Conversation.Careful (Conversation.start key 5000 6000 65535 window) c

def Unconnected (phase : Option SocketPhase) : Prop :=
  (∃ tries, phase = some (.synSent tries)) ∨ phase = some .failed

/-- How far the two ends have come. While VAccept has not returned, any window may be the one
that it notes. -/
inductive Stage (s : Handshake) : Prop
  | listening : s.phase .server = none → s.opening .server = [] →
      Unconnected (s.phase .client) → Stage s
  | answered : s.phase .server = some (.synReceived (Listening.pending (syn s.key))) →
      Unconnected (s.phase .client) → Stage s
  | connected (p : Endpoint) :
      s.phase .server = some (.synReceived (Listening.pending (syn s.key))) →
      s.phase .client = some (.running p) →
      (∀ window, ∃ c, Talks s.key window c ∧ c.party .client = p ∧
        c.party .server = Endpoint.start (newSocket s.key.flip 6000 5000 window)) → Stage s
  | talking (window : UInt16) (c : Conversation) : Talks s.key window c →
      (∀ side, s.phase side = some (.running (c.party side))) → Stage s

def opener (key : SocketTableKey) : Side → TCPPacket
  | .client => Connection.synSegment key
  | .server => Listening.synAckPacket (syn key)

structure Sound (key : SocketTableKey) (s : Handshake) : Prop where
  key_eq : s.key = key
  stage : Stage s
  opening : ∀ side, ∀ q ∈ s.opening side, q = opener s.key side

section Put

variable (s : Handshake) (side side' : Side) (phase : SocketPhase) (sent : List TCPPacket)

@[simp] theorem phase_put :
    (s.put side phase sent).phase side' = if side' = side then some phase else s.phase side' :=
  Function.update_apply _ _ _ _

@[simp] theorem opening_put :
    (s.put side phase sent).opening side' =
      if side' = side then s.opening side ++ sent else s.opening side' :=
  Function.update_apply _ _ _ _

@[simp] theorem key_put : (s.put side phase sent).key = s.key := rfl

end Put

theorem connected_synAck (key : SocketTableKey) :
    connected key (Listening.synAckPacket (syn key)).info =
      (Endpoint.start (newSocket key 5000 6000 65535)).replied
        (Conversation.handshakeAck key 5000 6000) := by
  have hseq : (5000 + 1 - 1 : UInt32) = 5000 := by decide
  change (Endpoint.start { newSocket key (5000 + 1 - 1) 6000 65535 with
    cumWriteUNA := 5000 + 1 }).replied _ = _
  rw [hseq]
  rfl

/-- VConnect returns, whatever window VAccept will note. -/
theorem talks_start (key : SocketTableKey) (window : UInt16) :
    ∃ c, Talks key window c ∧
      c.party .client = connected key (Listening.synAckPacket (syn key)).info ∧
      c.party .server = Endpoint.start (newSocket key.flip 6000 5000 window) :=
  ⟨_, .refl, (connected_synAck key).symm, rfl⟩

/-- VAccept returns. -/
theorem completed_pending (key : SocketTableKey) (ci : TCPInfo) :
    Listening.completed (Listening.pending (syn key)) ci =
      newSocket key.flip 6000 5000 ci.WindowSize := rfl

section Talks

variable {key : SocketTableKey} {window : UInt16} {c : Conversation} {side : Side}
  {p' : Endpoint}

/-- A thread of one side takes a step. -/
theorem Talks.own (h : Talks key window c) {e : EndpointEvent}
    (hok : Outgoing.Careful (c.party side) e) (hne : ∀ r, e ≠ .arrive r)
    (hstep : (c.party side).step e = some p') : Talks key window (c.put side p') :=
  .tail (.own side e) h hok (Conversation.step_own hne hstep)

/-- A segment of the other side arrives. -/
theorem Talks.deliver (h : Talks key window c) {k : ℕ} {packet : TCPPacket}
    (hk : (c.party side.other).sent[k]? = some packet)
    (hstep : (c.party side).step (.arrive packet.info) = some p') :
    Talks key window (c.put side p') :=
  .tail (.deliver side k) h trivial (Conversation.step_deliver hk hstep)

end Talks

theorem sent_of_unconnected {s : Handshake} {side : Side} (h : Unconnected (s.phase side)) :
    s.sent side = s.opening side := by
  rcases h with ⟨tries, htries⟩ | hfailed
  · simp [sent, htries]
  · simp [sent, hfailed]

section Stage

variable {s : Handshake} {side : Side} {p p' : Endpoint}

/-- Either both sockets run, or only that of the client does. -/
theorem Stage.running (h : Stage s) (hphase : s.phase side = some (.running p)) :
    (side = .client ∧
      s.phase .server = some (.synReceived (Listening.pending (syn s.key))) ∧
      ∀ window, ∃ c, Talks s.key window c ∧ c.party .client = p ∧
        c.party .server = Endpoint.start (newSocket s.key.flip 6000 5000 window)) ∨
    ∃ window c, Talks s.key window c ∧ (∀ side, s.phase side = some (.running (c.party side))) ∧
      c.party side = p := by
  have hunconnected : ¬ Unconnected (some (.running p)) := by simp [Unconnected]
  cases h with
  | listening hserver _ hclient =>
    cases side with
    | client => exact absurd (hphase ▸ hclient) hunconnected
    | server => simp [hserver] at hphase
  | answered hserver hclient =>
    cases side with
    | client => exact absurd (hphase ▸ hclient) hunconnected
    | server => simp [hserver] at hphase
  | connected q hserver hclient htalks =>
    cases side with
    | client =>
      cases hclient.symm.trans hphase
      exact .inl ⟨rfl, hserver, htalks⟩
    | server => simp [hserver] at hphase
  | talking window c htalks hc =>
    cases (hc side).symm.trans hphase
    exact .inr ⟨window, c, htalks, hc, rfl⟩

/-- Only VConnect waits for a SYN-ACK. -/
theorem Stage.eq_client (h : Stage s) {tries : ℕ}
    (hphase : s.phase side = some (.synSent tries)) : side = .client := by
  cases side with
  | client => rfl
  | server =>
    cases h with
    | listening hserver _ _ | answered hserver _ | connected _ hserver _ _ =>
      simp [hserver] at hphase
    | talking _ c _ hc => exact absurd (hphase.symm.trans (hc .server)) (by simp)

/-- Only VAccept waits for a SYN or an ACK. -/
theorem Stage.eq_server (h : Stage s) (hopen : ¬ Unconnected (s.phase side))
    (hrunning : ∀ p, s.phase side ≠ some (.running p)) : side = .server := by
  cases side with
  | server => rfl
  | client =>
    cases h with
    | listening _ _ hclient | answered _ hclient => exact absurd hclient hopen
    | connected p _ hclient _ => exact absurd hclient (hrunning p)
    | talking _ c _ hc => exact absurd (hc .client) (hrunning _)

theorem Stage.pending_eq (h : Stage s) {sock : NormalSocket}
    (hphase : s.phase .server = some (.synReceived sock)) :
    sock = Listening.pending (syn s.key) := by
  cases h with
  | listening hserver _ _ => simp [hserver] at hphase
  | answered hserver _ | connected _ hserver _ _ =>
    cases hphase.symm.trans hserver
    rfl
  | talking _ c _ hc => exact absurd (hphase.symm.trans (hc .server)) (by simp)

theorem Stage.talking_put {window : UInt16} {c : Conversation}
    (htalks : Talks s.key window (c.put side p'))
    (hc : ∀ side, s.phase side = some (.running (c.party side))) :
    Stage (s.put side (.running p') []) := by
  obtain ⟨hself, hother⟩ := c.party_put side p'
  refine .talking window (c.put side p') htalks fun side' => ?_
  rcases side'.eq_or_other side with rfl | rfl
  · rw [phase_put, if_pos rfl, hself]
  · rw [phase_put, if_neg side.other_ne, hother]
    exact hc side.other

end Stage

namespace Sound

variable {key : SocketTableKey} {s s' : Handshake} {side : Side}

theorem start (key : SocketTableKey) : Sound key (start key) where
  key_eq := rfl
  stage := .listening rfl rfl (.inl ⟨0, rfl⟩)
  opening side := by cases side <;> simp [Handshake.start, opener]

theorem put (h : Sound key s) {phase : SocketPhase} {sent : List TCPPacket}
    (hsent : ∀ q ∈ sent, q = opener s.key side) (hstage : Stage (s.put side phase sent)) :
    Sound key (s.put side phase sent) := by
  refine ⟨h.key_eq, hstage, fun side' q hq => ?_⟩
  rw [opening_put] at hq
  split at hq
  · next heq =>
    rw [heq]
    exact List.forall_mem_append.mpr ⟨h.opening side, hsent⟩ q hq
  · exact h.opening side' q hq

/-- VConnect tries again or gives up. -/
theorem unconnected (h : Sound key s) (hclient : Unconnected (s.phase .client))
    {phase : SocketPhase} {sent : List TCPPacket} (hphase : Unconnected (some phase))
    (hsent : ∀ q ∈ sent, q = opener s.key .client) : Sound key (s.put .client phase sent) := by
  refine h.put hsent ?_
  have hnot : ∀ p, s.phase .client ≠ some (.running p) := by
    intro p hp
    rw [hp] at hclient
    rcases hclient with ⟨tries, htries⟩ | hfailed
    · cases htries
    · cases hfailed
  cases h.stage with
  | listening hserver hopening _ =>
    exact .listening (by simpa using hserver) (by simpa using hopening) (by simpa using hphase)
  | answered hserver _ => exact .answered (by simpa using hserver) (by simpa using hphase)
  | connected p _ hp _ => exact absurd hp (hnot p)
  | talking window c _ hc => exact absurd (hc .client) (hnot _)

theorem retry (h : Sound key s) {tries : ℕ} (hclient : s.phase .client = some (.synSent tries)) :
    Sound key (s.retry .client tries) := by
  unfold Handshake.retry
  split
  · exact h.unconnected (.inl ⟨tries, hclient⟩) (.inr rfl) (by simp)
  · exact h.unconnected (.inl ⟨tries, hclient⟩) (.inl ⟨_, rfl⟩) (by simp [opener])

/-- A thread of a socket takes a step. -/
theorem own (h : Sound key s) {p p' : Endpoint} {e : EndpointEvent}
    (hphase : s.phase side = some (.running p)) (hok : Outgoing.Careful p e)
    (hne : ∀ r, e ≠ .arrive r) (hstep : p.step e = some p') :
    Sound key (s.put side (.running p') []) := by
  refine h.put (by simp) ?_
  rcases h.stage.running hphase with ⟨rfl, hserver, htalks⟩ | ⟨window, c, htalks, hc, rfl⟩
  · refine .connected p' (by simpa using hserver) (by simp) fun window => ?_
    obtain ⟨c, hreach, rfl, hstart⟩ := htalks window
    obtain ⟨hself, hother⟩ := c.party_put .client p'
    exact ⟨c.put .client p', hreach.own hok hne hstep, hself, hother.trans hstart⟩
  · exact .talking_put (htalks.own hok hne hstep) hc

/-- A segment arrives at a socket that runs. -/
theorem arrive (h : Sound key s) {p p' : Endpoint} {k : ℕ} {packet : TCPPacket}
    (hphase : s.phase side = some (.running p)) (hk : (s.opening side.other).length ≤ k)
    (hpacket : (s.sent side.other)[k]? = some packet)
    (hstep : p.step (.arrive packet.info) = some p') : Sound key (s.put side (.running p') []) := by
  refine h.put (by simp) ?_
  rw [sent, List.getElem?_append_right hk] at hpacket
  rcases h.stage.running hphase with ⟨rfl, hserver, -⟩ | ⟨window, c, htalks, hc, rfl⟩
  · change s.phase Side.client.other = _ at hserver
    simp [hserver] at hpacket
  · rw [hc side.other] at hpacket
    exact .talking_put (htalks.deliver hpacket hstep) hc

/-- VAccept has its SYN. -/
theorem accept (h : Sound key s) (hserver : s.phase .server = none) {packet : TCPPacket}
    (hpacket : packet ∈ s.sent .client) :
    Sound key (s.put .server (.synReceived (Listening.pending packet.info))
      [Listening.synAckPacket packet.info]) := by
  cases h.stage with
  | listening _ _ hclient =>
    rw [sent_of_unconnected hclient] at hpacket
    cases h.opening .client packet hpacket
    exact h.put (by simp [opener, syn]) (.answered (by simp [syn, opener]) (by simpa using hclient))
  | answered hanswered _ | connected _ hanswered _ _ => simp [hserver] at hanswered
  | talking _ _ _ hc => exact absurd (hserver.symm.trans (hc .server)) (by simp)

/-- VConnect takes a segment, which can only be the SYN-ACK. -/
theorem connect (h : Sound key s) {tries : ℕ} (hclient : s.phase .client = some (.synSent tries))
    {packet : TCPPacket} (hpacket : packet ∈ s.sent .server) :
    packet = Listening.synAckPacket (syn s.key) ∧
      Sound key (s.put .client (.running (connected s.key packet.info)) []) := by
  cases h.stage with
  | listening hserver hopening _ => simp [sent, hserver, hopening] at hpacket
  | answered hserver _ =>
    have hopening : packet ∈ s.opening .server := by simpa [sent, hserver] using hpacket
    cases h.opening .server packet hopening
    refine ⟨rfl, h.put (by simp) ?_⟩
    exact .connected _ (by simpa using hserver) (by simp [opener]) (talks_start s.key)
  | connected _ _ hrunning _ => simp [hclient] at hrunning
  | talking _ _ _ hc => exact absurd (hclient.symm.trans (hc .client)) (by simp)

/-- VAccept has its ACK. -/
theorem complete (h : Sound key s) {sock : NormalSocket}
    (hserver : s.phase .server = some (.synReceived sock)) {packet : TCPPacket}
    (hpacket : packet ∈ s.sent .client) (hack : packet.flags = tcpFlagAck) :
    Sound key
      (s.put .server (.running (Endpoint.start (Listening.completed sock packet.info))) []) := by
  refine h.put (by simp) ?_
  cases h.stage with
  | listening hnone _ _ => simp [hserver] at hnone
  | answered _ hclient =>
    -- a SYN is no ACK
    rw [sent_of_unconnected hclient] at hpacket
    cases h.opening .client packet hpacket
    cases hack
  | connected p _ hclient htalks =>
    obtain rfl := h.stage.pending_eq hserver
    obtain ⟨c, hreach, rfl, hstart⟩ := htalks packet.window
    refine .talking packet.window c hreach fun side => ?_
    cases side with
    | client => simpa using hclient
    | server =>
      rw [phase_put, if_pos rfl, hstart]
      rfl
  | talking _ _ _ hc => exact absurd (hserver.symm.trans (hc .server)) (by simp)

theorem receive (h : Sound key s) {k : ℕ} {packet : TCPPacket}
    (hok : s.Careful (.deliver side k)) (hpacket : (s.sent side.other)[k]? = some packet)
    (hstep : s.receive side packet.info = some s') : Sound key s' := by
  have hmem := List.mem_of_getElem? hpacket
  cases receive_receives hstep with
  | ignored => exact h
  | syn hphase _ =>
    obtain rfl : side = .server :=
      h.stage.eq_server (by simp [Unconnected, hphase]) (by simp [hphase])
    exact h.accept hphase hmem
  | synAck tries hphase _ =>
    obtain rfl := h.stage.eq_client hphase
    exact (h.connect hphase hmem).2
  | retry tries hphase hflag =>
    obtain rfl := h.stage.eq_client hphase
    exact absurd (congrArg TCPPacket.flags (h.connect hphase hmem).1) hflag
  | ack sock hphase hack =>
    obtain rfl : side = .server :=
      h.stage.eq_server (by simp [Unconnected, hphase]) (by simp [hphase])
    exact h.complete hphase hmem hack
  | segment p p' hphase hnext =>
    simp only [Careful, hphase] at hok
    exact h.arrive hphase hok hpacket hnext

theorem step (h : Sound key s) {e : HandshakeEvent} (hok : s.Careful e)
    (hstep : s.step e = some s') : Sound key s' := by
  cases e with
  | timeout =>
    obtain ⟨tries, hclient, rfl⟩ := step_timeout hstep
    exact h.retry hclient
  | own side e =>
    obtain ⟨p, p', hphase, hne, hnext, rfl⟩ := step_own hstep
    simp only [Careful, hphase] at hok
    exact h.own hphase hok hne hnext
  | deliver side k =>
    simp only [Handshake.step] at hstep
    split at hstep
    · next packet hpacket => exact h.receive hok hpacket hstep
    · contradiction

end Sound

theorem Sound.reach {key : SocketTableKey} {s : Handshake}
    (h : Reach Handshake.step Careful (Handshake.start key) s) : Sound key s :=
  h.invariant (Sound key) (.start key) fun _ _ _ hs hok hstep => hs.step hok hstep

/-- In careful runs VAccept returns only after VConnect has, and then the sockets of the two ends
are those of a careful conversation. So everything that holds of those holds of a connection that
is set up over a network which loses, delays, reorders and repeats segments. -/
theorem handshake_opens_conversation (key : SocketTableKey) {s : Handshake}
    (h : Reach step Careful (start key) s) {q : Endpoint}
    (hserver : s.phase .server = some (.running q)) :
    ∃ p window c, s.phase .client = some (.running p) ∧
      Reach Conversation.step Conversation.Careful
        (Conversation.start key 5000 6000 65535 window) c ∧
      c.party .client = p ∧ c.party .server = q := by
  have hsound := Sound.reach h
  rcases hsound.stage.running hserver with ⟨hside, -⟩ | ⟨window, c, htalks, hc, rfl⟩
  · contradiction
  · exact ⟨c.party .client, window, c, hc .client, hsound.key_eq ▸ htalks, rfl, rfl⟩

/-- The first SYN is lost and VConnect sends another one. Then the ACK is lost too, and VAccept
returns with the client's first byte, which it does not store. -/
theorem handshake_opens_conversation_retry :
    ∃ (s : Handshake) (p q : Endpoint) (window : UInt16) (c : Conversation),
      s.phase .client = some (.running p) ∧ s.phase .server = some (.running q) ∧
      (s.opening .client).length = 2 ∧ Reach Conversation.step Conversation.Careful
        (Conversation.start sampleKey 5000 6000 65535 window) c ∧
      c.party .client = p ∧ c.party .server = q := by
  obtain ⟨s, hreach, hlength, hrunning⟩ := exists_reach step Careful (start sampleKey)
    (fun s => (s.opening .client).length = 2 ∧ (match s.phase .server with
      | some (.running _) => true
      | _ => false) = true)
    [.timeout, .deliver .server 1, .deliver .client 0, .own .client (.write (.call [9])),
      .own .client (.write .test), .own .client (.write .copy), .own .client .handOver,
      .own .client (.write .test), .own .client .build, .own .client .run, .own .client .run,
      .own .client .run, .own .client .run, .deliver .server 2]
    (by decide)
  split at hrunning
  · next q hserver =>
    obtain ⟨p, window, c, hclient, htalks, hp, hq⟩ :=
      handshake_opens_conversation sampleKey hreach hserver
    exact ⟨s, p, q, window, c, hclient, hserver, hlength, htalks, hp, hq⟩
  · contradiction

end Handshake

end IpTcp
