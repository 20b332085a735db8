import IpTcp.SocketTable

/-!
The dispatcher of Initialize, which feeds all sockets of a stack, and the users of VListen.
It sends a segment without an established socket on the unbuffered channel of the listener
and waits until a VAccept receives it. The loop of listenAndAccept calls VAccept for ever.
ReceiveFile calls it once and leaves its listener in the table, so that a later segment for
that port stops the dispatcher for good. It goes on for ever in the runs in which no segment
finds such a listener.
-/
namespace IpTcp

inductive ListenUser
  | listenAndAccept
  | receiveFile
  deriving DecidableEq, Repr

/-- Where the user of a listener is: about to call VAccept, in it waiting for a SYN, sending
the SYN-ACK of the new socket or waiting for an ACK, or done with accepting. -/
inductive AcceptStage
  | outside
  | syn
  | replying (new : ℕ)
  | ack (new : ℕ)
  | finished
  deriving DecidableEq, Repr

namespace AcceptStage

def pending : AcceptStage → Bool
  | syn | replying _ | ack _ => true
  | outside | finished => false

/-- After VAccept has returned, only the loop calls it again. -/
def returned : ListenUser → AcceptStage
  | .listenAndAccept => outside
  | .receiveFile => finished

end AcceptStage

structure Listener where
  localPort : UInt16
  user : ListenUser
  stage : AcceptStage
  deriving DecidableEq, Repr

structure NormalEntry where
  state : ConnState
  normalChan : List TCPInfo

inductive SocketObject
  | listen (l : Listener)
  | normal (n : NormalEntry)

namespace SocketObject

def onNormal (f : NormalEntry → NormalEntry) : SocketObject → SocketObject
  | listen l => listen l
  | normal n => normal (f n)

def abandoned : SocketObject → Bool
  | listen l => l.stage = .finished
  | normal _ => false

end SocketObject

/-- The dispatcher waits at TCPChan, looks for the socket of a segment, then for a listener,
or sends on the channel of the object it has found. -/
inductive DispatcherPc
  | waiting
  | matching (received : TCPInfo)
  | listening (received : TCPInfo)
  | toNormal (id : ℕ) (received : TCPInfo)
  | toListener (id : ℕ) (received : TCPInfo)
  | panicked
  deriving DecidableEq

structure Server where
  stack : TCPStack
  objects : List SocketObject
  dispatcher : DispatcherPc

inductive ServerEvent
  | vListen (port : UInt16) (user : ListenUser)
  | vConnect (destAddr : Addr) (destPort randSrcPort : UInt16)
  | deleteTCB (sock : TableSocket)
  | progress (id : ℕ) (state : ConnState)
  | receive (id : ℕ)
  | accept (id : ℕ)
  | arrive (received : TCPInfo)
  | dispatch
  | hand
  deriving DecidableEq

namespace Server

open Runs

def start (ip : Addr) : Server where
  stack := TCPStack.start ip
  objects := []
  dispatcher := .waiting

def modifyNormal (s : Server) (id : ℕ) (f : NormalEntry → NormalEntry) : Server :=
  { s with objects := s.objects.modify id (SocketObject.onNormal f) }

def setStage (s : Server) (id : ℕ) (l : Listener) (stage : AcceptStage) : Server :=
  { s with objects := s.objects.set id (.listen { l with stage := stage }) }

def enter (s : Server) (stack : TCPStack) (object : SocketObject) : Server :=
  { s with stack := stack, objects := s.objects ++ [object] }

/-- The threads of a connected socket move its state. SYN_RECEIVED is left to VAccept. -/
def progress (s : Server) (id : ℕ) (state : ConnState) : Option Server :=
  match s.objects[id]? with
  | some (.normal n) =>
      if n.state ≠ .synReceived ∧ state ≠ .synReceived then
        some (s.modifyNormal id fun n => { n with state := state })
      else none
  | _ => none

/-- The user of a listener calls VAccept, or VAccept has sent its SYN-ACK. -/
def accept (s : Server) (id : ℕ) : Option Server :=
  match s.objects[id]? with
  | some (.listen l) =>
      match l.stage with
      | .outside => some (s.setStage id l .syn)
      | .replying new => some (s.setStage id l (.ack new))
      | .syn | .ack _ | .finished => none
  | _ => none

/-- One step of the dispatcher, unless it sends to a listener. The type assertions panic on
an object of the other kind. -/
def dispatch (s : Server) : Option Server :=
  match s.dispatcher with
  | .matching received =>
      match s.stack.SocketTable received.key.flip with
      | none => some { s with dispatcher := .listening received }
      | some sock =>
          match s.objects[sock.id]? with
          | some (.normal n) =>
              if n.state ≠ .synReceived then
                some { s with dispatcher := .toNormal sock.id received }
              else some { s with dispatcher := .listening received }
          | some (.listen _) => some { s with dispatcher := .panicked }
          | none => none
  | .listening received =>
      match s.stack.SocketTable (listenKey received.key.RemotePort) with
      | none => some { s with dispatcher := .waiting }
      | some sock =>
          match s.objects[sock.id]? with
          | some (.listen _) => some { s with dispatcher := .toListener sock.id received }
          | some (.normal _) => some { s with dispatcher := .panicked }
          | none => none
  | .toNormal id received =>
      match s.objects[id]? with
      | some (.normal n) =>
          if n.normalChan.length < 100 then
            some ({ s with dispatcher := .waiting }.modifyNormal id
              fun n => { n with normalChan := n.normalChan ++ [received] })
          else none
      | _ => none
  | .waiting | .toListener _ _ | .panicked => none

/-- VAccept receives a segment: a SYN makes a socket, an ACK completes it. -/
def take (s : Server) (id : ℕ) (l : Listener) (ci : TCPInfo) : Option Server :=
  match l.stage with
  | .syn =>
      if ci.Flag = tcpFlagSyn ∧ ci.key.RemotePort = l.localPort then
        some ((s.setStage id l (.replying s.objects.length)).enter (s.stack.vAccept ci.key)
          (.normal ⟨.synReceived, []⟩))
      else some s
  | .ack new =>
      if ci.Flag = tcpFlagAck ∧ ci.key.RemotePort = l.localPort then
        some ((s.setStage id l (.returned l.user)).modifyNormal new
          fun n => { n with state := .established })
      else some s
  | .outside | .replying _ | .finished => none

/-- The dispatcher's segment goes over the unbuffered channel of a listener. -/
def hand (s : Server) : Option Server :=
  match s.dispatcher with
  | .toListener id received =>
      match s.objects[id]? with
      | some (.listen l) => { s with dispatcher := .waiting }.take id l received
      | _ => none
  | _ => none

def step (s : Server) (e : ServerEvent) : Option Server :=
  if s.dispatcher = .panicked then none
  else match e with
    | .vListen port user => (s.stack.vListen port).map fun stack =>
        s.enter stack (.listen ⟨port, user, .outside⟩)
    | .vConnect destAddr destPort randSrcPort =>
        (s.stack.vConnect destAddr destPort randSrcPort).map fun stack =>
          s.enter stack (.normal ⟨.synSent, []⟩)
    | .deleteTCB sock => some { s with stack := s.stack.deleteTCB sock }
    | .progress id state => s.progress id state
    | .receive id => some (s.modifyNormal id fun n => { n with normalChan := n.normalChan.tail })
    | .accept id => s.accept id
    | .arrive received =>
        if s.dispatcher = .waiting then some { s with dispatcher := .matching received } else none
    | .dispatch => s.dispatch
    | .hand => s.hand

/-- A VAccept call on the listener is pending, or the next step of its user makes one. -/
def Served (s : Server) (id : ℕ) : Prop :=
  ∃ l, s.objects[id]? = some (.listen l) ∧ (l.stage.pending ∨ l.stage = .outside)

def ByListener (id : ℕ) (_ : Server) (e : ServerEvent) : Prop := e = .accept id ∨ e = .hand

/-- A listener that the dispatcher waits for is served, and alone gets it going again. -/
def Unstalled (s : Server) : Prop :=
  ∀ id received, s.dispatcher = .toListener id received →
    s.Served id ∧ ∃ s', Reach step (ByListener id) s s' ∧ s'.dispatcher = .waiting

/-- The listener that the dispatcher finds for a segment is not an abandoned one. -/
def Orderly (s : Server) : ServerEvent → Prop
  | .dispatch =>
      match s.dispatcher with
      | .listening received =>
          ∀ sock ∈ s.stack.SocketTable (listenKey received.key.RemotePort),
            ∀ object ∈ s.objects[sock.id]?, object.abandoned = false
      | _ => True
  | _ => True

instance (s : Server) (e : ServerEvent) : Decidable (s.Orderly e) :=
  match e with
  | .dispatch =>
      match h : s.dispatcher with
      | .listening received => decidable_of_iff
          (∀ sock ∈ s.stack.SocketTable (listenKey received.key.RemotePort),
            ∀ object ∈ s.objects[sock.id]?, object.abandoned = false) (by simp [Orderly, h])
      | .waiting | .matching _ | .toNormal _ _ | .toListener _ _ | .panicked =>
          .isTrue (by simp [Orderly, h])
  | .vListen _ _ | .vConnect _ _ _ | .deleteTCB _ | .progress _ _ | .receive _ | .accept _
  | .arrive _ | .hand => .isTrue trivial

section

variable {s s' : Server} {e : ServerEvent} {id : ℕ} {received : TCPInfo} {l : Listener}

theorem modifyNormal_listen (hl : s.objects[id]? = some (.listen l)) (k : ℕ)
    (f : NormalEntry → NormalEntry) : (s.modifyNormal k f).objects[id]? = some (.listen l) := by
  change (s.objects.modify k (SocketObject.onNormal f))[id]? = _
  rw [List.getElem?_modify, hl]
  split <;> rfl

theorem enter_listen (hl : s.objects[id]? = some (.listen l)) (stack : TCPStack)
    (object : SocketObject) : (s.enter stack object).objects[id]? = some (.listen l) := by
  obtain ⟨hlt, -⟩ := List.getElem?_eq_some_iff.mp hl
  change (s.objects ++ [object])[id]? = _
  rw [List.getElem?_append_left hlt, hl]

theorem setStage_self (hl : s.objects[id]? = some (.listen l)) (stage : AcceptStage) :
    (s.setStage id l stage).objects[id]? = some (.listen { l with stage := stage }) := by
  obtain ⟨hlt, -⟩ := List.getElem?_eq_some_iff.mp hl
  exact List.getElem?_set_self hlt

def KeepsListeners (s s' : Server) : Prop :=
  ∀ (id : ℕ) (l : Listener), s.objects[id]? = some (.listen l) →
    ∃ l' : Listener, s'.objects[id]? = some (.listen l') ∧
      (l'.stage = .finished ↔ l.stage = .finished)

theorem keepsListeners_of_same
    (h : ∀ (id : ℕ) (l : Listener), s.objects[id]? = some (.listen l) →
      s'.objects[id]? = some (.listen l)) : KeepsListeners s s' :=
  fun id l hl => ⟨l, h id l hl, Iff.rfl⟩

theorem keepsListeners_setStage (hl : s.objects[id]? = some (.listen l)) {stage : AcceptStage}
    (hstage : stage = .finished ↔ l.stage = .finished) :
    KeepsListeners s (s.setStage id l stage) := by
  intro k l' hl'
  by_cases hk : id = k
  · subst hk
    obtain rfl : l = l' := by simpa [hl] using hl'
    exact ⟨_, setStage_self hl stage, hstage⟩
  · exact ⟨l', (List.getElem?_set_ne hk).trans hl', Iff.rfl⟩

/-- What a step can do to the dispatcher and to the listeners: another thread goes on, the
dispatcher moves with no listener in hand, it finds one, or a pending VAccept receives. -/
inductive Step (s : Server) : ServerEvent → Server → Prop
  | other (e : ServerEvent) (s' : Server) : s'.dispatcher = s.dispatcher →
      KeepsListeners s s' → Step s e s'
  | moves (e : ServerEvent) (s' : Server) :
      (∀ id received, s.dispatcher ≠ .toListener id received) →
      (∀ id received, s'.dispatcher ≠ .toListener id received) → Step s e s'
  | finds (received : TCPInfo) (sock : TableSocket) (l : Listener) :
      s.dispatcher = .listening received →
      s.stack.SocketTable (listenKey received.key.RemotePort) = some sock →
      s.objects[sock.id]? = some (.listen l) →
      Step s .dispatch { s with dispatcher := .toListener sock.id received }
  | hand (id : ℕ) (received : TCPInfo) (l : Listener) (s' : Server) :
      s.dispatcher = .toListener id received → s.objects[id]? = some (.listen l) →
      l.stage.pending = true → s'.dispatcher = .waiting → Step s .hand s'

theorem take_dispatcher (htake : s.take id l received = some s') :
    s'.dispatcher = s.dispatcher ∧ l.stage.pending = true := by
  unfold take at htake
  split at htake
  case h_1 hstage =>
    refine ⟨?_, by rw [hstage]; rfl⟩
    split at htake <;> cases htake <;> rfl
  case h_2 hstage =>
    refine ⟨?_, by rw [hstage]; rfl⟩
    split at htake <;> cases htake <;> rfl
  all_goals contradiction

theorem dispatch_step (h : s.dispatch = some s') : Step s .dispatch s' := by
  unfold dispatch at h
  split at h
  · next hdisp =>
    split at h
    · cases h
      exact .moves _ _ (by simp [hdisp]) (by simp)
    · split at h
      · split at h <;> cases h <;> exact .moves _ _ (by simp [hdisp]) (by simp)
      · cases h
        exact .moves _ _ (by simp [hdisp]) (by simp)
      · contradiction
  · next received hdisp =>
    split at h
    · cases h
      exact .moves _ _ (by simp [hdisp]) (by simp)
    · next sock hsock =>
      split at h
      · next l hl =>
        cases h
        exact .finds received sock l hdisp hsock hl
      · cases h
        exact .moves _ _ (by simp [hdisp]) (by simp)
      · contradiction
  · next id received hdisp =>
    split at h
    · split at h
      · cases h
        exact .moves _ _ (by simp [hdisp]) (by simp [modifyNormal])
      · contradiction
    · contradiction
  all_goals contradiction

theorem step_step (h : s.step e = some s') : Step s e s' := by
  unfold step at h
  split at h
  · contradiction
  cases e with
  | vListen port user =>
    obtain ⟨stack, -, rfl⟩ := Option.map_eq_some_iff.mp h
    exact .other _ _ rfl (keepsListeners_of_same fun _ _ hl => enter_listen hl _ _)
  | vConnect destAddr destPort randSrcPort =>
    obtain ⟨stack, -, rfl⟩ := Option.map_eq_some_iff.mp h
    exact .other _ _ rfl (keepsListeners_of_same fun _ _ hl => enter_listen hl _ _)
  | deleteTCB sock =>
    cases h
    exact .other _ _ rfl (keepsListeners_of_same fun _ _ hl => hl)
  | progress id state =>
    simp only [progress] at h
    split at h
    · split at h
      · cases h
        exact .other _ _ rfl (keepsListeners_of_same fun _ _ hl => modifyNormal_listen hl _ _)
      · contradiction
    · contradiction
  | receive id =>
    cases h
    exact .other _ _ rfl (keepsListeners_of_same fun _ _ hl => modifyNormal_listen hl _ _)
  | accept id =>
    simp only [accept] at h
    split at h
    · next l hl =>
      split at h
      case h_1 hstage =>
        cases h
        exact .other _ _ rfl (keepsListeners_setStage hl (by simp [hstage]))
      case h_2 hstage =>
        cases h
        exact .other _ _ rfl (keepsListeners_setStage hl (by simp [hstage]))
      all_goals contradiction
    · contradiction
  | arrive received =>
    simp only at h
    split at h
    · next hdisp =>
      cases h
      exact .moves _ _ (by simp [hdisp]) (by simp)
    · contradiction
  | dispatch => exact dispatch_step h
  | hand =>
    simp only [hand] at h
    split at h
    · next id received hdisp =>
      split at h
      · next l hl =>
        obtain ⟨hwaiting, hpending⟩ := take_dispatcher h
        exact .hand id received l s' hdisp hl hpending hwaiting
      · contradiction
    · contradiction

theorem served_iff :
    s.Served id ↔ ∃ l, s.objects[id]? = some (.listen l) ∧ l.stage ≠ .finished := by
  unfold Served
  refine exists_congr fun l => and_congr_right fun _ => ?_
  cases l.stage <;> simp [AcceptStage.pending]

/-- VAccept receives whatever the dispatcher sends. -/
theorem hand_waiting (hdisp : s.dispatcher = .toListener id received)
    (hl : s.objects[id]? = some (.listen l)) (hstage : l.stage = .syn ∨ ∃ new, l.stage = .ack new) :
    ∃ s', s.step .hand = some s' ∧ s'.dispatcher = .waiting := by
  obtain ⟨s', htake⟩ : ∃ s', { s with dispatcher := .waiting }.take id l received = some s' := by
    unfold take
    rcases hstage with hstage | ⟨new, hstage⟩
    all_goals
      rw [hstage]
      simp only
      split <;> exact ⟨_, rfl⟩
  exact ⟨s', by simp [step, hand, hdisp, hl, htake], (take_dispatcher htake).1⟩

/-- A listener that is served receives, after a step of its user if it is not yet there. -/
theorem Served.taken (h : s.Served id) (hdisp : s.dispatcher = .toListener id received) :
    ∃ s', Reach step (ByListener id) s s' ∧ s'.dispatcher = .waiting := by
  obtain ⟨l, hl, hserved⟩ := h
  have hnow : (l.stage = .syn ∨ ∃ new, l.stage = .ack new) →
      ∃ s', Reach step (ByListener id) s s' ∧ s'.dispatcher = .waiting := by
    intro hstage
    obtain ⟨s', hstep, hwaiting⟩ := hand_waiting hdisp hl hstage
    exact ⟨s', .tail _ .refl (.inr rfl) hstep, hwaiting⟩
  have hnext : ∀ stage : AcceptStage, (stage = .syn ∨ ∃ new, stage = .ack new) →
      s.step (.accept id) = some (s.setStage id l stage) →
      ∃ s', Reach step (ByListener id) s s' ∧ s'.dispatcher = .waiting := by
    intro stage hstage haccept
    have hset := setStage_self hl stage
    obtain ⟨s', hstep, hwaiting⟩ := hand_waiting (s := s.setStage id l stage) hdisp hset hstage
    exact ⟨s', .tail _ (.tail _ .refl (.inl rfl) haccept) (.inr rfl) hstep, hwaiting⟩
  cases hstage : l.stage with
  | outside => exact hnext .syn (.inl rfl) (by simp [step, hdisp, accept, hl, hstage])
  | replying new =>
    exact hnext (.ack new) (.inr ⟨new, rfl⟩) (by simp [step, hdisp, accept, hl, hstage])
  | syn => exact hnow (.inl hstage)
  | ack new => exact hnow (.inr ⟨new, hstage⟩)
  | finished => simp [hstage, AcceptStage.pending] at hserved

theorem unstalled_iff :
    s.Unstalled ↔ ∀ id received, s.dispatcher = .toListener id received → s.Served id :=
  ⟨fun h id received hdisp => (h id received hdisp).1,
    fun h id received hdisp => ⟨h id received hdisp, (h id received hdisp).taken hdisp⟩⟩

theorem KeepsListeners.served (h : KeepsListeners s s') (hserved : s.Served id) :
    s'.Served id := by
  obtain ⟨l, hl, hstage⟩ := served_iff.mp hserved
  obtain ⟨l', hl', hfinished⟩ := h id l hl
  exact served_iff.mpr ⟨l', hl', fun hl' => hstage (hfinished.mp hl')⟩

theorem Unstalled.start (ip : Addr) : (start ip).Unstalled :=
  unstalled_iff.mpr fun _ _ hdisp => DispatcherPc.noConfusion hdisp

theorem Unstalled.step (h : s.Unstalled) (hok : s.Orderly e) (hstep : s.step e = some s') :
    s'.Unstalled := by
  rw [unstalled_iff] at h ⊢
  intro id received hafter
  cases step_step hstep with
  | other _ _ hdisp hkeeps => exact hkeeps.served (h id received (hdisp ▸ hafter))
  | moves _ _ _ hno => exact absurd hafter (hno id received)
  | finds received sock l hdisp hsock hl =>
    cases hafter
    simp only [Orderly, hdisp] at hok
    have habandoned := hok sock hsock _ hl
    exact served_iff.mpr ⟨l, hl, by simpa [SocketObject.abandoned] using habandoned⟩
  | hand _ _ _ _ _ _ _ hwaiting =>
    rw [hwaiting] at hafter
    contradiction

end

def sampleSegment (flag : UInt8) (port : UInt16) : TCPInfo where
  key := ⟨.v4 1, port, .v4 2, 80⟩
  Flag := flag
  SeqNum := 5000
  AckNum := 6001
  WindowSize := 65535
  Payload := []

end Server

end IpTcp
