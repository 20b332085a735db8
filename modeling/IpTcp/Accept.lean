import IpTcp.Runs
import IpTcp.Socket
import Mathlib.Logic.Function.Basic

/-!
One listening socket, served by a loop of VAccept, and any number of clients that
run VConnect. The dispatcher passes every segment that belongs to no established
socket to the channel of the listener. VAccept takes a SYN from it, answers, and
then takes the next segment that has only the ACK flag, whoever sent it. The two
ends agree when that segment is the answer of the client that sent the SYN.
-/
namespace IpTcp

structure Remote where
  addr : Addr
  port : UInt16
  deriving DecidableEq, Repr

/-- A client socket. There is no socket record before the SYN-ACK; `tries` counts the SYNs
that were not answered by one, and `id` tells sockets of the same port apart. -/
structure Client where
  id : ℕ
  tries : ℕ
  sock : Option NormalSocket

structure Flight where
  info : TCPInfo
  sender : ℕ

/-- VAccept waits for a SYN, or for the ACK that completes a socket. -/
inductive AcceptPc
  | syn
  | ack (sock : NormalSocket)

/-- The server with its listener on `port`, the clients, and the segments between them.
`sent` records what clients sent and `accepted` what VAccept returned. -/
structure Listening where
  ip : Addr
  port : UInt16
  table : SocketTableKey → Option NormalSocket
  pc : AcceptPc
  accepted : List NormalSocket
  clients : Remote → Option Client
  nextId : ℕ
  toServer : List Flight
  toClients : List TCPInfo
  sent : List Flight

inductive ListenEvent
  | connect (r : Remote)
  | retry (r : Remote)
  | send (r : Remote) (fin : Bool) (seqNum ackNum : UInt32) (window : UInt16)
      (payload : List UInt8)
  | leave (r : Remote)
  | serve (packet : TCPPacket)
  | remove (key : SocketTableKey)
  | toServer (k : ℕ)
  | toClient (k : ℕ)

namespace Listening

open Runs

def start (ip : Addr) (port : UInt16) : Listening where
  ip := ip
  port := port
  table _ := none
  pc := .syn
  accepted := []
  clients _ := none
  nextId := 0
  toServer := []
  toClients := []
  sent := []

def fromClient (s : Listening) (r : Remote) (flags : UInt8) (seqNum ackNum : UInt32)
    (window : UInt16) (payload : List UInt8) : TCPPacket where
  sourceIp := r.addr
  destIp := s.ip
  payload := payload
  flags := flags
  sourcePort := r.port
  destPort := s.port
  seqNum := seqNum
  ackNum := ackNum
  window := window

def synPacket (s : Listening) (r : Remote) : TCPPacket :=
  s.fromClient r tcpFlagSyn 5000 0 65535 []

def transmit (s : Listening) (packet : TCPPacket) (sender : ℕ) : Listening :=
  { s with
    toServer := s.toServer ++ [⟨packet.info, sender⟩]
    sent := s.sent ++ [⟨packet.info, sender⟩] }

def setClient (s : Listening) (r : Remote) (c : Option Client) : Listening :=
  { s with clients := Function.update s.clients r c }

def connect (s : Listening) (r : Remote) : Option Listening :=
  match s.clients r with
  | none => some (({ s with nextId := s.nextId + 1 }.setClient r
      (some ⟨s.nextId, 0, none⟩)).transmit (s.synPacket r) s.nextId)
  | some _ => none

/-- A turn of VConnect's loop without a SYN-ACK. After three of them it gives up. -/
def retry (s : Listening) (r : Remote) (c : Client) : Listening :=
  if c.tries + 1 = 3 then s.setClient r none
  else (s.setClient r (some { c with tries := c.tries + 1 })).transmit (s.synPacket r) c.id

def established (s : Listening) (r : Remote) (c : Client) (ci : TCPInfo) : Listening :=
  let sock := {
    newSocket ⟨r.addr, r.port, s.ip, s.port⟩ (ci.AckNum - 1) ci.SeqNum ci.WindowSize with
    cumWriteUNA := ci.AckNum }
  (s.setClient r (some { c with sock := some sock })).transmit
    (s.fromClient r tcpFlagAck ci.AckNum (ci.SeqNum + 1) 65535 []) c.id

def target (ci : TCPInfo) : Remote := ⟨ci.key.RemoteAddr, ci.key.RemotePort⟩

def source (ci : TCPInfo) : Remote := ⟨ci.key.LocalAddr, ci.key.LocalPort⟩

/-- A segment reaches its client. Established sockets handle it in ReceiverThread. -/
def receive (s : Listening) (ci : TCPInfo) : Listening :=
  match s.clients (target ci) with
  | none => s
  | some c =>
      match c.sock with
      | some _ => s
      | none => if ci.Flag = synAck then s.established (target ci) c ci else s.retry (target ci) c

def pending (ci : TCPInfo) : NormalSocket :=
  { newSocket ci.key.flip 6000 ci.SeqNum 65535 with state := .synReceived }

def synAckPacket (ci : TCPInfo) : TCPPacket where
  sourceIp := ci.key.RemoteAddr
  destIp := ci.key.LocalAddr
  payload := []
  flags := synAck
  sourcePort := ci.key.RemotePort
  destPort := ci.key.LocalPort
  seqNum := (pending ci).baseSeq
  ackNum := ci.SeqNum + 1
  window := 65535

def completed (sock : NormalSocket) (ci : TCPInfo) : NormalSocket :=
  { sock with state := .established, ClientWindowSize := ci.WindowSize }

def take (s : Listening) (ci : TCPInfo) : Listening :=
  match s.pc with
  | .syn =>
      if ci.Flag = tcpFlagSyn ∧ ci.key.RemotePort = s.port then
        { s with
          table := Function.update s.table ci.key.flip (some (pending ci))
          pc := .ack (pending ci)
          toClients := s.toClients ++ [(synAckPacket ci).info] }
      else s
  | .ack sock =>
      if ci.Flag = tcpFlagAck ∧ ci.key.RemotePort = s.port then
        { s with
          table := Function.update s.table sock.key (some (completed sock ci))
          pc := .syn
          accepted := s.accepted ++ [completed sock ci] }
      else s

def forListener (s : Listening) (ci : TCPInfo) : Bool :=
  match s.table ci.key.flip with
  | some sock => sock.state = .synReceived ∧ ci.key.RemotePort = s.port
  | none => ci.key.RemotePort = s.port

def dispatch (s : Listening) (ci : TCPInfo) : Listening :=
  if s.forListener ci then s.take ci else s

def step (s : Listening) : ListenEvent → Option Listening
  | .connect r => s.connect r
  | .retry r => match s.clients r with
      | some ⟨id, tries, none⟩ => some (s.retry r ⟨id, tries, none⟩)
      | _ => none
  | .send r fin seqNum ackNum window payload => match s.clients r with
      | some ⟨id, _, some _⟩ => some (s.transmit
          (s.fromClient r (if fin then finAck else tcpFlagAck) seqNum ackNum window payload) id)
      | _ => none
  | .leave r => match s.clients r with
      | some ⟨_, _, some _⟩ => some (s.setClient r none)
      | _ => none
  | .serve packet =>
      -- an established socket of the server sends data, an acknowledgement or a FIN
      if packet.flags = tcpFlagAck ∨ packet.flags = finAck then
        some { s with toClients := s.toClients ++ [packet.info] }
      else none
  | .remove key => match s.table key with
      | some sock => if sock.state = .synReceived then none
          else some { s with table := Function.update s.table key none }
      | none => none
  | .toServer k => match s.toServer[k]? with
      | some f => some ({ s with toServer := s.toServer.eraseIdx k }.dispatch f.info)
      | none => none
  | .toClient k => match s.toClients[k]? with
      | some ci => some ({ s with toClients := s.toClients.eraseIdx k }.receive ci)
      | none => none

/-- The ways in which the clients, the network and the server go on, one case for each. -/
inductive Step (s : Listening) : ListenEvent → Listening → Prop
  | connect (r : Remote) (s' : Listening) : s.connect r = some s' → Step s (.connect r) s'
  | retry (r : Remote) (c : Client) : s.clients r = some c → Step s (.retry r) (s.retry r c)
  | send (r : Remote) (c : Client) (fin : Bool) (seqNum ackNum : UInt32) (window : UInt16)
      (payload : List UInt8) : s.clients r = some c → c.sock.isSome →
      Step s (.send r fin seqNum ackNum window payload) (s.transmit
        (s.fromClient r (if fin then finAck else tcpFlagAck) seqNum ackNum window payload) c.id)
  | leave (r : Remote) : Step s (.leave r) (s.setClient r none)
  | serve (packet : TCPPacket) : packet.flags = tcpFlagAck ∨ packet.flags = finAck →
      Step s (.serve packet) { s with toClients := s.toClients ++ [packet.info] }
  | remove (key : SocketTableKey) :
      Step s (.remove key) { s with table := Function.update s.table key none }
  | toServer (k : ℕ) (f : Flight) : s.toServer[k]? = some f →
      Step s (.toServer k) ({ s with toServer := s.toServer.eraseIdx k }.dispatch f.info)
  | toClient (k : ℕ) (ci : TCPInfo) : s.toClients[k]? = some ci →
      Step s (.toClient k) ({ s with toClients := s.toClients.eraseIdx k }.receive ci)

theorem step_step {s s' : Listening} {e : ListenEvent} (h : s.step e = some s') :
    Step s e s' := by
  cases e with
  | connect r => exact .connect r s' h
  | retry r =>
    simp only [step] at h
    split at h
    · next hc =>
      cases h
      exact .retry r _ hc
    · contradiction
  | send r fin seqNum ackNum window payload =>
    simp only [step] at h
    split at h
    · next hc =>
      cases h
      exact .send r _ fin seqNum ackNum window payload hc rfl
    · contradiction
  | leave r =>
    simp only [step] at h
    split at h
    · cases h
      exact .leave r
    · contradiction
  | serve packet =>
    simp only [step] at h
    split at h
    · next hflags =>
      cases h
      exact .serve packet hflags
    · contradiction
  | remove key =>
    simp only [step] at h
    split at h
    · split at h
      · contradiction
      · cases h
        exact .remove key
    · contradiction
  | toServer k =>
    simp only [step] at h
    split at h
    · next f hf =>
      cases h
      exact .toServer k f hf
    · contradiction
  | toClient k =>
    simp only [step] at h
    split at h
    · next ci hci =>
      cases h
      exact .toClient k ci hci
    · contradiction

/-- The two ends of an accepted connection know the same numbers, and the client itself
acknowledged the SYN of this socket. -/
def Agreed (s : Listening) (sock : NormalSocket) : Prop :=
  (∃ f ∈ s.sent, f.info.key = sock.key.flip ∧ f.info.Flag = tcpFlagAck ∧
      f.info.AckNum = sock.baseSeq + 1) ∧
    ∃ c peer, s.clients ⟨sock.key.RemoteAddr, sock.key.RemotePort⟩ = some c ∧
      c.sock = some peer ∧ peer.baseSeq = sock.baseAck ∧ peer.baseAck = sock.baseSeq ∧
      peer.cumWriteUNA = sock.cumReadNXT ∧ peer.cumReadNXT = sock.cumWriteUNA

/-- The segment answers the SYN-ACK of the socket: it comes from the present socket of the
client that sent the SYN and acknowledges the SYN of the server. -/
def Answers (s : Listening) (sock : NormalSocket) (f : Flight) : Prop :=
  f.info.key = sock.key.flip ∧ f.info.AckNum = sock.baseSeq + 1 ∧
    (s.clients (source f.info)).any (fun c => c.id = f.sender) = true

/-- An ACK that ends the second loop of VAccept answers its SYN-ACK. -/
def Answered (s : Listening) : ListenEvent → Prop
  | .toServer k => match s.pc, s.toServer[k]? with
      | .ack sock, some f => f.info.Flag = tcpFlagAck → s.forListener f.info = true →
          s.Answers sock f
      | _, _ => True
  | _ => True

theorem syn_ne_ack : tcpFlagSyn ≠ tcpFlagAck := by decide

structure ClientNumbers (peer : NormalSocket) : Prop where
  baseSeq : peer.baseSeq = 5000
  baseAck : peer.baseAck = 6000
  cumWriteUNA : peer.cumWriteUNA = 5001
  cumReadNXT : peer.cumReadNXT = 6001

structure ServerNumbers (sock : NormalSocket) : Prop where
  baseSeq : sock.baseSeq = 6000
  baseAck : sock.baseAck = 5000
  cumWriteUNA : sock.cumWriteUNA = 6001
  cumReadNXT : sock.cumReadNXT = 5001

structure FlightOk (sent : List Flight) (nextId : ℕ) (clients : Remote → Option Client)
    (f : Flight) : Prop where
  sent : f ∈ sent
  sender : f.sender < nextId
  syn : f.info.Flag = tcpFlagSyn → f.info.SeqNum = 5000
  ack : f.info.Flag = tcpFlagAck → ∀ c, clients (source f.info) = some c → c.id = f.sender →
    c.sock.isSome

structure ClientOk (nextId : ℕ) (c : Client) : Prop where
  id : c.id < nextId
  numbers : ∀ peer, c.sock = some peer → ClientNumbers peer

structure Inv (s : Listening) : Prop where
  flights : ∀ f ∈ s.toServer, FlightOk s.sent s.nextId s.clients f
  replies : ∀ ci ∈ s.toClients, ci.Flag = synAck → ci.SeqNum = 6000 ∧ ci.AckNum = 5001
  clients : ∀ r c, s.clients r = some c → ClientOk s.nextId c
  pending : ∀ sock, s.pc = .ack sock → ServerNumbers sock

namespace Inv

variable {s s' : Listening}

theorem start (ip : Addr) (port : UInt16) : Inv (Listening.start ip port) where
  flights := by simp [Listening.start]
  replies := by simp [Listening.start]
  clients := by simp [Listening.start]
  pending := by simp [Listening.start]

theorem transmit (h : Inv s) {packet : TCPPacket} {sender : ℕ} (hsender : sender < s.nextId)
    (hsyn : packet.flags = tcpFlagSyn → packet.seqNum = 5000)
    (hack : packet.flags = tcpFlagAck → ∀ c, s.clients (source packet.info) = some c →
      c.id = sender → c.sock.isSome) : Inv (s.transmit packet sender) := by
  refine ⟨?_, h.replies, h.clients, h.pending⟩
  intro f hf
  rcases List.mem_append.mp hf with hold | hnew
  · obtain ⟨hsent, hid, hsyns, hacks⟩ := h.flights f hold
    exact ⟨List.mem_append_left _ hsent, hid, hsyns, hacks⟩
  · rw [List.mem_singleton.mp hnew]
    exact ⟨List.mem_append_right _ (List.mem_singleton.mpr rfl), hsender, hsyn, hack⟩

/-- A client changes, or a new one takes the place. -/
theorem setClient (h : Inv s) (r : Remote) (c' : Option Client)
    (hok : ∀ c, c' = some c → ClientOk s.nextId c)
    (hacks : ∀ c, c' = some c → ∀ f ∈ s.toServer, f.info.Flag = tcpFlagAck →
      source f.info = r → c.id = f.sender → c.sock.isSome) : Inv (s.setClient r c') := by
  refine ⟨?_, h.replies, ?_, h.pending⟩
  · intro f hf
    obtain ⟨hsent, hid, hsyns, hold⟩ := h.flights f hf
    refine ⟨hsent, hid, hsyns, ?_⟩
    intro hflag c hc hsender
    simp only [Listening.setClient, Function.update_apply] at hc
    split at hc
    · rename_i hsource
      exact hacks c hc f hf hflag hsource hsender
    · exact hold hflag c hc hsender
  · intro q c hc
    simp only [Listening.setClient, Function.update_apply] at hc
    split at hc
    · exact hok c hc
    · exact h.clients q c hc

theorem connect (h : Inv s) {r : Remote} (hstep : s.connect r = some s') : Inv s' := by
  unfold Listening.connect at hstep
  split at hstep
  · cases hstep
    have hgrow : Inv { s with nextId := s.nextId + 1 } := by
      refine ⟨?_, h.replies, ?_, h.pending⟩
      · intro f hf
        obtain ⟨hsent, hid, hsyns, hacks⟩ := h.flights f hf
        exact ⟨hsent, Nat.lt_succ_of_lt hid, hsyns, hacks⟩
      · intro q c hc
        obtain ⟨hid, hnumbers⟩ := h.clients q c hc
        exact ⟨Nat.lt_succ_of_lt hid, hnumbers⟩
    refine (hgrow.setClient r _ ?_ ?_).transmit (Nat.lt_succ_self _) (fun _ => rfl)
      (fun hflag => absurd hflag syn_ne_ack)
    · intro c hc
      cases hc
      exact ⟨Nat.lt_succ_self _, by simp⟩
    · intro c hc f hf _ _ hsender
      cases hc
      have hlt := (h.flights f hf).sender
      simp only at hsender
      omega
  · contradiction

theorem retry (h : Inv s) {r : Remote} {c : Client} (hc : s.clients r = some c) :
    Inv (s.retry r c) := by
  obtain ⟨hid, hnumbers⟩ := h.clients r c hc
  unfold Listening.retry
  split
  · exact h.setClient r none (by simp) (by simp)
  · refine (h.setClient r _ ?_ ?_).transmit hid (fun _ => rfl)
      (fun hflag => absurd hflag syn_ne_ack)
    · intro c' hc'
      cases hc'
      exact ⟨hid, hnumbers⟩
    · intro c' hc' f hf hflag hsource hsender
      cases hc'
      exact (h.flights f hf).ack hflag c (hsource ▸ hc) hsender

theorem receive (h : Inv s) {ci : TCPInfo}
    (hci : ci.Flag = synAck → ci.SeqNum = 6000 ∧ ci.AckNum = 5001) : Inv (s.receive ci) := by
  unfold Listening.receive
  split
  · exact h
  · rename_i c hc
    split
    · exact h
    · split
      · rename_i hflag
        obtain ⟨hseq, hack⟩ := hci hflag
        obtain ⟨hid, -⟩ := h.clients _ c hc
        refine (h.setClient (target ci) _ ?_ ?_).transmit hid
          (fun hflag => absurd hflag.symm syn_ne_ack) ?_
        · intro c' hc'
          cases hc'
          refine ⟨hid, ?_⟩
          intro peer hpeer
          cases hpeer
          refine ⟨?_, hseq, hack, ?_⟩
          · change ci.AckNum - 1 = 5000
            rw [hack]
            decide
          · change ci.SeqNum + 1 = 6001
            rw [hseq]
            decide
        · intro c' hc' _ _ _ _ _
          cases hc'
          rfl
        · intro _ c' hc' _
          have hself : source (s.fromClient (target ci) tcpFlagAck ci.AckNum (ci.SeqNum + 1) 65535
            []).info = target ci := rfl
          rw [hself] at hc'
          simp only [Listening.setClient, Function.update_self] at hc'
          cases hc'
          rfl
      · exact h.retry hc

/-- VAccept keeps the numbers; it takes SYNs with the fixed number only. -/
theorem take (h : Inv s) {ci : TCPInfo} (hci : ci.Flag = tcpFlagSyn → ci.SeqNum = 5000) :
    Inv (s.take ci) := by
  unfold Listening.take
  split
  · split
    · rename_i hsyn
      have hseq := hci hsyn.1
      refine ⟨h.flights, ?_, h.clients, ?_⟩
      · intro r hr hflag
        rcases List.mem_append.mp hr with hold | hnew
        · exact h.replies r hold hflag
        · rw [List.mem_singleton.mp hnew]
          refine ⟨rfl, ?_⟩
          change ci.SeqNum + 1 = 5001
          rw [hseq]
          decide
      · intro sock hsock
        cases hsock
        refine ⟨rfl, hseq, ?_, ?_⟩
        · change (6000 : UInt32) + 1 = 6001
          decide
        · change ci.SeqNum + 1 = 5001
          rw [hseq]
          decide
    · exact h
  · split
    · exact ⟨h.flights, h.replies, h.clients, by simp⟩
    · exact h

theorem dispatch (h : Inv s) {ci : TCPInfo} (hci : ci.Flag = tcpFlagSyn → ci.SeqNum = 5000) :
    Inv (s.dispatch ci) := by
  unfold Listening.dispatch
  split
  · exact h.take hci
  · exact h

theorem step (h : Inv s) {e : ListenEvent} (hstep : s.step e = some s') : Inv s' := by
  cases step_step hstep with
  | connect r s' hconnect => exact h.connect hconnect
  | retry r c hc => exact h.retry hc
  | send r c fin seqNum ackNum window payload hc hsock =>
    refine h.transmit (h.clients r c hc).id ?_ ?_
    · intro hflag
      change (if fin then finAck else tcpFlagAck) = tcpFlagSyn at hflag
      cases fin <;> exact absurd hflag (by decide)
    · intro _ c' hc' _
      cases hc.symm.trans hc'
      exact hsock
  | leave r => exact h.setClient r none (by simp) (by simp)
  | serve packet hflags =>
    refine ⟨h.flights, ?_, h.clients, h.pending⟩
    intro ci hci hflag
    rcases List.mem_append.mp hci with hold | hnew
    · exact h.replies ci hold hflag
    · rw [List.mem_singleton.mp hnew] at hflag
      change packet.flags = synAck at hflag
      rw [hflag] at hflags
      exact absurd hflags (by decide)
  | remove key => exact ⟨h.flights, h.replies, h.clients, h.pending⟩
  | toServer k f hf =>
    have hfewer : Inv { s with toServer := s.toServer.eraseIdx k } :=
      ⟨fun f hf => h.flights f (List.mem_of_mem_eraseIdx hf), h.replies, h.clients, h.pending⟩
    exact hfewer.dispatch (h.flights f (List.mem_of_getElem? hf)).syn
  | toClient k ci hci =>
    have hfewer : Inv { s with toClients := s.toClients.eraseIdx k } :=
      ⟨h.flights, fun ci hci => h.replies ci (List.mem_of_mem_eraseIdx hci), h.clients, h.pending⟩
    exact hfewer.receive (h.replies ci (List.mem_of_getElem? hci))

end Inv

theorem retry_accepted (s : Listening) (r : Remote) (c : Client) :
    (s.retry r c).accepted = s.accepted := by
  unfold retry
  split <;> rfl

theorem receive_accepted (s : Listening) (ci : TCPInfo) :
    (s.receive ci).accepted = s.accepted := by
  unfold receive
  split
  · rfl
  · split
    · rfl
    · split
      · rfl
      · exact retry_accepted s _ _

/-- VAccept returns a socket only when it takes an ACK in its second loop. -/
theorem step_accepted {s s' : Listening} {e : ListenEvent} (hstep : s.step e = some s') :
    s'.accepted = s.accepted ∨ ∃ k f sock, e = .toServer k ∧ s.toServer[k]? = some f ∧
      s.pc = .ack sock ∧ f.info.Flag = tcpFlagAck ∧ s.forListener f.info = true ∧
      s'.accepted = s.accepted ++ [completed sock f.info] ∧ s'.sent = s.sent ∧
      s'.clients = s.clients := by
  cases step_step hstep with
  | connect r s' hconnect =>
    unfold connect at hconnect
    split at hconnect
    · cases hconnect
      exact Or.inl rfl
    · contradiction
  | retry r c hc => exact Or.inl (retry_accepted s r c)
  | send | leave | serve | remove => exact Or.inl rfl
  | toServer k f hf =>
    unfold dispatch
    split
    · rename_i hlistener
      unfold take
      split
      · split <;> exact Or.inl rfl
      · rename_i sock hpc
        split
        · rename_i hack
          exact Or.inr ⟨k, f, sock, rfl, hf, hpc, hack.1, hlistener, rfl, rfl, rfl⟩
        · exact Or.inl rfl
    · exact Or.inl rfl
  | toClient k ci hci => exact Or.inl (receive_accepted _ _)

/-- In every run in which the ACKs that complete a socket answer its SYN-ACK, VAccept
returns only sockets on which both ends agree. -/
theorem answered_accepts_agree (ip : Addr) (port : UInt16) {s s' : Listening}
    (h : Reach step Answered (start ip port) s) {e : ListenEvent} (hok : Answered s e)
    (hstep : s.step e = some s') {sock : NormalSocket}
    (hnew : s'.accepted = s.accepted ++ [sock]) : Agreed s' sock := by
  have hinv : Inv s := h.invariant Inv (Inv.start ip port)
    (fun _ _ _ hinv _ hnext => hinv.step hnext)
  rcases step_accepted hstep with hsame | ⟨k, f, pend, rfl, hf, hpc, hflag, hlistener, hacc, hsent,
    hclients⟩
  · rw [hsame] at hnew
    simp at hnew
  · rw [hacc, List.append_cancel_left_eq, List.cons.injEq] at hnew
    obtain ⟨rfl, -⟩ := hnew
    simp only [Answered, hpc, hf] at hok
    obtain ⟨hkey, hnum, hpresent⟩ := hok hflag hlistener
    have hmem := List.mem_of_getElem? hf
    have hserver := hinv.pending pend hpc
    have hsource : source f.info = ⟨pend.key.RemoteAddr, pend.key.RemotePort⟩ := by
      unfold source
      rw [hkey]
      rfl
    refine ⟨⟨f, hsent ▸ (hinv.flights f hmem).sent, hkey, hflag, hnum⟩, ?_⟩
    cases hc : s.clients (source f.info) with
    | none => simp [hc] at hpresent
    | some c =>
      rw [hc] at hpresent
      have hsome := (hinv.flights f hmem).ack hflag c hc (by simpa using hpresent)
      obtain ⟨peer, hpeer⟩ := Option.isSome_iff_exists.mp hsome
      have hclient := (hinv.clients _ c hc).numbers peer hpeer
      refine ⟨c, peer, ?_, hpeer, ?_, ?_, ?_, ?_⟩
      · rw [hclients, ← hc, hsource]
        rfl
      · exact hclient.baseSeq.trans hserver.baseAck.symm
      · exact hclient.baseAck.trans hserver.baseSeq.symm
      · exact hclient.cumWriteUNA.trans hserver.cumReadNXT.symm
      · exact hclient.cumReadNXT.trans hserver.cumWriteUNA.symm

instance (s : Listening) (sock : NormalSocket) (f : Flight) : Decidable (s.Answers sock f) :=
  inferInstanceAs (Decidable (_ ∧ _ ∧ _))

instance (s : Listening) (e : ListenEvent) : Decidable (Answered s e) :=
  match e with
  | .toServer k => match hpc : s.pc, hf : s.toServer[k]? with
      | .ack sock, some f => decidable_of_iff (f.info.Flag = tcpFlagAck →
          s.forListener f.info = true → s.Answers sock f) (by simp only [Answered, hpc, hf])
      | .ack _, none => .isTrue (by simp [Answered, hpc, hf])
      | .syn, _ => .isTrue (by simp [Answered, hpc])
  | .connect _ | .retry _ | .send _ _ _ _ _ _ | .leave _ | .serve _ | .remove _ | .toClient _ =>
      .isTrue trivial

def sampleFirst : Remote := ⟨.v4 2, 20000⟩

def sampleSecond : Remote := ⟨.v4 3, 20000⟩

/-- SYN, SYN-ACK and ACK of one client. -/
theorem answered_accepts_agree_one_client :
    ∃ s sock, s.accepted = [sock] ∧ sock.baseAck = 5000 ∧ Agreed s sock := by
  obtain ⟨s, hreach, ⟨hnone, hnext⟩, hok⟩ := exists_reach step Answered (start (.v4 1) 80)
    (fun s => (s.accepted = [] ∧ (s.step (.toServer 0)).any
      (fun s' => s'.accepted.map (fun sock => sock.baseAck) = [5000])) ∧ Answered s (.toServer 0))
    [.connect sampleFirst, .toServer 0, .toClient 0] (by decide)
  cases hstep : s.step (.toServer 0) with
  | none => simp [hstep] at hnext
  | some s' =>
    rw [hstep, Option.any_some, decide_eq_true_eq] at hnext
    obtain ⟨sock, hsock, hack⟩ := List.map_eq_singleton_iff.mp hnext
    refine ⟨s', sock, hsock, hack, answered_accepts_agree (.v4 1) 80 hreach hok hstep ?_⟩
    rw [hnone, hsock]
    rfl

/-- A late ACK of a client whose connection is over completes the socket of another client,
which has not seen its SYN-ACK. -/
theorem stray_ack_accepted :
    ¬ ∀ (ip : Addr) (port : UInt16) (s : Listening) (e : ListenEvent) (s' : Listening)
      (sock : NormalSocket), Reach step (fun _ _ => True) (start ip port) s →
      s.step e = some s' → s'.accepted = s.accepted ++ [sock] → Agreed s' sock := by
  intro hclaim
  obtain ⟨s, hreach, hbefore, hnext⟩ := exists_reach step (fun _ _ => True) (start (.v4 1) 80)
    (fun s => s.accepted.length = 1 ∧ (s.step (.toServer 0)).any (fun s' =>
      (s'.accepted.drop 1).map (fun sock => (sock.key.RemoteAddr, sock.key.RemotePort)) =
        [(.v4 3, 20000)] ∧ (s'.clients sampleSecond).all (fun c => c.sock.isNone)))
    [.connect sampleFirst, .toServer 0, .toClient 0, .toServer 0,
      .send sampleFirst false 5001 6001 65535 [], .remove ⟨.v4 1, 80, .v4 2, 20000⟩,
      .connect sampleSecond, .toServer 1] (by decide)
  cases hstep : s.step (.toServer 0) with
  | none => simp [hstep] at hnext
  | some s' =>
    rw [hstep, Option.any_some, decide_eq_true_eq] at hnext
    obtain ⟨hkeys, hfresh⟩ := hnext
    obtain ⟨sock, hsock, hkey⟩ := List.map_eq_singleton_iff.mp hkeys
    have hnew : s'.accepted = s.accepted ++ [sock] := by
      rcases step_accepted hstep with hsame | ⟨k, f, pend, -, -, -, -, -, hacc, -⟩
      · rw [hsame, ← hbefore, List.drop_length] at hsock
        contradiction
      · rw [hacc, ← hbefore, List.drop_left] at hsock
        rw [hacc, hsock]
    obtain ⟨-, c, peer, hc, hpeer, -⟩ := hclaim _ _ s _ s' sock hreach hstep hnew
    rw [Prod.mk.injEq] at hkey
    rw [hkey.1, hkey.2] at hc
    change s'.clients sampleSecond = some c at hc
    rw [hc, Option.all_some, hpeer] at hfresh
    contradiction

end Listening

end IpTcp
