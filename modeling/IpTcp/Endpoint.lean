import IpTcp.SenderRuns
import IpTcp.WriteRing

/-!
All threads of one connected socket: VWrite, SenderThread with slidingWindow and
its retransmission thread, ReceiverThread, VRead, VClose and the goroutine that
VClose leaves behind to wait for the acknowledgement of the FIN. The writing steps
are those of the pipe between VWrite and SenderThread, with slidingWindow now in
its place instead of an abstract mover of pointers. The retransmission thread of a
call lives until the next call starts.
-/
namespace IpTcp

namespace NormalSocket

/-- The goroutine of VClose, once it has the acknowledgement of the FIN. -/
def finAcked (sock : NormalSocket) (receivedAck : UInt32) : NormalSocket :=
  let sock := { sock with unackedFINs := Function.update sock.unackedFINs receivedAck false }
  if sock.stateMtx then sock
  else match sock.state with
    | .finWait1 => { sock with state := .finWait2 }
    | _ => sock

end NormalSocket

inductive SendPc
  | idle
  | received (lbw : UInt32)
  | sliding (call : WindowCall)

namespace SendPc

def ready : SendPc → Bool
  | .idle => true
  | .received _ => false
  | .sliding call => call.pc = .done

end SendPc

/-- `arriving` is the segment that ReceiverThread works on and `stuck` tells that it
waits for ever; `closers` are the calls of VClose that have built their FIN, `finAck`
is what the goroutine of VClose got. What was accepted, sent, answered and read is
recorded. -/
structure Endpoint where
  sock : NormalSocket
  writer : WriterPc
  sender : SendPc
  arriving : Option TCPInfo
  stuck : Bool
  closers : List TCPPacket
  finAck : Option UInt32
  panicked : Bool
  messages : List (List UInt8)
  emitted : List Emission
  replies : List TCPPacket
  output : List UInt8

inductive EndpointEvent
  | write (e : PipeEvent)
  | handOver
  | build
  | run
  | timeout
  | tick
  | arrive (received : TCPInfo)
  | dispatch
  | finAcked
  | read (numbytes : UInt16)
  | close
  | commit (k : ℕ)

namespace Endpoint

def start (sock : NormalSocket) : Endpoint where
  sock := sock
  writer := .idle
  sender := .idle
  arriving := none
  stuck := false
  closers := []
  finAck := none
  panicked := false
  messages := []
  emitted := []
  replies := []
  output := []

/-- VWrite takes the state mutex before anything else. -/
def mayWrite (p : Endpoint) : PipeEvent → Bool
  | .call _ => !p.sock.stateMtx
  | _ => true

def pipe (p : Endpoint) : Pipe where
  sock := p.sock
  writer := p.writer
  sender := .idle
  panicked := p.panicked
  messages := p.messages
  payloads := []

def wrote (p : Endpoint) (w : Pipe) : Endpoint :=
  { p with sock := w.sock, writer := w.writer, panicked := w.panicked, messages := w.messages }

def handOver (p : Endpoint) : Option Endpoint :=
  match p.writer with
  | .handing call =>
      if p.sender.ready then
        some { p with writer := .testing call, sender := .received p.sock.writeBuffer.LBW }
      else none
  | _ => none

def build (p : Endpoint) : Option Endpoint :=
  match p.sender with
  | .received lbw =>
      match p.sock.takeChunk lbw with
      | none => some { p with panicked := true }
      | some none => some { p with sender := .idle }
      | some (some packet) => some { p with sender := .sliding (p.sock.slidingWindow packet) }
  | _ => none

def update (p : Endpoint) (result : NormalSocket × WindowCall × List Emission) : Endpoint :=
  { p with
    sock := result.1
    sender := .sliding result.2.1
    panicked := result.2.1.pc = .panicked
    emitted := p.emitted ++ result.2.2 }

def slide (p : Endpoint) (e : EndpointEvent) : Option Endpoint :=
  match p.sender with
  | .sliding call =>
      match e with
      | .run => (call.run p.sock).map p.update
      | .timeout => call.timeout.map fun again => { p with emitted := p.emitted ++ again }
      | .tick => (call.tick p.sock).map p.update
      | _ => none
  | _ => none

/-- ReceiverThread notes the window of the next segment. -/
def arrive (p : Endpoint) (received : TCPInfo) : Option Endpoint :=
  match p.arriving with
  | none =>
      if p.stuck then none
      else some { p with sock := p.sock.noteWindow received, arriving := some received }
  | some _ => none

/-- ReceiverThread goes on with a segment. Channels that are full, or that nobody reads,
make it wait; `Threads` adds that it keeps `unackedMtx` meanwhile. -/
def deliver (p : Endpoint) (received : TCPInfo) : Option Endpoint :=
  let p' := { p with sock := (p.sock.dispatch received).1, arriving := none }
  match (p.sock.dispatch received).2 with
  | .blocked => some { p' with stuck := true }
  | .toAckChan => if p.sock.ackChan.length < 100 then some p' else none
  | .toFinChan ack => if p.finAck = none then some { p' with finAck := some ack } else none
  | .reply packet => some { p' with replies := p.replies ++ [packet] }
  | .ignored | .queued | .bufferFull => some p'

def finAcked (p : Endpoint) : Option Endpoint :=
  match p.finAck with
  | none => none
  | some ack =>
      if p.sock.unackedMtx then none
      else some { p with sock := p.sock.finAcked ack, finAck := none }

def read (p : Endpoint) (numbytes : UInt16) : Option Endpoint :=
  match p.sock.vRead numbytes with
  | (sock, .bytes data) => some { p with sock := sock, output := p.output ++ data }
  | _ => none

/-- VClose from the state mutex on. -/
def commit (p : Endpoint) (k : ℕ) : Option Endpoint :=
  match p.closers[k]? with
  | none => none
  | some packet =>
      let p' := { p with
        sock := (p.sock.commitClose packet).1
        closers := p.closers.eraseIdx k }
      match (p.sock.commitClose packet).2 with
      | .sent packet => some { p' with emitted := p.emitted ++ [⟨.fin, packet⟩] }
      | .blocked | .invalidState => some p'

def step (p : Endpoint) (e : EndpointEvent) : Option Endpoint :=
  if p.panicked then none
  else match e with
    | .write w => if p.mayWrite w then (p.pipe.writerStep w).map p.wrote else none
    | .handOver => p.handOver
    | .build => p.build
    | .run | .timeout | .tick => p.slide e
    | .arrive received => p.arrive received
    | .dispatch => p.arriving.bind p.deliver
    | .finAcked => p.finAcked
    | .read numbytes => p.read numbytes
    | .close => some { p with closers := p.closers ++ [p.sock.finPacket] }
    | .commit k => p.commit k

/-- The ways in which the threads of a socket go on, one case for each. -/
inductive Step (p : Endpoint) : EndpointEvent → Endpoint → Prop
  | write (e : PipeEvent) (w : Pipe) : p.pipe.writerStep e = some w →
      Step p (.write e) (p.wrote w)
  | handOver (call : WriteCall) : p.writer = .handing call → p.sender.ready = true →
      Step p .handOver
        { p with writer := .testing call, sender := .received p.sock.writeBuffer.LBW }
  | outOfBounds (lbw : UInt32) : p.sender = .received lbw → p.sock.takeChunk lbw = none →
      Step p .build { p with panicked := true }
  | nothing (lbw : UInt32) : p.sender = .received lbw → p.sock.takeChunk lbw = some none →
      Step p .build { p with sender := .idle }
  | build (lbw : UInt32) (packet : TCPPacket) : p.sender = .received lbw →
      p.sock.takeChunk lbw = some (some packet) →
      Step p .build { p with sender := .sliding (p.sock.slidingWindow packet) }
  | run (call : WindowCall) (result : NormalSocket × WindowCall × List Emission) :
      p.sender = .sliding call → call.run p.sock = some result → Step p .run (p.update result)
  | timeout (call : WindowCall) (again : List Emission) : p.sender = .sliding call →
      call.timeout = some again → Step p .timeout { p with emitted := p.emitted ++ again }
  | tick (call : WindowCall) (result : NormalSocket × WindowCall × List Emission) :
      p.sender = .sliding call → call.tick p.sock = some result → Step p .tick (p.update result)
  | arrive (received : TCPInfo) : p.arriving = none → p.stuck = false →
      Step p (.arrive received)
        { p with sock := p.sock.noteWindow received, arriving := some received }
  | blocked (received : TCPInfo) : p.arriving = some received →
      (p.sock.dispatch received).2 = .blocked →
      Step p .dispatch
        { p with sock := (p.sock.dispatch received).1, arriving := none, stuck := true }
  | absorbed (received : TCPInfo) : p.arriving = some received →
      Step p .dispatch { p with sock := (p.sock.dispatch received).1, arriving := none }
  | toFinChan (received : TCPInfo) (ack : UInt32) : p.arriving = some received →
      (p.sock.dispatch received).2 = .toFinChan ack → p.finAck = none →
      Step p .dispatch
        { p with sock := (p.sock.dispatch received).1, arriving := none, finAck := some ack }
  | reply (received : TCPInfo) (packet : TCPPacket) : p.arriving = some received →
      (p.sock.dispatch received).2 = .reply packet →
      Step p .dispatch { p with
        sock := (p.sock.dispatch received).1
        arriving := none
        replies := p.replies ++ [packet] }
  | finAcked (ack : UInt32) : p.finAck = some ack → p.sock.unackedMtx = false →
      Step p .finAcked { p with sock := p.sock.finAcked ack, finAck := none }
  | read (numbytes : UInt16) (sock : NormalSocket) (data : List UInt8) :
      p.sock.vRead numbytes = (sock, .bytes data) →
      Step p (.read numbytes) { p with sock := sock, output := p.output ++ data }
  | close : Step p .close { p with closers := p.closers ++ [p.sock.finPacket] }
  | commit (k : ℕ) (packet : TCPPacket) : p.closers[k]? = some packet →
      (∀ sent, (p.sock.commitClose packet).2 ≠ .sent sent) →
      Step p (.commit k)
        { p with sock := (p.sock.commitClose packet).1, closers := p.closers.eraseIdx k }
  | sendFIN (k : ℕ) (packet sent : TCPPacket) : p.closers[k]? = some packet →
      (p.sock.commitClose packet).2 = .sent sent →
      Step p (.commit k) { p with
        sock := (p.sock.commitClose packet).1
        closers := p.closers.eraseIdx k
        emitted := p.emitted ++ [⟨.fin, sent⟩] }

section Step

variable {p p' : Endpoint}

theorem build_step (h : p.build = some p') : Step p .build p' := by
  unfold build at h
  split at h
  · next lbw hsender =>
    split at h
    · next hchunk =>
      cases h
      exact .outOfBounds lbw hsender hchunk
    · next hchunk =>
      cases h
      exact .nothing lbw hsender hchunk
    · next packet hchunk =>
      cases h
      exact .build lbw packet hsender hchunk
  · contradiction

theorem slide_step {e : EndpointEvent} (h : p.slide e = some p') : Step p e p' := by
  unfold slide at h
  split at h
  · next call hsender =>
    split at h
    · obtain ⟨result, hrun, rfl⟩ := Option.map_eq_some_iff.mp h
      exact .run call result hsender hrun
    · obtain ⟨again, hagain, rfl⟩ := Option.map_eq_some_iff.mp h
      exact .timeout call again hsender hagain
    · obtain ⟨result, htick, rfl⟩ := Option.map_eq_some_iff.mp h
      exact .tick call result hsender htick
    · contradiction
  · contradiction

theorem deliver_step {received : TCPInfo} (harriving : p.arriving = some received)
    (h : p.deliver received = some p') : Step p .dispatch p' := by
  unfold deliver at h
  simp only at h
  split at h
  · next hblocked =>
    cases h
    exact .blocked received harriving hblocked
  · split at h
    · cases h
      exact .absorbed received harriving
    · contradiction
  · next ack hack =>
    split at h
    · next hready =>
      cases h
      exact .toFinChan received ack harriving hack hready
    · contradiction
  · next packet hreply =>
    cases h
    exact .reply received packet harriving hreply
  all_goals
    cases h
    exact .absorbed received harriving

theorem commit_step {k : ℕ} (h : p.commit k = some p') : Step p (.commit k) p' := by
  unfold commit at h
  split at h
  · contradiction
  · next packet hpacket =>
    simp only at h
    split at h
    · next sent hsent =>
      cases h
      exact .sendFIN k packet sent hpacket hsent
    all_goals
      next hresult =>
      cases h
      exact .commit k packet hpacket (by simp [hresult])

theorem step_step {e : EndpointEvent} (h : p.step e = some p') :
    p.panicked = false ∧ Step p e p' := by
  unfold step at h
  split at h
  · contradiction
  · next hrunning =>
    refine ⟨Bool.not_eq_true _ ▸ hrunning, ?_⟩
    cases e with
    | write e =>
      simp only at h
      split at h
      · obtain ⟨w, hw, rfl⟩ := Option.map_eq_some_iff.mp h
        exact .write e w hw
      · contradiction
    | handOver =>
      simp only [handOver] at h
      split at h
      · next call hwriter =>
        split at h
        · next hready =>
          cases h
          exact .handOver call hwriter hready
        · contradiction
      · contradiction
    | build => exact build_step h
    | run | timeout | tick => exact slide_step h
    | arrive received =>
      simp only [arrive] at h
      split at h
      · next harriving =>
        split at h
        · contradiction
        · next hstuck =>
          cases h
          exact .arrive received harriving (Bool.not_eq_true _ ▸ hstuck)
      · contradiction
    | dispatch =>
      obtain ⟨received, harriving, hdeliver⟩ := Option.bind_eq_some_iff.mp h
      exact deliver_step harriving hdeliver
    | finAcked =>
      simp only [finAcked] at h
      split at h
      · contradiction
      · next ack hack =>
        split at h
        · contradiction
        · next hmtx =>
          cases h
          exact .finAcked ack hack (Bool.not_eq_true _ ▸ hmtx)
    | read numbytes =>
      simp only [read] at h
      split at h
      · next sock data hread =>
        cases h
        exact .read numbytes sock data hread
      · contradiction
    | close =>
      cases h
      exact .close
    | commit k => exact commit_step h

end Step

end Endpoint

end IpTcp
