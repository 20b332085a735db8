import IpTcp.ReadRing
import IpTcp.Runs

/-!
The receiving half of a socket as a machine: segments handed to ReceiverThread
and calls of VRead, in any order. The record keeps, beside the socket, what
arrived, what was read and the last reply, so that results about whole runs can
name them. A turn that waits for ever for a mutex leaves the machine stuck.
-/
namespace IpTcp

inductive RecvEvent
  | segment (received : TCPInfo)
  | read (numbytes : UInt16)

def sampleSegment (seq : UInt32) (payload : List UInt8) : TCPInfo where
  key := sampleKey
  Flag := tcpFlagAck
  SeqNum := seq
  AckNum := 1
  WindowSize := 8
  Payload := payload

def RecvAction.packet : RecvAction → Option TCPPacket
  | .reply packet => some packet
  | _ => none

structure Session where
  sock : NormalSocket
  arrived : List TCPInfo
  output : List UInt8
  reply : Option TCPPacket
  stuck : Bool

namespace Session

def start (sock : NormalSocket) : Session where
  sock := sock
  arrived := []
  output := []
  reply := none
  stuck := false

def deliver (c : Session) (received : TCPInfo) : Session :=
  let result := c.sock.receiverThread received
  { sock := result.1
    arrived := received :: c.arrived
    output := c.output
    reply := result.2.packet
    stuck := result.2 = .blocked }

/-- A VRead that returns data. One that waits or reports a closed socket changes
nothing and is no step. -/
def read (c : Session) (numbytes : UInt16) : Option Session :=
  match c.sock.vRead numbytes with
  | (sock, .bytes data) => some { c with sock := sock, output := c.output ++ data, reply := none }
  | _ => none

def step (c : Session) : RecvEvent → Option Session
  | .segment received => if c.stuck then none else some (c.deliver received)
  | .read numbytes => if c.stuck then none else c.read numbytes

theorem step_segment {c c' : Session} {received : TCPInfo}
    (h : c.step (.segment received) = some c') : c.stuck = false ∧ c' = c.deliver received := by
  cases hstuck : c.stuck with
  | true => simp [step, hstuck] at h
  | false =>
    simp only [step, hstuck, Bool.false_eq_true, if_false] at h
    exact ⟨rfl, (Option.some.inj h).symm⟩

/-- A read that is a step happens in an open state on a non-empty buffer. -/
theorem step_read {c c' : Session} {numbytes : UInt16} (h : c.step (.read numbytes) = some c') :
    c.stuck = false ∧ c.sock.stateMtx = false ∧ c.sock.state ≠ .closeWait ∧
      c.sock.state ≠ .lastAck ∧ c.sock.readBuffer.unreadCount ≠ 0 ∧
      c' = { c with
        sock := (c.sock.readOut c.sock.readBuffer.unreadCount.toNat numbytes).1
        output := c.output ++ (c.sock.readOut c.sock.readBuffer.unreadCount.toNat numbytes).2
        reply := none } := by
  simp only [step, read, NormalSocket.vRead] at h
  cases hstuck : c.stuck with
  | true => simp [hstuck] at h
  | false =>
    cases hmtx : c.sock.stateMtx with
    | true => simp [hstuck, hmtx] at h
    | false =>
      by_cases hstate : c.sock.state = .closeWait ∨ c.sock.state = .lastAck
      · simp [hstuck, hmtx, hstate] at h
      · by_cases hcount : c.sock.readBuffer.unreadCount = 0
        · simp [hstuck, hmtx, hstate, hcount] at h
        · simp only [hstuck, hmtx, hstate, hcount, Bool.false_eq_true, if_false] at h
          push Not at hstate
          exact ⟨rfl, rfl, hstate.1, hstate.2, hcount, (Option.some.inj h).symm⟩

end Session

end IpTcp
