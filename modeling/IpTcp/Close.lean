import IpTcp.Socket

/-!
VClose on a connected socket. It builds the FIN from the pointers as they are,
moves the connection state, notes the number that acknowledges the FIN and sends
it. The state mutex is held meanwhile, so that a lost acknowledgement mutex keeps
it for ever.
-/
namespace IpTcp

namespace ConnState

/-- The states that VClose leads to, and those that follow them. -/
def finSent : ConnState → Bool
  | .finWait1 | .finWait2 | .timeWait | .lastAck => true
  | .listen | .synSent | .synReceived | .established | .closeWait => false

/-- The states that the peer's FIN leads to, and those that follow them. -/
def finSeen : ConnState → Bool
  | .closeWait | .lastAck | .timeWait => true
  | .listen | .synSent | .synReceived | .established | .finWait1 | .finWait2 => false

def connected : ConnState → Bool
  | .listen | .synSent | .synReceived => false
  | .established | .finWait1 | .finWait2 | .closeWait | .lastAck | .timeWait => true

end ConnState

inductive CloseResult
  | blocked
  | invalidState
  | sent (packet : TCPPacket)
  deriving DecidableEq, Repr

namespace NormalSocket

def segment (sock : NormalSocket) (flags : UInt8) (seqNum : UInt32) (payload : List UInt8) :
    TCPPacket where
  sourceIp := sock.key.LocalAddr
  destIp := sock.key.RemoteAddr
  payload := payload
  flags := flags
  sourcePort := sock.key.LocalPort
  destPort := sock.key.RemotePort
  seqNum := seqNum
  ackNum := sock.cumReadNXT
  window := sock.readBuffer.window

/-- The bytes sent and not acknowledged, as the ring pointers give them. -/
def distUNA (sock : NormalSocket) : UInt32 := ringDist sock.writeBuffer.NXT sock.writeBuffer.UNA

/-- The FIN that VClose builds before it takes any mutex. -/
def finPacket (sock : NormalSocket) : TCPPacket :=
  sock.segment finAck (sock.distUNA + sock.cumWriteUNA) []

/-- VClose from the state mutex on. -/
def commitClose (sock : NormalSocket) (packet : TCPPacket) : NormalSocket × CloseResult :=
  if sock.stateMtx then (sock, .blocked)
  else
    let next : Option ConnState := match sock.state with
      | .established => some .finWait1
      | .closeWait => some .lastAck
      | _ => none
    match next with
    | none => (sock, .invalidState)
    | some state =>
        if sock.unackedMtx then ({ sock with state := state, stateMtx := true }, .blocked)
        else ({ sock with
          state := state
          unackedFINs := Function.update sock.unackedFINs (packet.seqNum + 1) true }, .sent packet)

inductive SendsFIN : ConnState → ConnState → Prop
  | active : SendsFIN .established .finWait1
  | passive : SendsFIN .closeWait .lastAck

theorem SendsFIN.next {old state : ConnState} (h : SendsFIN old state) :
    (state = .finWait1 ∨ state = .lastAck) ∧ state.finSeen = old.finSeen := by
  cases h with
  | active => exact ⟨Or.inl rfl, rfl⟩
  | passive => exact ⟨Or.inr rfl, rfl⟩

/-- With both mutexes free VClose goes through. -/
theorem commitClose_sends {sock : NormalSocket} {state : ConnState} (packet : TCPPacket)
    (hstateMtx : sock.stateMtx = false) (hmtx : sock.unackedMtx = false)
    (hstate : SendsFIN sock.state state) :
    sock.commitClose packet = ({ sock with
      state := state
      unackedFINs := Function.update sock.unackedFINs (packet.seqNum + 1) true },
      .sent packet) := by
  unfold commitClose
  rw [if_neg (by simp [hstateMtx])]
  generalize sock.state = old at hstate ⊢
  cases hstate with
  | active => simp only [hmtx, Bool.false_eq_true, if_false]
  | passive => simp only [hmtx, Bool.false_eq_true, if_false]

def vClose (sock : NormalSocket) : NormalSocket × CloseResult := sock.commitClose sock.finPacket

end NormalSocket

end IpTcp
