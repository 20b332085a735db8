import IpTcp.Socket

/-!
One turn of the loop of ReceiverThread, and VRead. The receiver first notes the
advertised window, then either passes an acknowledgement on to a waiting thread
or treats the segment as data: too early ones are queued, a FIN moves the
connection state, anything else is copied into the read buffer, after which the
queue is drained. The copy into the buffer and the read out of it are followed
pointer by pointer, wrap-around included.
-/
namespace IpTcp

/-- `heap.Interface` of the early queue compares sequence numbers. -/
def EarlyPacket.rank (p : EarlyPacket) : ℕ := p.Priority.toNat

def TCPInfo.early (received : TCPInfo) : EarlyPacket where
  Priority := received.SeqNum
  Flags := received.Flag
  Payload := received.Payload

/-- The loop that copies a payload to `NXT`, at most up to the end of the buffer
in each turn. Every turn copies a byte, so the payload's length bounds the turns. -/
def copyLoop : ℕ → (Fin bufferSize → UInt8) → UInt32 → List UInt8 →
    (Fin bufferSize → UInt8) × UInt32
  | 0, buffer, NXT, _ => (buffer, NXT)
  | fuel + 1, buffer, NXT, payload =>
      if payload.length = 0 then (buffer, NXT)
      else
        let curr := min (bufferSize - NXT.toNat) payload.length
        copyLoop fuel (RingBuffer.copyAt buffer NXT.toNat (payload.take curr))
          ((NXT + UInt32.ofNat curr) % windowSize) (payload.drop curr)

namespace NormalSocket

def noteWindow (sock : NormalSocket) (received : TCPInfo) : NormalSocket :=
  if received.Flag &&& tcpFlagAck > 0 then
    { sock with ClientWindowSize := received.WindowSize }
  else sock

theorem noteWindow_ack (sock : NormalSocket) {received : TCPInfo}
    (h : received.Flag &&& tcpFlagAck > 0) :
    sock.noteWindow received = { sock with ClientWindowSize := received.WindowSize } := if_pos h

/-- Copy a payload behind the unread bytes and put `cumReadNXT` at its end. -/
def insertPayload (sock : NormalSocket) (seq : UInt32) (payload : List UInt8) : NormalSocket :=
  let cumReadNXT := seq + UInt32.ofNat payload.length
  let (buffer, _) := copyLoop payload.length sock.readBuffer.buffer sock.readBuffer.NXT payload
  { sock with
    cumReadNXT := cumReadNXT
    readBuffer := { sock.readBuffer with
      buffer := buffer
      NXT := ringDist cumReadNXT sock.baseAck
      NXT_lt := ringDist_lt _ _ } }

/-- The state change for a FIN. `none` waits for ever for `stateMtx`; in a state
that no branch expects, the mutex is taken and kept. -/
def acceptFIN (sock : NormalSocket) : Option NormalSocket :=
  if sock.stateMtx then none
  else match sock.state with
    | .established => some { sock with state := .closeWait }
    | .finWait2 => some { sock with state := .timeWait }
    | _ => some { sock with stateMtx := true }

def popEarly (sock : NormalSocket) : NormalSocket :=
  { sock with earlyPQ := (ContainerHeap.pop EarlyPacket.rank sock.earlyPQ).2 }

def topEarly (sock : NormalSocket) : EarlyPacket := sock.earlyPQ.getD 0 default

/-- Take queued packets that have become due. The flag tells that the thread
waits for ever. Every turn pops one packet, so the queue's size bounds the turns. -/
def drainEarly : ℕ → NormalSocket → NormalSocket × Bool
  | 0, sock => (sock, false)
  | fuel + 1, sock =>
      if 0 < sock.earlyPQ.size ∧ sock.topEarly.Priority ≤ sock.cumReadNXT then
        -- a packet behind cumReadNXT was already copied into the buffer
        if sock.topEarly.Priority < sock.cumReadNXT then drainEarly fuel sock.popEarly
        else
          let earlyPacket := (ContainerHeap.pop EarlyPacket.rank sock.earlyPQ).1
          if earlyPacket.Flags &&& tcpFlagFin > 0 then
            match sock.popEarly.acceptFIN with
            | none => (sock.popEarly, true)
            | some sock' => drainEarly fuel sock'
          else
            drainEarly fuel (sock.popEarly.insertPayload earlyPacket.Priority earlyPacket.Payload)
      else (sock, false)

end NormalSocket

inductive RecvAction
  | ignored
  | toFinChan (ack : UInt32)
  | toAckChan
  | queued
  | bufferFull
  | reply (packet : TCPPacket)
  | blocked
  deriving DecidableEq, Repr

def replyTo (sock : NormalSocket) (received : TCPInfo) : TCPPacket where
  sourceIp := received.key.RemoteAddr
  destIp := received.key.LocalAddr
  payload := []
  flags := tcpFlagAck
  sourcePort := received.key.RemotePort
  destPort := received.key.LocalPort
  seqNum := received.AckNum
  ackNum := sock.cumReadNXT
  window := sock.readBuffer.window

namespace NormalSocket

def drainAndReply (sock : NormalSocket) (received : TCPInfo) : NormalSocket × RecvAction :=
  let drained := sock.drainEarly sock.earlyPQ.size
  if drained.2 then (drained.1, .blocked)
  else (drained.1, .reply (replyTo drained.1 received))

/-- `heap.Push` of a segment that is ahead of `cumReadNXT`. -/
def pushEarly (sock : NormalSocket) (received : TCPInfo) : NormalSocket :=
  { sock with earlyPQ := ContainerHeap.push EarlyPacket.rank sock.earlyPQ received.early }

/-- A FIN takes one sequence number; the buffer pointer `NXT` does not follow. -/
def passFIN (sock : NormalSocket) : NormalSocket :=
  { sock with cumReadNXT := sock.cumReadNXT + 1 }

/-- A segment that was not recognised as an acknowledgement of ours. -/
def receiveData (sock : NormalSocket) (received : TCPInfo) : NormalSocket × RecvAction :=
  if received.SeqNum > sock.cumReadNXT then (sock.pushEarly received, .queued)
  else if received.Flag &&& tcpFlagFin > 0 then
    match sock.passFIN.acceptFIN with
    | none => (sock.passFIN, .blocked)
    | some sock' => sock'.drainAndReply received
  else if ringDist sock.readBuffer.LBR sock.readBuffer.NXT ≠ 0 then
    (sock.insertPayload received.SeqNum received.Payload).drainAndReply received
  else (sock, .bufferFull)

/-- The rest of a turn, after the window has been noted. -/
def dispatch (sock : NormalSocket) (received : TCPInfo) : NormalSocket × RecvAction :=
  if received.Flag &&& tcpFlagAck > 0 then
    if sock.unackedMtx then (sock, .blocked)
    else if sock.unackedFINs received.AckNum then (sock, .toFinChan received.AckNum)
    else if (sock.unackedNums received.AckNum).isSome ∧ received.Payload.length = 0 then
      ({ sock with ackChan := sock.ackChan ++ [received] }, .toAckChan)
    else sock.receiveData received
  else (sock, .ignored)

def receiverThread (sock : NormalSocket) (received : TCPInfo) : NormalSocket × RecvAction :=
  (sock.noteWindow received).dispatch received

end NormalSocket

inductive ReadResult
  | closed
  | blocked
  | bytes (data : List UInt8)
  deriving DecidableEq, Repr

namespace NormalSocket

/-- The part of VRead under `readMtx`, for a count of unread bytes taken before.
`append` on the first slice would write behind it where the buffer goes on;
it has something to append only when that slice ends the buffer. -/
def readOut (sock : NormalSocket) (num_buf : ℕ) (numbytes : UInt16) :
    NormalSocket × List UInt8 :=
  let rb := sock.readBuffer
  let num_read := min num_buf numbytes.toNat
  let first_seg := min (rb.LBR.toNat + num_read) (bufferSize - 1)
  let second_seg := num_read - (first_seg - rb.LBR.toNat)
  let head := RingBuffer.slice rb.buffer (rb.LBR.toNat + 1) (first_seg - rb.LBR.toNat)
  let tail := RingBuffer.slice rb.buffer 0 second_seg
  let buffer := if first_seg + 1 + second_seg ≤ bufferSize
    then RingBuffer.copyAt rb.buffer (first_seg + 1) tail else rb.buffer
  ({ sock with
    readBuffer := { rb with
      buffer := buffer
      LBR := (rb.LBR + UInt32.ofNat num_read) % windowSize
      LBR_lt := mod_windowSize_lt _ } },
    head ++ tail)

/-- VRead. With nothing to read it waits for the receiver. -/
def vRead (sock : NormalSocket) (numbytes : UInt16) : NormalSocket × ReadResult :=
  if sock.stateMtx then (sock, .blocked)
  else if sock.state = .closeWait ∨ sock.state = .lastAck then (sock, .closed)
  else if sock.readBuffer.unreadCount = 0 then (sock, .blocked)
  else
    let result := sock.readOut sock.readBuffer.unreadCount.toNat numbytes
    (result.1, .bytes result.2)

end NormalSocket

end IpTcp
