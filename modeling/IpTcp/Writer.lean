import IpTcp.Socket

/-!
VWrite and SenderThread. A call of VWrite cuts its message into chunks: each turn
of its loop asks how much room the write buffer has, copies a chunk behind
`LBW` and offers the new `LBW` on an unbuffered channel. SenderThread takes the
number off the channel, reads the bytes from `NXT` up to it out of the buffer and
passes them to slidingWindow. A slice expression with bad bounds ends the program,
so the two copies are partial.
-/
namespace IpTcp

def messageSlice (message : List UInt8) (lo hi : UInt32) : Option (List UInt8) :=
  if lo.toNat ≤ hi.toNat ∧ hi.toNat ≤ message.length
  then some ((message.drop lo.toNat).take (hi.toNat - lo.toNat)) else none

structure WriteCall where
  message : List UInt8
  bytesSent : UInt32
  new_message : Bool

namespace WriteCall

def goesOn (call : WriteCall) : Prop := call.bytesSent < UInt32.ofNat call.message.length

instance (call : WriteCall) : Decidable call.goesOn := inferInstanceAs (Decidable (_ < _))

end WriteCall

namespace NormalSocket

/-- The states in which VWrite reports a closed socket. -/
def writeRefused (sock : NormalSocket) : Prop :=
  sock.state = .finWait1 ∨ sock.state = .finWait2 ∨ sock.state = .timeWait

instance (sock : NormalSocket) : Decidable sock.writeRefused :=
  inferInstanceAs (Decidable (_ ∨ _ ∨ _))

/-- The room that a turn of the loop counts on. The first turn of a call, and the
first turn ever, look at `LBW` alone. -/
def space (sock : NormalSocket) (call : WriteCall) : UInt32 :=
  if !sock.notFirstWrite ∨ call.new_message then windowSize - 1 - sock.writeBuffer.LBW
  else ringDist (sock.writeBuffer.UNA - 1) sock.writeBuffer.LBW

def noteFirstWrite (sock : NormalSocket) : NormalSocket := { sock with notFirstWrite := true }

def copyChunk (sock : NormalSocket) (call : WriteCall) (space : UInt32) :
    Option (NormalSocket × WriteCall) := do
  let wb := sock.writeBuffer
  let bytesSent := call.bytesSent
  let to_write := min (min (UInt32.ofNat call.message.length - bytesSent) space)
    (UInt32.ofNat (maxMessageSize - 40))
  let first_seg := min (windowSize - wb.LBW - 1) to_write
  let second_seg := to_write - first_seg
  let head ← messageSlice call.message bytesSent (bytesSent + first_seg)
  let buffer ← RingBuffer.copySub wb.buffer (wb.LBW + 1).toNat (wb.LBW + 1 + first_seg).toNat head
  let tail ← messageSlice call.message (bytesSent + first_seg) (bytesSent + first_seg + second_seg)
  let buffer ← RingBuffer.copySub buffer 0 second_seg.toNat tail
  some ({ sock with
      writeBuffer := { wb with
        buffer := buffer
        LBW := (wb.LBW + to_write) % windowSize
        LBW_lt := mod_windowSize_lt _ } },
    { call with bytesSent := bytesSent + to_write })

/-- What SenderThread makes of a number from the channel: `none` is a slice out of
bounds, `some none` finds nothing to send. -/
def takeChunk (sock : NormalSocket) (lbw : UInt32) : Option (Option TCPPacket) :=
  let wb := sock.writeBuffer
  let distLBW := (lbw - wb.UNA) % windowSize
  let distNXT := (wb.NXT - wb.UNA) % windowSize
  if distLBW ≥ distNXT then do
    let amount_to_send := (windowSize + (lbw - wb.NXT + 1)) % windowSize
    let first_seg := min (windowSize - wb.NXT) amount_to_send
    let second_seg := amount_to_send - first_seg
    let head ← RingBuffer.sub wb.buffer wb.NXT.toNat (wb.NXT + first_seg).toNat
    let tail ← RingBuffer.sub wb.buffer 0 second_seg.toNat
    some (some {
      sourceIp := sock.key.LocalAddr
      destIp := sock.key.RemoteAddr
      payload := head ++ tail
      flags := tcpFlagAck
      sourcePort := sock.key.LocalPort
      destPort := sock.key.RemotePort
      seqNum := wb.UNA + sock.baseSeq
      ackNum := sock.readBuffer.NXT + sock.baseAck
      window := sock.readBuffer.window })
  else some none

end NormalSocket

end IpTcp
