import IpTcp.ContainerHeap
import IpTcp.RingBuffer
import Mathlib.Order.Nat
import Mathlib.Tactic.Common

/-!
The data of one TCP socket: the segments that reach it and leave it, its two
circular buffers, and the record that its threads share. Sequence numbers,
buffer pointers and windows are machine words of the width the program gives
them. The buffer pointers carry their range, since every assignment in the
program reduces them modulo the buffer size. Timers and the round-trip
estimate are left out; a mutex is recorded only where some path forgets to
release it.
-/
namespace IpTcp

/-- The zero value of an address marks the local side of a listening key. -/
inductive Addr
  | zero
  | v4 (bits : UInt32)
  deriving DecidableEq, Repr

inductive ConnState
  | listen
  | synSent
  | synReceived
  | established
  | finWait1
  | finWait2
  | closeWait
  | lastAck
  | timeWait
  deriving DecidableEq, Repr

abbrev windowSize : UInt32 := 65536

abbrev bufferSize : ℕ := 65536

instance : NeZero bufferSize := ⟨by decide⟩

abbrev mss : ℕ := 1360

abbrev maxMessageSize : ℕ := 1400

abbrev tcpFlagFin : UInt8 := 1
abbrev tcpFlagSyn : UInt8 := 2
abbrev tcpFlagAck : UInt8 := 16
abbrev synAck : UInt8 := tcpFlagSyn ||| tcpFlagAck
abbrev finAck : UInt8 := tcpFlagFin ||| tcpFlagAck

structure SocketTableKey where
  LocalAddr : Addr
  LocalPort : UInt16
  RemoteAddr : Addr
  RemotePort : UInt16
  deriving DecidableEq, Repr

namespace SocketTableKey

def flip (sk : SocketTableKey) : SocketTableKey where
  LocalAddr := sk.RemoteAddr
  LocalPort := sk.RemotePort
  RemoteAddr := sk.LocalAddr
  RemotePort := sk.LocalPort

end SocketTableKey

def sampleKey : SocketTableKey where
  LocalAddr := .v4 1
  LocalPort := 80
  RemoteAddr := .v4 2
  RemotePort := 90

/-- A received segment, as the protocol handler passes it up. -/
structure TCPInfo where
  key : SocketTableKey
  Flag : UInt8
  SeqNum : UInt32
  AckNum : UInt32
  WindowSize : UInt16
  Payload : List UInt8
  deriving DecidableEq, Repr

structure TCPPacket where
  sourceIp : Addr
  destIp : Addr
  payload : List UInt8
  flags : UInt8
  sourcePort : UInt16
  destPort : UInt16
  seqNum : UInt32
  ackNum : UInt32
  window : UInt16
  deriving DecidableEq, Repr

/-- The segment as the protocol handler of the receiving node passes it up, with the
sender as the local side of the key. -/
def TCPPacket.info (packet : TCPPacket) : TCPInfo where
  key := ⟨packet.sourceIp, packet.sourcePort, packet.destIp, packet.destPort⟩
  Flag := packet.flags
  SeqNum := packet.seqNum
  AckNum := packet.ackNum
  WindowSize := packet.window
  Payload := packet.payload

structure EarlyPacket where
  Priority : UInt32
  Flags : UInt8
  Payload : List UInt8
  deriving DecidableEq, Repr, Inhabited

/-- The distance from `b` forward to `a` around a buffer, which the program writes
`(a - b + WINDOW_SIZE) % WINDOW_SIZE`. -/
def ringDist (a b : UInt32) : UInt32 := (windowSize + (a - b)) % windowSize

/-- Adding to a number that does not wrap around. -/
theorem toNat_add_ofNat (a : UInt32) (k : ℕ) (h : a.toNat + k < 4294967296) :
    (a + UInt32.ofNat k).toNat = a.toNat + k := by
  simp only [UInt32.toNat_add, UInt32.toNat_ofNat']
  omega

theorem toNat_ringDist (a b : UInt32) :
    (ringDist a b).toNat = (a.toNat + 4294967296 - b.toNat) % 65536 := by
  have ha := a.toNat_lt
  have hb := b.toNat_lt
  simp only [ringDist, UInt32.toNat_mod, UInt32.toNat_add, UInt32.toNat_sub, windowSize,
    UInt32.reduceToNat]
  omega

theorem toNat_ringDist_add (first base : UInt32) (off : ℕ) :
    (ringDist (first + UInt32.ofNat off) base).toNat =
      (first.toNat + off + 4294967296 - base.toNat) % 65536 := by
  have hf := first.toNat_lt
  have hb := base.toNat_lt
  simp only [toNat_ringDist, UInt32.toNat_add, UInt32.toNat_ofNat']
  omega

theorem mod_windowSize_lt (a : UInt32) : (a % windowSize).toNat < 65536 := by
  simp only [UInt32.toNat_mod, windowSize, UInt32.reduceToNat]
  omega

theorem ringDist_lt (a b : UInt32) : (ringDist a b).toNat < 65536 := by
  rw [toNat_ringDist]
  omega

structure ReadBuffer where
  buffer : Fin bufferSize → UInt8
  LBR : UInt32
  NXT : UInt32
  LBR_lt : LBR.toNat < 65536
  NXT_lt : NXT.toNat < 65536

structure WriteBuffer where
  buffer : Fin bufferSize → UInt8
  UNA : UInt32
  NXT : UInt32
  LBW : UInt32
  UNA_lt : UNA.toNat < 65536
  NXT_lt : NXT.toNat < 65536
  LBW_lt : LBW.toNat < 65536

/-- The shared record of one connection. `stateMtx` and `unackedMtx` are true
when a thread went on without releasing the mutex, so that nobody can take it
any more. `unackedNums` counts, for each registered number, the acknowledgements
of it that were processed. -/
structure NormalSocket where
  key : SocketTableKey
  readBuffer : ReadBuffer
  writeBuffer : WriteBuffer
  state : ConnState
  stateMtx : Bool
  baseSeq : UInt32
  baseAck : UInt32
  ClientWindowSize : UInt16
  ackChan : List TCPInfo
  unackedNums : UInt32 → Option ℕ
  unackedFINs : UInt32 → Bool
  unackedMtx : Bool
  earlyPQ : Array EarlyPacket
  cumWriteUNA : UInt32
  cumReadNXT : UInt32
  notFirstWrite : Bool

/-- `NXT` stays a position of the buffer. -/
theorem NormalSocket.nxt_add_lt (sock : NormalSocket) (count : ℕ) :
    ((sock.writeBuffer.NXT + UInt32.ofNat count) % windowSize).toNat < 65536 :=
  mod_windowSize_lt _

def newReadBuffer : ReadBuffer where
  buffer _ := 0
  LBR := 0
  NXT := 1
  LBR_lt := by decide
  NXT_lt := by decide

def newWriteBuffer : WriteBuffer where
  buffer _ := 0
  UNA := 1
  NXT := 1
  LBW := 0
  UNA_lt := by decide
  NXT_lt := by decide
  LBW_lt := by decide

/-- The socket that `VConnect` and `VAccept` return: nothing read or written,
both sequence numbers just past the two SYN segments. -/
def newSocket (key : SocketTableKey) (baseSeq baseAck : UInt32) (window : UInt16) :
    NormalSocket where
  key := key
  readBuffer := newReadBuffer
  writeBuffer := newWriteBuffer
  state := .established
  stateMtx := false
  baseSeq := baseSeq
  baseAck := baseAck
  ClientWindowSize := window
  ackChan := []
  unackedNums _ := none
  unackedFINs _ := false
  unackedMtx := false
  earlyPQ := #[]
  cumWriteUNA := baseSeq + 1
  cumReadNXT := baseAck + 1
  notFirstWrite := false

namespace ReadBuffer

def unreadCount (rb : ReadBuffer) : UInt32 := ringDist (rb.NXT - 1) rb.LBR

def window (rb : ReadBuffer) : UInt16 := (ringDist rb.LBR rb.NXT).toUInt16

/-- The bytes at `LBR+1, ..., NXT-1`. -/
def unread (rb : ReadBuffer) : List UInt8 :=
  RingBuffer.slice rb.buffer (rb.LBR.toNat + 1) rb.unreadCount.toNat

theorem toNat_unreadCount (rb : ReadBuffer) :
    rb.unreadCount.toNat = (rb.NXT.toNat + 65535 - rb.LBR.toNat) % 65536 := by
  have h1 := rb.LBR_lt
  have h2 := rb.NXT_lt
  have h3 : (1 : UInt32).toNat = 1 := rfl
  simp only [unreadCount, toNat_ringDist, UInt32.toNat_sub, h3]
  omega

theorem toNat_window (rb : ReadBuffer) :
    rb.window.toNat = 65535 - rb.unreadCount.toNat := by
  have h1 := rb.LBR_lt
  have h2 := rb.NXT_lt
  rw [toNat_unreadCount, window, UInt32.toNat_toUInt16, toNat_ringDist]
  omega

@[simp] theorem unread_length (rb : ReadBuffer) : rb.unread.length = rb.unreadCount.toNat := by
  simp [unread]

end ReadBuffer

end IpTcp
