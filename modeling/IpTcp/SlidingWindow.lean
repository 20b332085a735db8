import IpTcp.Close
import IpTcp.Receiver

/-!
slidingWindow and the retransmission thread that each call of it starts. The call
keeps a linked list of window nodes behind a dummy node: all but the last are
sent, and `head` moves along the list as acknowledgements come in. One turn of
the loop is cut at every point where ReceiverThread may change the advertised
window or the acknowledgement channel, so that any interleaving of the two is a
run of these steps. The local variable `tail` of the program is the first node of
the list for the whole call; the last node is `window.tail`.
-/
namespace IpTcp

structure WindowNode where
  payloadIndex : UInt16
  expectedAck : UInt32
  packet : TCPPacket
  index : UInt32
  /-- `lastSent` has been set. -/
  sent : Bool
  deriving DecidableEq, Repr

inductive SlidePc
  | top
  | probeTest
  | probeSend
  | probing (probe : TCPPacket) (expectedAck : UInt32)
  | normal
  | sending
  | debit (expectedAck : UInt32)
  | allocate (expectedAck : UInt32)
  | zeroTest
  | drain
  | done
  | blocked
  | panicked
  deriving DecidableEq, Repr

/-- The local variables of a call, its window and those of its retransmission
thread. `head` is `none` for nil, `some 0` for the dummy node and `some (k + 1)`
for node `k`. `winLock` is true once the thread went away with the lock. -/
structure WindowCall where
  packet : TCPPacket
  payloadSize : ℕ
  bytesToSend : ℕ
  bytesSent : ℕ
  skip_probe : Bool
  before : List WindowNode
  tail : WindowNode
  head : Option ℕ
  pc : SlidePc
  last_index : UInt32
  cnt : ℕ
  winLock : Bool
  deriving DecidableEq, Repr

inductive EmissionKind
  | first
  | probe
  | retransmission
  | fin
  deriving DecidableEq, Repr

structure Emission where
  kind : EmissionKind
  packet : TCPPacket
  deriving DecidableEq, Repr

namespace NormalSocket

def moveNXT (sock : NormalSocket) (count : ℕ) : NormalSocket :=
  { sock with
    writeBuffer := { sock.writeBuffer with
      NXT := (sock.writeBuffer.NXT + UInt32.ofNat count) % windowSize
      NXT_lt := sock.nxt_add_lt count } }

def register (sock : NormalSocket) (expectedAck : UInt32) : NormalSocket :=
  { sock with unackedNums := Function.update sock.unackedNums expectedAck (some 0) }

def countAck (sock : NormalSocket) (ack : UInt32) : NormalSocket :=
  { sock with
    unackedNums := Function.update sock.unackedNums ack
      (some ((sock.unackedNums ack).getD 0 + 1)) }

def setWindow (sock : NormalSocket) (window : UInt16) : NormalSocket :=
  { sock with ClientWindowSize := window }

/-- `cumWriteUNA` moves to an acknowledged number and `UNA` follows. -/
def ackUpTo (sock : NormalSocket) (ack : UInt32) : NormalSocket :=
  { sock with
    cumWriteUNA := ack
    writeBuffer := { sock.writeBuffer with
      UNA := ringDist ack sock.baseSeq
      UNA_lt := ringDist_lt _ _ } }

def unaByte (sock : NormalSocket) : UInt8 :=
  sock.writeBuffer.buffer (RingBuffer.cell bufferSize sock.writeBuffer.UNA.toNat)

/-- The call as it stands when the loop is first reached. -/
def slidingWindow (sock : NormalSocket) (packet : TCPPacket) : WindowCall :=
  let bytesToSend := min (min mss packet.payload.length) sock.ClientWindowSize.toNat
  { packet := { packet with payload := packet.payload.drop bytesToSend }
    payloadSize := packet.payload.length
    bytesToSend := bytesToSend
    bytesSent := 0
    skip_probe := true
    before := []
    tail :=
      { payloadIndex := 0
        expectedAck := sock.distUNA + sock.cumWriteUNA + UInt32.ofNat bytesToSend
        packet := sock.segment packet.flags sock.cumWriteUNA (packet.payload.take bytesToSend)
        index := 0
        sent := false }
    head := some 0
    pc := .top
    last_index := 4294967295
    cnt := 0
    winLock := false }

end NormalSocket

/-- `expectedAck` of the list's `k`-th entry, the dummy node being entry 0. -/
def expectedAckAt (nodes : List WindowNode) : ℕ → UInt32
  | 0 => 0
  | k + 1 => (nodes[k]?.map WindowNode.expectedAck).getD 0

/-- The loop that moves `head` past the nodes an acknowledgement covers. Every turn
moves it by one entry. -/
def trimHead (nodes : List WindowNode) (receivedAck : UInt32) : ℕ → Option ℕ → Option ℕ
  | 0, head => head
  | _ + 1, none => none
  | fuel + 1, some k =>
      if expectedAckAt nodes k ≤ receivedAck then
        trimHead nodes receivedAck fuel (if k < nodes.length then some (k + 1) else none)
      else some k

namespace WindowCall

def nodes (call : WindowCall) : List WindowNode := call.before ++ [call.tail]

def goto (call : WindowCall) (pc : SlidePc) : WindowCall := { call with pc := pc }

def modifyPacket (f : TCPPacket → TCPPacket) (node : WindowNode) : WindowNode :=
  { node with packet := f node.packet }

def updatePacket (call : WindowCall) (k : ℕ) (f : TCPPacket → TCPPacket) : WindowCall :=
  if k < call.before.length then
    { call with before := call.before.modify k (modifyPacket f) }
  else { call with tail := modifyPacket f call.tail }

/-- The first node of the list, which the program calls `tail`. -/
def firstNode (call : WindowCall) : WindowNode := call.before.headD call.tail

/-- `window.tail.index - window.head.next.index < WINDOW_SIZE`, or there is no next node. -/
def indexInReach (call : WindowCall) (k : ℕ) : Bool :=
  call.nodes[k]?.all fun next => call.tail.index - next.index < windowSize

def markSent (call : WindowCall) (pc : SlidePc) : WindowCall :=
  { call with tail := { call.tail with sent := true }, pc := pc }

def sendTail (sock : NormalSocket) (call : WindowCall) :
    NormalSocket × WindowCall × List Emission :=
  let moved := sock.moveNXT call.bytesToSend
  let expectedAck := moved.distUNA + moved.cumWriteUNA
  if moved.unackedMtx then (moved, call.goto .blocked, [])
  else (moved.register expectedAck, call.markSent (.debit expectedAck),
    [⟨.first, call.tail.packet⟩])

def allocateNext (sock : NormalSocket) (call : WindowCall) (expectedAck : UInt32) : WindowCall :=
  let rest := call.packet.payload
  let bytesToSend :=
    min (min mss (call.payloadSize - call.tail.payloadIndex.toNat)) rest.length
  if bytesToSend > 0 then
    { call with
      packet := { call.packet with payload := rest.drop bytesToSend }
      bytesToSend := bytesToSend
      before := call.before ++ [call.tail]
      tail :=
        { payloadIndex := call.tail.payloadIndex + UInt16.ofNat mss
          expectedAck := expectedAck + UInt32.ofNat bytesToSend
          packet := { call.tail.packet with
            payload := rest.take bytesToSend
            seqNum := expectedAck
            ackNum := sock.cumReadNXT
            window := sock.readBuffer.window }
          index := call.tail.index + 1
          sent := false }
      pc := .zeroTest }
  else { call with bytesToSend := bytesToSend, pc := .zeroTest }

/-- Send the byte at `UNA` although the window is closed. -/
def sendProbe (sock : NormalSocket) (call : WindowCall) :
    NormalSocket × WindowCall × List Emission :=
  let moved := sock.moveNXT 1
  let probe := moved.segment tcpFlagAck (moved.distUNA + moved.cumWriteUNA - 1) [moved.unaByte]
  let expectedAck := moved.distUNA + moved.cumWriteUNA
  if moved.unackedMtx then (moved, call.goto .blocked, [])
  else (moved.register expectedAck, call.goto (.probing probe expectedAck), [⟨.probe, probe⟩])

/-- The probe was acknowledged and the window is open. With an empty first node the
call starts again on the rest of the payload, otherwise that node loses a byte. -/
def probeAcked (sock : NormalSocket) (call : WindowCall) (received : TCPInfo) :
    NormalSocket × WindowCall :=
  let sock' := (sock.setWindow received.WindowSize).ackUpTo received.AckNum
  if call.firstNode.packet.payload.length = 0 then
    match call.packet.payload with
    | [] => (sock', { call with bytesSent := call.bytesSent + 1, pc := .panicked })
    | _ :: rest => (sock', sock'.slidingWindow { call.packet with payload := rest })
  else (sock', { (call.updatePacket 0 fun p => { p with payload := p.payload.drop 1 }) with
    bytesSent := call.bytesSent + 1
    skip_probe := true
    pc := .normal })

def processAck (sock : NormalSocket) (call : WindowCall) (received : TCPInfo) :
    NormalSocket × WindowCall :=
  let sock' := (sock.countAck received.AckNum).setWindow received.WindowSize
  if received.AckNum > sock'.cumWriteUNA then
    (sock'.ackUpTo received.AckNum, { call with
      bytesSent := call.bytesSent + (received.AckNum - sock'.cumWriteUNA).toNat
      head := trimHead call.nodes received.AckNum (call.nodes.length + 2) call.head })
  else (sock', call)

@[simp] theorem allocateNext_pc (sock : NormalSocket) (call : WindowCall) (expectedAck : UInt32) :
    (call.allocateNext sock expectedAck).pc = .zeroTest := by
  unfold allocateNext
  simp only
  split <;> rfl

@[simp] theorem processAck_pc (sock : NormalSocket) (call : WindowCall) (received : TCPInfo) :
    (call.processAck sock received).2.pc = call.pc := by
  unfold processAck
  simp only
  split <;> rfl

/-- Take one acknowledgement off the channel. A repeated one makes the loop go on
with the mutex held. -/
def drainOne (sock : NormalSocket) (call : WindowCall) (received : TCPInfo) :
    NormalSocket × WindowCall :=
  if sock.unackedMtx then (sock, call.goto .blocked)
  else if (sock.unackedNums received.AckNum).getD 0 = 0 then call.processAck sock received
  else ({ sock with unackedMtx := true }, call)

def run (sock : NormalSocket) (call : WindowCall) :
    Option (NormalSocket × WindowCall × List Emission) :=
  match call.pc with
  | .top =>
      if call.bytesSent < call.payloadSize then
        if call.winLock then none else some (sock, call.goto .probeTest, [])
      else some (sock, call.goto .done, [])
  | .probeTest =>
      if sock.writeBuffer.NXT = sock.writeBuffer.UNA ∧ call.skip_probe = false ∧
          sock.ClientWindowSize = 0
      then some (sock, call.goto .probeSend, []) else some (sock, call.goto .normal, [])
  | .probeSend => some (call.sendProbe sock)
  | .probing _ expectedAck =>
      match sock.ackChan with
      | [] => none
      | received :: more =>
          let sock := { sock with ackChan := more }
          if received.AckNum = expectedAck ∧ received.WindowSize > 0 then
            let (sock, call) := call.probeAcked sock received
            some (sock, call, [])
          else some (sock, call, [])
  | .normal =>
      if sock.ClientWindowSize > 0 ∧ call.bytesToSend > 0 then
        match call.head with
        | none => some (sock, call.goto .panicked, [])
        | some k =>
            if call.indexInReach k then some (sock, call.goto .sending, [])
            else some (sock, call.goto .zeroTest, [])
      else some (sock, call.goto .zeroTest, [])
  | .sending => some (call.sendTail sock)
  | .debit expectedAck =>
      some (sock.setWindow (sock.ClientWindowSize - UInt16.ofNat call.tail.packet.payload.length),
        call.goto (.allocate expectedAck), [])
  | .allocate expectedAck => some (sock, call.allocateNext sock expectedAck, [])
  | .zeroTest =>
      if sock.ClientWindowSize = 0
      then some (sock, { call with skip_probe := false, pc := .drain }, [])
      else some (sock, call.goto .drain, [])
  | .drain =>
      match sock.ackChan with
      | [] => some (sock, call.goto .top, [])
      | received :: more =>
          let (sock, call) := call.drainOne { sock with ackChan := more } received
          some (sock, call, [])
  | .done | .blocked | .panicked => none

/-- The ways through the body of the loop, one case for each. -/
inductive Step (sock : NormalSocket) (call : WindowCall) :
    NormalSocket × WindowCall × List Emission → Prop
  | enter : call.pc = .top → call.bytesSent < call.payloadSize →
      Step sock call (sock, call.goto .probeTest, [])
  | leave : call.pc = .top → call.payloadSize ≤ call.bytesSent →
      Step sock call (sock, call.goto .done, [])
  | closed : call.pc = .probeTest → sock.writeBuffer.NXT = sock.writeBuffer.UNA →
      sock.ClientWindowSize = 0 → Step sock call (sock, call.goto .probeSend, [])
  | skip : call.pc = .probeTest → Step sock call (sock, call.goto .normal, [])
  | probeBlocked : call.pc = .probeSend → sock.unackedMtx = true →
      Step sock call (sock.moveNXT 1, call.goto .blocked, [])
  | probe (probe : TCPPacket) (expectedAck : UInt32) : call.pc = .probeSend →
      sock.unackedMtx = false →
      expectedAck = (sock.moveNXT 1).distUNA + (sock.moveNXT 1).cumWriteUNA →
      probe = (sock.moveNXT 1).segment tcpFlagAck
        ((sock.moveNXT 1).distUNA + (sock.moveNXT 1).cumWriteUNA - 1) [(sock.moveNXT 1).unaByte] →
      Step sock call ((sock.moveNXT 1).register expectedAck,
        call.goto (.probing probe expectedAck), [⟨.probe, probe⟩])
  | probeAcked (probe : TCPPacket) (received : TCPInfo) (more : List TCPInfo) :
      call.pc = .probing probe received.AckNum → sock.ackChan = received :: more →
      received.WindowSize > 0 →
      Step sock call ((call.probeAcked { sock with ackChan := more } received).1,
        (call.probeAcked { sock with ackChan := more } received).2, [])
  | probeOn (probe : TCPPacket) (expectedAck : UInt32) (received : TCPInfo)
      (more : List TCPInfo) : call.pc = .probing probe expectedAck →
      sock.ackChan = received :: more → Step sock call ({ sock with ackChan := more }, call, [])
  | crash : call.pc = .normal → 0 < call.bytesToSend → call.head = none →
      Step sock call (sock, call.goto .panicked, [])
  | choose (k : ℕ) : call.pc = .normal → sock.ClientWindowSize > 0 → 0 < call.bytesToSend →
      call.head = some k → Step sock call (sock, call.goto .sending, [])
  | hold : call.pc = .normal → Step sock call (sock, call.goto .zeroTest, [])
  | sendBlocked : call.pc = .sending → sock.unackedMtx = true →
      Step sock call (sock.moveNXT call.bytesToSend, call.goto .blocked, [])
  | send (expectedAck : UInt32) : call.pc = .sending → sock.unackedMtx = false →
      expectedAck = (sock.moveNXT call.bytesToSend).distUNA +
        (sock.moveNXT call.bytesToSend).cumWriteUNA →
      Step sock call ((sock.moveNXT call.bytesToSend).register expectedAck,
        call.markSent (.debit expectedAck), [⟨.first, call.tail.packet⟩])
  | debit (expectedAck : UInt32) : call.pc = .debit expectedAck →
      Step sock call (sock.setWindow
        (sock.ClientWindowSize - UInt16.ofNat call.tail.packet.payload.length),
        call.goto (.allocate expectedAck), [])
  | allocate (expectedAck : UInt32) : call.pc = .allocate expectedAck →
      Step sock call (sock, call.allocateNext sock expectedAck, [])
  | windowZero : call.pc = .zeroTest → sock.ClientWindowSize = 0 →
      Step sock call (sock, { call with skip_probe := false, pc := .drain }, [])
  | windowOpen : call.pc = .zeroTest → Step sock call (sock, call.goto .drain, [])
  | drained : call.pc = .drain → sock.ackChan = [] → Step sock call (sock, call.goto .top, [])
  | ackBlocked (received : TCPInfo) (more : List TCPInfo) : call.pc = .drain →
      sock.ackChan = received :: more → sock.unackedMtx = true →
      Step sock call ({ sock with ackChan := more }, call.goto .blocked, [])
  | ack (received : TCPInfo) (more : List TCPInfo) : call.pc = .drain →
      sock.ackChan = received :: more → sock.unackedMtx = false →
      (sock.unackedNums received.AckNum).getD 0 = 0 →
      Step sock call ((call.processAck { sock with ackChan := more } received).1,
        (call.processAck { sock with ackChan := more } received).2, [])
  | repeated (received : TCPInfo) (more : List TCPInfo) : call.pc = .drain →
      sock.ackChan = received :: more → sock.unackedMtx = false →
      (sock.unackedNums received.AckNum).getD 0 ≠ 0 →
      Step sock call ({ sock with ackChan := more, unackedMtx := true }, call, [])

theorem run_step {sock : NormalSocket} {call : WindowCall}
    {result : NormalSocket × WindowCall × List Emission} (hrun : call.run sock = some result) :
    Step sock call result := by
  unfold run at hrun
  split at hrun
  · rename_i hpc
    split at hrun
    · rename_i hmore
      split at hrun
      · contradiction
      · cases hrun
        exact .enter hpc hmore
    · rename_i hmore
      cases hrun
      exact .leave hpc (Nat.le_of_not_lt hmore)
  · rename_i hpc
    split at hrun
    · rename_i hclosed
      cases hrun
      exact .closed hpc hclosed.1 hclosed.2.2
    · cases hrun
      exact .skip hpc
  · rename_i hpc
    cases hrun
    unfold sendProbe
    simp only
    split
    · rename_i hmtx
      exact .probeBlocked hpc hmtx
    · rename_i hmtx
      exact .probe _ _ hpc (Bool.not_eq_true _ ▸ hmtx) rfl rfl
  · rename_i probe expectedAck hpc
    split at hrun
    · contradiction
    · rename_i received more hchan
      simp only at hrun
      split at hrun
      · rename_i hopen
        cases hrun
        rw [← hopen.1] at hpc
        exact .probeAcked probe received more hpc hchan hopen.2
      · cases hrun
        exact .probeOn probe expectedAck received more hpc hchan
  · rename_i hpc
    split at hrun
    · rename_i hsend
      split at hrun
      · rename_i hhead
        cases hrun
        exact .crash hpc hsend.2 hhead
      · rename_i k hhead
        split at hrun
        · cases hrun
          exact .choose k hpc hsend.1 hsend.2 hhead
        · cases hrun
          exact .hold hpc
    · cases hrun
      exact .hold hpc
  · rename_i hpc
    cases hrun
    unfold sendTail
    simp only
    split
    · rename_i hmtx
      exact .sendBlocked hpc hmtx
    · rename_i hmtx
      exact .send _ hpc (Bool.not_eq_true _ ▸ hmtx) rfl
  · rename_i expectedAck hpc
    cases hrun
    exact .debit expectedAck hpc
  · rename_i expectedAck hpc
    cases hrun
    exact .allocate expectedAck hpc
  · rename_i hpc
    split at hrun
    · rename_i hzero
      cases hrun
      exact .windowZero hpc hzero
    · cases hrun
      exact .windowOpen hpc
  · rename_i hpc
    split at hrun
    · rename_i hchan
      cases hrun
      exact .drained hpc hchan
    · rename_i received more hchan
      simp only [Option.some.injEq] at hrun
      subst hrun
      unfold drainOne
      split
      · rename_i hmtx
        exact .ackBlocked received more hpc hchan hmtx
      · rename_i hmtx
        split
        · rename_i hzero
          exact .ack received more hpc hchan (Bool.not_eq_true _ ▸ hmtx) hzero
        · rename_i hzero
          exact .repeated received more hpc hchan (Bool.not_eq_true _ ▸ hmtx) hzero
  · contradiction
  · contradiction
  · contradiction

/-- The probe is sent again every second. -/
def timeout (call : WindowCall) : Option (List Emission) :=
  match call.pc with
  | .probing probe _ => some [⟨.probe, probe⟩]
  | _ => none

/-- The window lock is free: the thread is between two turns of its loop. -/
def unlocked (call : WindowCall) : Prop := (call.pc = .top ∨ call.pc = .done) ∧ call.winLock = false

instance (call : WindowCall) : Decidable call.unlocked := inferInstanceAs (Decidable (_ ∧ _))

/-- A retransmitted segment carries the present acknowledgement and window. -/
def refresh (sock : NormalSocket) (packet : TCPPacket) : TCPPacket :=
  { packet with ackNum := sock.cumReadNXT, window := sock.readBuffer.window }

/-- Retransmit node `k`, if it was sent. Ten times in a row for one node give the
connection up; the lock is then never released. -/
def resend (sock : NormalSocket) (call : WindowCall) (k : ℕ) :
    NormalSocket × WindowCall × List Emission :=
  match call.nodes[k]? with
  | none => (sock, call, [])
  | some node =>
      if node.sent then
        let cnt := if call.last_index = node.index then call.cnt + 1 else 1
        let call := { call.updatePacket k (refresh sock) with last_index := node.index, cnt := cnt }
        if cnt = 10 then
          match sock.vClose with
          | (sock, .sent packet) => (sock, { call with winLock := true }, [⟨.fin, packet⟩])
          | (sock, _) => (sock, { call with winLock := true }, [])
        else (sock, call, [⟨.retransmission, refresh sock node.packet⟩])
      else (sock, call, [])

/-- As long as `head` is the dummy node, its successor is retransmitted without counting. -/
def resendFirst (sock : NormalSocket) (call : WindowCall) (k : ℕ) :
    NormalSocket × WindowCall × List Emission :=
  match call.nodes[k]? with
  | none => (sock, call, [])
  | some node =>
      if node.sent then
        (sock, call.updatePacket k (refresh sock),
          [⟨.retransmission, refresh sock node.packet⟩])
      else (sock, call, [])

/-- The ticker of the retransmission thread expires. A node is taken for the dummy
node when its `expectedAck` is 0. -/
def tick (sock : NormalSocket) (call : WindowCall) :
    Option (NormalSocket × WindowCall × List Emission) :=
  if call.unlocked then
    if sock.ClientWindowSize > 0 then
      match call.head with
      | none => some (sock, call, [])
      | some k =>
          if expectedAckAt call.nodes k ≠ 0 then some (call.resend sock (k - 1))
          else some (call.resendFirst sock k)
    else some (sock, call, [])
  else none

/-- The thread works between two turns of the loop. It does nothing, or sends the node of
`head` again, or the one behind the dummy node. -/
theorem tick_cases {sock : NormalSocket} {call : WindowCall}
    {result : NormalSocket × WindowCall × List Emission} (h : call.tick sock = some result) :
    call.unlocked ∧ (result = (sock, call, []) ∨
      sock.ClientWindowSize > 0 ∧ ∃ k, call.head = some k ∧
        (expectedAckAt call.nodes k ≠ 0 ∧ result = call.resend sock (k - 1) ∨
          expectedAckAt call.nodes k = 0 ∧ result = call.resendFirst sock k)) := by
  unfold tick at h
  split at h
  · next hunlocked =>
    refine ⟨hunlocked, ?_⟩
    split at h
    · next hopen =>
      split at h
      · exact Or.inl (Option.some.inj h).symm
      · next k hhead =>
        refine Or.inr ⟨hopen, k, hhead, ?_⟩
        split at h
        · next hack => exact Or.inl ⟨hack, (Option.some.inj h).symm⟩
        · next hack => exact Or.inr ⟨not_not.mp hack, (Option.some.inj h).symm⟩
    · exact Or.inl (Option.some.inj h).symm
  · contradiction

end WindowCall

end IpTcp
