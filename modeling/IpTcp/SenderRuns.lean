import IpTcp.ReadRing
import IpTcp.Runs
import IpTcp.SlidingWindow

/-!
One call of slidingWindow as a machine, together with its retransmission thread
and with the part of ReceiverThread that feeds it. A segment that arrives first
sets the advertised window and is dispatched in a later step, as ReceiverThread
waits for the acknowledgement mutex in between. The channel for
acknowledgements holds a hundred of them. What was sent and which segment
advertised a window last is recorded on the side.
-/
namespace IpTcp

/-- `arriving` is the segment that ReceiverThread works on, `latest` the last one
whose window it noted. -/
structure Transfer where
  sock : NormalSocket
  call : WindowCall
  emitted : List Emission
  arriving : Option TCPInfo
  latest : Option TCPInfo

inductive TransferEvent
  | run
  | timeout
  | tick
  | arrive (received : TCPInfo)
  | dispatch

def firsts (emitted : List Emission) : List TCPPacket :=
  (emitted.filter fun m => m.kind = .first).map Emission.packet

@[simp] theorem firsts_nil : firsts [] = [] := rfl

@[simp] theorem firsts_append (xs ys : List Emission) :
    firsts (xs ++ ys) = firsts xs ++ firsts ys := by
  simp [firsts]

namespace Transfer

def start (sock : NormalSocket) (packet : TCPPacket) : Transfer where
  sock := sock
  call := sock.slidingWindow packet
  emitted := []
  arriving := none
  latest := none

/-- The state in which ReceiverThread has noted the window of a segment. -/
def note (t : Transfer) (received : TCPInfo) : Transfer :=
  { t with
    sock := t.sock.noteWindow received
    arriving := some received
    latest := if received.Flag &&& tcpFlagAck > 0 then some received else t.latest }

def update (t : Transfer) (result : NormalSocket × WindowCall × List Emission) : Transfer :=
  { t with sock := result.1, call := result.2.1, emitted := t.emitted ++ result.2.2 }

/-- ReceiverThread goes on with the segment whose window it has noted. -/
def deliver (t : Transfer) (received : TCPInfo) : Option Transfer :=
  match t.sock.dispatch received with
  | (_, .blocked) => none
  | (sock, .toAckChan) =>
      if t.sock.ackChan.length < 100 then some { t with sock := sock, arriving := none } else none
  | (sock, _) => some { t with sock := sock, arriving := none }

def step (t : Transfer) : TransferEvent → Option Transfer
  | .run => (t.call.run t.sock).map t.update
  | .timeout => t.call.timeout.map fun again => { t with emitted := t.emitted ++ again }
  | .tick => (t.call.tick t.sock).map t.update
  | .arrive received =>
      match t.arriving with
      | none => some (t.note received)
      | some _ => none
  | .dispatch => t.arriving.bind t.deliver

theorem step_arrive {t t' : Transfer} {received : TCPInfo}
    (h : t.step (.arrive received) = some t') :
    t.arriving = none ∧ t' = t.note received := by
  simp only [step] at h
  split at h
  · rename_i hnone
    exact ⟨hnone, (Option.some.inj h).symm⟩
  · contradiction

/-- ReceiverThread passes an acknowledgement on, or leaves the sending side alone. -/
theorem deliver_cases {t t' : Transfer} {received : TCPInfo} (h : t.deliver received = some t') :
    ∃ sock', t' = { t with sock := sock', arriving := none } ∧
      (NormalSocket.Receives t.sock sock' ∨
        (received.Flag &&& tcpFlagAck > 0 ∧ (t.sock.unackedNums received.AckNum).isSome ∧
          received.Payload = [] ∧
          sock' = { t.sock with ackChan := t.sock.ackChan ++ [received] })) := by
  have hcases := t.sock.dispatch_cases received
  unfold deliver at h
  split at h
  · contradiction
  · rename_i sock' haction
    rw [haction] at hcases
    split at h
    · cases h
      refine ⟨sock', rfl, hcases.imp id ?_⟩
      rintro ⟨hflag, hreg, hpay, heq⟩
      exact ⟨hflag, hreg, hpay, congrArg Prod.fst heq⟩
    · contradiction
  · rename_i sock' action _ _ haction
    rw [haction] at hcases
    cases h
    refine ⟨sock', rfl, hcases.imp id ?_⟩
    rintro ⟨hflag, hreg, hpay, heq⟩
    exact ⟨hflag, hreg, hpay, congrArg Prod.fst heq⟩

theorem step_dispatch {t t' : Transfer} (h : t.step .dispatch = some t') :
    ∃ received sock', t.arriving = some received ∧
      t' = { t with sock := sock', arriving := none } ∧
      (NormalSocket.Receives t.sock sock' ∨
        (received.Flag &&& tcpFlagAck > 0 ∧ (t.sock.unackedNums received.AckNum).isSome ∧
          received.Payload = [] ∧
          sock' = { t.sock with ackChan := t.sock.ackChan ++ [received] })) := by
  obtain ⟨received, hsome, hdeliver⟩ := Option.bind_eq_some_iff.mp h
  obtain ⟨sock', heq, hcases⟩ := deliver_cases hdeliver
  exact ⟨received, sock', hsome, heq, hcases⟩

theorem noteWindow_cases (sock : NormalSocket) (received : TCPInfo) :
    sock.noteWindow received = sock.setWindow received.WindowSize ∨
      sock.noteWindow received = sock := by
  unfold NormalSocket.noteWindow
  split
  · exact Or.inl rfl
  · exact Or.inr rfl

/-- An honest peer with nothing to send: pure acknowledgements of the next number or of
a registered one that was not acknowledged yet, with any window. -/
def HonestAcks (t : Transfer) : TransferEvent → Prop
  | .arrive r => r.Flag = tcpFlagAck ∧ r.Payload = [] ∧
      (r.AckNum = t.sock.cumWriteUNA ∨ t.sock.unackedNums r.AckNum = some 0)
  | _ => True

instance (t : Transfer) (e : TransferEvent) : Decidable (HonestAcks t e) :=
  match e with
  | .run | .timeout | .tick | .dispatch => .isTrue trivial
  | .arrive _ => inferInstanceAs (Decidable (_ ∧ _))

def sampleAck (ack : UInt32) (window : UInt16) : TCPInfo where
  key := sampleKey
  Flag := tcpFlagAck
  SeqNum := 201
  AckNum := ack
  WindowSize := window
  Payload := []

end Transfer

end IpTcp
