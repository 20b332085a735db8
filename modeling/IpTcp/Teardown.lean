import IpTcp.Close
import IpTcp.ReadRing
import IpTcp.Runs

/-!
Both ends of a connection while it is closed. On each side there are VClose,
ReceiverThread and the goroutine that VClose leaves behind to wait for the
acknowledgement of the FIN; reliable channels carry the segments both ways.
ReceiverThread keeps the acknowledgement mutex while it hands a number to that
goroutine. A FIN is handled as long as it finds its receiver in ESTABLISHED or in
FIN_WAIT_2 and is not taken for an acknowledgement of data. When the two closes
cross, both FINs arrive in FIN_WAIT_1 and both ends stay there.
-/
namespace IpTcp

inductive CallPc
  | idle
  | built (packet : TCPPacket)
  | returned
  | failed
  | hung
  deriving DecidableEq, Repr

/-- The goroutine that VClose starts. It has the number, then it has deleted it from
`unackedFINs`, then it has looked at the state. -/
inductive WaiterPc
  | absent
  | waiting (want : UInt32)
  | got (ack : UInt32)
  | unregistered
  | finished
  deriving DecidableEq, Repr

namespace WaiterPc

/-- The number of the FIN is still in `unackedFINs`. -/
def registered : WaiterPc → Bool
  | .waiting _ | .got _ => true
  | .absent | .unregistered | .finished => false

def passed : WaiterPc → Bool
  | .got _ | .unregistered | .finished => true
  | .absent | .waiting _ => false

end WaiterPc

/-- One end. `handing` is the number that ReceiverThread offers on `finChan`, with the
acknowledgement mutex in its hands; `stuck` tells that it waits for a lost mutex. -/
structure Half where
  sock : NormalSocket
  call : CallPc
  handing : Option UInt32
  stuck : Bool
  waiter : WaiterPc
  removed : Bool
  inbox : List TCPInfo

inductive HalfEvent
  | build
  | commit
  | deliver
  | handOff
  | unregister
  | advance
  | expire
  deriving DecidableEq, Repr

namespace Half

def start (sock : NormalSocket) : Half where
  sock := sock
  call := .idle
  handing := none
  stuck := false
  waiter := .absent
  removed := false
  inbox := []

def commit (h : Half) (packet : TCPPacket) : Half × List TCPPacket :=
  match h.sock.commitClose packet with
  | (sock, .sent packet) =>
      ({ h with sock := sock, call := .returned, waiter := .waiting (packet.seqNum + 1) }, [packet])
  | (sock, .invalidState) => ({ h with sock := sock, call := .failed }, [])
  | (sock, .blocked) => ({ h with sock := sock, call := .hung }, [])

/-- ReceiverThread takes the next segment. The dispatcher no longer finds a socket that
was removed. -/
def deliver (h : Half) (r : TCPInfo) (rest : List TCPInfo) : Option (Half × List TCPPacket) :=
  if h.removed then some ({ h with inbox := rest }, [])
  else match h.sock.receiverThread r with
    | (sock, .blocked) => some ({ h with sock := sock, inbox := rest, stuck := true }, [])
    | (sock, .toFinChan ack) =>
        some ({ h with sock := sock, inbox := rest, handing := some ack }, [])
    | (sock, .toAckChan) =>
        if h.sock.ackChan.length < 100 then some ({ h with sock := sock, inbox := rest }, [])
        else none
    | (sock, .reply packet) => some ({ h with sock := sock, inbox := rest }, [packet])
    | (sock, .ignored) | (sock, .queued) | (sock, .bufferFull) =>
        some ({ h with sock := sock, inbox := rest }, [])

def step (h : Half) : HalfEvent → Option (Half × List TCPPacket)
  | .build => match h.call with
      | .idle => some ({ h with call := .built h.sock.finPacket }, [])
      | _ => none
  | .commit => match h.call, h.handing with
      | .built packet, none => some (h.commit packet)
      | _, _ => none
  | .deliver => match h.inbox, h.handing with
      | r :: rest, none => if h.stuck then none else h.deliver r rest
      | _, _ => none
  | .handOff => match h.handing, h.waiter with
      | some ack, .waiting want => some ({ h with
          handing := none
          waiter := if ack = want then .got ack else .waiting want }, [])
      | _, _ => none
  | .unregister => match h.waiter, h.handing with
      | .got ack, none =>
          if h.sock.unackedMtx then none
          else some ({ h with
            sock := { h.sock with unackedFINs := Function.update h.sock.unackedFINs ack false }
            waiter := .unregistered }, [])
      | _, _ => none
  | .advance => match h.waiter with
      | .unregistered =>
          if h.sock.stateMtx then none
          else match h.sock.state with
            | .finWait1 => some ({ h with
                sock := { h.sock with state := .finWait2 }
                waiter := .finished }, [])
            | .lastAck => some ({ h with removed := true, waiter := .finished }, [])
            | _ => some ({ h with waiter := .finished }, [])
      | _ => none
  | .expire =>
      -- two minutes in TIME_WAIT
      if h.sock.state = .timeWait ∧ h.removed = false then some ({ h with removed := true }, [])
      else none

def receive (h : Half) (out : List TCPPacket) : Half :=
  { h with inbox := h.inbox ++ out.map TCPPacket.info }

@[simp] theorem receive_nil (h : Half) : h.receive [] = h := by
  simp [receive]

end Half

structure Teardown where
  left : Half
  right : Half

namespace Teardown

open Runs

def start (a b : NormalSocket) : Teardown := ⟨Half.start a, Half.start b⟩

def step (p : Teardown) : Bool × HalfEvent → Option Teardown
  | (false, e) => (p.left.step e).map fun result => ⟨result.1, p.right.receive result.2⟩
  | (true, e) => (p.right.step e).map fun result => ⟨p.left.receive result.2, result.1⟩

structure Idle (a b : NormalSocket) : Prop where
  state : a.state = .established
  stateMtx : a.stateMtx = false
  unackedMtx : a.unackedMtx = false
  unackedFINs : ∀ n, a.unackedFINs n = false
  earlyPQ : a.earlyPQ = #[]
  pointers : a.writeBuffer.NXT = a.writeBuffer.UNA
  cum : a.cumReadNXT = b.cumWriteUNA

/-- Nothing is on its way and no goroutine can go on. -/
def Quiescent (p : Teardown) : Prop :=
  ∀ h ∈ [p.left, p.right], h.inbox = [] ∧
    ∀ e ∈ [HalfEvent.handOff, .unregister, .advance], h.step e = none

/-- When both calls of VClose have returned and nothing is left to do, each end is in
TIME_WAIT or gone from its table. -/
def Closed (p : Teardown) : Prop :=
  p.left.call = .returned → p.right.call = .returned → p.Quiescent →
    ∀ h ∈ [p.left, p.right], h.sock.state = .timeWait ∨ h.removed = true

/-- The next segment, if it is a FIN, finds its receiver in a state that expects it and is
not taken for an acknowledgement of data. -/
def FinExpected (h : Half) : Prop :=
  match h.inbox with
  | [] => True
  | r :: _ => r.Flag &&& tcpFlagFin > 0 →
      (h.sock.state = .established ∨ h.sock.state = .finWait2) ∧
        h.sock.unackedNums r.AckNum = none

def Uncrossed (p : Teardown) : Bool × HalfEvent → Prop
  | (false, .deliver) => FinExpected p.left
  | (true, .deliver) => FinExpected p.right
  | _ => True

instance (h : Half) : Decidable (FinExpected h) :=
  match hbox : h.inbox with
  | [] => .isTrue (by simp [FinExpected, hbox])
  | r :: _ => decidable_of_iff (r.Flag &&& tcpFlagFin > 0 →
      (h.sock.state = .established ∨ h.sock.state = .finWait2) ∧
        h.sock.unackedNums r.AckNum = none) (by simp [FinExpected, hbox])

instance (p : Teardown) (e : Bool × HalfEvent) : Decidable (Uncrossed p e) :=
  match e with
  | (false, .deliver) => inferInstanceAs (Decidable (FinExpected p.left))
  | (true, .deliver) => inferInstanceAs (Decidable (FinExpected p.right))
  | (false, .build) | (false, .commit) | (false, .handOff) | (false, .unregister)
  | (false, .advance) | (false, .expire) | (true, .build) | (true, .commit) | (true, .handOff)
  | (true, .unregister) | (true, .advance) | (true, .expire) => .isTrue trivial

def IsFin (cum : UInt32) (r : TCPInfo) : Prop :=
  r.Flag = finAck ∧ r.SeqNum = cum ∧ r.Payload = []

def IsAck (cum : UInt32) (r : TCPInfo) : Prop :=
  r.Flag = tcpFlagAck ∧ r.AckNum = cum + 1 ∧ r.Payload = []

def hasFin (r : TCPInfo) : Bool := r.Flag = finAck

theorem IsFin.hasFin {cum : UInt32} {r : TCPInfo} (h : IsFin cum r) : hasFin r = true :=
  decide_eq_true h.1

theorem IsAck.hasFin {cum : UInt32} {r : TCPInfo} (h : IsAck cum r) : hasFin r = false := by
  unfold Teardown.hasFin
  rw [h.1]
  rfl

def CallOk (a : Half) : CallPc → Prop
  | .idle => a.sock.state.finSent = false
  | .built packet => a.sock.state.finSent = false ∧ packet.seqNum = a.sock.cumWriteUNA ∧
      packet.flags = finAck ∧ packet.payload = []
  | .returned => a.sock.state.finSent = true
  | .failed | .hung => False

theorem CallOk.congr {a a' : Half} {pc : CallPc} (h : CallOk a pc)
    (hcum : a'.sock.cumWriteUNA = a.sock.cumWriteUNA)
    (hsent : a'.sock.state.finSent = a.sock.state.finSent) : CallOk a' pc := by
  cases pc with
  | idle | returned => exact hsent.trans h
  | built packet => exact ⟨hsent.trans h.1, h.2.1.trans hcum.symm, h.2.2⟩
  | failed | hung => exact h

def WaiterOk (a : Half) : WaiterPc → Prop
  | .absent => a.sock.state.finSent = false ∧ a.handing = none ∧ a.removed = false
  | .waiting want => want = a.sock.cumWriteUNA + 1 ∧
      (a.sock.state = .finWait1 ∨ a.sock.state = .lastAck) ∧
      (∀ ack, a.handing = some ack → ack = want) ∧ a.removed = false
  | .got ack => ack = a.sock.cumWriteUNA + 1 ∧
      (a.sock.state = .finWait1 ∨ a.sock.state = .lastAck) ∧ a.handing = none ∧ a.removed = false
  | .unregistered => (a.sock.state = .finWait1 ∨ a.sock.state = .lastAck) ∧ a.handing = none ∧
      a.removed = false
  | .finished => a.handing = none ∧ ((a.sock.state = .finWait2 ∧ a.removed = false) ∨
      a.sock.state = .timeWait ∨ (a.sock.state = .lastAck ∧ a.removed = true))

/-- The end `a` of a connection with `b`. Each FIN sent is on its way or was seen, and the
acknowledgement of each FIN seen is on its way or with one of the threads. -/
structure Linked (a b : Half) : Prop where
  connected : a.sock.state.connected = true
  stateMtx : a.sock.stateMtx = false
  unackedMtx : a.sock.unackedMtx = false
  earlyPQ : a.sock.earlyPQ = #[]
  pointers : a.sock.writeBuffer.NXT = a.sock.writeBuffer.UNA
  stuck : a.stuck = false
  cum : a.sock.cumReadNXT = b.sock.cumWriteUNA + if a.sock.state.finSeen then 1 else 0
  call : CallOk a a.call
  inbox : ∀ r ∈ a.inbox, IsFin b.sock.cumWriteUNA r ∨ IsAck a.sock.cumWriteUNA r
  fins : a.inbox.countP hasFin + a.sock.state.finSeen.toNat = b.sock.state.finSent.toNat
  acks : a.inbox.countP (fun r => !hasFin r) + a.handing.isSome.toNat + a.waiter.passed.toNat =
    b.sock.state.finSeen.toNat
  unackedFINs : ∀ n, a.sock.unackedFINs n =
    (a.waiter.registered && decide (n = a.sock.cumWriteUNA + 1))
  waiter : WaiterOk a a.waiter

namespace Linked

variable {a a' b : Half}

theorem start {x y : NormalSocket} (hxy : Idle x y) (hyx : Idle y x) :
    Linked (Half.start x) (Half.start y) where
  connected := by simp [Half.start, hxy.state, ConnState.connected]
  stateMtx := hxy.stateMtx
  unackedMtx := hxy.unackedMtx
  earlyPQ := hxy.earlyPQ
  pointers := hxy.pointers
  stuck := rfl
  cum := by simp [Half.start, hxy.state, hxy.cum, ConnState.finSeen]
  call := by simp [Half.start, CallOk, hxy.state, ConnState.finSent]
  inbox := by simp [Half.start]
  fins := by simp [Half.start, hxy.state, hyx.state, ConnState.finSeen, ConnState.finSent]
  acks := by simp [Half.start, hyx.state, ConnState.finSeen, WaiterPc.passed]
  unackedFINs := by simp [Half.start, hxy.unackedFINs, WaiterPc.registered]
  waiter := by simp [Half.start, WaiterOk, hxy.state, ConnState.finSent]

/-- Of the other end only its numbers and what it has sent and seen matter. -/
theorem peer (h : Linked b a) (hcum : a'.sock.cumWriteUNA = a.sock.cumWriteUNA)
    (hsent : a'.sock.state.finSent = a.sock.state.finSent)
    (hseen : a'.sock.state.finSeen = a.sock.state.finSeen) : Linked b a' := by
  refine ⟨h.connected, h.stateMtx, h.unackedMtx, h.earlyPQ, h.pointers, h.stuck, ?_, h.call, ?_,
    ?_, ?_, h.unackedFINs, h.waiter⟩
  · rw [hcum]
    exact h.cum
  · rw [hcum]
    exact h.inbox
  · rw [hsent]
    exact h.fins
  · rw [hseen]
    exact h.acks

/-- A segment sets out. -/
theorem receive (h : Linked b a) {packet : TCPPacket}
    (hkind : IsFin a.sock.cumWriteUNA packet.info ∨ IsAck b.sock.cumWriteUNA packet.info)
    (hcum : a'.sock.cumWriteUNA = a.sock.cumWriteUNA)
    (hsent : a'.sock.state.finSent.toNat =
      a.sock.state.finSent.toNat + (hasFin packet.info).toNat)
    (hseen : a'.sock.state.finSeen.toNat =
      a.sock.state.finSeen.toNat + (!hasFin packet.info).toNat) :
    Linked (b.receive [packet]) a' := by
  refine ⟨h.connected, h.stateMtx, h.unackedMtx, h.earlyPQ, h.pointers, h.stuck, ?_, h.call, ?_,
    ?_, ?_, h.unackedFINs, h.waiter⟩
  · rw [hcum]
    exact h.cum
  · intro r hr
    rw [hcum]
    rcases List.mem_append.mp hr with hold | hnew
    · exact h.inbox r hold
    · rw [List.mem_singleton.mp hnew]
      exact hkind
  · have hfins := h.fins
    rw [hsent]
    simp only [Half.receive, List.map_cons, List.map_nil, List.countP_append,
      List.countP_singleton]
    cases hasFin packet.info <;> simp <;> omega
  · have hacks := h.acks
    rw [hseen]
    simp only [Half.receive, List.map_cons, List.map_nil, List.countP_append,
      List.countP_singleton]
    cases hasFin packet.info <;> simp <;> omega

/-- Nothing is left for an end that was removed from its table. -/
theorem inbox_of_removed (h : Linked a b) (hremoved : a.removed = true) : a.inbox = [] := by
  have hwaiter := h.waiter
  have hfins := h.fins
  have hacks := h.acks
  have hsent := Bool.toNat_le b.sock.state.finSent
  have hseen := Bool.toNat_le b.sock.state.finSeen
  have hfinished : a.waiter.passed = true ∧ a.sock.state.finSeen = true := by
    cases hpc : a.waiter <;> simp [hpc, WaiterOk, hremoved] at hwaiter
    rcases hwaiter.2 with hstate | hstate <;> simp [hstate, ConnState.finSeen, WaiterPc.passed]
  rw [hfinished.2, Bool.toNat_true] at hfins
  rw [hfinished.1, Bool.toNat_true] at hacks
  cases hbox : a.inbox with
  | nil => rfl
  | cons r rest =>
    rw [hbox, List.countP_cons] at hfins hacks
    cases hfin : hasFin r <;> simp only [hfin] at hfins hacks <;> simp at hfins hacks <;> omega

/-- A socket with segments to come is still in the table. -/
theorem removed_eq_false (h : Linked a b) {r : TCPInfo} {rest : List TCPInfo}
    (hbox : a.inbox = r :: rest) : a.removed = false := by
  cases hremoved : a.removed with
  | false => rfl
  | true =>
    rw [h.inbox_of_removed hremoved] at hbox
    contradiction

theorem build (hab : Linked a b) (hba : Linked b a) (hcall : a.call = .idle) :
    Linked { a with call := .built a.sock.finPacket } b ∧
      Linked b { a with call := .built a.sock.finPacket } := by
  have hok := hab.call
  rw [hcall] at hok
  refine ⟨⟨hab.connected, hab.stateMtx, hab.unackedMtx, hab.earlyPQ, hab.pointers, hab.stuck,
    hab.cum, ⟨hok, ?_, rfl, rfl⟩, hab.inbox, hab.fins, hab.acks, hab.unackedFINs, hab.waiter⟩,
    hba.peer rfl rfl rfl⟩
  have hzero : a.sock.distUNA = 0 := by
    apply UInt32.toNat_inj.mp
    unfold NormalSocket.distUNA
    rw [hab.pointers, toNat_ringDist]
    have hlt := a.sock.writeBuffer.UNA_lt
    simp only [UInt32.reduceToNat]
    omega
  change a.sock.distUNA + a.sock.cumWriteUNA = a.sock.cumWriteUNA
  rw [hzero, UInt32.zero_add]

/-- VClose goes through: the state moves, the number of the FIN is registered and the FIN
sets out. -/
theorem commit (hab : Linked a b) (hba : Linked b a) {packet : TCPPacket}
    (hcall : a.call = .built packet) :
    Linked (a.commit packet).1 (b.receive (a.commit packet).2) ∧
      Linked (b.receive (a.commit packet).2) (a.commit packet).1 := by
  have hok := hab.call
  rw [hcall] at hok
  obtain ⟨hsent, hseq, hflags, hpayload⟩ := hok
  obtain ⟨hwaiter, hhanding, hremoved⟩ : a.waiter = .absent ∧ a.handing = none ∧
      a.removed = false := by
    have hwaiter := hab.waiter
    cases hpc : a.waiter <;> rw [hpc] at hwaiter
    case absent => exact ⟨rfl, hwaiter.2.1, hwaiter.2.2⟩
    case waiting => rcases hwaiter.2.1 with h | h <;> simp [h, ConnState.finSent] at hsent
    case got => rcases hwaiter.2.1 with h | h <;> simp [h, ConnState.finSent] at hsent
    case unregistered => rcases hwaiter.1 with h | h <;> simp [h, ConnState.finSent] at hsent
    case finished => rcases hwaiter.2 with h | h | h <;> simp [h, ConnState.finSent] at hsent
  obtain ⟨next, hsends⟩ : ∃ next, NormalSocket.SendsFIN a.sock.state next := by
    have hconnected := hab.connected
    cases hstate : a.sock.state <;>
      simp [hstate, ConnState.connected, ConnState.finSent] at hconnected hsent
    · exact ⟨_, .active⟩
    · exact ⟨_, .passive⟩
  obtain ⟨hnext, hseen⟩ := hsends.next
  have hsent' : next.finSent = true := by
    rcases hnext with rfl | rfl <;> rfl
  have hcommit : a.commit packet = ({ a with
      sock := { a.sock with
        state := next
        unackedFINs := Function.update a.sock.unackedFINs (packet.seqNum + 1) true }
      call := .returned
      waiter := .waiting (packet.seqNum + 1) }, [packet]) := by
    unfold Half.commit
    rw [NormalSocket.commitClose_sends packet hab.stateMtx hab.unackedMtx hsends]
  have hfin : IsFin a.sock.cumWriteUNA packet.info := ⟨hflags, hseq, hpayload⟩
  rw [hcommit]
  refine ⟨⟨?_, hab.stateMtx, hab.unackedMtx, hab.earlyPQ, hab.pointers, hab.stuck, ?_, hsent',
    hab.inbox, ?_, ?_, ?_, ?_⟩, hba.receive (Or.inl hfin) rfl ?_ ?_⟩
  · rcases hnext with rfl | rfl <;> rfl
  · simp only [hseen]
    exact hab.cum
  · simp only [hseen]
    exact hab.fins
  · have hacks := hab.acks
    rw [hwaiter] at hacks
    exact hacks
  · intro n
    have hold := hab.unackedFINs n
    rw [hwaiter] at hold
    simp only [WaiterPc.registered, Bool.false_and, Bool.true_and] at hold ⊢
    rw [Function.update_apply, hseq]
    split
    · rename_i heq
      simp [heq]
    · rename_i hne
      simp [hne, hold]
  · refine ⟨?_, hnext, ?_, hremoved⟩
    · rw [hseq]
    · intro ack hack
      rw [hhanding] at hack
      contradiction
  · rw [hsent, hsent', hfin.hasFin]
    rfl
  · rw [hseen, hfin.hasFin]
    rfl

/-- The FIN of the other end is seen and acknowledged. -/
theorem deliver_fin (hab : Linked a b) (hba : Linked b a) {r : TCPInfo} {rest : List TCPInfo}
    (hbox : a.inbox = r :: rest) (hfin : IsFin b.sock.cumWriteUNA r) {state : ConnState}
    (hstate : NormalSocket.TakesFIN a.sock.state state)
    (hnums : a.sock.unackedNums r.AckNum = none) {result : Half × List TCPPacket}
    (hstep : a.deliver r rest = some result) :
    Linked result.1 (b.receive result.2) ∧ Linked (b.receive result.2) result.1 := by
  have hremoved := hab.removed_eq_false hbox
  obtain ⟨hseen, hseen', hsent, hconnected, hopen⟩ := hstate.facts
  have hfins : a.sock.unackedFINs r.AckNum = false := by
    have hwaiter := hab.waiter
    rw [hab.unackedFINs]
    cases hpc : a.waiter <;> rw [hpc] at hwaiter <;> simp only [WaiterPc.registered, Bool.false_and]
    · rcases hwaiter.2.1 with h | h <;> simp [h] at hopen
    · rcases hwaiter.2.1 with h | h <;> simp [h] at hopen
  have hseq : r.SeqNum = a.sock.cumReadNXT := by
    rw [hab.cum, hseen, hfin.2.1]
    exact (UInt32.add_zero _).symm
  have hthread := NormalSocket.receiverThread_fin hfin.1 hseq hnums hfins hab.unackedMtx
    hab.stateMtx hab.earlyPQ hstate
  unfold Half.deliver at hstep
  rw [if_neg (by simp [hremoved]), hthread] at hstep
  cases hstep
  have hcount := hab.fins
  have hacks := hab.acks
  rw [hbox, List.countP_cons, hfin.hasFin, hseen] at hcount
  rw [hbox, List.countP_cons, hfin.hasFin] at hacks
  have hack : IsAck b.sock.cumWriteUNA (replyTo (a.sock.afterFIN r state) r).info := by
    refine ⟨rfl, ?_, rfl⟩
    change a.sock.cumReadNXT + 1 = _
    rw [← hseq, hfin.2.1]
  refine ⟨⟨hconnected, hab.stateMtx, hab.unackedMtx, hab.earlyPQ, hab.pointers, hab.stuck, ?_, ?_,
    ?_, ?_, ?_, hab.unackedFINs, ?_⟩, hba.receive (Or.inr hack) rfl ?_ ?_⟩
  · change a.sock.cumReadNXT + 1 = b.sock.cumWriteUNA + if state.finSeen then 1 else 0
    rw [hseen', if_pos rfl, hab.cum, hseen]
    simp
  · exact hab.call.congr rfl hsent
  · intro q hq
    exact hab.inbox q (by rw [hbox]; exact List.mem_cons_of_mem _ hq)
  · change rest.countP hasFin + state.finSeen.toNat = b.sock.state.finSent.toNat
    rw [hseen']
    simpa using hcount
  · change rest.countP (fun r => !hasFin r) + a.handing.isSome.toNat + a.waiter.passed.toNat =
      b.sock.state.finSeen.toNat
    simpa using hacks
  · have hwaiter := hab.waiter
    change WaiterOk { a with sock := a.sock.afterFIN r state, inbox := rest } a.waiter
    cases hpc : a.waiter <;> rw [hpc] at hwaiter
    case absent => exact ⟨hsent.trans hwaiter.1, hwaiter.2⟩
    case waiting => rcases hwaiter.2.1 with h | h <;> simp [h] at hopen
    case got => rcases hwaiter.2.1 with h | h <;> simp [h] at hopen
    case unregistered => rcases hwaiter.1 with h | h <;> simp [h] at hopen
    case finished =>
      refine ⟨hwaiter.1, Or.inr (Or.inl ?_)⟩
      rcases hopen with hopen | ⟨-, htime⟩
      · rcases hwaiter.2 with h | h | h <;> simp [h] at hopen
      · exact htime
  · rw [hack.hasFin]
    exact congrArg Bool.toNat hsent
  · change state.finSeen.toNat = _
    rw [hack.hasFin, hseen, hseen']
    rfl

/-- The acknowledgement of our FIN is offered to the goroutine of VClose. -/
theorem deliver_ack (hab : Linked a b) (hba : Linked b a) {r : TCPInfo} {rest : List TCPInfo}
    (hbox : a.inbox = r :: rest) (hhanding : a.handing = none)
    (hack : IsAck a.sock.cumWriteUNA r) {result : Half × List TCPPacket}
    (hstep : a.deliver r rest = some result) :
    Linked result.1 (b.receive result.2) ∧ Linked (b.receive result.2) result.1 := by
  have hremoved := hab.removed_eq_false hbox
  have hcount := hab.fins
  have hacks := hab.acks
  rw [hbox, List.countP_cons, hack.hasFin] at hcount hacks
  have hle := Bool.toNat_le b.sock.state.finSeen
  have hseenb := hba.fins
  obtain ⟨want, hwaiter⟩ : ∃ want, a.waiter = .waiting want := by
    have hwaiter := hab.waiter
    cases hpc : a.waiter <;> rw [hpc] at hwaiter hacks
    case absent =>
      rw [hwaiter.1] at hseenb
      simp at hseenb hacks
      simp [hseenb] at hacks
    case waiting want => exact ⟨want, rfl⟩
    all_goals
      simp [WaiterPc.passed] at hacks
      omega
  have hok := hab.waiter
  rw [hwaiter] at hok
  have hfins : a.sock.unackedFINs r.AckNum = true := by
    rw [hab.unackedFINs, hwaiter, hack.2.1]
    simp [WaiterPc.registered]
  have hflag : r.Flag &&& tcpFlagAck > 0 := by
    rw [hack.1]
    decide
  have hthread : a.sock.receiverThread r =
      ({ a.sock with ClientWindowSize := r.WindowSize }, .toFinChan r.AckNum) := by
    unfold NormalSocket.receiverThread NormalSocket.noteWindow
    rw [if_pos hflag, NormalSocket.dispatch, if_pos hflag]
    simp only [hab.unackedMtx, hfins, Bool.false_eq_true, if_false, if_true]
  unfold Half.deliver at hstep
  rw [if_neg (by simp [hremoved]), hthread] at hstep
  cases hstep
  rw [hhanding] at hacks
  rw [Half.receive_nil]
  refine ⟨⟨hab.connected, hab.stateMtx, hab.unackedMtx, hab.earlyPQ, hab.pointers, hab.stuck,
    hab.cum, hab.call, ?_, ?_, ?_, hab.unackedFINs, ?_⟩, hba.peer rfl rfl rfl⟩
  · intro q hq
    exact hab.inbox q (by rw [hbox]; exact List.mem_cons_of_mem _ hq)
  · simpa using hcount
  · simpa using hacks
  · change WaiterOk _ a.waiter
    rw [hwaiter]
    refine ⟨hok.1, hok.2.1, ?_, hremoved⟩
    intro ack heq
    cases heq
    rw [hok.1, hack.2.1]

/-- The goroutine of VClose takes the number. -/
theorem handOff (hab : Linked a b) (hba : Linked b a) {ack want : UInt32}
    (hhanding : a.handing = some ack) (hwaiter : a.waiter = .waiting want) :
    Linked { a with handing := none, waiter := if ack = want then .got ack else .waiting want } b ∧
      Linked b { a with
        handing := none
        waiter := if ack = want then .got ack else .waiting want } := by
  have hok := hab.waiter
  have hacks := hab.acks
  rw [hwaiter] at hok
  rw [hwaiter, hhanding] at hacks
  obtain ⟨hwant, hstate, hsame, hremoved⟩ := hok
  have heq := hsame ack hhanding
  rw [if_pos heq]
  refine ⟨⟨hab.connected, hab.stateMtx, hab.unackedMtx, hab.earlyPQ, hab.pointers, hab.stuck,
    hab.cum, hab.call, hab.inbox, hab.fins, hacks, ?_, heq.trans hwant, hstate, rfl, hremoved⟩,
    hba.peer rfl rfl rfl⟩
  intro n
  have hold := hab.unackedFINs n
  rw [hwaiter] at hold
  exact hold

theorem unregister (hab : Linked a b) (hba : Linked b a) {ack : UInt32}
    (hwaiter : a.waiter = .got ack) :
    Linked { a with
        sock := { a.sock with unackedFINs := Function.update a.sock.unackedFINs ack false }
        waiter := .unregistered } b ∧
      Linked b { a with
        sock := { a.sock with unackedFINs := Function.update a.sock.unackedFINs ack false }
        waiter := .unregistered } := by
  have hok := hab.waiter
  have hacks := hab.acks
  rw [hwaiter] at hok hacks
  obtain ⟨hack, hstate, hhanding, hremoved⟩ := hok
  refine ⟨⟨hab.connected, hab.stateMtx, hab.unackedMtx, hab.earlyPQ, hab.pointers, hab.stuck,
    hab.cum, hab.call, hab.inbox, hab.fins, hacks, ?_, hstate, hhanding, hremoved⟩,
    hba.peer rfl rfl rfl⟩
  intro n
  change Function.update a.sock.unackedFINs ack false n = false
  rw [Function.update_apply]
  split
  · rfl
  · rename_i hne
    rw [hab.unackedFINs, ← hack]
    simp [hne]

theorem advance (hab : Linked a b) (hba : Linked b a) {result : Half × List TCPPacket}
    (hstep : a.step .advance = some result) :
    Linked result.1 (b.receive result.2) ∧ Linked (b.receive result.2) result.1 := by
  cases hwaiter : a.waiter <;> simp only [Half.step, hwaiter] at hstep
  case unregistered =>
    have hok := hab.waiter
    have hacks := hab.acks
    have hfins := hab.unackedFINs
    rw [hwaiter] at hok hacks hfins
    obtain ⟨hstate, hhanding, hremoved⟩ := hok
    rw [if_neg (by simp [hab.stateMtx])] at hstep
    rcases hstate with hstate | hstate
    · simp only [hstate] at hstep
      cases hstep
      rw [Half.receive_nil]
      refine ⟨⟨rfl, hab.stateMtx, hab.unackedMtx, hab.earlyPQ, hab.pointers, hab.stuck, ?_, ?_,
        hab.inbox, ?_, hacks, hfins, hhanding, Or.inl ⟨rfl, hremoved⟩⟩, hba.peer rfl ?_ ?_⟩
      · simpa [hstate, ConnState.finSeen] using hab.cum
      · exact hab.call.congr rfl (by rw [hstate]; rfl)
      · simpa [hstate, ConnState.finSeen] using hab.fins
      · rw [hstate]
        rfl
      · rw [hstate]
        rfl
    · simp only [hstate] at hstep
      cases hstep
      rw [Half.receive_nil]
      exact ⟨⟨hab.connected, hab.stateMtx, hab.unackedMtx, hab.earlyPQ, hab.pointers, hab.stuck,
        hab.cum, hab.call, hab.inbox, hab.fins, hacks, hfins, hhanding,
        Or.inr (Or.inr ⟨hstate, rfl⟩)⟩, hba.peer rfl rfl rfl⟩
  all_goals contradiction

theorem expire (hab : Linked a b) (hba : Linked b a) (hstate : a.sock.state = .timeWait) :
    Linked { a with removed := true } b ∧ Linked b { a with removed := true } := by
  have hok := hab.waiter
  refine ⟨⟨hab.connected, hab.stateMtx, hab.unackedMtx, hab.earlyPQ, hab.pointers, hab.stuck,
    hab.cum, hab.call, hab.inbox, hab.fins, hab.acks, hab.unackedFINs, ?_⟩, hba.peer rfl rfl rfl⟩
  change WaiterOk _ a.waiter
  cases hwaiter : a.waiter <;> rw [hwaiter] at hok
  case finished => exact ⟨hok.1, Or.inr (Or.inl hstate)⟩
  all_goals simp [WaiterOk, hstate, ConnState.finSent] at hok

/-- Every step of one end keeps both ends linked. -/
theorem step (hab : Linked a b) (hba : Linked b a) {e : HalfEvent}
    (hfin : e = .deliver → FinExpected a) {result : Half × List TCPPacket}
    (hstep : a.step e = some result) :
    Linked result.1 (b.receive result.2) ∧ Linked (b.receive result.2) result.1 := by
  cases e with
  | build =>
    simp only [Half.step] at hstep
    split at hstep
    · rename_i hcall
      cases hstep
      rw [Half.receive_nil]
      exact hab.build hba hcall
    · contradiction
  | commit =>
    simp only [Half.step] at hstep
    split at hstep
    · rename_i packet hcall _
      cases hstep
      exact hab.commit hba hcall
    · contradiction
  | deliver =>
    simp only [Half.step] at hstep
    split at hstep
    · rename_i r rest hbox hhanding
      rw [if_neg (by simp [hab.stuck])] at hstep
      have hexpected := hfin rfl
      unfold FinExpected at hexpected
      rw [hbox] at hexpected
      rcases hab.inbox r (by rw [hbox]; exact List.mem_cons_self) with hkind | hkind
      · obtain ⟨hstate, hnums⟩ := hexpected (by rw [hkind.1]; decide)
        obtain ⟨state, htakes⟩ : ∃ state, NormalSocket.TakesFIN a.sock.state state := by
          rcases hstate with hstate | hstate <;> rw [hstate]
          · exact ⟨_, .passive⟩
          · exact ⟨_, .active⟩
        exact hab.deliver_fin hba hbox hkind htakes hnums hstep
      · exact hab.deliver_ack hba hbox hhanding hkind hstep
    · contradiction
  | handOff =>
    simp only [Half.step] at hstep
    split at hstep
    · rename_i ack want hhanding hwaiter
      cases hstep
      rw [Half.receive_nil]
      exact hab.handOff hba hhanding hwaiter
    · contradiction
  | unregister =>
    simp only [Half.step] at hstep
    split at hstep
    · rename_i ack hwaiter hhanding
      rw [if_neg (by simp [hab.unackedMtx])] at hstep
      cases hstep
      rw [Half.receive_nil]
      exact hab.unregister hba hwaiter
    · contradiction
  | advance => exact hab.advance hba hstep
  | expire =>
    simp only [Half.step] at hstep
    split at hstep
    · rename_i hstate
      cases hstep
      rw [Half.receive_nil]
      exact hab.expire hba hstate.1
    · contradiction

/-- Once both FINs were sent and nothing is on the way, an end whose goroutine cannot go on
is in TIME_WAIT or gone. -/
theorem settled (hab : Linked a b) (hba : Linked b a) (hcall : a.call = .returned)
    (hcall' : b.call = .returned) (hbox : a.inbox = []) (hbox' : b.inbox = [])
    (hstop : ∀ e ∈ [HalfEvent.handOff, .unregister, .advance], a.step e = none) :
    a.sock.state = .timeWait ∨ a.removed = true := by
  have hsent : a.sock.state.finSent = true := by
    have hok := hab.call
    rwa [hcall] at hok
  have hsent' : b.sock.state.finSent = true := by
    have hok := hba.call
    rwa [hcall'] at hok
  have hfins := hab.fins
  have hfins' := hba.fins
  have hacks := hab.acks
  rw [hbox, hsent', List.countP_nil, Nat.zero_add] at hfins
  rw [hbox', hsent, List.countP_nil, Nat.zero_add] at hfins'
  rw [hbox, hfins', List.countP_nil, Nat.zero_add] at hacks
  have hok := hab.waiter
  have hoff := hstop .handOff (by simp)
  have hunregister := hstop .unregister (by simp)
  have hadvance := hstop .advance (by simp)
  cases hwaiter : a.waiter <;> rw [hwaiter] at hok hacks
  case absent =>
    rw [hok.1] at hsent
    contradiction
  case waiting want =>
    cases hhanding : a.handing with
    | none => simp [hhanding, WaiterPc.passed] at hacks
    | some ack => simp [Half.step, hhanding, hwaiter] at hoff
  case got ack => simp [Half.step, hwaiter, hok.2.2.1, hab.unackedMtx] at hunregister
  case unregistered =>
    simp only [Half.step, hwaiter, hab.stateMtx, Bool.false_eq_true, if_false] at hadvance
    split at hadvance <;> contradiction
  case finished =>
    rcases hok.2 with ⟨hstate, -⟩ | hstate | ⟨-, hremoved⟩
    · rw [hstate] at hfins
      contradiction
    · exact Or.inl hstate
    · exact Or.inr hremoved

end Linked

def Paired (p : Teardown) : Prop := Linked p.left p.right ∧ Linked p.right p.left

theorem Paired.step {p p' : Teardown} (h : p.Paired) {e : Bool × HalfEvent} (hok : Uncrossed p e)
    (hstep : p.step e = some p') : p'.Paired := by
  obtain ⟨hleft, hright⟩ := h
  rcases e with ⟨side, e⟩
  cases side with
  | false =>
    obtain ⟨result, hnext, rfl⟩ := Option.map_eq_some_iff.mp hstep
    refine hleft.step hright ?_ hnext
    rintro rfl
    exact hok
  | true =>
    obtain ⟨result, hnext, rfl⟩ := Option.map_eq_some_iff.mp hstep
    refine (hright.step hleft ?_ hnext).symm
    rintro rfl
    exact hok

/-- In every run in which each FIN is expected, teardown does not get stuck. -/
theorem uncrossed_teardown_closes {a b : NormalSocket} (hab : Idle a b) (hba : Idle b a)
    {p : Teardown} (h : Reach step Uncrossed (start a b) p) : Closed p := by
  obtain ⟨hleft, hright⟩ := h.invariant Paired ⟨Linked.start hab hba, Linked.start hba hab⟩
    (fun _ _ _ hpaired hok hstep => hpaired.step hok hstep)
  intro hcall hcall' hquiet
  obtain ⟨hbox, hstop⟩ := hquiet p.left (by simp)
  obtain ⟨hbox', hstop'⟩ := hquiet p.right (by simp)
  intro half hmem
  rcases List.mem_pair.mp hmem with rfl | rfl
  · exact hleft.settled hright hcall hcall' hbox hbox' hstop
  · exact hright.settled hleft hcall' hcall hbox' hbox hstop'

def sampleLeft : NormalSocket := newSocket ⟨.v4 1, 80, .v4 2, 90⟩ 7 100 8

def sampleRight : NormalSocket := newSocket ⟨.v4 2, 90, .v4 1, 80⟩ 100 7 8

theorem sample_idle : Idle sampleLeft sampleRight ∧ Idle sampleRight sampleLeft :=
  ⟨⟨rfl, rfl, rfl, fun _ => rfl, rfl, rfl, rfl⟩, ⟨rfl, rfl, rfl, fun _ => rfl, rfl, rfl, rfl⟩⟩

instance (p : Teardown) : Decidable p.Quiescent :=
  inferInstanceAs (Decidable (∀ h ∈ [p.left, p.right], h.inbox = [] ∧
    ∀ e ∈ [HalfEvent.handOff, .unregister, .advance], h.step e = none))

/-- One end closes, and the other closes in CLOSE_WAIT. -/
theorem uncrossed_teardown_closes_in_turn :
    ∃ p : Teardown, p.left.sock.state = .timeWait ∧ p.right.removed = true ∧ Closed p := by
  obtain ⟨p, hreach, hleft, hright⟩ := exists_reach step Uncrossed (start sampleLeft sampleRight)
    (fun p => p.left.sock.state = .timeWait ∧ p.right.removed = true)
    [(false, .build), (false, .commit), (true, .deliver), (false, .deliver), (false, .handOff),
      (false, .unregister), (false, .advance), (true, .build), (true, .commit), (false, .deliver),
      (true, .deliver), (true, .handOff), (true, .unregister), (true, .advance)] (by decide)
  exact ⟨p, hleft, hright, uncrossed_teardown_closes sample_idle.1 sample_idle.2 hreach⟩

/-- Both ends close at the same time: each FIN arrives in FIN_WAIT_1, the state mutex is
lost and the goroutines wait for it. -/
theorem crossed_teardown_stuck :
    ¬ ∀ (a b : NormalSocket), Idle a b → Idle b a → ∀ p : Teardown,
      Reach step (fun _ _ => True) (start a b) p → Closed p := by
  intro hclaim
  obtain ⟨p, hreach, hleft, hright, hcalls, hquiet⟩ := exists_reach step (fun _ _ => True)
    (start sampleLeft sampleRight)
    (fun p => p.left.sock.state = .finWait1 ∧ p.left.removed = false ∧
      (p.left.call = .returned ∧ p.right.call = .returned) ∧ p.Quiescent)
    [(false, .build), (false, .commit), (true, .build), (true, .commit), (true, .deliver),
      (false, .deliver), (false, .deliver), (true, .deliver), (false, .handOff), (true, .handOff),
      (false, .unregister), (true, .unregister)] (by decide)
  rcases hclaim _ _ sample_idle.1 sample_idle.2 p hreach hcalls.1 hcalls.2 hquiet p.left (by simp)
    with hstate | hremoved
  · rw [hleft] at hstate
    contradiction
  · rw [hright] at hremoved
    contradiction

end Teardown

end IpTcp
