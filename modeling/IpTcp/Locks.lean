import IpTcp.LockTrace
import IpTcp.StepEffects

/-!
The mutexes of a socket. Next to each turn of ReceiverThread, of slidingWindow and
of the retransmission thread stands the sequence of its lock operations, branch by
branch. Four branches leave a mutex behind: a FIN in a state that no branch
expects, a repeated acknowledgement in the draining loop, the tenth retransmission
in a row and a restart after a probe. ReceiverThread moreover sends on its channels
with a mutex in its hands, and keeps it while nobody takes the value. In a run
without the four branches and without such a wait no mutex is ever left held, and
nobody waits for one.
-/
namespace IpTcp

open LockTrace Runs

inductive Mutex
  | unackedMtx
  | stateMtx
  | readMtx
  | winLock
  deriving DecidableEq, Repr

namespace NormalSocket

/-- The state change for a FIN. The branches that expect one unlock. -/
def finLocks (sock : NormalSocket) : List (Op Mutex) :=
  .lock .stateMtx ::
    if sock.stateMtx then []
    else match sock.state with
      | .established | .finWait2 => [.unlock .stateMtx]
      | _ => []

def drainLocks : ℕ → NormalSocket → List (Op Mutex)
  | 0, _ => []
  | fuel + 1, sock =>
      if 0 < sock.earlyPQ.size ∧ sock.topEarly.Priority ≤ sock.cumReadNXT then
        if sock.topEarly.Priority < sock.cumReadNXT then drainLocks fuel sock.popEarly
        else if sock.topEarly.Flags &&& tcpFlagFin > 0 then
          sock.finLocks ++ match sock.popEarly.acceptFIN with
            | none => []
            | some sock' => drainLocks fuel sock'
        else drainLocks fuel
          (sock.popEarly.insertPayload sock.topEarly.Priority sock.topEarly.Payload)
      else []

def drainReadLocks (sock : NormalSocket) : List (Op Mutex) :=
  sock.drainLocks sock.earlyPQ.size ++
    if (sock.drainEarly sock.earlyPQ.size).2 then [] else [.unlock .readMtx]

def dataLocks (sock : NormalSocket) (received : TCPInfo) : List (Op Mutex) :=
  if received.SeqNum > sock.cumReadNXT then []
  else .lock .readMtx ::
    if received.Flag &&& tcpFlagFin > 0 then
      sock.finLocks ++ match sock.passFIN.acceptFIN with
        | none => []
        | some sock' => sock'.drainReadLocks
    else if ringDist sock.readBuffer.LBR sock.readBuffer.NXT ≠ 0 then
      (sock.insertPayload received.SeqNum received.Payload).drainReadLocks
    else [.unlock .readMtx]

/-- A turn of ReceiverThread, up to its end or up to a channel at which it has to wait.
`finReady` tells that the goroutine of VClose is at `finChan`. -/
def receiverLocks (sock : NormalSocket) (finReady : Bool) (received : TCPInfo) :
    List (Op Mutex) :=
  if received.Flag &&& tcpFlagAck > 0 then
    .lock .unackedMtx ::
      if sock.unackedFINs received.AckNum then
        if finReady then [.unlock .unackedMtx] else []
      else if (sock.unackedNums received.AckNum).isSome ∧ received.Payload.length = 0 then
        if sock.ackChan.length < 100 then [.unlock .unackedMtx] else []
      else .unlock .unackedMtx :: sock.dataLocks received
  else []

/-- The channel that a turn of ReceiverThread sends on, if any, takes the value at once. -/
def sendReady (sock : NormalSocket) (finReady : Bool) (received : TCPInfo) : Bool :=
  if received.Flag &&& tcpFlagAck > 0 then
    if sock.unackedFINs received.AckNum then finReady
    else if (sock.unackedNums received.AckNum).isSome ∧ received.Payload.length = 0 then
      sock.ackChan.length < 100
    else true
  else true

def closeLocks (sock : NormalSocket) : List (Op Mutex) :=
  .lock .stateMtx ::
    (match sock.state with
      | .established | .closeWait => [.lock .unackedMtx, .unlock .unackedMtx]
      | _ => []) ++ [.unlock .stateMtx]

/-- The FINs that the loop over the early packets takes, counted along the queue. -/
def dueFINs : ℕ → Array EarlyPacket → UInt32 → ℕ
  | 0, _, _ => 0
  | fuel + 1, earlyPQ, cumReadNXT =>
      let top := earlyPQ.getD 0 default
      let rest := (ContainerHeap.pop EarlyPacket.rank earlyPQ).2
      if 0 < earlyPQ.size ∧ top.Priority ≤ cumReadNXT then
        if top.Priority < cumReadNXT then dueFINs fuel rest cumReadNXT
        else if top.Flags &&& tcpFlagFin > 0 then dueFINs fuel rest cumReadNXT + 1
        else dueFINs fuel rest (top.Priority + UInt32.ofNat top.Payload.length)
      else 0

/-- The FINs that come in with a segment that was not recognised as an acknowledgement: its
own, and those of early packets that have become due. -/
def dataFINs (sock : NormalSocket) (received : TCPInfo) : ℕ :=
  if received.SeqNum > sock.cumReadNXT then 0
  else if received.Flag &&& tcpFlagFin > 0 then
    dueFINs sock.earlyPQ.size sock.earlyPQ (sock.cumReadNXT + 1) + 1
  else if ringDist sock.readBuffer.LBR sock.readBuffer.NXT ≠ 0 then
    dueFINs sock.earlyPQ.size sock.earlyPQ (received.SeqNum + UInt32.ofNat received.Payload.length)
  else 0

def finsTaken (sock : NormalSocket) (received : TCPInfo) : ℕ :=
  if received.Flag &&& tcpFlagAck > 0 then
    if sock.unackedFINs received.AckNum then 0
    else if (sock.unackedNums received.AckNum).isSome ∧ received.Payload.length = 0 then 0
    else sock.dataFINs received
  else 0

end NormalSocket

namespace ConnState

def expectsFIN (state : ConnState) : Prop := state = .established ∨ state = .finWait2

instance (state : ConnState) : Decidable state.expectsFIN := inferInstanceAs (Decidable (_ ∨ _))

def Fits (state : ConnState) (fins : ℕ) : Prop := fins = 0 ∨ fins = 1 ∧ state.expectsFIN

instance (state : ConnState) (fins : ℕ) : Decidable (state.Fits fins) :=
  inferInstanceAs (Decidable (_ ∨ _ ∧ _))

end ConnState

namespace NormalSocket

variable {sock sock' : NormalSocket} {held : List Mutex}

theorem finLocks_expected (hmtx : sock.stateMtx = false) (hstate : sock.state.expectsFIN) :
    sock.finLocks = [.lock .stateMtx, .unlock .stateMtx] := by
  unfold finLocks
  rcases hstate with hstate | hstate <;> simp [hmtx, hstate]

theorem finLocks_unexpected (hstate : ¬ sock.state.expectsFIN) :
    sock.finLocks = [.lock .stateMtx] := by
  unfold finLocks
  unfold ConnState.expectsFIN at hstate
  split
  · rfl
  · split <;> simp_all

/-- A FIN that is expected moves on to a state in which none is. -/
theorem acceptFIN_expected (hmtx : sock.stateMtx = false) (hstate : sock.state.expectsFIN) :
    ∃ state, ¬ state.expectsFIN ∧ sock.acceptFIN = some { sock with state := state } := by
  unfold acceptFIN
  rcases hstate with hstate | hstate
  · exact ⟨.closeWait, by decide, by simp [hmtx, hstate]⟩
  · exact ⟨.timeWait, by decide, by simp [hmtx, hstate]⟩

theorem acceptFIN_unexpected (hmtx : sock.stateMtx = false) (hstate : ¬ sock.state.expectsFIN) :
    sock.acceptFIN = some { sock with stateMtx := true } := by
  unfold acceptFIN
  unfold ConnState.expectsFIN at hstate
  rw [if_neg (by simp [hmtx])]
  split <;> simp_all

/-- A turn of the loop over the early packets: its end, a packet that leaves the state
alone, or a FIN. -/
inductive DrainTurn (fuel : ℕ) (sock : NormalSocket) : Prop
  | stop : sock.drainLocks (fuel + 1) = [] → sock.drainEarly (fuel + 1) = (sock, false) →
      dueFINs (fuel + 1) sock.earlyPQ sock.cumReadNXT = 0 → DrainTurn fuel sock
  | pass (sock' : NormalSocket) : sock'.state = sock.state → sock'.stateMtx = sock.stateMtx →
      sock.drainLocks (fuel + 1) = sock'.drainLocks fuel →
      sock.drainEarly (fuel + 1) = sock'.drainEarly fuel →
      dueFINs (fuel + 1) sock.earlyPQ sock.cumReadNXT =
        dueFINs fuel sock'.earlyPQ sock'.cumReadNXT → DrainTurn fuel sock
  | fin : sock.drainLocks (fuel + 1) = sock.finLocks ++
        (sock.popEarly.acceptFIN.map (fun sock' => sock'.drainLocks fuel)).getD [] →
      sock.drainEarly (fuel + 1) =
        (sock.popEarly.acceptFIN.map (fun sock' => sock'.drainEarly fuel)).getD
          (sock.popEarly, true) →
      dueFINs (fuel + 1) sock.earlyPQ sock.cumReadNXT =
        dueFINs fuel sock.popEarly.earlyPQ sock.popEarly.cumReadNXT + 1 → DrainTurn fuel sock

theorem drainTurn (fuel : ℕ) (sock : NormalSocket) : DrainTurn fuel sock := by
  by_cases hdue : 0 < sock.earlyPQ.size ∧ sock.topEarly.Priority ≤ sock.cumReadNXT
  · by_cases hbehind : sock.topEarly.Priority < sock.cumReadNXT
    · refine .pass sock.popEarly rfl rfl ?_ (drainEarly_old fuel hdue.1 hbehind) ?_
      · rw [drainLocks, if_pos hdue, if_pos hbehind]
      · exact (if_pos hdue).trans (if_pos hbehind)
    · have hseq : sock.topEarly.Priority = sock.cumReadNXT :=
        UInt32.le_antisymm hdue.2 (UInt32.not_lt.mp hbehind)
      by_cases hfin : sock.topEarly.Flags &&& tcpFlagFin > 0
      · refine .fin ?_ (drainEarly_fin fuel hdue.1 hseq hfin) ?_
        · rw [drainLocks, if_pos hdue, if_neg hbehind, if_pos hfin]
          cases sock.popEarly.acceptFIN <;> rfl
        · exact (if_pos hdue).trans ((if_neg hbehind).trans (if_pos hfin))
      · refine .pass (sock.popEarly.insertPayload sock.topEarly.Priority sock.topEarly.Payload)
          rfl rfl ?_ ?_ ?_
        · rw [drainLocks, if_pos hdue, if_neg hbehind, if_neg hfin]
        · rw [drainEarly_data fuel hdue.1 hseq hfin, ← hseq]
        · exact (if_pos hdue).trans ((if_neg hbehind).trans (if_neg hfin))
  · refine .stop ?_ (drainEarly_stop _ hdue) (if_neg hdue)
    rw [drainLocks, if_neg hdue]

/-- Behind a FIN that was not expected, nobody unlocks the state any more. -/
theorem unlock_notMem_drainLocks (fuel : ℕ) (hmtx : sock.stateMtx = true) :
    .unlock .stateMtx ∉ sock.drainLocks fuel := by
  induction fuel generalizing sock with
  | zero => exact List.not_mem_nil
  | succ fuel ih =>
    cases drainTurn fuel sock with
    | stop hlocks => simp [hlocks]
    | pass sock' hstate hmtx' hlocks =>
      rw [hlocks]
      exact ih (hmtx'.trans hmtx)
    | fin hlocks =>
      have hnone : sock.popEarly.acceptFIN = none := if_pos hmtx
      have hfin : sock.finLocks = [.lock .stateMtx] := by rw [finLocks, if_pos hmtx]
      rw [hlocks, hnone, hfin]
      simp

/-- The loop over the early packets, when the FINs that it takes fit the state. -/
theorem drain_fits (fuel : ℕ) (hmtx : sock.stateMtx = false) (hheld : .stateMtx ∉ held)
    (hfits : sock.state.Fits (dueFINs fuel sock.earlyPQ sock.cumReadNXT)) :
    heldAfter held (sock.drainLocks fuel) = some held ∧ (sock.drainEarly fuel).2 = false ∧
      (sock.drainEarly fuel).1.stateMtx = false := by
  induction fuel generalizing sock with
  | zero => exact ⟨rfl, rfl, hmtx⟩
  | succ fuel ih =>
    cases drainTurn fuel sock with
    | stop hlocks hearly =>
      rw [hlocks, hearly]
      exact ⟨rfl, rfl, hmtx⟩
    | pass sock' hstate hmtx' hlocks hearly hfins =>
      rw [hfins, ← hstate] at hfits
      rw [hlocks, hearly]
      exact ih (hmtx'.trans hmtx) hfits
    | fin hlocks hearly hfins =>
      rw [hfins] at hfits
      rcases hfits with hzero | ⟨hone, hstate⟩
      · contradiction
      · obtain ⟨state, -, hnext⟩ :=
          acceptFIN_expected (show sock.popEarly.stateMtx = false from hmtx) hstate
        rw [hlocks, hearly, hnext, finLocks_expected hmtx hstate]
        obtain ⟨hrest, hend⟩ := @ih { sock.popEarly with state := state } hmtx
          (Or.inl (Nat.succ_injective hone))
        exact ⟨(heldAfter_section hheld).trans hrest, hend⟩

/-- Otherwise it ends with the state locked, if it ends. -/
theorem drain_leaks (fuel : ℕ) (hmtx : sock.stateMtx = false) (hheld : .stateMtx ∉ held)
    (hfits : ¬ sock.state.Fits (dueFINs fuel sock.earlyPQ sock.cumReadNXT)) {held' : List Mutex}
    (hhold : heldAfter held (sock.drainLocks fuel) = some held') : .stateMtx ∈ held' := by
  induction fuel generalizing sock with
  | zero => exact absurd (Or.inl rfl) hfits
  | succ fuel ih =>
    cases drainTurn fuel sock with
    | stop hlocks hearly hfins =>
      rw [hfins] at hfits
      exact absurd (Or.inl rfl) hfits
    | pass sock' hstate hmtx' hlocks hearly hfins =>
      rw [hfins, ← hstate] at hfits
      rw [hlocks] at hhold
      exact ih (hmtx'.trans hmtx) hfits hhold
    | fin hlocks hearly hfins =>
      rw [hlocks] at hhold
      have hpop : sock.popEarly.stateMtx = false := hmtx
      by_cases hstate : sock.state.expectsFIN
      · obtain ⟨state, hnot, hnext⟩ := acceptFIN_expected hpop hstate
        rw [hnext, finLocks_expected hmtx hstate] at hhold
        refine @ih { sock.popEarly with state := state } hmtx ?_
          ((heldAfter_section hheld).symm.trans hhold)
        rintro (hzero | ⟨-, hexpects⟩)
        · refine hfits (Or.inr ⟨?_, hstate⟩)
          rw [hfins]
          exact congrArg Nat.succ hzero
        · exact hnot hexpects
      · rw [acceptFIN_unexpected hpop hstate, finLocks_unexpected hstate] at hhold
        refine mem_heldAfter List.mem_cons_self ?_ ((heldAfter_lock hheld).symm.trans hhold)
        exact unlock_notMem_drainLocks fuel rfl

/-- The early packets and the reply, when the FINs fit. -/
theorem drainAndReply_fits (received : TCPInfo) (hmtx : sock.stateMtx = false)
    (hfits : sock.state.Fits (dueFINs sock.earlyPQ.size sock.earlyPQ sock.cumReadNXT)) :
    heldAfter [.readMtx] sock.drainReadLocks = some [] ∧
      (sock.drainAndReply received).1.stateMtx = false ∧
      (sock.drainAndReply received).2 ≠ .blocked := by
  have hheld : Mutex.stateMtx ∉ [Mutex.readMtx] := by decide
  obtain ⟨hlocks, hflag, hend⟩ := drain_fits sock.earlyPQ.size hmtx hheld hfits
  unfold drainReadLocks drainAndReply
  simp only [heldAfter_append, hlocks, hflag, Bool.false_eq_true, if_false]
  exact ⟨rfl, hend, by simp⟩

theorem drainReadLocks_leaks (hmtx : sock.stateMtx = false)
    (hfits : ¬ sock.state.Fits (dueFINs sock.earlyPQ.size sock.earlyPQ sock.cumReadNXT)) :
    heldAfter [.readMtx] sock.drainReadLocks ≠ some [] := by
  intro hhold
  unfold drainReadLocks at hhold
  rw [heldAfter_append] at hhold
  obtain ⟨held, hlocks, hrest⟩ := Option.bind_eq_some_iff.mp hhold
  have hmem := drain_leaks sock.earlyPQ.size hmtx (by decide) hfits hlocks
  have hend := mem_heldAfter hmem (by split <;> simp) hrest
  exact List.not_mem_nil hend

theorem fits_succ {state : ConnState} {fins : ℕ} :
    state.Fits (fins + 1) ↔ fins = 0 ∧ state.expectsFIN := by
  unfold ConnState.Fits
  simp

/-- A segment that was not recognised as an acknowledgement, when the FINs fit. -/
theorem receiveData_fits (received : TCPInfo) (hmtx : sock.stateMtx = false)
    (hfits : sock.state.Fits (sock.dataFINs received)) :
    heldAfter [] (sock.dataLocks received) = some [] ∧
      (sock.receiveData received).1.stateMtx = false ∧
      (sock.receiveData received).2 ≠ .blocked := by
  unfold dataFINs at hfits
  unfold dataLocks receiveData
  split at hfits
  · rename_i hearly
    rw [if_pos hearly, if_pos hearly]
    exact ⟨rfl, hmtx, by simp⟩
  · rename_i hearly
    rw [if_neg hearly, if_neg hearly, heldAfter_lock List.not_mem_nil]
    split at hfits
    · rename_i hfin
      rw [if_pos hfin, if_pos hfin]
      obtain ⟨hzero, hstate⟩ := fits_succ.mp hfits
      obtain ⟨state, -, hnext⟩ :=
        acceptFIN_expected (show sock.passFIN.stateMtx = false from hmtx) hstate
      rw [hnext, finLocks_expected hmtx hstate]
      obtain ⟨hlocks, hend⟩ :=
        @drainAndReply_fits { sock.passFIN with state := state } received hmtx (Or.inl hzero)
      exact ⟨(heldAfter_section (by decide)).trans hlocks, hend⟩
    · rename_i hfin
      rw [if_neg hfin, if_neg hfin]
      split at hfits
      · rename_i hroom
        rw [if_pos hroom, if_pos hroom]
        exact drainAndReply_fits received hmtx hfits
      · rename_i hroom
        rw [if_neg hroom, if_neg hroom]
        exact ⟨rfl, hmtx, by simp⟩

theorem dataLocks_leaks (received : TCPInfo) (hmtx : sock.stateMtx = false)
    (hfits : ¬ sock.state.Fits (sock.dataFINs received)) :
    heldAfter [] (sock.dataLocks received) ≠ some [] := by
  unfold dataFINs at hfits
  unfold dataLocks
  split at hfits
  · exact absurd (Or.inl rfl) hfits
  · rename_i hearly
    rw [if_neg hearly, heldAfter_lock List.not_mem_nil]
    split at hfits
    · rename_i hfin
      rw [if_pos hfin]
      have hpass : sock.passFIN.stateMtx = false := hmtx
      by_cases hstate : sock.state.expectsFIN
      · obtain ⟨state, hnot, hnext⟩ := acceptFIN_expected hpass hstate
        rw [hnext, finLocks_expected hmtx hstate]
        intro hhold
        refine @drainReadLocks_leaks { sock.passFIN with state := state } hmtx ?_
          ((heldAfter_section (by decide)).symm.trans hhold)
        rintro (hzero | ⟨-, hexpects⟩)
        · exact hfits (fits_succ.mpr ⟨hzero, hstate⟩)
        · exact hnot hexpects
      · rw [acceptFIN_unexpected hpass hstate, finLocks_unexpected hstate]
        intro hhold
        have hkept : .unlock Mutex.stateMtx ∉
            ({ sock.passFIN with stateMtx := true } : NormalSocket).drainReadLocks := by
          simp only [drainReadLocks, List.mem_append, not_or]
          exact ⟨unlock_notMem_drainLocks _ rfl, by split <;> simp⟩
        have hend := mem_heldAfter List.mem_cons_self hkept
          ((heldAfter_lock (by decide)).symm.trans hhold)
        exact List.not_mem_nil hend
    · rename_i hfin
      rw [if_neg hfin]
      split at hfits
      · rename_i hroom
        rw [if_pos hroom]
        exact drainReadLocks_leaks hmtx hfits
      · exact absurd (Or.inl rfl) hfits

/-- A turn of ReceiverThread releases its locks exactly when it does not wait at a channel
and the FINs that it takes fit. -/
theorem receiverLocks_released (finReady : Bool) (received : TCPInfo)
    (hmtx : sock.stateMtx = false) :
    heldAfter [] (sock.receiverLocks finReady received) = some [] ↔
      sock.sendReady finReady received = true ∧ sock.state.Fits (sock.finsTaken received) := by
  unfold receiverLocks sendReady finsTaken
  split
  · split
    · cases finReady with
      | true => exact iff_of_true rfl ⟨rfl, Or.inl rfl⟩
      | false => simp [heldAfter]
    · split
      · by_cases hroom : sock.ackChan.length < 100
        · rw [if_pos hroom]
          exact iff_of_true rfl ⟨decide_eq_true hroom, Or.inl rfl⟩
        · simp [hroom, heldAfter]
      · rw [heldAfter_section List.not_mem_nil]
        constructor
        · intro hhold
          refine ⟨rfl, ?_⟩
          by_contra hfits
          exact dataLocks_leaks received hmtx hfits hhold
        · intro hready
          exact (receiveData_fits received hmtx hready.2).1
  · exact iff_of_true rfl ⟨rfl, Or.inl rfl⟩

/-- A value that is not taken at once is the number of a FIN or goes to a full `ackChan`. -/
theorem dispatch_ready {finReady : Bool} {received : TCPInfo}
    (hready : sock.sendReady finReady received = true) :
    ((sock.dispatch received).2 = .toAckChan → sock.ackChan.length < 100) ∧
      ∀ ack, (sock.dispatch received).2 = .toFinChan ack → finReady = true := by
  unfold sendReady at hready
  unfold dispatch
  split at hready
  · rename_i hack
    rw [if_pos hack]
    split
    · exact ⟨by simp, by simp⟩
    · split at hready
      · rename_i hfin
        rw [if_pos hfin]
        exact ⟨by simp, fun _ _ => hready⟩
      · rename_i hfin
        rw [if_neg hfin]
        split at hready
        · rename_i hnum
          rw [if_pos hnum]
          exact ⟨fun _ => of_decide_eq_true hready, by simp⟩
        · rename_i hnum
          rw [if_neg hnum]
          obtain ⟨hack, hfin⟩ := sock.receiveData_noSend received
          exact ⟨fun h => absurd h hack, fun ack h => absurd h (hfin ack)⟩
  · rename_i hack
    rw [if_neg hack]
    exact ⟨by simp, by simp⟩

/-- Such a turn leaves the state unlocked and does not wait. -/
theorem dispatch_fits (received : TCPInfo) (hstate : sock.stateMtx = false)
    (hmtx : sock.unackedMtx = false) (hfits : sock.state.Fits (sock.finsTaken received)) :
    (sock.dispatch received).1.stateMtx = false ∧ (sock.dispatch received).2 ≠ .blocked := by
  unfold finsTaken at hfits
  unfold dispatch
  rw [hmtx]
  split at hfits
  · rename_i hack
    rw [if_pos hack, if_neg (by decide)]
    split at hfits
    · rename_i hfin
      rw [if_pos hfin]
      exact ⟨hstate, by simp⟩
    · rename_i hfin
      rw [if_neg hfin]
      split at hfits
      · rename_i hnum
        rw [if_pos hnum]
        exact ⟨hstate, by simp⟩
      · rename_i hnum
        rw [if_neg hnum]
        exact (receiveData_fits received hstate hfits).2
  · rename_i hack
    rw [if_neg hack]
    exact ⟨hstate, by simp⟩

end NormalSocket

namespace WindowCall

/-- What the thread that runs slidingWindow holds between two steps. -/
def held (call : WindowCall) : List Mutex :=
  match call.pc with
  | .top | .done => []
  | _ => [.winLock]

def runLocks (sock : NormalSocket) (call : WindowCall) : List (Op Mutex) :=
  match call.pc with
  | .top => if call.bytesSent < call.payloadSize then [.lock .winLock] else []
  | .probeSend | .sending => [.lock .unackedMtx, .unlock .unackedMtx]
  | .drain =>
      match sock.ackChan with
      | [] => [.unlock .winLock]
      | received :: _ =>
          .lock .unackedMtx ::
            if (sock.unackedNums received.AckNum).getD 0 = 0 then [.unlock .unackedMtx] else []
  | _ => []

def resendLocks (sock : NormalSocket) (call : WindowCall) (k : ℕ) : List (Op Mutex) :=
  match call.nodes[k]? with
  | none => [.unlock .winLock]
  | some node =>
      if node.sent ∧ (if call.last_index = node.index then call.cnt + 1 else 1) = 10
      then sock.closeLocks else [.unlock .winLock]

def tickLocks (sock : NormalSocket) (call : WindowCall) : List (Op Mutex) :=
  .lock .winLock ::
    if sock.ClientWindowSize > 0 then
      match call.head with
      | none => [.unlock .winLock]
      | some k =>
          if expectedAckAt call.nodes k ≠ 0 then call.resendLocks sock (k - 1)
          else [.unlock .winLock]
    else [.unlock .winLock]

/-- The retransmission thread is about to resend one node for the tenth time in a row. -/
def Tenth (sock : NormalSocket) (call : WindowCall) : Prop :=
  sock.ClientWindowSize > 0 ∧ call.cnt = 9 ∧
    ∃ k ∈ call.head, expectedAckAt call.nodes k ≠ 0 ∧
      ∃ node ∈ call.nodes[k - 1]?, node.sent ∧ node.index = call.last_index

instance (sock : NormalSocket) (call : WindowCall) : Decidable (call.Tenth sock) :=
  inferInstanceAs (Decidable (_ ∧ _ ∧ _))

/-- The next acknowledgement in the draining loop was not counted before. A probe is not
answered while the first node is empty and bytes are left. -/
def CleanAt (sock : NormalSocket) (call : WindowCall) : SlidePc → Prop
  | .drain => ∀ received ∈ sock.ackChan.head?, (sock.unackedNums received.AckNum).getD 0 = 0
  | .probing _ expectedAck =>
      ∀ received ∈ sock.ackChan.head?, received.AckNum = expectedAck → received.WindowSize > 0 →
        call.firstNode.packet.payload.length = 0 → call.packet.payload = []
  | _ => True

instance (sock : NormalSocket) (call : WindowCall) (pc : SlidePc) :
    Decidable (call.CleanAt sock pc) :=
  match pc with
  | .drain => inferInstanceAs (Decidable (∀ received ∈ sock.ackChan.head?, _))
  | .probing _ _ => inferInstanceAs (Decidable (∀ received ∈ sock.ackChan.head?, _ → _ → _ → _))
  | .top | .probeTest | .probeSend | .normal | .sending | .debit _ | .allocate _ | .zeroTest
  | .done | .blocked | .panicked => .isTrue trivial

variable {sock : NormalSocket} {call : WindowCall}

/-- The restart is the one way in which an answered probe gives up the lock's window. -/
theorem probeAcked_clean (sock : NormalSocket) (received : TCPInfo)
    (hclean : call.firstNode.packet.payload.length = 0 → call.packet.payload = [])
    (hwin : call.winLock = false) :
    (call.probeAcked sock received).1.unackedMtx = sock.unackedMtx ∧
      (call.probeAcked sock received).2.held = [.winLock] ∧
      (call.probeAcked sock received).2.pc ≠ .blocked ∧
      (call.probeAcked sock received).2.winLock = false := by
  unfold probeAcked
  simp only
  split
  · rename_i hempty
    rw [hclean hempty]
    exact ⟨rfl, rfl, by simp, hwin⟩
  · refine ⟨rfl, rfl, by simp, ?_⟩
    unfold updatePacket
    split <;> exact hwin

theorem processAck_locks (sock : NormalSocket) (received : TCPInfo) :
    (call.processAck sock received).1.unackedMtx = sock.unackedMtx ∧
      (call.processAck sock received).2.winLock = call.winLock := by
  unfold processAck
  simp only
  split <;> exact ⟨rfl, rfl⟩

/-- A step of slidingWindow without a repeated acknowledgement and without a restart. -/
theorem Step.clean {result : NormalSocket × WindowCall × List Emission}
    (hstep : call.Step sock result) (hmtx : sock.unackedMtx = false) (hwin : call.winLock = false)
    (hclean : call.CleanAt sock call.pc) :
    result.1.unackedMtx = false ∧ result.2.1.pc ≠ .blocked ∧ result.2.1.winLock = false ∧
      heldAfter call.held (call.runLocks sock) = some result.2.1.held := by
  cases hstep with
  | enter hpc hmore =>
    exact ⟨hmtx, by simp [goto], hwin, by simp [held, runLocks, goto, hpc, hmore, heldAfter]⟩
  | leave hpc hdone =>
    exact ⟨hmtx, by simp [goto], hwin, by
      simp [held, runLocks, goto, hpc, Nat.not_lt.mpr hdone, heldAfter]⟩
  | closed hpc | skip hpc | crash hpc | choose k hpc | hold hpc | windowOpen hpc =>
    exact ⟨hmtx, by simp [goto], hwin, by simp [held, runLocks, goto, hpc, heldAfter]⟩
  | windowZero hpc => exact ⟨hmtx, by simp, hwin, by simp [held, runLocks, hpc, heldAfter]⟩
  | debit expectedAck hpc =>
    exact ⟨hmtx, by simp [goto], hwin, by simp [held, runLocks, goto, hpc, heldAfter]⟩
  | probeBlocked hpc hblocked | sendBlocked hpc hblocked | ackBlocked _ _ hpc _ hblocked =>
    rw [hmtx] at hblocked
    contradiction
  | probe probe expectedAck hpc =>
    exact ⟨hmtx, by simp [goto], hwin, by simp [held, runLocks, goto, hpc, heldAfter]⟩
  | send expectedAck hpc =>
    exact ⟨hmtx, by simp [markSent], hwin, by simp [held, runLocks, markSent, hpc, heldAfter]⟩
  | allocate expectedAck hpc =>
    unfold allocateNext
    simp only
    split
    · exact ⟨hmtx, by simp, hwin, by simp [held, runLocks, hpc, heldAfter]⟩
    · exact ⟨hmtx, by simp, hwin, by simp [held, runLocks, hpc, heldAfter]⟩
  | probeAcked probe received more hpc hchan hopen =>
    rw [hpc] at hclean
    obtain ⟨hkeep, hheld, hblocked, hlock⟩ :=
      probeAcked_clean { sock with ackChan := more } received
        (hclean received (by simp [hchan]) rfl hopen) hwin
    refine ⟨hkeep.trans hmtx, hblocked, hlock, ?_⟩
    simp only [hheld]
    simp [held, runLocks, hpc, heldAfter]
  | probeOn probe expectedAck received more hpc =>
    exact ⟨hmtx, by simp [hpc], hwin, by simp [held, runLocks, hpc, heldAfter]⟩
  | drained hpc hchan =>
    exact ⟨hmtx, by simp [goto], hwin, by simp [held, runLocks, goto, hpc, hchan, heldAfter]⟩
  | ack received more hpc hchan _ hzero =>
    obtain ⟨hkeep, hlock⟩ := call.processAck_locks { sock with ackChan := more } received
    refine ⟨hkeep.trans hmtx, by simp [hpc], hlock.trans hwin, ?_⟩
    simp [held, runLocks, hpc, hchan, hzero, heldAfter]
  | repeated received more hpc hchan _ hcount =>
    rw [hpc] at hclean
    exact absurd (hclean received (by simp [hchan])) hcount

/-- Otherwise a mutex is left behind. -/
theorem run_leaks {result : NormalSocket × WindowCall × List Emission}
    (hrun : call.run sock = some result) (hclean : ¬ call.CleanAt sock call.pc) :
    heldAfter call.held (call.runLocks sock) ≠ some result.2.1.held := by
  cases hpc : call.pc with
  | drain =>
    rw [hpc] at hclean
    cases hchan : sock.ackChan with
    | nil => exact absurd (by simp [CleanAt, hchan]) hclean
    | cons received more =>
      have hcount : (sock.unackedNums received.AckNum).getD 0 ≠ 0 := by
        simpa [CleanAt, hchan] using hclean
      have hlocks : heldAfter call.held (call.runLocks sock) = some [.unackedMtx, .winLock] := by
        simp [held, runLocks, hpc, hchan, hcount, heldAfter]
      rw [hlocks]
      unfold held
      split <;> simp
  | probing probe expectedAck =>
    rw [hpc] at hclean
    cases hchan : sock.ackChan with
    | nil => exact absurd (by simp [CleanAt, hchan]) hclean
    | cons received more =>
      simp only [CleanAt, hchan, List.head?_cons, Option.mem_some_iff, forall_eq',
        Classical.not_imp] at hclean
      obtain ⟨hack, hopen, hempty, hrest⟩ := hclean
      simp only [run, hpc, hchan, if_pos (And.intro hack hopen), probeAcked, if_pos hempty] at hrun
      cases hpayload : call.packet.payload with
      | nil => exact absurd hpayload hrest
      | cons b rest =>
        rw [hpayload] at hrun
        cases hrun
        simp [held, runLocks, hpc, heldAfter, NormalSocket.slidingWindow]
  | _ =>
    rw [hpc] at hclean
    exact absurd trivial hclean

theorem resendLocks_released (k : ℕ) :
    heldAfter [.winLock] (call.resendLocks sock k) = some [] ↔
      ¬ (call.cnt = 9 ∧ ∃ node ∈ call.nodes[k]?, node.sent ∧ node.index = call.last_index) := by
  have hclose : heldAfter [.winLock] sock.closeLocks ≠ some [] := by
    intro hhold
    have hkept : .unlock Mutex.winLock ∉ sock.closeLocks := by
      unfold NormalSocket.closeLocks
      split <;> simp
    exact List.not_mem_nil (mem_heldAfter List.mem_cons_self hkept hhold)
  unfold resendLocks
  cases hnode : call.nodes[k]? with
  | none => simp [heldAfter]
  | some node =>
    by_cases hindex : call.last_index = node.index
    · by_cases hten : node.sent ∧ call.cnt = 9
      · simp [hindex, hten, hclose]
      · have hother : ¬ (call.cnt = 9 ∧ node.sent = true) := fun h => hten h.symm
        simp [hindex, hten, hother, heldAfter]
    · have hother : ¬ node.index = call.last_index := fun h => hindex h.symm
      simp [hindex, hother, heldAfter]

/-- A tick releases the lock unless the thread gives up. -/
theorem tickLocks_released :
    heldAfter [] (call.tickLocks sock) = some [] ↔ ¬ call.Tenth sock := by
  unfold tickLocks Tenth
  rw [heldAfter_lock List.not_mem_nil]
  split
  · rename_i hopen
    cases hhead : call.head with
    | none => simp [heldAfter]
    | some k =>
      by_cases hdummy : expectedAckAt call.nodes k ≠ 0
      · simp [hdummy, hopen, resendLocks_released]
      · simp [hdummy, heldAfter]
  · rename_i hclosed
    simp [hclosed, heldAfter]

/-- A tick that does not give up changes no mutex and leaves the thread alive. -/
theorem tick_clean {result : NormalSocket × WindowCall × List Emission}
    (htick : call.tick sock = some result) (htenth : ¬ call.Tenth sock)
    (hwin : call.winLock = false) :
    result.1 = sock ∧ result.2.1.pc = call.pc ∧ result.2.1.winLock = false := by
  have hupdate : ∀ k f, (call.updatePacket k f).pc = call.pc ∧
      (call.updatePacket k f).winLock = false := by
    intro k f
    unfold updatePacket
    split <;> exact ⟨rfl, hwin⟩
  obtain ⟨-, rfl | ⟨hopen, k, hhead, ⟨hdummy, rfl⟩ | ⟨-, rfl⟩⟩⟩ := tick_cases htick
  · exact ⟨rfl, rfl, hwin⟩
  · unfold resend
    cases hnode : call.nodes[k - 1]? with
    | none => exact ⟨rfl, rfl, hwin⟩
    | some node =>
      simp only
      split
      · rename_i hsent
        have hten : (if call.last_index = node.index then call.cnt + 1 else 1) ≠ 10 := by
          intro hten
          split at hten
          · rename_i hindex
            exact htenth ⟨hopen, Nat.succ_injective hten, k, hhead, hdummy, node, hnode,
              hsent, hindex.symm⟩
          · contradiction
        rw [if_neg hten]
        exact ⟨rfl, hupdate _ _⟩
      · exact ⟨rfl, rfl, hwin⟩
  · unfold resendFirst
    split
    · exact ⟨rfl, rfl, hwin⟩
    · split
      · exact ⟨rfl, hupdate _ _⟩
      · exact ⟨rfl, rfl, hwin⟩

end WindowCall

namespace NormalSocket

structure Free (sock : NormalSocket) : Prop where
  unackedMtx : sock.unackedMtx = false
  stateMtx : sock.stateMtx = false

theorem Free.copyChunk {sock sock' : NormalSocket} {call call' : WriteCall} {space : UInt32}
    (h : sock.Free) (hcopy : sock.copyChunk call space = some (sock', call')) : sock'.Free := by
  simp only [NormalSocket.copyChunk, Option.bind_eq_bind, Option.bind_eq_some_iff] at hcopy
  obtain ⟨_, -, _, -, _, -, _, -, hend⟩ := hcopy
  cases hend
  exact ⟨h.unackedMtx, h.stateMtx⟩

theorem Free.writerStep {w w' : Pipe} {e : PipeEvent} (h : w.sock.Free)
    (hstep : w.writerStep e = some w') : w'.sock.Free := by
  unfold Pipe.writerStep at hstep
  split at hstep
  · split at hstep
    · split at hstep
      · contradiction
      · cases hstep
        exact h
    · contradiction
  · split at hstep
    · split at hstep
      · cases hstep
        exact ⟨h.unackedMtx, h.stateMtx⟩
      · cases hstep
        exact h
    · contradiction
  · split at hstep
    · split at hstep
      · cases hstep
        exact h
      · rename_i hcopy
        cases hstep
        exact h.copyChunk hcopy
    · contradiction
  · contradiction

theorem Free.noteWindow {sock : NormalSocket} (h : sock.Free) (received : TCPInfo) :
    (sock.noteWindow received).Free := by
  unfold NormalSocket.noteWindow
  split
  · exact ⟨h.unackedMtx, h.stateMtx⟩
  · exact h

theorem Free.finAcked {sock : NormalSocket} (h : sock.Free) (ack : UInt32) :
    (sock.finAcked ack).Free := by
  unfold NormalSocket.finAcked
  simp only
  split
  · exact ⟨h.unackedMtx, h.stateMtx⟩
  · split <;> exact ⟨h.unackedMtx, h.stateMtx⟩

theorem Free.vRead {sock : NormalSocket} (h : sock.Free) (numbytes : UInt16) :
    (sock.vRead numbytes).1.Free := by
  unfold NormalSocket.vRead
  split
  · exact h
  · split
    · exact h
    · split
      · exact h
      · exact ⟨h.unackedMtx, h.stateMtx⟩

theorem Free.commitClose {sock : NormalSocket} (h : sock.Free) (packet : TCPPacket) :
    (sock.commitClose packet).1.Free := by
  unfold NormalSocket.commitClose
  rw [if_neg (by simp [h.stateMtx])]
  simp only
  split
  · exact h
  · rw [if_neg (by simp [h.unackedMtx])]
    exact ⟨h.unackedMtx, h.stateMtx⟩

end NormalSocket

namespace Endpoint

/-- No thread went on with a mutex held, and none waits for one. -/
structure Unlocked (p : Endpoint) : Prop where
  sock : p.sock.Free
  receiver : p.stuck = false
  sender : ∀ call, p.sender = .sliding call → call.winLock = false ∧ call.pc ≠ .blocked

def callOf : SendPc → Option WindowCall
  | .sliding call => some call
  | _ => none

/-- The thread of a step holds after it what it held before: nothing, except for the lock of
the window inside the loop of slidingWindow. -/
def Releases (p p' : Endpoint) : EndpointEvent → Prop
  | .dispatch => ∀ received ∈ p.arriving,
      heldAfter [] (p.sock.receiverLocks p.finAck.isNone received) = some []
  | .run => ∀ call ∈ callOf p.sender, ∀ call' ∈ callOf p'.sender,
      heldAfter call.held (call.runLocks p.sock) = some call'.held
  | .tick => ∀ call ∈ callOf p.sender, heldAfter [] (call.tickLocks p.sock) = some []
  | _ => True

/-- A turn of ReceiverThread waits at no channel and takes at most one FIN, where it is
expected, slidingWindow takes no repeated acknowledgement off the channel and does not start
again, and no node is resent for the tenth time in a row. -/
def Regular (p : Endpoint) : EndpointEvent → Prop
  | .dispatch => ∀ received ∈ p.arriving,
      p.sock.sendReady p.finAck.isNone received = true ∧
        p.sock.state.Fits (p.sock.finsTaken received)
  | .run => ∀ call ∈ callOf p.sender, call.CleanAt p.sock call.pc
  | .tick => ∀ call ∈ callOf p.sender, ¬ call.Tenth p.sock
  | _ => True

instance (p : Endpoint) (e : EndpointEvent) : Decidable (Regular p e) :=
  match e with
  | .dispatch => inferInstanceAs (Decidable (∀ received ∈ p.arriving, _))
  | .run => inferInstanceAs (Decidable (∀ call ∈ callOf p.sender, _))
  | .tick => inferInstanceAs (Decidable (∀ call ∈ callOf p.sender, _))
  | .write _ | .handOver | .build | .timeout | .arrive _ | .finAcked | .read _ | .close
  | .commit _ => .isTrue trivial

namespace Unlocked

variable {p p' : Endpoint}

theorem start (key : SocketTableKey) (baseSeq baseAck : UInt32) (window : UInt16) :
    (Endpoint.start (newSocket key baseSeq baseAck window)).Unlocked where
  sock := ⟨rfl, rfl⟩
  receiver := rfl
  sender := by simp [Endpoint.start]

/-- A step that leaves the sending threads alone. -/
theorem keep (h : p.Unlocked) (hsock : p'.sock.Free) (hstuck : p'.stuck = p.stuck)
    (hsender : p'.sender = p.sender) : p'.Unlocked where
  sock := hsock
  receiver := hstuck.trans h.receiver
  sender := by
    rw [hsender]
    exact h.sender

theorem update (h : p.Unlocked) {result : NormalSocket × WindowCall × List Emission}
    (hsock : result.1.Free) (hwin : result.2.1.winLock = false) (hpc : result.2.1.pc ≠ .blocked) :
    (p.update result).Unlocked := by
  refine ⟨hsock, h.receiver, ?_⟩
  intro call hcall
  cases hcall
  exact ⟨hwin, hpc⟩

theorem dispatch (h : p.Unlocked) {received : TCPInfo}
    (hfits : p.sock.state.Fits (p.sock.finsTaken received)) :
    (p.sock.dispatch received).1.Free ∧ (p.sock.dispatch received).2 ≠ .blocked := by
  obtain ⟨hstate, hblocked⟩ :=
    NormalSocket.dispatch_fits received h.sock.stateMtx h.sock.unackedMtx hfits
  exact ⟨⟨(p.sock.dispatch_unackedMtx received).trans h.sock.unackedMtx, hstate⟩, hblocked⟩

theorem step (h : p.Unlocked) {e : EndpointEvent} (hok : Regular p e)
    (hstep : p.step e = some p') : p'.Unlocked := by
  obtain ⟨-, hstep⟩ := Endpoint.step_step hstep
  cases hstep with
  | write e w hw => exact h.keep (NormalSocket.Free.writerStep h.sock hw) rfl rfl
  | handOver call hwriter hready => exact ⟨h.sock, h.receiver, by simp⟩
  | outOfBounds lbw hsender hchunk => exact h.keep h.sock rfl rfl
  | nothing lbw hsender hchunk => exact ⟨h.sock, h.receiver, by simp⟩
  | build lbw packet hsender hchunk =>
    refine ⟨h.sock, h.receiver, ?_⟩
    intro call hcall
    cases hcall
    exact ⟨rfl, by simp [NormalSocket.slidingWindow]⟩
  | run call result hsender hrun =>
    have hturn := WindowCall.run_step hrun
    obtain ⟨hmtx, hblocked, hlock, -⟩ := hturn.clean h.sock.unackedMtx (h.sender call hsender).1
      (hok call (by simp [hsender, callOf]))
    exact h.update ⟨hmtx, hturn.sameRing.stateMtx.trans h.sock.stateMtx⟩ hlock hblocked
  | timeout call again hsender hagain => exact h.keep h.sock rfl rfl
  | tick call result hsender htick =>
    obtain ⟨hwin, hpc⟩ := h.sender call hsender
    obtain ⟨hsock, hpc', hlock⟩ :=
      WindowCall.tick_clean htick (hok call (by simp [hsender, callOf])) hwin
    exact h.update (hsock ▸ h.sock) hlock (hpc' ▸ hpc)
  | arrive received => exact h.keep (h.sock.noteWindow received) rfl rfl
  | blocked received harriving hblocked =>
    exact absurd hblocked (h.dispatch (hok received harriving).2).2
  | absorbed received harriving | toFinChan received ack harriving
  | reply received packet harriving hreply =>
    exact h.keep (h.dispatch (hok received harriving).2).1 rfl rfl
  | finAcked ack => exact h.keep (h.sock.finAcked ack) rfl rfl
  | read numbytes sock data hread =>
    have hfree := h.sock.vRead numbytes
    rw [hread] at hfree
    exact h.keep hfree rfl rfl
  | close => exact h.keep h.sock rfl rfl
  | commit k packet hpacket | sendFIN k packet sent hpacket hsent =>
    exact h.keep (h.sock.commitClose packet) rfl rfl

/-- A turn of slidingWindow releases its locks exactly when it is regular. -/
theorem releases_run (h : p.Unlocked) (hstep : p.step .run = some p') :
    p.Releases p' .run ↔ Regular p .run := by
  obtain ⟨-, hstep⟩ := Endpoint.step_step hstep
  cases hstep with
  | run call result hsender hrun =>
    have hwin := (h.sender call hsender).1
    have hcall : callOf p.sender = some call := by rw [hsender, callOf]
    have hcall' : callOf (p.update result).sender = some result.2.1 := rfl
    simp only [Releases, Regular, hcall, hcall', Option.mem_some_iff, forall_eq']
    constructor
    · intro hheld
      by_contra hclean
      exact WindowCall.run_leaks hrun hclean hheld
    · intro hclean
      exact ((WindowCall.run_step hrun).clean h.sock.unackedMtx hwin hclean).2.2.2

theorem releases_dispatch (h : p.Unlocked) : p.Releases p' .dispatch ↔ Regular p .dispatch := by
  refine forall₂_congr fun received _ => ?_
  exact NormalSocket.receiverLocks_released p.finAck.isNone received h.sock.stateMtx

end Unlocked

/-- ReceiverThread takes no further segment once it waits for ever. -/
theorem Step.stuck {p p' : Endpoint} {e : EndpointEvent} (h : Step p e p')
    (harriving : p.arriving = none) (hstuck : p.stuck = true) :
    p'.arriving = none ∧ p'.stuck = true := by
  cases h with
  | arrive received _ hfree =>
    rw [hstuck] at hfree
    contradiction
  | blocked received hnext | absorbed received hnext | toFinChan received ack hnext
  | reply received packet hnext =>
    rw [harriving] at hnext
    contradiction
  | _ => exact ⟨harriving, hstuck⟩

/-- Where no channel makes ReceiverThread wait, its turn goes through. -/
theorem deliver_ready {p : Endpoint} {received : TCPInfo}
    (hready : p.sock.sendReady p.finAck.isNone received = true) :
    ∃ p', p.deliver received = some p' := by
  obtain ⟨hack, hfin⟩ := NormalSocket.dispatch_ready hready
  unfold deliver
  simp only
  split
  · exact ⟨_, rfl⟩
  · next hto =>
    rw [if_pos (hack hto)]
    exact ⟨_, rfl⟩
  · next ack hto =>
    rw [if_pos (Option.isNone_iff_eq_none.mp (hfin ack hto))]
    exact ⟨_, rfl⟩
  all_goals exact ⟨_, rfl⟩

end Endpoint

/-- The threads of a socket together with a send of ReceiverThread that waits: `offer` is the
acknowledgement that it holds out to a full `ackChan`, with `unackedMtx` in its hands. -/
structure Threads where
  endpoint : Endpoint
  offer : Option TCPInfo

namespace Threads

def start (sock : NormalSocket) : Threads := ⟨Endpoint.start sock, none⟩

/-- ReceiverThread goes on with a segment, up to its end or to the channel at which it waits.
The goroutine of VClose receives from `finChan` until it has its number; behind that nobody
ever does. -/
def dispatch (t : Threads) (received : TCPInfo) : Threads :=
  match t.endpoint.deliver received with
  | some p => ⟨p, none⟩
  | none =>
      let p := { t.endpoint with
        sock := { t.endpoint.sock with unackedMtx := true }
        arriving := none }
      if t.endpoint.sock.unackedFINs received.AckNum then ⟨{ p with stuck := true }, none⟩
      else ⟨p, some received⟩

def receives : SendPc → Bool
  | .sliding call => match call.pc with
      | .probing _ _ | .drain => true
      | _ => false
  | _ => false

/-- The offered acknowledgement moves into the channel and ReceiverThread unlocks. -/
def accept (t : Threads) (received : TCPInfo) : Endpoint :=
  { t.endpoint with
    sock := { t.endpoint.sock with
      ackChan := t.endpoint.sock.ackChan ++ [received]
      unackedMtx := false } }

/-- The steps of the other threads while ReceiverThread waits. A receive from the channel lets
it go on; VClose, also in the hands of the retransmission thread, waits for the mutex. -/
def wait (t : Threads) (received : TCPInfo) (e : EndpointEvent) : Option Threads :=
  match e with
  | .arrive _ | .dispatch | .commit _ => none
  | .run =>
      if receives t.endpoint.sender then
        ((t.accept received).step .run).map fun p => ⟨p, none⟩
      else (t.endpoint.step .run).map fun p => ⟨p, some received⟩
  | .tick =>
      if t.endpoint.Regular .tick then
        (t.endpoint.step .tick).map fun p => ⟨p, some received⟩
      else none
  | e => (t.endpoint.step e).map fun p => ⟨p, some received⟩

def step (t : Threads) (e : EndpointEvent) : Option Threads :=
  match t.offer with
  | some received => t.wait received e
  | none =>
      match e with
      | .dispatch =>
          if t.endpoint.panicked then none else t.endpoint.arriving.map t.dispatch
      | e => (t.endpoint.step e).map fun p => ⟨p, none⟩

structure Unlocked (t : Threads) : Prop where
  endpoint : t.endpoint.Unlocked
  offer : t.offer = none

def Regular (t : Threads) (e : EndpointEvent) : Prop := t.endpoint.Regular e

instance (t : Threads) (e : EndpointEvent) : Decidable (Regular t e) :=
  inferInstanceAs (Decidable (t.endpoint.Regular e))

namespace Unlocked

variable {t t' : Threads}

/-- Without a send that waits, the threads go on as those of the endpoint. -/
theorem step_endpoint (h : t.Unlocked) {e : EndpointEvent} (hok : Regular t e)
    (hstep : t.step e = some t') :
    t.endpoint.step e = some t'.endpoint ∧ t'.offer = none := by
  unfold step at hstep
  rw [h.offer] at hstep
  cases e with
  | dispatch =>
    simp only at hstep
    split at hstep
    · contradiction
    · next hrunning =>
      obtain ⟨received, harriving, rfl⟩ := Option.map_eq_some_iff.mp hstep
      obtain ⟨p', hdeliver⟩ := Endpoint.deliver_ready (hok received harriving).1
      unfold Endpoint.step dispatch
      rw [if_neg hrunning]
      simp [harriving, hdeliver]
  | _ =>
    obtain ⟨p', hnext, rfl⟩ := Option.map_eq_some_iff.mp hstep
    exact ⟨hnext, rfl⟩

theorem step (h : t.Unlocked) {e : EndpointEvent} (hok : Regular t e)
    (hstep : t.step e = some t') : t'.Unlocked := by
  obtain ⟨hnext, hoffer⟩ := h.step_endpoint hok hstep
  exact ⟨h.endpoint.step hok hnext, hoffer⟩

/-- A step releases its locks exactly when it is regular. -/
theorem releases_iff (h : t.Unlocked) {e : EndpointEvent} (hstep : t.step e = some t') :
    t.endpoint.Releases t'.endpoint e ↔ Regular t e := by
  cases e with
  | dispatch => exact h.endpoint.releases_dispatch
  | tick => exact forall₂_congr fun _ _ => WindowCall.tickLocks_released
  | run =>
    unfold Threads.step at hstep
    rw [h.offer] at hstep
    obtain ⟨p', hnext, rfl⟩ := Option.map_eq_some_iff.mp hstep
    exact h.endpoint.releases_run hnext
  | _ => exact Iff.rfl

end Unlocked

/-- In every run of regular steps no mutex is left held and no thread waits for one, and the
next step releases its locks exactly when it is regular. -/
theorem regular_runs_unlocked (key : SocketTableKey) (baseSeq baseAck : UInt32) (window : UInt16)
    (t : Threads) (h : Reach step Regular (start (newSocket key baseSeq baseAck window)) t) :
    t.Unlocked ∧
      ∀ e t', t.step e = some t' → (t.endpoint.Releases t'.endpoint e ↔ Regular t e) := by
  have hstart : (start (newSocket key baseSeq baseAck window)).Unlocked :=
    ⟨Endpoint.Unlocked.start key baseSeq baseAck window, rfl⟩
  have hunlocked : t.Unlocked := h.invariant Unlocked hstart
    (fun _ _ _ hunlocked hok hnext => hunlocked.step hok hnext)
  exact ⟨hunlocked, fun _ _ hstep => hunlocked.releases_iff hstep⟩

/-- ReceiverThread waits for a receiver that never comes, with `unackedMtx` in its hands. -/
structure Deadlocked (t : Threads) : Prop where
  offer : t.offer = none
  arriving : t.endpoint.arriving = none
  stuck : t.endpoint.stuck = true
  unackedMtx : t.endpoint.sock.unackedMtx = true

/-- The acknowledgement of a FIN comes again before the goroutine of VClose has struck its
number off. -/
theorem dispatch_deadlocked {t : Threads} {received : TCPInfo} {ack : UInt32}
    (hflag : received.Flag &&& tcpFlagAck > 0) (hmtx : t.endpoint.sock.unackedMtx = false)
    (hfin : t.endpoint.sock.unackedFINs received.AckNum = true)
    (hbusy : t.endpoint.finAck = some ack) : (t.dispatch received).Deadlocked := by
  have hto : (t.endpoint.sock.dispatch received).2 = .toFinChan received.AckNum := by
    unfold NormalSocket.dispatch
    rw [if_pos hflag, if_neg (by simp [hmtx]), if_pos hfin]
  have hwaits : t.endpoint.deliver received = none := by
    unfold Endpoint.deliver
    simp [hto, hbusy]
  unfold dispatch
  rw [hwaits]
  simp only [if_pos hfin]
  exact ⟨rfl, rfl, rfl, rfl⟩

theorem Deadlocked.step {t t' : Threads} {e : EndpointEvent} (h : t.Deadlocked)
    (hstep : t.step e = some t') : t'.Deadlocked := by
  unfold Threads.step at hstep
  rw [h.offer] at hstep
  cases e with
  | dispatch =>
    simp only [h.arriving, Option.map_none] at hstep
    split at hstep <;> contradiction
  | _ =>
    obtain ⟨p', hnext, rfl⟩ := Option.map_eq_some_iff.mp hstep
    have hinv := (Endpoint.step_step hnext).2
    obtain ⟨harriving, hstuck⟩ := hinv.stuck h.arriving h.stuck
    exact ⟨rfl, harriving, hstuck, hinv.unackedMtx h.unackedMtx⟩

/-- The mutex is then never released, whatever the other threads do. -/
theorem Deadlocked.run {t t' : Threads} (h : t.Deadlocked)
    (hreach : Reach Threads.step (fun _ _ => True) t t') : t'.Deadlocked :=
  hreach.invariant Deadlocked h (fun _ _ _ hdead _ hstep => hdead.step hstep)

-- VClose's FIN is acknowledged twice in a row
example : ∃ t, Reach step (fun _ _ => True) (start (newSocket sampleKey 100 200 8)) t ∧
    t.Deadlocked := by
  obtain ⟨t, hreach, hoffer, harriving, hstuck, hmtx⟩ := exists_reach step (fun _ _ => True)
    (start (newSocket sampleKey 100 200 8))
    (fun t => t.offer.isNone ∧ t.endpoint.arriving.isNone ∧ t.endpoint.stuck = true ∧
      t.endpoint.sock.unackedMtx = true)
    [.close, .commit 0, .arrive (Transfer.sampleAck 102 8), .dispatch,
      .arrive (Transfer.sampleAck 102 8), .dispatch] (by decide)
  exact ⟨t, hreach, Option.isNone_iff_eq_none.mp hoffer, Option.isNone_iff_eq_none.mp harriving,
    hstuck, hmtx⟩

def sampleFIN : TCPInfo := { Transfer.sampleAck 101 8 with Flag := IpTcp.finAck }

/-- A byte is written, sent and acknowledged, then the peer closes. -/
theorem regular_runs_unlocked_one_byte :
    ∃ t : Threads, t.endpoint.sock.state = .closeWait ∧ t.endpoint.emitted.length = 1 ∧
      t.Unlocked := by
  obtain ⟨t, hreach, hstate, hemitted⟩ := exists_reach step Regular
    (start (newSocket sampleKey 100 200 8))
    (fun t => t.endpoint.sock.state = .closeWait ∧ t.endpoint.emitted.length = 1)
    [.write (.call [9]), .write .test, .write .copy, .handOver, .write .test, .build,
      .run, .run, .run, .run, .run, .run, .run, .arrive (Transfer.sampleAck 102 8), .dispatch,
      .run, .run, .tick, .run, .arrive sampleFIN, .dispatch] (by decide)
  exact ⟨t, hstate, hemitted, (regular_runs_unlocked sampleKey 100 200 8 t hreach).1⟩

/-- The FIN of the peer arrives twice: the second one finds the socket in CLOSE_WAIT and the
state mutex is not unlocked. -/
theorem second_fin_keeps_mutex :
    ¬ ∀ (key : SocketTableKey) (baseSeq baseAck : UInt32) (window : UInt16) (t : Threads),
      Reach step (fun _ _ => True) (start (newSocket key baseSeq baseAck window)) t →
      t.Unlocked ∧ ∀ e t', t.step e = some t' → t.endpoint.Releases t'.endpoint e := by
  intro hclaim
  obtain ⟨t, hreach, hmtx⟩ := exists_reach step (fun _ _ => True)
    (start (newSocket sampleKey 100 200 8)) (fun t => t.endpoint.sock.stateMtx = true)
    [.arrive sampleFIN, .dispatch, .arrive sampleFIN, .dispatch] (by decide)
  have hfree := (hclaim sampleKey 100 200 8 t hreach).1.endpoint.sock.stateMtx
  rw [hmtx] at hfree
  contradiction

end Threads

end IpTcp
