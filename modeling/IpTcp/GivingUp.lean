import IpTcp.WindowChain

/-!
Giving up on a segment. While no acknowledgement comes, the retransmission thread sends
the oldest segment of the window again at every expiration of its timer, and counts.
The count is kept only where `head` is the node of a segment: the tenth expiration then
closes the connection. As long as `head` is the dummy node, before anything in the window
was acknowledged, the segment behind it is sent again without end.
-/
namespace IpTcp

open Runs

def timesResent (seqNum : UInt32) (emitted : List Emission) : ℕ :=
  emitted.countP fun m => m.kind = .retransmission ∧ m.packet.seqNum = seqNum

/-- No acknowledgement comes: slidingWindow runs, a probe is repeated, the timer expires. -/
inductive WatchEvent
  | turn
  | probe
  | expire

structure Watch where
  transfer : Transfer
  expired : ℕ

namespace Watch

def step (w : Watch) : WatchEvent → Option Watch
  | .turn => (w.transfer.step .run).map fun t => { w with transfer := t }
  | .probe => (w.transfer.step .timeout).map fun t => { w with transfer := t }
  | .expire => (w.transfer.step .tick).map fun t => ⟨t, w.expired + 1⟩

def Open (w : Watch) : WatchEvent → Prop
  | .expire => w.transfer.sock.ClientWindowSize > 0
  | .turn | .probe => True

instance (w : Watch) (e : WatchEvent) : Decidable (w.Open e) :=
  match e with
  | .expire => inferInstanceAs (Decidable (_ > _))
  | .turn | .probe => .isTrue trivial

end Watch

namespace WindowCall

def counted (call : WindowCall) (node : WindowNode) : ℕ :=
  if call.last_index = node.index then call.cnt else 0

def Holds (call : WindowCall) (j : ℕ) (node : WindowNode) : Prop :=
  ∃ node', call.nodes[j]? = some node' ∧ node'.sent = true ∧
    node'.expectedAck = node.expectedAck ∧ node'.index = node.index ∧
    node'.packet.seqNum = node.packet.seqNum

end WindowCall

/-- A window whose oldest unacknowledged segment is that of the node: the one of `head`, or
the first one behind the dummy node. -/
structure WindowState (t : Transfer) (k : ℕ) (node : WindowNode) : Prop where
  head : t.call.head = some k
  oldest : t.call.nodes[k - 1]? = some node
  sent : node.sent = true
  window : t.sock.ClientWindowSize > 0
  winLock : t.call.winLock = false
  counted : t.call.counted node < 10
  ackChan : t.sock.ackChan = []
  emitted : t.emitted = []

def Closed (t : Transfer) (w : Watch) : Prop :=
  t.sock.state.finSent = true ∨ ∃ packet, ⟨.fin, packet⟩ ∈ w.transfer.emitted

/-- Nine retransmissions at most, those before included, and the tenth expiration closes. -/
structure GivesUp (t : Transfer) (node : WindowNode) (w : Watch) : Prop where
  le_ten : t.call.counted node + w.expired ≤ 10
  resent : t.call.counted node + w.expired < 10 →
    timesResent node.packet.seqNum w.transfer.emitted = w.expired
  tenth : t.call.counted node + w.expired = 10 →
    t.call.counted node + timesResent node.packet.seqNum w.transfer.emitted = 9 ∧ Closed t w

/-- VClose can go through, or the connection is being closed anyway. -/
def NormalSocket.Closable (sock : NormalSocket) : Prop :=
  sock.state.finSent = true ∨
    (sock.state = .established ∨ sock.state = .closeWait) ∧ sock.stateMtx = false ∧
      sock.unackedMtx = false

instance (sock : NormalSocket) : Decidable sock.Closable := inferInstanceAs (Decidable (_ ∨ _))

theorem NormalSocket.vClose_sent_iff (sock : NormalSocket) :
    (∃ packet, sock.vClose.2 = .sent packet) ↔
      (sock.state = .established ∨ sock.state = .closeWait) ∧ sock.stateMtx = false ∧
        sock.unackedMtx = false := by
  unfold vClose commitClose
  cases hmtx : sock.stateMtx with
  | true => simp
  | false =>
    cases hunacked : sock.unackedMtx with
    | true => cases sock.state <;> simp
    | false => cases sock.state <;> simp

namespace WindowCall

variable {call call' : WindowCall} {sock sock' : NormalSocket} {j k : ℕ} {node : WindowNode}

theorem Holds.congr (h : call.Holds j node) (hnodes : call'.nodes = call.nodes) :
    call'.Holds j node := by
  unfold Holds
  rw [hnodes]
  exact h

/-- An entry of a list is the last one, or it does not depend on the last one. -/
theorem getElem?_concat_cases {α : Type*} {l : List α} {x y : α} (h : (l ++ [x])[j]? = some y) :
    l[j]? = some y ∧ (∀ x', (l ++ [x'])[j]? = some y) ∨
      y = x ∧ j = l.length ∧ ∀ x', (l ++ [x'])[j]? = some x' := by
  by_cases hj : j < l.length
  · rw [List.getElem?_append_left hj] at h
    exact .inl ⟨h, fun x' => by rw [List.getElem?_append_left hj, h]⟩
  · obtain ⟨hlt, rfl⟩ := List.getElem?_eq_some_iff.mp h
    obtain rfl : j = l.length := by
      rw [List.length_append, List.length_singleton] at hlt
      omega
    exact .inr ⟨by simp, rfl, fun x' => by simp⟩

theorem Holds.markSent (h : call.Holds j node) (pc : SlidePc) :
    (call.markSent pc).Holds j node := by
  obtain ⟨node', hget, hsent, hkept⟩ := h
  rcases getElem?_concat_cases hget with ⟨-, hsame⟩ | ⟨rfl, -, hlast⟩
  · exact ⟨node', hsame _, hsent, hkept⟩
  · exact ⟨{ call.tail with sent := true }, hlast _, rfl, hkept⟩

theorem Holds.allocateNext (h : call.Holds j node) (sock : NormalSocket) (expectedAck : UInt32) :
    (call.allocateNext sock expectedAck).Holds j node := by
  unfold WindowCall.allocateNext
  simp only
  split
  · obtain ⟨node', hget, hkept⟩ := h
    refine ⟨node', ?_, hkept⟩
    have hlt : j < call.nodes.length := (List.getElem?_eq_some_iff.mp hget).1
    exact (List.getElem?_append_left hlt).trans hget
  · exact h

theorem nodes_updatePacket (f : TCPPacket → TCPPacket) (k : ℕ)
    (hget : call.nodes[j]? = some node) :
    ∃ node', (call.updatePacket k f).nodes[j]? = some node' ∧
      (node' = node ∨ node' = modifyPacket f node) := by
  unfold updatePacket
  rcases getElem?_concat_cases hget with ⟨hbefore, hsame⟩ | ⟨rfl, hj, hlast⟩
  · split
    · have hlt : j < (call.before.modify k (modifyPacket f)).length := by
        rw [List.length_modify]
        exact (List.getElem?_eq_some_iff.mp hbefore).1
      simp only [nodes, List.getElem?_append_left hlt, List.getElem?_modify, hbefore]
      split
      · exact ⟨_, rfl, .inr rfl⟩
      · exact ⟨_, rfl, .inl rfl⟩
    · exact ⟨node, hsame _, .inl rfl⟩
  · split
    · exact ⟨call.tail, by simp [nodes, hj], .inl rfl⟩
    · exact ⟨_, hlast _, .inr rfl⟩

theorem Holds.updatePacket (h : call.Holds j node) (k : ℕ) (sock : NormalSocket) :
    (call.updatePacket k (refresh sock)).Holds j node := by
  obtain ⟨node', hget, hkept⟩ := h
  obtain ⟨node'', hget', hcases⟩ := nodes_updatePacket (refresh sock) k hget
  refine ⟨node'', hget', ?_⟩
  rcases hcases with rfl | rfl
  · exact hkept
  · exact hkept

/-- What a turn of slidingWindow without acknowledgements leaves alone. -/
structure Proceeds (sock : NormalSocket) (call : WindowCall)
    (result : NormalSocket × WindowCall × List Emission) : Prop where
  ackChan : result.1.ackChan = []
  state : result.1.state = sock.state
  stateMtx : result.1.stateMtx = sock.stateMtx
  unackedMtx : result.1.unackedMtx = sock.unackedMtx
  head : result.2.1.head = call.head
  winLock : result.2.1.winLock = call.winLock
  last_index : result.2.1.last_index = call.last_index
  cnt : result.2.1.cnt = call.cnt
  holds : ∀ j node, call.Holds j node → result.2.1.Holds j node
  emitted : ∀ m ∈ result.2.2, m.kind = .first ∨ m.kind = .probe

theorem proceeds_goto (hchan : sock.ackChan = []) (pc : SlidePc) :
    Proceeds sock call (sock, call.goto pc, []) :=
  ⟨hchan, rfl, rfl, rfl, rfl, rfl, rfl, rfl, fun _ _ h => h.congr rfl, by simp⟩

theorem run_proceeds {result : NormalSocket × WindowCall × List Emission}
    (hchan : sock.ackChan = []) (hrun : call.run sock = some result) :
    Proceeds sock call result := by
  cases run_step hrun with
  | enter | leave | closed | skip | crash | choose | hold | windowOpen | drained =>
    exact proceeds_goto hchan _
  | probeBlocked | sendBlocked | debit | windowZero | probe =>
    exact ⟨hchan, rfl, rfl, rfl, rfl, rfl, rfl, rfl, fun _ _ h => h.congr rfl, by simp⟩
  | send =>
    exact ⟨hchan, rfl, rfl, rfl, rfl, rfl, rfl, rfl, fun _ _ h => h.markSent _, by simp⟩
  | allocate expectedAck hpc =>
    have hkept : (call.allocateNext sock expectedAck).head = call.head ∧
        (call.allocateNext sock expectedAck).winLock = call.winLock ∧
        (call.allocateNext sock expectedAck).last_index = call.last_index ∧
        (call.allocateNext sock expectedAck).cnt = call.cnt := by
      unfold allocateNext
      simp only
      split <;> exact ⟨rfl, rfl, rfl, rfl⟩
    exact ⟨hchan, rfl, rfl, rfl, hkept.1, hkept.2.1, hkept.2.2.1, hkept.2.2.2,
      fun _ _ h => h.allocateNext sock expectedAck, by simp⟩
  | probeAcked _ received more _ hack | ack received more _ hack | probeOn _ _ received more _ hack
  | ackBlocked received more _ hack | repeated received more _ hack =>
    rw [hchan] at hack
    contradiction

/-- With a node in place of the dummy node the oldest segment is sent again and counted. -/
theorem tick_node (hunlocked : call.unlocked) (hwindow : sock.ClientWindowSize > 0)
    (hhead : call.head = some (j + 1)) (hack : node.expectedAck ≠ 0) (h : call.Holds j node) :
    call.tick sock = some (call.resend sock j) := by
  obtain ⟨node', hget, -, hack', -⟩ := h
  have hne : expectedAckAt call.nodes (j + 1) ≠ 0 := by
    simp only [expectedAckAt, hget, Option.map_some, Option.getD_some, hack']
    exact hack
  rw [tick, if_pos hunlocked, if_pos hwindow, hhead]
  simp only [if_pos hne, Nat.add_sub_cancel]

theorem tick_dummy (hunlocked : call.unlocked) (hwindow : sock.ClientWindowSize > 0)
    (hhead : call.head = some k) (hdummy : expectedAckAt call.nodes k = 0) :
    call.tick sock = some (call.resendFirst sock k) := by
  rw [tick, if_pos hunlocked, if_pos hwindow, hhead]
  simp [hdummy]

theorem expectedAckAt_updatePacket (call : WindowCall) (sock : NormalSocket) (i k : ℕ) :
    expectedAckAt (call.updatePacket i (refresh sock)).nodes k = expectedAckAt call.nodes k := by
  have hshape := (sameShape_updatePacket (refresh_renews sock) call i call.last_index call.cnt
    call.winLock).nodes
  cases k with
  | zero => rfl
  | succ k =>
    have hnth := congrArg (fun shapes => shapes[k]?.map fun s => s.2.2) hshape
    simp only [List.getElem?_map, Option.map_map] at hnth
    exact congrArg (fun ack => ack.getD 0) hnth

/-- Without counting, only a packet is changed. -/
theorem resendFirst_kept (call : WindowCall) (sock : NormalSocket) (i : ℕ) :
    (call.resendFirst sock i).1 = sock ∧ (call.resendFirst sock i).2.1.head = call.head ∧
      (call.resendFirst sock i).2.1.pc = call.pc ∧
      (call.resendFirst sock i).2.1.winLock = call.winLock ∧
      ∀ k, expectedAckAt (call.resendFirst sock i).2.1.nodes k = expectedAckAt call.nodes k := by
  unfold resendFirst
  split
  · exact ⟨rfl, rfl, rfl, rfl, fun _ => rfl⟩
  · split
    · refine ⟨rfl, ?_, ?_, ?_, expectedAckAt_updatePacket call sock i⟩
      all_goals
        unfold updatePacket
        split <;> rfl
    · exact ⟨rfl, rfl, rfl, rfl, fun _ => rfl⟩

/-- The call after the thread has counted node `j` once more. -/
def recount (call : WindowCall) (sock : NormalSocket) (j : ℕ) (node : WindowNode) : WindowCall :=
  { call.updatePacket j (refresh sock) with
    last_index := node.index
    cnt := call.counted node + 1 }

theorem recount_kept (call : WindowCall) (sock : NormalSocket) (j : ℕ) (node : WindowNode) :
    (call.recount sock j node).head = call.head ∧ (call.recount sock j node).pc = call.pc ∧
      (call.recount sock j node).winLock = call.winLock ∧
      (call.recount sock j node).counted node = call.counted node + 1 := by
  refine ⟨?_, ?_, ?_, if_pos rfl⟩
  all_goals
    unfold recount updatePacket
    split <;> rfl

theorem resend_eq (h : call.Holds j node) (sock : NormalSocket) :
    ∃ packet, packet.seqNum = node.packet.seqNum ∧ call.resend sock j =
      if call.counted node + 1 = 10 then
        match sock.vClose with
        | (sock', .sent packet) =>
            (sock', { call.recount sock j node with winLock := true }, [⟨.fin, packet⟩])
        | (sock', _) => (sock', { call.recount sock j node with winLock := true }, [])
      else (sock, call.recount sock j node, [⟨.retransmission, packet⟩]) := by
  obtain ⟨node', hget, hsent, -, hindex, hseq⟩ := h
  have hcount : (if call.last_index = node'.index then call.cnt + 1 else 1) =
      call.counted node + 1 := by
    unfold counted
    rw [hindex]
    split <;> rfl
  refine ⟨refresh sock node'.packet, hseq, ?_⟩
  simp only [resend, hget, hsent, if_true, hcount]
  simp only [hindex]
  rfl

/-- Fewer than ten times the segment is sent again. -/
theorem resend_again (h : call.Holds j node) (hcount : call.counted node + 1 < 10)
    (sock : NormalSocket) :
    ∃ packet, packet.seqNum = node.packet.seqNum ∧
      call.resend sock j = (sock, call.recount sock j node, [⟨.retransmission, packet⟩]) := by
  obtain ⟨packet, hseq, heq⟩ := resend_eq h sock
  exact ⟨packet, hseq, heq.trans (if_neg (by omega))⟩

/-- The tenth time the thread leaves with the lock and VClose is called. -/
theorem resend_tenth (h : call.Holds j node) (hcount : call.counted node + 1 = 10)
    (sock : NormalSocket) :
    ∃ closing, call.resend sock j =
        (sock.vClose.1, { call.recount sock j node with winLock := true }, closing) ∧
      (∀ m ∈ closing, m.kind = .fin) ∧
      ((∃ packet, ⟨.fin, packet⟩ ∈ closing) ↔ ∃ packet, sock.vClose.2 = .sent packet) := by
  obtain ⟨packet, -, heq⟩ := resend_eq h sock
  rw [heq, if_pos hcount]
  rcases hclose : sock.vClose with ⟨sock', _ | _ | packet⟩
  · exact ⟨[], rfl, by simp, by simp⟩
  · exact ⟨[], rfl, by simp, by simp⟩
  · exact ⟨_, rfl, by simp, by simp⟩

end WindowCall

/-- The run of a window whose head is the node of a segment: the thread counts the
expirations, or it has given up. -/
structure Counting (t : Transfer) (j : ℕ) (node : WindowNode) (w : Watch) : Prop where
  head : w.transfer.call.head = some (j + 1)
  holds : w.transfer.call.Holds j node
  ackChan : w.transfer.sock.ackChan = []
  progress :
    (w.transfer.call.winLock = false ∧
      w.transfer.call.counted node = t.call.counted node + w.expired ∧
      t.call.counted node + w.expired < 10 ∧
      timesResent node.packet.seqNum w.transfer.emitted = w.expired ∧
      (∀ m ∈ w.transfer.emitted, m.kind ≠ .fin) ∧
      w.transfer.sock.state = t.sock.state ∧ w.transfer.sock.stateMtx = t.sock.stateMtx ∧
      w.transfer.sock.unackedMtx = t.sock.unackedMtx) ∨
    (w.transfer.call.winLock = true ∧ t.call.counted node + w.expired = 10 ∧
      t.call.counted node + timesResent node.packet.seqNum w.transfer.emitted = 9 ∧
      (Closed t w ↔ t.sock.Closable))

theorem timesResent_append (seqNum : UInt32) (xs ys : List Emission) :
    timesResent seqNum (xs ++ ys) = timesResent seqNum xs + timesResent seqNum ys :=
  List.countP_append

theorem timesResent_eq_zero {seqNum : UInt32} {emitted : List Emission}
    (h : ∀ m ∈ emitted, m.kind ≠ .retransmission) : timesResent seqNum emitted = 0 :=
  List.countP_eq_zero.mpr fun m hm => by simp [h m hm]

namespace Counting

variable {t : Transfer} {j : ℕ} {node : WindowNode} {w w' : Watch}

theorem start {k : ℕ} (h : WindowState t k node) (hreal : expectedAckAt t.call.nodes k ≠ 0) :
    ∃ j, node.expectedAck ≠ 0 ∧ Counting t j node ⟨t, 0⟩ := by
  cases k with
  | zero => exact absurd rfl hreal
  | succ j =>
    have hget := h.oldest
    rw [Nat.add_sub_cancel] at hget
    refine ⟨j, by simpa [expectedAckAt, hget] using hreal, h.head, ⟨node, hget, h.sent, rfl, rfl,
      rfl⟩, h.ackChan, .inl ⟨h.winLock, rfl, h.counted, ?_, ?_, rfl, rfl, rfl⟩⟩
    · simp [h.emitted, timesResent]
    · simp [h.emitted]

/-- Turns of slidingWindow and repeated probes count nothing. -/
theorem proceed (h : Counting t j node w) {result : NormalSocket × WindowCall × List Emission}
    (hresult : WindowCall.Proceeds w.transfer.sock w.transfer.call result) :
    Counting t j node { w with transfer := w.transfer.update result } := by
  have hnone : timesResent node.packet.seqNum result.2.2 = 0 :=
    timesResent_eq_zero fun m hm hkind => by
      rcases hresult.emitted m hm with h | h <;> simp [h] at hkind
  have hresent : timesResent node.packet.seqNum (w.transfer.emitted ++ result.2.2) =
      timesResent node.packet.seqNum w.transfer.emitted := by
    rw [timesResent_append, hnone, Nat.add_zero]
  have hfin : ∀ m ∈ result.2.2, m.kind ≠ .fin := fun m hm hkind => by
    rcases hresult.emitted m hm with h | h <;> simp [h] at hkind
  have hclosed : Closed t { w with transfer := w.transfer.update result } ↔ Closed t w := by
    refine or_congr_right (exists_congr fun packet => ?_)
    simp only [Transfer.update, List.mem_append, or_iff_left_iff_imp]
    exact fun hm => absurd rfl (hfin _ hm)
  refine ⟨hresult.head.trans h.head, hresult.holds j node h.holds, hresult.ackChan, ?_⟩
  rcases h.progress with ⟨hlock, hcount, hlt, htimes, hnofin, hstate, hstateMtx, hmtx⟩ |
    ⟨hlock, hten, htimes, hclose⟩
  · refine .inl ⟨hresult.winLock.trans hlock, ?_, hlt, hresent.trans htimes, ?_,
      hresult.state.trans hstate, hresult.stateMtx.trans hstateMtx, hresult.unackedMtx.trans hmtx⟩
    · rw [← hcount]
      simp only [Transfer.update, WindowCall.counted, hresult.last_index, hresult.cnt]
    · intro m hm
      exact (List.mem_append.mp hm).elim (hnofin m) (hfin m)
  · exact .inr ⟨hresult.winLock.trans hlock, hten, by rw [← htimes]; exact congrArg _ hresent,
      hclosed.trans hclose⟩

/-- An expiration counts, and the tenth one closes. -/
theorem expire (h : Counting t j node w) (hunlocked : w.transfer.call.unlocked) :
    Counting t j node
      ⟨w.transfer.update (w.transfer.call.resend w.transfer.sock j), w.expired + 1⟩ := by
  rcases h.progress with ⟨-, hcount, hlt, htimes, hnofin, hstate, hstateMtx, hmtx⟩ | ⟨hlock, -⟩
  · have hholds := h.holds.updatePacket j w.transfer.sock
    obtain ⟨hhead, -, hwinLock, hrecount⟩ :=
      WindowCall.recount_kept w.transfer.call w.transfer.sock j node
    by_cases hlast : t.call.counted node + w.expired + 1 < 10
    · obtain ⟨packet, hseq, heq⟩ := WindowCall.resend_again h.holds (by omega) w.transfer.sock
      rw [heq]
      refine ⟨hhead.trans h.head, hholds.congr rfl, h.ackChan, .inl ⟨hwinLock.trans hunlocked.2,
        ?_, hlast, ?_, ?_, hstate, hstateMtx, hmtx⟩⟩
      · exact hrecount.trans (by rw [hcount, Nat.add_assoc])
      · simp only [Transfer.update]
        rw [timesResent_append, htimes]
        simp [timesResent, hseq]
      · intro m hm
        rcases List.mem_append.mp hm with hm | hm
        · exact hnofin m hm
        · rw [List.mem_singleton.mp hm]
          simp
    · obtain ⟨closing, heq, hkind, hfin⟩ :=
        WindowCall.resend_tenth h.holds (by omega) w.transfer.sock
      rw [heq]
      have hten : t.call.counted node + (w.expired + 1) = 10 := by omega
      refine ⟨hhead.trans h.head, hholds.congr rfl,
        (vClose_closes w.transfer.sock).ackChan.trans h.ackChan, .inr ⟨rfl, hten, ?_, ?_⟩⟩
      · simp only [Transfer.update]
        rw [timesResent_append, htimes, timesResent_eq_zero fun m hm => by simp [hkind m hm]]
        omega
      · rw [NormalSocket.vClose_sent_iff, hstate, hstateMtx, hmtx] at hfin
        refine or_congr_right ?_
        rw [← hfin]
        refine exists_congr fun packet => ?_
        simp only [Transfer.update, List.mem_append, or_iff_right_iff_imp]
        exact fun hm => absurd rfl (hnofin _ hm)
  · rw [hunlocked.2] at hlock
    contradiction

theorem step (hack : node.expectedAck ≠ 0) (h : Counting t j node w) {e : WatchEvent}
    (hok : w.Open e) (hstep : w.step e = some w') : Counting t j node w' := by
  cases e with
  | turn =>
    obtain ⟨t', hrun, rfl⟩ := Option.map_eq_some_iff.mp hstep
    obtain ⟨result, hresult, rfl⟩ := Option.map_eq_some_iff.mp hrun
    exact h.proceed (WindowCall.run_proceeds h.ackChan hresult)
  | probe =>
    obtain ⟨t', hprobe, rfl⟩ := Option.map_eq_some_iff.mp hstep
    obtain ⟨again, hagain, rfl⟩ := Option.map_eq_some_iff.mp hprobe
    have hprobes : ∀ m ∈ again, m.kind = .first ∨ m.kind = .probe := by
      unfold WindowCall.timeout at hagain
      split at hagain
      · cases hagain
        simp
      · contradiction
    have hproceeds : WindowCall.Proceeds w.transfer.sock w.transfer.call
        (w.transfer.sock, w.transfer.call, again) :=
      ⟨h.ackChan, rfl, rfl, rfl, rfl, rfl, rfl, rfl, fun _ _ h => h, hprobes⟩
    exact h.proceed hproceeds
  | expire =>
    obtain ⟨t', htick, rfl⟩ := Option.map_eq_some_iff.mp hstep
    obtain ⟨result, hresult, rfl⟩ := Option.map_eq_some_iff.mp htick
    have hunlocked := (WindowCall.tick_cases hresult).1
    rw [WindowCall.tick_node hunlocked hok h.head hack h.holds, Option.some.injEq] at hresult
    subst hresult
    exact h.expire hunlocked

end Counting

theorem Counting.givesUp {t : Transfer} {j : ℕ} {node : WindowNode} {w : Watch}
    (h : Counting t j node w) (hclosable : t.sock.Closable) : GivesUp t node w := by
  rcases h.progress with ⟨-, -, hlt, htimes, -⟩ | ⟨-, hten, htimes, hclosed⟩
  · exact ⟨by omega, fun _ => htimes, fun hten => by omega⟩
  · exact ⟨by omega, fun hlt => by omega, fun _ => ⟨htimes, hclosed.mpr hclosable⟩⟩

section Runs

variable {t : Transfer} {k : ℕ} {node : WindowNode}

theorem counting_of_reach (h : WindowState t k node) (hreal : expectedAckAt t.call.nodes k ≠ 0)
    {w : Watch} (hreach : Reach Watch.step Watch.Open ⟨t, 0⟩ w) :
    ∃ j, node.expectedAck ≠ 0 ∧ Counting t j node w := by
  obtain ⟨j, hack, hstart⟩ := Counting.start h hreal
  exact ⟨j, hack, hreach.invariant (Counting t j node) hstart
    fun _ _ _ h hok hstep => h.step hack hok hstep⟩

/-- While the lock is free the timer can expire up to the tenth time. -/
theorem exists_expirations (h : WindowState t k node)
    (hreal : expectedAckAt t.call.nodes k ≠ 0) (hunlocked : t.call.unlocked) (n : ℕ)
    (hn : t.call.counted node + n ≤ 10) :
    ∃ w, Reach Watch.step Watch.Open ⟨t, 0⟩ w ∧ w.expired = n ∧
      (t.call.counted node + n < 10 → w.transfer.call.unlocked ∧ w.transfer.sock = t.sock) := by
  induction n with
  | zero => exact ⟨⟨t, 0⟩, .refl, rfl, fun _ => ⟨hunlocked, rfl⟩⟩
  | succ n ih =>
    obtain ⟨w, hreach, hexpired, hkept⟩ := ih (by omega)
    obtain ⟨hfree, hsock⟩ := hkept (by omega)
    obtain ⟨j, hack, hcounting⟩ := counting_of_reach h hreal hreach
    have hwindow : w.transfer.sock.ClientWindowSize > 0 := hsock ▸ h.window
    have hstep : w.step .expire = some
        ⟨w.transfer.update (w.transfer.call.resend w.transfer.sock j), w.expired + 1⟩ := by
      simp only [Watch.step, Transfer.step,
        WindowCall.tick_node hfree hwindow hcounting.head hack hcounting.holds, Option.map_some]
    refine ⟨_, hreach.tail .expire hwindow hstep, congrArg (· + 1) hexpired, fun hlt => ?_⟩
    have hcount : w.transfer.call.counted node + 1 < 10 := by
      rcases hcounting.progress with ⟨-, hcount, -⟩ | ⟨hlock, -⟩
      · omega
      · rw [hfree.2] at hlock
        contradiction
    obtain ⟨packet, -, heq⟩ := WindowCall.resend_again hcounting.holds hcount w.transfer.sock
    obtain ⟨-, hpc, hwinLock, -⟩ :=
      WindowCall.recount_kept w.transfer.call w.transfer.sock j node
    rw [heq]
    refine ⟨?_, hsock⟩
    simp only [Transfer.update, WindowCall.unlocked, hpc, hwinLock]
    exact hfree

/-- Where `head` counts as the dummy node the timer expires for ever. -/
theorem exists_uncounted (hhead : t.call.head = some k) (hdummy : expectedAckAt t.call.nodes k = 0)
    (hunlocked : t.call.unlocked) (hwindow : t.sock.ClientWindowSize > 0) (n : ℕ) :
    ∃ w, Reach Watch.step Watch.Open ⟨t, 0⟩ w ∧ w.expired = n ∧
      w.transfer.call.head = some k ∧ expectedAckAt w.transfer.call.nodes k = 0 ∧
      w.transfer.call.unlocked ∧ w.transfer.sock = t.sock := by
  induction n with
  | zero => exact ⟨⟨t, 0⟩, .refl, rfl, hhead, hdummy, hunlocked, rfl⟩
  | succ n ih =>
    obtain ⟨w, hreach, hexpired, hhead, hdummy, hunlocked, hsock⟩ := ih
    have hopen : w.transfer.sock.ClientWindowSize > 0 := hsock ▸ hwindow
    have hstep : w.step .expire = some
        ⟨w.transfer.update (w.transfer.call.resendFirst w.transfer.sock k), w.expired + 1⟩ := by
      simp only [Watch.step, Transfer.step, WindowCall.tick_dummy hunlocked hopen hhead hdummy,
        Option.map_some]
    obtain ⟨hsame, hhead', hpc, hwinLock, hdummy'⟩ :=
      WindowCall.resendFirst_kept w.transfer.call w.transfer.sock k
    refine ⟨_, hreach.tail .expire hopen hstep, congrArg (· + 1) hexpired, hhead'.trans hhead,
      (hdummy' k).trans hdummy, ?_, hsame.trans hsock⟩
    simp only [Transfer.update, WindowCall.unlocked, hpc, hwinLock]
    exact hunlocked

/-- Retransmission gives up only where it counts. If `head` is the node of a segment and
VClose can go through, every run of expirations without acknowledgements sends the oldest
segment nine times again at most and closes at the tenth. From a window whose lock is free
this is also necessary. -/
theorem gives_up_iff (h : WindowState t k node) :
    (expectedAckAt t.call.nodes k ≠ 0 → t.sock.Closable →
      ∀ w, Reach Watch.step Watch.Open ⟨t, 0⟩ w → GivesUp t node w) ∧
    (t.call.unlocked → (∀ w, Reach Watch.step Watch.Open ⟨t, 0⟩ w → GivesUp t node w) →
      expectedAckAt t.call.nodes k ≠ 0 ∧ t.sock.Closable) := by
  constructor
  · intro hreal hclosable w hreach
    obtain ⟨j, -, hcounting⟩ := counting_of_reach h hreal hreach
    exact hcounting.givesUp hclosable
  · intro hunlocked hall
    have hreal : expectedAckAt t.call.nodes k ≠ 0 := by
      intro hdummy
      obtain ⟨w, hreach, hexpired, -⟩ := exists_uncounted h.head hdummy hunlocked h.window 11
      have := (hall w hreach).le_ten
      omega
    refine ⟨hreal, ?_⟩
    have hcount := h.counted
    obtain ⟨w, hreach, hexpired, -⟩ := exists_expirations h hreal hunlocked
      (10 - t.call.counted node) (by omega)
    have hclosed := ((hall w hreach).tenth (by omega)).2
    obtain ⟨j, -, hcounting⟩ := counting_of_reach h hreal hreach
    rcases hcounting.progress with ⟨-, -, hlt, -⟩ | ⟨-, -, -, hiff⟩
    · omega
    · exact hiff.mp hclosed

end Runs

def offeredSocket (window : UInt16) : NormalSocket := newSocket sampleKey 100 200 window

def fourBytes : TCPPacket := (offeredSocket 2).segment tcpFlagAck 101 [1, 2, 3, 4]

/-- The first of two segments was acknowledged; the second is sent again nine times. -/
theorem gives_up_second_segment :
    ∃ t node w, WindowState t 2 node ∧ Reach Watch.step Watch.Open ⟨t, 0⟩ w ∧ w.expired = 10 ∧
      GivesUp t node w := by
  obtain ⟨t, -, hhead, hnode, hwindow, hwinLock, hchan, hreal, hclosable, hrun⟩ :=
    exists_reach Transfer.step Transfer.HonestAcks
    (Transfer.start (offeredSocket 2) fourBytes)
    (fun t => t.call.head = some 2 ∧
      (∃ node ∈ t.call.nodes[1]?, node.sent = true ∧ t.call.counted node < 10) ∧
      t.sock.ClientWindowSize > 0 ∧ t.call.winLock = false ∧ t.sock.ackChan = [] ∧
      expectedAckAt t.call.nodes 2 ≠ 0 ∧ t.sock.Closable ∧
      (follow Watch.step Watch.Open ⟨{ t with emitted := [] }, 0⟩
        (List.replicate 10 .expire)).any (fun w => w.expired = 10) = true)
    (List.replicate 8 .run ++ [.arrive (Transfer.sampleAck 103 10), .dispatch] ++
      List.replicate 9 .run) (by decide)
  obtain ⟨node, hget, hsent, hcounted⟩ := hnode
  obtain ⟨w, hreach, hexpired⟩ := exists_reach Watch.step Watch.Open
    ⟨{ t with emitted := [] }, 0⟩ (fun w => w.expired = 10) _ hrun
  have hstate : WindowState { t with emitted := [] } 2 node :=
    ⟨hhead, hget, hsent, hwindow, hwinLock, hcounted, hchan, rfl⟩
  exact ⟨_, node, w, hstate, hreach, hexpired, (gives_up_iff hstate).1 hreal hclosable w hreach⟩

/-- Nothing was acknowledged yet: ten expirations send the first segment ten times again. -/
theorem first_segment_never_given_up :
    ¬ ∀ (t : Transfer) (k : ℕ) (node : WindowNode) (w : Watch), WindowState t k node →
      Reach Watch.step Watch.Open ⟨t, 0⟩ w → GivesUp t node w := by
  intro hclaim
  obtain ⟨t, -, hhead, ⟨node, hget, hsent, hseq, hcounted⟩, hwindow, hwinLock, hchan, hrun⟩ :=
    exists_reach Transfer.step Transfer.HonestAcks (Transfer.start (offeredSocket 8) fourBytes)
    (fun t => t.call.head = some 0 ∧
      (∃ node ∈ t.call.nodes[0]?, node.sent = true ∧ node.packet.seqNum = 101 ∧
        t.call.counted node = 0) ∧
      t.sock.ClientWindowSize > 0 ∧ t.call.winLock = false ∧ t.sock.ackChan = [] ∧
      (follow Watch.step Watch.Open ⟨{ t with emitted := [] }, 0⟩
        (List.replicate 10 .expire)).any (fun w => w.expired = 10 ∧
          timesResent 101 w.transfer.emitted = 10) = true)
    (List.replicate 8 .run) (by decide)
  obtain ⟨w, hreach, hexpired, hresent⟩ := exists_reach Watch.step Watch.Open
    ⟨{ t with emitted := [] }, 0⟩
    (fun w => w.expired = 10 ∧ timesResent 101 w.transfer.emitted = 10) _ hrun
  have hcounted : ({ t with emitted := [] } : Transfer).call.counted node = 0 := hcounted
  have hgives := hclaim { t with emitted := [] } 0 node w
    ⟨hhead, hget, hsent, hwindow, hwinLock, by omega, hchan, rfl⟩ hreach
  have htimes := (hgives.tenth (by omega)).1
  rw [hseq] at htimes
  omega

end IpTcp
