import IpTcp.ReceiverRuns

/-!
ReceiveFile: a loop that looks at the connection state, then at the read pointers,
and reads into the file whenever there is something to read. VRead itself looks at
the state before it counts. A FIN that ReceiverThread handles between these steps
turns the state to CLOSE_WAIT, and from then on neither the loop nor VRead gives
out what is still unread.
-/
namespace IpTcp

inductive FilePc
  | check
  | poll
  | vRead
  | count
  | locked (num_buf : ℕ)
  | ended
  deriving DecidableEq, Repr

/-- `acked` records the data bytes that were acknowledged to the peer. -/
structure FileTransfer where
  sock : NormalSocket
  pc : FilePc
  file : List UInt8
  acked : List UInt8
  stuck : Bool

inductive FileEvent
  | segment (received : TCPInfo)
  | reader

namespace FileTransfer

open Runs

def start (sock : NormalSocket) : FileTransfer where
  sock := sock
  pc := .check
  file := []
  acked := []
  stuck := false

def deliver (p : FileTransfer) (received : TCPInfo) : FileTransfer :=
  let result := p.sock.receiverThread received
  { p with
    sock := result.1
    acked := match result.2 with
      | .reply _ => p.acked ++ received.Payload
      | _ => p.acked
    stuck := result.2 = .blocked }

/-- The next step of the thread of ReceiveFile. VRead is called with the largest count. -/
def reader (p : FileTransfer) : Option FileTransfer :=
  match p.pc with
  | .check =>
      if p.sock.stateMtx then none
      else if p.sock.state = .closeWait then some { p with pc := .ended }
      else some { p with pc := .poll }
  | .poll => some { p with pc := if p.sock.readBuffer.unreadCount > 0 then .vRead else .check }
  | .vRead =>
      if p.sock.stateMtx then none
      else if p.sock.state = .closeWait ∨ p.sock.state = .lastAck then some { p with pc := .check }
      else some { p with pc := .count }
  | .count => some { p with pc := .locked p.sock.readBuffer.unreadCount.toNat }
  | .locked 0 =>
      -- woken by readCond, VRead counts again
      if p.sock.readBuffer.unreadCount = 0 then none
      else some { p with pc := .locked p.sock.readBuffer.unreadCount.toNat }
  | .locked (num_buf + 1) =>
      let result := p.sock.readOut (num_buf + 1) 65535
      some { p with sock := result.1, file := p.file ++ result.2, pc := .check }
  | .ended => none

def step (p : FileTransfer) : FileEvent → Option FileTransfer
  | .segment received => if p.stuck then none else some (p.deliver received)
  | .reader => p.reader

def InOrder (p : FileTransfer) : FileEvent → Prop
  | .segment r => p.sock.state ≠ .closeWait ∧ r.SeqNum = p.sock.cumReadNXT ∧
      (r.Flag = tcpFlagAck ∨ r.Flag = finAck ∧ r.Payload = [])
  | .reader => True

/-- Every unread byte is in the hands of a VRead that has passed its state check. -/
def Counted (p : FileTransfer) : Prop :=
  match p.pc with
  | .count => True
  | .locked num_buf => num_buf = p.sock.readBuffer.unreadCount.toNat
  | .check | .poll | .vRead | .ended => p.sock.readBuffer.unreadCount.toNat = 0

/-- Data fits beside the unread bytes unless it is dropped at a full buffer, and the FIN
finds every unread byte counted. -/
def Timely (p : FileTransfer) (e : FileEvent) : Prop :=
  InOrder p e ∧ match e with
    | .segment r => if r.Flag = finAck then Counted p
        else p.sock.readBuffer.unreadCount.toNat = 65535 ∨
          p.sock.readBuffer.unreadCount.toNat + r.Payload.length ≤ 65535
    | .reader => True

def ReaderOnly (_ : FileTransfer) : FileEvent → Prop
  | .segment _ => False
  | .reader => True

/-- The file is complete when the loop ends, and once the FIN is processed the reader
alone still gets every acknowledged byte. -/
def Complete (p : FileTransfer) : Prop :=
  (p.pc = .ended → p.file = p.acked) ∧
    (p.sock.state = .closeWait →
      ∃ p', Reach step ReaderOnly p p' ∧ p'.pc = .ended ∧ p'.file = p.acked)

instance (p : FileTransfer) : Decidable p.Counted :=
  match h : p.pc with
  | .count => .isTrue (by simp [Counted, h])
  | .locked num_buf => decidable_of_iff (num_buf = p.sock.readBuffer.unreadCount.toNat)
      (by simp [Counted, h])
  | .check | .poll | .vRead | .ended =>
      decidable_of_iff (p.sock.readBuffer.unreadCount.toNat = 0) (by simp [Counted, h])

instance (p : FileTransfer) (e : FileEvent) : Decidable (InOrder p e) :=
  match e with
  | .segment _ => inferInstanceAs (Decidable (_ ∧ _))
  | .reader => .isTrue trivial

instance (p : FileTransfer) (e : FileEvent) : Decidable (Timely p e) :=
  match e with
  | .segment r => inferInstanceAs (Decidable (InOrder p (.segment r) ∧
      if r.Flag = finAck then Counted p
      else p.sock.readBuffer.unreadCount.toNat = 65535 ∨
        p.sock.readBuffer.unreadCount.toNat + r.Payload.length ≤ 65535))
  | .reader => inferInstanceAs (Decidable (InOrder p .reader ∧ True))

/-- What nothing but the peer's FIN changes on this side of the connection. -/
structure Quiet (sock : NormalSocket) : Prop where
  stateMtx : sock.stateMtx = false
  unackedMtx : sock.unackedMtx = false
  unackedFINs : ∀ n, sock.unackedFINs n = false
  unackedNums : ∀ n, sock.unackedNums n = none
  earlyPQ : sock.earlyPQ = #[]

/-- The connection is open and its numbers agree with its pointers, or the FIN has come. -/
def Phase (p : FileTransfer) : Prop :=
  (p.sock.state = .established ∧ ∃ N R, InSync p.sock N R) ∨
    (p.sock.state = .closeWait ∧ p.Counted)

/-- The reader goes on only when there is something to read. -/
def PcOk (p : FileTransfer) : Prop :=
  match p.pc with
  | .check | .poll => True
  | .vRead | .count => 0 < p.sock.readBuffer.unreadCount.toNat
  | .locked num_buf => 0 < num_buf ∧ num_buf ≤ p.sock.readBuffer.unreadCount.toNat
  | .ended => p.sock.state = .closeWait

structure Inv (p : FileTransfer) : Prop where
  whole : p.file ++ p.sock.readBuffer.unread = p.acked
  quiet : Quiet p.sock
  phase : p.Phase
  pcOk : p.PcOk

theorem start_inv (key : SocketTableKey) (baseSeq baseAck : UInt32) (window : UInt16) :
    (start (newSocket key baseSeq baseAck window)).Inv where
  whole := (List.nil_append _).trans (List.length_eq_zero_iff.mp newReadBuffer.unread_length)
  quiet := ⟨rfl, rfl, fun _ => rfl, fun _ => rfl, rfl⟩
  phase := Or.inl ⟨rfl, 0, 0, (UInt32.add_zero _).symm, rfl, rfl, Nat.le_refl _, Nat.zero_le _⟩
  pcOk := trivial

/-- A segment in order goes past the tests for acknowledgements. -/
theorem receiverThread_inOrder {sock : NormalSocket} (hquiet : Quiet sock) {r : TCPInfo}
    (hack : r.Flag &&& tcpFlagAck > 0) :
    sock.receiverThread r = (sock.noteWindow r).receiveData r :=
  NormalSocket.receiverThread_data hack (Or.inr (hquiet.unackedNums _)) hquiet.unackedMtx
    (hquiet.unackedFINs _)

/-- Data in order is appended to the unread bytes, or dropped when the buffer is full. -/
theorem receiverThread_data {sock : NormalSocket} (hquiet : Quiet sock) {N R : ℕ}
    (hsync : InSync sock N R) {r : TCPInfo} (hseq : r.SeqNum = sock.cumReadNXT)
    (hflag : r.Flag = tcpFlagAck)
    (hfit : N - R = 65535 ∨ N - R + r.Payload.length ≤ 65535) :
    ∃ sock' action N', sock.receiverThread r = (sock', action) ∧ Quiet sock' ∧
      sock'.state = sock.state ∧ InSync sock' N' R ∧
      ((action = .bufferFull ∧ sock'.readBuffer = sock.readBuffer) ∨
        ((∃ packet, action = .reply packet) ∧
          sock'.readBuffer.unread = sock.readBuffer.unread ++ r.Payload)) := by
  have hack : r.Flag &&& tcpFlagAck > 0 := by
    rw [hflag]
    decide
  have hfin : ¬ r.Flag &&& tcpFlagFin > 0 := by
    rw [hflag]
    decide
  have hread := hsync.read_le
  have hwindow := hsync.le_window
  have hnote := sock.noteWindow_ack hack
  have hnoted : InSync { sock with ClientWindowSize := r.WindowSize } N R :=
    ⟨hsync.cum, hsync.nxt, hsync.lbr, hsync.read_le, hsync.le_window⟩
  have hquiet' : Quiet { sock with ClientWindowSize := r.WindowSize } :=
    ⟨hquiet.stateMtx, hquiet.unackedMtx, hquiet.unackedFINs, hquiet.unackedNums, hquiet.earlyPQ⟩
  have hnot : ¬ r.SeqNum >
      ({ sock with ClientWindowSize := r.WindowSize } : NormalSocket).cumReadNXT := by
    rw [hseq]
    exact UInt32.lt_irrefl _
  rw [receiverThread_inOrder hquiet hack, hnote]
  by_cases hfull : N = R + 65535
  · rw [NormalSocket.receiveData_full hnot hfin (hnoted.full_iff.mpr hfull)]
    exact ⟨_, _, N, rfl, hquiet', rfl, hnoted, Or.inl ⟨rfl, rfl⟩⟩
  · have hroom : ringDist
        ({ sock with ClientWindowSize := r.WindowSize } : NormalSocket).readBuffer.LBR
        ({ sock with ClientWindowSize := r.WindowSize } : NormalSocket).readBuffer.NXT ≠ 0 :=
      fun h => hfull (hnoted.full_iff.mp h)
    obtain ⟨hsync', hunread⟩ := hnoted.insertPayload r.Payload (by omega)
    rw [NormalSocket.receiveData_insert hnot hfin hroom, hseq,
      NormalSocket.drainAndReply_empty (by exact hquiet.earlyPQ)]
    exact ⟨_, _, _, rfl, ⟨hquiet.stateMtx, hquiet.unackedMtx, hquiet.unackedFINs,
      hquiet.unackedNums, hquiet.earlyPQ⟩, rfl, hsync', Or.inr ⟨⟨_, rfl⟩, hunread⟩⟩

namespace Inv

variable {p p' : FileTransfer}

/-- The locked part of VRead moves what it counted from the buffer to the file. -/
theorem readOut (h : p.Inv) {num_buf : ℕ} (hpc : p.pc = .locked (num_buf + 1)) :
    Inv { p with
      sock := (p.sock.readOut (num_buf + 1) 65535).1
      file := p.file ++ (p.sock.readOut (num_buf + 1) 65535).2
      pc := .check } := by
  have hok := h.pcOk
  unfold PcOk at hok
  rw [hpc] at hok
  have hlt : p.sock.readBuffer.unreadCount.toNat < 65536 := ringDist_lt _ _
  have hmin : min (num_buf + 1) (65535 : UInt16).toNat = num_buf + 1 := by
    have hmax : (65535 : UInt16).toNat = 65535 := rfl
    omega
  have hdata := (p.sock.readOut_spec (num_buf + 1) 65535 hok.2).1
  have hrest := p.sock.readOut_unread (num_buf + 1) 65535 hok.2
  rw [hmin] at hdata hrest
  refine ⟨?_, ⟨h.quiet.stateMtx, h.quiet.unackedMtx, h.quiet.unackedFINs, h.quiet.unackedNums,
    h.quiet.earlyPQ⟩, ?_, trivial⟩
  · change p.file ++ (p.sock.readOut (num_buf + 1) 65535).2 ++
      (p.sock.readOut (num_buf + 1) 65535).1.readBuffer.unread = p.acked
    rw [hdata, hrest, List.append_assoc, List.take_append_drop]
    exact h.whole
  · rcases h.phase with ⟨hstate, N, R, hsync⟩ | ⟨hstate, hcounted⟩
    · have hle := hok.2
      rw [hsync.unreadCount] at hle
      exact Or.inl ⟨hstate, N, _, (hsync.readOut (num_buf + 1) 65535 hle).1⟩
    · refine Or.inr ⟨hstate, ?_⟩
      unfold Counted at hcounted
      rw [hpc] at hcounted
      change (p.sock.readOut (num_buf + 1) 65535).1.readBuffer.unreadCount.toNat = 0
      rw [← ReadBuffer.unread_length, hrest, List.length_drop, ReadBuffer.unread_length]
      omega

theorem reader (h : p.Inv) (hstep : p.reader = some p') : p'.Inv := by
  obtain ⟨hwhole, hquiet, hphase, hok⟩ := h
  unfold FileTransfer.reader at hstep
  unfold PcOk at hok
  unfold Phase Counted at hphase
  split at hstep
  all_goals rename_i hpc
  all_goals rw [hpc] at hok hphase
  · rw [if_neg (by simp [hquiet.stateMtx])] at hstep
    split at hstep
    · rename_i hstate
      cases hstep
      rcases hphase with ⟨hest, -⟩ | ⟨-, hcounted⟩
      · rw [hest] at hstate
        contradiction
      · exact ⟨hwhole, hquiet, Or.inr ⟨hstate, hcounted⟩, hstate⟩
    · rename_i hstate
      cases hstep
      rcases hphase with hest | ⟨hclosed, -⟩
      · exact ⟨hwhole, hquiet, Or.inl hest, trivial⟩
      · contradiction
  · cases hstep
    split
    · rename_i hcount
      have hpos : 0 < p.sock.readBuffer.unreadCount.toNat := UInt32.lt_iff_toNat_lt.mp hcount
      rcases hphase with hest | ⟨-, hcounted⟩
      · exact ⟨hwhole, hquiet, Or.inl hest, hpos⟩
      · simp only at hcounted
        omega
    · exact ⟨hwhole, hquiet, hphase, trivial⟩
  · rw [if_neg (by simp [hquiet.stateMtx])] at hstep
    split at hstep
    · cases hstep
      exact ⟨hwhole, hquiet, hphase, trivial⟩
    · rename_i hstate
      cases hstep
      rcases hphase with hest | ⟨hclosed, -⟩
      · exact ⟨hwhole, hquiet, Or.inl hest, hok⟩
      · exact absurd (Or.inl hclosed) hstate
  · cases hstep
    refine ⟨hwhole, hquiet, ?_, hok, Nat.le_refl _⟩
    rcases hphase with hest | ⟨hclosed, -⟩
    · exact Or.inl hest
    · exact Or.inr ⟨hclosed, rfl⟩
  · exact absurd hok.1 (Nat.lt_irrefl 0)
  · cases hstep
    rename_i num_buf
    have hinv : p.Inv := by
      refine ⟨hwhole, hquiet, ?_, ?_⟩
      · unfold Phase Counted
        rw [hpc]
        exact hphase
      · unfold PcOk
        rw [hpc]
        exact hok
    exact hinv.readOut hpc
  · contradiction

/-- The pointers may have moved on; the reader still has something to read. -/
theorem pcOk_mono (hok : p.PcOk) (hpc : p'.pc = p.pc) (hstate : p.sock.state ≠ .closeWait)
    (hle : p.sock.readBuffer.unreadCount.toNat ≤ p'.sock.readBuffer.unreadCount.toNat) :
    p'.PcOk := by
  unfold PcOk at hok ⊢
  rw [hpc]
  cases hcase : p.pc with
  | check | poll => trivial
  | vRead | count =>
    rw [hcase] at hok
    exact Nat.lt_of_lt_of_le hok hle
  | locked num_buf =>
    rw [hcase] at hok
    exact ⟨hok.1, hok.2.trans hle⟩
  | ended =>
    rw [hcase] at hok
    contradiction

theorem data (h : p.Inv) {r : TCPInfo} (hopen : p.sock.state ≠ .closeWait)
    (hseq : r.SeqNum = p.sock.cumReadNXT) (hflag : r.Flag = tcpFlagAck)
    (hfit : p.sock.readBuffer.unreadCount.toNat = 65535 ∨
      p.sock.readBuffer.unreadCount.toNat + r.Payload.length ≤ 65535) : (p.deliver r).Inv := by
  rcases h.phase with ⟨hstate, N, R, hsync⟩ | ⟨hclosed, -⟩
  · rw [hsync.unreadCount] at hfit
    obtain ⟨sock', action, N', heq, hquiet', hstate', hsync', hcases⟩ :=
      receiverThread_data h.quiet hsync hseq hflag hfit
    have hphase : (p.deliver r).sock.state = .established ∧
        ∃ N R, InSync (p.deliver r).sock N R := by
      unfold deliver
      rw [heq]
      exact ⟨hstate'.trans hstate, N', R, hsync'⟩
    have hcount : p.sock.readBuffer.unreadCount.toNat ≤
        (p.deliver r).sock.readBuffer.unreadCount.toNat := by
      unfold deliver
      rw [heq]
      rcases hcases with ⟨-, hsame⟩ | ⟨-, hunread⟩
      · rw [hsame]
      · rw [← ReadBuffer.unread_length, ← ReadBuffer.unread_length, hunread, List.length_append]
        exact Nat.le_add_right _ _
    refine ⟨?_, ?_, Or.inl hphase, pcOk_mono h.pcOk rfl hopen hcount⟩
    · unfold deliver
      rw [heq]
      rcases hcases with ⟨rfl, hsame⟩ | ⟨⟨packet, rfl⟩, hunread⟩
      · simp only [hsame]
        exact h.whole
      · simp only [hunread]
        rw [← List.append_assoc, h.whole]
    · unfold deliver
      rw [heq]
      exact hquiet'
  · contradiction

theorem fin (h : p.Inv) {r : TCPInfo} (hopen : p.sock.state ≠ .closeWait)
    (hseq : r.SeqNum = p.sock.cumReadNXT) (hflag : r.Flag = finAck) (hnil : r.Payload = [])
    (hcounted : p.Counted) : (p.deliver r).Inv := by
  rcases h.phase with ⟨hstate, -⟩ | ⟨hclosed, -⟩
  · obtain ⟨hstateMtx, hunackedMtx, hfins, hnums, hempty⟩ := h.quiet
    have heq := NormalSocket.receiverThread_fin hflag hseq (hnums _) (hfins _) hunackedMtx
      hstateMtx hempty (hstate ▸ NormalSocket.TakesFIN.passive)
    have hnext : p.deliver r = { p with
        sock := p.sock.afterFIN r .closeWait
        stuck := false } := by
      unfold deliver
      rw [heq]
      simp only [hnil, List.append_nil, reduceCtorEq, decide_false]
    rw [hnext]
    exact ⟨h.whole, ⟨hstateMtx, hunackedMtx, hfins, hnums, hempty⟩, Or.inr ⟨rfl, hcounted⟩,
      pcOk_mono h.pcOk rfl hopen (Nat.le_refl _)⟩
  · contradiction

theorem step (h : p.Inv) {e : FileEvent} (hok : Timely p e) (hstep : p.step e = some p') :
    p'.Inv := by
  cases e with
  | segment r =>
    obtain ⟨⟨hopen, hseq, hflag⟩, hfit⟩ := hok
    simp only [FileTransfer.step] at hstep
    split at hstep
    · contradiction
    · cases hstep
      simp only at hfit
      rcases hflag with hflag | ⟨hflag, hnil⟩
      · rw [if_neg (by rw [hflag]; decide)] at hfit
        exact h.data hopen hseq hflag hfit
      · rw [if_pos hflag] at hfit
        exact h.fin hopen hseq hflag hnil hfit
  | reader => exact h.reader hstep

end Inv

/-- How many steps the reader still takes once the FIN has come. -/
def left : FilePc → ℕ
  | .ended | .vRead => 0
  | .check => 1
  | .poll | .locked _ => 2
  | .count => 3

/-- After the FIN the reader comes to its end, one step after another. -/
theorem closing_step {p : FileTransfer} (h : p.Inv) (hclosed : p.sock.state = .closeWait)
    (hpc : p.pc ≠ .ended) :
    ∃ p', p.reader = some p' ∧ p'.sock.state = .closeWait ∧ p'.acked = p.acked ∧
      left p'.pc < left p.pc := by
  have hok := h.pcOk
  have hphase := h.phase
  unfold PcOk at hok
  unfold Phase Counted at hphase
  unfold reader
  cases hcase : p.pc with
  | ended => contradiction
  | check =>
    rw [if_neg (by simp [h.quiet.stateMtx]), if_pos hclosed]
    exact ⟨_, rfl, hclosed, rfl, by simp [left]⟩
  | poll =>
    rw [hcase, hclosed] at hphase
    rcases hphase with ⟨hest, -⟩ | ⟨-, hzero⟩
    · contradiction
    · refine ⟨_, rfl, hclosed, rfl, ?_⟩
      have hnot : ¬ p.sock.readBuffer.unreadCount > 0 := by
        intro hpos
        have hpos' : 0 < p.sock.readBuffer.unreadCount.toNat := UInt32.lt_iff_toNat_lt.mp hpos
        simp only at hzero
        omega
      rw [if_neg hnot]
      simp [left]
  | vRead =>
    rw [hcase, hclosed] at hphase
    rw [hcase] at hok
    rcases hphase with ⟨hest, -⟩ | ⟨-, hzero⟩
    · contradiction
    · simp only at hzero hok
      omega
  | count => exact ⟨_, rfl, hclosed, rfl, by simp [left]⟩
  | locked num_buf =>
    rw [hcase] at hok
    cases num_buf with
    | zero => exact absurd hok.1 (Nat.lt_irrefl 0)
    | succ num_buf => exact ⟨_, rfl, hclosed, rfl, by simp [left]⟩

/-- When the loop ends nothing is unread. -/
theorem Inv.ended {p : FileTransfer} (h : p.Inv) (hpc : p.pc = .ended) : p.file = p.acked := by
  have hclosed := h.pcOk
  have hphase := h.phase
  unfold PcOk at hclosed
  unfold Phase Counted at hphase
  rw [hpc] at hclosed hphase
  simp only at hclosed
  rw [hclosed] at hphase
  rcases hphase with ⟨hest, -⟩ | ⟨-, hzero⟩
  · contradiction
  · have hnil : p.sock.readBuffer.unread = [] := by
      rw [← List.length_eq_zero_iff, ReadBuffer.unread_length]
      exact hzero
    rw [← h.whole, hnil, List.append_nil]

theorem closing_reach (n : ℕ) {p : FileTransfer} (h : p.Inv)
    (hclosed : p.sock.state = .closeWait) (hleft : left p.pc ≤ n) :
    ∃ p', Reach step ReaderOnly p p' ∧ p'.pc = .ended ∧ p'.file = p.acked := by
  induction n generalizing p with
  | zero =>
    by_cases hpc : p.pc = .ended
    · exact ⟨p, Reach.refl, hpc, h.ended hpc⟩
    · obtain ⟨p', -, -, -, hless⟩ := closing_step h hclosed hpc
      omega
  | succ n ih =>
    by_cases hpc : p.pc = .ended
    · exact ⟨p, Reach.refl, hpc, h.ended hpc⟩
    · obtain ⟨p', hnext, hclosed', hacked, hless⟩ := closing_step h hclosed hpc
      obtain ⟨q, hreach, hend, hfile⟩ := ih (h.reader hnext) hclosed' (by omega)
      have hfirst : Reach step ReaderOnly p p' := Reach.tail .reader Reach.refl trivial hnext
      exact ⟨q, hfirst.trans hreach, hend, hfile.trans hacked⟩

/-- In every run whose segments fit and whose FIN finds the unread bytes counted, the
received file is complete. -/
theorem counted_file_complete (key : SocketTableKey) (baseSeq baseAck : UInt32) (window : UInt16)
    {p : FileTransfer}
    (h : Reach step Timely (start (newSocket key baseSeq baseAck window)) p) : Complete p := by
  have hinv : p.Inv := h.invariant Inv (start_inv key baseSeq baseAck window)
    (fun _ _ _ hinv hok hstep => hinv.step hok hstep)
  exact ⟨hinv.ended, fun hclosed => closing_reach _ hinv hclosed (Nat.le_refl _)⟩

def sampleFIN (seq : UInt32) : TCPInfo := { sampleSegment seq [] with Flag := finAck }

/-- The FIN comes while VRead is between its state check and its count. -/
theorem counted_file_complete_one_byte :
    ∃ p, p.pc = .ended ∧ p.file = [5] ∧ Complete p := by
  obtain ⟨p, hreach, hpc, hfile⟩ := exists_reach step Timely
    (start (newSocket sampleKey 7 100 8)) (fun p => p.pc = .ended ∧ p.file = [5])
    [.segment (sampleSegment 101 [5]), .reader, .reader, .reader, .segment (sampleFIN 102),
      .reader, .reader, .reader] (by decide)
  exact ⟨p, hpc, hfile, counted_file_complete sampleKey 7 100 8 hreach⟩

/-- The FIN comes before the loop looks at the state again: the byte is lost. -/
theorem fin_truncates_file :
    ¬ ∀ (key : SocketTableKey) (baseSeq baseAck : UInt32) (window : UInt16) (p : FileTransfer),
      Reach step InOrder (start (newSocket key baseSeq baseAck window)) p → Complete p := by
  intro hclaim
  obtain ⟨p, hreach, hpc, hfile, hacked⟩ := exists_reach step InOrder
    (start (newSocket sampleKey 7 100 8)) (fun p => p.pc = .ended ∧ p.file = [] ∧ p.acked = [5])
    [.segment (sampleSegment 101 [5]), .segment (sampleFIN 102), .reader] (by decide)
  have hcomplete := (hclaim sampleKey 7 100 8 p hreach).1 hpc
  rw [hfile, hacked] at hcomplete
  contradiction

end FileTransfer

end IpTcp
