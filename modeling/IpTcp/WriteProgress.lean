import IpTcp.WriteRing

/-!
Whether VWrite gets on. Its formula for the free space takes an empty buffer for a
full one: in a turn that is not the first of its call the buffer counts as full
when everything written is acknowledged, and in the first turn when `LBW` is at
the end of the buffer. Such a turn copies nothing. If it never comes to that, every
turn copies a byte, and a call makes at most as many turns as its message has bytes.
-/
namespace IpTcp

open Runs RingBuffer

namespace NormalSocket

/-- The written bytes that are not acknowledged, as the ring pointers give them. -/
def unackedCount (sock : NormalSocket) : ℕ :=
  (ringDist (sock.writeBuffer.LBW + 1) sock.writeBuffer.UNA).toNat

/-- The first turn of a call finds `LBW` before the end of the buffer, any other one finds
something that is not acknowledged. -/
def Roomy (sock : NormalSocket) (call : WriteCall) : Prop :=
  if !sock.notFirstWrite ∨ call.new_message then sock.writeBuffer.LBW ≠ 65535
  else 0 < sock.unackedCount

instance (sock : NormalSocket) (call : WriteCall) : Decidable (sock.Roomy call) :=
  inferInstanceAs (Decidable (ite _ _ _))

theorem space_pos (sock : NormalSocket) (call : WriteCall) :
    0 < (sock.space call).toNat ↔ sock.Roomy call := by
  have hL := sock.writeBuffer.LBW_lt
  have hU := sock.writeBuffer.UNA_lt
  have hone : (1 : UInt32).toNat = 1 := rfl
  unfold space Roomy
  split
  · have hend : sock.writeBuffer.LBW ≠ 65535 ↔ sock.writeBuffer.LBW.toNat ≠ 65535 := by
      rw [not_iff_not, ← UInt32.toNat_inj]
      rfl
    have hwin : (windowSize - 1 : UInt32).toNat = 65535 := rfl
    rw [hend, UInt32.toNat_sub, hwin]
    omega
  · have hnext : (sock.writeBuffer.LBW + 1).toNat = sock.writeBuffer.LBW.toNat + 1 :=
      toNat_add_ofNat _ 1 (by omega)
    unfold unackedCount
    rw [toNat_ringDist, toNat_ringDist, hnext, UInt32.toNat_sub, hone]
    omega

/-- A turn copies a byte exactly if it finds space. -/
theorem chunkSize_pos {call : WriteCall} (hgoes : call.goesOn) (space : UInt32) :
    0 < chunkSize call space ↔ 0 < space.toNat := by
  have hlt := UInt32.lt_iff_toNat_lt.mp hgoes
  rw [UInt32.toNat_ofNat'] at hlt
  unfold chunkSize
  omega

end NormalSocket

structure CountedPipe where
  pipe : Pipe
  turns : ℕ

namespace CountedPipe

def start (sock : NormalSocket) : CountedPipe := ⟨Pipe.start sock, 0⟩

/-- The test of the loop that comes next lets VWrite in. -/
def enters (p : Pipe) : Bool :=
  match p.writer with
  | .testing call => decide call.goesOn
  | _ => false

def count (c : CountedPipe) : PipeEvent → ℕ
  | .call _ => 0
  | .test => if enters c.pipe then c.turns + 1 else c.turns
  | _ => c.turns

def step (c : CountedPipe) (e : PipeEvent) : Option CountedPipe :=
  (c.pipe.step e).map fun p => ⟨p, c.count e⟩

/-- Each turn that begins finds room, and messages have less than 2^32 bytes. -/
def RoomyTurns (c : CountedPipe) : PipeEvent → Prop
  | .call message => message.length < 4294967296
  | .test =>
      match c.pipe.writer with
      | .testing call => call.goesOn → c.pipe.sock.Roomy call
      | _ => True
  | _ => True

instance (c : CountedPipe) (e : PipeEvent) : Decidable (RoomyTurns c e) :=
  match e with
  | .call _ => inferInstanceAs (Decidable (_ < _))
  | .test =>
      match hpc : c.pipe.writer with
      | .testing call => decidable_of_iff (call.goesOn → c.pipe.sock.Roomy call)
          (by simp [RoomyTurns, hpc])
      | .idle => .isTrue (by simp [RoomyTurns, hpc])
      | .copying _ _ => .isTrue (by simp [RoomyTurns, hpc])
      | .handing _ => .isTrue (by simp [RoomyTurns, hpc])
  | .copy | .handOver | .build | .move _ _ | .finish => .isTrue trivial

def Copies (c : CountedPipe) (call : WriteCall) : Prop :=
  ∃ c' call', c.step .copy = some c' ∧ c'.pipe.writer = .handing call' ∧
    call'.message = call.message ∧ call.bytesSent < call'.bytesSent

/-- VWrite gets on: it began at most as many turns as its message has bytes, its next step is
possible (at the channel, as soon as SenderThread takes the number), its turn copies a byte,
and its loop ends with the whole message written. -/
def GetsOn (c : CountedPipe) : Prop :=
  match c.pipe.writer with
  | .idle => True
  | .testing call => c.turns ≤ call.message.length ∧ (c.step .test).isSome ∧
      (¬ call.goesOn → call.bytesSent.toNat = call.message.length)
  | .copying call _ => c.turns ≤ call.message.length ∧ c.Copies call
  | .handing call => c.turns ≤ call.message.length ∧
      (c.pipe.sender = .idle → (c.step .handOver).isSome)

def Turned (c : CountedPipe) : Prop :=
  match c.pipe.writer with
  | .idle => True
  | .testing call => c.turns ≤ call.bytesSent.toNat
  | .copying call space => c.turns ≤ call.bytesSent.toNat + 1 ∧ call.goesOn ∧
      0 < NormalSocket.chunkSize call space
  | .handing call => c.turns ≤ call.bytesSent.toNat

variable {c c' : CountedPipe} {call : WriteCall} {space : UInt32}

/-- How far a call has come, in a run with short messages. -/
structure Sized (call : WriteCall) : Prop where
  sent_le : call.bytesSent.toNat ≤ call.message.length
  short : call.message.length < 4294967296

theorem Sized.lt_of_goesOn (h : Sized call) (hgoes : call.goesOn) :
    call.bytesSent.toNat < call.message.length := by
  have hlt := UInt32.lt_iff_toNat_lt.mp hgoes
  rw [UInt32.toNat_ofNat', Nat.mod_eq_of_lt h.short] at hlt
  exact hlt

theorem Sized.eq_of_end (h : Sized call) (hend : ¬ call.goesOn) :
    call.bytesSent.toNat = call.message.length := by
  have hge := UInt32.le_iff_toNat_le.mp (UInt32.not_lt.mp hend)
  rw [UInt32.toNat_ofNat', Nat.mod_eq_of_lt h.short] at hge
  exact Nat.le_antisymm h.sent_le hge

/-- The copy step of a turn. -/
theorem Sized.copy (h : Sized call) (sock : NormalSocket) (space : UInt32) :
    ∃ call', sock.copyChunk call space = some (sock.storeBytes
        ((call.message.drop call.bytesSent.toNat).take (NormalSocket.chunkSize call space)),
        call') ∧ call'.message = call.message ∧
      call'.bytesSent.toNat = call.bytesSent.toNat + NormalSocket.chunkSize call space := by
  have hle := h.sent_le
  have hshort := h.short
  refine ⟨_, sock.copyChunk_eq call space (by rw [Nat.mod_eq_of_lt hshort]; exact hle), rfl, ?_⟩
  refine toNat_add_ofNat _ _ ?_
  unfold NormalSocket.chunkSize
  omega

theorem sized_of_progress {messages : List (List UInt8)} {written : List UInt8}
    (h : WriteRing.Progress messages written call) : Sized call := by
  obtain ⟨-, -, -, hle, hsize⟩ := h
  exact ⟨hle, hsize⟩

theorem senderStep_writer {p p' : Pipe} {e : PipeEvent} (h : p.senderStep e = some p') :
    p'.writer = p.writer := by
  unfold Pipe.senderStep at h
  repeat' split at h
  all_goals first | contradiction | (cases h; rfl)

/-- A step of SenderThread leaves VWrite where it was. -/
theorem Turned.of_writer (h : c.Turned) (hwriter : c'.pipe.writer = c.pipe.writer)
    (hturns : c'.turns = c.turns) : c'.Turned := by
  unfold Turned
  rw [hwriter, hturns]
  exact h

theorem Turned.step {e : PipeEvent} (h : c.Turned) (hrefines : WriteRing.Refines c.pipe)
    (hok : RoomyTurns c e) (hstep : c.step e = some c') : c'.Turned := by
  obtain ⟨written, A, S, H, L, hflow⟩ := hrefines
  obtain ⟨p', hp, rfl⟩ := Option.map_eq_some_iff.mp hstep
  unfold Pipe.step at hp
  rw [hflow.running] at hp
  have hwriter := hflow.writer
  unfold Turned at h
  cases e with
  | call message =>
    simp only [Bool.false_eq_true, if_false, Pipe.writerStep] at hp
    split at hp
    · split at hp
      · contradiction
      · cases hp
        exact Nat.zero_le _
    · contradiction
  | test =>
    simp only [Bool.false_eq_true, if_false, Pipe.writerStep] at hp
    split at hp
    · rename_i call hpc
      simp only [hpc] at h
      split at hp
      · rename_i hgoes
        cases hp
        have hroom : c.pipe.sock.Roomy call := by
          simp only [RoomyTurns, hpc] at hok
          exact hok hgoes
        have hcount : c.count .test = c.turns + 1 := by simp [count, enters, hpc, hgoes]
        refine ⟨?_, hgoes, ?_⟩
        · rw [hcount]
          exact Nat.succ_le_succ h
        · exact (NormalSocket.chunkSize_pos hgoes _).mpr ((c.pipe.sock.space_pos call).mpr hroom)
      · cases hp
        trivial
    · contradiction
  | copy =>
    simp only [Bool.false_eq_true, if_false, Pipe.writerStep] at hp
    split at hp
    · rename_i call space hpc
      rw [hpc] at hwriter
      simp only [hpc] at h
      obtain ⟨hturns, -, hpos⟩ := h
      obtain ⟨call', hcopy, -, hsent⟩ := (sized_of_progress hwriter.1).copy c.pipe.sock space
      rw [hcopy] at hp
      cases hp
      change c.turns ≤ call'.bytesSent.toNat
      omega
    · contradiction
  | handOver =>
    simp only [Bool.false_eq_true, if_false, Pipe.handOver] at hp
    split at hp
    · rename_i call hpc _
      simp only [hpc] at h
      cases hp
      exact h
    · contradiction
  | build | move sent acked | finish =>
    simp only [Bool.false_eq_true, if_false] at hp
    exact Turned.of_writer h (senderStep_writer hp) rfl

theorem copy_step {sock' : NormalSocket} {call' : WriteCall} (hrunning : c.pipe.panicked = false)
    (hpc : c.pipe.writer = .copying call space)
    (hcopy : c.pipe.sock.copyChunk call space = some (sock', call')) :
    c.step .copy = some ⟨{ c.pipe with sock := sock', writer := .handing call' }, c.turns⟩ := by
  simp only [step, Pipe.step, hrunning, Bool.false_eq_true, if_false, Pipe.writerStep, hpc, hcopy]
  rfl

theorem GetsOn.of_turned (h : c.Turned) (hrefines : WriteRing.Refines c.pipe) : c.GetsOn := by
  obtain ⟨written, A, S, H, L, hflow⟩ := hrefines
  have hwriter := hflow.writer
  have hrunning := hflow.running
  unfold Turned at h
  unfold GetsOn
  cases hpc : c.pipe.writer with
  | idle => trivial
  | testing call =>
    rw [hpc] at hwriter
    simp only [hpc] at h
    have hsized := sized_of_progress hwriter.1
    refine ⟨h.trans hsized.sent_le, ?_, hsized.eq_of_end⟩
    simp only [step, Pipe.step, hrunning, Bool.false_eq_true, if_false, Pipe.writerStep, hpc,
      Option.isSome_map]
    split <;> rfl
  | copying call space =>
    rw [hpc] at hwriter
    simp only [hpc] at h
    obtain ⟨hturns, hgoes, hpos⟩ := h
    have hsized := sized_of_progress hwriter.1
    have hlt := hsized.lt_of_goesOn hgoes
    obtain ⟨call', hcopy, hmessage, hsent⟩ := hsized.copy c.pipe.sock space
    refine ⟨by omega, _, call', copy_step hrunning hpc hcopy, rfl, hmessage, ?_⟩
    rw [UInt32.lt_iff_toNat_lt]
    omega
  | handing call =>
    rw [hpc] at hwriter
    simp only [hpc] at h
    have hsized := sized_of_progress hwriter.1
    refine ⟨h.trans hsized.sent_le, ?_⟩
    intro hsender
    simp [step, Pipe.step, hrunning, Pipe.handOver, hpc, hsender]

/-- The buffer is never near full: one chunk is with slidingWindow and one is waiting. -/
theorem unackedCount_lt (hrefines : WriteRing.Refines c.pipe) :
    c.pipe.sock.unackedCount < 65535 := by
  obtain ⟨written, A, S, H, L, hflow⟩ := hrefines
  have hclose := hflow.channel_close
  have hwriter := hflow.writer
  have hwaiting : written.length ≤ L + 1360 := by
    cases hpc : c.pipe.writer with
    | handing call =>
      rw [hpc] at hwriter
      exact hwriter.2.2
    | idle | testing call | copying call space =>
      rw [hpc] at hwriter
      exact hwriter.2.le.trans (Nat.le_add_right _ _)
  have hcount : c.pipe.sock.unackedCount = written.length - A := hflow.unacked_count (by omega)
  omega

theorem refines_of_reach (key : SocketTableKey) (baseSeq baseAck : UInt32) (window : UInt16)
    (h : Reach step RoomyTurns (start (newSocket key baseSeq baseAck window)) c) :
    WriteRing.Refines c.pipe ∧ c.Turned := by
  refine h.invariant (fun c => WriteRing.Refines c.pipe ∧ c.Turned)
    ⟨WriteRing.start_refines key baseSeq baseAck window, trivial⟩ ?_
  rintro c e c' ⟨hrefines, hturned⟩ hok hstep
  obtain ⟨p', hp, hc⟩ := Option.map_eq_some_iff.mp hstep
  have hshort : WriteRing.ShortMessages c.pipe e := by
    cases e with
    | call message => exact hok
    | test | copy | handOver | build | move sent acked | finish => trivial
  refine ⟨?_, hturned.step hrefines hok hstep⟩
  rw [← hc]
  exact hrefines.step e hshort hp

/-- In every run whose turns find room VWrite gets on, with less than a full buffer
unacknowledged; and a turn copies a byte exactly if it finds room. -/
theorem roomy_writes_end (key : SocketTableKey) (baseSeq baseAck : UInt32) (window : UInt16)
    (c : CountedPipe)
    (h : Reach step RoomyTurns (start (newSocket key baseSeq baseAck window)) c) :
    c.GetsOn ∧ c.pipe.sock.unackedCount < 65535 ∧
      ∀ call, c.pipe.writer = .testing call → call.goesOn →
        (0 < NormalSocket.chunkSize call (c.pipe.sock.space call) ↔ c.pipe.sock.Roomy call) := by
  obtain ⟨hrefines, hturned⟩ := refines_of_reach key baseSeq baseAck window h
  refine ⟨GetsOn.of_turned hturned hrefines, unackedCount_lt hrefines, ?_⟩
  intro call _ hgoes
  rw [NormalSocket.chunkSize_pos hgoes, NormalSocket.space_pos]

/-- A message of 1361 bytes is written in two turns. When the second one begins, one byte of
the first is not yet acknowledged. -/
theorem roomy_writes_end_two_turns :
    ∃ c, Reach step RoomyTurns (start (newSocket sampleKey 0 100 8)) c ∧
      c.pipe.messages = [List.replicate 1361 0] ∧ c.turns = 2 ∧ c.GetsOn := by
  obtain ⟨c, hreach, hmessages, hturns⟩ := exists_reach step RoomyTurns
    (start (newSocket sampleKey 0 100 8))
    (fun c => c.pipe.messages = [List.replicate 1361 0] ∧ c.turns = 2)
    [.call (List.replicate 1361 0), .test, .copy, .handOver, .build, .move 1360 1359, .test, .copy]
    (by decide +kernel)
  exact ⟨c, hreach, hmessages, hturns, (roomy_writes_end sampleKey 0 100 8 c hreach).1⟩

def copiesNothing (c : CountedPipe) : Bool :=
  match c.pipe.writer, (c.step .copy).map (fun c' => c'.pipe.writer) with
  | .copying call _, some (WriterPc.handing call') => call'.bytesSent = call.bytesSent
  | _, _ => false

/-- The first chunk of a message is acknowledged before the second turn begins: that turn
copies nothing although the buffer is empty. -/
theorem empty_turn :
    ¬ ∀ (key : SocketTableKey) (baseSeq baseAck : UInt32) (window : UInt16) (c : CountedPipe),
      Reach step (fun _ _ => True) (start (newSocket key baseSeq baseAck window)) c →
      ∀ call space, c.pipe.writer = .copying call space → c.pipe.sock.unackedCount < 65535 →
        c.Copies call := by
  intro hclaim
  obtain ⟨c, hreach, hnothing, hunacked⟩ := exists_reach step (fun _ _ => True)
    (start (newSocket sampleKey 0 100 8))
    (fun c => copiesNothing c = true ∧ c.pipe.sock.unackedCount = 0)
    [.call (List.replicate 1361 0), .test, .copy, .handOver, .build, .move 1360 1360, .finish,
      .test] (by decide +kernel)
  unfold copiesNothing at hnothing
  split at hnothing
  · rename_i call space call' hpc hcopied
    obtain ⟨c', call'', hstep, hhanding, -, hlt⟩ :=
      hclaim sampleKey 0 100 8 c hreach call space hpc (by omega)
    rw [hstep, Option.map_some, hhanding] at hcopied
    cases hcopied
    rw [of_decide_eq_true hnothing] at hlt
    exact UInt32.lt_irrefl _ hlt
  · contradiction

end CountedPipe

end IpTcp
