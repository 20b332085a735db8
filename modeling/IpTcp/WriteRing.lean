import IpTcp.Runs
import IpTcp.Writer

/-!
The write buffer as a queue of bytes between VWrite and SenderThread. Since the
channel between them has no buffer, at most one chunk is with slidingWindow and
at most one more waits in the buffer, whatever the three formulas for the free
space say. What slidingWindow does is kept abstract here: it moves `NXT` and
`UNA` in any steps and returns when both are past the whole payload.
-/
namespace IpTcp

open RingBuffer

namespace NormalSocket

def storeBytes (sock : NormalSocket) (bytes : List UInt8) : NormalSocket :=
  { sock with
    writeBuffer := { sock.writeBuffer with
      buffer := write sock.writeBuffer.buffer (sock.writeBuffer.LBW.toNat + 1) bytes
      LBW := (sock.writeBuffer.LBW + UInt32.ofNat bytes.length) % windowSize
      LBW_lt := mod_windowSize_lt _ } }

/-- The number of bytes a turn of the loop in VWrite copies. -/
def chunkSize (call : WriteCall) (space : UInt32) : ℕ :=
  min (min (call.message.length % 4294967296 - call.bytesSent.toNat) space.toNat) 1360

theorem messageSlice_eq {message : List UInt8} {lo hi : UInt32} (h : lo.toNat ≤ hi.toNat)
    (hhi : hi.toNat ≤ message.length) :
    messageSlice message lo hi = some ((message.drop lo.toNat).take (hi.toNat - lo.toNat)) := by
  rw [messageSlice, if_pos ⟨h, hhi⟩]

theorem to_write_eq (call : WriteCall) (space : UInt32)
    (hsent : call.bytesSent.toNat ≤ call.message.length % 4294967296) :
    min (min (UInt32.ofNat call.message.length - call.bytesSent) space)
      (UInt32.ofNat (maxMessageSize - 40)) = UInt32.ofNat (chunkSize call space) := by
  have hlt := call.bytesSent.toNat_lt
  apply UInt32.toNat_inj.mp
  simp only [UInt32.toNat_min, UInt32.toNat_sub, UInt32.toNat_ofNat', maxMessageSize, chunkSize]
  omega

/-- The part of a chunk that goes up to the end of the buffer. -/
theorem first_seg_eq (LBW : UInt32) (n : ℕ) (hL : LBW.toNat < 65536) (hn : n ≤ 1360) :
    min (windowSize - LBW - 1) (UInt32.ofNat n) =
      UInt32.ofNat (min (65536 - (LBW.toNat + 1)) n) := by
  have hone : (1 : UInt32).toNat = 1 := rfl
  have hwin : (windowSize : UInt32).toNat = 65536 := rfl
  apply UInt32.toNat_inj.mp
  simp only [UInt32.toNat_min, UInt32.toNat_sub, UInt32.toNat_ofNat', hone, hwin]
  omega

theorem ofNat_sub_ofNat (n k : ℕ) (hk : k ≤ n) (hn : n < 4294967296) :
    UInt32.ofNat n - UInt32.ofNat k = UInt32.ofNat (n - k) := by
  apply UInt32.toNat_inj.mp
  simp only [UInt32.toNat_sub, UInt32.toNat_ofNat']
  omega

/-- A turn of VWrite stores the next bytes of the message; no slice is out of bounds. -/
theorem copyChunk_eq (sock : NormalSocket) (call : WriteCall) (space : UInt32)
    (hsent : call.bytesSent.toNat ≤ call.message.length % 4294967296) :
    sock.copyChunk call space =
      some (sock.storeBytes ((call.message.drop call.bytesSent.toNat).take (chunkSize call space)),
        { call with bytesSent := call.bytesSent + UInt32.ofNat (chunkSize call space) }) := by
  have hL := sock.writeBuffer.LBW_lt
  have hto := to_write_eq call space hsent
  have hsize : chunkSize call space ≤ 1360 ∧
      call.bytesSent.toNat + chunkSize call space ≤ call.message.length ∧
      call.bytesSent.toNat + chunkSize call space < 4294967296 := by
    have hmod : call.message.length % 4294967296 ≤ call.message.length := Nat.mod_le _ _
    unfold chunkSize
    omega
  clear hsent
  generalize chunkSize call space = n at hto hsize ⊢
  obtain ⟨hsmall, hmessage, hword⟩ := hsize
  have hfirst32 := first_seg_eq sock.writeBuffer.LBW n hL hsmall
  have hLnext : (sock.writeBuffer.LBW + 1).toNat = sock.writeBuffer.LBW.toNat + 1 :=
    toNat_add_ofNat _ 1 (by omega)
  obtain ⟨buffer, hcopy1, hcopy2⟩ := copySub_wrapped sock.writeBuffer.buffer
    (sock.writeBuffer.LBW.toNat + 1) ((call.message.drop call.bytesSent.toNat).take n)
    (by simp only [bufferSize]; omega) (by rw [List.length_take]; simp only [bufferSize]; omega)
  have hchunk : ((call.message.drop call.bytesSent.toNat).take n).length = n := by
    rw [List.length_take, List.length_drop]
    omega
  rw [hchunk] at hcopy1 hcopy2
  simp only [bufferSize] at hcopy1 hcopy2
  have hle : min (65536 - (sock.writeBuffer.LBW.toNat + 1)) n ≤ n := Nat.min_le_right _ _
  generalize min (65536 - (sock.writeBuffer.LBW.toNat + 1)) n = first at hfirst32 hcopy1 hcopy2 hle
  have hmid := toNat_add_ofNat call.bytesSent first (by omega)
  have hend : (call.bytesSent + UInt32.ofNat first + UInt32.ofNat (n - first)).toNat =
      call.bytesSent.toNat + n := by
    rw [toNat_add_ofNat _ _ (by omega), hmid]
    omega
  have hstop := toNat_add_ofNat (sock.writeBuffer.LBW + 1) first (by omega)
  have hsecond : (UInt32.ofNat (n - first)).toNat = n - first := by
    rw [UInt32.toNat_ofNat']
    omega
  have hhead : ((call.message.drop call.bytesSent.toNat).take n).take first =
      (call.message.drop call.bytesSent.toNat).take first := by
    rw [List.take_take, Nat.min_eq_left hle]
  have htail : ((call.message.drop call.bytesSent.toNat).take n).drop first =
      (call.message.drop (call.bytesSent.toNat + first)).take (n - first) := by
    rw [List.drop_take, List.drop_drop]
  rw [hhead] at hcopy1
  rw [htail] at hcopy2
  simp only [copyChunk, hto, hfirst32, ofNat_sub_ofNat n first hle (by omega), Option.bind_eq_bind]
  rw [messageSlice_eq (by omega) (by omega), Option.bind_some, hmid, hstop, hLnext,
    Nat.add_sub_cancel_left, hcopy1, Option.bind_some,
    messageSlice_eq (by omega) (by omega), Option.bind_some, hend, hmid, hsecond,
    show call.bytesSent.toNat + n - (call.bytesSent.toNat + first) = n - first by omega, hcopy2,
    Option.bind_some]
  simp only [storeBytes, hchunk]

/-- SenderThread reads from `NXT` up to the number it was given. -/
theorem takeChunk_eq (sock : NormalSocket) (lbw : UInt32)
    (hidle : sock.writeBuffer.NXT = sock.writeBuffer.UNA) :
    ∃ packet, sock.takeChunk lbw = some (some packet) ∧
      packet.payload = slice sock.writeBuffer.buffer sock.writeBuffer.NXT.toNat
        ((lbw.toNat + 4294967297 - sock.writeBuffer.NXT.toNat) % 65536) := by
  have hN := sock.writeBuffer.NXT_lt
  have hlbw := lbw.toNat_lt
  have hone : (1 : UInt32).toNat = 1 := rfl
  have hwin : (windowSize : UInt32).toNat = 65536 := rfl
  have hamount : ((windowSize + (lbw - sock.writeBuffer.NXT + 1)) % windowSize).toNat =
      (lbw.toNat + 4294967297 - sock.writeBuffer.NXT.toNat) % 65536 := by
    simp only [UInt32.toNat_mod, UInt32.toNat_add, UInt32.toNat_sub, hone, hwin]
    omega
  have hlt : (lbw.toNat + 4294967297 - sock.writeBuffer.NXT.toNat) % 65536 < 65536 :=
    Nat.mod_lt _ (by omega)
  clear hlbw
  generalize (lbw.toNat + 4294967297 - sock.writeBuffer.NXT.toNat) % 65536 = amount
    at hamount hlt ⊢
  have hfirst : (min (windowSize - sock.writeBuffer.NXT)
      ((windowSize + (lbw - sock.writeBuffer.NXT + 1)) % windowSize)).toNat =
        min (65536 - sock.writeBuffer.NXT.toNat) amount := by
    rw [UInt32.toNat_min, hamount, UInt32.toNat_sub, hwin]
    omega
  obtain ⟨head, tail, hhead, htail, hslice⟩ := sub_wrapped sock.writeBuffer.buffer
    sock.writeBuffer.NXT.toNat amount (by simp only [bufferSize]; omega)
    (by simp only [bufferSize]; omega)
  simp only [bufferSize] at hhead htail
  have hstop : (sock.writeBuffer.NXT + min (windowSize - sock.writeBuffer.NXT)
      ((windowSize + (lbw - sock.writeBuffer.NXT + 1)) % windowSize)).toNat =
        sock.writeBuffer.NXT.toNat + min (65536 - sock.writeBuffer.NXT.toNat) amount := by
    rw [UInt32.toNat_add, hfirst]
    omega
  have hsecond : ((windowSize + (lbw - sock.writeBuffer.NXT + 1)) % windowSize -
      min (windowSize - sock.writeBuffer.NXT)
        ((windowSize + (lbw - sock.writeBuffer.NXT + 1)) % windowSize)).toNat =
        amount - min (65536 - sock.writeBuffer.NXT.toNat) amount := by
    rw [UInt32.toNat_sub, hfirst, hamount]
    omega
  have hdist : (lbw - sock.writeBuffer.UNA) % windowSize ≥
      (sock.writeBuffer.NXT - sock.writeBuffer.UNA) % windowSize := by
    rw [hidle, UInt32.sub_self]
    exact UInt32.zero_le
  rw [takeChunk, if_pos hdist]
  simp only [Option.bind_eq_bind, hstop, hsecond, hhead, htail, Option.bind_some]
  exact ⟨_, rfl, hslice⟩

/-- slidingWindow sends `sent` more bytes and learns that `acked` more arrived. -/
def moveWindow (sock : NormalSocket) (sent acked : ℕ) : NormalSocket :=
  { sock with
    writeBuffer := { sock.writeBuffer with
      NXT := (sock.writeBuffer.NXT + UInt32.ofNat sent) % windowSize
      UNA := (sock.writeBuffer.UNA + UInt32.ofNat acked) % windowSize
      NXT_lt := sock.nxt_add_lt sent
      UNA_lt := mod_windowSize_lt _ } }

end NormalSocket

inductive WriterPc
  | idle
  | testing (call : WriteCall)
  | copying (call : WriteCall) (space : UInt32)
  | handing (call : WriteCall)

inductive SenderPc
  | idle
  | received (lbw : UInt32)
  | sliding (payload : List UInt8) (sent acked : ℕ)

/-- One writer and SenderThread. `messages` lists the messages of all calls so far,
`payloads` what was passed to slidingWindow. -/
structure Pipe where
  sock : NormalSocket
  writer : WriterPc
  sender : SenderPc
  panicked : Bool
  messages : List (List UInt8)
  payloads : List (List UInt8)

inductive PipeEvent
  | call (message : List UInt8)
  | test
  | copy
  | handOver
  | build
  | move (sent acked : ℕ)
  | finish

namespace Pipe

def start (sock : NormalSocket) : Pipe where
  sock := sock
  writer := .idle
  sender := .idle
  panicked := false
  messages := []
  payloads := []

def writerStep (p : Pipe) : PipeEvent → Option Pipe
  | .call message =>
      match p.writer with
      | .idle =>
          if p.sock.writeRefused then none
          else some { p with
            writer := .testing ⟨message, 0, true⟩
            messages := p.messages ++ [message] }
      | _ => none
  | .test =>
      match p.writer with
      | .testing call =>
          if call.goesOn then
            some { p with
              sock := p.sock.noteFirstWrite
              writer := .copying { call with new_message := false } (p.sock.space call) }
          else some { p with writer := .idle }
      | _ => none
  | .copy =>
      match p.writer with
      | .copying call space =>
          match p.sock.copyChunk call space with
          | none => some { p with panicked := true }
          | some (sock, call) => some { p with sock := sock, writer := .handing call }
      | _ => none
  | _ => none

/-- VWrite does not look at SenderThread, and at the socket only through four functions. A
change of the socket that these do not notice can be made before or after a step. -/
theorem writerStep_map {g : NormalSocket → NormalSocket}
    (hrefused : ∀ sock, (g sock).writeRefused = sock.writeRefused)
    (hnote : ∀ sock, (g sock).noteFirstWrite = g sock.noteFirstWrite)
    (hspace : ∀ sock call, (g sock).space call = sock.space call)
    (hcopy : ∀ sock call space, (g sock).copyChunk call space =
      (sock.copyChunk call space).map fun r => (g r.1, r.2))
    (sp : SenderPc → SenderPc) (old : List (List UInt8) → List (List UInt8)) (w : Pipe)
    (e : PipeEvent) :
    ({ w with sock := g w.sock, sender := sp w.sender, payloads := old w.payloads } :
        Pipe).writerStep e =
      (w.writerStep e).map fun w' =>
        { w' with sock := g w'.sock, sender := sp w'.sender, payloads := old w'.payloads } := by
  rcases w with ⟨sock, writer, sender, panicked, messages, payloads⟩
  cases e with
  | call message =>
    cases writer with
    | idle =>
      simp only [writerStep, hrefused]
      split <;> rfl
    | testing call | copying call space | handing call => rfl
  | test =>
    cases writer with
    | testing call =>
      simp only [writerStep, hnote, hspace]
      split <;> rfl
    | idle | copying call space | handing call => rfl
  | copy =>
    cases writer with
    | copying call space =>
      simp only [writerStep, hcopy]
      cases sock.copyChunk call space <;> rfl
    | idle | testing call | handing call => rfl
  | handOver | build | move sent acked | finish => rfl

def senderStep (p : Pipe) : PipeEvent → Option Pipe
  | .build =>
      match p.sender with
      | .received lbw =>
          match p.sock.takeChunk lbw with
          | none => some { p with panicked := true }
          | some none => some { p with sender := .idle }
          | some (some packet) => some { p with
              sender := .sliding packet.payload 0 0
              payloads := p.payloads ++ [packet.payload] }
      | _ => none
  | .move sent acked =>
      match p.sender with
      | .sliding payload s a =>
          if s + sent ≤ payload.length ∧ a + acked ≤ s + sent then
            some { p with
              sock := p.sock.moveWindow sent acked
              sender := .sliding payload (s + sent) (a + acked) }
          else none
      | _ => none
  | .finish =>
      match p.sender with
      | .sliding payload _ a => if a = payload.length then some { p with sender := .idle } else none
      | _ => none
  | _ => none

/-- The unbuffered channel joins the two threads. -/
def handOver (p : Pipe) : Option Pipe :=
  match p.writer, p.sender with
  | .handing call, .idle => some { p with
      writer := .testing call
      sender := .received p.sock.writeBuffer.LBW }
  | _, _ => none

def step (p : Pipe) (e : PipeEvent) : Option Pipe :=
  if p.panicked then none
  else match e with
    | .call _ | .test | .copy => p.writerStep e
    | .handOver => p.handOver
    | .build | .move _ _ | .finish => p.senderStep e

end Pipe

namespace WriteRing

open Runs

def Progress (messages : List (List UInt8)) (written : List UInt8) (call : WriteCall) : Prop :=
  ∃ earlier, messages = earlier ++ [call.message] ∧
    written = earlier.flatten ++ call.message.take call.bytesSent.toNat ∧
    call.bytesSent.toNat ≤ call.message.length ∧ call.message.length < 4294967296

/-- A call whose loop ends has written its whole message. -/
theorem Progress.complete {messages : List (List UInt8)} {written : List UInt8} {call : WriteCall}
    (h : Progress messages written call) (hend : ¬ call.goesOn) : written = messages.flatten := by
  obtain ⟨earlier, hmessages, hwritten, hle, hsize⟩ := h
  have hge := UInt32.le_iff_toNat_le.mp (UInt32.not_lt.mp hend)
  rw [UInt32.toNat_ofNat'] at hge
  have hall : call.message.take call.bytesSent.toNat = call.message :=
    List.take_of_length_le (by omega)
  rw [hwritten, hmessages, hall]
  simp

/-- `L` counts the bytes written when the writer last got through the channel. -/
def WriterOk (messages : List (List UInt8)) (written : List UInt8) (L : ℕ) : WriterPc → Prop
  | .idle => written = messages.flatten ∧ written.length = L
  | .testing call => Progress messages written call ∧ written.length = L
  | .copying call _ => Progress messages written call ∧ written.length = L
  | .handing call => Progress messages written call ∧ L ≤ written.length ∧
      written.length ≤ L + 1360

/-- `A` bytes are acknowledged, `S` sent, `H` passed to slidingWindow. -/
def SenderOk (A S H L : ℕ) : SenderPc → Prop
  | .idle => A = H ∧ S = H ∧ L = H
  | .received lbw => A = H ∧ S = H ∧ H ≤ L ∧ L ≤ H + 1360 ∧ lbw.toNat = L % 65536
  | .sliding payload s a => L = H ∧ payload.length ≤ 1360 ∧ a ≤ s ∧ s ≤ payload.length ∧
      A + payload.length = H + a ∧ S + payload.length = H + s

/-- The buffer holds the bytes between the acknowledged and the written ones. -/
structure Flowing (p : Pipe) (written : List UInt8) (A S H L : ℕ) : Prop where
  running : p.panicked = false
  una : p.sock.writeBuffer.UNA.toNat = (A + 1) % 65536
  nxt : p.sock.writeBuffer.NXT.toNat = (S + 1) % 65536
  lbw : p.sock.writeBuffer.LBW.toNat = written.length % 65536
  acked_le : A ≤ H
  handed_le : H ≤ written.length
  content : slice p.sock.writeBuffer.buffer (A + 1) (written.length - A) = written.drop A
  payloads : p.payloads.flatten = written.take H
  small : ∀ q ∈ p.payloads, q.length ≤ 1360
  writer : WriterOk p.messages written L p.writer
  sender : SenderOk A S H L p.sender

namespace Flowing

variable {p p' : Pipe} {written : List UInt8} {A S H L : ℕ}

theorem channel_le (h : Flowing p written A S H L) : L ≤ written.length := by
  have hwriter := h.writer
  cases hpc : p.writer with
  | idle =>
    rw [hpc] at hwriter
    exact Nat.le_of_eq hwriter.2.symm
  | testing call =>
    rw [hpc] at hwriter
    exact Nat.le_of_eq hwriter.2.symm
  | copying call space =>
    rw [hpc] at hwriter
    exact Nat.le_of_eq hwriter.2.symm
  | handing call =>
    rw [hpc] at hwriter
    exact hwriter.2.1

/-- At most one chunk is between the acknowledged bytes and the channel. -/
theorem channel_close (h : Flowing p written A S H L) : L ≤ A + 1360 := by
  have hsender := h.sender
  cases hpc : p.sender with
  | idle =>
    rw [hpc] at hsender
    obtain ⟨hA, -, hL⟩ := hsender
    omega
  | received lbw =>
    rw [hpc] at hsender
    obtain ⟨hA, -, -, hL, -⟩ := hsender
    omega
  | sliding payload s a =>
    rw [hpc] at hsender
    obtain ⟨hL, hsmall, -, -, hA, -⟩ := hsender
    omega

theorem call (h : Flowing p written A S H L) {message : List UInt8}
    (hsize : message.length < 4294967296) (hstep : p.writerStep (.call message) = some p') :
    Flowing p' written A S H L := by
  have hwriter := h.writer
  unfold Pipe.writerStep at hstep
  cases hpc : p.writer with
  | idle =>
    simp only [hpc] at hstep
    rw [hpc] at hwriter
    split at hstep
    · contradiction
    · cases hstep
      refine ⟨h.running, h.una, h.nxt, h.lbw, h.acked_le, h.handed_le, h.content, h.payloads,
        h.small, ⟨⟨p.messages, rfl, ?_, Nat.zero_le _, hsize⟩, hwriter.2⟩, h.sender⟩
      simpa using hwriter.1
  | testing call => simp [hpc] at hstep
  | copying call space => simp [hpc] at hstep
  | handing call => simp [hpc] at hstep

theorem test (h : Flowing p written A S H L) (hstep : p.writerStep .test = some p') :
    Flowing p' written A S H L := by
  have hwriter := h.writer
  unfold Pipe.writerStep at hstep
  cases hpc : p.writer with
  | testing call =>
    simp only [hpc] at hstep
    rw [hpc] at hwriter
    split at hstep
    · cases hstep
      exact ⟨h.running, h.una, h.nxt, h.lbw, h.acked_le, h.handed_le, h.content, h.payloads,
        h.small, hwriter, h.sender⟩
    · rename_i hend
      cases hstep
      exact ⟨h.running, h.una, h.nxt, h.lbw, h.acked_le, h.handed_le, h.content, h.payloads,
        h.small, ⟨hwriter.1.complete hend, hwriter.2⟩, h.sender⟩
  | idle => simp [hpc] at hstep
  | copying call space => simp [hpc] at hstep
  | handing call => simp [hpc] at hstep

/-- Storing a chunk behind the written bytes. -/
theorem storeBytes (h : Flowing p written A S H L) (chunk : List UInt8)
    (hroom : written.length + chunk.length ≤ A + 65536) :
    slice (p.sock.storeBytes chunk).writeBuffer.buffer (A + 1)
        ((written ++ chunk).length - A) = (written ++ chunk).drop A ∧
      (p.sock.storeBytes chunk).writeBuffer.LBW.toNat = (written ++ chunk).length % 65536 := by
  have hA := h.acked_le
  have hH := h.handed_le
  constructor
  · have hstart : write p.sock.writeBuffer.buffer (p.sock.writeBuffer.LBW.toNat + 1) chunk =
        write p.sock.writeBuffer.buffer (A + 1 + (written.length - A)) chunk := by
      apply write_congr_start
      rw [h.lbw]
      simp only [bufferSize]
      omega
    have hcount : (written ++ chunk).length - A = (written.length - A) + chunk.length := by
      rw [List.length_append]
      omega
    change slice (write _ _ chunk) _ _ = _
    rw [hstart, hcount, slice_write_extend _ _ _ _ (by simp only [bufferSize]; omega), h.content,
      List.drop_append_of_le_length (by omega)]
  · have hwin : (windowSize : UInt32).toNat = 65536 := rfl
    simp only [NormalSocket.storeBytes, UInt32.toNat_mod, UInt32.toNat_add, UInt32.toNat_ofNat',
      hwin, h.lbw, List.length_append]
    omega

theorem copy (h : Flowing p written A S H L) (hstep : p.writerStep .copy = some p') :
    ∃ chunk, chunk.length ≤ 1360 ∧ p'.sock = p.sock.storeBytes chunk ∧
      Flowing p' (written ++ chunk) A S H L := by
  have hwriter := h.writer
  have hclose := h.channel_close
  unfold Pipe.writerStep at hstep
  cases hpc : p.writer with
  | copying call space =>
    rw [hpc] at hwriter
    obtain ⟨⟨earlier, hmessages, hwritten, hle, hsize⟩, hL⟩ := hwriter
    have hcopy := p.sock.copyChunk_eq call space (by rw [Nat.mod_eq_of_lt hsize]; exact hle)
    simp only [hpc, hcopy] at hstep
    cases hstep
    have hn : NormalSocket.chunkSize call space ≤ 1360 ∧
        call.bytesSent.toNat + NormalSocket.chunkSize call space ≤ call.message.length := by
      unfold NormalSocket.chunkSize
      omega
    generalize NormalSocket.chunkSize call space = n at hn ⊢
    have hchunk : ((call.message.drop call.bytesSent.toNat).take n).length = n := by
      rw [List.length_take, List.length_drop]
      omega
    obtain ⟨hcontent, hlbw⟩ := h.storeBytes ((call.message.drop call.bytesSent.toNat).take n)
      (by omega)
    have hH := h.handed_le
    refine ⟨_, by omega, rfl, h.running, h.una, h.nxt, hlbw, h.acked_le, ?_, hcontent, ?_, h.small,
      ⟨⟨earlier, hmessages, ?_, ?_, hsize⟩, ?_, ?_⟩, h.sender⟩
    · rw [List.length_append]
      omega
    · rw [List.take_append_of_le_length hH]
      exact h.payloads
    · rw [hwritten, List.append_assoc, toNat_add_ofNat _ _ (by omega), List.take_add]
    · rw [toNat_add_ofNat _ _ (by omega)]
      exact hn.2
    · rw [List.length_append]
      omega
    · rw [List.length_append]
      omega
  | idle => simp [hpc] at hstep
  | testing call => simp [hpc] at hstep
  | handing call => simp [hpc] at hstep

theorem handOver (h : Flowing p written A S H L) (hstep : p.handOver = some p') :
    Flowing p' written A S H written.length := by
  have hwriter := h.writer
  have hsender := h.sender
  unfold Pipe.handOver at hstep
  split at hstep
  · rename_i call hw hs
    cases hstep
    rw [hw] at hwriter
    rw [hs] at hsender
    obtain ⟨hprogress, hlow, hhigh⟩ := hwriter
    obtain ⟨hA, hS, hL⟩ := hsender
    exact ⟨h.running, h.una, h.nxt, h.lbw, h.acked_le, h.handed_le, h.content, h.payloads, h.small,
      ⟨hprogress, rfl⟩, ⟨hA, hS, by omega, by omega, h.lbw⟩⟩
  · contradiction

theorem build (h : Flowing p written A S H L) (hstep : p.senderStep .build = some p') :
    Flowing p' written A S L L := by
  have hsender := h.sender
  have hle := h.channel_le
  unfold Pipe.senderStep at hstep
  cases hpc : p.sender with
  | received lbw =>
    rw [hpc] at hsender
    obtain ⟨hA, hS, hHL, hsmall, hlbw⟩ := hsender
    have hidle : p.sock.writeBuffer.NXT = p.sock.writeBuffer.UNA := by
      apply UInt32.toNat_inj.mp
      rw [h.nxt, h.una, hA, hS]
    obtain ⟨packet, htake, hpayload⟩ := p.sock.takeChunk_eq lbw hidle
    have hamount : (lbw.toNat + 4294967297 - p.sock.writeBuffer.NXT.toNat) % 65536 = L - A := by
      rw [h.nxt, hlbw]
      omega
    have hstart : slice p.sock.writeBuffer.buffer p.sock.writeBuffer.NXT.toNat (L - A) =
        slice p.sock.writeBuffer.buffer (A + 1) (L - A) := by
      apply slice_congr_start
      rw [h.nxt, hS, ← hA]
      exact Nat.mod_mod _ _
    rw [hamount, hstart, ← slice_take _ _ _ _ (by omega : L - A ≤ written.length - A),
      h.content] at hpayload
    have hlen : packet.payload.length = L - A := by
      rw [hpayload, List.length_take, List.length_drop]
      omega
    simp only [hpc, htake] at hstep
    cases hstep
    refine ⟨h.running, h.una, h.nxt, h.lbw, by omega, hle, h.content, ?_, ?_, h.writer,
      ⟨rfl, by omega, Nat.le_refl _, Nat.zero_le _, by omega, by omega⟩⟩
    · rw [List.flatten_append, List.flatten_singleton, h.payloads, hpayload, ← hA,
        ← List.take_add, Nat.add_sub_cancel' (by omega)]
    · intro q hq
      rcases List.mem_append.mp hq with hold | hnew
      · exact h.small q hold
      · rw [List.mem_singleton.mp hnew]
        omega
  | idle => simp [hpc] at hstep
  | sliding payload s a => simp [hpc] at hstep

/-- Only the write buffer of the socket matters. -/
theorem of_writeBuffer (h : Flowing p written A S H L) {sock : NormalSocket}
    (hbuffer : sock.writeBuffer = p.sock.writeBuffer) :
    Flowing { p with sock := sock } written A S H L := by
  refine ⟨h.running, ?_, ?_, ?_, h.acked_le, h.handed_le, ?_, h.payloads, h.small, h.writer,
    h.sender⟩
  · rw [hbuffer]
    exact h.una
  · rw [hbuffer]
    exact h.nxt
  · rw [hbuffer]
    exact h.lbw
  · rw [hbuffer]
    exact h.content

/-- The byte at `UNA` is the first one that is not acknowledged. -/
theorem una_byte (h : Flowing p written A S H L) (hlt : A < written.length) :
    slice p.sock.writeBuffer.buffer p.sock.writeBuffer.UNA.toNat 1 = (written.drop A).take 1 := by
  rw [← h.content, slice_take _ _ _ _ (by omega)]
  apply slice_congr_start
  rw [h.una]
  simp only [bufferSize]
  omega

/-- slidingWindow moves its pointers over the payload it was given. -/
theorem slide (h : Flowing p written A S H L) {payload : List UInt8} {s a s' a' A' S' : ℕ}
    (hpc : p.sender = .sliding payload s a) (hA : A' + a = A + a')
    (hS : S' + payload.length = H + s') (hle : a ≤ a') (has : a' ≤ s')
    (hsl : s' ≤ payload.length) {sock : NormalSocket}
    (hbuffer : sock.writeBuffer.buffer = p.sock.writeBuffer.buffer)
    (hlbw : sock.writeBuffer.LBW = p.sock.writeBuffer.LBW)
    (huna : sock.writeBuffer.UNA.toNat = (A' + 1) % 65536)
    (hnxt : sock.writeBuffer.NXT.toNat = (S' + 1) % 65536) :
    Flowing { p with sock := sock, sender := .sliding payload s' a' } written A' S' H L := by
  have hsender := h.sender
  have hH := h.handed_le
  rw [hpc] at hsender
  obtain ⟨hL, hsmall, -, -, hAa, -⟩ := hsender
  refine ⟨h.running, huna, hnxt, ?_, by omega, hH, ?_, h.payloads, h.small, h.writer,
    ⟨hL, hsmall, has, hsl, by omega, hS⟩⟩
  · rw [hlbw]
    exact h.lbw
  · have hdrop := slice_drop p.sock.writeBuffer.buffer (A + 1) (written.length - A) (a' - a)
      (by omega)
    rw [h.content, List.drop_drop] at hdrop
    rw [hbuffer, show A' = A + (a' - a) by omega, hdrop,
      show A + 1 + (a' - a) = A + (a' - a) + 1 by omega,
      show written.length - A - (a' - a) = written.length - (A + (a' - a)) by omega]

theorem move (h : Flowing p written A S H L) {sent acked : ℕ}
    (hstep : p.senderStep (.move sent acked) = some p') :
    Flowing p' written (A + acked) (S + sent) H L := by
  have hsender := h.sender
  have huna := h.una
  have hnxt := h.nxt
  unfold Pipe.senderStep at hstep
  cases hpc : p.sender with
  | sliding payload s a =>
    rw [hpc] at hsender
    obtain ⟨-, -, -, -, -, hSs⟩ := hsender
    simp only [hpc] at hstep
    split at hstep
    · rename_i hbounds
      cases hstep
      have hwin : (windowSize : UInt32).toNat = 65536 := rfl
      refine h.slide hpc (by omega) (by omega) (by omega) hbounds.2 hbounds.1 rfl rfl ?_ ?_
      · simp only [NormalSocket.moveWindow, UInt32.toNat_mod, UInt32.toNat_add,
          UInt32.toNat_ofNat', hwin]
        omega
      · simp only [NormalSocket.moveWindow, UInt32.toNat_mod, UInt32.toNat_add,
          UInt32.toNat_ofNat', hwin]
        omega
    · contradiction
  | idle => simp [hpc] at hstep
  | received lbw => simp [hpc] at hstep

theorem finish (h : Flowing p written A S H L) (hstep : p.senderStep .finish = some p') :
    Flowing p' written A S H L := by
  have hsender := h.sender
  unfold Pipe.senderStep at hstep
  cases hpc : p.sender with
  | sliding payload s a =>
    rw [hpc] at hsender
    obtain ⟨hL, hsmall, has, hsl, hAa, hSs⟩ := hsender
    simp only [hpc] at hstep
    split at hstep
    · cases hstep
      exact ⟨h.running, h.una, h.nxt, h.lbw, h.acked_le, h.handed_le, h.content, h.payloads,
        h.small, h.writer, ⟨by omega, by omega, hL⟩⟩
    · contradiction
  | idle => simp [hpc] at hstep
  | received lbw => simp [hpc] at hstep

end Flowing

def Refines (p : Pipe) : Prop := ∃ written A S H L, Flowing p written A S H L

/-- Messages whose length does not fit in 32 bits are excluded. -/
def ShortMessages (_ : Pipe) : PipeEvent → Prop
  | .call message => message.length < 4294967296
  | _ => True

theorem Refines.step {p p' : Pipe} (h : Refines p) (e : PipeEvent) (hok : ShortMessages p e)
    (hstep : p.step e = some p') : Refines p' := by
  obtain ⟨written, A, S, H, L, hflow⟩ := h
  unfold Pipe.step at hstep
  rw [hflow.running] at hstep
  cases e with
  | call message => exact ⟨written, A, S, H, L, hflow.call hok hstep⟩
  | test => exact ⟨written, A, S, H, L, hflow.test hstep⟩
  | copy =>
    obtain ⟨chunk, -, -, hnext⟩ := hflow.copy hstep
    exact ⟨written ++ chunk, A, S, H, L, hnext⟩
  | handOver => exact ⟨written, A, S, H, written.length, hflow.handOver hstep⟩
  | build => exact ⟨written, A, S, L, L, hflow.build hstep⟩
  | move sent acked => exact ⟨written, A + acked, S + sent, H, L, hflow.move hstep⟩
  | finish => exact ⟨written, A, S, H, L, hflow.finish hstep⟩

theorem start_refines (key : SocketTableKey) (baseSeq baseAck : UInt32) (window : UInt16) :
    Refines (Pipe.start (newSocket key baseSeq baseAck window)) := by
  refine ⟨[], 0, 0, 0, 0, rfl, rfl, rfl, rfl, Nat.le_refl _, Nat.le_refl _, rfl, rfl, ?_, ?_, ?_⟩
  · simp [Pipe.start]
  · exact ⟨rfl, rfl⟩
  · exact ⟨rfl, rfl, rfl⟩

/-- A turn of VWrite stores nothing between `UNA` and `LBW`: it writes the positions
behind `LBW`, and none of these falls on a byte that is not acknowledged yet. -/
def NoOverwrite (p p' : Pipe) : Prop :=
  ∀ i < (ringDist (p.sock.writeBuffer.LBW + 1) p.sock.writeBuffer.UNA).toNat,
    (∀ j < (ringDist p'.sock.writeBuffer.LBW p.sock.writeBuffer.LBW).toNat,
      cell bufferSize (p.sock.writeBuffer.UNA.toNat + i) ≠
        cell bufferSize (p.sock.writeBuffer.LBW.toNat + 1 + j)) ∧
    p'.sock.writeBuffer.buffer (cell bufferSize (p.sock.writeBuffer.UNA.toNat + i)) =
      p.sock.writeBuffer.buffer (cell bufferSize (p.sock.writeBuffer.UNA.toNat + i))

namespace Flowing

variable {p p' : Pipe} {written : List UInt8} {A S H L : ℕ}

/-- The unacknowledged bytes fill the distance from `UNA` to `LBW`. -/
theorem unacked_count (h : Flowing p written A S H L) (hfit : written.length < A + 65536) :
    (ringDist (p.sock.writeBuffer.LBW + 1) p.sock.writeBuffer.UNA).toNat = written.length - A := by
  have hA := h.acked_le
  have hH := h.handed_le
  have hL := p.sock.writeBuffer.LBW_lt
  have hnext : (p.sock.writeBuffer.LBW + 1).toNat = p.sock.writeBuffer.LBW.toNat + 1 :=
    toNat_add_ofNat _ 1 (by omega)
  rw [toNat_ringDist, h.una, hnext, h.lbw]
  omega

theorem noOverwrite (h : Flowing p written A S H L) (hbusy : L = written.length)
    (chunk : List UInt8) (hchunk : chunk.length ≤ 1360)
    (hsock : p'.sock = p.sock.storeBytes chunk) : NoOverwrite p p' := by
  have hclose := h.channel_close
  have hA := h.acked_le
  have hH := h.handed_le
  have hcount := h.unacked_count (by omega)
  obtain ⟨-, hlbw⟩ := h.storeBytes chunk (by omega)
  have hstored : (ringDist p'.sock.writeBuffer.LBW p.sock.writeBuffer.LBW).toNat =
      chunk.length := by
    rw [hsock, toNat_ringDist, hlbw, h.lbw, List.length_append]
    omega
  have hfar : ∀ i < written.length - A, ∀ j < chunk.length,
      (p.sock.writeBuffer.UNA.toNat + i) % bufferSize ≠
        (p.sock.writeBuffer.LBW.toNat + 1 + j) % bufferSize := by
    intro i hi j hj
    have hne := mod_ne_of_lt (n := bufferSize) (a := A + 1 + i) (b := written.length + 1 + j)
      (by omega) (by simp only [bufferSize]; omega)
    rw [h.una, h.lbw]
    simp only [bufferSize] at hne ⊢
    omega
  intro i hi
  rw [hcount] at hi
  refine ⟨?_, ?_⟩
  · intro j hj heq
    rw [hstored] at hj
    exact hfar i hi j hj (congrArg Fin.val heq)
  · rw [hsock]
    apply write_of_ne
    intro j hj
    exact (hfar i hi j hj).symm

/-- What is written so far is a part of what the calls were given. -/
theorem written_front (h : Flowing p written A S H L) : written <+: p.messages.flatten := by
  have hprogress : ∀ call, Progress p.messages written call → written <+: p.messages.flatten := by
    rintro call ⟨earlier, hmessages, hwritten, -, -⟩
    rw [hmessages, hwritten, List.flatten_append, List.flatten_singleton]
    exact (List.prefix_append_right_inj _).mpr (List.take_prefix _ _)
  have hwriter := h.writer
  cases hpc : p.writer with
  | idle =>
    rw [hpc] at hwriter
    simp only [hwriter.1, List.prefix_rfl]
  | testing call =>
    rw [hpc] at hwriter
    exact hprogress call hwriter.1
  | copying call space =>
    rw [hpc] at hwriter
    exact hprogress call hwriter.1
  | handing call =>
    rw [hpc] at hwriter
    exact hprogress call hwriter.1

/-- A copying writer has nothing waiting at the channel. -/
theorem copying_caught_up (h : Flowing p written A S H L) (hstep : p.writerStep .copy = some p') :
    L = written.length := by
  have hwriter := h.writer
  unfold Pipe.writerStep at hstep
  cases hpc : p.writer with
  | copying call space =>
    rw [hpc] at hwriter
    exact hwriter.2.symm
  | idle => simp [hpc] at hstep
  | testing call => simp [hpc] at hstep
  | handing call => simp [hpc] at hstep

end Flowing

instance (p : Pipe) (e : PipeEvent) : Decidable (ShortMessages p e) :=
  match e with
  | .call _ => inferInstanceAs (Decidable (_ < _))
  | .test | .copy | .handOver | .build | .move _ _ | .finish => isTrue trivial

/-- The write side is a FIFO byte stream for messages shorter than 2^32 bytes: the
payloads of slidingWindow are a prefix of the messages, in chunks of at most 1360
bytes, no slice is out of bounds, and no unacknowledged byte is overwritten. -/
theorem writer_refines_stream (key : SocketTableKey) (baseSeq baseAck : UInt32) (window : UInt16)
    (p : Pipe) (hreach : Reach Pipe.step ShortMessages
      (Pipe.start (newSocket key baseSeq baseAck window)) p) :
    p.panicked = false ∧ p.payloads.flatten <+: p.messages.flatten ∧
      (∀ q ∈ p.payloads, q.length ≤ 1360) ∧
      ∀ p', p.step .copy = some p' → NoOverwrite p p' := by
  have hrefines : Refines p := by
    apply hreach.invariant Refines
    · exact start_refines key baseSeq baseAck window
    · intro s e s' hs hok hstep
      exact hs.step e hok hstep
  obtain ⟨written, A, S, H, L, hflow⟩ := hrefines
  refine ⟨hflow.running, ?_, hflow.small, ?_⟩
  · rw [hflow.payloads]
    exact (List.take_prefix _ _).trans hflow.written_front
  · intro p' hstep
    unfold Pipe.step at hstep
    rw [hflow.running] at hstep
    obtain ⟨chunk, hsmall, hsock, -⟩ := hflow.copy hstep
    exact hflow.noOverwrite (hflow.copying_caught_up hstep) chunk hsmall hsock

/-- Two messages, the first handed over and half acknowledged while the second is copied. -/
theorem writer_refines_stream_two_messages :
    ∃ p, Reach Pipe.step ShortMessages (Pipe.start (newSocket sampleKey 0 100 8)) p ∧
      p.payloads = [[5, 6]] ∧ p.messages = [[5, 6], [7]] ∧
      p.payloads.flatten <+: p.messages.flatten := by
  obtain ⟨p, hreach, hpayloads, hmessages⟩ := exists_reach Pipe.step ShortMessages
    (Pipe.start (newSocket sampleKey 0 100 8))
    (fun p => p.payloads = [[5, 6]] ∧ p.messages = [[5, 6], [7]])
    [.call [5, 6], .test, .copy, .handOver, .build, .move 2 1, .test, .call [7], .test, .copy]
    (by decide)
  obtain ⟨-, hfront, -, -⟩ := writer_refines_stream sampleKey 0 100 8 p hreach
  exact ⟨p, hreach, hpayloads, hmessages, hfront⟩

/-- A message whose length is a multiple of 2^32 is accepted and skipped. -/
theorem long_message_skipped (sock : NormalSocket) (message : List UInt8)
    (hopen : ¬ sock.writeRefused) (hlen : UInt32.ofNat message.length = 0) :
    Reach Pipe.step (fun _ _ => True) (Pipe.start sock)
      { Pipe.start sock with messages := [message] } := by
  have hcall : (Pipe.start sock).step (.call message) = some { Pipe.start sock with
      writer := .testing ⟨message, 0, true⟩
      messages := [message] } := by
    simp [Pipe.step, Pipe.writerStep, Pipe.start, hopen]
  refine Reach.tail .test (Reach.tail (.call message) Reach.refl trivial hcall) trivial ?_
  simp [Pipe.step, Pipe.writerStep, Pipe.start, WriteCall.goesOn, hlen]

/-- The list of messages is a record only: an older message in it changes no step. -/
theorem step_older_message (m : List UInt8) (p : Pipe) (e : PipeEvent) :
    ({ p with messages := m :: p.messages } : Pipe).step e =
      (p.step e).map (fun q => { q with messages := m :: q.messages }) := by
  obtain ⟨sock, writer, sender, panicked, messages, payloads⟩ := p
  cases panicked with
  | true => rfl
  | false =>
    cases e with
    | call message =>
      cases writer with
      | idle =>
        simp only [Pipe.step, Pipe.writerStep, Bool.false_eq_true, if_false]
        split
        · rfl
        · rfl
      | testing call | copying call space | handing call => rfl
    | test =>
      cases writer with
      | testing call =>
        simp only [Pipe.step, Pipe.writerStep, Bool.false_eq_true, if_false]
        split
        · rfl
        · rfl
      | idle | copying call space | handing call => rfl
    | copy =>
      cases writer with
      | copying call space =>
        simp only [Pipe.step, Pipe.writerStep, Bool.false_eq_true, if_false]
        cases sock.copyChunk call space with
        | none => rfl
        | some result => rfl
      | idle | testing call | handing call => rfl
    | handOver =>
      cases writer with
      | handing call => cases sender <;> rfl
      | idle | testing call | copying call space => rfl
    | build =>
      cases sender with
      | received lbw =>
        simp only [Pipe.step, Pipe.senderStep, Bool.false_eq_true, if_false]
        cases sock.takeChunk lbw with
        | none => rfl
        | some packet => cases packet <;> rfl
      | idle | sliding payload s a => rfl
    | move sent acked =>
      cases sender with
      | sliding payload s a =>
        simp only [Pipe.step, Pipe.senderStep, Bool.false_eq_true, if_false]
        split
        · rfl
        · rfl
      | idle | received lbw => rfl
    | finish =>
      cases sender with
      | sliding payload s a =>
        simp only [Pipe.step, Pipe.senderStep, Bool.false_eq_true, if_false]
        split
        · rfl
        · rfl
      | idle | received lbw => rfl

theorem reach_older_message (m : List UInt8) {start p : Pipe}
    (h : Reach Pipe.step (fun _ _ => True) start p) :
    Reach Pipe.step (fun _ _ => True) { start with messages := m :: start.messages }
      { p with messages := m :: p.messages } := by
  induction h with
  | refl => exact Reach.refl
  | tail e _ _ hnext ih => exact Reach.tail e ih trivial (by rw [step_older_message, hnext]; rfl)

/-- After a message of 2^32 bytes the next one is sent in its place. -/
theorem long_message_lost :
    ¬ ∀ (key : SocketTableKey) (baseSeq baseAck : UInt32) (window : UInt16) (p : Pipe),
      Reach Pipe.step (fun _ _ => True) (Pipe.start (newSocket key baseSeq baseAck window)) p →
      p.payloads.flatten <+: p.messages.flatten := by
  intro hclaim
  obtain ⟨n, hn⟩ : ∃ n, n = 4294967296 := ⟨_, rfl⟩
  obtain ⟨message, hmessage⟩ : ∃ m : List UInt8, m = List.replicate n 0 := ⟨_, rfl⟩
  have hlen : UInt32.ofNat message.length = 0 := by
    rw [hmessage, List.length_replicate, hn]
    rfl
  have hskip := long_message_skipped (newSocket sampleKey 0 100 8) message (by decide) hlen
  obtain ⟨p, hreach, hpayloads, hmessages⟩ := exists_reach Pipe.step (fun _ _ => True)
    (Pipe.start (newSocket sampleKey 0 100 8)) (fun p => p.payloads = [[1]] ∧ p.messages = [[1]])
    [.call [1], .test, .copy, .handOver, .build] (by decide)
  have hfront := hclaim sampleKey 0 100 8 _ (hskip.trans (reach_older_message message hreach))
  simp only [hpayloads, hmessages, hmessage] at hfront
  obtain ⟨rest, hrest⟩ := hfront
  have hhead := congrArg List.head? hrest
  have hpos : n ≠ 0 := by omega
  simp [List.head?_append, List.head?_replicate, hpos] at hhead

end WriteRing

end IpTcp
