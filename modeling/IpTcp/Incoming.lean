import IpTcp.Closing
import IpTcp.Duplicates
import IpTcp.UnreadData

/-!
The receiving side of a socket whose peer sends excerpts of what was written to it, its
FIN, and acknowledgements of its own. Segments come in any order, again, or not at all.
What was read followed by what is unread is always the beginning of what the peer wrote,
as long as each segment that is taken as data is harmless: it does not start before the
accepted bytes end unless it is a mild duplicate, it fits behind what was read, and no FIN
was processed.
-/
namespace IpTcp.Incoming

open RingBuffer Feeding UnreadData Duplicates

/-- Some bytes of `written` under their sequence number. -/
def Excerpt (b : UInt32) (written : List UInt8) (seq : UInt32) (payload : List UInt8) : Prop :=
  ∃ off, seq = number b off ∧ off + payload.length ≤ written.length ∧
    payload = (written.drop off).take payload.length ∧ payload ≠ []

/-- What the peer can have sent, when we accepted the numbers below `top`. -/
inductive Meant (b : UInt32) (written : List UInt8) (ended : Prop) (top : ℕ) (r : TCPInfo) : Prop
  | data : r.Flag = tcpFlagAck → Excerpt b written r.SeqNum r.Payload → Meant b written ended top r
  | fin : ended → r.Flag = finAck → r.SeqNum = number b written.length → r.Payload = [] →
      Meant b written ended top r
  | pure : r.Flag = tcpFlagAck → r.Payload = [] → b.toNat + 1 ≤ r.SeqNum.toNat →
      r.SeqNum.toNat ≤ top → Meant b written ended top r

/-- An early segment, which fits behind the `read` bytes that were read, or the FIN. -/
inductive Waits (b : UInt32) (written : List UInt8) (ended : Prop) (read : ℕ) (e : EarlyPacket) :
    Prop
  | data : ¬ e.Flags &&& tcpFlagFin > 0 → Excerpt b written e.Priority e.Payload →
      e.Priority.toNat + e.Payload.length ≤ b.toNat + 1 + read + 65535 →
      Waits b written ended read e
  | fin : ended → e.Flags &&& tcpFlagFin > 0 → e.Priority = number b written.length →
      Waits b written ended read e

structure Storable (sock : NormalSocket) (r : TCPInfo) : Prop where
  isOpen : Open sock
  fresh : r.SeqNum < sock.cumReadNXT → Mild sock r
  fits : r.SeqNum.toNat + r.Payload.length + sock.readBuffer.unreadCount.toNat ≤
    sock.cumReadNXT.toNat + 65535

instance (sock : NormalSocket) (r : TCPInfo) : Decidable (Storable sock r) :=
  decidable_of_iff
    (Open sock ∧ (r.SeqNum < sock.cumReadNXT → Mild sock r) ∧
      r.SeqNum.toNat + r.Payload.length + sock.readBuffer.unreadCount.toNat ≤
        sock.cumReadNXT.toNat + 65535)
    ⟨fun h => ⟨h.1, h.2.1, h.2.2⟩, fun h => ⟨h.isOpen, h.fresh, h.fits⟩⟩

/-- The socket accepted the first `N` bytes of `written`, of which `output` was read. A FIN
that came in its turn counts for one more number. -/
structure Held (b : UInt32) (written : List UInt8) (ended : Prop) (sock : NormalSocket)
    (output : List UInt8) (N : ℕ) : Prop where
  base : sock.baseAck = b
  room : b.toNat + 2 + written.length < 4294967296
  le : N ≤ written.length
  content : output ++ sock.readBuffer.unread = written.take N
  cum : sock.cumReadNXT = number b N ∨
    ended ∧ N = written.length ∧ ¬ Open sock ∧ sock.cumReadNXT = number b (N + 1)
  sync : Open sock → InSync sock N output.length
  shut : ¬ Open sock → sock.unackedMtx = true ∨ ended ∧ N = written.length
  queue : ∀ e ∈ sock.earlyPQ.toList, Waits b written ended output.length e

theorem toNat_number {b : UInt32} {off : ℕ} (h : b.toNat + 1 + off < 4294967296) :
    (number b off).toNat = b.toNat + 1 + off := by
  have hone : (1 : UInt32).toNat = 1 := rfl
  have hb : (b + 1).toNat = b.toNat + 1 := by
    rw [UInt32.toNat_add, hone]
    omega
  unfold number
  rw [toNat_add_ofNat _ _ (by omega), hb]

theorem Excerpt.mono {b : UInt32} {written written' : List UInt8} {seq : UInt32}
    {payload : List UInt8} (h : Excerpt b written seq payload) (hpre : written <+: written') :
    Excerpt b written' seq payload := by
  obtain ⟨off, hseq, hend, hpay, hne⟩ := h
  obtain ⟨more, rfl⟩ := hpre
  refine ⟨off, hseq, by rw [List.length_append]; omega, ?_, hne⟩
  rw [List.drop_append_of_le_length (by omega), List.take_append_of_le_length
    (by rw [List.length_drop]; omega)]
  exact hpay

theorem Meant.mono {b : UInt32} {written : List UInt8} {ended ended' : Prop} {top top' : ℕ}
    {r : TCPInfo} (h : Meant b written ended top r) (hended : ended → ended')
    (htop : top ≤ top') : Meant b written ended' top' r := by
  cases h with
  | data hflag hexcerpt => exact .data hflag hexcerpt
  | fin hend hflag hseq hpay => exact .fin (hended hend) hflag hseq hpay
  | pure hflag hpay hlow hhigh => exact .pure hflag hpay hlow (hhigh.trans htop)

/-- More is written as long as the FIN was not sent. -/
theorem Meant.grow {b : UInt32} {written written' : List UInt8} {ended ended' : Prop} {top : ℕ}
    {r : TCPInfo} (h : Meant b written ended top r) (hopen : ¬ ended)
    (hpre : written <+: written') : Meant b written' ended' top r := by
  cases h with
  | data hflag hexcerpt => exact .data hflag (hexcerpt.mono hpre)
  | fin hend => exact absurd hend hopen
  | pure hflag hpay hlow hhigh => exact .pure hflag hpay hlow hhigh

section Waits

variable {b : UInt32} {written written' : List UInt8} {ended ended' : Prop} {read read' : ℕ}
  {e : EarlyPacket}

theorem Waits.mono (h : Waits b written ended read e) (hended : ended → ended')
    (hread : read ≤ read') : Waits b written ended' read' e := by
  cases h with
  | data hflag hexcerpt hfits => exact .data hflag hexcerpt (by omega)
  | fin hend hflag hseq => exact .fin (hended hend) hflag hseq

theorem Waits.grow (h : Waits b written ended read e) (hopen : ¬ ended)
    (hpre : written <+: written') : Waits b written' ended' read e := by
  cases h with
  | data hflag hexcerpt hfits => exact .data hflag (hexcerpt.mono hpre) hfits
  | fin hend => exact absurd hend hopen

end Waits

/-- What the threads other than ReceiverThread and VRead leave alone on the receiving side. -/
structure SameReading (sock sock' : NormalSocket) : Prop where
  readBuffer : sock'.readBuffer = sock.readBuffer
  cumReadNXT : sock'.cumReadNXT = sock.cumReadNXT
  baseAck : sock'.baseAck = sock.baseAck
  earlyPQ : sock'.earlyPQ = sock.earlyPQ
  isOpen : Open sock' → Open sock
  shut : ¬ Open sock' → ¬ Open sock ∨ sock'.unackedMtx = true
  unackedMtx : sock.unackedMtx = true → sock'.unackedMtx = true

theorem SameReading.of_untouched {sock sock' : NormalSocket} (h : Untouched sock sock') :
    SameReading sock sock' := by
  have hopen : Open sock' ↔ Open sock := by
    unfold Open
    rw [h.state, h.stateMtx]
  exact ⟨h.readBuffer, h.cumReadNXT, h.baseAck, h.earlyPQ, hopen.mp,
    fun hshut => Or.inl (mt hopen.mpr hshut), h.unackedMtx⟩

theorem SameReading.refl (sock : NormalSocket) : SameReading sock sock := .of_untouched (.refl sock)

/-- VClose moves the connection state, and waits for ever with the state mutex when the
acknowledgement mutex is lost. -/
theorem SameReading.commitClose (sock : NormalSocket) (packet : TCPPacket) :
    SameReading sock (sock.commitClose packet).1 := by
  unfold NormalSocket.commitClose
  split
  · exact .refl sock
  · next hmtx =>
    rw [Bool.not_eq_true] at hmtx
    simp only
    split
    · exact .refl sock
    · next state hnext =>
      -- from ESTABLISHED to FIN_WAIT_1, or from CLOSE_WAIT to LAST_ACK
      have hmoves : sock.state = .established ∧ state = .finWait1 ∨
          sock.state = .closeWait ∧ state = .lastAck := by
        cases hstate : sock.state <;> simp_all
      split
      · next hunacked =>
        refine ⟨rfl, rfl, rfl, rfl, ?_, fun _ => Or.inr hunacked, id⟩
        rintro ⟨habsurd, -⟩
        contradiction
      · refine ⟨rfl, rfl, rfl, rfl, ?_, ?_, id⟩
        · rintro ⟨-, hclose, hlast, htime⟩
          rcases hmoves with ⟨hold, -⟩ | ⟨-, hnew⟩
          · simp [Open, hmtx, hold]
          · exact absurd hnew hlast
        · intro hshut
          refine Or.inl fun hopen => hshut ?_
          obtain ⟨-, hclose, -, -⟩ := hopen
          rcases hmoves with ⟨-, hnew⟩ | ⟨hold, -⟩
          · simp [Open, hmtx, hnew]
          · exact absurd hold hclose

theorem SameReading.finAcked (sock : NormalSocket) (ack : UInt32) :
    SameReading sock (sock.finAcked ack) := by
  unfold NormalSocket.finAcked
  simp only
  split
  · exact ⟨rfl, rfl, rfl, rfl, id, Or.inl, id⟩
  · next hmtx =>
    rw [Bool.not_eq_true] at hmtx
    split
    · next hstate =>
      refine ⟨rfl, rfl, rfl, rfl, ?_, ?_, id⟩
      · intro _
        simp [Open, hmtx, hstate]
      · intro hshut
        exact absurd (by simp [Open, hmtx]) hshut
    · exact ⟨rfl, rfl, rfl, rfl, id, Or.inl, id⟩

/-- ReceiverThread and VRead apart, no thread touches the receiving side. -/
theorem SameReading.step {p p' : Endpoint} {e : EndpointEvent} (hstep : Endpoint.Step p e p')
    (hdispatch : e ≠ .dispatch) (hread : ∀ numbytes, e ≠ .read numbytes) :
    SameReading p.sock p'.sock ∧ p'.output = p.output := by
  cases hstep.affects with
  | untouched _ out hsame hemitted hout houtput => exact ⟨.of_untouched hsame, houtput⟩
  | receive => exact absurd rfl hdispatch
  | read numbytes => exact absurd rfl (hread numbytes)
  | close _ packet hsock hemitted houtput => exact ⟨hsock ▸ .commitClose p.sock packet, houtput⟩
  | finAcked ack hack hsock hemitted houtput => exact ⟨hsock ▸ .finAcked p.sock ack, houtput⟩

namespace Held

variable {b : UInt32} {written written' : List UInt8} {ended ended' : Prop}
  {sock sock' : NormalSocket} {output : List UInt8} {N : ℕ} {r : TCPInfo}

theorem start (key : SocketTableKey) (baseSeq baseAck : UInt32) (window : UInt16)
    (hroom : baseAck.toNat + 2 < 4294967296) :
    Held baseAck [] ended (newSocket key baseSeq baseAck window) [] 0 where
  base := rfl
  room := by simpa using hroom
  le := Nat.le_refl _
  content := (List.nil_append _).trans ((unread_eq_nil_iff newReadBuffer).mpr rfl)
  cum := Or.inl (UInt32.add_zero _).symm
  sync _ := ⟨(UInt32.add_zero _).symm, rfl, rfl, Nat.le_refl _, Nat.zero_le _⟩
  shut h := absurd (by simp [Open, newSocket]) h
  queue := by simp [newSocket]

theorem toNat_cum (h : Held b written ended sock output N) :
    sock.cumReadNXT.toNat = b.toNat + 1 + N ∨
      ended ∧ N = written.length ∧ ¬ Open sock ∧ sock.cumReadNXT.toNat = b.toNat + 1 + N + 1 := by
  have hroom := h.room
  have hle := h.le
  rcases h.cum with hcum | ⟨hend, hall, hshut, hcum⟩
  · exact Or.inl (by rw [hcum, toNat_number (by omega)])
  · exact Or.inr ⟨hend, hall, hshut, by rw [hcum, toNat_number (by omega)]; omega⟩

theorem toNat_cum_of_open (h : Held b written ended sock output N) (hopen : Open sock) :
    sock.cumReadNXT.toNat = b.toNat + 1 + N := by
  rcases h.toNat_cum with hcum | ⟨-, -, hshut, -⟩
  · exact hcum
  · exact absurd hopen hshut

/-- The sending threads of the socket change nothing here. -/
theorem of_same (h : Held b written ended sock output N) (hsame : SameReading sock sock') :
    Held b written ended sock' output N where
  base := hsame.baseAck.trans h.base
  room := h.room
  le := h.le
  content := by rw [hsame.readBuffer]; exact h.content
  cum := by
    rw [hsame.cumReadNXT]
    refine h.cum.imp id ?_
    rintro ⟨hend, hall, hshut, hcum⟩
    exact ⟨hend, hall, mt hsame.isOpen hshut, hcum⟩
  sync hopen := by
    have hold := h.sync (hsame.isOpen hopen)
    exact ⟨by rw [hsame.cumReadNXT, hsame.baseAck]; exact hold.cum,
      by rw [hsame.readBuffer]; exact hold.nxt, by rw [hsame.readBuffer]; exact hold.lbr,
      hold.read_le, hold.le_window⟩
  shut hshut := by
    rcases hsame.shut hshut with hold | hmtx
    · exact (h.shut hold).imp hsame.unackedMtx id
    · exact Or.inl hmtx
  queue := by rw [hsame.earlyPQ]; exact h.queue

/-- The peer sends its FIN. -/
theorem ending (h : Held b written ended sock output N) (hended : ended → ended') :
    Held b written ended' sock output N :=
  ⟨h.base, h.room, h.le, h.content, h.cum.imp id (fun ⟨hend, hrest⟩ => ⟨hended hend, hrest⟩),
    h.sync, fun hshut => (h.shut hshut).imp id (fun ⟨hend, hall⟩ => ⟨hended hend, hall⟩),
    fun e he => (h.queue e he).mono hended (Nat.le_refl _)⟩

/-- The peer goes on writing. -/
theorem grow (h : Held b written ended sock output N) (hopen : ¬ ended)
    (hpre : written <+: written') (hroom : b.toNat + 2 + written'.length < 4294967296) :
    Held b written' ended' sock output N where
  base := h.base
  room := hroom
  le := h.le.trans hpre.length_le
  content := by
    obtain ⟨more, rfl⟩ := hpre
    rw [List.take_append_of_le_length h.le]
    exact h.content
  cum := h.cum.imp id fun ⟨hend, _⟩ => absurd hend hopen
  sync := h.sync
  shut hshut := (h.shut hshut).imp id fun ⟨hend, _⟩ => absurd hend hopen
  queue e he := (h.queue e he).grow hopen hpre

/-- VRead takes bytes off the front. -/
theorem read (h : Held b written ended sock output N) {numbytes : UInt16} {data : List UInt8}
    (hread : sock.vRead numbytes = (sock', .bytes data)) :
    Held b written ended sock' (output ++ data) N ∧ sock'.cumReadNXT = sock.cumReadNXT := by
  have hout : sock' = (sock.readOut sock.readBuffer.unreadCount.toNat numbytes).1 ∧
      data = (sock.readOut sock.readBuffer.unreadCount.toNat numbytes).2 := by
    unfold NormalSocket.vRead at hread
    split at hread
    · cases hread
    · split at hread
      · cases hread
      · split at hread
        · cases hread
        · simp only [Prod.mk.injEq, ReadResult.bytes.injEq] at hread
          exact ⟨hread.1.symm, hread.2.symm⟩
  obtain ⟨rfl, rfl⟩ := hout
  obtain ⟨hdata, -, -⟩ := sock.readOut_spec _ numbytes (Nat.le_refl _)
  have hrest := sock.readOut_unread _ numbytes (Nat.le_refl _)
  have hlen : output.length ≤ (output ++
      (sock.readOut sock.readBuffer.unreadCount.toNat numbytes).2).length := by
    rw [List.length_append]
    omega
  refine ⟨⟨h.base, h.room, h.le, ?_, h.cum, fun hopen => ?_, h.shut,
    fun e he => (h.queue e he).mono id hlen⟩, rfl⟩
  · rw [hdata, hrest, List.append_assoc, List.take_append_drop]
    exact h.content
  · have hsync := h.sync hopen
    obtain ⟨hnext, -, hcount⟩ := hsync.readOut sock.readBuffer.unreadCount.toNat numbytes
      (Nat.le_of_eq hsync.unreadCount)
    rw [List.length_append, hcount]
    exact hnext

theorem popEarly (h : Held b written ended sock output N) (hne : 0 < sock.earlyPQ.size) :
    Held b written ended sock.popEarly output N :=
  ⟨h.base, h.room, h.le, h.content, h.cum, fun hopen => by
    have hsync := h.sync hopen
    exact ⟨hsync.cum, hsync.nxt, hsync.lbr, hsync.read_le, hsync.le_window⟩, h.shut,
    fun e he => h.queue e ((NormalSocket.mem_popEarly hne e).mpr (Or.inr he))⟩

/-- A segment that starts where the accepted bytes end. -/
theorem insert (h : Held b written ended sock output N) (hopen : Open sock)
    {payload : List UInt8} (hend : N + payload.length ≤ written.length)
    (hpay : payload = (written.drop N).take payload.length)
    (hfits : N + payload.length ≤ output.length + 65535) :
    Held b written ended (sock.insertPayload sock.cumReadNXT payload) output
      (N + payload.length) := by
  obtain ⟨hsync, hunread⟩ := (h.sync hopen).insertPayload payload hfits
  refine ⟨h.base, h.room, hend, ?_, Or.inl ?_, fun _ => hsync, fun hshut => absurd hopen hshut,
    h.queue⟩
  · rw [hunread, ← List.append_assoc, h.content, List.take_add]
    conv_lhs => rw [hpay]
  · rw [hsync.cum, NormalSocket.insertPayload_baseAck, h.base]
    rfl

/-- The FIN in its turn, or out of the queue, finds every byte accepted. -/
theorem acceptFIN (h : Held b written ended sock output N) (hend : ended)
    (hall : N = written.length) (hnext : sock.acceptFIN = some sock') :
    Held b written ended sock' output N := by
  have hclosed := acceptFIN_closed hnext
  obtain ⟨-, state, mtx, rfl⟩ := NormalSocket.acceptFIN_some hnext
  refine ⟨h.base, h.room, h.le, h.content, h.cum.imp id ?_, fun hopen => absurd hopen hclosed,
    fun _ => Or.inr ⟨hend, hall⟩, h.queue⟩
  rintro ⟨-, -, -, hcum⟩
  exact ⟨hend, hall, hclosed, hcum⟩

/-- A number of `written` or the one behind it is `cumReadNXT` only where the bytes end. -/
theorem off_eq (h : Held b written ended sock output N) {off : ℕ} (hoff : off ≤ written.length)
    (hdue : number b off = sock.cumReadNXT) :
    off = N ∨ off = N + 1 ∧ N = written.length := by
  have hroom := h.room
  have hnumber : (number b off).toNat = b.toNat + 1 + off := toNat_number (by omega)
  rw [hdue] at hnumber
  rcases h.toNat_cum with hcum | ⟨-, hall, -, hcum⟩
  · exact Or.inl (by omega)
  · exact Or.inr ⟨by omega, hall⟩

end Held

/-- What the turns of the drain loop keep; `low` is a number that was accepted before. -/
def Draining (b : UInt32) (written : List UInt8) (ended : Prop) (output : List UInt8) (low : ℕ)
    (sock : NormalSocket) : Prop :=
  (∃ N, Held b written ended sock output N) ∧ low ≤ sock.cumReadNXT.toNat ∧
    sock.unackedMtx = false

section Drain

variable {b : UInt32} {written : List UInt8} {ended : Prop} {sock : NormalSocket}
  {output : List UInt8} {low N : ℕ} {r : TCPInfo}

/-- A queued segment that is due is appended. -/
theorem Held.drainData (h : Held b written ended sock output N)
    (hne : 0 < sock.earlyPQ.size) (hdue : sock.topEarly.Priority = sock.cumReadNXT)
    (hfin : ¬ sock.topEarly.Flags &&& tcpFlagFin > 0) (hmtx : sock.unackedMtx = false) :
    ∃ N', N ≤ N' ∧ Open sock ∧
      Held b written ended
        (sock.popEarly.insertPayload sock.cumReadNXT sock.topEarly.Payload) output N' := by
  cases h.queue _ (NormalSocket.topEarly_mem hne) with
  | fin hend hflag => exact absurd hflag hfin
  | data hflag hexcerpt hfits =>
    obtain ⟨off, hseq, hlast, hpay, hnil⟩ := hexcerpt
    have hpos := List.length_pos_iff.mpr hnil
    have hroom := h.room
    rcases h.off_eq (by omega) (hseq.symm.trans hdue) with rfl | ⟨hoff, hall⟩
    · by_cases hopen : Open sock
      · have hnumber : sock.topEarly.Priority.toNat = b.toNat + 1 + off := by
          rw [hseq, toNat_number (by omega)]
        exact ⟨off + sock.topEarly.Payload.length, Nat.le_add_right _ _, hopen,
          (h.popEarly hne).insert hopen hlast hpay (by omega)⟩
      · rcases h.shut hopen with hlost | ⟨-, hall⟩
        · rw [hmtx] at hlost
          contradiction
        · omega
    · omega

theorem drainRules (b : UInt32) (written : List UInt8) (ended : Prop) (output : List UInt8)
    (low : ℕ) :
    NormalSocket.DrainRules (Draining b written ended output low)
      (Draining b written ended output low) where
  old := by
    rintro s ⟨⟨N, h⟩, hlow, hmtx⟩ hne -
    exact ⟨⟨N, h.popEarly hne⟩, hlow, hmtx⟩
  data := by
    rintro s ⟨⟨N, h⟩, hlow, hmtx⟩ hne hdue hfin
    obtain ⟨N', hle, hopen, hnext⟩ := h.drainData hne hdue hfin hmtx
    have hbefore := h.toNat_cum_of_open hopen
    have hafter := hnext.toNat_cum_of_open hopen
    exact ⟨⟨N', hnext⟩, by omega, hmtx⟩
  fin := by
    rintro s s' ⟨⟨N, h⟩, hlow, hmtx⟩ hne hdue hfin hnext
    cases h.queue _ (NormalSocket.topEarly_mem hne) with
    | data hflag => exact absurd hfin hflag
    | fin hend _ hseq =>
      have hall : N = written.length := by
        rcases h.off_eq (Nat.le_refl _) (hseq.symm.trans hdue) with hN | ⟨-, hN⟩
        · exact hN.symm
        · exact hN
      have hheld := (h.popEarly hne).acceptFIN hend hall hnext
      obtain ⟨-, state, mtx, rfl⟩ := NormalSocket.acceptFIN_some hnext
      exact ⟨⟨N, hheld⟩, hlow, hmtx⟩
  blocked := by
    rintro s ⟨⟨N, h⟩, hlow, hmtx⟩ hne - - -
    exact ⟨⟨N, h.popEarly hne⟩, hlow, hmtx⟩

theorem Draining.drainAndReply (h : Draining b written ended output low sock) :
    Draining b written ended output low (sock.drainAndReply r).1 := by
  have hend : Draining b written ended output low (sock.drainEarly sock.earlyPQ.size).1 := by
    rcases NormalSocket.drainEarly_spec (drainRules b written ended output low) _ h
      (Nat.le_refl _) with ⟨-, hdrained, -⟩ | ⟨-, hdrained⟩
    · exact hdrained
    · exact hdrained
  unfold NormalSocket.drainAndReply
  simp only
  split
  · exact hend
  · exact hend

end Drain

namespace Held

variable {b : UInt32} {written : List UInt8} {ended : Prop} {sock : NormalSocket}
  {output : List UInt8} {N : ℕ} {r : TCPInfo}

/-- A segment ahead of the accepted bytes is queued. It carries data or is the FIN. -/
theorem pushEarly (h : Held b written ended sock output N)
    (hr : Meant b written ended sock.cumReadNXT.toNat r) (hok : Storable sock r)
    (hearly : r.SeqNum > sock.cumReadNXT) :
    Held b written ended (sock.pushEarly r) output N := by
  have hsync := h.sync hok.isOpen
  have hwaits : Waits b written ended output.length r.early := by
    cases hr with
    | data hflag hexcerpt =>
      refine .data ?_ hexcerpt ?_
      · change ¬ r.Flag &&& tcpFlagFin > 0
        rw [hflag]
        decide
      · have hfits := hok.fits
        have hcum := h.toNat_cum_of_open hok.isOpen
        have hread := hsync.read_le
        rw [hsync.unreadCount] at hfits
        change r.SeqNum.toNat + r.Payload.length ≤ _
        omega
    | fin hend hflag hseq =>
      refine .fin hend ?_ hseq
      change r.Flag &&& tcpFlagFin > 0
      rw [hflag]
      decide
    | pure hflag hpay hlow hhigh =>
      have hlt := UInt32.lt_iff_toNat_lt.mp hearly
      omega
  have hperm := ContainerHeap.push_perm EarlyPacket.rank sock.earlyPQ r.early
  refine ⟨h.base, h.room, h.le, h.content, h.cum, fun hopen => ?_, h.shut, fun e he => ?_⟩
  · exact ⟨hsync.cum, hsync.nxt, hsync.lbr, hsync.read_le, hsync.le_window⟩
  · rcases List.mem_cons.mp (hperm.mem_iff.mp he) with heq | hmem
    · rw [heq]
      exact hwaits
    · exact h.queue e hmem

/-- The FIN in its turn. -/
theorem passFIN (h : Held b written ended sock output N)
    (hr : Meant b written ended sock.cumReadNXT.toNat r) (hok : Storable sock r)
    (hdue : ¬ r.SeqNum > sock.cumReadNXT) (hfin : r.Flag &&& tcpFlagFin > 0)
    {sock' : NormalSocket} (hnext : sock.passFIN.acceptFIN = some sock') :
    Held b written ended sock' output N ∧
      sock'.cumReadNXT.toNat = sock.cumReadNXT.toNat + 1 := by
  have hroom := h.room
  have hcum := h.toNat_cum_of_open hok.isOpen
  have hle := h.le
  have hone : (1 : UInt32).toNat = 1 := rfl
  have hnotpure : r.Flag ≠ tcpFlagAck := by
    intro hflag
    rw [hflag] at hfin
    exact absurd hfin (by decide)
  cases hr with
  | data hflag => exact absurd hflag hnotpure
  | pure hflag => exact absurd hflag hnotpure
  | fin hend hflag hseq hpay =>
    have hall : N = written.length := by
      have hnumber : r.SeqNum.toNat = b.toNat + 1 + written.length := by
        rw [hseq, toNat_number (by omega)]
      have hreached : r.SeqNum.toNat ≤ sock.cumReadNXT.toNat :=
        UInt32.le_iff_toNat_le.mp (UInt32.not_lt.mp hdue)
      omega
    have hclosed := acceptFIN_closed hnext
    obtain ⟨-, state, mtx, rfl⟩ := NormalSocket.acceptFIN_some hnext
    have hcum' : (sock.cumReadNXT + 1).toNat = sock.cumReadNXT.toNat + 1 := by
      rw [UInt32.toNat_add, hone]
      omega
    refine ⟨⟨h.base, h.room, h.le, h.content, Or.inr ⟨hend, hall, hclosed, ?_⟩,
      fun hopen => absurd hopen hclosed, fun _ => Or.inr ⟨hend, hall⟩, h.queue⟩, hcum'⟩
    change sock.cumReadNXT + 1 = _
    apply UInt32.toNat_inj.mp
    rw [hcum', hcum, toNat_number (by omega)]
    omega

/-- A segment that is not ahead of the accepted bytes and finds the buffer not full. -/
theorem insertSegment (h : Held b written ended sock output N)
    (hr : Meant b written ended sock.cumReadNXT.toNat r) (hok : Storable sock r)
    (hdue : ¬ r.SeqNum > sock.cumReadNXT) (hfin : ¬ r.Flag &&& tcpFlagFin > 0)
    (hfull : ringDist sock.readBuffer.LBR sock.readBuffer.NXT ≠ 0) :
    ∃ N', N ≤ N' ∧
      Held b written ended (sock.insertPayload r.SeqNum r.Payload) output N' := by
  have hroom := h.room
  have hopen := hok.isOpen
  have hsync := h.sync hopen
  have hcum := h.toNat_cum_of_open hopen
  by_cases hold : r.SeqNum < sock.cumReadNXT
  · -- a mild duplicate leaves every pointer where it is
    obtain ⟨-, hcase⟩ := hok.fresh hold
    rcases hcase with habsurd | ⟨hend, hfit⟩
    · exact absurd habsurd hfull
    · have hspace : spaceEnd r = r.SeqNum.toNat + r.Payload.length := by
        rw [spaceEnd, if_neg (show ¬ IsFin r from hfin), Nat.add_zero]
      have hcum' : r.SeqNum + UInt32.ofNat r.Payload.length = sock.cumReadNXT := by
        apply UInt32.toNat_inj.mp
        have hlt := sock.cumReadNXT.toNat_lt
        rw [toNat_add_ofNat _ _ (by omega)]
        omega
      have hnxt : (sock.insertPayload r.SeqNum r.Payload).readBuffer.NXT =
          sock.readBuffer.NXT := by
        apply UInt32.toNat_inj.mp
        have hb := sock.baseAck.toNat_lt
        rw [NormalSocket.insertPayload_NXT, hcum', toNat_ringDist, hsync.nxt, hcum, h.base]
        omega
      refine ⟨N, Nat.le_refl _, h.base, h.room, h.le, ?_, h.cum.imp hcum'.trans ?_, fun _ => ?_,
        h.shut, h.queue⟩
      · rw [NormalSocket.unread_insertPayload_same _ _ _ hnxt hfit]
        exact h.content
      · rintro ⟨-, -, hshut, -⟩
        exact absurd hopen hshut
      · exact ⟨hcum'.trans hsync.cum, by rw [hnxt]; exact hsync.nxt, hsync.lbr, hsync.read_le,
          hsync.le_window⟩
  · have hseq : r.SeqNum = sock.cumReadNXT :=
      UInt32.le_antisymm (UInt32.not_lt.mp hdue) (UInt32.not_lt.mp hold)
    rw [hseq]
    have hfits := hok.fits
    rw [hsync.unreadCount, hseq] at hfits
    have hread := hsync.read_le
    refine ⟨N + r.Payload.length, Nat.le_add_right _ _, h.insert hopen ?_ ?_ (by omega)⟩
    · cases hr with
      | data hflag hexcerpt =>
        obtain ⟨off, hnumber, hlast, -, hnil⟩ := hexcerpt
        have hpos := List.length_pos_iff.mpr hnil
        rcases h.off_eq (by omega) (hnumber.symm.trans hseq) with rfl | ⟨hoff, hall⟩
        · exact hlast
        · omega
      | fin hend hflag hnumber hpay =>
        rw [hpay]
        exact h.le
      | pure hflag hpay =>
        rw [hpay]
        exact h.le
    · cases hr with
      | data hflag hexcerpt =>
        obtain ⟨off, hnumber, hlast, hpay, hnil⟩ := hexcerpt
        have hpos := List.length_pos_iff.mpr hnil
        rcases h.off_eq (by omega) (hnumber.symm.trans hseq) with rfl | ⟨hoff, hall⟩
        · exact hpay
        · omega
      | fin hend hflag hnumber hpay => simp [hpay]
      | pure hflag hpay => simp [hpay]

/-- A turn of ReceiverThread on a harmless segment. `cumReadNXT` does not go back. -/
theorem receiveData (h : Held b written ended sock output N)
    (hr : Meant b written ended sock.cumReadNXT.toNat r) (hok : Storable sock r)
    (hmtx : sock.unackedMtx = false) :
    Draining b written ended output sock.cumReadNXT.toNat (sock.receiveData r).1 := by
  by_cases hearly : r.SeqNum > sock.cumReadNXT
  · rw [NormalSocket.receiveData_early hearly]
    exact ⟨⟨N, h.pushEarly hr hok hearly⟩, Nat.le_refl _, hmtx⟩
  · by_cases hfin : r.Flag &&& tcpFlagFin > 0
    · rw [NormalSocket.receiveData_fin hearly hfin]
      cases hnext : sock.passFIN.acceptFIN with
      | none =>
        have hfree : ¬ sock.passFIN.stateMtx = true := by
          rw [Bool.not_eq_true]
          exact hok.isOpen.1
        unfold NormalSocket.acceptFIN at hnext
        rw [if_neg hfree] at hnext
        split at hnext <;> contradiction
      | some sock' =>
        obtain ⟨hheld, hcum⟩ := h.passFIN hr hok hearly hfin hnext
        obtain ⟨-, state, mtx, rfl⟩ := NormalSocket.acceptFIN_some hnext
        exact Draining.drainAndReply ⟨⟨N, hheld⟩, by omega, hmtx⟩
    · by_cases hfull : ringDist sock.readBuffer.LBR sock.readBuffer.NXT = 0
      · rw [NormalSocket.receiveData_full hearly hfin hfull]
        exact ⟨⟨N, h⟩, Nat.le_refl _, hmtx⟩
      · rw [NormalSocket.receiveData_insert hearly hfin hfull]
        obtain ⟨N', hle, hheld⟩ := h.insertSegment hr hok hearly hfin hfull
        have hbefore := h.toNat_cum_of_open hok.isOpen
        have hafter := hheld.toNat_cum_of_open hok.isOpen
        exact Draining.drainAndReply ⟨⟨N', hheld⟩, by omega, hmtx⟩

/-- A turn of ReceiverThread after the window is noted. -/
theorem dispatch (h : Held b written ended sock output N)
    (hr : Meant b written ended sock.cumReadNXT.toNat r)
    (hok : IsData sock r → Storable sock r) :
    (∃ N', Held b written ended (sock.dispatch r).1 output N') ∧
      sock.cumReadNXT.toNat ≤ (sock.dispatch r).1.cumReadNXT.toNat := by
  unfold NormalSocket.dispatch
  split
  · next hflag =>
    split
    · exact ⟨⟨N, h⟩, Nat.le_refl _⟩
    · next hmtx =>
      rw [Bool.not_eq_true] at hmtx
      split
      · exact ⟨⟨N, h⟩, Nat.le_refl _⟩
      · next hfins =>
        rw [Bool.not_eq_true] at hfins
        split
        · have hsame : SameReading sock { sock with ackChan := sock.ackChan ++ [r] } :=
            .of_untouched ⟨rfl, rfl, rfl, rfl, rfl, rfl, rfl, id⟩
          exact ⟨⟨N, h.of_same hsame⟩, Nat.le_refl _⟩
        · next hack =>
          have hdata : IsData sock r := by
            refine ⟨hflag, hmtx, hfins, ?_⟩
            by_cases hpay : r.Payload = []
            · refine Or.inr (Option.not_isSome_iff_eq_none.mp fun hsome => hack ⟨hsome, ?_⟩)
              rw [hpay]
              rfl
            · exact Or.inl hpay
          obtain ⟨hheld, hcum, -⟩ := h.receiveData hr (hok hdata) hmtx
          exact ⟨hheld, hcum⟩
  · exact ⟨⟨N, h⟩, Nat.le_refl _⟩

/-- A step of any thread of the receiving socket. `cumReadNXT` does not go back. -/
theorem step {p p' : Endpoint} {e : EndpointEvent} {N : ℕ}
    (h : Held b written ended p.sock p.output N)
    (hmeant : ∀ r, p.arriving = some r → Meant b written ended p.sock.cumReadNXT.toNat r)
    (hok : e = .dispatch → ∀ r, p.arriving = some r → IsData p.sock r → Storable p.sock r)
    (hstep : Endpoint.Step p e p') :
    (∃ N', Held b written ended p'.sock p'.output N') ∧
      p.sock.cumReadNXT.toNat ≤ p'.sock.cumReadNXT.toNat := by
  by_cases hdispatch : e = .dispatch
  · subst hdispatch
    cases hstep with
    | blocked received harriving | absorbed received harriving
    | toFinChan received ack harriving | reply received packet harriving =>
      exact h.dispatch (hmeant received harriving) (hok rfl received harriving)
  · by_cases hread : ∃ numbytes, e = .read numbytes
    · obtain ⟨numbytes, rfl⟩ := hread
      cases hstep with
      | read _ sock data hread =>
        obtain ⟨hheld, hcum⟩ := h.read hread
        exact ⟨⟨N, hheld⟩, Nat.le_of_eq (congrArg UInt32.toNat hcum.symm)⟩
    · obtain ⟨hsock, houtput⟩ := SameReading.step hstep hdispatch
        (fun numbytes heq => hread ⟨numbytes, heq⟩)
      rw [houtput, hsock.cumReadNXT]
      exact ⟨⟨N, h.of_same hsock⟩, Nat.le_refl _⟩

end Held

end IpTcp.Incoming
