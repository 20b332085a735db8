import IpTcp.ReceiverRuns

/-!
Segments that were accepted before. A peer sends slices of one stream at their
true sequence numbers, as often and in whatever order it likes, and possibly a
FIN behind the last byte. The receiver has no test for a segment that lies
wholly behind what it accepted: it copies the payload again and puts
`cumReadNXT` at its end. This does no harm when the buffer is full, since then
the segment is dropped, and when the segment ends exactly at `cumReadNXT`. In
runs in which every old segment is of this kind the receiver never goes back.
-/
namespace IpTcp.Duplicates

open RingBuffer Runs

/-- The peer's data: the sequence number of its first byte, the bytes, and
whether a FIN follows. -/
structure Sent where
  first : ℕ
  stream : List UInt8
  hasFin : Bool

namespace Sent

def lastByte (sent : Sent) : ℕ := sent.first + sent.stream.length

def finish (sent : Sent) : ℕ := sent.lastByte + if sent.hasFin then 1 else 0

end Sent

def IsFin (r : TCPInfo) : Prop := r.Flag &&& tcpFlagFin > 0

instance (r : TCPInfo) : Decidable (IsFin r) := inferInstanceAs (Decidable (_ > _))

/-- The sequence number behind a segment; a FIN takes one. -/
def spaceEnd (r : TCPInfo) : ℕ :=
  r.SeqNum.toNat + r.Payload.length + if IsFin r then 1 else 0

def Honest (sent : Sent) (r : TCPInfo) : Prop :=
  r.Flag &&& tcpFlagAck > 0 ∧
    (IsFin r → sent.hasFin = true ∧ r.SeqNum.toNat = sent.lastByte ∧ r.Payload = []) ∧
    (¬ IsFin r → sent.first ≤ r.SeqNum.toNat ∧ spaceEnd r ≤ sent.lastByte ∧
      r.Payload = (sent.stream.drop (r.SeqNum.toNat - sent.first)).take r.Payload.length)

instance (sent : Sent) (r : TCPInfo) : Decidable (Honest sent r) :=
  inferInstanceAs (Decidable (_ ∧ (_ → _) ∧ (_ → _)))

def Old (sock : NormalSocket) (r : TCPInfo) : Prop := spaceEnd r ≤ sock.cumReadNXT.toNat

instance (sock : NormalSocket) (r : TCPInfo) : Decidable (Old sock r) :=
  inferInstanceAs (Decidable (_ ≤ _))

def AnyHonest (sent : Sent) (_ : Session) : RecvEvent → Prop
  | .segment r => Honest sent r
  | .read _ => True

instance (sent : Sent) (c : Session) (e : RecvEvent) : Decidable (AnyHonest sent c e) :=
  match e with
  | .segment _ => inferInstanceAs (Decidable (Honest _ _))
  | .read _ => isTrue trivial

/-- An old segment that the receiver can take without harm: no FIN, and either
the buffer is full or the segment ends at `cumReadNXT` and fits beside the
unread bytes. -/
def Mild (sock : NormalSocket) (r : TCPInfo) : Prop :=
  ¬ IsFin r ∧ (ringDist sock.readBuffer.LBR sock.readBuffer.NXT = 0 ∨
    (spaceEnd r = sock.cumReadNXT.toNat ∧
      sock.readBuffer.unreadCount.toNat + r.Payload.length ≤ 65536))

instance (sock : NormalSocket) (r : TCPInfo) : Decidable (Mild sock r) :=
  inferInstanceAs (Decidable (_ ∧ _))

def OnlyMild (sent : Sent) (c : Session) : RecvEvent → Prop
  | .segment r => Honest sent r ∧ (Old c.sock r → Mild c.sock r)
  | .read _ => True

instance (sent : Sent) (c : Session) (e : RecvEvent) : Decidable (OnlyMild sent c e) :=
  match e with
  | .segment _ => inferInstanceAs (Decidable (_ ∧ _))
  | .read _ => isTrue trivial

structure Unchanged (sock sock' : NormalSocket) : Prop where
  cum : sock'.cumReadNXT = sock.cumReadNXT
  lbr : sock'.readBuffer.LBR = sock.readBuffer.LBR
  nxt : sock'.readBuffer.NXT = sock.readBuffer.NXT
  unread : sock'.readBuffer.unread = sock.readBuffer.unread
  state : sock'.state = sock.state

section Segments

variable {sent : Sent} {r : TCPInfo}

theorem Honest.slice (h : Honest sent r) (hfin : ¬ IsFin r) :
    sent.first ≤ r.SeqNum.toNat ∧ r.SeqNum.toNat + r.Payload.length ≤ sent.lastByte := by
  obtain ⟨hlow, hhigh, -⟩ := h.2.2 hfin
  rw [spaceEnd, if_neg hfin] at hhigh
  exact ⟨hlow, by omega⟩

theorem Honest.fin (h : Honest sent r) (hfin : IsFin r) :
    sent.hasFin = true ∧ r.SeqNum.toNat = sent.lastByte ∧ r.Payload.length = 0 := by
  obtain ⟨hhas, hseq, hempty⟩ := h.2.1 hfin
  exact ⟨hhas, hseq, by simp [hempty]⟩

end Segments

/-- The receiver between two turns of its drain loop, `low` being a number that
`cumReadNXT` had before. -/
structure Tidy (baseAck : UInt32) (sent : Sent) (low : ℕ) (sock : NormalSocket) : Prop where
  base : sock.baseAck = baseAck
  above : low ≤ sock.cumReadNXT.toNat
  below : sock.cumReadNXT.toNat ≤ sent.finish
  nxt : sock.cumReadNXT.toNat ≤ sent.lastByte →
    sock.readBuffer.NXT = ringDist sock.cumReadNXT baseAck
  ordered : ContainerHeap.Ordered EarlyPacket.rank sock.earlyPQ sock.earlyPQ.size
  honest : ∀ p ∈ sock.earlyPQ.toList, ∃ r, Honest sent r ∧ p = r.early
  quiet : sock.unackedMtx = false ∧ (∀ ack, sock.unackedFINs ack = false) ∧
    ∀ ack, sock.unackedNums ack = none

/-- `cumReadNXT` has not gone back behind `low` nor past the end. -/
def Within (sent : Sent) (low : ℕ) (sock : NormalSocket) : Prop :=
  low ≤ sock.cumReadNXT.toNat ∧ sock.cumReadNXT.toNat ≤ sent.finish

namespace Tidy

variable {baseAck : UInt32} {sent : Sent} {low : ℕ} {sock : NormalSocket} {r : TCPInfo}

theorem within (h : Tidy baseAck sent low sock) : Within sent low sock := ⟨h.above, h.below⟩

theorem lower (h : Tidy baseAck sent low sock) {low' : ℕ} (hlow : low' ≤ low) :
    Tidy baseAck sent low' sock :=
  ⟨h.base, hlow.trans h.above, h.below, h.nxt, h.ordered, h.honest, h.quiet⟩

theorem raise (h : Tidy baseAck sent low sock) :
    Tidy baseAck sent sock.cumReadNXT.toNat sock :=
  ⟨h.base, Nat.le_refl _, h.below, h.nxt, h.ordered, h.honest, h.quiet⟩

theorem popEarly (h : Tidy baseAck sent low sock) (hne : 0 < sock.earlyPQ.size) :
    Tidy baseAck sent low sock.popEarly := by
  refine ⟨h.base, h.above, h.below, h.nxt, ContainerHeap.pop_ordered _ _ hne h.ordered, ?_,
    h.quiet⟩
  intro p hp
  exact h.honest p ((NormalSocket.mem_popEarly hne p).mpr (Or.inr hp))

/-- A slice that starts at or behind `cumReadNXT` and does not end behind it. -/
theorem insertPayload (h : Tidy baseAck sent low sock) (hwrap : sent.finish < 4294967296)
    (seq : UInt32) (payload : List UInt8) (hforward : sock.cumReadNXT.toNat ≤
      seq.toNat + payload.length) (hend : seq.toNat + payload.length ≤ sent.lastByte) :
    Tidy baseAck sent low (sock.insertPayload seq payload) := by
  have hfinish : sent.lastByte ≤ sent.finish := by
    unfold Sent.finish
    omega
  have hcum : (sock.insertPayload seq payload).cumReadNXT.toNat = seq.toNat + payload.length := by
    simp only [NormalSocket.insertPayload_cumReadNXT, UInt32.toNat_add, UInt32.toNat_ofNat']
    omega
  have habove := h.above
  refine ⟨h.base, by omega, by omega, ?_, h.ordered, h.honest, h.quiet⟩
  intro _
  rw [NormalSocket.insertPayload_NXT, h.base]
  rfl

theorem acceptFIN (h : Tidy baseAck sent low sock) {sock' : NormalSocket}
    (hnext : sock.acceptFIN = some sock') : Tidy baseAck sent low sock' := by
  obtain ⟨-, state, mtx, rfl⟩ := NormalSocket.acceptFIN_some hnext
  exact ⟨h.base, h.above, h.below, h.nxt, h.ordered, h.honest, h.quiet⟩

theorem drainRules (hwrap : sent.finish < 4294967296) :
    NormalSocket.DrainRules (Tidy baseAck sent low) (Within sent low) where
  old := by
    intro s h hne _
    exact h.popEarly hne
  data := by
    intro s h hne hdue hfin
    obtain ⟨r, hr, hp⟩ := h.honest _ (NormalSocket.topEarly_mem hne)
    rw [hp] at hdue hfin ⊢
    have hslice := hr.slice hfin
    have hseq : r.SeqNum = s.cumReadNXT := hdue
    rw [hseq] at hslice
    refine (h.popEarly hne).insertPayload hwrap _ _ ?_ hslice.2
    exact Nat.le_add_right _ _
  fin := by
    intro s s' h hne _ _ hnext
    exact (h.popEarly hne).acceptFIN hnext
  blocked := by
    intro s h hne _ _ _
    exact (h.popEarly hne).within

end Tidy

/-- Nothing in the queue is due. -/
def Idle (sock : NormalSocket) : Prop :=
  ∀ p ∈ sock.earlyPQ.toList, sock.cumReadNXT < p.Priority

theorem Idle.not_due {sock : NormalSocket} (h : Idle sock) : ¬ sock.Due := by
  rintro ⟨hne, hle⟩
  exact UInt32.not_le.mpr (h _ (NormalSocket.topEarly_mem hne)) hle

theorem idle_of_not_due {sock : NormalSocket}
    (hordered : ContainerHeap.Ordered EarlyPacket.rank sock.earlyPQ sock.earlyPQ.size)
    (h : ¬ sock.Due) : Idle sock := by
  intro p hp
  have hne : 0 < sock.earlyPQ.size := by
    simpa using List.length_pos_of_mem hp
  have hmin : sock.topEarly.Priority.toNat ≤ p.Priority.toNat := hordered.root_le_of_mem hp
  have hlate : sock.cumReadNXT < sock.topEarly.Priority := by
    rw [← UInt32.not_le]
    exact fun hle => h ⟨hne, hle⟩
  rw [UInt32.lt_iff_toNat_lt] at hlate ⊢
  omega

def Rested (baseAck : UInt32) (sent : Sent) (low : ℕ) (result : NormalSocket × RecvAction) : Prop :=
  (result.2 ≠ .blocked ∧ Tidy baseAck sent low result.1 ∧ Idle result.1) ∨
    (result.2 = .blocked ∧ Within sent low result.1)

namespace Tidy

variable {baseAck : UInt32} {sent : Sent} {low : ℕ} {sock : NormalSocket} {r : TCPInfo}

theorem drainAndReply (h : Tidy baseAck sent low sock) (hwrap : sent.finish < 4294967296) :
    Rested baseAck sent low (sock.drainAndReply r) := by
  rcases NormalSocket.drainEarly_spec (drainRules hwrap) sock.earlyPQ.size h (Nat.le_refl _) with
    ⟨hflag, hdrained, hdue⟩ | ⟨hflag, hwithin⟩
  · rw [NormalSocket.drainAndReply_done hflag]
    exact Or.inl ⟨by simp, hdrained, idle_of_not_due hdrained.ordered hdue⟩
  · rw [NormalSocket.drainAndReply_blocked hflag]
    exact Or.inr ⟨rfl, hwithin⟩

theorem pushEarly (h : Tidy baseAck sent low sock) (hidle : Idle sock) (hr : Honest sent r)
    (hearly : r.SeqNum > sock.cumReadNXT) :
    Tidy baseAck sent low (sock.pushEarly r) ∧ Idle (sock.pushEarly r) := by
  have hperm := ContainerHeap.push_perm EarlyPacket.rank sock.earlyPQ r.early
  refine ⟨⟨h.base, h.above, h.below, h.nxt, ContainerHeap.push_ordered _ _ _ h.ordered, ?_,
    h.quiet⟩, ?_⟩
  · intro p hp
    rcases List.mem_cons.mp (hperm.mem_iff.mp hp) with heq | hmem
    · exact ⟨r, hr, heq⟩
    · exact h.honest p hmem
  · intro p hp
    rcases List.mem_cons.mp (hperm.mem_iff.mp hp) with heq | hmem
    · rw [heq]
      exact hearly
    · exact hidle p hmem

/-- A FIN that is not old comes when every byte is accepted. -/
theorem passFIN (h : Tidy baseAck sent low sock) (hwrap : sent.finish < 4294967296)
    (hr : Honest sent r) (hfin : IsFin r) (hnew : ¬ Old sock r)
    (hdue : ¬ r.SeqNum > sock.cumReadNXT) : Tidy baseAck sent low sock.passFIN := by
  obtain ⟨hhas, hseq, hempty⟩ := hr.fin hfin
  have hle := UInt32.le_iff_toNat_le.mp (UInt32.not_lt.mp hdue)
  have hfinish : sent.finish = sent.lastByte + 1 := by
    simp [Sent.finish, hhas]
  have hspace : spaceEnd r = r.SeqNum.toNat + r.Payload.length + 1 := by
    simp [spaceEnd, hfin]
  unfold Old at hnew
  have hone : (1 : UInt32).toNat = 1 := rfl
  have hcum : sock.passFIN.cumReadNXT.toNat = sent.lastByte + 1 := by
    simp only [NormalSocket.passFIN, UInt32.toNat_add, hone]
    omega
  have habove := h.above
  refine ⟨h.base, by omega, by omega, ?_, h.ordered, h.honest, h.quiet⟩
  intro hbefore
  omega

/-- A turn on an honest segment that is new or mild. -/
theorem receiveData (h : Tidy baseAck sent low sock) (hidle : Idle sock)
    (hwrap : sent.finish < 4294967296) (hr : Honest sent r)
    (hmild : Old sock r → Mild sock r) : Rested baseAck sent low (sock.receiveData r) := by
  by_cases hearly : r.SeqNum > sock.cumReadNXT
  · rw [NormalSocket.receiveData_early hearly]
    obtain ⟨htidy, hidle'⟩ := h.pushEarly hidle hr hearly
    exact Or.inl ⟨by simp, htidy, hidle'⟩
  · by_cases hfin : IsFin r
    · have hnew : ¬ Old sock r := fun hold => (hmild hold).1 hfin
      have hpass := h.passFIN hwrap hr hfin hnew hearly
      rw [NormalSocket.receiveData_fin hearly hfin]
      cases hnext : sock.passFIN.acceptFIN with
      | none => exact Or.inr ⟨rfl, hpass.within⟩
      | some sock' => exact (hpass.acceptFIN hnext).drainAndReply hwrap
    · by_cases hfull : ringDist sock.readBuffer.LBR sock.readBuffer.NXT = 0
      · rw [NormalSocket.receiveData_full hearly hfin hfull]
        exact Or.inl ⟨by simp, h, hidle⟩
      · rw [NormalSocket.receiveData_insert hearly hfin hfull]
        have hslice := hr.slice hfin
        have hspace : spaceEnd r = r.SeqNum.toNat + r.Payload.length := by
          simp [spaceEnd, hfin]
        refine (h.insertPayload hwrap _ _ ?_ hslice.2).drainAndReply hwrap
        by_cases hold : Old sock r
        · rcases (hmild hold).2 with habsurd | ⟨hend, -⟩
          · exact absurd habsurd hfull
          · omega
        · unfold Old at hold
          omega

/-- A mild old segment changes nothing. -/
theorem receiveData_old (h : Tidy baseAck sent low sock) (hidle : Idle sock)
    (hr : Honest sent r) (hold : Old sock r) (hmild : Mild sock r) :
    Unchanged sock (sock.receiveData r).1 := by
  obtain ⟨hfin, hcase⟩ := hmild
  have hslice := hr.slice hfin
  have hspace : spaceEnd r = r.SeqNum.toNat + r.Payload.length := by
    simp [spaceEnd, hfin]
  have hdue : ¬ r.SeqNum > sock.cumReadNXT := by
    intro hearly
    have hlt : sock.cumReadNXT.toNat < r.SeqNum.toNat := UInt32.lt_iff_toNat_lt.mp hearly
    unfold Old at hold
    omega
  by_cases hfull : ringDist sock.readBuffer.LBR sock.readBuffer.NXT = 0
  · rw [NormalSocket.receiveData_full hdue hfin hfull]
    exact ⟨rfl, rfl, rfl, rfl, rfl⟩
  · rcases hcase with habsurd | ⟨hend, hfit⟩
    · exact absurd habsurd hfull
    · have hcum : r.SeqNum + UInt32.ofNat r.Payload.length = sock.cumReadNXT := by
        apply UInt32.toNat_inj.mp
        have hlt := sock.cumReadNXT.toNat_lt
        simp only [UInt32.toNat_add, UInt32.toNat_ofNat']
        omega
      have hnxt : (sock.insertPayload r.SeqNum r.Payload).readBuffer.NXT =
          sock.readBuffer.NXT := by
        rw [NormalSocket.insertPayload_NXT, hcum, h.base]
        exact (h.nxt (by omega)).symm
      have hstop := NormalSocket.drainEarly_stop (sock.earlyPQ.size)
        (NormalSocket.insertPayload_not_due hcum hidle.not_due)
      rw [NormalSocket.receiveData_insert hdue hfin hfull,
        NormalSocket.drainAndReply_done (by rw [NormalSocket.insertPayload_earlyPQ, hstop]),
        NormalSocket.insertPayload_earlyPQ, hstop]
      exact ⟨hcum, rfl, hnxt, NormalSocket.unread_insertPayload_same _ _ _ hnxt hfit, rfl⟩

theorem noteWindow (h : Tidy baseAck sent low sock) (r : TCPInfo) :
    Tidy baseAck sent low (sock.noteWindow r) := by
  unfold NormalSocket.noteWindow
  split
  · exact ⟨h.base, h.above, h.below, h.nxt, h.ordered, h.honest, h.quiet⟩
  · exact h

end Tidy

structure Sound (baseAck : UInt32) (sent : Sent) (c : Session) : Prop where
  within : Within sent sent.first c.sock
  tidy : c.stuck = false → Tidy baseAck sent sent.first c.sock ∧ Idle c.sock

namespace Sound

variable {baseAck : UInt32} {sent : Sent} {c c' : Session} {r : TCPInfo}

/-- The turn that `receiverThread` makes of an honest segment. -/
theorem receiverThread_eq (h : Tidy baseAck sent sent.first c.sock) (hr : Honest sent r) :
    c.sock.receiverThread r = (c.sock.noteWindow r).receiveData r := by
  obtain ⟨hmtx, hfins, hnums⟩ := h.quiet
  exact NormalSocket.receiverThread_data hr.1 (Or.inr (hnums r.AckNum)) hmtx (hfins r.AckNum)

theorem deliver (h : Sound baseAck sent c) (hwrap : sent.finish < 4294967296)
    (hstuck : c.stuck = false) (hr : Honest sent r) (hmild : Old c.sock r → Mild c.sock r) :
    Sound baseAck sent (c.deliver r) ∧ c.sock.cumReadNXT ≤ (c.deliver r).sock.cumReadNXT ∧
      (Old c.sock r → Unchanged c.sock (c.deliver r).sock) := by
  obtain ⟨htidy, hidle⟩ := h.tidy hstuck
  have hthread := receiverThread_eq htidy hr
  have hnote := c.sock.noteWindow_ack hr.1
  have hidle' : Idle (c.sock.noteWindow r) := by
    rw [hnote]
    exact hidle
  have hmild' : Old (c.sock.noteWindow r) r → Mild (c.sock.noteWindow r) r := by
    rw [hnote]
    exact hmild
  have hcum : (c.sock.noteWindow r).cumReadNXT = c.sock.cumReadNXT := by
    rw [hnote]
  have hturn := (htidy.noteWindow r).raise.receiveData hidle' hwrap hr hmild'
  rw [hcum] at hturn
  have hfirst := htidy.above
  unfold Session.deliver
  rw [hthread]
  refine ⟨?_, ?_, ?_⟩
  · rcases hturn with ⟨hgo, hnext, hrest⟩ | ⟨hblocked, hwithin⟩
    · exact ⟨(hnext.lower hfirst).within, fun _ => ⟨hnext.lower hfirst, hrest⟩⟩
    · exact ⟨⟨hfirst.trans hwithin.1, hwithin.2⟩, fun hgo => by simp [hblocked] at hgo⟩
  · rw [UInt32.le_iff_toNat_le]
    rcases hturn with ⟨-, hnext, -⟩ | ⟨-, hwithin⟩
    · exact hnext.above
    · exact hwithin.1
  · intro hold
    have hsame := (htidy.noteWindow r).receiveData_old hidle' hr (by rw [hnote]; exact hold)
      (hmild' (by rw [hnote]; exact hold))
    rw [hnote] at hsame ⊢
    exact ⟨hsame.cum, hsame.lbr, hsame.nxt, hsame.unread, hsame.state⟩

theorem read (num_buf : ℕ) (numbytes : UInt16) (h : Tidy baseAck sent sent.first c.sock)
    (hidle : Idle c.sock) :
    Tidy baseAck sent sent.first (c.sock.readOut num_buf numbytes).1 ∧
      Idle (c.sock.readOut num_buf numbytes).1 :=
  ⟨⟨h.base, h.above, h.below, h.nxt, h.ordered, h.honest, h.quiet⟩, hidle⟩

theorem step (h : Sound baseAck sent c) (hwrap : sent.finish < 4294967296) (e : RecvEvent)
    (hok : OnlyMild sent c e) (hstep : c.step e = some c') :
    Sound baseAck sent c' ∧ c.sock.cumReadNXT ≤ c'.sock.cumReadNXT ∧
      ∀ r, e = .segment r → Old c.sock r → Unchanged c.sock c'.sock := by
  cases e with
  | segment r =>
    obtain ⟨hstuck, rfl⟩ := Session.step_segment hstep
    obtain ⟨hsound, hcum, hsame⟩ := h.deliver hwrap hstuck hok.1 hok.2
    refine ⟨hsound, hcum, ?_⟩
    intro r' hr'
    cases hr'
    exact hsame
  | read numbytes =>
    obtain ⟨hstuck, -, -, -, -, rfl⟩ := Session.step_read hstep
    obtain ⟨htidy, hidle⟩ := h.tidy hstuck
    have hread := read c.sock.readBuffer.unreadCount.toNat numbytes htidy hidle
    refine ⟨⟨hread.1.within, fun _ => hread⟩, ?_, ?_⟩
    · rw [NormalSocket.readOut_cumReadNXT]
      exact UInt32.le_refl _
    · intro r hr
      cases hr

end Sound

theorem start_sound (key : SocketTableKey) (baseSeq baseAck : UInt32) (window : UInt16)
    (sent : Sent) (hfirst : sent.first = baseAck.toNat + 1)
    (hwrap : sent.finish < 4294967296) :
    Sound baseAck sent (Session.start (newSocket key baseSeq baseAck window)) := by
  have hfinish : sent.first ≤ sent.finish := by
    unfold Sent.finish Sent.lastByte
    omega
  have hcum : (baseAck + 1).toNat = sent.first := by
    have hone : (1 : UInt32).toNat = 1 := rfl
    simp only [UInt32.toNat_add, hone]
    omega
  have hnxt : (1 : UInt32) = ringDist (baseAck + 1) baseAck := by
    apply UInt32.toNat_inj.mp
    rw [toNat_ringDist, hcum, hfirst]
    simp only [UInt32.reduceToNat]
    omega
  have hidle : Idle (newSocket key baseSeq baseAck window) := by
    intro p hp
    simp [newSocket] at hp
  have hwithin : Within sent sent.first (newSocket key baseSeq baseAck window) := by
    refine ⟨?_, ?_⟩
    · exact Nat.le_of_eq hcum.symm
    · exact hcum.trans_le hfinish
  refine ⟨hwithin, fun _ => ⟨⟨rfl, hwithin.1, hwithin.2, fun _ => hnxt, ?_, ?_, ?_⟩, hidle⟩⟩
  · intro k hk hlt
    simp [Session.start, newSocket] at hlt
  · simp [Session.start, newSocket]
  · exact ⟨rfl, fun _ => rfl, fun _ => rfl⟩

/-- In runs whose old segments are all mild, `cumReadNXT` never goes back, never passes
the end of what the peer sent, and old segments change nothing. -/
theorem mild_duplicates_harmless (key : SocketTableKey) (baseSeq baseAck : UInt32)
    (window : UInt16) (sent : Sent) (c : Session) (hfirst : sent.first = baseAck.toNat + 1)
    (hwrap : sent.finish < 4294967296)
    (hreach : Reach Session.step (OnlyMild sent)
      (Session.start (newSocket key baseSeq baseAck window)) c) :
    (sent.first ≤ c.sock.cumReadNXT.toNat ∧ c.sock.cumReadNXT.toNat ≤ sent.finish) ∧
      ∀ e c', OnlyMild sent c e → c.step e = some c' →
        c.sock.cumReadNXT ≤ c'.sock.cumReadNXT ∧
        ∀ r, e = .segment r → Old c.sock r → Unchanged c.sock c'.sock := by
  have hsound : Sound baseAck sent c := by
    apply hreach.invariant (Sound baseAck sent)
    · exact start_sound key baseSeq baseAck window sent hfirst hwrap
    · intro s e s' hs hok hstep
      exact (hs.step hwrap e hok hstep).1
  refine ⟨hsound.within, ?_⟩
  intro e c' hok hstep
  exact (hsound.step hwrap e hok hstep).2

/-- Two bytes in two segments, the second of which arrives twice. -/
theorem mild_duplicates_harmless_twice :
    ∃ c, Reach Session.step (OnlyMild ⟨101, [1, 2], false⟩)
        (Session.start (newSocket sampleKey 0 100 8)) c ∧
      Old c.sock (sampleSegment 102 [2]) ∧
      Unchanged c.sock (c.deliver (sampleSegment 102 [2])).sock := by
  obtain ⟨c, hreach, hstuck, hold, hok⟩ := exists_reach Session.step
    (OnlyMild ⟨101, [1, 2], false⟩) (Session.start (newSocket sampleKey 0 100 8))
    (fun c => c.stuck = false ∧ Old c.sock (sampleSegment 102 [2]) ∧
      OnlyMild ⟨101, [1, 2], false⟩ c (.segment (sampleSegment 102 [2])))
    [.segment (sampleSegment 101 [1]), .segment (sampleSegment 102 [2])] (by decide)
  obtain ⟨-, hstep⟩ := mild_duplicates_harmless sampleKey 0 100 8 ⟨101, [1, 2], false⟩ c rfl
    (by decide) hreach
  have hnext : c.step (.segment (sampleSegment 102 [2])) =
      some (c.deliver (sampleSegment 102 [2])) := by
    simp [Session.step, hstuck]
  exact ⟨c, hreach, hold, (hstep _ _ hok hnext).2 _ rfl hold⟩

/-- An honest peer that sends a byte again makes the receiver go back. -/
theorem duplicate_rewinds :
    ¬ ∀ (key : SocketTableKey) (baseSeq baseAck : UInt32) (window : UInt16) (sent : Sent)
      (c : Session) (r : TCPInfo), sent.first = baseAck.toNat + 1 → sent.finish < 4294967296 →
      Reach Session.step (AnyHonest sent)
        (Session.start (newSocket key baseSeq baseAck window)) c →
      c.stuck = false → Honest sent r → Old c.sock r →
      Unchanged c.sock (c.deliver r).sock := by
  intro hclaim
  obtain ⟨c, hreach, hstuck, hold, hcum⟩ := exists_reach Session.step
    (AnyHonest ⟨101, [1, 2], false⟩) (Session.start (newSocket sampleKey 0 100 8))
    (fun c => c.stuck = false ∧ Old c.sock (sampleSegment 101 [1]) ∧
      ¬ (c.deliver (sampleSegment 101 [1])).sock.cumReadNXT = c.sock.cumReadNXT)
    [.segment (sampleSegment 101 [1]), .segment (sampleSegment 102 [2])] (by decide)
  have hsame := hclaim sampleKey 0 100 8 ⟨101, [1, 2], false⟩ c (sampleSegment 101 [1]) rfl
    (by decide) hreach hstuck (by decide) hold
  exact hcum hsame.cum

end IpTcp.Duplicates
