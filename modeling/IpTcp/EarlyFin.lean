import IpTcp.Reassembly

/-!
A FIN that overtakes data. The segments of a stream and the FIN behind it reach
ReceiverThread in any order, each once, from any state in which they are expected. When
the FIN comes last, all orders of the data segments end alike, as long as none that lies
behind the wrap of the numbers comes before one in front of it. When the FIN comes earlier
it waits in the queue, and the drain loop takes it off without counting it: `cumReadNXT`
and the last acknowledgement stay one number behind.
-/
namespace IpTcp.EarlyFin

open Reassembly

/-- The receiver after some arrivals, with the number of its last acknowledgement. -/
structure Intake where
  sock : NormalSocket
  lastAck : Option UInt32
  stuck : Bool

/-- A receiver that waits for ever takes nothing any more. -/
def Intake.deliver (c : Intake) (received : TCPInfo) : Intake :=
  if c.stuck then c
  else
    let result := c.sock.receiverThread received
    { sock := result.1
      lastAck := (result.2.packet.map fun packet => packet.ackNum).or c.lastAck
      stuck := result.2 = .blocked }

def receiveAll (sock : NormalSocket) (arrivals : List TCPInfo) : Intake :=
  arrivals.foldl Intake.deliver ⟨sock, none, false⟩

def streamOf (segs : List TCPInfo) : List UInt8 := segs.flatMap fun r => r.Payload

def Consecutive : UInt32 → List TCPInfo → Prop
  | _, [] => True
  | first, r :: rest =>
      DataSegment r ∧ r.SeqNum = first ∧ Consecutive (first + UInt32.ofNat r.Payload.length) rest

/-- The segments are what the receiver waits for next, with the FIN behind them, and there is
room for them all. -/
structure Expected (sock : NormalSocket) (segs : List TCPInfo) (fin : TCPInfo) : Prop where
  consecutive : Consecutive sock.cumReadNXT segs
  fin_seq : fin.SeqNum = sock.cumReadNXT + UInt32.ofNat (streamOf segs).length
  fin_flag : fin.Flag = finAck
  fin_payload : fin.Payload = []
  room : ∃ N R, InSync sock N R ∧ N + (streamOf segs).length ≤ R + 65535
  empty : sock.earlyPQ = #[]

/-- The arrivals end as the arrivals in order do, one past the FIN. -/
structure LikeInOrder (sock : NormalSocket) (segs : List TCPInfo) (fin : TCPInfo)
    (arrivals : List TCPInfo) : Prop where
  state : (receiveAll sock arrivals).sock.state = (receiveAll sock (segs ++ [fin])).sock.state
  cum : (receiveAll sock arrivals).sock.cumReadNXT =
    (receiveAll sock (segs ++ [fin])).sock.cumReadNXT
  past_fin : (receiveAll sock arrivals).sock.cumReadNXT = fin.SeqNum + 1
  lastAck : (receiveAll sock arrivals).lastAck = (receiveAll sock (segs ++ [fin])).lastAck

/-- The segment is not taken for an acknowledgement of what the socket itself has sent. -/
structure Heard (sock : NormalSocket) (r : TCPInfo) : Prop where
  unackedMtx : sock.unackedMtx = false
  unackedFINs : sock.unackedFINs r.AckNum = false
  unackedNums : r.Payload ≠ [] ∨ sock.unackedNums r.AckNum = none

instance (sock : NormalSocket) (r : TCPInfo) : Decidable (Heard sock r) :=
  decidable_of_iff (sock.unackedMtx = false ∧ sock.unackedFINs r.AckNum = false ∧
    (r.Payload ≠ [] ∨ sock.unackedNums r.AckNum = none))
    ⟨fun h => ⟨h.1, h.2.1, h.2.2⟩, fun h => ⟨h.unackedMtx, h.unackedFINs, h.unackedNums⟩⟩

def NoWrap (sock : NormalSocket) (segs : List TCPInfo) : Prop :=
  sock.cumReadNXT.toNat + (streamOf segs).length < 4294967296

instance (sock : NormalSocket) (segs : List TCPInfo) : Decidable (NoWrap sock segs) :=
  inferInstanceAs (Decidable (_ < _))

def inFront (sock : NormalSocket) (r : TCPInfo) : Bool := sock.cumReadNXT ≤ r.SeqNum

/-- No segment behind the wrap of the numbers arrives before one in front of it. -/
def InTurn (sock : NormalSocket) (arrivals : List TCPInfo) : Prop :=
  arrivals.Pairwise fun r s => inFront sock s → inFront sock r

instance (sock : NormalSocket) (arrivals : List TCPInfo) : Decidable (InTurn sock arrivals) :=
  inferInstanceAs (Decidable (List.Pairwise _ _))

@[simp] theorem streamOf_nil : streamOf [] = [] := rfl

@[simp] theorem streamOf_cons (r : TCPInfo) (rest : List TCPInfo) :
    streamOf (r :: rest) = r.Payload ++ streamOf rest := rfl

theorem streamOf_append (front back : List TCPInfo) :
    streamOf (front ++ back) = streamOf front ++ streamOf back := List.flatMap_append

theorem Consecutive.isCut {first : UInt32} {segs : List TCPInfo} (h : Consecutive first segs)
    (hwrap : first.toNat + (streamOf segs).length < 4294967296) :
    IsCut first.toNat (streamOf segs) segs := by
  induction segs generalizing first with
  | nil => rfl
  | cons r rest ih =>
    obtain ⟨hdata, hseq, hrest⟩ := h
    rw [streamOf_cons, List.length_append] at hwrap
    have hnext : (first + UInt32.ofNat r.Payload.length).toNat = first.toNat + r.Payload.length :=
      toNat_add_ofNat _ _ (by omega)
    refine ⟨hdata, congrArg _ hseq, streamOf rest, rfl, ?_⟩
    rw [← hnext]
    exact ih hrest (by omega)

theorem isCut_nodup {first : ℕ} {stream : List UInt8} {segs : List TCPInfo}
    (h : IsCut first stream segs) : segs.Nodup := by
  induction segs generalizing first stream with
  | nil => exact List.nodup_nil
  | cons r rest ih =>
    have hpos := h.nonempty (List.mem_cons_self ..)
    obtain ⟨-, hseq, tail, -, hrest⟩ := h
    refine List.nodup_cons.mpr ⟨fun hmem => ?_, ih hrest⟩
    have hlow := (hrest.bounds hmem).2.1
    unfold segEnd at hpos
    omega

theorem toNat_segEnd {r : TCPInfo} (hend : segEnd r < 4294967296) :
    (r.SeqNum + UInt32.ofNat r.Payload.length).toNat = segEnd r :=
  toNat_add_ofNat _ _ hend

/-- How far the receiver has come: `cum` is reached, the segments in front of it were
among those done, and the queue holds done segments or the FIN. -/
structure Filling (first : ℕ) (segs : List TCPInfo) (fin : TCPInfo) (done : List TCPInfo)
    (cum : UInt32) (queue : List EarlyPacket) : Prop where
  ge : first ≤ cum.toNat
  le : cum.toNat ≤ first + (streamOf segs).length
  passed : ∀ s ∈ segs, segEnd s ≤ cum.toNat ∧ s ∈ done ∨ cum.toNat ≤ s.SeqNum.toNat
  queued : ∀ p ∈ queue, p = fin.early ∨ ∃ r ∈ segs, r ∈ done ∧ p = r.early

namespace Filling

variable {first : ℕ} {segs done : List TCPInfo} {fin r : TCPInfo} {cum : UInt32}
  {queue queue' : List EarlyPacket}

theorem subset (h : Filling first segs fin done cum queue) (hsub : ∀ p ∈ queue', p ∈ queue) :
    Filling first segs fin done cum queue' :=
  ⟨h.ge, h.le, h.passed, fun p hp => h.queued p (hsub p hp)⟩

theorem more (h : Filling first segs fin done cum queue) {done' : List TCPInfo}
    (hmore : ∀ s ∈ done, s ∈ done') : Filling first segs fin done' cum queue where
  ge := h.ge
  le := h.le
  passed := by
    intro s hs
    rcases h.passed s hs with ⟨hend, hdone⟩ | hlater
    · exact .inl ⟨hend, hmore s hdone⟩
    · exact .inr hlater
  queued := by
    intro p hp
    rcases h.queued p hp with hfin | ⟨s, hs, hdone, rfl⟩
    · exact .inl hfin
    · exact .inr ⟨s, hs, hmore s hdone, rfl⟩

/-- A done segment or the FIN is put into the queue. -/
theorem push (h : Filling first segs fin done cum queue)
    (hr : r = fin ∨ r ∈ segs ∧ r ∈ done) (hsub : ∀ p ∈ queue', p = r.early ∨ p ∈ queue) :
    Filling first segs fin done cum queue' := by
  refine ⟨h.ge, h.le, h.passed, fun p hp => ?_⟩
  rcases hsub p hp with rfl | hold
  · rcases hr with rfl | ⟨hmem, hdone⟩
    · exact .inl rfl
    · exact .inr ⟨r, hmem, hdone, rfl⟩
  · exact h.queued p hold

/-- A segment that is not done is not passed. -/
theorem le_seq (h : Filling first segs fin done cum queue) (hr : r ∈ segs) (hnew : r ∉ done) :
    cum.toNat ≤ r.SeqNum.toNat :=
  (h.passed r hr).resolve_left fun hpassed => hnew hpassed.2

/-- The segment at `cum` is passed. -/
theorem advance (h : Filling first segs fin done cum queue)
    (hcut : IsCut first (streamOf segs) segs) (hr : r ∈ segs) (hwrap : segEnd r < 4294967296)
    (hdone : r ∈ done) (hseq : r.SeqNum = cum) :
    Filling first segs fin done (cum + UInt32.ofNat r.Payload.length) queue := by
  subst hseq
  obtain ⟨-, hfirst, hend, -⟩ := hcut.bounds hr
  have hpos := hcut.nonempty hr
  have hcum := toNat_segEnd hwrap
  refine ⟨by omega, by omega, ?_, h.queued⟩
  · intro s hs
    rw [hcum]
    rcases h.passed s hs with ⟨hbefore, hmem⟩ | hlater
    · exact .inl ⟨by omega, hmem⟩
    · rcases hcut.disjoint hr hs with rfl | hright | hleft
      · exact .inl ⟨le_rfl, hdone⟩
      · exact .inr hright
      · have := hcut.nonempty hs
        omega

end Filling

/-- Segments that are not heard change nothing here. -/
theorem receiverThread_unheard {sock : NormalSocket} {r : TCPInfo}
    (hack : r.Flag &&& tcpFlagAck > 0) (h : ¬ Heard sock r) :
    (sock.receiverThread r).1.cumReadNXT = sock.cumReadNXT ∧
      (sock.receiverThread r).1.earlyPQ = sock.earlyPQ := by
  rw [NormalSocket.receiverThread, sock.noteWindow_ack hack, NormalSocket.dispatch, if_pos hack]
  simp only
  split
  · exact ⟨rfl, rfl⟩
  · next hmtx =>
    split
    · exact ⟨rfl, rfl⟩
    · next hfins =>
      split
      · exact ⟨rfl, rfl⟩
      · next hnums =>
        refine absurd ⟨by simpa using hmtx, by simpa using hfins, ?_⟩ h
        by_cases hpayload : r.Payload = []
        · exact .inr (by simpa [hpayload] using hnums)
        · exact .inl hpayload

theorem receiverThread_heard {sock : NormalSocket} {r : TCPInfo}
    (hack : r.Flag &&& tcpFlagAck > 0) (h : Heard sock r) :
    sock.receiverThread r =
      { sock with ClientWindowSize := r.WindowSize }.receiveData r := by
  rw [NormalSocket.receiverThread_data hack h.unackedNums h.unackedMtx h.unackedFINs,
    sock.noteWindow_ack hack]

/-- What decides whether a segment is heard stays as it is. -/
theorem heard_receiverThread (sock : NormalSocket) (r s : TCPInfo) :
    Heard (sock.receiverThread r).1 s ↔ Heard sock s := by
  have hsame : (sock.receiverThread r).1.unackedMtx = sock.unackedMtx ∧
      (sock.receiverThread r).1.unackedFINs = sock.unackedFINs ∧
      (sock.receiverThread r).1.unackedNums = sock.unackedNums := by
    have hnote : (sock.noteWindow r).unackedMtx = sock.unackedMtx ∧
        (sock.noteWindow r).unackedFINs = sock.unackedFINs ∧
        (sock.noteWindow r).unackedNums = sock.unackedNums := by
      unfold NormalSocket.noteWindow
      split <;> exact ⟨rfl, rfl, rfl⟩
    rcases (sock.noteWindow r).dispatch_cases r with hreceives | ⟨-, -, -, hack⟩
    · exact ⟨hreceives.unackedMtx.trans hnote.1, hreceives.unackedFINs.trans hnote.2.1,
        hreceives.unackedNums.trans hnote.2.2⟩
    · rw [NormalSocket.receiverThread, hack]
      exact hnote
  obtain ⟨hmtx, hfins, hnums⟩ := hsame
  constructor
  · rintro ⟨h1, h2, h3⟩
    exact ⟨hmtx ▸ h1, hfins ▸ h2, hnums ▸ h3⟩
  · rintro ⟨h1, h2, h3⟩
    exact ⟨hmtx.trans h1, hfins ▸ h2, hnums ▸ h3⟩

section Bound

variable {first : ℕ} {segs done : List TCPInfo} {fin r : TCPInfo} {sock : NormalSocket}

def SockFilling (first : ℕ) (segs : List TCPInfo) (fin : TCPInfo) (done : List TCPInfo)
    (sock : NormalSocket) : Prop :=
  Filling first segs fin done sock.cumReadNXT sock.earlyPQ.toList

theorem mem_pushEarly (sock : NormalSocket) (r : TCPInfo) (p : EarlyPacket) :
    p ∈ (sock.pushEarly r).earlyPQ.toList ↔ p = r.early ∨ p ∈ sock.earlyPQ.toList :=
  (ContainerHeap.push_perm _ _ _).mem_iff.trans List.mem_cons

theorem mem_of_mem_popEarly (hne : 0 < sock.earlyPQ.size) :
    ∀ p ∈ sock.popEarly.earlyPQ.toList, p ∈ sock.earlyPQ.toList :=
  fun p hp => (NormalSocket.mem_popEarly hne p).mpr (.inr hp)

variable (hcut : IsCut first (streamOf segs) segs)
  (hwrap : first + (streamOf segs).length < 4294967296) (hfin : fin.Flag = finAck)

include hcut hwrap hfin

theorem sockFilling_drainRules :
    NormalSocket.DrainRules (SockFilling first segs fin done)
      (SockFilling first segs fin done) where
  old := fun s h hne _ => h.subset (mem_of_mem_popEarly hne)
  data := by
    intro s h hne hseq hflag
    have hpop := h.subset (mem_of_mem_popEarly hne)
    rcases h.queued _ (NormalSocket.topEarly_mem hne) with htop | ⟨r, hr, hdone, htop⟩
    · rw [htop] at hflag
      change ¬ fin.Flag &&& tcpFlagFin > 0 at hflag
      rw [hfin] at hflag
      exact absurd (by decide) hflag
    · rw [htop] at hseq ⊢
      exact hpop.advance hcut hr ((hcut.bounds hr).2.2.1.trans_lt hwrap) hdone hseq
  fin := by
    intro s s' h hne _ _ haccept
    obtain ⟨-, state, mtx, rfl⟩ := NormalSocket.acceptFIN_some haccept
    exact h.subset (mem_of_mem_popEarly hne)
  blocked := fun s h hne _ _ _ => h.subset (mem_of_mem_popEarly hne)

theorem SockFilling.drainAndReply (h : SockFilling first segs fin done sock) (r : TCPInfo) :
    SockFilling first segs fin done (sock.drainAndReply r).1 := by
  unfold NormalSocket.drainAndReply
  simp only
  rcases NormalSocket.drainEarly_spec (sockFilling_drainRules hcut hwrap hfin) sock.earlyPQ.size h
    le_rfl with ⟨-, hdrained, -⟩ | ⟨-, hdrained⟩
  · split <;> exact hdrained
  · split <;> exact hdrained

theorem SockFilling.receiveData (h : SockFilling first segs fin done sock) (hr : r ∈ segs)
    (hnew : r ∉ done) : SockFilling first segs fin (r :: done) (sock.receiveData r).1 := by
  have hdata := (hcut.bounds hr).1.2.1
  have hmore := h.more fun s hs => List.mem_cons_of_mem r hs
  by_cases hearly : r.SeqNum > sock.cumReadNXT
  · rw [NormalSocket.receiveData_early hearly]
    exact hmore.push (.inr ⟨hr, List.mem_cons_self ..⟩) fun p => (mem_pushEarly sock r p).mp
  · have hseq : r.SeqNum = sock.cumReadNXT := by
      have hle := UInt32.le_iff_toNat_le.mp (UInt32.not_lt.mp hearly)
      have hge := h.le_seq hr hnew
      exact UInt32.toNat_inj.mp (by omega)
    by_cases hfull : ringDist sock.readBuffer.LBR sock.readBuffer.NXT = 0
    · rw [NormalSocket.receiveData_full hearly hdata hfull]
      exact hmore
    · rw [NormalSocket.receiveData_insert hearly hdata hfull]
      refine SockFilling.drainAndReply hcut hwrap hfin ?_ r
      change Filling first segs fin (r :: done) (r.SeqNum + _) sock.earlyPQ.toList
      rw [hseq]
      exact hmore.advance hcut hr ((hcut.bounds hr).2.2.1.trans_lt hwrap)
        (List.mem_cons_self ..) hseq

/-- A segment that is not heard changes nothing, and is not done. -/
theorem SockFilling.receive (h : SockFilling first segs fin done sock) (hr : r ∈ segs)
    (hnew : r ∉ done) :
    SockFilling first segs fin (if Heard sock r then r :: done else done)
      (sock.receiverThread r).1 := by
  have hack := (hcut.bounds hr).1.1
  split
  · next hheard =>
    rw [receiverThread_heard hack hheard]
    exact SockFilling.receiveData hcut hwrap hfin h hr hnew
  · next hheard =>
    obtain ⟨hcum, hqueue⟩ := receiverThread_unheard hack hheard
    unfold SockFilling
    rw [hcum, hqueue]
    exact h

omit hwrap in
/-- A FIN that is not heard, or that comes while a segment is missing, is not counted. -/
theorem SockFilling.receive_fin (h : SockFilling first segs fin done sock)
    (hseq : fin.SeqNum.toNat = first + (streamOf segs).length)
    (hmissing : Heard sock fin → ∃ s ∈ segs, s ∉ done) :
    SockFilling first segs fin done (sock.receiverThread fin).1 := by
  have hack : fin.Flag &&& tcpFlagAck > 0 := by
    rw [hfin]
    decide
  by_cases hheard : Heard sock fin
  · obtain ⟨s, hs, hnew⟩ := hmissing hheard
    have hle := h.le_seq hs hnew
    have hpos := hcut.nonempty hs
    have hend := (hcut.bounds hs).2.2.1
    have hearly : fin.SeqNum > sock.cumReadNXT := UInt32.lt_iff_toNat_lt.mpr (by omega)
    rw [receiverThread_heard hack hheard, NormalSocket.receiveData_early (by exact hearly)]
    exact h.push (.inl rfl) fun p => (mem_pushEarly sock fin p).mp
  · obtain ⟨hcum, hqueue⟩ := receiverThread_unheard hack hheard
    unfold SockFilling
    rw [hcum, hqueue]
    exact h

/-- The receiver takes data segments, each once. -/
theorem SockFilling.foldl {xs : List TCPInfo} {c : Intake}
    (h : SockFilling first segs fin done c.sock) (hxs : ∀ r ∈ xs, r ∈ segs ∧ r ∉ done)
    (hnodup : xs.Nodup) :
    ∃ done', (∀ r, r ∈ done' → r ∈ done ∨ r ∈ xs ∧ Heard c.sock r) ∧
      SockFilling first segs fin done' (xs.foldl Intake.deliver c).sock ∧
      ∀ r, Heard (xs.foldl Intake.deliver c).sock r ↔ Heard c.sock r := by
  induction xs generalizing c done with
  | nil => exact ⟨done, fun r hr => .inl hr, h, fun r => Iff.rfl⟩
  | cons x xs ih =>
    obtain ⟨hx, hnew⟩ := hxs x (List.mem_cons_self ..)
    obtain ⟨hxnew, hrest⟩ := List.nodup_cons.mp hnodup
    rw [List.foldl_cons]
    cases hstuck : c.stuck with
    | true =>
      have hsame : c.deliver x = c := if_pos hstuck
      rw [hsame]
      obtain ⟨done', hdone, hfill, hheard⟩ := ih h
        (fun r hr => hxs r (List.mem_cons_of_mem _ hr)) hrest
      refine ⟨done', fun r hr => ?_, hfill, hheard⟩
      exact (hdone r hr).imp_right fun hr => ⟨List.mem_cons_of_mem _ hr.1, hr.2⟩
    | false =>
      have hsock : (c.deliver x).sock = (c.sock.receiverThread x).1 := by
        simp [Intake.deliver, hstuck]
      have hstep := SockFilling.receive hcut hwrap hfin h hx hnew
      rw [← hsock] at hstep
      have hsame : ∀ r, Heard (c.deliver x).sock r ↔ Heard c.sock r := fun r => by
        rw [hsock]
        exact heard_receiverThread c.sock x r
      have hfresh : ∀ r ∈ xs, r ∈ segs ∧ r ∉ if Heard c.sock x then x :: done else done := by
        intro r hr
        obtain ⟨hmem, hfresh⟩ := hxs r (List.mem_cons_of_mem _ hr)
        have hne : r ≠ x := fun heq => hxnew (heq ▸ hr)
        refine ⟨hmem, ?_⟩
        split
        · simp [hne, hfresh]
        · exact hfresh
      obtain ⟨done', hdone, hfill, hheard⟩ := ih hstep hfresh hrest
      refine ⟨done', fun r hr => ?_, hfill, fun r => (hheard r).trans (hsame r)⟩
      rcases hdone r hr with hold | ⟨hmem, hr⟩
      · split at hold
        · next hxheard =>
          rcases List.mem_cons.mp hold with rfl | hold
          · exact .inr ⟨List.mem_cons_self .., hxheard⟩
          · exact .inl hold
        · exact .inl hold
      · exact .inr ⟨List.mem_cons_of_mem _ hmem, (hsame r).mp hr⟩

end Bound

theorem Expected.length_le {sock : NormalSocket} {segs : List TCPInfo} {fin : TCPInfo}
    (h : Expected sock segs fin) : (streamOf segs).length ≤ 65535 := by
  obtain ⟨N, R, hsync, hroom⟩ := h.room
  have := hsync.read_le
  omega

theorem Intake.deliver_eq {c : Intake} (hstuck : c.stuck = false) (r : TCPInfo) :
    c.deliver r = { sock := (c.sock.receiverThread r).1
                    lastAck := ((c.sock.receiverThread r).2.packet.map fun packet =>
                      packet.ackNum).or c.lastAck
                    stuck := (c.sock.receiverThread r).2 = .blocked } := by
  simp [Intake.deliver, hstuck]

theorem Intake.deliver_sock (c : Intake) (r : TCPInfo) :
    (c.deliver r).sock = if c.stuck then c.sock else (c.sock.receiverThread r).1 := by
  unfold Intake.deliver
  split <;> rfl

section

variable {sock : NormalSocket} {segs arrivals pre post : List TCPInfo} {fin : TCPInfo}

/-- The receiver does not come past a FIN that it does not hear, or that it meets while a
segment in front of it is missing. -/
theorem cum_ne_of_missing (hexpected : Expected sock segs fin) (hwrap : NoWrap sock segs)
    (hdata : (pre ++ post).Perm segs)
    (hmissing : Heard sock fin → ∃ s ∈ segs, ¬ (s ∈ pre ∧ Heard sock s)) :
    (receiveAll sock (pre ++ fin :: post)).sock.cumReadNXT ≠ fin.SeqNum + 1 := by
  have hcut := hexpected.consecutive.isCut hwrap
  have hfin := hexpected.fin_flag
  have hseq : fin.SeqNum.toNat = sock.cumReadNXT.toNat + (streamOf segs).length := by
    rw [hexpected.fin_seq, toNat_add_ofNat _ _ hwrap]
  obtain ⟨hpre, hpost, hapart⟩ := List.nodup_append.mp (hdata.nodup_iff.mpr (isCut_nodup hcut))
  have hstart : SockFilling sock.cumReadNXT.toNat segs fin [] sock := by
    refine ⟨le_rfl, Nat.le_add_right _ _, fun s hs => .inr (hcut.bounds hs).2.1, fun p hp => ?_⟩
    simp [hexpected.empty] at hp
  rw [receiveAll, List.foldl_append, List.foldl_cons]
  -- the segments before the FIN, the FIN, the segments behind it
  obtain ⟨done, hdone, hfill, hheard⟩ := SockFilling.foldl hcut hwrap hfin
    (c := ⟨sock, none, false⟩) hstart
    (fun r hr => ⟨hdata.mem_iff.mp (List.mem_append_left _ hr), by simp⟩) hpre
  have hdone : ∀ r ∈ done, r ∈ pre ∧ Heard sock r := fun r hr =>
    (hdone r hr).resolve_left (by simp)
  generalize pre.foldl Intake.deliver ⟨sock, none, false⟩ = c at hfill hheard ⊢
  have hfill : SockFilling sock.cumReadNXT.toNat segs fin done (c.deliver fin).sock := by
    rw [Intake.deliver_sock]
    split
    · exact hfill
    · refine SockFilling.receive_fin hcut hfin hfill hseq fun hheardFin => ?_
      obtain ⟨s, hs, hnot⟩ := hmissing ((hheard fin).mp hheardFin)
      exact ⟨s, hs, fun hmem => hnot (hdone s hmem)⟩
  obtain ⟨done', -, hfill, -⟩ := SockFilling.foldl hcut hwrap hfin hfill
    (fun r hr => ⟨hdata.mem_iff.mp (List.mem_append_right _ hr),
      fun hmem => hapart r (hdone r hmem).1 r hr rfl⟩) hpost
  intro hpast
  have hle := hfill.le
  have hge := hfill.ge
  have hlen := hexpected.length_le
  rw [hpast, UInt32.toNat_add] at hle hge
  simp only [UInt32.reduceToNat] at hle hge
  omega

/-- The receiver comes past the FIN only if it hears all segments and the FIN last. -/
theorem fin_last_of_past_fin (hexpected : Expected sock segs fin) (hwrap : NoWrap sock segs)
    (hperm : arrivals.Perm (segs ++ [fin]))
    (hpast : (receiveAll sock arrivals).sock.cumReadNXT = fin.SeqNum + 1) :
    (∀ r ∈ arrivals, Heard sock r) ∧ arrivals.getLast? = some fin := by
  obtain ⟨pre, post, rfl⟩ := List.append_of_mem (hperm.mem_iff.mpr (by simp) : fin ∈ arrivals)
  have hdata : (pre ++ post).Perm segs :=
    (List.perm_cons fin).mp (List.perm_middle.symm.trans (hperm.trans List.perm_append_comm))
  by_contra hcontra
  refine cum_ne_of_missing hexpected hwrap hdata (fun hheardFin => ?_) hpast
  by_contra hall
  push Not at hall
  -- all segments come before the FIN, so nothing comes behind it
  have hnil : post = [] := by
    have hnodup := hdata.nodup_iff.mpr (isCut_nodup (hexpected.consecutive.isCut hwrap))
    refine List.eq_nil_iff_forall_not_mem.mpr fun s hs => ?_
    have hmem := (hall s (hdata.mem_iff.mp (List.mem_append_right _ hs))).1
    exact (List.nodup_append.mp hnodup).2.2 s hmem s hs rfl
  subst hnil
  refine hcontra ⟨fun r hr => ?_, by simp⟩
  rcases List.mem_append.mp hr with hr | hr
  · exact (hall r (hdata.mem_iff.mp (List.mem_append_left _ hr))).2
  · rw [List.mem_singleton.mp hr]
    exact hheardFin

end

/-- The receiver while it gathers data: every segment done is accepted or queued. `N` bytes
were accepted before the first of the segments, and `R` read. -/
structure Collecting (sock₀ : NormalSocket) (N R : ℕ) (segs : List TCPInfo) (fin : TCPInfo)
    (done : List TCPInfo) (sock : NormalSocket) : Prop where
  filling : SockFilling sock₀.cumReadNXT.toNat segs fin done sock
  no_fin : ∀ p ∈ sock.earlyPQ.toList, ¬ p.Flags &&& tcpFlagFin > 0
  ordered : ContainerHeap.Ordered EarlyPacket.rank sock.earlyPQ sock.earlyPQ.size
  nodup : sock.earlyPQ.toList.Nodup
  waiting : ∀ r ∈ segs, r ∈ done →
    segEnd r ≤ sock.cumReadNXT.toNat ∨ r.early ∈ sock.earlyPQ.toList
  sync : InSync sock (N + (sock.cumReadNXT.toNat - sock₀.cumReadNXT.toNat)) R
  state : sock.state = sock₀.state
  stateMtx : sock.stateMtx = sock₀.stateMtx

structure Complete (sock₀ : NormalSocket) (N R : ℕ) (segs done : List TCPInfo)
    (sock : NormalSocket) : Prop where
  all : ∀ s ∈ segs, s ∈ done
  cum : sock.cumReadNXT = sock₀.cumReadNXT + UInt32.ofNat (streamOf segs).length
  empty : sock.earlyPQ = #[]
  sync : InSync sock (N + (streamOf segs).length) R
  state : sock.state = sock₀.state
  stateMtx : sock.stateMtx = sock₀.stateMtx

def Beyond (sock : NormalSocket) : Prop :=
  ∀ p ∈ sock.earlyPQ.toList, sock.cumReadNXT < p.Priority

theorem beyond_of_not_due {sock : NormalSocket}
    (hordered : ContainerHeap.Ordered EarlyPacket.rank sock.earlyPQ sock.earlyPQ.size)
    (hdue : ¬ sock.Due) : Beyond sock := by
  intro p hp
  have hne : 0 < sock.earlyPQ.size := by
    simpa using List.length_pos_of_mem hp
  have hmin : sock.topEarly.Priority.toNat ≤ p.Priority.toNat := hordered.root_le_of_mem hp
  have hlate : sock.cumReadNXT < sock.topEarly.Priority :=
    UInt32.not_le.mp fun hle => hdue ⟨hne, hle⟩
  rw [UInt32.lt_iff_toNat_lt] at hlate ⊢
  omega

theorem le_of_no_gap {first cum : ℕ} {stream : List UInt8} {segs : List TCPInfo}
    (hcut : IsCut first stream segs) (hge : first ≤ cum)
    (h : ∀ s ∈ segs, segEnd s ≤ cum ∨ cum < s.SeqNum.toNat) : first + stream.length ≤ cum := by
  induction segs generalizing first stream with
  | nil =>
    obtain rfl : stream = [] := hcut
    exact hge
  | cons r rest ih =>
    obtain ⟨-, hseq, tail, rfl, hrest⟩ := hcut
    have hend := (h r (List.mem_cons_self ..)).resolve_right (by omega)
    unfold segEnd at hend
    have := ih hrest (by omega) fun s hs => h s (List.mem_cons_of_mem _ hs)
    rw [List.length_append]
    omega

/-- A segment whose end lies behind the wrap is the last one. -/
theorem segEnd_le_of_crossing {first : ℕ} {stream : List UInt8} {segs : List TCPInfo} {r : TCPInfo}
    (hcut : IsCut first stream segs) (hr : r ∈ segs) (hcross : 4294967296 ≤ segEnd r) :
    ∀ s ∈ segs, s = r ∨ segEnd s ≤ r.SeqNum.toNat := by
  intro s hs
  rcases hcut.disjoint hr hs with rfl | hright | hleft
  · exact .inl rfl
  · have := s.SeqNum.toNat_lt
    omega
  · exact .inr hleft

theorem segEnd_of_crossing {first : ℕ} {stream : List UInt8} {segs : List TCPInfo} {r : TCPInfo}
    (hcut : IsCut first stream segs) (hr : r ∈ segs) (hcross : 4294967296 ≤ segEnd r) :
    segEnd r = first + stream.length := by
  obtain ⟨-, hfirst, hend, -⟩ := hcut.bounds hr
  have hpos := hcut.nonempty hr
  refine Nat.le_antisymm hend (le_of_no_gap hcut (by omega) fun s hs => .inl ?_)
  rcases segEnd_le_of_crossing hcut hr hcross s hs with rfl | hle
  · exact le_rfl
  · omega

namespace Collecting

variable {sock₀ sock : NormalSocket} {N R : ℕ} {segs done : List TCPInfo} {fin r : TCPInfo}

theorem queued_data (h : Collecting sock₀ N R segs fin done sock) (hfin : fin.Flag = finAck)
    {p : EarlyPacket} (hp : p ∈ sock.earlyPQ.toList) : ∃ r ∈ segs, r ∈ done ∧ p = r.early := by
  refine (h.filling.queued p hp).resolve_left fun heq => h.no_fin p hp ?_
  rw [heq]
  change fin.Flag &&& tcpFlagFin > 0
  rw [hfin]
  decide

theorem nodup_pop (h : Collecting sock₀ N R segs fin done sock) (hne : 0 < sock.earlyPQ.size) :
    sock.topEarly ∉ sock.popEarly.earlyPQ.toList ∧ sock.popEarly.earlyPQ.toList.Nodup := by
  have hperm := ContainerHeap.pop_perm EarlyPacket.rank sock.earlyPQ hne
  rw [ContainerHeap.pop_fst EarlyPacket.rank sock.earlyPQ hne] at hperm
  exact List.nodup_cons.mp (hperm.nodup_iff.mp h.nodup)

/-- An old packet leaves the queue. -/
theorem popEarly (h : Collecting sock₀ N R segs fin done sock) (hne : 0 < sock.earlyPQ.size)
    (htop : sock.topEarly.Priority < sock.cumReadNXT) :
    Collecting sock₀ N R segs fin done sock.popEarly where
  filling := h.filling.subset (mem_of_mem_popEarly hne)
  no_fin := fun p hp => h.no_fin p (mem_of_mem_popEarly hne p hp)
  ordered := ContainerHeap.pop_ordered _ _ hne h.ordered
  nodup := (h.nodup_pop hne).2
  waiting := by
    intro r hr hdone
    rcases h.waiting r hr hdone with hend | hmem
    · exact .inl hend
    · rcases (NormalSocket.mem_popEarly hne _).mp hmem with heq | hmem
      · rw [← heq, UInt32.lt_iff_toNat_lt] at htop
        exact .inl ((h.filling.passed r hr).resolve_right (Nat.not_le.mpr htop)).1
      · exact .inr hmem
  sync := ⟨h.sync.cum, h.sync.nxt, h.sync.lbr, h.sync.read_le, h.sync.le_window⟩
  state := h.state
  stateMtx := h.stateMtx

variable (hcut : IsCut sock₀.cumReadNXT.toNat (streamOf segs) segs)
  (hroom : N + (streamOf segs).length ≤ R + 65535)

include hcut hroom

theorem insert_sync (h : Collecting sock₀ N R segs fin done sock) (hr : r ∈ segs)
    (hseq : r.SeqNum = sock.cumReadNXT) :
    InSync (sock.insertPayload sock.cumReadNXT r.Payload)
      (N + (segEnd r - sock₀.cumReadNXT.toNat)) R := by
  have hend := (hcut.bounds hr).2.2.1
  have hge := h.filling.ge
  have hnat : r.SeqNum.toNat = sock.cumReadNXT.toNat := congrArg _ hseq
  unfold segEnd at hend ⊢
  have hsync := (h.sync.insertPayload r.Payload (by omega)).1
  have hcount : N + (sock.cumReadNXT.toNat - sock₀.cumReadNXT.toNat) + r.Payload.length =
      N + (r.SeqNum.toNat + r.Payload.length - sock₀.cumReadNXT.toNat) := by omega
  rw [hcount] at hsync
  exact hsync

/-- The segment at `cumReadNXT` is copied into the buffer. -/
theorem insert (h : Collecting sock₀ N R segs fin done sock) (hr : r ∈ segs)
    (hwrap : segEnd r < 4294967296) (hseq : r.SeqNum = sock.cumReadNXT) (done' : List TCPInfo)
    (hdone : ∀ s, s ∈ done' ↔ s = r ∨ s ∈ done) :
    Collecting sock₀ N R segs fin done' (sock.insertPayload sock.cumReadNXT r.Payload) := by
  have hadvance := (h.filling.more fun s hs => (hdone s).mpr (.inr hs)).advance hcut hr hwrap
    ((hdone r).mpr (.inl rfl)) hseq
  have hpos := hcut.nonempty hr
  have hcum : (sock.insertPayload sock.cumReadNXT r.Payload).cumReadNXT.toNat = segEnd r := by
    rw [NormalSocket.insertPayload_cumReadNXT, ← hseq, toNat_segEnd hwrap]
  have hnat : r.SeqNum.toNat = sock.cumReadNXT.toNat := congrArg _ hseq
  refine ⟨hadvance, h.no_fin, h.ordered, h.nodup, fun s hs hmem => ?_, ?_, h.state, h.stateMtx⟩
  · rcases (hdone s).mp hmem with rfl | hold
    · exact .inl hcum.ge
    · exact (h.waiting s hs hold).imp_left fun hs => by omega
  · rw [hcum]
    exact h.insert_sync hcut hroom hr hseq

/-- The segment that reaches the wrap is copied into the buffer. Nothing is missing then. -/
theorem insert_last (h : Collecting sock₀ N R segs fin done sock) (hr : r ∈ segs)
    (hcross : 4294967296 ≤ segEnd r) (hseq : r.SeqNum = sock.cumReadNXT) {done' : List TCPInfo}
    (hdone : ∀ s, s ∈ done' ↔ s = r ∨ s ∈ done) {queue : Array EarlyPacket} (hqueue : queue = #[]) :
    Complete sock₀ N R segs done'
      { sock.insertPayload sock.cumReadNXT r.Payload with earlyPQ := queue } := by
  have hend := segEnd_of_crossing hcut hr hcross
  have hnat : r.SeqNum.toNat = sock.cumReadNXT.toNat := congrArg _ hseq
  have hsync := h.insert_sync hcut hroom hr hseq
  have hcum : sock.cumReadNXT + UInt32.ofNat r.Payload.length =
      sock₀.cumReadNXT + UInt32.ofNat (streamOf segs).length := by
    unfold segEnd at hend
    have hsum := congrArg UInt32.ofNat hend
    rw [UInt32.ofNat_add, UInt32.ofNat_add, UInt32.ofNat_toNat, UInt32.ofNat_toNat, hseq] at hsum
    exact hsum
  rw [hend, Nat.add_sub_cancel_left] at hsync
  refine ⟨fun s hs => (hdone s).mpr ?_, hcum, hqueue,
    ⟨hsync.cum, hsync.nxt, hsync.lbr, hsync.read_le, hsync.le_window⟩, h.state, h.stateMtx⟩
  rcases segEnd_le_of_crossing hcut hr hcross s hs with heq | hle
  · exact .inl heq
  · have hpos := hcut.nonempty hs
    exact .inr ((h.filling.passed s hs).resolve_right (by omega)).2

omit hroom in
/-- A packet that is due and reaches the wrap leaves the queue empty. -/
theorem popEarly_last (h : Collecting sock₀ N R segs fin done sock) (hfin : fin.Flag = finAck)
    (hne : 0 < sock.earlyPQ.size) (hr : r ∈ segs) (htop : sock.topEarly = r.early)
    (hcross : 4294967296 ≤ segEnd r) : sock.popEarly.earlyPQ = #[] := by
  refine Array.toList_eq_nil_iff.mp (List.eq_nil_iff_forall_not_mem.mpr fun p hp => ?_)
  have hmem := mem_of_mem_popEarly hne p hp
  obtain ⟨s, hs, -, rfl⟩ := h.queued_data hfin hmem
  rcases segEnd_le_of_crossing hcut hr hcross s hs with rfl | hle
  · exact (h.nodup_pop hne).1 (htop ▸ hp)
  · -- the first packet of the queue has the least number
    have hleast : sock.topEarly.Priority.toNat ≤ s.SeqNum.toNat := h.ordered.root_le_of_mem hmem
    have hpos := hcut.nonempty hs
    rw [htop] at hleast
    change r.SeqNum.toNat ≤ s.SeqNum.toNat at hleast
    omega

theorem drainRules (hfin : fin.Flag = finAck) :
    NormalSocket.DrainRules
      (fun s => Collecting sock₀ N R segs fin done s ∨ Complete sock₀ N R segs done s)
      (fun _ => False) where
  old := by
    rintro s (h | h) hne htop
    · exact .inl (h.popEarly hne htop)
    · simp [h.empty] at hne
  data := by
    rintro s (h | h) hne hseq -
    · obtain ⟨r, hr, hdone, htop⟩ := h.queued_data hfin (NormalSocket.topEarly_mem hne)
      have hr_seq : r.SeqNum = s.cumReadNXT := by
        rw [← hseq, htop]
        rfl
      have hsame : ∀ s, s ∈ done ↔ s = r ∨ s ∈ done := fun s =>
        ⟨.inr, fun hs => hs.elim (fun heq => heq ▸ hdone) id⟩
      by_cases hwrap : segEnd r < 4294967296
      · have hinsert := h.insert hcut hroom hr hwrap hr_seq done hsame
        rw [htop, ← NormalSocket.insertPayload_popEarly]
        refine .inl (hinsert.popEarly hne ?_)
        change s.topEarly.Priority < s.cumReadNXT + UInt32.ofNat r.Payload.length
        rw [hseq, ← hr_seq, UInt32.lt_iff_toNat_lt, toNat_segEnd hwrap]
        exact hcut.nonempty hr
      · have hempty := h.popEarly_last hcut hfin hne hr htop (Nat.not_lt.mp hwrap)
        rw [htop]
        exact .inr (h.insert_last hcut hroom hr (Nat.not_lt.mp hwrap) hr_seq hsame hempty)
    · simp [h.empty] at hne
  fin := by
    rintro s s' (h | h) hne - hflag -
    · exact absurd hflag (h.no_fin _ (NormalSocket.topEarly_mem hne))
    · simp [h.empty] at hne
  blocked := by
    rintro s (h | h) hne - hflag -
    · exact absurd hflag (h.no_fin _ (NormalSocket.topEarly_mem hne))
    · simp [h.empty] at hne

omit hroom in
/-- A data segment that is ahead is queued. -/
theorem push (h : Collecting sock₀ N R segs fin done sock) (hfin : fin.Flag = finAck)
    (hr : r ∈ segs) (hnew : r ∉ done) :
    Collecting sock₀ N R segs fin (r :: done) (sock.pushEarly r) := by
  have hdata := (hcut.bounds hr).1.2.1
  have hmem := mem_pushEarly sock r
  have hmore := h.filling.more fun s hs => List.mem_cons_of_mem r hs
  refine ⟨hmore.push (.inr ⟨hr, List.mem_cons_self ..⟩) fun p => (hmem p).mp, fun p hp => ?_,
    ContainerHeap.push_ordered _ _ _ h.ordered, ?_, fun s hs hdone => ?_,
    ⟨h.sync.cum, h.sync.nxt, h.sync.lbr, h.sync.read_le, h.sync.le_window⟩, h.state, h.stateMtx⟩
  · rcases (hmem p).mp hp with rfl | hold
    · exact hdata
    · exact h.no_fin p hold
  · refine (ContainerHeap.push_perm _ _ _).nodup_iff.mpr (List.nodup_cons.mpr ⟨?_, h.nodup⟩)
    intro hmem
    obtain ⟨s, hs, hdone, heq⟩ := h.queued_data hfin hmem
    have hseq : r.SeqNum = s.SeqNum := congrArg EarlyPacket.Priority heq
    have hnat : r.SeqNum.toNat = s.SeqNum.toNat := congrArg _ hseq
    have hpos := hcut.nonempty hs
    have hpos' := hcut.nonempty hr
    rcases hcut.disjoint hr hs with rfl | hright | hleft
    · exact hnew hdone
    · omega
    · omega
  · rcases List.mem_cons.mp hdone with rfl | hold
    · exact .inr ((hmem _).mpr (.inl rfl))
    · exact (h.waiting s hs hold).imp_right fun hqueued => (hmem _).mpr (.inr hqueued)

/-- The segment at `cumReadNXT` arrives with nothing due in the queue. -/
theorem insert_next (h : Collecting sock₀ N R segs fin done sock) (hfin : fin.Flag = finAck)
    (hbeyond : Beyond sock) (hr : r ∈ segs) (hseq : r.SeqNum = sock.cumReadNXT) :
    Collecting sock₀ N R segs fin (r :: done) (sock.insertPayload sock.cumReadNXT r.Payload) ∨
      Complete sock₀ N R segs (r :: done) (sock.insertPayload sock.cumReadNXT r.Payload) := by
  by_cases hwrap : segEnd r < 4294967296
  · exact .inl (h.insert hcut hroom hr hwrap hseq (r :: done) fun s => List.mem_cons)
  · have hempty : sock.earlyPQ = #[] := by
      refine Array.toList_eq_nil_iff.mp (List.eq_nil_iff_forall_not_mem.mpr fun p hp => ?_)
      obtain ⟨s, hs, -, rfl⟩ := h.queued_data hfin hp
      have hlate : sock.cumReadNXT.toNat < s.SeqNum.toNat :=
        UInt32.lt_iff_toNat_lt.mp (hbeyond _ hp)
      have hnat : r.SeqNum.toNat = sock.cumReadNXT.toNat := congrArg _ hseq
      have hpos := hcut.nonempty hs
      rcases segEnd_le_of_crossing hcut hr (Nat.not_lt.mp hwrap) s hs with rfl | hle
      · omega
      · omega
    exact .inr (h.insert_last hcut hroom hr (Nat.not_lt.mp hwrap) hseq
      (fun s => List.mem_cons) hempty)

/-- A data segment is queued, or accepted with what follows on from it and answered. -/
theorem receiveData (h : Collecting sock₀ N R segs fin done sock) (hfin : fin.Flag = finAck)
    (hbeyond : Beyond sock) (hr : r ∈ segs) (hnew : r ∉ done) :
    (Collecting sock₀ N R segs fin (r :: done) (sock.receiveData r).1 ∧
        Beyond (sock.receiveData r).1 ∨
      Complete sock₀ N R segs (r :: done) (sock.receiveData r).1) ∧
      ((sock.receiveData r).2 = .queued ∧
          (sock.receiveData r).1.cumReadNXT = sock.cumReadNXT ∨
        (sock.receiveData r).2 = .reply (replyTo (sock.receiveData r).1 r)) := by
  have hdata := (hcut.bounds hr).1.2.1
  have hle := h.filling.le_seq hr hnew
  by_cases hearly : r.SeqNum > sock.cumReadNXT
  · rw [NormalSocket.receiveData_early hearly]
    refine ⟨.inl ⟨h.push hcut hfin hr hnew, fun p hp => ?_⟩, .inl ⟨rfl, rfl⟩⟩
    rcases (mem_pushEarly sock r p).mp hp with rfl | hold
    · exact hearly
    · exact hbeyond p hold
  · have hseq : r.SeqNum = sock.cumReadNXT := by
      have hge := UInt32.le_iff_toNat_le.mp (UInt32.not_lt.mp hearly)
      exact UInt32.toNat_inj.mp (by omega)
    have hfree : ringDist sock.readBuffer.LBR sock.readBuffer.NXT ≠ 0 := by
      have hend := (hcut.bounds hr).2.2.1
      have hpos := hcut.nonempty hr
      have hge := h.filling.ge
      intro hfull
      have := h.sync.full_iff.mp hfull
      have hnat : r.SeqNum.toNat = sock.cumReadNXT.toNat := congrArg _ hseq
      omega
    have hinsert := h.insert_next hcut hroom hfin hbeyond hr hseq
    rw [NormalSocket.receiveData_insert hearly hdata hfree, hseq]
    rcases NormalSocket.drainEarly_spec (drainRules hcut hroom hfin) _ hinsert le_rfl with
      ⟨hflag, hend, hdue⟩ | ⟨-, hfalse⟩
    · rw [NormalSocket.drainAndReply_done hflag]
      refine ⟨hend.imp_left fun hcollect => ?_, .inr rfl⟩
      exact ⟨hcollect, beyond_of_not_due hcollect.ordered hdue⟩
    · exact hfalse.elim

end Collecting

/-- The receiver after the data segments: all of them are accepted and answered, and nothing
is queued. `N` bytes were accepted before, and `R` read. -/
structure Gathered (c₀ : Intake) (N R : ℕ) (segs : List TCPInfo) (c : Intake) : Prop where
  stuck : c.stuck = false
  cum : c.sock.cumReadNXT = c₀.sock.cumReadNXT + UInt32.ofNat (streamOf segs).length
  empty : c.sock.earlyPQ = #[]
  sync : InSync c.sock (N + (streamOf segs).length) R
  state : c.sock.state = c₀.sock.state
  stateMtx : c.sock.stateMtx = c₀.sock.stateMtx
  heard : ∀ r, Heard c.sock r ↔ Heard c₀.sock r
  lastAck : c.lastAck = if segs = [] then c₀.lastAck else some c.sock.cumReadNXT

theorem Gathered.trans {c₀ c₁ c₂ : Intake} {N R : ℕ} {front back : List TCPInfo}
    (h : Gathered c₀ N R front c₁)
    (h' : Gathered c₁ (N + (streamOf front).length) R back c₂) :
    Gathered c₀ N R (front ++ back) c₂ where
  stuck := h'.stuck
  cum := by
    rw [h'.cum, h.cum, streamOf_append, List.length_append, UInt32.ofNat_add, UInt32.add_assoc]
  empty := h'.empty
  sync := by
    rw [streamOf_append, List.length_append, ← Nat.add_assoc]
    exact h'.sync
  state := h'.state.trans h.state
  stateMtx := h'.stateMtx.trans h.stateMtx
  heard r := (h'.heard r).trans (h.heard r)
  lastAck := by
    rw [h'.lastAck]
    by_cases hback : back = []
    · have hcum := h'.cum
      rw [hback, streamOf_nil, List.length_nil] at hcum
      rw [if_pos hback, h.lastAck, hback, List.append_nil, hcum]
      simp
    · rw [if_neg hback, if_neg (by simp [hback])]

structure Progress (c₀ : Intake) (N R : ℕ) (segs : List TCPInfo) (fin : TCPInfo)
    (done : List TCPInfo) (c : Intake) : Prop where
  stuck : c.stuck = false
  taken : Collecting c₀.sock N R segs fin done c.sock ∧ Beyond c.sock ∨
    Complete c₀.sock N R segs done c.sock
  heard : ∀ r, Heard c.sock r ↔ Heard c₀.sock r
  lastAck : c.lastAck = some c.sock.cumReadNXT ∨
    c.lastAck = c₀.lastAck ∧ c.sock.cumReadNXT = c₀.sock.cumReadNXT

section Orders

variable {segs done order : List TCPInfo} {fin r : TCPInfo} {c₀ c : Intake} {N R : ℕ}

theorem Progress.deliver (hcut : IsCut c₀.sock.cumReadNXT.toNat (streamOf segs) segs)
    (hroom : N + (streamOf segs).length ≤ R + 65535) (hfin : fin.Flag = finAck)
    (h : Progress c₀ N R segs fin done c) (hr : r ∈ segs) (hnew : r ∉ done)
    (hheard : Heard c₀.sock r) : Progress c₀ N R segs fin (r :: done) (c.deliver r) := by
  have hthread := receiverThread_heard (hcut.bounds hr).1.1 ((h.heard r).mpr hheard)
  obtain ⟨hcollecting, hbeyond⟩ := h.taken.resolve_right fun hall => hnew (hall.all r hr)
  have hnoted : Collecting c₀.sock N R segs fin done
      { c.sock with ClientWindowSize := r.WindowSize } := by
    obtain ⟨hfilling, hno_fin, hordered, hnodup, hwaiting, hsync, hstate, hmtx⟩ := hcollecting
    exact ⟨hfilling, hno_fin, hordered, hnodup, hwaiting,
      ⟨hsync.cum, hsync.nxt, hsync.lbr, hsync.read_le, hsync.le_window⟩, hstate, hmtx⟩
  obtain ⟨htaken, haction⟩ := hnoted.receiveData hcut hroom hfin hbeyond hr hnew
  have hsame := fun s => (heard_receiverThread c.sock r s).trans (h.heard s)
  rw [← hthread] at htaken haction
  rw [Intake.deliver_eq h.stuck]
  refine ⟨?_, htaken, hsame, ?_⟩
  · rcases haction with ⟨hqueued, -⟩ | hreply
    · simp [hqueued]
    · simp [hreply]
  · rcases haction with ⟨hqueued, hcum⟩ | hreply
    · simp only [hqueued, hcum, RecvAction.packet, Option.map_none, Option.none_or]
      exact h.lastAck
    · simp only [hreply]
      exact .inl rfl

theorem Progress.foldl (hcut : IsCut c₀.sock.cumReadNXT.toNat (streamOf segs) segs)
    (hroom : N + (streamOf segs).length ≤ R + 65535) (hfin : fin.Flag = finAck)
    (h : Progress c₀ N R segs fin done c)
    (horder : ∀ r ∈ order, r ∈ segs ∧ r ∉ done ∧ Heard c₀.sock r) (hnodup : order.Nodup) :
    Progress c₀ N R segs fin (order.reverse ++ done) (order.foldl Intake.deliver c) := by
  induction order generalizing c done with
  | nil => exact h
  | cons r rest ih =>
    obtain ⟨hr, hnew, hheard⟩ := horder r (List.mem_cons_self ..)
    obtain ⟨hfresh, hrest⟩ := List.nodup_cons.mp hnodup
    have hnext : ∀ s ∈ rest, s ∈ segs ∧ s ∉ r :: done ∧ Heard c₀.sock s := by
      intro s hs
      obtain ⟨hmem, hs_new, hs_heard⟩ := horder s (List.mem_cons_of_mem _ hs)
      have hne : s ≠ r := fun heq => hfresh (heq ▸ hs)
      exact ⟨hmem, by simp [hne, hs_new], hs_heard⟩
    rw [List.foldl_cons, List.reverse_cons, List.append_assoc]
    exact ih (h.deliver hcut hroom hfin hr hnew hheard) hnext hrest

/-- Where every segment is done and nothing in the queue is due, there is no gap and the queue
is used up. -/
theorem Collecting.complete {sock₀ sock : NormalSocket}
    (hcut : IsCut sock₀.cumReadNXT.toNat (streamOf segs) segs) (hfin : fin.Flag = finAck)
    (h : Collecting sock₀ N R segs fin done sock) (hbeyond : Beyond sock)
    (hall : ∀ s ∈ segs, s ∈ done) : Complete sock₀ N R segs done sock := by
  have hgap : ∀ s ∈ segs, segEnd s ≤ sock.cumReadNXT.toNat ∨
      sock.cumReadNXT.toNat < s.SeqNum.toNat := fun s hs =>
    (h.waiting s hs (hall s hs)).imp_right fun hmem =>
      UInt32.lt_iff_toNat_lt.mp (hbeyond _ hmem)
  have hge := le_of_no_gap hcut h.filling.ge hgap
  have hle := h.filling.le
  have hnat : sock.cumReadNXT.toNat = sock₀.cumReadNXT.toNat + (streamOf segs).length := by omega
  have hlt := sock.cumReadNXT.toNat_lt
  have hsync := h.sync
  rw [hnat, Nat.add_sub_cancel_left] at hsync
  refine ⟨hall, ?_, ?_, hsync, h.state, h.stateMtx⟩
  · exact UInt32.toNat_inj.mp (by rw [toNat_add_ofNat _ _ (by omega)]; exact hnat)
  · refine Array.toList_eq_nil_iff.mp (List.eq_nil_iff_forall_not_mem.mpr fun p hp => ?_)
    obtain ⟨r, hr, -, rfl⟩ := h.queued_data hfin hp
    have hlate : sock.cumReadNXT.toNat < r.SeqNum.toNat :=
      UInt32.lt_iff_toNat_lt.mp (hbeyond _ hp)
    have hend := (hcut.bounds hr).2.2.1
    have hpos := hcut.nonempty hr
    omega

/-- All segments have come. -/
theorem Progress.gathered (hcut : IsCut c₀.sock.cumReadNXT.toNat (streamOf segs) segs)
    (hroom : N + (streamOf segs).length ≤ R + 65535) (hfin : fin.Flag = finAck) (hread : R ≤ N)
    (hne : segs ≠ []) (h : Progress c₀ N R segs fin done c) (hall : ∀ s ∈ segs, s ∈ done) :
    Gathered c₀ N R segs c := by
  have hend : Complete c₀.sock N R segs done c.sock := by
    rcases h.taken with ⟨hcollecting, hbeyond⟩ | hend
    · exact hcollecting.complete hcut hfin hbeyond hall
    · exact hend
  refine ⟨h.stuck, hend.cum, hend.empty, hend.sync, hend.state, hend.stateMtx, h.heard, ?_⟩
  rw [if_neg hne]
  refine h.lastAck.resolve_right fun hstill => ?_
  -- the segments hold at least one byte, and not a whole turn of the numbers
  obtain ⟨r, hr⟩ := List.exists_mem_of_ne_nil segs hne
  obtain ⟨-, hfirst, hlast, -⟩ := hcut.bounds hr
  have hpos := hcut.nonempty hr
  have hcum := congrArg UInt32.toNat (hend.cum.symm.trans hstill.2)
  rw [UInt32.toNat_add, UInt32.toNat_ofNat'] at hcum
  have hlt := c₀.sock.cumReadNXT.toNat_lt
  omega

/-- Data segments that are all heard end alike in all orders, when none of their numbers lies
behind the wrap. -/
theorem gathered_of_perm (hstuck : c₀.stuck = false)
    (hcut : IsCut c₀.sock.cumReadNXT.toNat (streamOf segs) segs)
    (hempty : c₀.sock.earlyPQ = #[]) (hsync : InSync c₀.sock N R)
    (hroom : N + (streamOf segs).length ≤ R + 65535) (hfin : fin.Flag = finAck)
    (hperm : order.Perm segs) (hheard : ∀ r ∈ segs, Heard c₀.sock r) :
    Gathered c₀ N R segs (order.foldl Intake.deliver c₀) := by
  by_cases hne : segs = []
  · subst hne
    obtain rfl := hperm.eq_nil
    exact ⟨hstuck, by simp, hempty, hsync, rfl, rfl, fun r => Iff.rfl, rfl⟩
  have hnone : ∀ s ∈ segs, segEnd s ≤ c₀.sock.cumReadNXT.toNat ∧ s ∈ [] ∨
      c₀.sock.cumReadNXT.toNat ≤ s.SeqNum.toNat := fun s hs => .inr (hcut.bounds hs).2.1
  have hstart : Progress c₀ N R segs fin [] c₀ := by
    refine ⟨hstuck, .inl ⟨⟨⟨le_rfl, Nat.le_add_right _ _, hnone, ?_⟩, ?_, ?_, ?_, by simp, ?_, rfl,
      rfl⟩, ?_⟩, fun r => Iff.rfl, .inr ⟨rfl, rfl⟩⟩
    · simp [hempty]
    · simp [hempty]
    · intro k hk hlt
      simp [hempty] at hlt
    · simp [hempty]
    · rw [Nat.sub_self, Nat.add_zero]
      exact hsync
    · simp [Beyond, hempty]
  have hend := hstart.foldl hcut hroom hfin
    (fun r hr => ⟨hperm.mem_iff.mp hr, by simp, hheard r (hperm.mem_iff.mp hr)⟩)
    (hperm.nodup_iff.mpr (isCut_nodup hcut))
  exact hend.gathered hcut hroom hfin hsync.read_le hne fun s hs => by
    simpa using hperm.mem_iff.mpr hs

/-- The segments in front of the wrap and those behind it. -/
theorem Consecutive.split {first n : UInt32} (h : Consecutive n segs) (hfirst : first ≤ n)
    (hlen : n.toNat + (streamOf segs).length < first.toNat + 4294967296) :
    ∃ front back, segs = front ++ back ∧ IsCut n.toNat (streamOf front) front ∧
      (∀ r ∈ front, first ≤ r.SeqNum) ∧
      Consecutive (n + UInt32.ofNat (streamOf front).length) back ∧
      (n + UInt32.ofNat (streamOf front).length).toNat + (streamOf back).length < 4294967296 ∧
      ∀ r ∈ back, r.SeqNum < first := by
  induction segs generalizing n with
  | nil => exact ⟨[], [], rfl, rfl, by simp, trivial, by simpa using n.toNat_lt, by simp⟩
  | cons r rest ih =>
    obtain ⟨hdata, rfl, hrest⟩ := h
    rw [streamOf_cons, List.length_append] at hlen
    rw [UInt32.le_iff_toNat_le] at hfirst
    by_cases hwrap : segEnd r < 4294967296
    · have hnext := toNat_segEnd hwrap
      unfold segEnd at hnext
      obtain ⟨front, back, rfl, hcut, hfront, hback, hroom, hbehind⟩ :=
        ih hrest (UInt32.le_iff_toNat_le.mpr (by omega)) (by omega)
      have hsum : r.SeqNum + UInt32.ofNat (streamOf (r :: front)).length =
          r.SeqNum + UInt32.ofNat r.Payload.length + UInt32.ofNat (streamOf front).length := by
        rw [streamOf_cons, List.length_append, UInt32.ofNat_add, UInt32.add_assoc]
      rw [hnext] at hcut
      refine ⟨r :: front, back, rfl, ⟨hdata, rfl, streamOf front, rfl, hcut⟩, ?_, ?_, ?_, hbehind⟩
      · exact List.forall_mem_cons.mpr ⟨UInt32.le_iff_toNat_le.mpr hfirst, hfront⟩
      · rw [hsum]
        exact hback
      · rw [hsum]
        exact hroom
    · have hnext : (r.SeqNum + UInt32.ofNat r.Payload.length).toNat + 4294967296 =
          r.SeqNum.toNat + r.Payload.length := by
        have hlt := r.SeqNum.toNat_lt
        unfold segEnd at hwrap
        rw [UInt32.toNat_add, UInt32.toNat_ofNat']
        omega
      have hlt := first.toNat_lt
      have hcut := hrest.isCut (by omega)
      refine ⟨[r], rest, rfl, ⟨hdata, rfl, [], rfl, rfl⟩, ?_, ?_, ?_, fun s hs => ?_⟩
      · exact List.forall_mem_singleton.mpr (UInt32.le_iff_toNat_le.mpr hfirst)
      · simpa using hrest
      · simp only [streamOf_cons, streamOf_nil, List.append_nil]
        omega
      · have hend := (hcut.bounds hs).2.2.1
        have hpos := hcut.nonempty hs
        exact UInt32.lt_iff_toNat_lt.mpr (by omega)

/-- A list in which what satisfies `p` comes first. -/
theorem filter_append_filter {α : Type} {p : α → Bool} {l : List α}
    (h : l.Pairwise fun a b => p b → p a) : l.filter p ++ l.filter (fun a => !p a) = l := by
  induction l with
  | nil => rfl
  | cons a l ih =>
    obtain ⟨hhead, hrest⟩ := List.pairwise_cons.mp h
    cases ha : p a with
    | true => simp [ha, ih hrest]
    | false =>
      have hnone : ∀ b ∈ l, p b = false := fun b hb => by
        by_contra hpb
        have := hhead b hb (by simpa using hpb)
        rw [ha] at this
        contradiction
      have hfront : l.filter p = [] := by simpa using hnone
      have hback : l.filter (fun b => !p b) = l := by simpa using hnone
      simp [ha, hfront, hback]

/-- Data segments that are all heard end alike in all orders in which those in front of the
wrap come first. -/
theorem gathered_in_turn {sock : NormalSocket} (hexpected : Expected sock segs fin)
    (hsync : InSync sock N R) (hroom : N + (streamOf segs).length ≤ R + 65535)
    (hperm : order.Perm segs) (hturn : InTurn sock order) (hheard : ∀ r ∈ segs, Heard sock r) :
    Gathered ⟨sock, none, false⟩ N R segs (receiveAll sock order) := by
  have hread := hsync.read_le
  have hfin := hexpected.fin_flag
  obtain ⟨front, back, rfl, hcut, hfront, hback, hnowrap, hbehind⟩ :=
    hexpected.consecutive.split (UInt32.le_refl _) (by omega)
  rw [streamOf_append, List.length_append] at hroom
  -- the arrivals in front of the wrap and those behind it
  have hahead : ∀ r ∈ front, inFront sock r = true := fun r hr => decide_eq_true (hfront r hr)
  have hlater : ∀ r ∈ back, inFront sock r = false := fun r hr =>
    decide_eq_false (UInt32.not_le.mpr (hbehind r hr))
  have hfirst : (order.filter (inFront sock)).Perm front := by
    have hnone : back.filter (inFront sock) = [] := by simpa using hlater
    have hfilter := hperm.filter (inFront sock)
    rwa [List.filter_append, List.filter_eq_self.mpr hahead, hnone, List.append_nil] at hfilter
  have hsecond : (order.filter fun r => !inFront sock r).Perm back := by
    have hnone : front.filter (fun r => !inFront sock r) = [] := by simpa using hahead
    have hself : back.filter (fun r => !inFront sock r) = back := by simpa using hlater
    have hfilter := hperm.filter fun r => !inFront sock r
    rwa [List.filter_append, hnone, hself, List.nil_append] at hfilter
  have hgathered : Gathered ⟨sock, none, false⟩ N R front
      ((order.filter (inFront sock)).foldl Intake.deliver ⟨sock, none, false⟩) :=
    gathered_of_perm rfl hcut hexpected.empty hsync (by omega) hfin hfirst
      fun r hr => hheard r (List.mem_append_left _ hr)
  rw [receiveAll, ← filter_append_filter hturn, List.foldl_append]
  generalize (order.filter (inFront sock)).foldl Intake.deliver ⟨sock, none, false⟩ = c
    at hgathered ⊢
  refine hgathered.trans (gathered_of_perm hgathered.stuck ?_ hgathered.empty hgathered.sync
    (by omega) hfin hsecond fun r hr => ?_)
  · rw [hgathered.cum]
    exact hback.isCut hnowrap
  · exact (hgathered.heard r).mpr (hheard r (List.mem_append_right _ hr))

def finState (state : ConnState) (stateMtx : Bool) : ConnState :=
  if stateMtx then state
  else match state with
    | .established => .closeWait
    | .finWait2 => .timeWait
    | _ => state

/-- A FIN in order with nothing queued. A reply is sent unless the receiver waits for the
state mutex for ever. -/
theorem receiveData_fin_next {sock : NormalSocket} (hflag : fin.Flag = finAck)
    (hseq : fin.SeqNum = sock.cumReadNXT) (hempty : sock.earlyPQ = #[]) :
    (sock.receiveData fin).1.cumReadNXT = fin.SeqNum + 1 ∧
      (sock.receiveData fin).1.state = finState sock.state sock.stateMtx ∧
      ((sock.receiveData fin).2.packet.map fun packet => packet.ackNum) =
        if sock.stateMtx then none else some (fin.SeqNum + 1) := by
  have hfin : fin.Flag &&& tcpFlagFin > 0 := by
    rw [hflag]
    decide
  rw [NormalSocket.receiveData_fin (by rw [hseq]; exact UInt32.lt_irrefl _) hfin, hseq]
  cases haccept : sock.passFIN.acceptFIN with
  | none =>
    have hmtx : sock.stateMtx = true := by
      by_contra hmtx
      unfold NormalSocket.acceptFIN at haccept
      simp only [NormalSocket.passFIN, hmtx, if_false] at haccept
      split at haccept <;> contradiction
    simp [hmtx, finState, NormalSocket.passFIN, RecvAction.packet]
  | some sock' =>
    obtain ⟨hmtx, state, mtx, hsock'⟩ := NormalSocket.acceptFIN_some haccept
    have hmtx : sock.stateMtx = false := hmtx
    have hstate : sock'.state = finState sock.state false := by
      unfold NormalSocket.acceptFIN at haccept
      simp only [NormalSocket.passFIN, hmtx, Bool.false_eq_true, if_false] at haccept
      unfold finState
      split at haccept <;> simp_all
    have hempty' : sock'.earlyPQ = #[] := by
      rw [hsock']
      exact hempty
    rw [Option.map_some, Option.getD_some, NormalSocket.drainAndReply_empty hempty', hmtx]
    refine ⟨by rw [hsock']; rfl, hstate, ?_⟩
    simp [RecvAction.packet, replyTo, hsock', NormalSocket.passFIN]

/-- The FIN behind the gathered segments. -/
theorem Gathered.deliver_fin (h : Gathered c₀ N R segs c)
    (hseq : fin.SeqNum = c₀.sock.cumReadNXT + UInt32.ofNat (streamOf segs).length)
    (hflag : fin.Flag = finAck) (hheard : Heard c₀.sock fin) :
    (c.deliver fin).sock.cumReadNXT = fin.SeqNum + 1 ∧
      (c.deliver fin).sock.state = finState c₀.sock.state c₀.sock.stateMtx ∧
      (c.deliver fin).lastAck =
        if c₀.sock.stateMtx then c.lastAck else some (fin.SeqNum + 1) := by
  have hack : fin.Flag &&& tcpFlagAck > 0 := by
    rw [hflag]
    decide
  obtain ⟨hcum, hstate, hlast⟩ := receiveData_fin_next hflag
    (show fin.SeqNum = ({ c.sock with ClientWindowSize := fin.WindowSize } :
      NormalSocket).cumReadNXT from hseq.trans h.cum.symm) h.empty
  rw [Intake.deliver_eq h.stuck, receiverThread_heard hack ((h.heard fin).mpr hheard), hlast,
    ← h.stateMtx, ← h.state]
  refine ⟨hcum, hstate, ?_⟩
  split <;> rfl

end Orders

section LikeInOrder

variable {sock : NormalSocket} {segs order arrivals : List TCPInfo} {fin : TCPInfo}

theorem inTurn_in_order (hexpected : Expected sock segs fin) : InTurn sock segs := by
  have hlength := hexpected.length_le
  obtain ⟨front, back, rfl, -, hfront, -, -, hbehind⟩ :=
    hexpected.consecutive.split (UInt32.le_refl _) (by omega)
  refine List.pairwise_append.mpr ⟨?_, ?_, fun r hr _ _ _ => decide_eq_true (hfront r hr)⟩
  · refine List.pairwise_iff_forall_sublist.mpr fun hrs _ => ?_
    exact decide_eq_true (hfront _ (hrs.subset (by simp)))
  · refine List.pairwise_iff_forall_sublist.mpr fun hrs hle => ?_
    exact absurd (of_decide_eq_true hle) (UInt32.not_le.mpr (hbehind _ (hrs.subset (by simp))))

theorem inTurn_of_noWrap (hexpected : Expected sock segs fin) (hwrap : NoWrap sock segs)
    (hperm : order.Perm segs) : InTurn sock order := by
  have hcut := hexpected.consecutive.isCut hwrap
  refine List.pairwise_iff_forall_sublist.mpr fun hrs _ => ?_
  refine decide_eq_true (UInt32.le_iff_toNat_le.mpr ?_)
  exact (hcut.bounds (hperm.mem_iff.mp (hrs.subset (by simp)))).2.1

/-- The FIN last, behind segments that were gathered in another order. -/
theorem likeInOrder_of_inTurn (hexpected : Expected sock segs fin) (hperm : order.Perm segs)
    (hturn : InTurn sock order) (hheard : ∀ r ∈ segs ++ [fin], Heard sock r) :
    LikeInOrder sock segs fin (order ++ [fin]) := by
  obtain ⟨N, R, hsync, hroom⟩ := hexpected.room
  have hdata : ∀ r ∈ segs, Heard sock r := fun r hr => hheard r (List.mem_append_left _ hr)
  have h := gathered_in_turn hexpected hsync hroom hperm hturn hdata
  have hin := gathered_in_turn hexpected hsync hroom (.refl segs) (inTurn_in_order hexpected) hdata
  have hlast : ∀ xs, receiveAll sock (xs ++ [fin]) = (receiveAll sock xs).deliver fin := by
    intro xs
    rw [receiveAll, List.foldl_append]
    rfl
  have hfin := hheard fin (by simp)
  obtain ⟨hcum, hstate, hack⟩ := h.deliver_fin hexpected.fin_seq hexpected.fin_flag hfin
  obtain ⟨hcum', hstate', hack'⟩ := hin.deliver_fin hexpected.fin_seq hexpected.fin_flag hfin
  have hsame : (receiveAll sock order).lastAck = (receiveAll sock segs).lastAck := by
    rw [h.lastAck, hin.lastAck, h.cum, hin.cum]
  refine ⟨?_, ?_, ?_, ?_⟩
  · rw [hlast, hlast, hstate, hstate']
  · rw [hlast, hlast, hcum, hcum']
  · rw [hlast, hcum]
  · rw [hlast, hlast, hack, hack', hsame]

/-- An early FIN is not handled like one in order. Where the numbers do not wrap, the
arrivals end as those in order do exactly if every segment is heard and the FIN comes last.
Where they wrap, they do so if moreover the segments in front of the wrap come before those
behind it. -/
theorem like_in_order_iff (hexpected : Expected sock segs fin)
    (hperm : arrivals.Perm (segs ++ [fin])) :
    (NoWrap sock segs → (LikeInOrder sock segs fin arrivals ↔
      (∀ r ∈ arrivals, Heard sock r) ∧ arrivals.getLast? = some fin)) ∧
    ((∀ r ∈ arrivals, Heard sock r) → arrivals.getLast? = some fin → InTurn sock arrivals →
      LikeInOrder sock segs fin arrivals) := by
  have hordered : (∀ r ∈ arrivals, Heard sock r) → arrivals.getLast? = some fin →
      (∀ order, order ++ [fin] = arrivals → order.Perm segs → InTurn sock order) →
      LikeInOrder sock segs fin arrivals := by
    intro hheard hlast hturn
    obtain ⟨order, rfl⟩ := List.getLast?_eq_some_iff.mp hlast
    have horder : order.Perm segs := (List.perm_append_right_iff [fin]).mp hperm
    exact likeInOrder_of_inTurn hexpected horder (hturn order rfl horder)
      fun r hr => hheard r (hperm.mem_iff.mpr hr)
  refine ⟨fun hwrap => ⟨fun hlike => ?_, fun ⟨hheard, hlast⟩ => ?_⟩, fun hheard hlast hturn => ?_⟩
  · exact fin_last_of_past_fin hexpected hwrap hperm hlike.past_fin
  · exact hordered hheard hlast fun order _ horder => inTurn_of_noWrap hexpected hwrap horder
  · refine hordered hheard hlast fun order heq _ => ?_
    rw [← heq] at hturn
    exact (List.pairwise_append.mp hturn).1

end LikeInOrder

def sampleFIN (seq : UInt32) : TCPInfo := { sampleSegment seq [] with Flag := finAck }

/-- Three segments of five bytes, the last of them behind the wrap of the numbers. -/
theorem expected_wrapped : Expected (newSocket sampleKey 0 4294967285 8)
    [sampleSegment 4294967286 [1, 2, 3, 4, 5], sampleSegment 4294967291 [6, 7, 8, 9, 10],
      sampleSegment 0 [11, 12, 13, 14, 15]] (sampleFIN 5) where
  consecutive := by
    refine ⟨by decide, rfl, by decide, by decide, by decide, by decide, trivial⟩
  fin_seq := by decide
  fin_flag := rfl
  fin_payload := rfl
  room := ⟨0, 0, ⟨by decide, rfl, rfl, le_rfl, by decide⟩, by decide⟩
  empty := rfl

theorem expected_sample : Expected (newSocket sampleKey 0 100 8)
    [sampleSegment 101 [1, 2], sampleSegment 103 [3]] (sampleFIN 104) where
  consecutive := by
    refine ⟨by decide, rfl, by decide, by decide, trivial⟩
  fin_seq := by decide
  fin_flag := rfl
  fin_payload := rfl
  room := ⟨0, 0, ⟨by decide, rfl, rfl, le_rfl, by decide⟩, by decide⟩
  empty := rfl

/-- Data segments change places and the FIN comes last, without a wrap of the numbers and in
front of one. -/
theorem like_in_order_overtaken :
    LikeInOrder (newSocket sampleKey 0 100 8)
      [sampleSegment 101 [1, 2], sampleSegment 103 [3]] (sampleFIN 104)
      [sampleSegment 103 [3], sampleSegment 101 [1, 2], sampleFIN 104] ∧
    LikeInOrder (newSocket sampleKey 0 4294967285 8)
      [sampleSegment 4294967286 [1, 2, 3, 4, 5], sampleSegment 4294967291 [6, 7, 8, 9, 10],
        sampleSegment 0 [11, 12, 13, 14, 15]] (sampleFIN 5)
      [sampleSegment 4294967291 [6, 7, 8, 9, 10], sampleSegment 4294967286 [1, 2, 3, 4, 5],
        sampleSegment 0 [11, 12, 13, 14, 15], sampleFIN 5] :=
  ⟨((like_in_order_iff expected_sample (by decide)).1 (by decide)).mpr ⟨by decide, rfl⟩,
    (like_in_order_iff expected_wrapped (by decide)).2 (by decide) rfl (by decide)⟩

/-- The FIN overtakes the data: it is drained and not counted. -/
theorem early_fin_not_counted :
    ¬ ∀ (sock : NormalSocket) (segs arrivals : List TCPInfo) (fin : TCPInfo),
      Expected sock segs fin → arrivals.Perm (segs ++ [fin]) →
      LikeInOrder sock segs fin arrivals := by
  intro hclaim
  have hlike := hclaim _ _ [sampleFIN 104, sampleSegment 101 [1, 2], sampleSegment 103 [3]] _
    expected_sample (by decide)
  exact absurd hlike.past_fin (by decide)

end IpTcp.EarlyFin
