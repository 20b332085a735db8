import IpTcp.ReceiverRuns

/-!
What happens to the unread bytes when another segment comes. ReceiverThread asks
whether the read buffer is full and not whether the payload fits, it does not look
at the space at all for packets that waited in the early queue, and a FIN makes
VRead refuse whatever is still unread. As long as the segment and all that waits
fit, nothing is rewound and no FIN gets ahead of the reader, the unread bytes stay
in place and readable.
-/
namespace IpTcp.UnreadData

open Runs

def queued (sock : NormalSocket) : ℕ :=
  (sock.earlyPQ.toList.map fun p => p.Payload.length).sum

/-- No FIN of the peer was processed, and the state mutex is free. -/
def Open (sock : NormalSocket) : Prop :=
  sock.stateMtx = false ∧ sock.state ≠ .closeWait ∧ sock.state ≠ .lastAck ∧
    sock.state ≠ .timeWait

instance (sock : NormalSocket) : Decidable (Open sock) := inferInstanceAs (Decidable (_ ∧ _))

/-- The segment is not taken for an acknowledgement of ours. -/
def IsData (sock : NormalSocket) (r : TCPInfo) : Prop :=
  r.Flag &&& tcpFlagAck > 0 ∧ sock.unackedMtx = false ∧ sock.unackedFINs r.AckNum = false ∧
    (r.Payload ≠ [] ∨ sock.unackedNums r.AckNum = none)

instance (sock : NormalSocket) (r : TCPInfo) : Decidable (IsData sock r) :=
  inferInstanceAs (Decidable (_ ∧ _))

/-- There is room for an in-order segment: it does not end before the accepted bytes do,
it fits with all that waits in the queue, no waiting FIN comes within reach, and the
socket is open. -/
structure Room (sock : NormalSocket) (r : TCPInfo) : Prop where
  ends : sock.cumReadNXT.toNat ≤ r.SeqNum.toNat + r.Payload.length
  space : sock.readBuffer.unreadCount.toNat + r.Payload.length + queued sock ≤ 65535
  fins : ∀ p ∈ sock.earlyPQ.toList, p.Flags &&& tcpFlagFin > 0 →
    r.SeqNum.toNat + r.Payload.length + queued sock < p.Priority.toNat
  isOpen : Open sock

instance (sock : NormalSocket) (r : TCPInfo) : Decidable (Room sock r) :=
  decidable_of_iff
    (sock.cumReadNXT.toNat ≤ r.SeqNum.toNat + r.Payload.length ∧
      sock.readBuffer.unreadCount.toNat + r.Payload.length + queued sock ≤ 65535 ∧
      (∀ p ∈ sock.earlyPQ.toList, p.Flags &&& tcpFlagFin > 0 →
        r.SeqNum.toNat + r.Payload.length + queued sock < p.Priority.toNat) ∧ Open sock)
    ⟨fun h => ⟨h.1, h.2.1, h.2.2.1, h.2.2.2⟩, fun h => ⟨h.ends, h.space, h.fins, h.isOpen⟩⟩

/-- A FIN in order finds everything read and nothing behind it; any other segment in
order finds room, unless the buffer is full. -/
def Fits (sock : NormalSocket) (r : TCPInfo) : Prop :=
  r.SeqNum ≤ sock.cumReadNXT →
    if r.Flag &&& tcpFlagFin > 0 then
      sock.readBuffer.unreadCount = 0 ∧
        ∀ p ∈ sock.earlyPQ.toList, p.Priority < sock.cumReadNXT + 1
    else ringDist sock.readBuffer.LBR sock.readBuffer.NXT ≠ 0 → Room sock r

instance (sock : NormalSocket) (r : TCPInfo) : Decidable (Fits sock r) :=
  inferInstanceAs (Decidable (r.SeqNum ≤ sock.cumReadNXT →
    if r.Flag &&& tcpFlagFin > 0 then
      sock.readBuffer.unreadCount = 0 ∧
        ∀ p ∈ sock.earlyPQ.toList, p.Priority < sock.cumReadNXT + 1
    else ringDist sock.readBuffer.LBR sock.readBuffer.NXT ≠ 0 → Room sock r))

def Fitting (c : Session) : RecvEvent → Prop
  | .segment r => IsData c.sock r → Fits c.sock r
  | .read _ => True

instance (c : Session) (e : RecvEvent) : Decidable (Fitting c e) :=
  match e with
  | .segment r => inferInstanceAs (Decidable (IsData c.sock r → Fits c.sock r))
  | .read _ => .isTrue trivial

/-- The unread bytes of `s` come first among those of `s'`, and VRead returns the unread
bytes of `s'` in order. -/
structure Kept (s s' : NormalSocket) : Prop where
  front : s.readBuffer.unread <+: s'.readBuffer.unread
  count : s.readBuffer.unreadCount.toNat ≤ s'.readBuffer.unreadCount.toNat
  readable : s.readBuffer.unread ≠ [] → ∀ numbytes,
    (s'.vRead numbytes).2 = .bytes (s'.readBuffer.unread.take numbytes.toNat) ∧
      (s'.vRead numbytes).1.readBuffer.unread = s'.readBuffer.unread.drop numbytes.toNat

/-- The ring pointer stands where the accepted bytes end. -/
def Sync (sock : NormalSocket) : Prop :=
  sock.readBuffer.NXT = ringDist sock.cumReadNXT sock.baseAck

/-- VRead on an open socket with something to read. -/
theorem vRead_open {sock : NormalSocket} (hopen : Open sock)
    (hcount : sock.readBuffer.unreadCount ≠ 0) (numbytes : UInt16) :
    (sock.vRead numbytes).2 = .bytes (sock.readBuffer.unread.take numbytes.toNat) ∧
      (sock.vRead numbytes).1.readBuffer.unread = sock.readBuffer.unread.drop numbytes.toNat := by
  obtain ⟨hmtx, hclose, hlast, -⟩ := hopen
  have hread : sock.vRead numbytes =
      ((sock.readOut sock.readBuffer.unreadCount.toNat numbytes).1,
        .bytes (sock.readOut sock.readBuffer.unreadCount.toNat numbytes).2) := by
    simp [NormalSocket.vRead, hmtx, hclose, hlast, hcount]
  have hdata := (sock.readOut_spec sock.readBuffer.unreadCount.toNat numbytes (Nat.le_refl _)).1
  have hrest := sock.readOut_unread sock.readBuffer.unreadCount.toNat numbytes (Nat.le_refl _)
  have hlen := sock.readBuffer.unread_length
  rw [hread]
  refine ⟨?_, ?_⟩
  · rw [hdata, ← hlen, Nat.min_comm, ← List.take_take, List.take_length]
  · rw [hrest, ← hlen]
    rcases Nat.le_total sock.readBuffer.unread.length numbytes.toNat with hle | hge
    · rw [Nat.min_eq_left hle, List.drop_length, List.drop_eq_nil_of_le hle]
    · rw [Nat.min_eq_right hge]

theorem unread_eq_nil_iff (rb : ReadBuffer) : rb.unread = [] ↔ rb.unreadCount = 0 := by
  rw [← List.length_eq_zero_iff, ReadBuffer.unread_length, ← UInt32.toNat_inj]
  rfl

theorem Kept.of_open {s s' : NormalSocket} (hopen : Open s')
    (hfront : s.readBuffer.unread <+: s'.readBuffer.unread) : Kept s s' := by
  have hlen := hfront.length_le
  rw [ReadBuffer.unread_length, ReadBuffer.unread_length] at hlen
  refine ⟨hfront, hlen, ?_⟩
  intro hne
  apply vRead_open hopen
  intro hzero
  rw [(unread_eq_nil_iff s'.readBuffer).mpr hzero, List.prefix_nil] at hfront
  exact hne hfront

theorem Kept.of_nil {s s' : NormalSocket} (hzero : s.readBuffer.unreadCount = 0) : Kept s s' := by
  have hnil := (unread_eq_nil_iff s.readBuffer).mpr hzero
  refine ⟨?_, ?_, fun hne => absurd hnil hne⟩
  · rw [hnil]
    exact List.nil_prefix
  · rw [hzero]
    exact Nat.zero_le _

section Insert

variable {sock : NormalSocket} {seq : UInt32} {payload : List UInt8}

theorem ring_distance_add (z d L : ℕ) (hL : L < 65536)
    (hsum : (z % 65536 + 65535 - L) % 65536 + d ≤ 65535) :
    ((z + d) % 65536 + 65535 - L) % 65536 = (z % 65536 + 65535 - L) % 65536 + d := by
  omega

/-- A payload that ends at or behind the accepted bytes adds what lies behind them. -/
theorem insert_count (hsync : Sync sock) (hle : seq.toNat ≤ sock.cumReadNXT.toNat)
    (hends : sock.cumReadNXT.toNat ≤ seq.toNat + payload.length)
    (hspace : sock.readBuffer.unreadCount.toNat + payload.length ≤ 65535) :
    (sock.insertPayload seq payload).readBuffer.unreadCount.toNat =
      sock.readBuffer.unreadCount.toNat + (seq.toNat + payload.length - sock.cumReadNXT.toNat) := by
  have hb := sock.baseAck.toNat_lt
  obtain ⟨d, hd⟩ := Nat.exists_eq_add_of_le hends
  have hdle : d ≤ payload.length := by omega
  have hend : seq.toNat + payload.length + 4294967296 - sock.baseAck.toNat =
      sock.cumReadNXT.toNat + 4294967296 - sock.baseAck.toNat + d := by omega
  have hcount := sock.readBuffer.toNat_unreadCount
  unfold Sync at hsync
  rw [hsync, toNat_ringDist] at hcount
  rw [hcount] at hspace ⊢
  rw [ReadBuffer.toNat_unreadCount, NormalSocket.insertPayload_NXT,
    NormalSocket.insertPayload_LBR, toNat_ringDist_add, hend,
    ring_distance_add _ d _ sock.readBuffer.LBR_lt (by omega), hd, Nat.add_sub_cancel_left]

theorem insert_front (hsync : Sync sock) (hle : seq.toNat ≤ sock.cumReadNXT.toNat)
    (hends : sock.cumReadNXT.toNat ≤ seq.toNat + payload.length)
    (hspace : sock.readBuffer.unreadCount.toNat + payload.length ≤ 65535) :
    sock.readBuffer.unread <+: (sock.insertPayload seq payload).readBuffer.unread := by
  have hcount := insert_count hsync hle hends hspace
  exact sock.unread_prefix_insertPayload seq payload (by omega) (by omega)

end Insert

section Drain

variable {sock s : NormalSocket}

theorem queued_popEarly (hne : 0 < s.earlyPQ.size) :
    queued s = s.topEarly.Payload.length + queued s.popEarly := by
  have hperm := ContainerHeap.pop_perm EarlyPacket.rank s.earlyPQ hne
  have hfst : (ContainerHeap.pop EarlyPacket.rank s.earlyPQ).1 = s.topEarly :=
    ContainerHeap.pop_fst EarlyPacket.rank s.earlyPQ hne
  have hsum := (hperm.map fun p : EarlyPacket => p.Payload.length).sum_nat
  rw [List.map_cons, List.sum_cons, hfst] at hsum
  exact hsum

structure Roomy (sock s : NormalSocket) : Prop where
  sync : Sync s
  isOpen : Open s
  front : sock.readBuffer.unread <+: s.readBuffer.unread
  space : s.readBuffer.unreadCount.toNat + queued s ≤ 65535
  fins : ∀ p ∈ s.earlyPQ.toList, p.Flags &&& tcpFlagFin > 0 →
    s.cumReadNXT.toNat + queued s < p.Priority.toNat

theorem Roomy.popEarly (h : Roomy sock s) (hne : 0 < s.earlyPQ.size) :
    Roomy sock s.popEarly := by
  have hqueued := queued_popEarly hne
  have hspace := h.space
  refine ⟨h.sync, h.isOpen, h.front, ?_, ?_⟩
  · change s.readBuffer.unreadCount.toNat + queued s.popEarly ≤ 65535
    omega
  · intro p hp hfin
    have hlt := h.fins p ((NormalSocket.mem_popEarly hne p).mpr (Or.inr hp)) hfin
    change s.cumReadNXT.toNat + queued s.popEarly < _
    omega

theorem Roomy.insert (h : Roomy sock s) (hne : 0 < s.earlyPQ.size) :
    Roomy sock (s.popEarly.insertPayload s.cumReadNXT s.topEarly.Payload) := by
  have hqueued := queued_popEarly hne
  have hspace := h.space
  have hfits : s.popEarly.readBuffer.unreadCount.toNat + s.topEarly.Payload.length ≤ 65535 := by
    change s.readBuffer.unreadCount.toNat + s.topEarly.Payload.length ≤ 65535
    omega
  have hpopped := h.popEarly hne
  have hcount := insert_count hpopped.sync (Nat.le_refl _) (Nat.le_add_right _ _) hfits
  have hfront := insert_front hpopped.sync (Nat.le_refl _) (Nat.le_add_right _ _) hfits
  rw [Nat.add_sub_cancel_left] at hcount
  refine ⟨rfl, h.isOpen, h.front.trans hfront, ?_, ?_⟩
  · have hsame : s.popEarly.readBuffer.unreadCount = s.readBuffer.unreadCount := rfl
    have hrest : queued (s.popEarly.insertPayload s.cumReadNXT s.topEarly.Payload) =
        queued s.popEarly := rfl
    have hcum : s.popEarly.cumReadNXT = s.cumReadNXT := rfl
    rw [hcum, hsame] at hcount
    omega
  · intro p hp hfin
    have hlt := h.fins p ((NormalSocket.mem_popEarly hne p).mpr (Or.inr hp)) hfin
    have hword := p.Priority.toNat_lt
    have hcum : (s.cumReadNXT + UInt32.ofNat s.topEarly.Payload.length).toNat =
        s.cumReadNXT.toNat + s.topEarly.Payload.length := by
      rw [UInt32.toNat_add, UInt32.toNat_ofNat']
      omega
    change (s.cumReadNXT + UInt32.ofNat s.topEarly.Payload.length).toNat + queued s.popEarly < _
    omega

theorem roomy_drainRules (sock : NormalSocket) :
    NormalSocket.DrainRules (Roomy sock) (fun _ => False) where
  old s hs hne _ := hs.popEarly hne
  data s hs hne _ _ := hs.insert hne
  fin s _ hs hne hdue hfin _ := by
    have hlt := hs.fins s.topEarly (NormalSocket.topEarly_mem hne) hfin
    rw [hdue] at hlt
    omega
  blocked s hs hne hdue hfin _ := by
    have hlt := hs.fins s.topEarly (NormalSocket.topEarly_mem hne) hfin
    rw [hdue] at hlt
    omega

structure Passed (sock s : NormalSocket) : Prop where
  readBuffer : s.readBuffer = sock.readBuffer
  closed : ¬ Open s
  old : ∀ p ∈ s.earlyPQ.toList, p.Priority < s.cumReadNXT

theorem passed_drainRules (sock : NormalSocket) :
    NormalSocket.DrainRules (Passed sock) (fun _ => False) where
  old s hs hne _ := ⟨hs.readBuffer, hs.closed, fun p hp =>
    hs.old p ((NormalSocket.mem_popEarly hne p).mpr (Or.inr hp))⟩
  data s hs hne hdue _ := by
    have hlt := hs.old s.topEarly (NormalSocket.topEarly_mem hne)
    rw [hdue] at hlt
    exact absurd hlt (UInt32.lt_irrefl _)
  fin s _ hs hne hdue _ _ := by
    have hlt := hs.old s.topEarly (NormalSocket.topEarly_mem hne)
    rw [hdue] at hlt
    exact absurd hlt (UInt32.lt_irrefl _)
  blocked s hs hne hdue _ _ := by
    have hlt := hs.old s.topEarly (NormalSocket.topEarly_mem hne)
    rw [hdue] at hlt
    exact absurd hlt (UInt32.lt_irrefl _)

/-- A drain that keeps `I` and cannot get stuck ends in a reply. -/
theorem drainAndReply_keeps {I : NormalSocket → Prop}
    (rules : NormalSocket.DrainRules I (fun _ => False)) (h : I s) (received : TCPInfo) :
    I (s.drainAndReply received).1 ∧ (s.drainAndReply received).2 ≠ .blocked := by
  rcases NormalSocket.drainEarly_spec rules s.earlyPQ.size h (Nat.le_refl _) with
    ⟨hdone, hkeep, -⟩ | ⟨-, hfalse⟩
  · rw [NormalSocket.drainAndReply_done hdone]
    exact ⟨hkeep, by simp⟩
  · exact hfalse.elim

end Drain

def Fine (sock : NormalSocket) : Prop :=
  (Open sock ∧ Sync sock) ∨ (¬ Open sock ∧ sock.readBuffer.unreadCount = 0)

theorem Fine.kept {s s' : NormalSocket} (h : Fine s) (hbuffer : s'.readBuffer = s.readBuffer)
    (hcum : s'.cumReadNXT = s.cumReadNXT) (hbase : s'.baseAck = s.baseAck)
    (hstate : s'.state = s.state) (hmtx : s'.stateMtx = s.stateMtx) : Kept s s' ∧ Fine s' := by
  have hopen : Open s' ↔ Open s := by
    unfold Open
    rw [hstate, hmtx]
  unfold Fine Sync
  rw [hopen, hbuffer, hcum, hbase]
  refine ⟨?_, h⟩
  rcases h with ⟨hs, -⟩ | ⟨-, hzero⟩
  · refine Kept.of_open (hopen.mpr hs) ?_
    simp only [hbuffer, List.prefix_rfl]
  · exact Kept.of_nil hzero

theorem acceptFIN_closed {s s' : NormalSocket} (h : s.acceptFIN = some s') : ¬ Open s' := by
  rintro ⟨hmtx, hclose, -, htime⟩
  unfold NormalSocket.acceptFIN at h
  split at h
  · contradiction
  · split at h
    · cases h
      exact hclose rfl
    · cases h
      exact htime rfl
    · cases h
      contradiction

section Deliver

variable {s : NormalSocket} {r : TCPInfo}

theorem receiveData_room (hsync : Sync s) (hle : r.SeqNum ≤ s.cumReadNXT)
    (hfin : ¬ r.Flag &&& tcpFlagFin > 0)
    (hfull : ringDist s.readBuffer.LBR s.readBuffer.NXT ≠ 0) (hroom : Room s r) :
    (Kept s (s.receiveData r).1 ∧ Fine (s.receiveData r).1) ∧ (s.receiveData r).2 ≠ .blocked := by
  have hspace := hroom.space
  have hle' := UInt32.le_iff_toNat_le.mp hle
  have hfit : s.readBuffer.unreadCount.toNat + r.Payload.length ≤ 65535 := by omega
  have hcount := insert_count hsync hle' hroom.ends hfit
  have hends := hroom.ends
  have hroomy : Roomy s (s.insertPayload r.SeqNum r.Payload) := by
    refine ⟨rfl, hroom.isOpen, insert_front hsync hle' hroom.ends hfit, ?_, ?_⟩
    · change (s.insertPayload r.SeqNum r.Payload).readBuffer.unreadCount.toNat + queued s ≤ 65535
      omega
    · intro p hp hflag
      have hlt := hroom.fins p hp hflag
      have hword := p.Priority.toNat_lt
      change (r.SeqNum + UInt32.ofNat r.Payload.length).toNat + queued s < _
      rw [UInt32.toNat_add, UInt32.toNat_ofNat']
      omega
  rw [NormalSocket.receiveData_insert (UInt32.not_lt.mpr hle) hfin hfull]
  obtain ⟨hkeep, hnot⟩ := drainAndReply_keeps (roomy_drainRules s) hroomy r
  exact ⟨⟨Kept.of_open hkeep.isOpen hkeep.front, Or.inl ⟨hkeep.isOpen, hkeep.sync⟩⟩, hnot⟩

theorem receiveData_allRead (hle : r.SeqNum ≤ s.cumReadNXT) (hfin : r.Flag &&& tcpFlagFin > 0)
    (hzero : s.readBuffer.unreadCount = 0)
    (hold : ∀ p ∈ s.earlyPQ.toList, p.Priority < s.cumReadNXT + 1) :
    Kept s (s.receiveData r).1 ∧ ((s.receiveData r).2 ≠ .blocked → Fine (s.receiveData r).1) := by
  refine ⟨Kept.of_nil hzero, ?_⟩
  rw [NormalSocket.receiveData_fin (UInt32.not_lt.mpr hle) hfin]
  cases hnext : s.passFIN.acceptFIN with
  | none => simp
  | some s' =>
    intro _
    have hclosed := acceptFIN_closed hnext
    obtain ⟨-, state, mtx, rfl⟩ := NormalSocket.acceptFIN_some hnext
    have hpassed : Passed s { s.passFIN with state := state, stateMtx := mtx } :=
      ⟨rfl, hclosed, hold⟩
    obtain ⟨hkeep, -⟩ := drainAndReply_keeps (passed_drainRules s) hpassed r
    refine Or.inr ⟨hkeep.closed, ?_⟩
    change (NormalSocket.drainAndReply _ r).1.readBuffer.unreadCount = 0
    rw [hkeep.readBuffer]
    exact hzero

theorem receiveData_fits (h : Fine s) (hok : Fits s r) :
    Kept s (s.receiveData r).1 ∧
      ((s.receiveData r).2 ≠ .blocked → Fine (s.receiveData r).1) := by
  by_cases hle : r.SeqNum ≤ s.cumReadNXT
  · have hguard := hok hle
    by_cases hfin : r.Flag &&& tcpFlagFin > 0
    · rw [if_pos hfin] at hguard
      exact receiveData_allRead hle hfin hguard.1 hguard.2
    · rw [if_neg hfin] at hguard
      by_cases hfull : ringDist s.readBuffer.LBR s.readBuffer.NXT = 0
      · rw [NormalSocket.receiveData_full (UInt32.not_lt.mpr hle) hfin hfull]
        obtain ⟨hkept, hfine⟩ := h.kept rfl rfl rfl rfl rfl
        exact ⟨hkept, fun _ => hfine⟩
      · have hroom := hguard hfull
        have hsync : Sync s := by
          rcases h with ⟨-, hs⟩ | ⟨hclosed, -⟩
          · exact hs
          · exact absurd hroom.isOpen hclosed
        obtain ⟨⟨hkept, hfine⟩, -⟩ := receiveData_room hsync hle hfin hfull hroom
        exact ⟨hkept, fun _ => hfine⟩
  · rw [NormalSocket.receiveData_early (UInt32.not_le.mp hle)]
    have hpushed : Kept s (s.pushEarly r) ∧ Fine (s.pushEarly r) := h.kept rfl rfl rfl rfl rfl
    exact ⟨hpushed.1, fun _ => hpushed.2⟩

/-- What is not data changes nothing on the receiving side. -/
theorem receiverThread_not_data (h : ¬ IsData s r) :
    ∃ window chan action, s.receiverThread r =
      ({ s with ClientWindowSize := window, ackChan := chan }, action) := by
  unfold NormalSocket.receiverThread NormalSocket.dispatch NormalSocket.noteWindow
  by_cases hflag : r.Flag &&& tcpFlagAck > 0
  · rw [if_pos hflag, if_pos hflag]
    split
    · exact ⟨_, _, _, rfl⟩
    · rename_i hmtx
      split
      · exact ⟨_, _, _, rfl⟩
      · rename_i hfins
        split
        · exact ⟨_, _, _, rfl⟩
        · rename_i hack
          refine absurd ⟨hflag, by simpa using hmtx, by simpa using hfins, ?_⟩ h
          by_cases hpay : r.Payload = []
          · refine Or.inr (Option.not_isSome_iff_eq_none.mp fun hsome => hack ⟨hsome, ?_⟩)
            rw [hpay]
            rfl
          · exact Or.inl hpay
  · rw [if_neg hflag, if_neg hflag]
    exact ⟨_, _, _, rfl⟩

end Deliver

variable {c c' : Session}

theorem deliver (h : Fine c.sock) {r : TCPInfo} (hok : Fitting c (.segment r)) :
    Kept c.sock (c.deliver r).sock ∧ ((c.deliver r).stuck = false → Fine (c.deliver r).sock) := by
  unfold Session.deliver
  by_cases hdata : IsData c.sock r
  · obtain ⟨hflag, hmtx, hfins, hpay⟩ := id hdata
    rw [NormalSocket.receiverThread_data hflag hpay hmtx hfins]
    unfold NormalSocket.noteWindow
    rw [if_pos hflag]
    have hnoted : Fine { c.sock with ClientWindowSize := r.WindowSize } :=
      (h.kept rfl rfl rfl rfl rfl).2
    have hfits : Fits { c.sock with ClientWindowSize := r.WindowSize } r := by
      intro hle
      have hguard := hok hdata hle
      split at hguard
      · rwa [if_pos ‹_›]
      · rw [if_neg ‹_›]
        exact fun hfull => ⟨(hguard hfull).ends, (hguard hfull).space, (hguard hfull).fins,
          (hguard hfull).isOpen⟩
    obtain ⟨hkept, hfine⟩ := receiveData_fits hnoted hfits
    exact ⟨⟨hkept.front, hkept.count, hkept.readable⟩, fun hrun => hfine (by simpa using hrun)⟩
  · obtain ⟨window, chan, action, hrun⟩ := receiverThread_not_data hdata
    rw [hrun]
    have hsame : Kept c.sock { c.sock with ClientWindowSize := window, ackChan := chan } ∧
        Fine { c.sock with ClientWindowSize := window, ackChan := chan } :=
      h.kept rfl rfl rfl rfl rfl
    exact ⟨hsame.1, fun _ => hsame.2⟩

/-- A read leaves an open socket open and in step. -/
theorem read {numbytes : UInt16} (h : Fine c.sock) (hnext : c.step (.read numbytes) = some c') :
    Fine c'.sock := by
  obtain ⟨-, -, -, -, hcount, rfl⟩ := Session.step_read hnext
  rcases h with ⟨hopen, hsync⟩ | ⟨-, hzero⟩
  · exact Or.inl ⟨hopen, hsync⟩
  · exact absurd hzero hcount

theorem reach_fine {sock : NormalSocket} (hopen : Open sock) (hsync : Sync sock)
    (hreach : Reach Session.step Fitting (Session.start sock) c) :
    c.stuck = false → Fine c.sock := by
  refine hreach.invariant (fun c => c.stuck = false → Fine c.sock)
    (fun _ => Or.inl ⟨hopen, hsync⟩) ?_
  intro s e s' hs hok hnext hstuck'
  cases e with
  | segment r =>
    obtain ⟨hstuck, rfl⟩ := Session.step_segment hnext
    exact (deliver (hs hstuck) hok).2 hstuck'
  | read numbytes =>
    obtain ⟨hstuck, -⟩ := Session.step_read hnext
    exact read (hs hstuck) hnext

/-- In every run whose segments all fit, each of them leaves the unread bytes in place
and readable. -/
theorem fitting_segments_keep_unread {sock : NormalSocket} {c c' : Session} {r : TCPInfo}
    (hopen : Open sock) (hsync : sock.readBuffer.NXT = ringDist sock.cumReadNXT sock.baseAck)
    (hreach : Reach Session.step Fitting (Session.start sock) c)
    (hok : Fitting c (.segment r)) (hnext : c.step (.segment r) = some c') :
    Kept c.sock c'.sock := by
  obtain ⟨hstuck, rfl⟩ := Session.step_segment hnext
  exact (deliver (reach_fine hopen hsync hreach hstuck) hok).1

/-- Two unread bytes, the second of which waited in the queue, are still in front after
a third. -/
theorem fitting_segments_keep_unread_after_gap :
    ∃ c, Reach Session.step Fitting (Session.start (newSocket sampleKey 0 100 8)) c ∧
      c.sock.readBuffer.unread = [1, 2] ∧
      Kept c.sock (c.deliver (sampleSegment 103 [3])).sock := by
  obtain ⟨c, hreach, hstuck, hunread, hok⟩ := exists_reach Session.step Fitting
    (Session.start (newSocket sampleKey 0 100 8))
    (fun c => c.stuck = false ∧ c.sock.readBuffer.unread = [1, 2] ∧
      Fitting c (.segment (sampleSegment 103 [3])))
    [.segment (sampleSegment 102 [2]), .segment (sampleSegment 101 [1])] (by decide)
  have hnext : c.step (.segment (sampleSegment 103 [3])) =
      some (c.deliver (sampleSegment 103 [3])) := by
    simp [Session.step, hstuck]
  exact ⟨c, hreach, hunread,
    fitting_segments_keep_unread (by decide) (by decide) hreach hok hnext⟩

section Overflow

/-- Segments as large as a packet can be, with the flag every data segment has. -/
def AnySegment (_ : Session) : RecvEvent → Prop
  | .segment r => r.Flag &&& tcpFlagAck > 0 ∧ r.Payload.length ≤ 1360
  | .read _ => True

structure Filled (N : ℕ) (c : Session) : Prop where
  running : c.stuck = false
  sync : InSync c.sock N 0
  queue : c.sock.earlyPQ = #[]
  unackedNums : ∀ n, c.sock.unackedNums n = none
  unackedFINs : ∀ n, c.sock.unackedFINs n = false
  unackedMtx : c.sock.unackedMtx = false

variable {N : ℕ} {c : Session}

theorem sampleSegment_ack (seq : UInt32) (payload : List UInt8) :
    (sampleSegment seq payload).Flag &&& tcpFlagAck > 0 :=
  show tcpFlagAck &&& tcpFlagAck > 0 by decide

/-- Unless the whole ring is unread, the next segment is copied whole. -/
theorem receiveData_inserts {sock : NormalSocket} (payload : List UInt8)
    (hsync : InSync sock N 0) (hqueue : sock.earlyPQ = #[]) (hroom : N < 65535) :
    ∃ reply, sock.receiveData (sampleSegment sock.cumReadNXT payload) =
      (sock.insertPayload sock.cumReadNXT payload, .reply reply) := by
  have hfull : ¬ ringDist sock.readBuffer.LBR sock.readBuffer.NXT = 0 := by
    rw [hsync.full_iff]
    omega
  have hdue : ¬ (sock.insertPayload sock.cumReadNXT payload).Due := by
    rintro ⟨hne, -⟩
    rw [NormalSocket.insertPayload_earlyPQ, hqueue] at hne
    contradiction
  have hstop := NormalSocket.drainEarly_stop
    (sock.insertPayload sock.cumReadNXT payload).earlyPQ.size hdue
  refine ⟨replyTo (sock.insertPayload sock.cumReadNXT payload)
    (sampleSegment sock.cumReadNXT payload), ?_⟩
  calc sock.receiveData (sampleSegment sock.cumReadNXT payload)
      = (sock.insertPayload sock.cumReadNXT payload).drainAndReply
          (sampleSegment sock.cumReadNXT payload) :=
        NormalSocket.receiveData_insert (UInt32.not_lt.mpr (UInt32.le_refl _))
          (show ¬ tcpFlagAck &&& tcpFlagFin > 0 by decide) hfull
    _ = _ := by
        rw [NormalSocket.drainAndReply_done (congrArg Prod.snd hstop), hstop]

theorem Filled.noted (h : Filled N c) :
    InSync ({ c.sock with ClientWindowSize := 8 } : NormalSocket) N 0 :=
  ⟨h.sync.cum, h.sync.nxt, h.sync.lbr, h.sync.read_le, h.sync.le_window⟩

theorem Filled.receiverThread (h : Filled N c) (payload : List UInt8) (hroom : N < 65535) :
    ∃ reply, c.sock.receiverThread (sampleSegment c.sock.cumReadNXT payload) =
      (({ c.sock with ClientWindowSize := 8 } : NormalSocket).insertPayload
        c.sock.cumReadNXT payload, .reply reply) := by
  have hflag := sampleSegment_ack c.sock.cumReadNXT payload
  rw [NormalSocket.receiverThread_data hflag (Or.inr (h.unackedNums _)) h.unackedMtx
    (h.unackedFINs _), NormalSocket.noteWindow_ack _ hflag]
  exact receiveData_inserts payload h.noted h.queue hroom

theorem Filled.deliver (h : Filled N c) (payload : List UInt8) (hroom : N < 65535)
    (hfit : N + payload.length ≤ 65535) :
    Filled (N + payload.length) (c.deliver (sampleSegment c.sock.cumReadNXT payload)) := by
  obtain ⟨reply, hrun⟩ := h.receiverThread payload hroom
  obtain ⟨hsync, -⟩ := h.noted.insertPayload payload (by omega)
  unfold Session.deliver
  rw [hrun]
  exact ⟨rfl, hsync, h.queue, h.unackedNums, h.unackedFINs, h.unackedMtx⟩

theorem exists_filled (payload : List UInt8) (hlen : payload.length = 1360) (k : ℕ)
    (hk : k ≤ 48) :
    ∃ c, Reach Session.step AnySegment (Session.start (newSocket sampleKey 0 100 8)) c ∧
      Filled (1360 * k) c := by
  induction k with
  | zero =>
    exact ⟨_, Reach.refl, rfl, ⟨by decide, by decide, by decide, by decide, by decide⟩, rfl,
      fun _ => rfl, fun _ => rfl, rfl⟩
  | succ k ih =>
    obtain ⟨c, hreach, hc⟩ := ih (by omega)
    have hnext : c.step (.segment (sampleSegment c.sock.cumReadNXT payload)) =
        some (c.deliver (sampleSegment c.sock.cumReadNXT payload)) := by
      simp [Session.step, hc.running]
    have hok : AnySegment c (.segment (sampleSegment c.sock.cumReadNXT payload)) :=
      ⟨sampleSegment_ack _ _, hlen.le⟩
    have hfilled := hc.deliver payload (by omega) (by omega)
    rw [hlen] at hfilled
    exact ⟨_, Reach.tail _ hreach hok hnext, hfilled⟩

/-- With 65280 bytes unread a segment of 1360 bytes is still accepted whole, and the
write runs over the reader. -/
theorem segment_overruns_unread :
    ¬ ∀ (key : SocketTableKey) (baseSeq baseAck : UInt32) (window : UInt16) (c : Session)
      (r : TCPInfo), Reach Session.step AnySegment
        (Session.start (newSocket key baseSeq baseAck window)) c →
      c.stuck = false → AnySegment c (.segment r) → Kept c.sock (c.deliver r).sock := by
  intro hclaim
  obtain ⟨payload, hlen⟩ : ∃ payload : List UInt8, payload.length = 1360 :=
    ⟨List.replicate 1360 0, List.length_replicate⟩
  obtain ⟨c, hreach, hc⟩ := exists_filled payload hlen 48 (by decide)
  have hkept := hclaim sampleKey 0 100 8 c (sampleSegment c.sock.cumReadNXT payload) hreach
    hc.running ⟨sampleSegment_ack _ _, hlen.le⟩
  obtain ⟨reply, hrun⟩ := hc.receiverThread payload (by decide)
  have hcount := hkept.count
  unfold Session.deliver at hcount
  rw [hrun, hc.sync.unreadCount, ReadBuffer.toNat_unreadCount, NormalSocket.insertPayload_LBR,
    hc.sync.lbr, hc.noted.insertPayload_nxt payload, hlen] at hcount
  omega

end Overflow

end IpTcp.UnreadData
