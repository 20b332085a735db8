import IpTcp.ReceiverRuns
import Mathlib.Order.Bounds.Basic

/-!
Reassembly of a byte stream from its segments. A stream is cut into non-empty
data segments that carry their true sequence numbers, and these arrive in any
order, each once, between reads. At every moment the bytes read so far followed
by the unread bytes are the longest prefix of the stream that the arrived
segments cover without a gap, and every reply acknowledges exactly that prefix.
-/
namespace IpTcp.Reassembly

open RingBuffer Runs

def DataSegment (r : TCPInfo) : Prop :=
  r.Flag &&& tcpFlagAck > 0 ∧ ¬ r.Flag &&& tcpFlagFin > 0 ∧ r.Payload ≠ []

/-- The listed segments, in stream order, carry exactly the stream, the first of
its bytes having the sequence number `first`. -/
def IsCut : ℕ → List UInt8 → List TCPInfo → Prop
  | _, stream, [] => stream = []
  | first, stream, r :: rest =>
      DataSegment r ∧ r.SeqNum.toNat = first ∧
        ∃ tail, stream = r.Payload ++ tail ∧ IsCut (first + r.Payload.length) tail rest

def segEnd (r : TCPInfo) : ℕ := r.SeqNum.toNat + r.Payload.length

def GapFree (first : ℕ) (arrived : List TCPInfo) (n : ℕ) : Prop :=
  ∀ i < n, ∃ r ∈ arrived, r.SeqNum.toNat ≤ first + i ∧ first + i < segEnd r

/-- Each segment comes once and ends within 65535 bytes of what has been read;
reads are made on a non-empty buffer. -/
def Allowed (first : ℕ) (segs : List TCPInfo) (c : Session) : RecvEvent → Prop
  | .segment r => r ∈ segs ∧ r ∉ c.arrived ∧ segEnd r ≤ first + c.output.length + 65535
  | .read _ => c.sock.readBuffer.unreadCount ≠ 0

instance (r : TCPInfo) : Decidable (DataSegment r) := inferInstanceAs (Decidable (_ ∧ _ ∧ _))

instance (first : ℕ) (segs : List TCPInfo) (c : Session) (e : RecvEvent) :
    Decidable (Allowed first segs c e) :=
  match e with
  | .segment _ => inferInstanceAs (Decidable (_ ∧ _ ∧ _))
  | .read _ => inferInstanceAs (Decidable (_ ≠ _))

section Cut

variable {first : ℕ} {stream : List UInt8} {segs : List TCPInfo}

theorem IsCut.bounds (h : IsCut first stream segs) {r : TCPInfo} (hr : r ∈ segs) :
    DataSegment r ∧ first ≤ r.SeqNum.toNat ∧ segEnd r ≤ first + stream.length ∧
      r.Payload = (stream.drop (r.SeqNum.toNat - first)).take r.Payload.length := by
  induction segs generalizing first stream with
  | nil => simp at hr
  | cons head rest ih =>
    obtain ⟨hdata, hseq, tail, hstream, hrest⟩ := h
    subst hstream
    rcases List.mem_cons.mp hr with heq | hmem
    · subst heq
      refine ⟨hdata, by omega, ?_, ?_⟩
      · simp only [segEnd, List.length_append]
        omega
      · simp [hseq]
    · obtain ⟨hd, hfirst, hend, hpay⟩ := ih hrest hmem
      refine ⟨hd, by omega, ?_, ?_⟩
      · simp only [List.length_append]
        omega
      · have hdrop : r.SeqNum.toNat - first =
            head.Payload.length + (r.SeqNum.toNat - (first + head.Payload.length)) := by
          omega
        rw [hdrop, List.drop_length_add_append]
        exact hpay

/-- Different segments of a cut do not overlap. -/
theorem IsCut.disjoint (h : IsCut first stream segs) {r r' : TCPInfo} (hr : r ∈ segs)
    (hr' : r' ∈ segs) : r = r' ∨ segEnd r ≤ r'.SeqNum.toNat ∨ segEnd r' ≤ r.SeqNum.toNat := by
  induction segs generalizing first stream with
  | nil => simp at hr
  | cons head rest ih =>
    obtain ⟨-, hseq, tail, -, hrest⟩ := h
    rcases List.mem_cons.mp hr with heq | hmem
    · rcases List.mem_cons.mp hr' with heq' | hmem'
      · exact Or.inl (heq.trans heq'.symm)
      · have hlow := (hrest.bounds hmem').2.1
        subst heq
        exact Or.inr (Or.inl (by unfold segEnd; omega))
    · rcases List.mem_cons.mp hr' with heq' | hmem'
      · have hlow := (hrest.bounds hmem).2.1
        subst heq'
        exact Or.inr (Or.inr (by unfold segEnd; omega))
      · exact ih hrest hmem hmem'

theorem IsCut.nonempty (h : IsCut first stream segs) {r : TCPInfo} (hr : r ∈ segs) :
    r.SeqNum.toNat < segEnd r := by
  have hne := (h.bounds hr).1.2.2
  have hpos : 0 < r.Payload.length := List.length_pos_iff.mpr hne
  unfold segEnd
  omega

end Cut

/-- The state of the receiver while it drains: `N` bytes are accepted, `R` read.
Every arrived segment is either wholly accepted or still to come, and those
still to come are queued. -/
structure Draining (stream : List UInt8) (segs : List TCPInfo) (sock : NormalSocket)
    (arrived : List TCPInfo) (output : List UInt8) (N : ℕ) : Prop where
  cut : IsCut (sock.baseAck.toNat + 1) stream segs
  no_wrap : sock.baseAck.toNat + 1 + stream.length < 4294967296
  sync : InSync sock N output.length
  le_stream : N ≤ stream.length
  bytes : output ++ sock.readBuffer.unread = stream.take N
  arrived_mem : ∀ r ∈ arrived, r ∈ segs
  split : ∀ r ∈ arrived, segEnd r ≤ sock.baseAck.toNat + 1 + N ∨
    sock.baseAck.toNat + 1 + N ≤ r.SeqNum.toNat
  covered : GapFree (sock.baseAck.toNat + 1) arrived N
  ordered : ContainerHeap.Ordered EarlyPacket.rank sock.earlyPQ sock.earlyPQ.size
  queued : ∀ p ∈ sock.earlyPQ.toList, ∃ r ∈ arrived, p = r.early
  waiting : ∀ r ∈ arrived, sock.baseAck.toNat + 1 + N ≤ r.SeqNum.toNat →
    r.early ∈ sock.earlyPQ.toList ∧
      segEnd r ≤ sock.baseAck.toNat + 1 + output.length + 65535
  open_state : sock.state = .established ∧ sock.stateMtx = false ∧ sock.unackedMtx = false ∧
    ∀ ack, sock.unackedFINs ack = false

namespace Draining

variable {stream : List UInt8} {segs arrived : List TCPInfo} {sock : NormalSocket}
  {output : List UInt8} {N : ℕ}

theorem toNat_cum (d : Draining stream segs sock arrived output N) :
    sock.cumReadNXT.toNat = sock.baseAck.toNat + 1 + N := by
  have h1 := d.le_stream
  have h2 := d.no_wrap
  exact d.sync.toNat_cum (by omega)

/-- Accepting a segment that starts where the accepted bytes end. -/
theorem insert (d : Draining stream segs sock arrived output N) {r : TCPInfo}
    (hr : r ∈ segs) (hseq : r.SeqNum = sock.cumReadNXT)
    (hend : segEnd r ≤ sock.baseAck.toNat + 1 + output.length + 65535) :
    Draining stream segs (sock.insertPayload r.SeqNum r.Payload) (r :: arrived) output
      (N + r.Payload.length) := by
  have hcum := d.toNat_cum
  have hnat : r.SeqNum.toNat = sock.baseAck.toNat + 1 + N := by rw [hseq, hcum]
  obtain ⟨-, -, hlast, hpay⟩ := d.cut.bounds hr
  unfold segEnd at hlast hend
  have hle : N + r.Payload.length ≤ stream.length := by omega
  obtain ⟨hsync, hunread⟩ := d.sync.insertPayload r.Payload (by omega)
  rw [← hseq] at hsync hunread
  have hmem : ∀ r' ∈ r :: arrived, r' ∈ segs := by
    intro r' hr'
    rcases List.mem_cons.mp hr' with heq | hold
    · exact heq ▸ hr
    · exact d.arrived_mem r' hold
  refine ⟨d.cut, d.no_wrap, hsync, hle, ?_, hmem, ?_, ?_, d.ordered, ?_, ?_, d.open_state⟩
  · have hdrop : r.SeqNum.toNat - (sock.baseAck.toNat + 1) = N := by omega
    rw [hdrop] at hpay
    rw [hunread, ← List.append_assoc, d.bytes, List.take_add, ← hpay]
  · intro r' hr'
    change segEnd r' ≤ sock.baseAck.toNat + 1 + (N + r.Payload.length) ∨
      sock.baseAck.toNat + 1 + (N + r.Payload.length) ≤ r'.SeqNum.toNat
    rcases List.mem_cons.mp hr' with heq | hold
    · subst heq
      exact Or.inl (by unfold segEnd; omega)
    · rcases d.split r' hold with hbefore | hafter
      · exact Or.inl (by omega)
      · rcases d.cut.disjoint hr (hmem r' hr') with heq | hright | hleft
        · subst heq
          exact Or.inl (by unfold segEnd; omega)
        · exact Or.inr (by unfold segEnd at hright; omega)
        · have := d.cut.nonempty (hmem r' hr')
          omega
  · intro i hi
    change ∃ r' ∈ r :: arrived, r'.SeqNum.toNat ≤ sock.baseAck.toNat + 1 + i ∧
      sock.baseAck.toNat + 1 + i < segEnd r'
    by_cases hold : i < N
    · obtain ⟨r', hr', hcover⟩ := d.covered i hold
      exact ⟨r', List.mem_cons_of_mem _ hr', hcover⟩
    · exact ⟨r, List.mem_cons_self .., by omega, by unfold segEnd; omega⟩
  · intro p hp
    obtain ⟨r', hr', heq⟩ := d.queued p hp
    exact ⟨r', List.mem_cons_of_mem _ hr', heq⟩
  · intro r' hr' hlater
    change sock.baseAck.toNat + 1 + (N + r.Payload.length) ≤ r'.SeqNum.toNat at hlater
    have hpos : 0 < r.Payload.length := List.length_pos_iff.mpr (d.cut.bounds hr).1.2.2
    rcases List.mem_cons.mp hr' with heq | hold
    · subst heq
      omega
    · exact d.waiting r' hold (by omega)

theorem congr_arrived (d : Draining stream segs sock arrived output N) {arrived' : List TCPInfo}
    (h : ∀ r, r ∈ arrived' ↔ r ∈ arrived) : Draining stream segs sock arrived' output N where
  cut := d.cut
  no_wrap := d.no_wrap
  sync := d.sync
  le_stream := d.le_stream
  bytes := d.bytes
  arrived_mem r hr := d.arrived_mem r ((h r).mp hr)
  split r hr := d.split r ((h r).mp hr)
  covered i hi := by
    obtain ⟨r, hr, hcover⟩ := d.covered i hi
    exact ⟨r, (h r).mpr hr, hcover⟩
  ordered := d.ordered
  queued p hp := by
    obtain ⟨r, hr, heq⟩ := d.queued p hp
    exact ⟨r, (h r).mpr hr, heq⟩
  waiting r hr := d.waiting r ((h r).mp hr)
  open_state := d.open_state

/-- Dropping a queued packet that lies behind the accepted bytes. -/
theorem popEarly (d : Draining stream segs sock arrived output N) (hne : 0 < sock.earlyPQ.size)
    (htop : sock.topEarly.Priority < sock.cumReadNXT) :
    Draining stream segs sock.popEarly arrived output N := by
  have hcum := d.toNat_cum
  refine ⟨d.cut, d.no_wrap, ⟨d.sync.cum, d.sync.nxt, d.sync.lbr, d.sync.read_le,
    d.sync.le_window⟩, d.le_stream, d.bytes, d.arrived_mem, d.split, d.covered,
    ContainerHeap.pop_ordered _ _ hne d.ordered, ?_, ?_, d.open_state⟩
  · intro p hp
    exact d.queued p ((NormalSocket.mem_popEarly hne p).mpr (Or.inr hp))
  · intro r hr hlater
    obtain ⟨hin, hend⟩ := d.waiting r hr hlater
    refine ⟨?_, hend⟩
    rcases (NormalSocket.mem_popEarly hne r.early).mp hin with heq | hrest
    · rw [← heq, UInt32.lt_iff_toNat_lt] at htop
      change r.SeqNum.toNat < _ at htop
      change sock.baseAck.toNat + 1 + N ≤ r.SeqNum.toNat at hlater
      omega
    · exact hrest

/-- Nothing is due: every arrived segment is accepted or lies beyond a gap. -/
theorem nothing_due (d : Draining stream segs sock arrived output N) (hdue : ¬ sock.Due) :
    ∀ r ∈ arrived, segEnd r ≤ sock.baseAck.toNat + 1 + N ∨
      sock.baseAck.toNat + 1 + N < r.SeqNum.toNat := by
  intro r hr
  rcases d.split r hr with hbefore | hafter
  · exact Or.inl hbefore
  · have hin := (d.waiting r hr hafter).1
    have hne : 0 < sock.earlyPQ.size := by
      simpa using List.length_pos_of_mem hin
    have hmin : sock.topEarly.Priority.toNat ≤ r.SeqNum.toNat := d.ordered.root_le_of_mem hin
    have hlate : sock.cumReadNXT < sock.topEarly.Priority := by
      rw [← UInt32.not_le]
      exact fun hle => hdue ⟨hne, hle⟩
    rw [UInt32.lt_iff_toNat_lt, d.toNat_cum] at hlate
    exact Or.inr (by omega)

/-- A queued packet that is due comes from an arrived segment, which is no FIN. -/
theorem top_early (d : Draining stream segs sock arrived output N) (hne : 0 < sock.earlyPQ.size) :
    ∃ r ∈ arrived, sock.topEarly = r.early ∧ ¬ sock.topEarly.Flags &&& tcpFlagFin > 0 := by
  obtain ⟨r, hr, hp⟩ := d.queued _ (NormalSocket.topEarly_mem hne)
  refine ⟨r, hr, hp, ?_⟩
  rw [hp]
  exact (d.cut.bounds (d.arrived_mem r hr)).1.2.1

/-- Taking a due packet off the queue and into the buffer. -/
theorem drainOne (d : Draining stream segs sock arrived output N) (hne : 0 < sock.earlyPQ.size)
    (hseq : sock.topEarly.Priority = sock.cumReadNXT) :
    ∃ M, Draining stream segs
      (sock.popEarly.insertPayload sock.cumReadNXT sock.topEarly.Payload) arrived output M := by
  obtain ⟨r, hr, hp, -⟩ := d.top_early hne
  have hpos := d.cut.nonempty (d.arrived_mem r hr)
  have hr_seq : r.SeqNum = sock.cumReadNXT := by
    rw [← hseq, hp]
    rfl
  have hpayload : sock.topEarly.Payload = r.Payload := by
    rw [hp]
    rfl
  have hcum := d.toNat_cum
  have hend := (d.waiting r hr (by rw [hr_seq]; omega)).2
  have hsame : ∀ x, x ∈ arrived ↔ x ∈ r :: arrived := fun x =>
    ⟨List.mem_cons_of_mem _, fun hx => (List.mem_cons.mp hx).elim (fun heq => heq ▸ hr) id⟩
  have d' := (d.insert (d.arrived_mem r hr) hr_seq hend).congr_arrived hsame
  rw [hr_seq] at d'
  rw [hpayload, ← NormalSocket.insertPayload_popEarly]
  refine ⟨_, d'.popEarly hne ?_⟩
  change sock.topEarly.Priority < _
  rw [UInt32.lt_iff_toNat_lt, d'.toNat_cum, hseq, d.toNat_cum]
  change _ < sock.baseAck.toNat + 1 + (N + r.Payload.length)
  unfold segEnd at hpos
  omega

theorem drainRules (baseAck : UInt32) :
    NormalSocket.DrainRules
      (fun s => s.baseAck = baseAck ∧ ∃ M, Draining stream segs s arrived output M)
      (fun _ => False) where
  old := by
    rintro s ⟨hbase, M, d⟩ hne hold
    exact ⟨hbase, M, d.popEarly hne hold⟩
  data := by
    rintro s ⟨hbase, M, d⟩ hne hseq -
    exact ⟨hbase, d.drainOne hne hseq⟩
  fin := by
    rintro s s' ⟨-, M, d⟩ hne - hfin -
    obtain ⟨-, -, -, hnot⟩ := d.top_early hne
    exact absurd hfin hnot
  blocked := by
    rintro s ⟨-, M, d⟩ hne - hfin -
    obtain ⟨-, -, -, hnot⟩ := d.top_early hne
    exact absurd hfin hnot

/-- The drain loop stops with every arrived segment accepted or beyond a gap. -/
theorem drainEarly (d : Draining stream segs sock arrived output N) :
    ∃ M, (sock.drainEarly sock.earlyPQ.size).2 = false ∧
      (sock.drainEarly sock.earlyPQ.size).1.baseAck = sock.baseAck ∧
      Draining stream segs (sock.drainEarly sock.earlyPQ.size).1 arrived output M ∧
      ∀ r ∈ arrived, segEnd r ≤ sock.baseAck.toNat + 1 + M ∨
        sock.baseAck.toNat + 1 + M < r.SeqNum.toNat := by
  rcases NormalSocket.drainEarly_spec (drainRules sock.baseAck) sock.earlyPQ.size ⟨rfl, N, d⟩
    (Nat.le_refl _) with ⟨hflag, ⟨hbase, M, d'⟩, hdue⟩ | ⟨-, hfalse⟩
  · have hgap := d'.nothing_due hdue
    rw [hbase] at hgap
    exact ⟨M, hflag, hbase, d', hgap⟩
  · exact hfalse.elim

/-- A segment that arrives is no part of the accepted bytes. -/
theorem le_seq_of_new (d : Draining stream segs sock arrived output N) {r : TCPInfo}
    (hr : r ∈ segs) (hnew : r ∉ arrived) : sock.baseAck.toNat + 1 + N ≤ r.SeqNum.toNat := by
  by_contra hlt
  have hfirst := (d.cut.bounds hr).2.1
  obtain ⟨r', hr', hlow, hhigh⟩ :=
    d.covered (r.SeqNum.toNat - (sock.baseAck.toNat + 1)) (by omega)
  have hnonempty := d.cut.nonempty hr
  rcases d.cut.disjoint hr (d.arrived_mem r' hr') with heq | hbefore | hafter
  · exact hnew (heq ▸ hr')
  · omega
  · omega

/-- An early segment is put into the queue. -/
theorem enqueue (d : Draining stream segs sock arrived output N) {r : TCPInfo}
    (hr : r ∈ segs) (hnew : r ∉ arrived)
    (hend : segEnd r ≤ sock.baseAck.toNat + 1 + output.length + 65535)
    {queue : Array EarlyPacket}
    (hordered : ContainerHeap.Ordered EarlyPacket.rank queue queue.size)
    (hqueue : queue.toList.Perm (r.early :: sock.earlyPQ.toList)) :
    Draining stream segs { sock with earlyPQ := queue } (r :: arrived) output N := by
  have hlow := d.le_seq_of_new hr hnew
  refine ⟨d.cut, d.no_wrap, ⟨d.sync.cum, d.sync.nxt, d.sync.lbr, d.sync.read_le,
    d.sync.le_window⟩, d.le_stream, d.bytes, ?_, ?_, ?_, hordered, ?_, ?_, d.open_state⟩
  · intro r' hr'
    rcases List.mem_cons.mp hr' with heq | hmem
    · exact heq ▸ hr
    · exact d.arrived_mem r' hmem
  · intro r' hr'
    rcases List.mem_cons.mp hr' with heq | hmem
    · exact Or.inr (heq ▸ hlow)
    · exact d.split r' hmem
  · intro i hi
    obtain ⟨r', hr', hcover⟩ := d.covered i hi
    exact ⟨r', List.mem_cons_of_mem _ hr', hcover⟩
  · intro p hp
    rcases List.mem_cons.mp (hqueue.mem_iff.mp hp) with heq | hmem
    · exact ⟨r, List.mem_cons_self .., heq⟩
    · obtain ⟨r', hr', heq⟩ := d.queued p hmem
      exact ⟨r', List.mem_cons_of_mem _ hr', heq⟩
  · intro r' hr' hlater
    rcases List.mem_cons.mp hr' with heq | hmem
    · subst heq
      exact ⟨hqueue.mem_iff.mpr (List.mem_cons_self ..), hend⟩
    · obtain ⟨hin, hend'⟩ := d.waiting r' hmem hlater
      exact ⟨hqueue.mem_iff.mpr (List.mem_cons_of_mem _ hin), hend'⟩

/-- The socket after a data segment, in order or early, with the reply if there is one. -/
theorem receiveData (d : Draining stream segs sock arrived output N) {r : TCPInfo}
    (hr : r ∈ segs) (hnew : r ∉ arrived)
    (hend : segEnd r ≤ sock.baseAck.toNat + 1 + output.length + 65535)
    (hgap : ∀ r' ∈ arrived, segEnd r' ≤ sock.baseAck.toNat + 1 + N ∨
      sock.baseAck.toNat + 1 + N < r'.SeqNum.toNat) :
    ∃ M, (sock.receiveData r).1.baseAck = sock.baseAck ∧
      Draining stream segs (sock.receiveData r).1 (r :: arrived) output M ∧
      (∀ r' ∈ r :: arrived, segEnd r' ≤ sock.baseAck.toNat + 1 + M ∨
        sock.baseAck.toNat + 1 + M < r'.SeqNum.toNat) ∧
      ((sock.receiveData r).2 = .queued ∨
        (sock.receiveData r).2 = .reply (replyTo (sock.receiveData r).1 r)) := by
  have hlow := d.le_seq_of_new hr hnew
  have hcum := d.toNat_cum
  have hdata := (d.cut.bounds hr).1
  have hnonempty := d.cut.nonempty hr
  by_cases hearly : r.SeqNum > sock.cumReadNXT
  · rw [NormalSocket.receiveData_early hearly]
    refine ⟨N, rfl, d.enqueue hr hnew hend (ContainerHeap.push_ordered _ _ _ d.ordered)
      (ContainerHeap.push_perm _ _ _), ?_, Or.inl rfl⟩
    intro r' hr'
    rcases List.mem_cons.mp hr' with heq | hold
    · subst heq
      have hlt : sock.cumReadNXT.toNat < r'.SeqNum.toNat := UInt32.lt_iff_toNat_lt.mp hearly
      exact Or.inr (by omega)
    · exact hgap r' hold
  · have hseq : r.SeqNum = sock.cumReadNXT := by
      apply UInt32.toNat_inj.mp
      have hle := UInt32.le_iff_toNat_le.mp (UInt32.not_lt.mp hearly)
      omega
    have hroom : ringDist sock.readBuffer.LBR sock.readBuffer.NXT ≠ 0 := by
      intro hfull
      have := d.sync.full_iff.mp hfull
      omega
    have d' := d.insert hr hseq hend
    obtain ⟨M, hblocked, hbase, hdrained, hgap'⟩ := d'.drainEarly
    rw [NormalSocket.receiveData_insert hearly hdata.2.1 hroom,
      NormalSocket.drainAndReply_done hblocked]
    exact ⟨M, hbase, hdrained, hgap', Or.inr rfl⟩

/-- A read takes bytes from the unread ones to the output. -/
theorem readOut (d : Draining stream segs sock arrived output N) (num_buf : ℕ)
    (numbytes : UInt16) (hbuf : num_buf ≤ sock.readBuffer.unreadCount.toNat) :
    Draining stream segs (sock.readOut num_buf numbytes).1 arrived
      (output ++ (sock.readOut num_buf numbytes).2) N := by
  rw [d.sync.unreadCount] at hbuf
  obtain ⟨hsync, hbytes, hlen⟩ := d.sync.readOut num_buf numbytes hbuf
  refine ⟨d.cut, d.no_wrap, ?_, d.le_stream, ?_, d.arrived_mem, d.split, d.covered, d.ordered,
    d.queued, ?_, d.open_state⟩
  · rw [List.length_append, hlen]
    exact hsync
  · rw [List.append_assoc, hbytes]
    exact d.bytes
  · intro r hr hlater
    obtain ⟨hin, hend⟩ := d.waiting r hr hlater
    refine ⟨hin, ?_⟩
    rw [List.length_append, NormalSocket.readOut_baseAck]
    omega

end Draining

structure Settled (baseAck : UInt32) (stream : List UInt8) (segs : List TCPInfo) (c : Session)
    (N : ℕ) : Prop where
  baseAck_eq : c.sock.baseAck = baseAck
  not_stuck : c.stuck = false
  draining : Draining stream segs c.sock c.arrived c.output N
  gap : ∀ r ∈ c.arrived, segEnd r ≤ baseAck.toNat + 1 + N ∨ baseAck.toNat + 1 + N < r.SeqNum.toNat
  reply : ∀ p, c.reply = some p →
    p.ackNum = c.sock.cumReadNXT ∧ p.window = c.sock.readBuffer.window

namespace Settled

variable {baseAck : UInt32} {stream : List UInt8} {segs : List TCPInfo} {c c' : Session} {N : ℕ}

theorem deliver (h : Settled baseAck stream segs c N) {r : TCPInfo} (hr : r ∈ segs)
    (hnew : r ∉ c.arrived) (hend : segEnd r ≤ baseAck.toNat + 1 + c.output.length + 65535) :
    ∃ M, Settled baseAck stream segs (c.deliver r) M := by
  have hbase := h.baseAck_eq
  have hdata := (h.draining.cut.bounds hr).1
  obtain ⟨hstate, hmtx, hunacked, hfins⟩ := h.draining.open_state
  have hnote := c.sock.noteWindow_ack hdata.1
  have d : Draining stream segs (c.sock.noteWindow r) c.arrived c.output N := by
    rw [hnote]
    exact ⟨h.draining.cut, h.draining.no_wrap, ⟨h.draining.sync.cum, h.draining.sync.nxt,
      h.draining.sync.lbr, h.draining.sync.read_le, h.draining.sync.le_window⟩,
      h.draining.le_stream, h.draining.bytes, h.draining.arrived_mem, h.draining.split,
      h.draining.covered, h.draining.ordered, h.draining.queued, h.draining.waiting,
      h.draining.open_state⟩
  have hsame : (c.sock.noteWindow r).baseAck = baseAck := by
    rw [hnote]
    exact hbase
  obtain ⟨M, hbase', hdrain, hgap, haction⟩ :=
    d.receiveData hr hnew (by rw [hsame]; exact hend) (by rw [hsame]; exact h.gap)
  rw [hsame] at hbase' hgap
  have hthread := NormalSocket.receiverThread_data hdata.1 (Or.inl hdata.2.2) hunacked
    (hfins r.AckNum)
  refine ⟨M, ?_, ?_, ?_, hgap, ?_⟩
  · simp only [Session.deliver, hthread]
    exact hbase'
  · simp only [Session.deliver, hthread]
    rcases haction with hqueued | hreply
    · simp [hqueued]
    · simp [hreply]
  · simp only [Session.deliver, hthread]
    exact hdrain
  · intro p hp
    simp only [Session.deliver, hthread] at hp ⊢
    rcases haction with hqueued | hreply
    · simp [hqueued, RecvAction.packet] at hp
    · rw [hreply] at hp
      cases Option.some.inj hp
      exact ⟨rfl, rfl⟩

theorem step (h : Settled baseAck stream segs c N) (e : RecvEvent)
    (hok : Allowed (baseAck.toNat + 1) segs c e) (hstep : c.step e = some c') :
    ∃ M, Settled baseAck stream segs c' M := by
  cases e with
  | segment r =>
    obtain ⟨-, rfl⟩ := Session.step_segment hstep
    exact h.deliver hok.1 hok.2.1 hok.2.2
  | read numbytes =>
    obtain ⟨hstuck, -, -, -, -, rfl⟩ := Session.step_read hstep
    have hbase := NormalSocket.readOut_baseAck c.sock c.sock.readBuffer.unreadCount.toNat numbytes
    refine ⟨N, hbase.trans h.baseAck_eq, hstuck,
      h.draining.readOut _ numbytes (Nat.le_refl _), h.gap, ?_⟩
    intro p hp
    simp at hp

/-- No allowed event blocks. -/
theorem progress (h : Settled baseAck stream segs c N) (e : RecvEvent)
    (hok : Allowed (baseAck.toNat + 1) segs c e) : ∃ c', c.step e = some c' := by
  have hstuck := h.not_stuck
  cases e with
  | segment r => exact ⟨c.deliver r, by simp [Session.step, hstuck]⟩
  | read numbytes =>
    obtain ⟨hstate, hmtx, -, -⟩ := h.draining.open_state
    have hcount : c.sock.readBuffer.unreadCount ≠ 0 := hok
    simp [Session.step, Session.read, NormalSocket.vRead, hstuck, hstate, hmtx, hcount]

end Settled

theorem start_settled (key : SocketTableKey) (baseSeq baseAck : UInt32) (window : UInt16)
    (stream : List UInt8) (segs : List TCPInfo)
    (hwrap : baseAck.toNat + 1 + stream.length < 4294967296)
    (hcut : IsCut (baseAck.toNat + 1) stream segs) :
    Settled baseAck stream segs (Session.start (newSocket key baseSeq baseAck window)) 0 := by
  have hcount : newReadBuffer.unreadCount = 0 := by decide
  refine ⟨rfl, rfl, ⟨hcut, hwrap, ⟨?_, rfl, rfl, Nat.le_refl _, by simp⟩, by omega, ?_, ?_, ?_, ?_,
    ?_, ?_, ?_, ⟨rfl, rfl, rfl, fun _ => rfl⟩⟩, ?_, ?_⟩
  · change baseAck + 1 = baseAck + 1 + UInt32.ofNat 0
    simp
  · simp [Session.start, newSocket, ReadBuffer.unread, hcount]
  · simp [Session.start]
  · simp [Session.start]
  · intro i hi
    omega
  · intro k hk hlt
    simp [Session.start, newSocket] at hlt
  · simp [Session.start, newSocket]
  · simp [Session.start]
  · simp [Session.start]
  · simp [Session.start]

theorem reach_settled {key : SocketTableKey} {baseSeq baseAck : UInt32} {window : UInt16}
    {stream : List UInt8} {segs : List TCPInfo} {c : Session}
    (hwrap : baseAck.toNat + 1 + stream.length < 4294967296)
    (hcut : IsCut (baseAck.toNat + 1) stream segs)
    (hreach : Reach Session.step (Allowed (baseAck.toNat + 1) segs)
      (Session.start (newSocket key baseSeq baseAck window)) c) :
    ∃ N, Settled baseAck stream segs c N := by
  apply hreach.invariant (fun c => ∃ N, Settled baseAck stream segs c N)
  · exact ⟨0, start_settled key baseSeq baseAck window stream segs hwrap hcut⟩
  · rintro s e s' ⟨N, hs⟩ hok hstep
    exact hs.step e hok hstep

/-- Receive-side reassembly is a FIFO byte stream: for every cut of a stream, every
order of arrival and every interleaving with reads. -/
theorem receiver_refines_stream (key : SocketTableKey) (baseSeq baseAck : UInt32)
    (window : UInt16) (stream : List UInt8) (segs : List TCPInfo) (c : Session)
    (hwrap : baseAck.toNat + 1 + stream.length < 4294967296)
    (hcut : IsCut (baseAck.toNat + 1) stream segs)
    (hreach : Reach Session.step (Allowed (baseAck.toNat + 1) segs)
      (Session.start (newSocket key baseSeq baseAck window)) c) :
    (∀ e, Allowed (baseAck.toNat + 1) segs c e → ∃ c', c.step e = some c') ∧
      ∃ n, IsGreatest {m | m ≤ stream.length ∧ GapFree (baseAck.toNat + 1) c.arrived m} n ∧
        c.output ++ c.sock.readBuffer.unread = stream.take n ∧
        c.sock.readBuffer.NXT.toNat = (c.sock.cumReadNXT - baseAck).toNat % 65536 ∧
        ∀ p, c.reply = some p → p.ackNum = baseAck + 1 + UInt32.ofNat n ∧
          p.window.toNat = 65535 - c.sock.readBuffer.unread.length := by
  obtain ⟨N, hs⟩ := reach_settled hwrap hcut hreach
  have hbase := hs.baseAck_eq
  have d := hs.draining
  refine ⟨hs.progress, N, ⟨⟨d.le_stream, ?_⟩, ?_⟩, d.bytes, ?_, ?_⟩
  · have hcovered := d.covered
    rw [hbase] at hcovered
    exact hcovered
  · rintro m ⟨-, hm⟩
    by_contra hlt
    obtain ⟨r, hr, hlow, hhigh⟩ := hm N (by omega)
    rcases hs.gap r hr with hbefore | hafter
    · omega
    · omega
  · have hcum := d.sync.cum
    rw [d.sync.nxt, hcum, hbase]
    have h1 : (1 : UInt32).toNat = 1 := rfl
    have h2 := baseAck.toNat_lt
    simp only [UInt32.toNat_sub, UInt32.toNat_add, UInt32.toNat_ofNat', h1]
    omega
  · intro p hp
    obtain ⟨hack, hwindow⟩ := hs.reply p hp
    refine ⟨?_, ?_⟩
    · rw [hack, d.sync.cum, hbase]
    · rw [hwindow, ReadBuffer.toNat_window, ReadBuffer.unread_length]

/-- The second of two segments overtakes the first, and one byte is read. -/
theorem receiver_refines_stream_overtaken :
    ∃ c, Reach Session.step (Allowed 101 [sampleSegment 101 [1, 2], sampleSegment 103 [3]])
        (Session.start (newSocket sampleKey 0 100 8)) c ∧ c.arrived.length = 2 ∧
      ∃ n, IsGreatest {m | m ≤ 3 ∧ GapFree 101 c.arrived m} n ∧
        c.output ++ c.sock.readBuffer.unread = [1, 2, 3].take n := by
  obtain ⟨c, hreach, harrived⟩ := exists_reach Session.step
    (Allowed 101 [sampleSegment 101 [1, 2], sampleSegment 103 [3]])
    (Session.start (newSocket sampleKey 0 100 8)) (fun c => c.arrived.length = 2)
    [.segment (sampleSegment 103 [3]), .segment (sampleSegment 101 [1, 2]), .read 1] (by decide)
  have hcut : IsCut 101 [1, 2, 3] [sampleSegment 101 [1, 2], sampleSegment 103 [3]] := by
    refine ⟨by decide, by decide, [3], rfl, ?_⟩
    exact ⟨by decide, by decide, [], rfl, rfl⟩
  obtain ⟨-, n, hgreatest, hbytes, -, -⟩ :=
    receiver_refines_stream sampleKey 0 100 8 [1, 2, 3] _ _ (by decide) hcut hreach
  exact ⟨c, hreach, harrived, n, hgreatest, hbytes⟩

end IpTcp.Reassembly
