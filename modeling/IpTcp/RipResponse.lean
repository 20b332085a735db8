import IpTcp.Rip

/-!
A RIP response against what distance-vector routing prescribes for it. The handler
deletes a route whose next hop reports a higher cost, even if the cost is finite,
and its cost of an entry wraps around at the largest number. For the entries where
neither happens the table becomes the prescribed one, and what is advertised is what
the table then holds.
-/
namespace IpTcp.Rip

variable {A : Type*} [DecidableEq A]

def WellFormed (table : Table A) : Prop :=
  ∀ pre info, table.lookup pre = some info → info.pre = pre ∧ info.cost < infty

def RipUpdate.metric (entry : RipUpdate) : ℕ := min (entry.Cost.toNat + 1) infty

/-- What distance-vector routing does with an entry. -/
def prescribed (now : ℕ) (hop : A) (table : Table A) (entry : RipUpdate) : Table A :=
  match table.lookup entry.pre with
  | none =>
      if entry.metric < infty then table.insert entry.pre
        { route_type := .R, next := hop, pre := entry.pre, cost := entry.metric,
          last_updated := now }
      else table
  | some info =>
      if info.next = hop then
        if entry.metric = infty then table.erase entry.pre
        else table.insert entry.pre { info with cost := entry.metric, last_updated := now }
      else if entry.metric < info.cost then table.insert entry.pre
        { info with cost := entry.metric, next := hop, last_updated := now }
      else table

def advertised (neighbor : A) : Option (ForwardingInfo A) → UInt32
  | none => UInt32.ofNat infty
  | some info => if neighbor = info.next then UInt32.ofNat infty else UInt32.ofNat info.cost

def advert (neighbor : A) (table : Table A) (pre : Prefix) : RipUpdate where
  Cost := advertised neighbor (table.lookup pre)
  Address := pre.addr
  Mask := cidrMask pre.bits

/-- The handler has done with a response what is prescribed: the table is the prescribed one,
each changed route is advertised to every neighbour, and each entry that goes out tells what
the table then holds. -/
structure Prescribed (now : ℕ) (ripNeighbors : List A) (before : Table A) (src : A)
    (entries : List RipUpdate) (result : Table A × List (A × List RipUpdate)) : Prop where
  table : result.1 = entries.foldl (prescribed now src) before
  changed : ∀ pre, result.1.lookup pre ≠ before.lookup pre → ∀ neighbor ∈ ripNeighbors,
    ∃ sent, (neighbor, sent) ∈ result.2 ∧ advert neighbor result.1 pre ∈ sent
  sent : ∀ neighbor sent, (neighbor, sent) ∈ result.2 → ∀ entry ∈ sent,
    ∃ pre, entry = advert neighbor result.1 pre

/-- The next hop does not report a higher finite cost, and the cost does not wrap around,
unless a route of cost 0 over another hop makes the entry irrelevant. -/
def Steady (hop : A) (table : Table A) (entry : RipUpdate) : Prop :=
  (entry.Cost = 4294967295 →
    ∃ info ∈ table.lookup entry.pre, info.next ≠ hop ∧ info.cost = 0) ∧
  ∀ info ∈ table.lookup entry.pre, info.next = hop → entry.metric < infty →
    entry.metric ≤ info.cost

instance (hop : A) (table : Table A) (entry : RipUpdate) : Decidable (Steady hop table entry) :=
  inferInstanceAs (Decidable ((_ → _) ∧ ∀ info ∈ table.lookup entry.pre, _ → _ → _))

def SteadyAll (now : ℕ) (hop : A) : Table A → List RipUpdate → Prop
  | _, [] => True
  | table, entry :: entries =>
      Steady hop table entry ∧ SteadyAll now hop (prescribed now hop table entry) entries

theorem cost_eq_metric {entry : RipUpdate} (h : entry.Cost ≠ 4294967295) :
    entry.cost = entry.metric := by
  have hlt := entry.Cost.toNat_lt
  have hne : entry.Cost.toNat ≠ 4294967295 := fun heq => h (UInt32.toNat_inj.mp heq)
  have hone : (1 : UInt32).toNat = 1 := rfl
  unfold RipUpdate.cost RipUpdate.metric
  rw [UInt32.toNat_add, hone, Nat.mod_eq_of_lt (by omega)]

theorem cost_wrapped {entry : RipUpdate} (h : entry.Cost = 4294967295) :
    entry.cost = 0 ∧ entry.metric = infty := by
  unfold RipUpdate.cost RipUpdate.metric
  rw [h]
  decide

theorem metric_le (entry : RipUpdate) : entry.metric ≤ infty := Nat.min_le_right _ _

/-- Routes are stored under their prefix with a finite cost, and deleted at the infinite one. -/
def RouteChange.Sound (pre : Prefix) : RouteChange A → Prop
  | .unchanged => True
  | .stored info => info.pre = pre ∧ info.cost < infty
  | .deleted info => info.pre = pre ∧ info.cost = infty

/-- For a steady entry the handler does what is prescribed. -/
theorem steady_judge {now : ℕ} {hop : A} {u : Update A} {entry : RipUpdate}
    (hwf : WellFormed u.table) (hsteady : Steady hop u.table entry) :
    let change := judge now hop entry.pre entry.cost (u.table.lookup entry.pre)
    (u.apply entry.pre change).table = prescribed now hop u.table entry ∧
      change.Sound entry.pre := by
  have hle := metric_le entry
  by_cases hwrap : entry.Cost = 4294967295
  · obtain ⟨info, hinfo, hhop, hzero⟩ := hsteady.1 hwrap
    obtain ⟨hcost, hmetric⟩ := cost_wrapped hwrap
    have hne : ¬ hop = info.next := fun heq => hhop heq.symm
    have hnot : ¬ entry.metric < info.cost := by omega
    have hlookup : u.table.lookup entry.pre = some info := hinfo
    simp only [prescribed, hlookup, judge, hcost, hzero, gt_iff_lt, Nat.lt_irrefl, if_false,
      if_neg hne, if_neg hhop, Nat.not_lt_zero]
    exact ⟨rfl, trivial⟩
  · have hcost := cost_eq_metric hwrap
    cases hlookup : u.table.lookup entry.pre with
    | none =>
      simp only [prescribed, hlookup, judge, hcost]
      by_cases hfinite : entry.metric < infty
      · rw [if_pos hfinite, if_pos (Nat.ne_of_lt hfinite)]
        exact ⟨rfl, rfl, hfinite⟩
      · rw [if_neg hfinite, if_neg (by omega)]
        exact ⟨rfl, trivial⟩
    | some info =>
      obtain ⟨hpre, hfinite⟩ := hwf entry.pre info hlookup
      have hup := hsteady.2 info hlookup
      simp only [prescribed, hlookup, judge, hcost]
      by_cases hhop : info.next = hop
      · subst hhop
        by_cases hmore : info.cost > entry.metric
        · rw [if_pos hmore, if_pos rfl, if_neg (by omega)]
          exact ⟨rfl, hpre, lt_trans hmore hfinite⟩
        · by_cases hless : info.cost < entry.metric
          · have hinf : entry.metric = infty := by
              by_contra hne
              have := hup rfl (by omega)
              omega
            rw [if_neg hmore, if_pos hless, if_pos rfl, if_pos rfl, if_pos hinf]
            exact ⟨rfl, hpre, hinf⟩
          · have hsame : info.cost = entry.metric := by omega
            rw [if_neg hmore, if_neg hless, if_pos rfl, if_pos rfl, if_neg (by omega), ← hsame]
            exact ⟨rfl, hpre, hfinite⟩
      · have hne : ¬ hop = info.next := fun heq => hhop heq.symm
        rw [if_neg hhop]
        by_cases hmore : info.cost > entry.metric
        · rw [if_pos hmore, if_pos hmore]
          exact ⟨rfl, hpre, lt_trans hmore hfinite⟩
        · rw [if_neg hmore, if_neg hmore]
          by_cases hless : info.cost < entry.metric
          · rw [if_pos hless, if_neg hne]
            exact ⟨rfl, trivial⟩
          · rw [if_neg hless, if_neg hne]
            exact ⟨rfl, trivial⟩

/-- For an entry that is not steady it does something else. -/
theorem not_steady_judge {now : ℕ} {hop : A} {u : Update A} {entry : RipUpdate}
    (hwf : WellFormed u.table) (hsteady : ¬ Steady hop u.table entry) :
    (u.receiveEntry now hop entry).table ≠ prescribed now hop u.table entry := by
  intro hsame
  have hroute := congrArg (AList.lookup entry.pre) hsame
  unfold Update.receiveEntry at hroute
  by_cases hwrap : entry.Cost = 4294967295
  · obtain ⟨hcost, hmetric⟩ := cost_wrapped hwrap
    rw [hcost] at hroute
    cases hlookup : u.table.lookup entry.pre with
    | none => simp [prescribed, hlookup, hmetric, judge, Update.apply] at hroute
    | some info =>
      obtain ⟨-, hfinite⟩ := hwf entry.pre info hlookup
      by_cases hhop : info.next = hop
      · subst hhop
        by_cases hpos : info.cost > 0
        · simp [prescribed, hlookup, hmetric, judge, Update.apply, hpos] at hroute
        · simp [prescribed, hlookup, hmetric, judge, Update.apply, hpos] at hroute
      · have hpos : info.cost > 0 := by
          rw [gt_iff_lt, Nat.pos_iff_ne_zero]
          intro hzero
          refine hsteady ⟨fun _ => ⟨info, hlookup, hhop, hzero⟩, ?_⟩
          intro info' hinfo' hnext
          have hsome : some info = some info' := hlookup.symm.trans hinfo'
          cases hsome
          exact absurd hnext hhop
        have hnot : ¬ entry.metric < info.cost := by omega
        simp only [prescribed, hlookup, judge, Update.apply, if_neg hhop, if_pos hpos,
          if_neg hnot, AList.lookup_insert, Option.some.injEq] at hroute
        exact hhop (congrArg ForwardingInfo.next hroute).symm
  · have hcost := cost_eq_metric hwrap
    obtain ⟨info, hlookup, hhop, hfinite, hless⟩ : ∃ info, u.table.lookup entry.pre = some info ∧
        info.next = hop ∧ entry.metric < infty ∧ info.cost < entry.metric := by
      by_contra hnone
      refine hsteady ⟨fun h => absurd h hwrap, ?_⟩
      intro info hinfo hhop hfinite
      by_contra hnot
      exact hnone ⟨info, hinfo, hhop, hfinite, Nat.lt_of_not_le hnot⟩
    subst hhop
    have hmore : ¬ entry.metric < info.cost := by omega
    simp [prescribed, hlookup, hcost, judge, Update.apply, hmore, hless, Nat.ne_of_lt hfinite]
      at hroute

theorem receiveEntry_prescribed_iff {now : ℕ} {hop : A} {u : Update A} {entry : RipUpdate}
    (hwf : WellFormed u.table) :
    (u.receiveEntry now hop entry).table = prescribed now hop u.table entry ↔
      Steady hop u.table entry := by
  constructor
  · intro hsame
    by_contra hsteady
    exact not_steady_judge hwf hsteady hsame
  · exact fun hsteady => (steady_judge hwf hsteady).1

/-- What is to be advertised is what the table holds, and every route that differs from the
table before is to be advertised. -/
structure Agrees (before : Table A) (u : Update A) : Prop where
  wellFormed : WellFormed u.table
  changed : ∀ pre, u.table.lookup pre ≠ before.lookup pre → (u.triggered.lookup pre).isSome
  cost : ∀ pre info, u.triggered.lookup pre = some info → info.pre = pre ∧
    ∀ neighbor, advertised neighbor (some info) = advertised neighbor (u.table.lookup pre)

namespace Agrees

variable {before : Table A} {u : Update A}

theorem start (hwf : WellFormed before) : Agrees before ⟨before, ∅⟩ where
  wellFormed := hwf
  changed pre hne := absurd rfl hne
  cost pre info hinfo := by simp at hinfo

theorem apply (h : Agrees before u) {pre : Prefix} {change : RouteChange A}
    (hsound : change.Sound pre) : Agrees before (u.apply pre change) := by
  cases change with
  | unchanged => exact h
  | stored info =>
    refine ⟨?_, ?_, ?_⟩
    · intro pre' info' hinfo'
      by_cases hpre : pre' = pre
      · subst hpre
        simp only [Update.apply, AList.lookup_insert, Option.some.injEq] at hinfo'
        subst hinfo'
        exact hsound
      · simp only [Update.apply, AList.lookup_insert_ne hpre] at hinfo'
        exact h.wellFormed pre' info' hinfo'
    · intro pre' hne
      by_cases hpre : pre' = pre
      · subst hpre
        simp [Update.apply]
      · simp only [Update.apply, AList.lookup_insert_ne hpre] at hne ⊢
        exact h.changed pre' hne
    · intro pre' info' hinfo'
      by_cases hpre : pre' = pre
      · subst hpre
        simp only [Update.apply, AList.lookup_insert, Option.some.injEq] at hinfo' ⊢
        subst hinfo'
        exact ⟨hsound.1, fun _ => rfl⟩
      · simp only [Update.apply, AList.lookup_insert_ne hpre] at hinfo' ⊢
        exact h.cost pre' info' hinfo'
  | deleted info =>
    refine ⟨?_, ?_, ?_⟩
    · intro pre' info' hinfo'
      by_cases hpre : pre' = pre
      · subst hpre
        simp [Update.apply] at hinfo'
      · simp only [Update.apply, AList.lookup_erase_ne hpre] at hinfo'
        exact h.wellFormed pre' info' hinfo'
    · intro pre' hne
      by_cases hpre : pre' = pre
      · subst hpre
        simp [Update.apply]
      · simp only [Update.apply, AList.lookup_erase_ne hpre, AList.lookup_insert_ne hpre] at hne ⊢
        exact h.changed pre' hne
    · intro pre' info' hinfo'
      by_cases hpre : pre' = pre
      · subst hpre
        simp only [Update.apply, AList.lookup_insert, Option.some.injEq] at hinfo' ⊢
        subst hinfo'
        refine ⟨hsound.1, fun neighbor => ?_⟩
        simp [advertised, hsound.2]
      · simp only [Update.apply, AList.lookup_erase_ne hpre, AList.lookup_insert_ne hpre]
          at hinfo' ⊢
        exact h.cost pre' info' hinfo'

/-- The entries of a response, one after another. -/
theorem foldl {now : ℕ} {hop : A} {entries : List RipUpdate} (h : Agrees before u)
    (hsteady : SteadyAll now hop u.table entries) :
    Agrees before (entries.foldl (Update.receiveEntry now hop) u) ∧
      (entries.foldl (Update.receiveEntry now hop) u).table =
        entries.foldl (prescribed now hop) u.table := by
  induction entries generalizing u with
  | nil => exact ⟨h, rfl⟩
  | cons entry entries ih =>
    obtain ⟨hentry, hrest⟩ := hsteady
    obtain ⟨htable, hsound⟩ := steady_judge h.wellFormed hentry
    have hnext : (u.receiveEntry now hop entry).table = prescribed now hop u.table entry := htable
    rw [← hnext] at hrest
    have hagrees : Agrees before (u.receiveEntry now hop entry) := h.apply hsound
    obtain ⟨hend, hfold⟩ := ih hagrees hrest
    refine ⟨hend, ?_⟩
    rw [List.foldl_cons, List.foldl_cons, hfold, hnext]

/-- An entry that goes out tells what the table holds. -/
theorem ripEntry_eq (h : Agrees before u) {pre : Prefix} {info : ForwardingInfo A}
    (hinfo : u.triggered.lookup pre = some info) (neighbor : A) :
    ripEntry neighbor pre info = advert neighbor u.table pre := by
  obtain ⟨hpre, hcost⟩ := h.cost pre info hinfo
  rw [advert, ← hcost neighbor, ripEntry, hpre, advertised]

theorem prescribed {now : ℕ} {src : A} {entries : List RipUpdate} (ripNeighbors : List A)
    (hwf : WellFormed before) (hsteady : SteadyAll now src before entries) :
    Prescribed now ripNeighbors before src entries
      (protocol200 now ripNeighbors before src (.response entries)) := by
  obtain ⟨hagrees, htable⟩ := (Agrees.start hwf).foldl hsteady
  refine ⟨htable, ?_, ?_⟩
  · intro pre hchanged neighbor hneighbor
    obtain ⟨info, hinfo⟩ := Option.isSome_iff_exists.mp (hagrees.changed pre hchanged)
    have hmem := AList.mem_lookup_iff.mp hinfo
    refine ⟨sendRIP neighbor (receiveResponse now src before entries).triggered, ?_, ?_⟩
    · have hpos : 0 < (receiveResponse now src before entries).triggered.entries.length :=
        List.length_pos_of_mem hmem
      simp only [protocol200, if_pos hpos]
      exact List.mem_map.mpr ⟨neighbor, hneighbor, rfl⟩
    · exact List.mem_map.mpr ⟨_, hmem, hagrees.ripEntry_eq hinfo neighbor⟩
  · intro neighbor sent hsent entry hentry
    simp only [protocol200] at hsent
    split at hsent
    · obtain ⟨neighbor', -, heq⟩ := List.mem_map.mp hsent
      cases heq
      obtain ⟨⟨pre, info⟩, hmem, rfl⟩ := List.mem_map.mp hentry
      exact ⟨pre, hagrees.ripEntry_eq (AList.mem_lookup_iff.mpr hmem) neighbor⟩
    · simp at hsent

end Agrees

/-- An entry does to the table what is prescribed exactly if it is steady, and a response of
steady entries does and advertises what is prescribed. -/
theorem steady_response_prescribed (now : ℕ) (ripNeighbors : List A) (table : Table A) (src : A)
    (hwf : WellFormed table) :
    (∀ triggered entry, (Update.receiveEntry now src ⟨table, triggered⟩ entry).table =
      prescribed now src table entry ↔ Steady src table entry) ∧
    ∀ entries, SteadyAll now src table entries →
      Prescribed now ripNeighbors table src entries
        (protocol200 now ripNeighbors table src (.response entries)) := by
  refine ⟨fun triggered entry => ?_, fun entries hsteady => ?_⟩
  · exact receiveEntry_prescribed_iff (u := ⟨table, triggered⟩) hwf
  · exact Agrees.prescribed ripNeighbors hwf hsteady

def sampleTable : Table ℕ :=
  AList.insert samplePrefix ⟨.R, 1, samplePrefix, 2, 0⟩ ∅

theorem sampleTable_wellFormed : WellFormed sampleTable := by
  intro pre info hinfo
  unfold sampleTable at hinfo
  by_cases hpre : pre = samplePrefix
  · subst hpre
    rw [AList.lookup_insert] at hinfo
    cases hinfo
    exact ⟨rfl, by decide⟩
  · rw [AList.lookup_insert_ne hpre] at hinfo
    simp at hinfo

/-- The next hop has become unreachable. -/
theorem steady_response_prescribed_unreachable :
    SteadyAll 5 1 sampleTable [sampleEntry 16] ∧
      Prescribed 5 [1, 2] sampleTable 1 [sampleEntry 16]
        (protocol200 5 [1, 2] sampleTable 1 (.response [sampleEntry 16])) := by
  have hsteady : SteadyAll 5 1 sampleTable [sampleEntry 16] := ⟨by decide, trivial⟩
  exact ⟨hsteady, (steady_response_prescribed 5 [1, 2] sampleTable 1 sampleTable_wellFormed).2 _
    hsteady⟩

/-- The next hop reports cost 2 instead of 1: the route is deleted, and advertised with the
finite cost 3. -/
theorem raised_cost_deletes :
    ¬ ∀ (now : ℕ) (ripNeighbors : List ℕ) (table : Table ℕ) (src : ℕ) (entries : List RipUpdate),
      WellFormed table → Prescribed now ripNeighbors table src entries
        (protocol200 now ripNeighbors table src (.response entries)) := by
  intro hclaim
  have htable := (hclaim 5 [1, 2] sampleTable 1 [sampleEntry 2] sampleTable_wellFormed).table
  have hroute := congrArg (AList.lookup samplePrefix) htable
  revert hroute
  decide

end IpTcp.Rip
