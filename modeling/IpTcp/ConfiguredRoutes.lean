import IpTcp.Rip
import IpTcp.Runs

/-!
The routes of the configuration under RIP. The handler never looks at the type of a
route, and a configured one has cost 0, so every advertised cost is higher: the
route is deleted as soon as its own next hop advertises its prefix. Nothing else
touches it, except that a cost that wraps around to 0 refreshes it.
-/
namespace IpTcp.Rip

open Runs

variable {A : Type*}

inductive NodeEvent (A : Type*)
  | receive (now : ℕ) (src : A) (packet : RipPacket)
  | periodic
  | collect (now : ℕ)

structure SameRoute (info info' : ForwardingInfo A) : Prop where
  route_type : info'.route_type = info.route_type
  next : info'.next = info.next
  pre : info'.pre = info.pre
  cost : info'.cost = info.cost

theorem SameRoute.refl (info : ForwardingInfo A) : SameRoute info info := ⟨rfl, rfl, rfl, rfl⟩

def Survives (config : Config A) (table : Table A) : Prop :=
  ∀ pre info, (initialTable config).lookup pre = some info →
    ∃ info', table.lookup pre = some info' ∧ SameRoute info info'

/-- The next hop of a configured route does not advertise its prefix, except with the cost
that wraps around. -/
def Unclaimed (config : Config A) : NodeEvent A → Prop
  | .receive _ src (.response entries) =>
      ∀ entry ∈ entries, ∀ info ∈ (initialTable config).lookup entry.pre, info.next = src →
        entry.Cost = 4294967295
  | _ => True

theorem Survives.start (config : Config A) : Survives config (initialTable config) :=
  fun _ info hinfo => ⟨info, hinfo, SameRoute.refl info⟩

/-- The collector deletes the expired routes. -/
theorem collect_foldl_lookup (now : ℕ) (routes : List (Sigma fun _ : Prefix => ForwardingInfo A))
    (u : Update A) (pre : Prefix)
    (hkept : ∀ info, (⟨pre, info⟩ : Sigma fun _ : Prefix => ForwardingInfo A) ∈ routes →
      expired now info = false) :
    (routes.foldl (fun u route => collect now u route.1 route.2) u).table.lookup pre =
      u.table.lookup pre := by
  induction routes generalizing u with
  | nil => rfl
  | cons route routes ih =>
    rw [List.foldl_cons, ih _ fun info hmem => hkept info (List.mem_cons_of_mem _ hmem)]
    unfold collect
    split
    · rename_i hexpired
      obtain ⟨pre', info⟩ := route
      refine apply_lookup_ne ?_ _
      rintro rfl
      rw [hkept info List.mem_cons_self] at hexpired
      contradiction
    · rfl

theorem garbageCollector_kept {now : ℕ} {table : Table A} {pre : Prefix}
    {info : ForwardingInfo A} (hlookup : table.lookup pre = some info)
    (hkept : expired now info = false) :
    (garbageCollector now table).table.lookup pre = some info := by
  refine (collect_foldl_lookup now table.entries ⟨table, ∅⟩ pre ?_).trans hlookup
  intro info' hmem
  have hsame : some info' = some info := (AList.mem_lookup_iff.mpr hmem).symm.trans hlookup
  rw [Option.some.inj hsame]
  exact hkept

variable [DecidableEq A]

/-- What the routing threads do to the forwarding table. A periodic update only sends. -/
def tableStep (ripNeighbors : List A) (table : Table A) : NodeEvent A → Option (Table A)
  | .receive now src packet => some (protocol200 now ripNeighbors table src packet).1
  | .periodic => some table
  | .collect now => some (garbageCollector now table).table

instance (config : Config A) (e : NodeEvent A) : Decidable (Unclaimed config e) :=
  match e with
  | .receive _ _ (.response entries) =>
      inferInstanceAs (Decidable (∀ entry ∈ entries,
        ∀ info ∈ (initialTable config).lookup entry.pre, _ → _))
  | .receive _ _ .request | .periodic | .collect _ => .isTrue trivial

def Lost (table : Table A) (pre : Prefix) : Prop :=
  ∀ info, table.lookup pre = some info → info.route_type = .R

def Kept (table : Table A) (pre : Prefix) (info : ForwardingInfo A) : Prop :=
  ∃ info', table.lookup pre = some info' ∧ SameRoute info info'

section Entry

variable {now : ℕ} {hop : A} {u : Update A} {entry : RipUpdate} {pre : Prefix}
  {info : ForwardingInfo A}

theorem cost_eq_zero_iff (entry : RipUpdate) : entry.cost = 0 ↔ entry.Cost = 4294967295 := by
  have hlt := entry.Cost.toNat_lt
  have hone : (1 : UInt32).toNat = 1 := rfl
  have hmax : (4294967295 : UInt32).toNat = 4294967295 := rfl
  unfold RipUpdate.cost
  rw [← UInt32.toNat_inj, hmax, UInt32.toNat_add, hone]
  simp only [infty]
  omega

/-- The route that an entry is about, if it costs nothing: the entry of the next hop deletes
it, unless its cost wraps around. -/
theorem judge_kept {info' : ForwardingInfo A} (hzero : info'.cost = 0) :
    judge now hop entry.pre entry.cost (some info') =
      if hop = info'.next then
        if entry.Cost = 4294967295 then .stored { info' with last_updated := now }
        else .deleted { info' with cost := entry.cost, last_updated := now }
      else .unchanged := by
  have hwrap := cost_eq_zero_iff entry
  simp only [judge, hzero]
  by_cases hcost : entry.cost = 0
  · rw [if_pos (hwrap.mp hcost), hcost]
    simp
  · rw [if_neg (fun h => hcost (hwrap.mpr h)), if_neg (by omega), if_pos (by omega)]

/-- An entry that is about another prefix, or not from the next hop, or wraps around. -/
theorem Kept.receiveEntry (h : Kept u.table pre info) (hzero : info.cost = 0)
    (hentry : entry.pre = pre → info.next = hop → entry.Cost = 4294967295) :
    Kept (u.receiveEntry now hop entry).table pre info := by
  obtain ⟨info', hlookup, hsame⟩ := h
  by_cases hpre : pre = entry.pre
  · subst hpre
    unfold Update.receiveEntry
    rw [hlookup, judge_kept (hsame.cost.trans hzero)]
    split
    · rename_i hnext
      rw [if_pos (hentry rfl (hsame.next.symm.trans hnext.symm))]
      exact ⟨_, AList.lookup_insert _, hsame.route_type, hsame.next, hsame.pre, hsame.cost⟩
    · exact ⟨info', hlookup, hsame⟩
  · exact ⟨info', (apply_lookup_ne hpre _).trans hlookup, hsame⟩

/-- The next hop advertises the prefix. -/
theorem Kept.lost (h : Kept u.table pre info) (hzero : info.cost = 0) (hpre : entry.pre = pre)
    (hnext : info.next = hop) (hcost : entry.Cost ≠ 4294967295) :
    Lost (u.receiveEntry now hop entry).table pre := by
  obtain ⟨info', hlookup, hsame⟩ := h
  subst hpre
  intro info'' hinfo''
  unfold Update.receiveEntry at hinfo''
  rw [hlookup, judge_kept (hsame.cost.trans hzero), if_pos (hnext.symm.trans hsame.next.symm),
    if_neg hcost] at hinfo''
  simp [Update.apply] at hinfo''

/-- A lost route does not come back: what is learned is a learned route. -/
theorem Lost.receiveEntry (h : Lost u.table pre) :
    Lost (u.receiveEntry now hop entry).table pre := by
  by_cases hpre : pre = entry.pre
  · subst hpre
    have hstored : ∀ info, info.route_type = .R →
        Lost (u.apply entry.pre (.stored info)).table entry.pre := by
      intro info hinfo info' hlookup
      rw [Update.apply, AList.lookup_insert, Option.some.injEq] at hlookup
      exact hlookup ▸ hinfo
    refine judge_rule (fun change => Lost (u.apply entry.pre change).table entry.pre) h ?_ ?_ ?_ ?_
    · exact fun _ _ => hstored _ rfl
    · exact fun info hinfo _ => hstored _ (h info hinfo)
    · intro info _ _ _ info' hlookup
      rw [Update.apply, AList.lookup_erase] at hlookup
      contradiction
    · exact fun info hinfo _ _ => hstored _ (h info hinfo)
  · intro info hinfo
    exact h info ((apply_lookup_ne hpre _).symm.trans hinfo)

theorem Lost.foldl {entries : List RipUpdate} (h : Lost u.table pre) :
    Lost (entries.foldl (Update.receiveEntry now hop) u).table pre := by
  induction entries generalizing u with
  | nil => exact h
  | cons entry entries ih => exact ih h.receiveEntry

/-- A response keeps a configured route exactly if it does not advertise its prefix from its
next hop. -/
theorem Kept.foldl_iff {entries : List RipUpdate} (h : Kept u.table pre info)
    (hzero : info.cost = 0) (htype : info.route_type ≠ .R) :
    Kept (entries.foldl (Update.receiveEntry now hop) u).table pre info ↔
      ∀ entry ∈ entries, entry.pre = pre → info.next = hop → entry.Cost = 4294967295 := by
  induction entries generalizing u with
  | nil => exact iff_of_true h (by simp)
  | cons entry entries ih =>
    rw [List.foldl_cons, List.forall_mem_cons]
    by_cases hentry : entry.pre = pre → info.next = hop → entry.Cost = 4294967295
    · rw [ih (h.receiveEntry hzero hentry)]
      exact (and_iff_right hentry).symm
    · refine iff_of_false ?_ (fun hall => hentry hall.1)
      simp only [Classical.not_imp] at hentry
      obtain ⟨hpre, hnext, hcost⟩ := hentry
      rintro ⟨info', hlookup, hsame⟩
      have hlost := (h.lost hzero hpre hnext hcost).foldl info' hlookup
      exact htype (hsame.route_type.symm.trans hlost)

end Entry

section Run

variable {config : Config A} {table table' : Table A} {ripNeighbors : List A} {e : NodeEvent A}

/-- A step keeps the configured routes exactly if it meets the condition. -/
theorem Survives.step_iff (h : Survives config table)
    (hstep : tableStep ripNeighbors table e = some table') :
    Survives config table' ↔ Unclaimed config e := by
  cases e with
  | periodic =>
    cases hstep
    exact iff_of_true h trivial
  | collect now =>
    cases hstep
    refine iff_of_true ?_ trivial
    intro pre info hinfo
    obtain ⟨info', hlookup, hsame⟩ := h pre info hinfo
    have hkept : expired now info' = false := by
      have htype := (initialTable_installed hinfo).2.1
      simp [expired, hsame.route_type, htype]
    exact ⟨info', garbageCollector_kept hlookup hkept, hsame⟩
  | receive now src packet =>
    cases packet with
    | request =>
      cases hstep
      exact iff_of_true h trivial
    | response entries =>
      cases hstep
      have hroute : ∀ pre info, (initialTable config).lookup pre = some info →
          (Kept (receiveResponse now src table entries).table pre info ↔
            ∀ entry ∈ entries, entry.pre = pre → info.next = src → entry.Cost = 4294967295) :=
        fun pre info hinfo => Kept.foldl_iff (u := ⟨table, ∅⟩) (h pre info hinfo)
          (initialTable_installed hinfo).1 (initialTable_installed hinfo).2.1
      constructor
      · intro hsurvives entry hentry info hinfo hnext
        exact (hroute entry.pre info hinfo).mp (hsurvives entry.pre info hinfo) entry hentry rfl
          hnext
      · intro hok pre info hinfo
        refine (hroute pre info hinfo).mpr fun entry hentry hpre hnext => ?_
        exact hok entry hentry info (hpre ▸ hinfo) hnext

/-- In every run in which no next hop of a configured route advertises its prefix, the
configured routes stay; and a step that breaks the condition loses one. -/
theorem unclaimed_routes_survive (config : Config A) (ripNeighbors : List A) (table : Table A)
    (h : Reach (tableStep ripNeighbors) (fun _ e => Unclaimed config e) (initialTable config)
      table) :
    Survives config table ∧ ∀ e table', tableStep ripNeighbors table e = some table' →
      (Survives config table' ↔ Unclaimed config e) := by
  have hsurvives : Survives config table := h.invariant (Survives config) (Survives.start config)
    (fun _ _ _ hsurvives hok hnext => (hsurvives.step_iff hnext).mpr hok)
  exact ⟨hsurvives, fun _ _ hstep => hsurvives.step_iff hstep⟩

end Run

def sampleConfig : Config ℕ where
  StaticRoutes := [(samplePrefix, 1)]
  Interfaces := [(9, .slash 167837961 24)]

/-- Another node advertises the prefix of the static route, and a round of the collector
passes. -/
theorem unclaimed_routes_survive_other_hop :
    ∃ table, Reach (tableStep [1]) (fun _ e => Unclaimed sampleConfig e)
        (initialTable sampleConfig) table ∧ table.entries.length = 2 ∧
      Survives sampleConfig table := by
  obtain ⟨table, hreach, hlength⟩ := exists_reach (tableStep [1])
    (fun _ e => Unclaimed sampleConfig e) (initialTable sampleConfig)
    (fun table => table.entries.length = 2)
    [.receive 5 2 (.response [sampleEntry 3]), .periodic, .collect 20000] (by decide)
  exact ⟨table, hreach, hlength, (unclaimed_routes_survive sampleConfig [1] table hreach).1⟩

/-- The next hop of the static route advertises its prefix. -/
theorem static_route_deleted :
    ¬ ∀ (config : Config ℕ) (ripNeighbors : List ℕ) (table : Table ℕ),
      Reach (tableStep ripNeighbors) (fun _ _ => True) (initialTable config) table →
      Survives config table := by
  intro hclaim
  obtain ⟨table, hreach, hgone⟩ := exists_reach (tableStep [1]) (fun _ _ => True)
    (initialTable sampleConfig) (fun table => table.lookup samplePrefix = none)
    [.receive 5 1 (.response [sampleEntry 0])] (by decide)
  have hinfo : (initialTable sampleConfig).lookup samplePrefix =
      some ⟨.S, 1, samplePrefix, 0, 0⟩ := by decide
  obtain ⟨info', hlookup, -⟩ := hclaim sampleConfig [1] table hreach samplePrefix _ hinfo
  rw [hgone] at hlookup
  contradiction

end IpTcp.Rip
