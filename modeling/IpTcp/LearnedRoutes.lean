import IpTcp.ConfiguredRoutes
import IpTcp.RipSoundness

/-!
The forwarding table as it changes under the node's lock: by one entry of a response,
or by one round of the collector. What a table keeps is asked of the route that an
entry is about only. The costs of learned routes stay between 1 and 15 as long as no
entry carries the largest cost, which wraps around to 0.
-/
namespace IpTcp.Rip

open Runs

variable {A : Type*} [DecidableEq A]

inductive TableEvent (A : Type*)
  | entry (now : ℕ) (hop : A) (entry : RipUpdate)
  | collect (now : ℕ)

def learn (now : ℕ) (hop : A) (table : Table A) (entry : RipUpdate) : Table A :=
  (Update.receiveEntry now hop ⟨table, ∅⟩ entry).table

def lockedStep (table : Table A) : TableEvent A → Option (Table A)
  | .entry now hop entry => some (learn now hop table entry)
  | .collect now => some (garbageCollector now table).table

theorem receiveEntry_table (now : ℕ) (hop : A) (u : Update A) (entry : RipUpdate) :
    (u.receiveEntry now hop entry).table = learn now hop u.table entry := by
  unfold learn Update.receiveEntry
  cases judge now hop entry.pre entry.cost (u.table.lookup entry.pre) with
  | unchanged => rfl
  | stored info => rfl
  | deleted info => rfl

/-- A response is a run of changes, all from the same hop. -/
theorem receiveResponse_reach {ok : Table A → TableEvent A → Prop} {now : ℕ} {hop : A}
    (hok : ∀ table entry, ok table (.entry now hop entry)) (entries : List RipUpdate)
    (u : Update A) :
    Reach lockedStep ok u.table (entries.foldl (Update.receiveEntry now hop) u).table := by
  induction entries generalizing u with
  | nil => exact .refl
  | cons entry entries ih =>
    have hstep : Reach lockedStep ok u.table (u.receiveEntry now hop entry).table :=
      .tail (.entry now hop entry) .refl (hok _ _) (by rw [receiveEntry_table]; rfl)
    exact hstep.trans (ih _)

section Keeps

variable {now : ℕ} {hop : A} {table : Table A} {entry : RipUpdate}
  {Q : Prefix → ForwardingInfo A → Prop}

/-- An entry keeps a property of all routes exactly if the route that it brings has it. -/
theorem learn_keeps_iff (h : ∀ pre info, table.lookup pre = some info → Q pre info)
    (hrefresh : ∀ pre info, Q pre info → Q pre { info with last_updated := now }) :
    (∀ pre info, (learn now hop table entry).lookup pre = some info → Q pre info) ↔
      (table.lookup entry.pre = none → entry.cost ≠ infty →
        Q entry.pre ⟨.R, hop, entry.pre, entry.cost, now⟩) ∧
      ∀ info, table.lookup entry.pre = some info → entry.cost < info.cost →
        Q entry.pre { info with cost := entry.cost, next := hop, last_updated := now } := by
  constructor
  · intro hall
    refine ⟨fun hnone hcost => hall entry.pre _ ?_, fun info hinfo hlt => hall entry.pre _ ?_⟩
    · simp [learn, Update.receiveEntry, judge, hnone, hcost, Update.apply]
    · simp [learn, Update.receiveEntry, judge, hinfo, hlt, Update.apply]
  · rintro ⟨hnew, hlower⟩
    refine judge_rule (fun change => ∀ pre info,
      ((⟨table, ∅⟩ : Update A).apply entry.pre change).table.lookup pre = some info → Q pre info)
      h ?_ ?_ ?_ ?_
    · exact fun hnone hcost => forall_lookup_insert h (hnew hnone hcost)
    · exact fun info hinfo hlt => forall_lookup_insert h (hlower info hinfo hlt)
    · exact fun _ _ _ _ => forall_lookup_erase entry.pre h
    · exact fun info hinfo _ _ => forall_lookup_insert h (hrefresh _ _ (h _ info hinfo))

omit [DecidableEq A] in
theorem collect_keeps (h : ∀ pre info, table.lookup pre = some info → Q pre info) :
    ∀ pre info, (garbageCollector now table).table.lookup pre = some info → Q pre info :=
  fun pre info hinfo => h pre info ((garbageCollector_collected now table).table pre info hinfo)

end Keeps

def InRange (table : Table A) : Prop :=
  ∀ pre info, table.lookup pre = some info → info.route_type = .R → 1 ≤ info.cost ∧ info.cost ≤ 15

def Free (table : Table A) : Prop :=
  ∀ pre info, table.lookup pre = some info → info.route_type ≠ .R → info.cost = 0

/-- An entry does not carry the cost that wraps around, unless it is about a configured
route. -/
def NoWrap (table : Table A) : TableEvent A → Prop
  | .entry _ _ entry =>
      entry.Cost = 4294967295 → ∃ info ∈ table.lookup entry.pre, info.route_type ≠ .R
  | .collect _ => True

instance (table : Table A) (e : TableEvent A) : Decidable (NoWrap table e) :=
  match e with
  | .entry _ _ entry => inferInstanceAs (Decidable
      (_ → ∃ info ∈ table.lookup entry.pre, info.route_type ≠ .R))
  | .collect _ => .isTrue trivial

omit [DecidableEq A] in
theorem free_start (config : Config A) : Free (initialTable config) :=
  fun _ _ hinfo _ => (initialTable_installed hinfo).1

omit [DecidableEq A] in
theorem inRange_start (config : Config A) : InRange (initialTable config) :=
  fun _ _ hinfo htype => absurd htype (initialTable_installed hinfo).2.1

theorem cost_le (entry : RipUpdate) : entry.cost ≤ infty := Nat.min_le_right _ _

section Costs

variable {now : ℕ} {hop : A} {table table' : Table A} {entry : RipUpdate} {e : TableEvent A}

theorem Free.step (h : Free table) (hstep : lockedStep table e = some table') : Free table' := by
  cases e with
  | entry now hop entry =>
    cases hstep
    refine (learn_keeps_iff h fun _ _ hinfo => hinfo).mpr ⟨fun _ _ hne => absurd rfl hne, ?_⟩
    intro info hinfo hlt htype
    have hzero := h _ info hinfo htype
    omega
  | collect now =>
    cases hstep
    exact collect_keeps h

theorem InRange.learn_iff (h : InRange table) :
    InRange (learn now hop table entry) ↔ NoWrap table (.entry now hop entry) := by
  have hle : entry.cost ≤ 16 := cost_le entry
  unfold InRange
  rw [learn_keeps_iff h fun _ _ hinfo => hinfo, NoWrap, ← cost_eq_zero_iff entry]
  cases hlookup : table.lookup entry.pre with
  | none =>
    constructor
    · intro ⟨hnew, _⟩ hzero
      have hpos := (hnew rfl (hzero ▸ by decide) rfl).1
      exact absurd hzero (Nat.pos_iff_ne_zero.mp hpos)
    · intro hok
      have hpos : entry.cost ≠ 0 := fun hzero => by simpa using hok hzero
      refine ⟨fun _ (hfinite : entry.cost ≠ 16) _ => ?_, by simp⟩
      show 1 ≤ entry.cost ∧ entry.cost ≤ 15
      omega
  | some info =>
    constructor
    · intro ⟨_, hlower⟩ hzero
      refine ⟨info, rfl, fun htype => ?_⟩
      have hpos := (hlower info rfl (hzero ▸ (h _ info hlookup htype).1) htype).1
      exact absurd hzero (Nat.pos_iff_ne_zero.mp hpos)
    · intro hok
      refine ⟨by simp, ?_⟩
      rintro _ ⟨⟩ hlt htype
      have hpos : entry.cost ≠ 0 := by
        intro hzero
        obtain ⟨_, ⟨⟩, hne⟩ := hok hzero
        exact hne htype
      have hrange := h _ info hlookup htype
      show 1 ≤ entry.cost ∧ entry.cost ≤ 15
      omega

theorem InRange.step_iff (h : InRange table)
    (hstep : lockedStep table e = some table') : InRange table' ↔ NoWrap table e := by
  cases e with
  | entry now hop entry =>
    cases hstep
    exact h.learn_iff
  | collect now =>
    cases hstep
    exact iff_of_true (collect_keeps h) trivial

end Costs

/-- The cost of the route for a prefix; no route costs 16. -/
def tableCost (table : Table A) (pre : Prefix) : ℕ :=
  match table.lookup pre with
  | some info => info.cost
  | none => infty

def costAfter (hop : A) (cost : ℕ) : Option (ForwardingInfo A) → ℕ
  | none => cost
  | some info =>
      if cost ≤ info.cost then cost else if hop = info.next then infty else info.cost

theorem tableCost_learn (now : ℕ) (hop : A) (table : Table A) (entry : RipUpdate) :
    tableCost (learn now hop table entry) entry.pre =
      costAfter hop entry.cost (table.lookup entry.pre) := by
  unfold learn Update.receiveEntry
  cases hlookup : table.lookup entry.pre with
  | none =>
    by_cases hcost : entry.cost = infty
    · simp [judge, hcost, Update.apply, tableCost, costAfter, hlookup]
    · simp [judge, hcost, Update.apply, tableCost, costAfter]
  | some info =>
    rcases Nat.lt_trichotomy entry.cost info.cost with hlt | heq | hgt
    · simp [judge, hlt, hlt.le, Update.apply, tableCost, costAfter]
    · by_cases hhop : hop = info.next
      · simp [judge, heq, hhop, Update.apply, tableCost, costAfter]
      · simp [judge, heq, hhop, Update.apply, tableCost, costAfter, hlookup]
    · by_cases hhop : hop = info.next
      · simp [judge, hgt, hgt.not_gt, hhop, hgt.not_ge, Update.apply, tableCost, costAfter]
      · simp [judge, hgt, hgt.not_gt, hhop, hgt.not_ge, Update.apply, tableCost, costAfter, hlookup]

/-- A cost that does not wrap around gives a higher one the larger it is. -/
theorem cost_mono {first second : RipUpdate} (hle : first.Cost ≤ second.Cost)
    (hsecond : second.Cost ≠ 4294967295) : first.cost ≤ second.cost := by
  have hnat : first.Cost.toNat ≤ second.Cost.toNat := hle
  have hlt := second.Cost.toNat_lt
  have hne : second.Cost.toNat ≠ 4294967295 := fun heq => hsecond (UInt32.toNat_inj.mp heq)
  have hone : (1 : UInt32).toNat = 1 := rfl
  unfold RipUpdate.cost
  rw [UInt32.toNat_add, UInt32.toNat_add, hone, Nat.mod_eq_of_lt (by omega),
    Nat.mod_eq_of_lt (by omega)]
  simp only [infty]
  omega

theorem costAfter_mono (hop : A) {route : Option (ForwardingInfo A)} {c c' : ℕ}
    (hroute : ∀ info ∈ route, info.cost ≤ infty) (hle : c ≤ c') :
    costAfter hop c route ≤ costAfter hop c' route := by
  cases route with
  | none => exact hle
  | some info =>
    have hinfo := hroute info rfl
    simp only [costAfter]
    split
    · split
      · exact hle
      · split <;> omega
    · rw [if_neg (show ¬ c' ≤ info.cost by omega)]

theorem costAfter_eq_zero_iff (hop : A) (route : Option (ForwardingInfo A)) {c : ℕ} :
    costAfter hop c route = 0 ↔ c = 0 ∨ ∃ info ∈ route, info.cost = 0 ∧ hop ≠ info.next := by
  cases route with
  | none => simp [costAfter]
  | some info =>
    simp only [costAfter, Option.mem_def, Option.some.injEq, exists_eq_left']
    split
    · exact ⟨Or.inl, fun h => by omega⟩
    · split
      · next hhop => simp [hhop]; omega
      · next hhop => simp [hhop]; omega

/-- A larger cost for the same prefix from the same hop gives no smaller cost in the table,
except where it wraps around. -/
theorem tableCost_mono_iff {now : ℕ} {hop : A} {table : Table A} (hfree : Free table)
    (h : InRange table) {addr mask a b : UInt32} (hab : a ≤ b) :
    let pre := RipUpdate.pre ⟨a, addr, mask⟩
    tableCost (learn now hop table ⟨a, addr, mask⟩) pre ≤
        tableCost (learn now hop table ⟨b, addr, mask⟩) pre ↔
      (b = 4294967295 → a = 4294967295 ∨
        ∃ info ∈ table.lookup pre, info.route_type ≠ .R ∧ hop ≠ info.next) := by
  intro pre
  have hcost : ∀ info ∈ table.lookup pre, info.cost ≤ infty ∧
      (info.cost = 0 ↔ info.route_type ≠ .R) := by
    intro info hinfo
    by_cases htype : info.route_type = .R
    · have hrange := h pre info hinfo htype
      exact ⟨by simp only [infty]; omega, iff_of_false (by omega) (by simpa)⟩
    · have hzero := hfree pre info hinfo htype
      exact ⟨by omega, iff_of_true hzero htype⟩
  have hfirst : tableCost (learn now hop table ⟨a, addr, mask⟩) pre = _ := tableCost_learn ..
  have hsecond : tableCost (learn now hop table ⟨b, addr, mask⟩) pre = _ := tableCost_learn ..
  rw [hfirst, hsecond]
  by_cases hb : b = 4294967295
  · have hzero : costAfter hop (RipUpdate.cost ⟨b, addr, mask⟩) (table.lookup pre) = 0 :=
      (costAfter_eq_zero_iff ..).mpr (Or.inl ((cost_eq_zero_iff _).mpr hb))
    change _ ≤ costAfter hop _ (table.lookup pre) ↔ _
    rw [hzero, Nat.le_zero, costAfter_eq_zero_iff, cost_eq_zero_iff, forall_prop_of_true hb]
    refine or_congr Iff.rfl (exists_congr fun info => and_congr_right fun hinfo => ?_)
    rw [(hcost info hinfo).2]
  · exact iff_of_true (costAfter_mono hop (fun info hinfo => (hcost info hinfo).1)
      (cost_mono hab hb)) (fun h => absurd h hb)

/-- In every run in which no entry wraps around, learned routes cost between 1 and 15; a
change that wraps around breaks this, and only there a larger advertised cost can give a
smaller cost in the table. -/
theorem learned_costs_in_range (config : Config A) (table : Table A)
    (h : Reach lockedStep NoWrap (initialTable config) table) :
    InRange table ∧
      (∀ e table', lockedStep table e = some table' → (InRange table' ↔ NoWrap table e)) ∧
      ∀ (now : ℕ) (hop : A) (addr mask a b : UInt32), a ≤ b →
        let pre := RipUpdate.pre ⟨a, addr, mask⟩
        (tableCost (learn now hop table ⟨a, addr, mask⟩) pre ≤
            tableCost (learn now hop table ⟨b, addr, mask⟩) pre ↔
          (b = 4294967295 → a = 4294967295 ∨
            ∃ info ∈ table.lookup pre, info.route_type ≠ .R ∧ hop ≠ info.next)) := by
  have hinv : Free table ∧ InRange table :=
    h.invariant (fun table => Free table ∧ InRange table)
      ⟨free_start config, inRange_start config⟩ fun _ _ _ hinv hok hstep =>
        ⟨hinv.1.step hstep, (hinv.2.step_iff hstep).mpr hok⟩
  exact ⟨hinv.2, fun _ _ hstep => hinv.2.step_iff hstep,
    fun _ _ _ _ _ _ hab => tableCost_mono_iff hinv.1 hinv.2 hab⟩

/-- A route is learned, improved and refreshed; the configured ones take a wrapped cost. -/
theorem learned_costs_in_range_improved :
    ∃ table, Reach lockedStep NoWrap (initialTable sampleConfig) table ∧
      tableCost table ⟨0, 0, by decide⟩ = 3 ∧ InRange table := by
  obtain ⟨table, hreach, hcost⟩ := exists_reach lockedStep NoWrap (initialTable sampleConfig)
    (fun table => tableCost table ⟨0, 0, by decide⟩ = 3)
    [.entry 5 2 ⟨7, 0, 0⟩, .entry 6 3 ⟨2, 0, 0⟩, .entry 7 3 ⟨2, 0, 0⟩,
      .entry 8 1 (sampleEntry 4294967295), .collect 9] (by decide)
  exact ⟨table, hreach, hcost, (learned_costs_in_range sampleConfig table hreach).1⟩

/-- The largest cost is learned as 0, below what any other cost gives. -/
theorem wrapped_cost_learned :
    ¬ ∀ (config : Config ℕ) (table : Table ℕ),
      Reach lockedStep (fun _ _ => True) (initialTable config) table →
      InRange table ∧ ∀ (now hop : ℕ) (addr mask a b : UInt32), a ≤ b →
        tableCost (learn now hop table ⟨a, addr, mask⟩) (RipUpdate.pre ⟨a, addr, mask⟩) ≤
          tableCost (learn now hop table ⟨b, addr, mask⟩) (RipUpdate.pre ⟨a, addr, mask⟩) := by
  intro hclaim
  obtain ⟨table, hreach, hlearned⟩ := exists_reach lockedStep (fun _ _ => True)
    (initialTable sampleConfig)
    (fun table => table.lookup ⟨0, 0, by decide⟩ = some ⟨.R, 2, ⟨0, 0, by decide⟩, 0, 5⟩)
    [.entry 5 2 ⟨4294967295, 0, 0⟩] (by decide)
  exact absurd ((hclaim sampleConfig table hreach).1 _ _ hlearned rfl).1 (by decide)

end IpTcp.Rip
