import IpTcp.DistanceVector
import IpTcp.RipResponse
import IpTcp.Runs

/-!
The costs that nodes hold are lengths of real paths. A handler works on its entries
one by one under the lock of its node, but sends without it and through pointers, so
that its messages may carry any value that a route of the node has had. The network
here therefore sends, at any time, any such values, and hands every entry that was
ever sent to its receiver any number of times and in any order. The handlers of the
node are runs of these steps.
-/
namespace IpTcp.Rip

open Runs

/-- The links between nodes, the address of the first node's interface on its link to the
second, and the configuration of each node. -/
structure Topology (V A : Type*) where
  graph : SimpleGraph V
  addr : V → V → A
  config : V → Config A

/-- `known` lists the values that the routes of a node have had, `sent` the entries that
went from one node to another. -/
structure Internet (V A : Type*) where
  table : V → Table A
  known : V → List (Prefix × ForwardingInfo A)
  sent : List (V × V × RipUpdate)

inductive NetEvent (V A : Type*)
  | send (v u : V) (subset : Table A)
  | entry (now : ℕ) (v u : V) (entry : RipUpdate)
  | collect (now : ℕ) (u : V)
  | expire (now : ℕ) (u : V) (pre : Prefix)

variable {V A : Type*}

def routes (table : Table A) : List (Prefix × ForwardingInfo A) :=
  table.entries.map fun route => (route.1, route.2)

theorem mem_routes {table : Table A} {pre : Prefix} {info : ForwardingInfo A} :
    (pre, info) ∈ routes table ↔ table.lookup pre = some info := by
  unfold routes
  rw [List.mem_map]
  constructor
  · rintro ⟨⟨pre', info'⟩, hmem, heq⟩
    cases heq
    exact AList.mem_lookup_iff.mpr hmem
  · intro hlookup
    exact ⟨⟨pre, info⟩, AList.mem_lookup_iff.mp hlookup, rfl⟩

def expireRoute (now : ℕ) (table : Table A) (pre : Prefix) : Update A :=
  match table.lookup pre with
  | some info => collect now ⟨table, ∅⟩ pre info
  | none => ⟨table, ∅⟩

namespace Internet

def start (net : Topology V A) : Internet V A where
  table u := initialTable (net.config u)
  known u := routes (initialTable (net.config u))
  sent := []

/-- sendRIP reads the cost of a route and then its next hop, so that they may belong to two
of its values. -/
def Readable (s : Internet V A) (v : V) (route : Prefix × ForwardingInfo A) : Prop :=
  ∃ old ∈ s.known v, ∃ new ∈ s.known v, old.1 = route.1 ∧ new.1 = route.1 ∧
    route.2 = { old.2 with next := new.2.next }

theorem readable_of_known {s : Internet V A} {v : V} {route : Prefix × ForwardingInfo A}
    (h : route ∈ s.known v) : s.Readable v route :=
  ⟨route, h, route, h, rfl, rfl, rfl⟩

variable [DecidableEq V] [DecidableEq A]

instance (s : Internet V A) (v : V) (route : Prefix × ForwardingInfo A) :
    Decidable (s.Readable v route) :=
  inferInstanceAs (Decidable (∃ old ∈ s.known v, ∃ new ∈ s.known v, old.1 = route.1 ∧
    new.1 = route.1 ∧ route.2 = { old.2 with next := new.2.next }))

def update (s : Internet V A) (u : V) (result : Update A) : Internet V A :=
  { s with
    table := Function.update s.table u result.table
    known := Function.update s.known u (s.known u ++ routes result.triggered) }

variable (net : Topology V A) [DecidableRel net.graph.Adj]

/-- A node sends values of its routes to a neighbour, or works on a received entry with the
address of its sender as the hop, or collects its expired routes, all at once or one. -/
def step (s : Internet V A) : NetEvent V A → Option (Internet V A)
  | .send v u subset =>
      if net.graph.Adj v u ∧ ∀ route ∈ routes subset, s.Readable v route then
        some { s with sent := s.sent ++ (sendRIP (net.addr u v) subset).map fun e => (v, u, e) }
      else none
  | .entry now v u e =>
      if (v, u, e) ∈ s.sent then
        some (s.update u (Update.receiveEntry now (net.addr v u) ⟨s.table u, ∅⟩ e))
      else none
  | .collect now u => some (s.update u (garbageCollector now (s.table u)))
  | .expire now u pre => some (s.update u (expireRoute now (s.table u) pre))

end Internet

namespace Topology

variable (net : Topology V A)

def Origin (pre : Prefix) (o : V) : Prop :=
  ∃ key info, (initialTable (net.config o)).lookup key = some info ∧ key.masked = pre

def Near (pre : Prefix) (n : ℕ) (u : V) : Prop :=
  DistanceVector.Within net.graph (net.Origin pre) n u

end Topology

/-- What a round of the collector leaves was there before, and what it advertises is an old
route with infinite cost. -/
structure Collected (before : Table A) (u : Update A) : Prop where
  table : ∀ pre info, u.table.lookup pre = some info → before.lookup pre = some info
  triggered : ∀ pre info, u.triggered.lookup pre = some info →
    ∃ old, before.lookup pre = some old ∧ info = { old with cost := infty }

theorem Collected.collect {table : Table A} {u : Update A} (h : Collected table u) (now : ℕ)
    {pre : Prefix} {info : ForwardingInfo A} (hinfo : table.lookup pre = some info) :
    Collected table (Rip.collect now u pre info) := by
  unfold Rip.collect
  split
  · refine ⟨?_, ?_⟩
    · intro pre' info' hinfo'
      by_cases hpre : pre' = pre
      · subst hpre
        simp [Update.apply] at hinfo'
      · simp only [Update.apply, AList.lookup_erase_ne hpre] at hinfo'
        exact h.table pre' info' hinfo'
    · intro pre' info' hinfo'
      by_cases hpre : pre' = pre
      · subst hpre
        simp only [Update.apply, AList.lookup_insert, Option.some.injEq] at hinfo'
        exact ⟨info, hinfo, hinfo'.symm⟩
      · simp only [Update.apply, AList.lookup_insert_ne hpre] at hinfo'
        exact h.triggered pre' info' hinfo'
  · exact h

theorem Collected.start (table : Table A) : Collected table ⟨table, ∅⟩ :=
  ⟨fun _ _ h => h, by simp⟩

theorem expireRoute_collected (now : ℕ) (table : Table A) (pre : Prefix) :
    Collected table (expireRoute now table pre) := by
  unfold expireRoute
  split
  · next info hinfo => exact (Collected.start table).collect now hinfo
  · exact .start table

theorem garbageCollector_collected (now : ℕ) (table : Table A) :
    Collected table (garbageCollector now table) := by
  have hfold : ∀ (l : List (Sigma fun _ : Prefix => ForwardingInfo A)) (u : Update A),
      (∀ route ∈ l, table.lookup route.1 = some route.2) → Collected table u →
      Collected table (l.foldl (fun u route => Rip.collect now u route.1 route.2) u) := by
    intro l
    induction l with
    | nil => exact fun _ _ h => h
    | cons route l ih =>
      intro u hl h
      rw [List.forall_mem_cons] at hl
      exact ih _ hl.2 (h.collect now hl.1)
  exact hfold table.entries _ (fun _ hroute => AList.mem_lookup_iff.mpr hroute) (.start table)

section Sound

variable (net : Topology V A)

structure RouteSound (u : V) (pre : Prefix) (info : ForwardingInfo A) : Prop where
  key : info.pre = pre
  cost_le : info.cost ≤ infty
  near : info.cost < infty → net.Near pre.masked info.cost u

structure EntrySound (v : V) (entry : RipUpdate) : Prop where
  cost_le : entry.Cost.toNat ≤ infty
  near : entry.Cost.toNat < infty → net.Near entry.pre.masked entry.Cost.toNat v

/-- All values that routes have had and all entries that were sent are sound, and the routes
in the tables have finite costs. -/
structure Sound (s : Internet V A) : Prop where
  table : ∀ u pre info, (s.table u).lookup pre = some info →
    RouteSound net u pre info ∧ info.cost < infty
  known : ∀ u pre info, (pre, info) ∈ s.known u → RouteSound net u pre info
  sent : ∀ v u entry, (v, u, entry) ∈ s.sent → net.graph.Adj v u ∧ EntrySound net v entry

variable {net} {u v : V} {pre : Prefix} {info : ForwardingInfo A} {entry : RipUpdate}

/-- The receiver of an entry makes the masked prefix of it. -/
theorem ripEntry_pre [DecidableEq A] (dst : A) (hpre : info.pre = pre) :
    (ripEntry dst pre info).pre = pre.masked := by
  simp only [ripEntry, RipUpdate.pre, Prefix.masked, hpre, popcount_cidrMask _ pre.bits_le]

theorem ripEntry_cost [DecidableEq A] (dst : A) (pre : Prefix) (hlt : info.cost < 4294967296) :
    (ripEntry dst pre info).Cost.toNat = if dst = info.next then infty else info.cost := by
  have hcost : (UInt32.ofNat info.cost).toNat = info.cost := UInt32.toNat_ofNat_of_lt' hlt
  unfold ripEntry
  split
  · rfl
  · exact hcost

/-- Costs up to the infinite one do not wrap around. -/
theorem cost_eq_metric_of_le (hle : entry.Cost.toNat ≤ infty) : entry.cost = entry.metric := by
  refine cost_eq_metric ?_
  intro hmax
  rw [hmax] at hle
  exact absurd hle (by decide)

theorem RouteSound.ripEntry [DecidableEq A] (h : RouteSound net u pre info) (dst : A) :
    EntrySound net u (ripEntry dst pre info) := by
  have hcost := ripEntry_cost dst pre (h.cost_le.trans_lt (by decide))
  have hpre := ripEntry_pre dst h.key
  constructor
  · rw [hcost]
    split
    · exact Nat.le_refl _
    · exact h.cost_le
  · rw [hcost, hpre, Prefix.masked_masked]
    split
    · exact fun hlt => absurd hlt (Nat.lt_irrefl _)
    · exact h.near

/-- The cost that the receiver makes of a sound entry is one link more. -/
theorem EntrySound.cost (h : EntrySound net v entry) (hadj : net.graph.Adj v u)
    (hlt : entry.cost < infty) : net.Near entry.pre.masked entry.cost u := by
  rw [cost_eq_metric_of_le h.cost_le] at hlt ⊢
  unfold RipUpdate.metric at hlt ⊢
  have hplus : min (entry.Cost.toNat + 1) infty = entry.Cost.toNat + 1 := by omega
  rw [hplus]
  exact DistanceVector.Within.cons (h.near (by omega)) hadj

structure UpdateSound (net : Topology V A) (u : V) (result : Update A) : Prop where
  table : ∀ pre info, result.table.lookup pre = some info →
    RouteSound net u pre info ∧ info.cost < infty
  triggered : ∀ pre info, result.triggered.lookup pre = some info → RouteSound net u pre info

def RouteChange.SoundAt (net : Topology V A) (u : V) (pre : Prefix) : RouteChange A → Prop
  | .unchanged => True
  | .stored info => RouteSound net u pre info ∧ info.cost < infty
  | .deleted info => RouteSound net u pre info

theorem UpdateSound.apply {result : Update A} (h : UpdateSound net u result)
    {change : RouteChange A} (hchange : change.SoundAt net u pre) :
    UpdateSound net u (result.apply pre change) := by
  cases change with
  | unchanged => exact h
  | stored info =>
    exact ⟨forall_lookup_insert h.table hchange, forall_lookup_insert h.triggered hchange.1⟩
  | deleted info =>
    exact ⟨forall_lookup_erase pre h.table, forall_lookup_insert h.triggered hchange⟩

variable [DecidableEq A]

/-- The branches of the handler, for a sound entry of a neighbour. -/
theorem judge_soundAt {now : ℕ} {hop : A} {cost : ℕ} {route : Option (ForwardingInfo A)}
    (hroute : ∀ info, route = some info → RouteSound net u pre info ∧ info.cost < infty)
    (hle : cost ≤ infty) (hnear : cost < infty → net.Near pre.masked cost u) :
    (judge now hop pre cost route).SoundAt net u pre := by
  refine judge_rule (RouteChange.SoundAt net u pre) trivial ?_ ?_ ?_ ?_
  · exact fun _ hne => ⟨⟨rfl, hle, hnear⟩, Nat.lt_of_le_of_ne hle hne⟩
  · intro info hinfo hlower
    obtain ⟨hsound, hlt⟩ := hroute info hinfo
    exact ⟨⟨hsound.key, hle, hnear⟩, Nat.lt_trans hlower hlt⟩
  · exact fun info hinfo _ _ => ⟨(hroute info hinfo).1.key, hle, hnear⟩
  · intro info hinfo _ _
    obtain ⟨hsound, hlt⟩ := hroute info hinfo
    exact ⟨⟨hsound.key, hsound.cost_le, hsound.near⟩, hlt⟩

end Sound

namespace Sound

variable {net : Topology V A} {s s' : Internet V A}

theorem start (net : Topology V A) : Sound net (Internet.start net) := by
  have hinitial : ∀ u pre info, (initialTable (net.config u)).lookup pre = some info →
      RouteSound net u pre info ∧ info.cost < infty := by
    intro u pre info hinfo
    obtain ⟨hzero, -, hkey⟩ := initialTable_installed hinfo
    have horigin : net.Near pre.masked info.cost u :=
      ⟨u, ⟨pre, info, hinfo, rfl⟩, .nil, Nat.zero_le _⟩
    refine ⟨⟨hkey, ?_, fun _ => horigin⟩, ?_⟩
    · rw [hzero]
      decide
    · rw [hzero]
      decide
  refine ⟨hinitial, ?_, by simp [Internet.start]⟩
  intro u pre info hknown
  exact (hinitial u pre info (mem_routes.mp hknown)).1

/-- What the collector does is sound. -/
theorem collected (h : Sound net s) {u : V} {result : Update A}
    (hcollected : Collected (s.table u) result) : UpdateSound net u result := by
  refine ⟨?_, ?_⟩
  · exact fun pre info hlookup => h.table u pre info (hcollected.table pre info hlookup)
  · intro pre info hlookup
    obtain ⟨old, hold, rfl⟩ := hcollected.triggered pre info hlookup
    exact ⟨(h.table u pre old hold).1.key, Nat.le_refl _, fun hlt => absurd hlt (lt_irrefl _)⟩

variable [DecidableEq V]

/-- The result of a sound update at a node is taken over. -/
theorem update (h : Sound net s) {u : V} {result : Update A} (hresult : UpdateSound net u result) :
    Sound net (s.update u result) := by
  refine ⟨?_, ?_, h.sent⟩
  · intro w pre info hlookup
    by_cases hw : w = u
    · subst hw
      simp only [Internet.update, Function.update_self] at hlookup
      exact hresult.table pre info hlookup
    · simp only [Internet.update, Function.update_of_ne hw] at hlookup
      exact h.table w pre info hlookup
  · intro w pre info hknown
    by_cases hw : w = u
    · subst hw
      simp only [Internet.update, Function.update_self, List.mem_append] at hknown
      rcases hknown with hold | hnew
      · exact h.known w pre info hold
      · exact hresult.triggered pre info (mem_routes.mp hnew)
    · simp only [Internet.update, Function.update_of_ne hw] at hknown
      exact h.known w pre info hknown

variable [DecidableEq A] [DecidableRel net.graph.Adj]

theorem step (h : Sound net s) {e : NetEvent V A} (hstep : s.step net e = some s') :
    Sound net s' := by
  cases e with
  | send v u subset =>
    simp only [Internet.step] at hstep
    split at hstep
    · rename_i hsend
      cases hstep
      refine ⟨h.table, h.known, ?_⟩
      intro v' u' entry hentry
      rcases List.mem_append.mp hentry with hold | hnew
      · exact h.sent v' u' entry hold
      · obtain ⟨e, he, heq⟩ := List.mem_map.mp hnew
        cases heq
        obtain ⟨⟨pre, info⟩, hmem, rfl⟩ := List.mem_map.mp he
        obtain ⟨⟨key, old⟩, hold, new, -, rfl, -, rfl⟩ :=
          hsend.2 (pre, info) (mem_routes.mpr (AList.mem_lookup_iff.mpr hmem))
        have hsound := h.known v key old hold
        have hread : RouteSound net v key { old with next := new.2.next } :=
          ⟨hsound.key, hsound.cost_le, hsound.near⟩
        exact ⟨hsend.1, hread.ripEntry _⟩
    · contradiction
  | entry now v u e =>
    simp only [Internet.step] at hstep
    split at hstep
    · rename_i hmem
      cases hstep
      obtain ⟨hadj, hentry⟩ := h.sent v u e hmem
      have hbefore : UpdateSound net u ⟨s.table u, ∅⟩ := ⟨h.table u, by simp⟩
      refine h.update (hbefore.apply ?_)
      exact judge_soundAt (h.table u e.pre) (Nat.min_le_right _ _) (hentry.cost hadj)
    · contradiction
  | collect now u =>
    cases hstep
    exact h.update (h.collected (garbageCollector_collected now (s.table u)))
  | expire now u pre =>
    cases hstep
    exact h.update (h.collected (expireRoute_collected now (s.table u) pre))

end Sound

section Handlers

variable {net : Topology V A} {s : Internet V A} {u v : V}

theorem apply_table_eq (table triggered triggered' : Table A) (pre : Prefix)
    (change : RouteChange A) :
    (Update.apply ⟨table, triggered⟩ pre change).table =
      (Update.apply ⟨table, triggered'⟩ pre change).table := by
  cases change with
  | unchanged => rfl
  | stored info => rfl
  | deleted info => rfl

theorem mem_routes_apply {table triggered : Table A} {pre : Prefix} {change : RouteChange A}
    {route : Prefix × ForwardingInfo A}
    (h : route ∈ routes (Update.apply ⟨table, triggered⟩ pre change).triggered) :
    route ∈ routes triggered ∨ route ∈ routes (Update.apply ⟨table, ∅⟩ pre change).triggered := by
  obtain ⟨key, info⟩ := route
  simp only [mem_routes] at h ⊢
  have hinsert : ∀ info', (triggered.insert pre info').lookup key = some info →
      triggered.lookup key = some info ∨
        ((∅ : Table A).insert pre info').lookup key = some info := by
    intro info' hlookup
    by_cases hkey : key = pre
    · subst hkey
      rw [AList.lookup_insert] at hlookup ⊢
      exact Or.inr hlookup
    · rw [AList.lookup_insert_ne hkey] at hlookup
      exact Or.inl hlookup
  cases change with
  | unchanged => exact Or.inl h
  | stored info' => exact hinsert info' h
  | deleted info' => exact hinsert info' h

variable [DecidableEq V]

def Internet.Recorded (s : Internet V A) : Prop :=
  ∀ u route, route ∈ routes (s.table u) → route ∈ s.known u

/-- An update at a node whose new routes are all among the triggered ones. -/
theorem Internet.Recorded.update (h : s.Recorded) {result : Update A}
    (hresult : ∀ route ∈ routes result.table,
      route ∈ s.known u ∨ route ∈ routes result.triggered) :
    (s.update u result).Recorded := by
  intro w route hroute
  by_cases hw : w = u
  · subst hw
    simp only [Internet.update, Function.update_self] at hroute ⊢
    exact List.mem_append.mpr (hresult route hroute)
  · simp only [Internet.update, Function.update_of_ne hw] at hroute ⊢
    exact h w route hroute

theorem Internet.Recorded.collected (h : s.Recorded) {result : Update A}
    (hcollected : Collected (s.table u) result) : (s.update u result).Recorded := by
  refine h.update ?_
  rintro ⟨key, info⟩ hroute
  have hbefore := hcollected.table key info (mem_routes.mp hroute)
  exact Or.inl (h u _ (mem_routes.mpr hbefore))

variable [DecidableEq A] [DecidableRel net.graph.Adj]

theorem Internet.Recorded.step (h : s.Recorded) {e : NetEvent V A} {s' : Internet V A}
    (hstep : s.step net e = some s') : s'.Recorded := by
  cases e with
  | send v u subset =>
    simp only [Internet.step] at hstep
    split at hstep
    · cases hstep
      exact h
    · contradiction
  | entry now v u e =>
    simp only [Internet.step] at hstep
    split at hstep
    · cases hstep
      refine h.update ?_
      rintro ⟨key, info⟩ hroute
      unfold Update.receiveEntry at hroute ⊢
      generalize judge now (net.addr v u) e.pre e.cost _ = change at hroute ⊢
      by_cases hkey : key = e.pre
      · subst hkey
        cases change with
        | unchanged => exact Or.inl (h u _ hroute)
        | stored info' =>
          simp only [Update.apply, mem_routes, AList.lookup_insert] at hroute ⊢
          exact Or.inr hroute
        | deleted info' => simp [Update.apply, mem_routes] at hroute
      · rw [mem_routes, apply_lookup_ne hkey] at hroute
        exact Or.inl (h u _ (mem_routes.mpr hroute))
    · contradiction
  | collect now u =>
    cases hstep
    exact h.collected (garbageCollector_collected now (s.table u))
  | expire now u pre =>
    cases hstep
    exact h.collected (expireRoute_collected now (s.table u) pre)

variable (net)

/-- The loop of the handler over the entries of a response is a run. -/
theorem entries_reach (now : ℕ) {entries : List RipUpdate} (triggered : Table A)
    (hsent : ∀ e ∈ entries, (v, u, e) ∈ s.sent)
    (hknown : ∀ route ∈ routes triggered, route ∈ s.known u) :
    ∃ s', Reach (Internet.step net) (fun _ _ => True) s s' ∧
      s'.table = Function.update s.table u (entries.foldl
        (Update.receiveEntry now (net.addr v u)) ⟨s.table u, triggered⟩).table ∧
      ∀ route ∈ routes (entries.foldl
        (Update.receiveEntry now (net.addr v u)) ⟨s.table u, triggered⟩).triggered,
        route ∈ s'.known u := by
  induction entries generalizing s triggered with
  | nil => exact ⟨s, .refl, (Function.update_eq_self u s.table).symm, hknown⟩
  | cons e entries ih =>
    rw [List.forall_mem_cons] at hsent
    let change := judge now (net.addr v u) e.pre e.cost ((s.table u).lookup e.pre)
    let s₁ := s.update u (Update.apply ⟨s.table u, ∅⟩ e.pre change)
    have hstep : s.step net (.entry now v u e) = some s₁ := if_pos hsent.1
    have htable : s₁.table u = (Update.apply ⟨s.table u, triggered⟩ e.pre change).table := by
      rw [apply_table_eq _ triggered ∅]
      exact Function.update_self ..
    have hfirst : ∀ route ∈ routes (Update.apply ⟨s.table u, triggered⟩ e.pre change).triggered,
        route ∈ s₁.known u := by
      intro route hroute
      have hknown₁ : s₁.known u = s.known u ++
          routes (Update.apply ⟨s.table u, ∅⟩ e.pre change).triggered :=
        Function.update_self ..
      rw [hknown₁, List.mem_append]
      exact (mem_routes_apply hroute).imp_left (hknown route)
    obtain ⟨s', hreach, htable', hknown'⟩ := ih (s := s₁) _ hsent.2 hfirst
    rw [htable] at htable' hknown'
    refine ⟨s', (Reach.tail _ .refl trivial hstep).trans hreach, ?_, hknown'⟩
    rw [htable']
    exact Function.update_idem ..

/-- Sending known values of routes to some neighbours is a run. -/
theorem sends_reach {subset : Table A} (hknown : ∀ route ∈ routes subset, route ∈ s.known u)
    {neighbors : List V} (hadj : ∀ w ∈ neighbors, net.graph.Adj u w) :
    ∃ s', Reach (Internet.step net) (fun _ _ => True) s s' ∧ s'.table = s.table ∧
      (∀ e ∈ s.sent, e ∈ s'.sent) ∧
      ∀ w ∈ neighbors, ∀ e ∈ sendRIP (net.addr w u) subset, (u, w, e) ∈ s'.sent := by
  induction neighbors generalizing s with
  | nil => exact ⟨s, .refl, rfl, fun _ h => h, by simp⟩
  | cons w neighbors ih =>
    rw [List.forall_mem_cons] at hadj
    let s₁ : Internet V A :=
      { s with sent := s.sent ++ (sendRIP (net.addr w u) subset).map fun e => (u, w, e) }
    have hstep : s.step net (.send u w subset) = some s₁ :=
      if_pos ⟨hadj.1, fun route hroute => Internet.readable_of_known (hknown route hroute)⟩
    obtain ⟨s', hreach, htable, hold, hnew⟩ := ih (s := s₁) hknown hadj.2
    refine ⟨s', (Reach.tail _ .refl trivial hstep).trans hreach, htable, ?_, ?_⟩
    · exact fun e he => hold e (List.mem_append_left _ he)
    · rw [List.forall_mem_cons]
      refine ⟨fun e he => hold _ (List.mem_append_right _ ?_), hnew⟩
      exact List.mem_map_of_mem he

/-- The handler of a response, undisturbed, is a run: its table comes about and what it sends
is sent. -/
theorem response_reach (now : ℕ) {entries : List RipUpdate}
    (hsent : ∀ e ∈ entries, (v, u, e) ∈ s.sent) {neighbors : List V}
    (hadj : ∀ w ∈ neighbors, net.graph.Adj u w) :
    ∃ s', Reach (Internet.step net) (fun _ _ => True) s s' ∧
      s'.table = Function.update s.table u (protocol200 now
        (neighbors.map fun w => net.addr w u) (s.table u) (net.addr v u) (.response entries)).1 ∧
      ∀ w ∈ neighbors, ∀ e ∈ sendRIP (net.addr w u)
        (receiveResponse now (net.addr v u) (s.table u) entries).triggered,
        (u, w, e) ∈ s'.sent := by
  obtain ⟨s₁, hreach₁, htable₁, hknown₁⟩ := entries_reach net now ∅ hsent (by simp [routes])
  obtain ⟨s', hreach, htable, -, hnew⟩ := sends_reach net hknown₁ hadj
  exact ⟨s', hreach₁.trans hreach, htable.trans htable₁, hnew⟩

/-- In every reachable state the whole table of a node can be sent to its neighbours, as a
periodic update and the answer to a request do. -/
theorem table_reach (h : Reach (Internet.step net) (fun _ _ => True) (Internet.start net) s)
    {neighbors : List V} (hadj : ∀ w ∈ neighbors, net.graph.Adj u w) :
    ∃ s', Reach (Internet.step net) (fun _ _ => True) s s' ∧ s'.table = s.table ∧
      ∀ w ∈ neighbors, ∀ e ∈ sendRIP (net.addr w u) (s.table u), (u, w, e) ∈ s'.sent := by
  have hrecorded : s.Recorded := h.invariant Internet.Recorded (fun _ _ hroute => hroute)
    (fun _ _ _ hrecorded _ hnext => hrecorded.step hnext)
  obtain ⟨s', hreach, htable, -, hnew⟩ := sends_reach net (hrecorded u) hadj
  exact ⟨s', hreach, htable, hnew⟩

/-- A round of the garbage collector with its updates is a run. -/
theorem collect_reach (now : ℕ) {neighbors : List V} (hadj : ∀ w ∈ neighbors, net.graph.Adj u w) :
    ∃ s', Reach (Internet.step net) (fun _ _ => True) s s' ∧
      s'.table = Function.update s.table u (garbageCollector now (s.table u)).table ∧
      ∀ w ∈ neighbors, ∀ e ∈ sendRIP (net.addr w u) (garbageCollector now (s.table u)).triggered,
        (u, w, e) ∈ s'.sent := by
  let s₁ := s.update u (garbageCollector now (s.table u))
  have hknown : ∀ route ∈ routes (garbageCollector now (s.table u)).triggered,
      route ∈ s₁.known u := by
    intro route hroute
    have hknown₁ : s₁.known u = s.known u ++ routes (garbageCollector now (s.table u)).triggered :=
      Function.update_self ..
    rw [hknown₁]
    exact List.mem_append_right _ hroute
  obtain ⟨s', hreach, htable, -, hnew⟩ := sends_reach net hknown hadj
  exact ⟨s', (Reach.tail (.collect now u) .refl trivial rfl).trans hreach, htable, hnew⟩

end Handlers

/-- Every route in a table has a cost of at most 15, and within so many links there is a node
that started with a local or static route for its prefix. -/
theorem rip_costs_sound [DecidableEq V] [DecidableEq A] (net : Topology V A)
    [DecidableRel net.graph.Adj] (s : Internet V A)
    (h : Reach (Internet.step net) (fun _ _ => True) (Internet.start net) s) (u : V)
    (pre : Prefix) (info : ForwardingInfo A) (hinfo : (s.table u).lookup pre = some info) :
    info.cost ≤ 15 ∧ net.Near pre.masked info.cost u := by
  have hsound : Sound net s := h.invariant (Sound net) (Sound.start net)
    (fun _ _ _ hsound _ hnext => hsound.step hnext)
  obtain ⟨hroute, hlt⟩ := hsound.table u pre info hinfo
  exact ⟨Nat.le_of_lt_succ hlt, hroute.near hlt⟩

def samplePair : Topology Bool ℕ where
  graph := ⊤
  addr v _ := if v then 1 else 2
  config u := ⟨[], if u then [(1, samplePrefix)] else []⟩

instance : DecidableRel samplePair.graph.Adj :=
  inferInstanceAs (DecidableRel fun a b : Bool => a ≠ b)

/-- The second node learns the prefix of the first. -/
theorem rip_costs_sound_learned :
    ∃ s, Reach (Internet.step samplePair) (fun _ _ => True) (Internet.start samplePair) s ∧
      ∃ info, (s.table false).lookup samplePrefix = some info ∧
        info.cost ≤ 15 ∧ samplePair.Near samplePrefix.masked info.cost false := by
  obtain ⟨s, hreach, hlookup⟩ := exists_reach (Internet.step samplePair) (fun _ _ => True)
    (Internet.start samplePair)
    (fun s => (s.table false).lookup samplePrefix = some ⟨.R, 1, samplePrefix, 1, 7⟩)
    [.send true false (initialTable (samplePair.config true)), .entry 7 true false (sampleEntry 0)]
    (by decide +kernel)
  exact ⟨s, hreach, _, hlookup, rip_costs_sound samplePair s hreach false _ _ hlookup⟩

end IpTcp.Rip
