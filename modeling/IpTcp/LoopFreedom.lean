import IpTcp.LearnedRoutes
import IpTcp.RipConvergence

/-!
Routes lead somewhere at every moment. On a network that does not change, a route of a node
is the local one of an interface or it was learned from a neighbour, and the neighbour then
has a cheaper route for the same prefix, also while updates are still on the links. So the
next hops for a prefix never form a cycle: following them from any node that has a route,
one comes to a node with an interface in the prefix, over no more links than the cost says.
-/
namespace IpTcp.Rip

open Runs

variable {V A : Type*} [DecidableEq V] [DecidableEq A]

/-- The local route of an interface, or a route that was learned from a neighbour. -/
inductive Sourced (net : StableNetwork V A) (u : V) (pre : Prefix) (info : ForwardingInfo A) :
    Prop
  | own : info.route_type = .L → info.cost = 0 → net.Origin pre u → Sourced net u pre info
  | learned (v : V) : info.route_type = .R → net.graph.Adj v u → info.next = net.addr v u →
      Sourced net u pre info

/-- Following the tables for a prefix from a node leads over so many links to a node with an
interface in it. -/
inductive Hops (net : StableNetwork V A) (s : Traffic V A) (pre : Prefix) : ℕ → V → Prop
  | own {u : V} {info : ForwardingInfo A} : (s.table u).lookup pre = some info →
      info.route_type = .L → net.Origin pre u → Hops net s pre 0 u
  | hop {n : ℕ} {u v : V} {info : ForwardingInfo A} : (s.table u).lookup pre = some info →
      info.route_type = .R → net.graph.Adj v u → info.next = net.addr v u →
      Hops net s pre n v → Hops net s pre (n + 1) u

variable {net : StableNetwork V A} {u v : V}

omit [DecidableEq V] in
/-- An entry of a neighbour. -/
theorem sourced_learn {table : Table A}
    (h : ∀ pre info, table.lookup pre = some info → Sourced net u pre info)
    (hadj : net.graph.Adj v u) (now : ℕ) (entry : RipUpdate) :
    ∀ pre info, (learn now (net.addr v u) table entry).lookup pre = some info →
      Sourced net u pre info := by
  refine (learn_keeps_iff h ?_).mpr ⟨fun _ _ => .learned v rfl hadj rfl, fun info hinfo hlt => ?_⟩
  · intro pre info hsourced
    cases hsourced with
    | own htype hcost horigin => exact .own htype hcost horigin
    | learned w htype hadj hnext => exact .learned w htype hadj hnext
  · -- only a learned route can be improved, since local ones cost nothing
    cases h entry.pre info hinfo with
    | own htype hcost horigin => omega
    | learned w htype _ _ => exact .learned v htype hadj rfl

omit [DecidableEq V] in
theorem sourced_receiveResponse {table : Table A}
    (h : ∀ pre info, table.lookup pre = some info → Sourced net u pre info)
    (hadj : net.graph.Adj v u) (now : ℕ) (entries : List RipUpdate) :
    ∀ pre info, (receiveResponse now (net.addr v u) table entries).table.lookup pre = some info →
      Sourced net u pre info := by
  have hreach : Reach lockedStep (fun _ e => ∃ entry, e = .entry now (net.addr v u) entry) table
      (receiveResponse now (net.addr v u) table entries).table :=
    receiveResponse_reach (fun _ entry => ⟨entry, rfl⟩) entries ⟨table, ∅⟩
  refine hreach.invariant (fun table => ∀ pre info, table.lookup pre = some info →
    Sourced net u pre info) h ?_
  rintro table e table' htable ⟨entry, rfl⟩ hstep
  cases hstep
  exact sourced_learn htable hadj now entry

section Steps

variable [DecidableRel net.graph.Adj] {s s' : Traffic V A} {e : TrafficEvent V A} {pre : Prefix}

/-- Packets are on links only, and every route has its source. -/
structure Grounded (net : StableNetwork V A) (s : Traffic V A) : Prop where
  adj : ∀ v u, s.queue v u ≠ [] → net.graph.Adj v u
  routes : ∀ u pre info, (s.table u).lookup pre = some info → Sourced net u pre info

omit [DecidableEq V] [DecidableEq A] in
theorem Grounded.start (net : StableNetwork V A) [DecidableRel net.graph.Adj] :
    Grounded net (Traffic.start net) where
  adj v u hne := by
    by_contra hadj
    simp [Traffic.start, hadj] at hne
  routes u pre info hinfo := by
    rcases initialTable_cases hinfo with ⟨iface, -, rfl, rfl⟩ | ⟨route, hroute, -⟩
    · exact .own rfl rfl ⟨_, _, hinfo, Prefix.masked_masked _⟩
    · rw [net.static_nil u] at hroute
      contradiction

omit [DecidableEq A] [DecidableRel net.graph.Adj] in
theorem Grounded.take (h : Grounded net s) {first : RipPacket} {rest : List RipPacket}
    (hqueue : s.queue v u = first :: rest) {table : Table A}
    (htable : ∀ pre info, table.lookup pre = some info → Sourced net u pre info) :
    Grounded net (s.take v u rest table) where
  adj a b hne := by
    simp only [Traffic.take] at hne
    split at hne
    · next hab =>
      obtain ⟨rfl, rfl⟩ := hab
      exact h.adj a b (by simp [hqueue])
    · exact h.adj a b hne
  routes a := by
    by_cases ha : a = u
    · subst ha
      simpa only [Traffic.take, Function.update_self] using htable
    · simpa only [Traffic.take, Function.update_of_ne ha] using h.routes a

theorem Grounded.post (h : Grounded net s) (u : V) (out : List (A × List RipUpdate)) :
    Grounded net (s.post net u out) where
  adj a b hne := by
    simp only [Traffic.post] at hne
    split at hne
    · next hab =>
      obtain ⟨rfl, hadj⟩ := hab
      exact hadj
    · exact h.adj a b hne
  routes := h.routes

theorem Grounded.step (h : Grounded net s) (hstep : s.step net e = some s') : Grounded net s' := by
  rcases Traffic.step_cases hstep with ⟨v, u, rest, hqueue, rfl⟩ |
    ⟨now, v, u, entries, entries', rest, hqueue, -, rfl⟩ | ⟨u, v, subset, -, -, rfl⟩
  · exact (h.take hqueue (h.routes u)).post u _
  · have hadj := h.adj v u (by simp [hqueue])
    exact (h.take hqueue (sourced_receiveResponse (h.routes u) hadj now entries)).post u _
  · exact h.post u _

omit [DecidableEq V] [DecidableEq A] [DecidableRel net.graph.Adj] in
theorem Converging.cost_le (h : Converging net s) {info : ForwardingInfo A}
    (hinfo : (s.table u).lookup pre = some info) : info.cost ≤ 15 :=
  Nat.le_of_lt_succ ((h.good pre).finite u (viewRoute info)
    (congrArg (Option.map viewRoute) hinfo))

omit [DecidableEq V] [DecidableEq A] [DecidableRel net.graph.Adj] in
/-- The neighbour that a route was learned from has a cheaper one. -/
theorem hops_of_route (hgood : Converging net s) (hgrounded : Grounded net s) (c : ℕ) :
    ∀ u info, (s.table u).lookup pre = some info → info.cost ≤ c →
      ∃ n ≤ info.cost, Hops net s pre n u := by
  induction c with
  | zero =>
    intro u info hinfo hcost
    cases hgrounded.routes u pre info hinfo with
    | own htype hzero horigin => exact ⟨0, Nat.zero_le _, .own hinfo htype horigin⟩
    | learned v htype hadj hnext =>
      obtain ⟨r, -, hlt⟩ := ((hgood.good pre).link v u hadj).parent (viewRoute info)
        (congrArg (Option.map viewRoute) hinfo) hnext
      exact absurd hlt (by simp [viewRoute]; omega)
  | succ c ih =>
    intro u info hinfo hcost
    cases hgrounded.routes u pre info hinfo with
    | own htype hzero horigin => exact ⟨0, Nat.zero_le _, .own hinfo htype horigin⟩
    | learned v htype hadj hnext =>
      obtain ⟨r, hr, hlt⟩ := ((hgood.good pre).link v u hadj).parent (viewRoute info)
        (congrArg (Option.map viewRoute) hinfo) hnext
      obtain ⟨info', hinfo', rfl⟩ := Option.map_eq_some_iff.mp hr
      have hcheaper : info'.cost < info.cost := hlt
      obtain ⟨n, hn, hops⟩ := ih v info' hinfo' (by omega)
      exact ⟨n + 1, by omega, .hop hinfo htype hadj hnext hops⟩

omit [DecidableEq V] [DecidableEq A] [DecidableRel net.graph.Adj] in
/-- The links that are followed are a walk. -/
theorem Hops.walk {n : ℕ} (h : Hops net s pre n u) :
    ∃ o, net.Origin pre o ∧ ∃ path : net.graph.Walk u o, path.length = n := by
  induction h with
  | own _ _ horigin => exact ⟨_, horigin, .nil, rfl⟩
  | hop _ _ hadj _ _ ih =>
    obtain ⟨o, horigin, path, hlength⟩ := ih
    exact ⟨o, horigin, .cons hadj.symm path, by rw [SimpleGraph.Walk.length_cons, hlength]⟩

end Steps

theorem Grounded.reach [DecidableRel net.graph.Adj] {s : Traffic V A}
    (h : Reach (Traffic.step net) (fun _ _ => True) (Traffic.start net) s) : Grounded net s :=
  h.invariant (Grounded net) (.start net) fun _ _ _ hs _ hstep => hs.step hstep

/-- At every moment of every run, the routes for a prefix lead from each node that has one to
a node with an interface in it, over at most as many links as the cost says, which is 15 at
most. Once no packet is on a link it is exactly as many. -/
theorem routes_lead_to_owners (net : StableNetwork V A) [DecidableRel net.graph.Adj]
    (s : Traffic V A) (h : Reach (Traffic.step net) (fun _ _ => True) (Traffic.start net) s)
    (u : V) (pre : Prefix) (info : ForwardingInfo A)
    (hinfo : (s.table u).lookup pre = some info) :
    info.cost ≤ 15 ∧ ∃ n ≤ info.cost, Hops net s pre n u ∧
      ((∀ v u, s.queue v u = []) → n = info.cost) := by
  have hgood := ((Converging.start net).reach h).1
  obtain ⟨n, hn, hops⟩ := hops_of_route hgood (.reach h) info.cost u info hinfo (Nat.le_refl _)
  refine ⟨hgood.cost_le hinfo, n, hn, hops, fun hquiet => ?_⟩
  have hempty : ∀ v u, (s.view pre).queue v u = [] := by
    intro v u
    simp [Traffic.view, hquiet]
  have hleast := ((hgood.good pre).converged hempty u).2 (viewRoute info)
    (congrArg (Option.map viewRoute) hinfo)
  exact Nat.le_antisymm hn (hleast.2 hops.walk)

/-- The second node learns the prefix of the first, while an update is still on the link. -/
theorem routes_lead_to_owners_pair :
    ∃ s info, (s.table false).lookup samplePrefix = some info ∧ s.queue false true ≠ [] ∧
      ∃ n ≤ info.cost, Hops stablePair s samplePrefix n false := by
  obtain ⟨s, hreach, hqueue, hlookup⟩ := exists_reach (Traffic.step stablePair)
    (fun _ _ => True) (Traffic.start stablePair)
    (fun s => s.queue false true ≠ [] ∧
      (s.table false).lookup samplePrefix = some ⟨.R, 1, samplePrefix, 1, 7⟩)
    [.deliver 5 true false .request, .deliver 6 false true .request,
      .deliver 7 true false (.response [sampleEntry 0])]
    (by decide +kernel)
  obtain ⟨-, n, hn, hops, -⟩ :=
    routes_lead_to_owners stablePair s hreach false samplePrefix _ hlookup
  exact ⟨s, _, hlookup, hqueue, n, hn, hops⟩

end IpTcp.Rip
