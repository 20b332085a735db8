import IpTcp.NextHop
import IpTcp.RipSoundness

/-!
The routing goroutines of a node. The forwarding table holds pointers to its routes, which
handlers and timers copy into maps of their own. The entries of a response are worked on one
by one under the lock of the node, but sendRIP reads the routes behind its pointers without
it: the cost first and the next hop later, while a handler that has found a lower cost writes
both in the same order, and the garbage collector goes through the table route by route. The
handlers of several packets and both timers run at once. Each of their steps is a step of the
network of routes and entries, whose messages may carry any values that a route has had.
-/
namespace IpTcp

open Rip Runs

abbrev PointerMap := AList (fun _ : Prefix => ℕ)

/-- A call of sendRIP: where it sends to, the routes that it has not visited yet, the entries
it has made; then the calls that follow it with the same routes. -/
structure Sending where
  dst : Addr
  left : List (Prefix × ℕ)
  entries : List RipUpdate
  dsts : List Addr
  subset : PointerMap

/-- Where a goroutine is: before the next request of Initialize; before the next entry of a
response, or still writing a route for the last one; before the lock to answer a request;
before the next call of sendRIP, in such a call, or in it between the cost and the next hop of
a route. -/
inductive RipTask
  | request (dsts : List Addr)
  | learn (hop : Addr) (entries : List RipUpdate) (triggered : PointerMap)
  | finish (hop : Addr) (entries : List RipUpdate) (triggered : PointerMap)
  | answer (dst : Addr)
  | send (dsts : List Addr) (subset : PointerMap)
  | build (m : Sending)
  | compare (m : Sending) (entry : RipUpdate) (pointer : ℕ)

/-- What a goroutine is in the middle of under the lock of the node: a handler has written the
cost of a route, which will have the value `info`; or the garbage collector has prefixes left to
visit. -/
inductive Critical
  | lowering (pointer : ℕ) (info : ForwardingInfo Addr)
  | sweeping (now : ℕ) (left : List Prefix) (triggered : PointerMap)

/-- A node as it was configured, the routes that were ever allocated, the forwarding table, what
happens under the lock of the node, and the goroutines that do not have it. -/
structure Router where
  shell : Node
  objects : ℕ → ForwardingInfo Addr
  count : ℕ
  table : PointerMap
  critical : Option Critical
  tasks : List RipTask

namespace PointerMap

def pairs (m : PointerMap) : List (Prefix × ℕ) := m.entries.map fun e => (e.1, e.2)

theorem mem_pairs {m : PointerMap} {pre : Prefix} {p : ℕ} :
    (pre, p) ∈ m.pairs ↔ m.lookup pre = some p := by
  unfold pairs
  rw [List.mem_map]
  constructor
  · intro ⟨e, he, heq⟩
    cases heq
    exact AList.mem_lookup_iff.mpr he
  · intro h
    exact ⟨⟨pre, p⟩, AList.mem_lookup_iff.mp h, rfl⟩

end PointerMap

namespace Router

def values (r : Router) : Table Addr :=
  ⟨r.table.entries.map (.map id fun _ p => r.objects p), r.table.nodupKeys.map₂ _ _⟩

def node (r : Router) : Node := { r.shell with forwardingTable := r.values }

def install (r : Router) (pre : Prefix) (info : ForwardingInfo Addr) : Router :=
  { r with
    objects := Function.update r.objects r.count info
    count := r.count + 1
    table := r.table.insert pre r.count }

def write (r : Router) (p : ℕ) (info : ForwardingInfo Addr) : Router :=
  { r with objects := Function.update r.objects p info }

def lower (r : Router) (p : ℕ) (info : ForwardingInfo Addr) : Router :=
  { r.write p { r.objects p with cost := info.cost } with critical := some (.lowering p info) }

def settle (r : Router) : Router :=
  match r.critical with
  | some (.lowering p info) => { r.write p info with critical := none }
  | some (.sweeping _ _ _) | none => r

/-- The work on one entry of a response, under the lock of the node. A route that is stored
anew is left with its next hop still to be written. -/
def learnEntry (r : Router) (now : ℕ) (hop : Addr) (entry : RipUpdate)
    (triggered : PointerMap) : Router × PointerMap :=
  match r.table.lookup entry.pre with
  | none =>
      match judge now hop entry.pre entry.cost none with
      | .stored info => (r.install entry.pre info, triggered.insert entry.pre r.count)
      | .unchanged | .deleted _ => (r, triggered)
  | some p =>
      match judge now hop entry.pre entry.cost (some (r.objects p)) with
      | .stored info => (r.lower p info, triggered.insert entry.pre p)
      | .deleted info =>
          ({ r.write p info with table := r.table.erase entry.pre }, triggered.insert entry.pre p)
      | .unchanged => (r, triggered)

def spawn (r : Router) (task : RipTask) : Router := { r with tasks := r.tasks ++ [task] }

def periodicUpdates (r : Router) : Option Router :=
  if r.critical.isSome then none else some (r.spawn (.send r.shell.ripNeighbors r.table))

/-- A round of the garbage collector begins. It visits the prefixes in any order. -/
def garbageCollector (r : Router) (now : ℕ) (order : List Prefix) : Option Router :=
  if r.critical.isNone ∧ order.Perm r.table.keys then
    some { r with critical := some (.sweeping now order ∅) }
  else none

def sweepRoute (r : Router) (now : ℕ) (pre : Prefix) (triggered : PointerMap) :
    Router × PointerMap :=
  match r.table.lookup pre with
  | some p =>
      if expired now (r.objects p) then
        ({ r.write p { r.objects p with cost := infty } with table := r.table.erase pre },
          triggered.insert pre p)
      else (r, triggered)
  | none => (r, triggered)

/-- The collector goes on. At the end of a round it gives the lock back and sends what it has
found. -/
def sweep (r : Router) : Option Router :=
  match r.critical with
  | some (.sweeping now (pre :: left) triggered) =>
      let result := r.sweepRoute now pre triggered
      some { result.1 with critical := some (.sweeping now left result.2) }
  | some (.sweeping _ [] triggered) =>
      let r' := { r with critical := none }
      some (if triggered.entries = [] then r' else r'.spawn (.send r.shell.ripNeighbors triggered))
  | some (.lowering _ _) | none => none

def protocol200 (r : Router) (src : Addr) (message : RipMessage) : Router :=
  match message.packet with
  | .request => r.spawn (.answer src)
  | .response entries => r.spawn (.learn src entries ∅)

def posted (r : Router) (task : RipTask) :
    Except Fault Sent → Except Fault (Router × Option RipTask × List Sent)
  | .error fault => .error fault
  | .ok sent => .ok (r, some task, [sent])

/-- The next step of a goroutine, with its packet if it has made one. There is none while it
waits for the lock of the node. A map is visited in any order, and in another one each time. -/
def advance (r : Router) (now : ℕ) (order : List (Prefix × ℕ)) :
    RipTask → Option (Except Fault (Router × Option RipTask × List Sent))
  | .request [] => some (.ok (r, none, []))
  | .request (dst :: dsts) =>
      some (r.posted (.request dsts) (r.shell.sendMessage dst ⟨1, 0, []⟩))
  | .learn _ [] triggered =>
      some (.ok (r, if triggered.entries = [] then none
        else some (.send r.shell.ripNeighbors triggered), []))
  | .learn hop (entry :: rest) triggered =>
      if r.critical.isSome then none
      else
        let result := r.learnEntry now hop entry triggered
        some (.ok (result.1, some (if result.1.critical.isSome then .finish hop rest result.2
          else .learn hop rest result.2), []))
  | .finish hop rest triggered => some (.ok (r.settle, some (.learn hop rest triggered), []))
  | .answer dst =>
      if r.critical.isSome then none else some (.ok (r, some (.send [dst] r.table), []))
  | .send [] _ => some (.ok (r, none, []))
  | .send (dst :: dsts) subset =>
      if order.Perm (PointerMap.pairs subset) then
        some (.ok (r, some (.build ⟨dst, order, [], dsts, subset⟩), []))
      else none
  | .build m =>
      match m.left with
      | [] => some (r.posted (.send m.dsts m.subset) (r.shell.sendRIP m.dst m.entries))
      | (pre, p) :: left =>
          some (.ok (r, some (.compare { m with left := left } ⟨UInt32.ofNat (r.objects p).cost,
            pre.addr, cidrMask (r.objects p).pre.bits⟩ p), []))
  | .compare m entry p =>
      let poisoned := if m.dst = (r.objects p).next then
        { entry with Cost := UInt32.ofNat infty } else entry
      some (.ok (r, some (.build { m with entries := m.entries ++ [poisoned] }), []))

theorem nodupKeys_zipIdx {l : List (Sigma fun _ : Prefix => ForwardingInfo Addr)}
    (h : l.NodupKeys) :
    (l.zipIdx.map fun x => (⟨x.1.1, x.2⟩ : Sigma fun _ : Prefix => ℕ)).NodupKeys := by
  unfold List.NodupKeys List.keys at h ⊢
  rw [List.map_map]
  change (l.zipIdx.map (Sigma.fst ∘ Prod.fst)).Nodup
  rwa [← List.map_map, List.zipIdx_map_fst]

/-- The routes of the table that Initialize builds, each behind a pointer of its own, and the
requests that it sends. -/
def start (config : IPConfig) : Router where
  shell := config.node
  objects p := match (initialTable config.routing).entries[p]? with
    | some route => route.2
    | none => ⟨.S, .zero, .slash 0 0, 0, 0⟩
  count := (initialTable config.routing).entries.length
  table := ⟨_, nodupKeys_zipIdx (initialTable config.routing).nodupKeys⟩
  critical := none
  tasks := [.request config.RipNeighbors]

theorem tasks_sweepRoute (r : Router) (now : ℕ) (pre : Prefix) (triggered : PointerMap) :
    (r.sweepRoute now pre triggered).1.tasks = r.tasks := by
  unfold sweepRoute
  split
  · split
    · rfl
    · rfl
  · rfl

@[simp] theorem lookup_values (r : Router) (pre : Prefix) :
    r.values.lookup pre = (r.table.lookup pre).map r.objects :=
  List.dlookup_map₂ pre

/-- Every pointer of the map leads to a route for its prefix. -/
def Points (r : Router) (m : PointerMap) : Prop :=
  ∀ pre p, m.lookup pre = some p → p < r.count ∧ (r.objects p).pre = pre

structure Keeps (r r' : Router) : Prop where
  shell : r'.shell = r.shell
  count : r.count ≤ r'.count
  pre : ∀ p < r.count, (r'.objects p).pre = (r.objects p).pre

namespace Keeps

theorem refl (r : Router) : Keeps r r := ⟨rfl, Nat.le_refl _, fun _ _ => rfl⟩

theorem install (r : Router) (pre : Prefix) (info : ForwardingInfo Addr) :
    Keeps r (r.install pre info) := by
  refine ⟨rfl, Nat.le_succ _, fun p hp => ?_⟩
  change (Function.update r.objects r.count info p).pre = _
  rw [Function.update_of_ne (Nat.ne_of_lt hp)]

theorem write (r : Router) {p : ℕ} {info : ForwardingInfo Addr}
    (hpre : info.pre = (r.objects p).pre) : Keeps r (r.write p info) := by
  refine ⟨rfl, Nat.le_refl _, fun p' _ => ?_⟩
  change (Function.update r.objects p info p').pre = _
  rw [Function.update_apply]
  split
  · next heq => rw [heq, hpre]
  · rfl

theorem lower (r : Router) (p : ℕ) (info : ForwardingInfo Addr) : Keeps r (r.lower p info) := by
  have h : Keeps r (r.write p { r.objects p with cost := info.cost }) := Keeps.write r rfl
  exact ⟨h.shell, h.count, h.pre⟩

theorem tasks {r r' : Router} (h : Keeps r r') (tasks : List RipTask) :
    Keeps r { r' with tasks := tasks } :=
  ⟨h.shell, h.count, h.pre⟩

theorem critical {r r' : Router} (h : Keeps r r') (critical : Option Critical) :
    Keeps r { r' with critical := critical } :=
  ⟨h.shell, h.count, h.pre⟩

theorem points {r r' : Router} (h : Keeps r r') {m : PointerMap} (hm : r.Points m) :
    r'.Points m := by
  intro pre p hp
  obtain ⟨hlt, hpre⟩ := hm pre p hp
  exact ⟨Nat.lt_of_lt_of_le hlt h.count, (h.pre p hlt).trans hpre⟩

end Keeps

theorem Points.insert {r : Router} {m : PointerMap} (h : r.Points m) {pre : Prefix} {p : ℕ}
    (hlt : p < r.count) (hpre : (r.objects p).pre = pre) : r.Points (m.insert pre p) := by
  intro pre' p' hp'
  by_cases hsame : pre' = pre
  · rw [hsame, AList.lookup_insert] at hp'
    cases hp'
    exact ⟨hlt, hpre.trans hsame.symm⟩
  · rw [AList.lookup_insert_ne hsame] at hp'
    exact h pre' p' hp'

end Router

/-- The routes of a router are those of a node of the network, which has known all of their
values. -/
structure Router.Holds {V : Type*} (u : V) (r : Router) (t : Internet V Addr) : Prop where
  points : r.Points r.table
  table : ∀ pre, (t.table u).lookup pre = (r.table.lookup pre).map r.objects
  known : ∀ p < r.count, ((r.objects p).pre, r.objects p) ∈ t.known u

namespace Router.Holds

variable {V : Type*} {u : V} {r : Router} {t t' : Internet V Addr} {pre : Prefix}
  {info : ForwardingInfo Addr}

/-- A new route. -/
theorem install (h : r.Holds u t) (hpre : info.pre = pre)
    (htable : ∀ pre', (t'.table u).lookup pre' = ((t.table u).insert pre info).lookup pre')
    (hknown : t.known u ⊆ t'.known u) (hnew : (pre, info) ∈ t'.known u) :
    (r.install pre info).Holds u t' := by
  have hobject : (r.install pre info).objects r.count = info := Function.update_self ..
  have hold : ∀ p < r.count, (r.install pre info).objects p = r.objects p := fun p hp =>
    Function.update_of_ne (Nat.ne_of_lt hp) _ _
  refine ⟨?_, fun pre' => ?_, fun p hp => ?_⟩
  · refine ((Keeps.install r pre info).points h.points).insert (Nat.lt_succ_self _) ?_
    rw [hobject, hpre]
  · rw [htable]
    change _ = ((r.table.insert pre r.count).lookup pre').map _
    by_cases hsame : pre' = pre
    · rw [hsame, AList.lookup_insert, AList.lookup_insert, Option.map_some, hobject]
    · rw [AList.lookup_insert_ne hsame, AList.lookup_insert_ne hsame, h.table]
      cases hp : r.table.lookup pre' with
      | none => rfl
      | some p => rw [Option.map_some, Option.map_some, hold p (h.points pre' p hp).1]
  · rcases Nat.lt_succ_iff_lt_or_eq.mp hp with hlt | rfl
    · rw [hold p hlt]
      exact hknown (h.known p hlt)
    · rw [hobject, hpre]
      exact hnew

/-- A route is changed through its pointer. Pointers under other prefixes lead to other
routes. -/
theorem write (h : r.Holds u t) {p : ℕ} (hp : r.table.lookup pre = some p)
    (hpre : info.pre = pre)
    (htable : ∀ pre', (t'.table u).lookup pre' = ((t.table u).insert pre info).lookup pre')
    (hknown : t.known u ⊆ t'.known u) (hnew : (pre, info) ∈ t'.known u) :
    (r.write p info).Holds u t' := by
  have hobject : (r.write p info).objects p = info := Function.update_self ..
  have hold : ∀ p', p' ≠ p → (r.write p info).objects p' = r.objects p' := fun p' hne =>
    Function.update_of_ne hne _ _
  have hpoints := h.points pre p hp
  refine ⟨(Keeps.write r (hpre.trans hpoints.2.symm)).points h.points, fun pre' => ?_,
    fun p' hp' => ?_⟩
  · rw [htable]
    change _ = (r.table.lookup pre').map _
    by_cases hsame : pre' = pre
    · rw [hsame, AList.lookup_insert, hp, Option.map_some, hobject]
    · rw [AList.lookup_insert_ne hsame, h.table]
      cases hp' : r.table.lookup pre' with
      | none => rfl
      | some p' =>
        have hne : p' ≠ p := by
          intro heq
          have hpre' := (h.points pre' p' hp').2
          rw [heq, hpoints.2] at hpre'
          exact hsame hpre'.symm
        rw [Option.map_some, Option.map_some, hold p' hne]
  · by_cases heq : p' = p
    · rw [heq, hobject, hpre]
      exact hnew
    · rw [hold p' heq]
      exact hknown (h.known p' hp')

/-- A route is taken out of the table. -/
theorem erase (h : r.Holds u t)
    (htable : ∀ pre', (t'.table u).lookup pre' = ((t.table u).erase pre).lookup pre')
    (hknown : t.known u ⊆ t'.known u) :
    ({ r with table := r.table.erase pre } : Router).Holds u t' := by
  refine ⟨?_, fun pre' => ?_, fun p hp => hknown (h.known p hp)⟩
  · intro pre' p hp
    by_cases hsame : pre' = pre
    · rw [hsame] at hp
      change (r.table.erase pre).lookup pre = _ at hp
      rw [AList.lookup_erase] at hp
      contradiction
    · change (r.table.erase pre).lookup pre' = _ at hp
      rw [AList.lookup_erase_ne hsame] at hp
      exact h.points pre' p hp
  · rw [htable]
    change _ = ((r.table.erase pre).lookup pre').map _
    by_cases hsame : pre' = pre
    · rw [hsame, AList.lookup_erase, AList.lookup_erase, Option.map_none]
    · rw [AList.lookup_erase_ne hsame, AList.lookup_erase_ne hsame, h.table]

end Router.Holds

namespace Router.Holds

variable {V : Type*} [DecidableEq V] {u : V} {r : Router} {t : Internet V Addr}

def Concerns (pre : Prefix) : RouteChange Addr → Prop
  | .unchanged => True
  | .stored info | .deleted info => info.pre = pre

theorem judge_concerns (now : ℕ) (hop : Addr) (cost : ℕ) {pre : Prefix}
    {route : Option (ForwardingInfo Addr)} (hroute : ∀ info, route = some info → info.pre = pre) :
    Concerns pre (judge now hop pre cost route) := by
  apply judge_rule (Concerns pre)
  · trivial
  · intro _ _
    rfl
  · intro info hinfo _
    exact hroute info hinfo
  · intro info hinfo _ _
    exact hroute info hinfo
  · intro info hinfo _ _
    exact hroute info hinfo

omit [DecidableEq V] in
theorem pre_eq (h : r.Holds u t) {pre : Prefix} {info : ForwardingInfo Addr}
    (hinfo : (t.table u).lookup pre = some info) : info.pre = pre := by
  rw [h.table, Option.map_eq_some_iff] at hinfo
  obtain ⟨p, hp, rfl⟩ := hinfo
  exact (h.points _ p hp).2

theorem table_update (t : Internet V Addr) (u : V) (result : Update Addr) :
    (t.update u result).table u = result.table := Function.update_self ..

theorem known_update (t : Internet V Addr) (u : V) (result : Update Addr) :
    (t.update u result).known u = t.known u ++ routes result.triggered := Function.update_self ..

/-- A route is stored or deleted. -/
theorem apply (h : r.Holds u t) {pre : Prefix} {p : ℕ} (hp : r.table.lookup pre = some p)
    {info : ForwardingInfo Addr} (hpre : info.pre = pre) :
    (r.write p info).Holds u (t.update u (Update.apply ⟨t.table u, ∅⟩ pre (.stored info))) ∧
      ({ r.write p info with table := r.table.erase pre } : Router).Holds u
        (t.update u (Update.apply ⟨t.table u, ∅⟩ pre (.deleted info))) := by
  have hmem : (pre, info) ∈ routes ((∅ : Table Addr).insert pre info) :=
    mem_routes.mpr (AList.lookup_insert _)
  have hstored : (r.write p info).Holds u
      (t.update u (Update.apply ⟨t.table u, ∅⟩ pre (.stored info))) := by
    apply h.write hp hpre
    · intro pre'
      rw [table_update]
      rfl
    · rw [known_update]
      exact List.subset_append_left _ _
    · rw [known_update]
      exact List.mem_append_right _ hmem
  refine ⟨hstored, hstored.erase (fun pre' => ?_) ?_⟩
  · rw [table_update, table_update]
    change ((t.table u).erase pre).lookup pre' =
      (((t.table u).insert pre info).erase pre).lookup pre'
    by_cases hsame : pre' = pre
    · rw [hsame, AList.lookup_erase, AList.lookup_erase]
    · rw [AList.lookup_erase_ne hsame, AList.lookup_erase_ne hsame, AList.lookup_insert_ne hsame]
  · rw [known_update, known_update]
    exact List.Subset.refl _

theorem unchanged (h : r.Holds u t) (pre : Prefix) :
    r.Holds u (t.update u (Update.apply ⟨t.table u, ∅⟩ pre .unchanged)) := by
  refine ⟨h.points, fun pre' => ?_, fun p hp => ?_⟩
  · rw [table_update]
    exact h.table pre'
  · rw [known_update]
    exact List.mem_append_left _ (h.known p hp)

end Router.Holds

/-- A write under the lock has left the new cost and a next hop that the route has had. What the
collector has found are routes. -/
def Critical.Sound {V : Type*} (u : V) (r : Router) (t : Internet V Addr) : Critical → Prop
  | .lowering p info => p < r.count ∧ (r.objects p).cost = info.cost ∧
      (r.objects p).pre = info.pre ∧
      ∃ old, (info.pre, old) ∈ t.known u ∧ old.next = (r.objects p).next
  | .sweeping _ _ triggered => r.Points triggered

/-- A router is one of a node of the network once the write under its lock is finished. -/
structure Router.Follows {V : Type*} (u : V) (r : Router) (t : Internet V Addr) : Prop where
  holds : r.settle.Holds u t
  critical : ∀ c, r.critical = some c → c.Sound u r t

namespace Router

theorem settle_of_free {r : Router} (hfree : r.critical = none) : r.settle = r := by
  unfold settle
  rw [hfree]

theorem settle_of_sweeping {r : Router} {now : ℕ} {left : List Prefix} {triggered : PointerMap}
    (h : r.critical = some (.sweeping now left triggered)) : r.settle = r := by
  unfold settle
  rw [h]

theorem settle_lower (r : Router) (hfree : r.critical = none) (p : ℕ)
    (info : ForwardingInfo Addr) : (r.lower p info).settle = r.write p info := by
  obtain ⟨shell, objects, count, table, critical, tasks⟩ := r
  change critical = none at hfree
  subst hfree
  simp only [settle, lower, write, Function.update_idem]

@[simp] theorem table_settle (r : Router) : r.settle.table = r.table := by
  unfold settle
  split
  · rfl
  · rfl
  · rfl

theorem settle_tasks (r : Router) (tasks : List RipTask) :
    ({ r with tasks := tasks } : Router).settle = { r.settle with tasks := tasks } := by
  unfold settle
  simp only
  split
  · rfl
  · rfl
  · rfl

theorem settle_objects (r : Router) (p : ℕ) : r.settle.objects p = r.objects p ∨
    ∃ info, r.critical = some (.lowering p info) ∧ r.settle.objects p = info := by
  unfold settle
  split
  · next q info hlowering =>
    by_cases heq : p = q
    · subst heq
      exact Or.inr ⟨info, hlowering, Function.update_self ..⟩
    · exact Or.inl (Function.update_of_ne heq ..)
  · exact Or.inl rfl
  · exact Or.inl rfl

end Router

namespace Router.Follows

variable {V : Type*} {u : V} {r r' : Router} {t t' : Internet V Addr}

theorem of_free (hfree : r.critical = none) (h : r.Holds u t) : r.Follows u t := by
  constructor
  · rw [settle_of_free hfree]
    exact h
  · intro c hcritical
    rw [hfree] at hcritical
    contradiction

theorem holds_of_free (h : r.Follows u t) (hfree : r.critical = none) : r.Holds u t := by
  have hholds := h.holds
  rwa [settle_of_free hfree] at hholds

/-- The collector holds the lock, so nothing else is being written. -/
theorem holds_of_sweeping (h : r.Follows u t) {now : ℕ} {left : List Prefix}
    {triggered : PointerMap} (hcritical : r.critical = some (.sweeping now left triggered)) :
    r.Holds u t ∧ r.Points triggered := by
  have hholds := h.holds
  rw [settle_of_sweeping hcritical] at hholds
  exact ⟨hholds, h.critical _ hcritical⟩

theorem of_sweeping (h : r.Holds u t) {triggered : PointerMap} (htriggered : r.Points triggered)
    (now : ℕ) (left : List Prefix) :
    ({ r with critical := some (.sweeping now left triggered) } : Router).Follows u t := by
  refine ⟨⟨h.points, h.table, h.known⟩, fun c hcritical => ?_⟩
  cases hcritical
  exact htriggered

theorem keeps_settle (h : r.Follows u t) : Keeps r r.settle := by
  unfold settle
  split
  · next p info hlowering =>
    have hkeeps := Keeps.write r (h.critical _ hlowering).2.2.1.symm
    exact ⟨hkeeps.shell, hkeeps.count, hkeeps.pre⟩
  · exact .refl r
  · exact .refl r

theorem settle (h : r.Follows u t) : r.settle.Follows u t := by
  cases hcritical : r.critical with
  | none => rwa [settle_of_free hcritical]
  | some c =>
    cases c with
    | sweeping now left triggered => rwa [settle_of_sweeping hcritical]
    | lowering p info =>
      apply of_free _ h.holds
      simp only [Router.settle, hcritical]

/-- What a goroutine reads without the lock are values that the route has had. -/
theorem reads (h : r.Follows u t) {p : ℕ} (hp : p < r.count) :
    ∃ value ∈ t.known u, value.1 = (r.objects p).pre ∧ value.2.pre = (r.objects p).pre ∧
      value.2.cost = (r.objects p).cost ∧
      ∃ other ∈ t.known u, other.1 = (r.objects p).pre ∧ other.2.next = (r.objects p).next := by
  have hknown := h.holds.known p (Nat.lt_of_lt_of_le hp h.keeps_settle.count)
  rw [h.keeps_settle.pre p hp] at hknown
  rcases settle_objects r p with hsettled | ⟨info, hlowering, hsettled⟩
  · rw [hsettled] at hknown
    exact ⟨_, hknown, rfl, rfl, rfl, _, hknown, rfl, rfl⟩
  · rw [hsettled] at hknown
    obtain ⟨-, hcost, hpre, old, hold, hnext⟩ := h.critical _ hlowering
    rw [← hpre] at hold
    exact ⟨_, hknown, rfl, hpre.symm, hcost.symm, _, hold, rfl, hnext⟩

/-- What the network does elsewhere, and what a node sends, changes nothing. -/
theorem mono (h : r.Follows u t) (htable : t'.table u = t.table u)
    (hknown : t.known u ⊆ t'.known u) : r.Follows u t' := by
  refine ⟨⟨h.holds.points, ?_, fun p hp => hknown (h.holds.known p hp)⟩, ?_⟩
  · rw [htable]
    exact h.holds.table
  · intro c hcritical
    have hsound := h.critical c hcritical
    cases c with
    | sweeping now left triggered => exact hsound
    | lowering p info =>
      obtain ⟨hlt, hcost, hpre, old, hold, hnext⟩ := hsound
      exact ⟨hlt, hcost, hpre, old, hknown hold, hnext⟩

/-- The costs in the table are those of the network. -/
theorem cost_of_lookup (h : r.Follows u t) {pre : Prefix} {info : ForwardingInfo Addr}
    (hinfo : r.values.lookup pre = some info) :
    ∃ info', (t.table u).lookup pre = some info' ∧ info'.cost = info.cost := by
  rw [lookup_values, Option.map_eq_some_iff] at hinfo
  obtain ⟨p, hp, rfl⟩ := hinfo
  refine ⟨r.settle.objects p, ?_, ?_⟩
  · rw [h.holds.table, table_settle, hp, Option.map_some]
  · rcases settle_objects r p with hsettled | ⟨info, hlowering, hsettled⟩
    · rw [hsettled]
    · rw [hsettled, (h.critical _ hlowering).2.1]

/-- The goroutines of a router play no part in it. -/
theorem withTasks (h : r.Follows u t) (tasks : List RipTask) :
    ({ r with tasks := tasks } : Router).Follows u t := by
  refine ⟨?_, fun c hcritical => ?_⟩
  · rw [settle_tasks]
    exact ⟨h.holds.points, h.holds.table, h.holds.known⟩
  · have hsound := h.critical c hcritical
    cases c with
    | lowering p info | sweeping now left triggered => exact hsound

/-- A node starts with the routes of its configuration. -/
theorem start (config : IPConfig) (htable : t.table u = initialTable config.routing)
    (hknown : t.known u = routes (initialTable config.routing)) :
    (Router.start config).Follows u t := by
  have hobject : ∀ pre p, (Router.start config).table.lookup pre = some p →
      (initialTable config.routing).entries[p]? =
        some ⟨pre, (Router.start config).objects p⟩ := by
    intro pre p hp
    obtain ⟨⟨route, i⟩, hmem, heq⟩ := List.mem_map.mp (AList.mem_lookup_iff.mp hp)
    cases heq
    rw [List.mem_zipIdx_iff_getElem?] at hmem
    simp only [Router.start, hmem]
  have hlookup : ∀ (p : ℕ) (route : Sigma fun _ : Prefix => ForwardingInfo Addr),
      (initialTable config.routing).entries[p]? = some route →
      (initialTable config.routing).lookup route.1 = some route.2 := by
    intro p route hroute
    exact AList.mem_lookup_iff.mpr (List.mem_of_getElem? hroute)
  refine of_free rfl ⟨fun pre p hp => ?_, fun pre => ?_, fun p hp => ?_⟩
  · have hroute := hobject pre p hp
    obtain ⟨hlt, -⟩ := List.getElem?_eq_some_iff.mp hroute
    exact ⟨hlt, (initialTable_installed (hlookup p _ hroute)).2.2⟩
  · rw [htable]
    cases hp : (Router.start config).table.lookup pre with
    | some p => exact hlookup p _ (hobject pre p hp)
    | none =>
      cases hinfo : (initialTable config.routing).lookup pre with
      | none => rfl
      | some info =>
        obtain ⟨p, hp'⟩ := List.getElem?_of_mem (AList.mem_lookup_iff.mp hinfo)
        have hmem : (⟨pre, p⟩ : Sigma fun _ : Prefix => ℕ) ∈ (Router.start config).table.entries :=
          List.mem_map.mpr ⟨(⟨pre, info⟩, p), List.mem_zipIdx_iff_getElem?.mpr hp', rfl⟩
        rw [← AList.mem_lookup_iff, hp] at hmem
        contradiction
  · obtain ⟨route, hroute⟩ : ∃ route, (initialTable config.routing).entries[p]? = some route :=
      ⟨_, List.getElem?_eq_getElem hp⟩
    have hvalue : (Router.start config).objects p = route.2 := by
      simp only [Router.start, hroute]
    have hroutes := hlookup p route hroute
    rw [hvalue, hknown, (initialTable_installed hroutes).2.2]
    exact mem_routes.mpr hroutes

variable [DecidableEq V]

/-- The work on one entry is a step of the network. -/
theorem learnEntry (h : r.Follows u t) (hfree : r.critical = none) {triggered : PointerMap}
    (htriggered : r.Points triggered) (now : ℕ) (hop : Addr) (entry : RipUpdate) :
    let result := r.learnEntry now hop entry triggered
    Keeps r result.1 ∧ result.1.Points result.2 ∧
      result.1.Follows u (t.update u (Update.receiveEntry now hop ⟨t.table u, ∅⟩ entry)) := by
  replace h := h.holds_of_free hfree
  have hpre : Holds.Concerns entry.pre
      (judge now hop entry.pre entry.cost ((t.table u).lookup entry.pre)) :=
    Holds.judge_concerns now hop entry.cost fun info hinfo => h.pre_eq hinfo
  have htable := h.table entry.pre
  unfold Update.receiveEntry Router.learnEntry
  simp only
  cases hp : r.table.lookup entry.pre with
  | none =>
    rw [hp, Option.map_none] at htable
    rw [htable] at hpre ⊢
    simp only
    cases hjudge : judge now hop entry.pre entry.cost none with
    | unchanged => exact ⟨.refl r, htriggered, of_free hfree (h.unchanged _)⟩
    | deleted info =>
      simp only [judge] at hjudge
      split at hjudge
      · contradiction
      · contradiction
    | stored info =>
      rw [hjudge] at hpre
      have hkeeps := Keeps.install r entry.pre info
      have hobject : (r.install entry.pre info).objects r.count = info := Function.update_self ..
      refine ⟨hkeeps, ?_, of_free hfree (h.install hpre (fun pre' => ?_) ?_ ?_)⟩
      · apply (hkeeps.points htriggered).insert (Nat.lt_succ_self _)
        rw [hobject]
        exact hpre
      · rw [Holds.table_update]
        rfl
      · rw [Holds.known_update]
        exact List.subset_append_left _ _
      · rw [Holds.known_update]
        exact List.mem_append_right _ (mem_routes.mpr (AList.lookup_insert _))
  | some p =>
    obtain ⟨hlt, hold⟩ := h.points entry.pre p hp
    rw [hp, Option.map_some] at htable
    rw [htable] at hpre ⊢
    simp only
    cases hjudge : judge now hop entry.pre entry.cost (some (r.objects p)) with
    | unchanged => exact ⟨.refl r, htriggered, of_free hfree (h.unchanged _)⟩
    | stored info =>
      rw [hjudge] at hpre
      change info.pre = entry.pre at hpre
      have hkeeps := Keeps.lower r p info
      have hobject : (r.lower p info).objects p = { r.objects p with cost := info.cost } :=
        Function.update_self ..
      refine ⟨hkeeps, ?_, ?_, ?_⟩
      · apply (hkeeps.points htriggered).insert hlt
        rw [hobject, ← hold]
      · rw [settle_lower r hfree]
        exact (h.apply hp hpre).1
      · intro c hcritical
        cases hcritical
        simp only [Critical.Sound, hobject]
        refine ⟨hlt, trivial, hold.trans hpre.symm, r.objects p, ?_, rfl⟩
        rw [Holds.known_update, hpre, ← hold]
        exact List.mem_append_left _ (h.known p hlt)
    | deleted info =>
      rw [hjudge] at hpre
      have hkeeps := Keeps.write r (Eq.trans hpre hold.symm)
      have hobject : (r.write p info).objects p = info := Function.update_self ..
      refine ⟨⟨hkeeps.shell, hkeeps.count, hkeeps.pre⟩, ?_, of_free hfree (h.apply hp hpre).2⟩
      apply (hkeeps.points htriggered).insert hlt
      rw [hobject]
      exact hpre

end Router.Follows

/-- A visit of the collector is a step of the network. -/
theorem Router.Holds.sweepRoute {V : Type*} [DecidableEq V] {u : V} {r : Router}
    {t : Internet V Addr} (h : r.Holds u t) {triggered : PointerMap}
    (htriggered : r.Points triggered) (now : ℕ) (pre : Prefix) :
    let result := r.sweepRoute now pre triggered
    Keeps r result.1 ∧ result.1.Points result.2 ∧
      result.1.Holds u (t.update u (expireRoute now (t.table u) pre)) := by
  have hidle : r.Holds u (t.update u ⟨t.table u, ∅⟩) := h.unchanged pre
  unfold Router.sweepRoute expireRoute
  simp only
  rw [h.table pre]
  cases hp : r.table.lookup pre with
  | none => exact ⟨.refl r, htriggered, hidle⟩
  | some p =>
    obtain ⟨hlt, hpre⟩ := h.points pre p hp
    simp only [Option.map_some, Rip.collect]
    split
    · have hinfo : ({ r.objects p with cost := infty } : ForwardingInfo Addr).pre = pre := hpre
      have hkeeps := Keeps.write r (hinfo.trans hpre.symm)
      refine ⟨⟨hkeeps.shell, hkeeps.count, hkeeps.pre⟩, ?_, (h.apply hp hinfo).2⟩
      apply (hkeeps.points htriggered).insert hlt
      exact (hkeeps.pre p hlt).trans hpre
    · exact ⟨.refl r, htriggered, hidle⟩

end IpTcp
