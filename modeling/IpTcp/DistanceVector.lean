import Mathlib.Combinatorics.SimpleGraph.Walk.Basic
import Mathlib.Order.Bounds.Basic

/-!
Distance vectors for one destination, over links that lose nothing and keep the order
of messages. A node tells its neighbours the cost of its route, and poisons it towards
the neighbour that it routes through. Every fact about a link is about the routes of
its two ends and the messages on it, so that it is proved for that triple and then
used for every link of the graph.
-/
namespace IpTcp.DistanceVector

variable {V N : Type*}

section Within

variable (graph : SimpleGraph V) (owner : V → Prop)

def Within (n : ℕ) (u : V) : Prop :=
  ∃ o, owner o ∧ ∃ path : graph.Walk u o, path.length ≤ n

variable {graph owner} {n m : ℕ} {u v : V}

theorem Within.cons (h : Within graph owner n v) (hadj : graph.Adj v u) :
    Within graph owner (n + 1) u := by
  obtain ⟨o, howner, path, hlength⟩ := h
  exact ⟨o, howner, .cons hadj.symm path, Nat.succ_le_succ hlength⟩

theorem Within.mono (h : Within graph owner n u) (hle : n ≤ m) : Within graph owner m u := by
  obtain ⟨o, howner, path, hlength⟩ := h
  exact ⟨o, howner, path, hlength.trans hle⟩

end Within

structure Route (N : Type*) where
  cost : ℕ
  next : N

inductive Msg
  | request
  | update (cost : ℕ)

/-- The links, the name by which the second node knows the first, and the cost that counts
as unreachable. -/
structure Links (V N : Type*) where
  graph : SimpleGraph V
  name : V → V → N
  name_inj : ∀ {u v w}, graph.Adj v u → graph.Adj w u → name v u = name w u → v = w
  inf : ℕ

/-- The messages from the first node to the second are in `queue`, the oldest first. -/
@[ext] structure State (V N : Type*) where
  route : V → Option (Route N)
  queue : V → V → List Msg

def Improves (r r' : Option (Route N)) : Prop :=
  ∀ old, r = some old → ∃ new, r' = some new ∧ new.cost ≤ old.cost

theorem Improves.refl (r : Option (Route N)) : Improves r r :=
  fun old hold => ⟨old, hold, Nat.le_refl _⟩

theorem Improves.trans {r r' r'' : Option (Route N)} (h : Improves r r') (h' : Improves r' r'') :
    Improves r r'' := by
  intro old hold
  obtain ⟨mid, hmid, hle⟩ := h old hold
  obtain ⟨new, hnew, hle'⟩ := h' mid hmid
  exact ⟨new, hnew, hle'.trans hle⟩

section Machine

variable [DecidableEq N] (inf : ℕ)

def advert (dst : N) (r : Route N) : ℕ := if dst = r.next then inf else r.cost

/-- The route after a cost was offered by a neighbour, and the route that is then told. -/
def learn (hop : N) (cost : ℕ) : Option (Route N) → Option (Route N) × Option (Route N)
  | none => if cost ≠ inf then (some ⟨cost, hop⟩, some ⟨cost, hop⟩) else (none, none)
  | some r =>
      if r.cost > cost then (some ⟨cost, hop⟩, some ⟨cost, hop⟩)
      else if r.cost < cost then
        if hop = r.next then (none, some ⟨cost, r.next⟩) else (some r, none)
      else if hop = r.next then (some r, some r) else (some r, none)

variable [DecidableEq V] (links : Links V N)

namespace State

def take (s : State V N) (v u : V) (rest : List Msg) (r : Option (Route N)) : State V N where
  route := Function.update s.route u r
  queue a b := if a = v ∧ b = u then rest else s.queue a b

/-- A route is told to each neighbour in as many copies as given. -/
def post (s : State V N) (u : V) (copies : V → ℕ) (r : Route N) : State V N where
  route := s.route
  queue a b := if a = u then
    s.queue a b ++ List.replicate (copies b) (.update (advert links.inf (links.name b u) r))
    else s.queue a b

end State

/-- A request is answered if there is a route. An update is learned, and the route is told to
all neighbours if it says so. A node may tell its route at any time. -/
inductive Step (s : State V N) : State V N → Prop
  | ignore {v u : V} {rest : List Msg} (hqueue : s.queue v u = .request :: rest)
      (hroute : s.route u = none) : Step s (s.take v u rest none)
  | answer {v u : V} {rest : List Msg} {r : Route N} {copies : V → ℕ}
      (hqueue : s.queue v u = .request :: rest) (hroute : s.route u = some r)
      (hcopies : ∀ w, 0 < copies w → links.graph.Adj u w) (hpos : 0 < copies v) :
      Step s ((s.take v u rest (some r)).post links u copies r)
  | quiet {v u : V} {m : ℕ} {rest : List Msg} {r' : Option (Route N)}
      (hqueue : s.queue v u = .update m :: rest)
      (hlearn : learn links.inf (links.name v u) (min (m + 1) links.inf) (s.route u) = (r', none)) :
      Step s (s.take v u rest r')
  | spread {v u : V} {m : ℕ} {rest : List Msg} {r' : Option (Route N)} {r : Route N}
      {copies : V → ℕ} (hqueue : s.queue v u = .update m :: rest)
      (hlearn : learn links.inf (links.name v u) (min (m + 1) links.inf) (s.route u) =
        (r', some r)) (hcopies : ∀ w, 0 < copies w ↔ links.graph.Adj u w) :
      Step s ((s.take v u rest r').post links u copies r)
  | tell {u : V} {r : Route N} {copies : V → ℕ} (hroute : s.route u = some r)
      (hcopies : ∀ w, 0 < copies w → links.graph.Adj u w) : Step s (s.post links u copies r)

end Machine

def Sorted (inf : ℕ) (a b : Msg) : Prop :=
  ∀ m m', a = .update m → b = .update m' → m' < inf → m' ≤ m

/-- No cost before a poisoned one is below `c`. -/
def Covered (inf c : ℕ) (a b : Msg) : Prop :=
  b = .update inf → ∀ m, a = .update m → c ≤ m

/-- What holds between the routes of the two ends of a link and the messages on it. The
receiver knows the sender as `hop`. -/
structure LinkSafe (inf : ℕ) (hop : N) (source target : Option (Route N)) (queue : List Msg) :
    Prop where
  parent : ∀ r, target = some r → r.next = hop → ∃ r', source = some r' ∧ r'.cost < r.cost
  cost_le : ∀ m, .update m ∈ queue → m ≤ inf
  offered : ∀ m, .update m ∈ queue → m < inf → ∃ r, source = some r ∧ r.cost ≤ m
  sorted : queue.Pairwise (Sorted inf)
  fresh : ∀ r, target = some r → r.next = hop → ∀ m, .update m ∈ queue → m < r.cost
  poison : .update inf ∈ queue → ∃ r, target = some r ∧ r.next ≠ hop ∧
    queue.Pairwise (Covered inf r.cost)

namespace LinkSafe

variable {inf m : ℕ} {hop back : N} {source source' target : Option (Route N)}
  {queue : List Msg} {msg : Msg} {r : Route N}

theorem improve_source (h : LinkSafe inf hop source target queue) (hle : Improves source source') :
    LinkSafe inf hop source' target queue where
  parent r hr hnext := by
    obtain ⟨old, hold, hlt⟩ := h.parent r hr hnext
    obtain ⟨new, hnew, hcost⟩ := hle old hold
    exact ⟨new, hnew, hcost.trans_lt hlt⟩
  cost_le := h.cost_le
  offered m hm hlt := by
    obtain ⟨old, hold, hcost⟩ := h.offered m hm hlt
    obtain ⟨new, hnew, hcost'⟩ := hle old hold
    exact ⟨new, hnew, hcost'.trans hcost⟩
  sorted := h.sorted
  fresh := h.fresh
  poison := h.poison

/-- The receiver finds a better route over another neighbour. -/
theorem improve_target (h : LinkSafe inf hop source target queue) (hnext : r.next ≠ hop)
    (hle : Improves target (some r)) : LinkSafe inf hop source (some r) queue where
  parent := by
    rintro _ ⟨⟩ hhop
    exact absurd hhop hnext
  cost_le := h.cost_le
  offered := h.offered
  sorted := h.sorted
  fresh := by
    rintro _ ⟨⟩ hhop
    exact absurd hhop hnext
  poison hinf := by
    obtain ⟨old, hold, -, hcovered⟩ := h.poison hinf
    obtain ⟨_, ⟨⟩, hcost⟩ := hle old hold
    exact ⟨r, rfl, hnext, hcovered.imp fun hc hb m ha => hcost.trans (hc hb m ha)⟩

theorem tail (h : LinkSafe inf hop source target (msg :: queue)) :
    LinkSafe inf hop source target queue where
  parent := h.parent
  cost_le m hm := h.cost_le m (List.mem_cons_of_mem _ hm)
  offered m hm := h.offered m (List.mem_cons_of_mem _ hm)
  sorted := h.sorted.of_cons
  fresh r hr hnext m hm := h.fresh r hr hnext m (List.mem_cons_of_mem _ hm)
  poison hinf := by
    obtain ⟨r, hr, hnext, hcovered⟩ := h.poison (List.mem_cons_of_mem _ hinf)
    exact ⟨r, hr, hnext, hcovered.of_cons⟩

/-- No poison follows a cost that the receiver can use. -/
theorem not_poison (h : LinkSafe inf hop source target (.update m :: queue))
    (hbetter : ∀ r, target = some r → m + 1 < r.cost) : .update inf ∉ queue := by
  intro hinf
  obtain ⟨r, hr, -, hcovered⟩ := h.poison (List.mem_cons_of_mem _ hinf)
  have hle := (List.pairwise_cons.mp hcovered).1 _ hinf rfl m rfl
  have hlt := hbetter r hr
  omega

/-- The receiver uses the cost that it takes off. -/
theorem adopt (h : LinkSafe inf hop source target (.update m :: queue)) (hlt : m + 1 < inf)
    (hbetter : ∀ r, target = some r → m + 1 < r.cost) :
    LinkSafe inf hop source (some ⟨m + 1, hop⟩) queue where
  parent := by
    rintro _ ⟨⟩ -
    obtain ⟨r, hr, hle⟩ := h.offered m List.mem_cons_self (Nat.lt_of_succ_lt hlt)
    exact ⟨r, hr, Nat.lt_succ_of_le hle⟩
  cost_le := h.tail.cost_le
  offered := h.tail.offered
  sorted := h.tail.sorted
  fresh := by
    rintro _ ⟨⟩ - m' hm'
    have hne : m' ≠ inf := by
      rintro rfl
      exact h.not_poison hbetter hm'
    have hle := h.tail.cost_le m' hm'
    have hsorted := (List.pairwise_cons.mp h.sorted).1 _ hm' m m' rfl rfl (by omega)
    exact Nat.lt_succ_of_le hsorted
  poison hinf := absurd hinf (h.not_poison hbetter)

/-- Every cost on the link is at least that of the sender. -/
theorem source_le (h : LinkSafe inf hop (some r) target queue) (hfinite : r.cost < inf)
    (hm : .update m ∈ queue) : r.cost ≤ m := by
  rcases Nat.lt_or_ge m inf with hlt | hge
  · obtain ⟨_, ⟨⟩, hle⟩ := h.offered m hm hlt
    exact hle
  · exact hfinite.le.trans hge

theorem mem_append_replicate {c k : ℕ}
    (h : .update m ∈ queue ++ List.replicate k (.update c)) : .update m ∈ queue ∨ m = c := by
  rcases List.mem_append.mp h with hold | hnew
  · exact Or.inl hold
  · exact Or.inr (Msg.update.inj (List.eq_of_mem_replicate hnew))

/-- The sender tells its own cost. -/
theorem append_cost (h : LinkSafe inf hop (some r) target queue) (hfinite : r.cost < inf)
    (k : ℕ) : LinkSafe inf hop (some r) target (queue ++ List.replicate k (.update r.cost)) where
  parent := h.parent
  cost_le m hm := by
    rcases mem_append_replicate hm with hold | rfl
    · exact h.cost_le m hold
    · exact hfinite.le
  offered m hm hlt := by
    rcases mem_append_replicate hm with hold | rfl
    · exact h.offered m hold hlt
    · exact ⟨r, rfl, Nat.le_refl _⟩
  sorted := by
    refine List.pairwise_append.mpr ⟨h.sorted, ?_, ?_⟩
    · refine List.pairwise_replicate.mpr (Or.inr ?_)
      rintro _ _ ⟨⟩ ⟨⟩ -
      exact Nat.le_refl _
    · rintro _ ha _ hb m m' rfl rfl -
      rw [Msg.update.inj (List.eq_of_mem_replicate hb)]
      exact h.source_le hfinite ha
  fresh r' hr' hnext m hm := by
    rcases mem_append_replicate hm with hold | rfl
    · exact h.fresh r' hr' hnext m hold
    · obtain ⟨_, ⟨⟩, hlt⟩ := h.parent r' hr' hnext
      exact hlt
  poison hinf := by
    rcases mem_append_replicate hinf with hold | hinf
    · obtain ⟨r', hr', hnext, hcovered⟩ := h.poison hold
      refine ⟨r', hr', hnext, List.pairwise_append.mpr ⟨hcovered, ?_, ?_⟩⟩
      · refine List.pairwise_replicate.mpr (Or.inr ?_)
        intro heq
        exact absurd (Msg.update.inj heq) hfinite.ne
      · rintro a - b hb rfl
        exact absurd (Msg.update.inj (List.eq_of_mem_replicate hb)).symm hfinite.ne
    · exact absurd hinf.symm hfinite.ne

/-- The sender routes through the receiver and tells it so: the receiver has a lower cost and
does not route back. -/
theorem append_poison (h : LinkSafe inf hop (some r) target queue) (hfinite : r.cost < inf)
    {r' : Route N} (htarget : target = some r') (hlower : r'.cost < r.cost) (k : ℕ) :
    LinkSafe inf hop (some r) target (queue ++ List.replicate k (.update inf)) := by
  have hnext : r'.next ≠ hop := by
    intro hhop
    obtain ⟨_, ⟨⟩, hlt⟩ := h.parent r' htarget hhop
    exact Nat.lt_asymm hlt hlower
  have hall : ∀ m, .update m ∈ queue ++ List.replicate k (.update inf) → r'.cost ≤ m := by
    intro m hm
    rcases mem_append_replicate hm with hold | rfl
    · exact hlower.le.trans (h.source_le hfinite hold)
    · exact (hlower.trans hfinite).le
  constructor
  case parent => exact h.parent
  case cost_le =>
    intro m hm
    rcases mem_append_replicate hm with hold | rfl
    · exact h.cost_le m hold
    · exact Nat.le_refl _
  case offered =>
    intro m hm hlt
    rcases mem_append_replicate hm with hold | rfl
    · exact h.offered m hold hlt
    · exact absurd hlt (Nat.lt_irrefl _)
  case sorted =>
    refine List.pairwise_append.mpr ⟨h.sorted, ?_, ?_⟩
    · refine List.pairwise_replicate.mpr (Or.inr ?_)
      rintro _ _ ⟨⟩ ⟨⟩ -
      exact Nat.le_refl _
    · rintro _ - _ hb m m' - rfl hlt
      exact absurd (Msg.update.inj (List.eq_of_mem_replicate hb)) hlt.ne
  case fresh =>
    intro r'' hr'' hhop
    rw [htarget] at hr''
    cases hr''
    exact absurd hhop hnext
  case poison =>
    intro hinf
    refine ⟨r', htarget, hnext, List.pairwise_of_forall_mem_list ?_⟩
    rintro _ ha b - - m rfl
    exact hall m ha

/-- The sender tells its route as the receiver is to see it. -/
theorem append_advert [DecidableEq N] (h : LinkSafe inf hop (some r) target queue)
    (hfinite : r.cost < inf)
    (hback : r.next = back → ∃ r', target = some r' ∧ r'.cost < r.cost) (k : ℕ) :
    LinkSafe inf hop (some r) target
      (queue ++ List.replicate k (.update (advert inf back r))) := by
  unfold advert
  split
  · rename_i hnext
    obtain ⟨r', hr', hlt⟩ := hback hnext.symm
    exact h.append_poison hfinite hr' hlt k
  · exact h.append_cost hfinite k

end LinkSafe

section Invariant

variable (links : Links V N) (owner : V → Prop)

structure Safe (s : State V N) : Prop where
  owned : ∀ u, owner u → ∃ r, s.route u = some r ∧ r.cost = 0
  finite : ∀ u r, s.route u = some r → r.cost < links.inf
  within : ∀ u r, s.route u = some r → Within links.graph owner r.cost u
  adj : ∀ v u, s.queue v u ≠ [] → links.graph.Adj v u
  link : ∀ v u, links.graph.Adj v u →
    LinkSafe links.inf (links.name v u) (s.route v) (s.route u) (s.queue v u)

/-- The neighbour has asked for the route, is being told or has it already, unless it is too
far away or the one that the route leads through. -/
def Told (s : State V N) (u v : V) : Prop :=
  ∀ r, s.route u = some r → r.next ≠ links.name v u →
    .request ∈ s.queue v u ∨ .update r.cost ∈ s.queue u v ∨ links.inf ≤ r.cost + 1 ∨
      ∃ r', s.route v = some r' ∧ r'.cost ≤ r.cost + 1

structure Good (s : State V N) : Prop extends Safe links owner s where
  told : ∀ u v, links.graph.Adj u v → Told links s u v

variable {links owner} {s s' : State V N} {u v : V} {m : ℕ} {rest : List Msg}

/-- Every node starts with the routes that it owns and a request to each neighbour. -/
theorem Good.start (hinf : 0 < links.inf)
    (howner : ∀ u, owner u ↔ ∃ r, s.route u = some r)
    (hroute : ∀ u r, s.route u = some r →
      r.cost = 0 ∧ ∀ v, links.graph.Adj v u → r.next ≠ links.name v u)
    (hadj : ∀ v u, s.queue v u ≠ [] → links.graph.Adj v u)
    (hqueue : ∀ v u, links.graph.Adj v u → s.queue v u = [.request]) : Good links owner s where
  owned u hu := by
    obtain ⟨r, hr⟩ := (howner u).mp hu
    exact ⟨r, hr, (hroute u r hr).1⟩
  finite u r hr := by
    rw [(hroute u r hr).1]
    exact hinf
  within u r hr := ⟨u, (howner u).mpr ⟨r, hr⟩, .nil, Nat.zero_le _⟩
  adj := hadj
  link v u hvu := by
    have hnext : ∀ r, s.route u = some r → r.next ≠ links.name v u :=
      fun r hr => (hroute u r hr).2 v hvu
    have hnone : ∀ m, .update m ∉ s.queue v u := by simp [hqueue v u hvu]
    constructor
    case parent => exact fun r hr hhop => absurd hhop (hnext r hr)
    case cost_le => exact fun m hm => absurd hm (hnone m)
    case offered => exact fun m hm => absurd hm (hnone m)
    case sorted => simp [hqueue v u hvu]
    case fresh => exact fun r hr hhop => absurd hhop (hnext r hr)
    case poison => exact fun hm => absurd hm (hnone _)
  told u v huv r hr hnext := by
    rw [hqueue v u huv.symm]
    exact Or.inl List.mem_cons_self

/-- Without messages every node near an owner has a route that costs no more than the way. -/
theorem Good.cost_le_length (h : Good links owner s) (hquiet : ∀ v u, s.queue v u = []) {o : V}
    (howner : owner o) (path : links.graph.Walk u o) (hlength : path.length < links.inf) :
    ∃ r, s.route u = some r ∧ r.cost ≤ path.length := by
  induction path with
  | nil =>
    obtain ⟨r, hr, hzero⟩ := h.owned _ howner
    exact ⟨r, hr, hzero.le⟩
  | @cons u v o huv path ih =>
    rw [SimpleGraph.Walk.length_cons] at hlength ⊢
    obtain ⟨r, hr, hle⟩ := ih howner (by omega)
    by_cases hnext : r.next = links.name u v
    · obtain ⟨r', hr', hlt⟩ := (h.link u v huv).parent r hr hnext
      exact ⟨r', hr', by omega⟩
    · rcases h.told v u huv.symm r hr hnext with hrequest | hupdate | hfar | ⟨r', hr', hcost⟩
      · simp [hquiet] at hrequest
      · simp [hquiet] at hupdate
      · omega
      · exact ⟨r', hr', by omega⟩

/-- Without messages a node has a route if an owner is near enough, and no other, and its
cost is the length of a shortest way to an owner. -/
theorem Good.converged (h : Good links owner s) (hquiet : ∀ v u, s.queue v u = []) (u : V) :
    ((∃ r, s.route u = some r) ↔ ∃ n < links.inf, Within links.graph owner n u) ∧
      ∀ r, s.route u = some r →
        IsLeast {n | ∃ o, owner o ∧ ∃ path : links.graph.Walk u o, path.length = n} r.cost := by
  constructor
  · constructor
    · rintro ⟨r, hr⟩
      exact ⟨r.cost, h.finite u r hr, h.within u r hr⟩
    · rintro ⟨n, hn, o, howner, path, hlength⟩
      obtain ⟨r, hr, -⟩ := h.cost_le_length hquiet howner path (hlength.trans_lt hn)
      exact ⟨r, hr⟩
  · intro r hr
    have hleast : ∀ o, owner o → ∀ path : links.graph.Walk u o, r.cost ≤ path.length := by
      intro o howner path
      rcases Nat.lt_or_ge path.length links.inf with hlt | hge
      · obtain ⟨r', hr', hle⟩ := h.cost_le_length hquiet howner path hlt
        rw [Option.some.inj (hr.symm.trans hr')]
        exact hle
      · exact (h.finite u r hr).le.trans hge
    obtain ⟨o, howner, path, hlength⟩ := h.within u r hr
    refine ⟨⟨o, howner, path, Nat.le_antisymm hlength (hleast o howner path)⟩, ?_⟩
    rintro _ ⟨o', howner', path', rfl⟩
    exact hleast o' howner' path'

variable [DecidableEq V] {msg : Msg} {r : Route N} {r' : Option (Route N)} {a b : V}

theorem take_queue_self (s : State V N) (v u : V) (rest : List Msg) (r' : Option (Route N)) :
    (s.take v u rest r').queue v u = rest :=
  if_pos ⟨rfl, rfl⟩

theorem take_queue_of_ne (hne : ¬ (a = v ∧ b = u)) : (s.take v u rest r').queue a b = s.queue a b :=
  if_neg hne

theorem take_route_self (s : State V N) (v u : V) (rest : List Msg) (r' : Option (Route N)) :
    (s.take v u rest r').route u = r' :=
  Function.update_self ..

theorem take_route_of_ne (hne : a ≠ u) : (s.take v u rest r').route a = s.route a :=
  Function.update_of_ne hne ..

theorem take_route_same : (s.take v u rest (s.route u)).route = s.route :=
  Function.update_eq_self u s.route

theorem take_same (hqueue : s.queue v u = rest) : s.take v u rest (s.route u) = s := by
  refine State.ext take_route_same ?_
  funext a b
  by_cases hab : a = v ∧ b = u
  · obtain ⟨rfl, rfl⟩ := hab
    rw [take_queue_self, hqueue]
  · exact take_queue_of_ne hab

theorem mem_take_queue (hqueue : s.queue v u = msg :: rest)
    {msg' : Msg} (h : msg' ∈ (s.take v u rest r').queue a b) : msg' ∈ s.queue a b := by
  by_cases hab : a = v ∧ b = u
  · obtain ⟨rfl, rfl⟩ := hab
    rw [take_queue_self] at h
    rw [hqueue]
    exact List.mem_cons_of_mem _ h
  · rwa [take_queue_of_ne hab] at h

theorem take_improves (v : V) (rest : List Msg) (hle : Improves (s.route u) r') (a : V) :
    Improves (s.route a) ((s.take v u rest r').route a) := by
  by_cases ha : a = u
  · subst ha
    rwa [take_route_self]
  · rw [take_route_of_ne ha]
    exact Improves.refl _

theorem Safe.take_adj (h : Safe links owner s) (hqueue : s.queue v u = msg :: rest)
    (hne : (s.take v u rest r').queue a b ≠ []) : links.graph.Adj a b := by
  obtain ⟨msg', hmsg'⟩ := List.exists_mem_of_ne_nil _ hne
  exact h.adj a b (List.ne_nil_of_mem (mem_take_queue hqueue hmsg'))

/-- A message is taken off and changes nothing. -/
theorem Safe.pop (h : Safe links owner s) (hqueue : s.queue v u = msg :: rest) :
    Safe links owner (s.take v u rest (s.route u)) := by
  constructor
  case owned => rw [take_route_same]; exact h.owned
  case finite => rw [take_route_same]; exact h.finite
  case within => rw [take_route_same]; exact h.within
  case adj => exact fun a b => h.take_adj hqueue
  case link =>
    intro a b hadj
    rw [take_route_same]
    by_cases hab : a = v ∧ b = u
    · obtain ⟨rfl, rfl⟩ := hab
      rw [take_queue_self]
      exact (hqueue ▸ h.link a b hadj).tail
    · rw [take_queue_of_ne hab]
      exact h.link a b hadj

/-- The links of a node that takes off a cost and uses it. -/
theorem Safe.adopt_link (h : Safe links owner s) (hqueue : s.queue v u = .update m :: rest)
    (hlt : m + 1 < links.inf) (hbetter : ∀ r, s.route u = some r → m + 1 < r.cost)
    (hab : links.graph.Adj a b) :
    let s' := s.take v u rest (some ⟨m + 1, links.name v u⟩)
    LinkSafe links.inf (links.name a b) (s'.route a) (s'.route b) (s'.queue a b) := by
  intro s'
  have hvu := h.adj v u (by simp [hqueue])
  have hle : Improves (s.route u) (some ⟨m + 1, links.name v u⟩) :=
    fun old hold => ⟨_, rfl, (hbetter old hold).le⟩
  have hself : s'.route u = some ⟨m + 1, links.name v u⟩ := take_route_self ..
  have hother : ∀ w, w ≠ u → s'.route w = s.route w := fun w hw => take_route_of_ne hw
  by_cases hb : b = u
  · subst hb
    by_cases ha : a = v
    · subst ha
      rw [hself, hother a hab.ne, take_queue_self]
      exact (hqueue ▸ h.link a b hab).adopt hlt hbetter
    · rw [hself, hother a hab.ne, take_queue_of_ne (fun heq => ha heq.1)]
      refine (h.link a b hab).improve_target ?_ hle
      exact fun hname => ha (links.name_inj hvu hab hname).symm
  · rw [hother b hb, take_queue_of_ne (fun heq => hb heq.2)]
    exact (h.link a b hab).improve_source (take_improves v rest hle a)

theorem Safe.adopt (h : Safe links owner s) (hqueue : s.queue v u = .update m :: rest)
    (hlt : m + 1 < links.inf) (hbetter : ∀ r, s.route u = some r → m + 1 < r.cost) :
    Safe links owner (s.take v u rest (some ⟨m + 1, links.name v u⟩)) := by
  have hvu := h.adj v u (by simp [hqueue])
  have hroute : ∀ P : V → Route N → Prop, (∀ a r, s.route a = some r → P a r) →
      P u ⟨m + 1, links.name v u⟩ → ∀ a r,
      (s.take v u rest (some ⟨m + 1, links.name v u⟩)).route a = some r → P a r := by
    intro P hold hnew a r hr
    by_cases ha : a = u
    · subst ha
      rw [take_route_self, Option.some.injEq] at hr
      exact hr ▸ hnew
    · rw [take_route_of_ne ha] at hr
      exact hold a r hr
  constructor
  case owned =>
    intro a ha
    obtain ⟨old, hold, hzero⟩ := h.owned a ha
    have hne : a ≠ u := by
      rintro rfl
      have hlow := hbetter old hold
      omega
    exact ⟨old, (take_route_of_ne hne).trans hold, hzero⟩
  case finite => exact hroute (fun _ r => r.cost < links.inf) h.finite hlt
  case within =>
    refine hroute (fun a r => Within links.graph owner r.cost a) h.within ?_
    have hlink := hqueue ▸ h.link v u hvu
    obtain ⟨r', hr', hle⟩ := hlink.offered m List.mem_cons_self (Nat.lt_of_succ_lt hlt)
    exact ((h.within v r' hr').mono hle).cons hvu
  case adj => exact fun a b => h.take_adj hqueue
  case link => exact fun a b hab => h.adopt_link hqueue hlt hbetter hab

/-- Another node than the one that takes off a message: if it was the one that told, the
receiver has learned. -/
theorem Told.take_other (h : Told links s a b) (ha : a ≠ u)
    (hqueue : s.queue v u = msg :: rest) (hle : Improves (s.route u) r')
    (hlearned : ∀ m, msg = .update m → links.inf ≤ m + 1 ∨ ∃ r, r' = some r ∧ r.cost ≤ m + 1) :
    Told links (s.take v u rest r') a b := by
  intro r hr hnext
  rw [take_route_of_ne ha] at hr
  rcases h r hr hnext with hrequest | hupdate | hfar | ⟨old, hold, hcost⟩
  · rw [take_queue_of_ne (fun heq => ha heq.2)]
    exact Or.inl hrequest
  · by_cases hab : a = v ∧ b = u
    · obtain ⟨rfl, rfl⟩ := hab
      rw [hqueue] at hupdate
      rcases List.mem_cons.mp hupdate with hhead | htail
      · rcases hlearned r.cost hhead.symm with hfar | ⟨new, hnew, hcost⟩
        · exact Or.inr (Or.inr (Or.inl hfar))
        · exact Or.inr (Or.inr (Or.inr ⟨new, (take_route_self ..).trans hnew, hcost⟩))
      · rw [take_queue_self]
        exact Or.inr (Or.inl htail)
    · rw [take_queue_of_ne hab]
      exact Or.inr (Or.inl hupdate)
  · exact Or.inr (Or.inr (Or.inl hfar))
  · obtain ⟨new, hnew, hcost'⟩ := take_improves v rest hle b old hold
    exact Or.inr (Or.inr (Or.inr ⟨new, hnew, hcost'.trans hcost⟩))

/-- The node that takes off a message and keeps its route, unless it was asked for it. -/
theorem Told.take_self (h : Told links s u b) (hub : links.graph.Adj u b)
    (hqueue : s.queue v u = msg :: rest) (hmsg : b = v → msg ≠ .request) :
    Told links (s.take v u rest (s.route u)) u b := by
  intro r hr hnext
  rw [take_route_same] at hr
  rcases h r hr hnext with hrequest | hupdate | hlearned
  · refine Or.inl ?_
    by_cases hb : b = v
    · subst hb
      rw [hqueue] at hrequest
      rw [take_queue_self]
      exact (List.mem_cons.mp hrequest).resolve_left (hmsg rfl).symm
    · rwa [take_queue_of_ne (fun heq => hb heq.1)]
  · rw [take_queue_of_ne (fun heq => hub.ne heq.2.symm)]
    exact Or.inr (Or.inl hupdate)
  · rw [take_route_same]
    exact Or.inr (Or.inr hlearned)

variable [DecidableEq N]

omit [DecidableEq V] in
/-- Nothing is deleted: a cost that a node takes off is not higher than its own if it comes
from the neighbour that the route leads through. -/
theorem Safe.learn_cases (h : Safe links owner s) (hqueue : s.queue v u = .update m :: rest)
    {r' told : Option (Route N)}
    (hlearn : learn links.inf (links.name v u) (min (m + 1) links.inf) (s.route u) = (r', told)) :
    (r' = s.route u ∧ (told = none ∨ told = s.route u) ∧
      (links.inf ≤ m + 1 ∨ ∃ r, s.route u = some r ∧ r.cost ≤ m + 1)) ∨
    (m + 1 < links.inf ∧ r' = some ⟨m + 1, links.name v u⟩ ∧ told = r' ∧
      ∀ r, s.route u = some r → m + 1 < r.cost) := by
  have hlink := h.link v u (h.adj v u (by simp [hqueue]))
  rw [hqueue] at hlink
  cases hroute : s.route u with
  | none =>
    simp only [hroute, learn] at hlearn
    split at hlearn
    · rename_i hne
      have hlt : m + 1 < links.inf := by omega
      rw [Nat.min_eq_left hlt.le] at hlearn
      cases hlearn
      exact Or.inr ⟨hlt, rfl, rfl, by simp⟩
    · rename_i heq
      cases hlearn
      exact Or.inl ⟨rfl, Or.inl rfl, Or.inl (by omega)⟩
  | some r =>
    have hfinite := h.finite u r hroute
    simp only [hroute, learn] at hlearn
    split at hlearn
    · rename_i hgt
      have hlt : m + 1 < links.inf := by omega
      rw [Nat.min_eq_left hlt.le] at hlearn hgt
      cases hlearn
      refine Or.inr ⟨hlt, rfl, rfl, ?_⟩
      rintro _ ⟨⟩
      exact hgt
    · split at hlearn
      · split at hlearn
        · rename_i hlow hhop
          have hfresh := hlink.fresh r hroute hhop.symm m List.mem_cons_self
          omega
        · cases hlearn
          exact Or.inl ⟨rfl, Or.inl rfl, Or.inr ⟨r, rfl, by omega⟩⟩
      · split at hlearn
        · cases hlearn
          exact Or.inl ⟨rfl, Or.inr rfl, Or.inr ⟨r, rfl, by omega⟩⟩
        · cases hlearn
          exact Or.inl ⟨rfl, Or.inl rfl, Or.inr ⟨r, rfl, by omega⟩⟩

/-- A node tells its route. -/
theorem Safe.post (h : Safe links owner s) (hroute : s.route u = some r) {copies : V → ℕ}
    (hcopies : ∀ w, 0 < copies w → links.graph.Adj u w) :
    Safe links owner (s.post links u copies r) := by
  constructor
  case owned => exact h.owned
  case finite => exact h.finite
  case within => exact h.within
  case adj =>
    intro a b hne
    by_cases ha : a = u
    · subst ha
      simp only [State.post, if_true] at hne
      by_cases hold : s.queue a b = []
      · refine hcopies b (Nat.pos_of_ne_zero fun hzero => hne ?_)
        simp [hold, hzero]
      · exact h.adj a b hold
    · simp only [State.post, if_neg ha] at hne
      exact h.adj a b hne
  case link =>
    intro a b hab
    by_cases ha : a = u
    · subst ha
      simp only [State.post, if_true, hroute]
      have hlink := h.link a b hab
      rw [hroute] at hlink
      exact hlink.append_advert (h.finite a r hroute) ((h.link b a hab.symm).parent r hroute) _
    · simp only [State.post, if_neg ha]
      exact h.link a b hab

theorem mem_post_queue {copies : V → ℕ} (h : msg ∈ s.queue a b) :
    msg ∈ (s.post links u copies r).queue a b := by
  unfold State.post
  dsimp only
  split
  · exact List.mem_append_left _ h
  · exact h

theorem Told.post (h : Told links s a b) (copies : V → ℕ) :
    Told links (s.post links u copies r) a b := by
  intro r' hr' hnext
  rcases h r' hr' hnext with hrequest | hupdate | hlearned
  · exact Or.inl (mem_post_queue hrequest)
  · exact Or.inr (Or.inl (mem_post_queue hupdate))
  · exact Or.inr (Or.inr hlearned)

/-- Whoever gets a copy is told. -/
theorem told_post_self (hroute : s.route u = some r) {copies : V → ℕ} (hpos : 0 < copies b) :
    Told links (s.post links u copies r) u b := by
  intro r' hr' hnext
  have hsame : r' = r := Option.some.inj (hr'.symm.trans hroute)
  subst hsame
  refine Or.inr (Or.inl ?_)
  simp only [State.post, if_true, advert, if_neg (Ne.symm hnext)]
  exact List.mem_append_right _ (List.mem_replicate.mpr ⟨hpos.ne', rfl⟩)

/-- What a step keeps, and that it neither deletes a route nor raises a cost. -/
theorem Good.step (h : Good links owner s) (hstep : Step links s s') :
    Good links owner s' ∧ ∀ u, Improves (s.route u) (s'.route u) := by
  have hsafe := h.toSafe
  cases hstep with
  | @ignore v u rest hqueue hroute =>
    rw [← hroute]
    have hle := Improves.refl (s.route u)
    refine ⟨⟨hsafe.pop hqueue, fun a b hab => ?_⟩, take_improves v rest hle⟩
    by_cases ha : a = u
    · subst ha
      intro r hr
      rw [take_route_self, hroute] at hr
      contradiction
    · exact (h.told a b hab).take_other ha hqueue hle (by simp)
  | @answer v u rest r copies hqueue hroute hcopies hpos =>
    rw [← hroute]
    have hle := Improves.refl (s.route u)
    have hroute' : (s.take v u rest (s.route u)).route u = some r :=
      (take_route_self ..).trans hroute
    refine ⟨⟨(hsafe.pop hqueue).post hroute' hcopies, fun a b hab => ?_⟩, take_improves v rest hle⟩
    by_cases ha : a = u
    · subst ha
      by_cases hb : b = v
      · subst hb
        exact told_post_self hroute' hpos
      · exact ((h.told a b hab).take_self hab hqueue (fun heq => absurd heq hb)).post copies
    · exact ((h.told a b hab).take_other ha hqueue hle (by simp)).post copies
  | @quiet v u m rest r' hqueue hlearn =>
    rcases hsafe.learn_cases hqueue hlearn with ⟨rfl, -, hlearned⟩ | ⟨-, rfl, htold, -⟩
    · have hle := Improves.refl (s.route u)
      refine ⟨⟨hsafe.pop hqueue, fun a b hab => ?_⟩, take_improves v rest hle⟩
      by_cases ha : a = u
      · subst ha
        exact (h.told a b hab).take_self hab hqueue (by simp)
      · refine (h.told a b hab).take_other ha hqueue hle ?_
        rintro _ ⟨⟩
        exact hlearned
    · contradiction
  | @spread v u m rest r' r copies hqueue hlearn hcopies =>
    have hresult : Safe links owner (s.take v u rest r') ∧ Improves (s.route u) r' ∧
        r' = some r ∧ (links.inf ≤ m + 1 ∨ ∃ r, r' = some r ∧ r.cost ≤ m + 1) := by
      rcases hsafe.learn_cases hqueue hlearn with
        ⟨rfl, htold, hlearned⟩ | ⟨hlt, rfl, htold, hbetter⟩
      · exact ⟨hsafe.pop hqueue, Improves.refl _, (htold.resolve_left (by simp)).symm, hlearned⟩
      · exact ⟨hsafe.adopt hqueue hlt hbetter, fun old hold => ⟨_, rfl, (hbetter old hold).le⟩,
          htold.symm, Or.inr ⟨_, rfl, Nat.le_refl _⟩⟩
    obtain ⟨htake, hle, hnew, hlearned⟩ := hresult
    have hroute' : (s.take v u rest r').route u = some r := (take_route_self ..).trans hnew
    refine ⟨⟨htake.post hroute' fun w => (hcopies w).mp, fun a b hab => ?_⟩,
      take_improves v rest hle⟩
    by_cases ha : a = u
    · subst ha
      exact told_post_self hroute' ((hcopies b).mpr hab)
    · refine ((h.told a b hab).take_other ha hqueue hle ?_).post copies
      rintro _ ⟨⟩
      exact hlearned
  | @tell u r copies hroute hcopies =>
    refine ⟨⟨hsafe.post hroute hcopies, fun a b hab => (h.told a b hab).post copies⟩, ?_⟩
    exact fun a => Improves.refl _

end Invariant

end IpTcp.DistanceVector
