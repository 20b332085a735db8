import IpTcp.RipSoundness

/-!
RIP on a network that does not change. Packets are handled one at a time and arrive in
order, and no route expires. For each prefix the tables and the packets on the links
are a state of the distance-vector machine, and every step of the network is one of
its steps or leaves it as it is. So no route is deleted, no cost goes up, and when no
packet is left the costs are the distances.
-/
namespace IpTcp.Rip

open Runs

/-- A network with RIP on all its links. Neighbours of a node have different addresses, none
of which is its own, and nothing is configured but interfaces. -/
structure StableNetwork (V A : Type*) extends Topology V A where
  ripNeighbors : V → List A
  mem_ripNeighbors : ∀ u a, a ∈ ripNeighbors u ↔ ∃ v, graph.Adj v u ∧ addr v u = a
  addr_inj : ∀ {u v w}, graph.Adj v u → graph.Adj w u → addr v u = addr w u → v = w
  own_addr : ∀ {u v}, graph.Adj v u → ∀ iface ∈ (config u).Interfaces, iface.1 ≠ addr v u
  static_nil : ∀ u, (config u).StaticRoutes = []

@[ext] structure Traffic (V A : Type*) where
  table : V → Table A
  queue : V → V → List RipPacket

inductive TrafficEvent (V A : Type*)
  | deliver (now : ℕ) (v u : V) (packet : RipPacket)
  | periodic (u v : V) (subset : Table A)

def RipPacket.Same : RipPacket → RipPacket → Prop
  | .request, .request => True
  | .response entries, .response entries' => entries.Perm entries'
  | _, _ => False

instance (packet packet' : RipPacket) : Decidable (packet.Same packet') :=
  match packet, packet' with
  | .request, .request => .isTrue trivial
  | .response entries, .response entries' => inferInstanceAs (Decidable (entries.Perm entries'))
  | .request, .response _ => .isFalse id
  | .response _, .request => .isFalse id

variable {V A : Type*} [DecidableEq V] [DecidableEq A]

namespace Traffic

variable (net : StableNetwork V A) [DecidableRel net.graph.Adj]

def start : Traffic V A where
  table u := initialTable (net.config u)
  queue v u := if net.graph.Adj v u then [.request] else []

def take (s : Traffic V A) (v u : V) (rest : List RipPacket) (table : Table A) : Traffic V A where
  table := Function.update s.table u table
  queue a b := if a = v ∧ b = u then rest else s.queue a b

/-- Responses go to the neighbours whose addresses they carry. -/
def post (s : Traffic V A) (u : V) (out : List (A × List RipUpdate)) : Traffic V A where
  table := s.table
  queue a b := if a = u ∧ net.graph.Adj u b then
    s.queue a b ++ (out.filter fun m => m.1 = net.addr b u).map fun m => .response m.2
    else s.queue a b

/-- sendRIP visits its map in any order, so that a packet is handed over up to the order of
its entries. A periodic update sends the routes of an older table as they are now. -/
def step (s : Traffic V A) : TrafficEvent V A → Option (Traffic V A)
  | .deliver now v u packet =>
      match s.queue v u with
      | [] => none
      | first :: rest =>
          if packet.Same first then
            let result := protocol200 now (net.ripNeighbors u) (s.table u) (net.addr v u) packet
            some ((s.take v u rest result.1).post net u result.2)
          else none
  | .periodic u v subset =>
      if net.graph.Adj u v ∧ ∀ route ∈ routes subset, route ∈ routes (s.table u) then
        some (s.post net u [(net.addr v u, sendRIP (net.addr v u) subset)])
      else none

end Traffic

section Entries

omit [DecidableEq V]

/-- In a list without repetitions the one that is looked for is found wherever it stands. -/
theorem find_eq_some_iff {α β : Type*} [DecidableEq β] {f : α → β} {l : List α}
    (hnodup : (l.map f).Nodup) {x : α} {y : β} :
    l.find? (fun x => f x = y) = some x ↔ x ∈ l ∧ f x = y := by
  induction l with
  | nil => simp
  | cons z l ih =>
    rw [List.map_cons, List.nodup_cons] at hnodup
    by_cases hz : f z = y
    · subst hz
      simp only [List.find?_cons, decide_true, Option.some.injEq, List.mem_cons]
      constructor
      · rintro rfl
        exact ⟨Or.inl rfl, rfl⟩
      · rintro ⟨rfl | hmem, hx⟩
        · rfl
        · exact absurd (hx ▸ List.mem_map_of_mem hmem) hnodup.1
    · simp only [List.find?_cons, hz, decide_false, ih hnodup.2, List.mem_cons]
      constructor
      · exact fun h => ⟨Or.inr h.1, h.2⟩
      · rintro ⟨rfl | hmem, hx⟩
        · exact absurd hx hz
        · exact ⟨hmem, hx⟩

theorem find_perm {α β : Type*} [DecidableEq β] {f : α → β} {l l' : List α} (hperm : l.Perm l')
    (hnodup : (l'.map f).Nodup) (y : β) :
    l.find? (fun x => f x = y) = l'.find? (fun x => f x = y) := by
  have hnodup' : (l.map f).Nodup := (hperm.map f).nodup_iff.mpr hnodup
  ext x
  rw [find_eq_some_iff hnodup, find_eq_some_iff hnodup', hperm.mem_iff]

def outcome (now : ℕ) (hop : A) (pre : Prefix) (cost : ℕ) (route : Option (ForwardingInfo A)) :
    Option (ForwardingInfo A) × Option (ForwardingInfo A) :=
  match judge now hop pre cost route with
  | .unchanged => (route, none)
  | .stored info => (some info, some info)
  | .deleted info => (none, some info)

variable {now : ℕ} {hop : A} {u : Update A} {entry : RipUpdate} {entries : List RipUpdate}
  {pre : Prefix}

theorem receiveEntry_of_ne (now : ℕ) (hop : A) (u : Update A) (hne : pre ≠ entry.pre) :
    (u.receiveEntry now hop entry).table.lookup pre = u.table.lookup pre ∧
      (u.receiveEntry now hop entry).triggered.lookup pre = u.triggered.lookup pre := by
  unfold Update.receiveEntry
  refine ⟨apply_lookup_ne hne _, ?_⟩
  generalize judge now hop entry.pre entry.cost _ = change
  cases change with
  | unchanged => rfl
  | stored info => exact AList.lookup_insert_ne hne
  | deleted info => exact AList.lookup_insert_ne hne

theorem receiveEntry_self (hnone : u.triggered.lookup entry.pre = none) :
    (u.receiveEntry now hop entry).table.lookup entry.pre =
        (outcome now hop entry.pre entry.cost (u.table.lookup entry.pre)).1 ∧
      (u.receiveEntry now hop entry).triggered.lookup entry.pre =
        (outcome now hop entry.pre entry.cost (u.table.lookup entry.pre)).2 := by
  unfold Update.receiveEntry outcome
  generalize judge now hop entry.pre entry.cost _ = change
  cases change with
  | unchanged => exact ⟨rfl, hnone⟩
  | stored info => exact ⟨AList.lookup_insert _, AList.lookup_insert _⟩
  | deleted info => exact ⟨AList.lookup_erase _ _, AList.lookup_insert _⟩

theorem foldl_receiveEntry_of_notMem (hne : pre ∉ entries.map RipUpdate.pre) :
    (entries.foldl (Update.receiveEntry now hop) u).table.lookup pre = u.table.lookup pre ∧
      (entries.foldl (Update.receiveEntry now hop) u).triggered.lookup pre =
        u.triggered.lookup pre := by
  induction entries generalizing u with
  | nil => exact ⟨rfl, rfl⟩
  | cons entry entries ih =>
    rw [List.map_cons, List.mem_cons, not_or] at hne
    obtain ⟨htable, htriggered⟩ := ih (u := u.receiveEntry now hop entry) hne.2
    obtain ⟨htable', htriggered'⟩ := receiveEntry_of_ne now hop u hne.1
    exact ⟨htable.trans htable', htriggered.trans htriggered'⟩

theorem foldl_receiveEntry_of_mem (hnodup : (entries.map RipUpdate.pre).Nodup)
    (hmem : entry ∈ entries) (hnone : u.triggered.lookup entry.pre = none) :
    (entries.foldl (Update.receiveEntry now hop) u).table.lookup entry.pre =
        (outcome now hop entry.pre entry.cost (u.table.lookup entry.pre)).1 ∧
      (entries.foldl (Update.receiveEntry now hop) u).triggered.lookup entry.pre =
        (outcome now hop entry.pre entry.cost (u.table.lookup entry.pre)).2 := by
  induction entries generalizing u with
  | nil => contradiction
  | cons first entries ih =>
    rw [List.map_cons, List.nodup_cons] at hnodup
    rcases List.mem_cons.mp hmem with rfl | hmem
    · obtain ⟨htable, htriggered⟩ :=
        foldl_receiveEntry_of_notMem (u := u.receiveEntry now hop entry) hnodup.1
      obtain ⟨htable', htriggered'⟩ := receiveEntry_self hnone
      exact ⟨htable.trans htable', htriggered.trans htriggered'⟩
    · have hne : entry.pre ≠ first.pre :=
        fun heq => hnodup.1 (heq ▸ List.mem_map_of_mem hmem)
      obtain ⟨htable, htriggered⟩ := receiveEntry_of_ne now hop u hne
      rw [← htable]
      exact ih hnodup.2 hmem (htriggered.trans hnone)

/-- A route under its own prefix, which is masked, with a cost that is at most infinite. -/
structure Plain (pre : Prefix) (info : ForwardingInfo A) : Prop where
  key : info.pre = pre
  masked : pre.masked = pre
  cost_le : info.cost ≤ infty

structure PlainEntries (entries : List RipUpdate) : Prop where
  nodup : (entries.map RipUpdate.pre).Nodup
  masked : ∀ entry ∈ entries, entry.pre.masked = entry.pre
  cost_le : ∀ entry ∈ entries, entry.Cost.toNat ≤ infty

theorem PlainEntries.perm {entries' : List RipUpdate} (h : PlainEntries entries')
    (hperm : entries.Perm entries') : PlainEntries entries where
  nodup := (hperm.map RipUpdate.pre).nodup_iff.mpr h.nodup
  masked entry hentry := h.masked entry (hperm.mem_iff.mp hentry)
  cost_le entry hentry := h.cost_le entry (hperm.mem_iff.mp hentry)

structure PlainUpdate (u : Update A) : Prop where
  table : ∀ pre info, u.table.lookup pre = some info → Plain pre info
  triggered : ∀ pre info, u.triggered.lookup pre = some info → Plain pre info

theorem PlainUpdate.receiveEntry (h : PlainUpdate u) (hmasked : entry.pre.masked = entry.pre) :
    PlainUpdate (u.receiveEntry now hop entry) := by
  have hle : entry.cost ≤ infty := Nat.min_le_right _ _
  have hstored : ∀ info, Plain entry.pre info →
      PlainUpdate (u.apply entry.pre (.stored info)) := fun info hinfo =>
    ⟨forall_lookup_insert h.table hinfo, forall_lookup_insert h.triggered hinfo⟩
  have hdeleted : ∀ info, Plain entry.pre info →
      PlainUpdate (u.apply entry.pre (.deleted info)) := fun info hinfo =>
    ⟨forall_lookup_erase _ h.table, forall_lookup_insert h.triggered hinfo⟩
  refine judge_rule (fun change => PlainUpdate (u.apply entry.pre change)) h ?_ ?_ ?_ ?_
  · exact fun _ _ => hstored _ ⟨rfl, hmasked, hle⟩
  · exact fun info hinfo _ => hstored _ ⟨(h.table _ info hinfo).key, hmasked, hle⟩
  · exact fun info hinfo _ _ => hdeleted _ ⟨(h.table _ info hinfo).key, hmasked, hle⟩
  · intro info hinfo _ _
    exact hstored _ ⟨(h.table _ info hinfo).key, hmasked, (h.table _ info hinfo).cost_le⟩

theorem PlainUpdate.foldl (h : PlainUpdate u)
    (hmasked : ∀ entry ∈ entries, entry.pre.masked = entry.pre) :
    PlainUpdate (entries.foldl (Update.receiveEntry now hop) u) := by
  induction entries generalizing u with
  | nil => exact h
  | cons entry entries ih =>
    rw [List.forall_mem_cons] at hmasked
    exact ih (h.receiveEntry hmasked.1) hmasked.2

variable {table : Table A}

/-- What sendRIP makes of a table of plain routes. -/
theorem mem_sendRIP (h : ∀ pre info, table.lookup pre = some info → Plain pre info) (dst : A) :
    entry ∈ sendRIP dst table ↔ ∃ info, table.lookup entry.pre = some info ∧
      entry = ripEntry dst entry.pre info := by
  have hpre : ∀ pre info, table.lookup pre = some info → (ripEntry dst pre info).pre = pre :=
    fun pre info hinfo => (ripEntry_pre dst (h pre info hinfo).key).trans (h pre info hinfo).masked
  unfold sendRIP
  rw [List.mem_map]
  constructor
  · rintro ⟨⟨pre, info⟩, hmem, rfl⟩
    have hinfo := AList.mem_lookup_iff.mpr hmem
    rw [hpre pre info hinfo]
    exact ⟨info, hinfo, rfl⟩
  · rintro ⟨info, hinfo, heq⟩
    exact ⟨⟨entry.pre, info⟩, AList.mem_lookup_iff.mp hinfo, heq.symm⟩

theorem sendRIP_plain (h : ∀ pre info, table.lookup pre = some info → Plain pre info) (dst : A) :
    PlainEntries (sendRIP dst table) where
  nodup := by
    have hkeys : (sendRIP dst table).map RipUpdate.pre = table.keys := by
      unfold sendRIP
      rw [List.map_map]
      refine List.map_congr_left ?_
      rintro ⟨pre, info⟩ hmem
      have hinfo := h pre info (AList.mem_lookup_iff.mpr hmem)
      exact (ripEntry_pre dst hinfo.key).trans hinfo.masked
    rw [hkeys]
    exact table.keys_nodup
  masked entry hentry := by
    obtain ⟨info, hinfo, -⟩ := (mem_sendRIP h dst).mp hentry
    exact (h entry.pre info hinfo).masked
  cost_le entry hentry := by
    obtain ⟨info, hinfo, heq⟩ := (mem_sendRIP h dst).mp hentry
    have hle := (h entry.pre info hinfo).cost_le
    rw [heq, ripEntry_cost dst _ (hle.trans_lt (by decide))]
    split
    · exact Nat.le_refl _
    · exact hle

end Entries

section View

def viewRoute (info : ForwardingInfo A) : DistanceVector.Route A := ⟨info.cost, info.next⟩

/-- What a packet is for the machine of a prefix. Responses without it are not seen. -/
def viewPacket (pre : Prefix) : RipPacket → Option DistanceVector.Msg
  | .request => some .request
  | .response entries =>
      (entries.find? fun entry => entry.pre = pre).map fun entry => .update entry.Cost.toNat

def Traffic.view (s : Traffic V A) (pre : Prefix) : DistanceVector.State V A where
  route u := ((s.table u).lookup pre).map viewRoute
  queue v u := (s.queue v u).filterMap (viewPacket pre)

def StableNetwork.links (net : StableNetwork V A) : DistanceVector.Links V A where
  graph := net.graph
  name := net.addr
  name_inj := net.addr_inj
  inf := infty

omit [DecidableEq V] in
/-- The handler's branches are those of the machine. -/
theorem outcome_learn (now : ℕ) (hop : A) (pre : Prefix) (cost : ℕ)
    (route : Option (ForwardingInfo A)) :
    DistanceVector.learn infty hop cost (route.map viewRoute) =
      ((outcome now hop pre cost route).1.map viewRoute,
        (outcome now hop pre cost route).2.map viewRoute) := by
  cases route with
  | none =>
    simp only [outcome, judge, DistanceVector.learn, Option.map_none]
    split
    · rfl
    · rfl
  | some info =>
    simp only [outcome, judge, DistanceVector.learn, Option.map_some, viewRoute]
    by_cases hgt : info.cost > cost
    · simp only [if_pos hgt]
      rfl
    · by_cases hlt : info.cost < cost
      · by_cases hhop : hop = info.next
        · simp only [if_neg hgt, if_pos hlt, if_pos hhop]
          rfl
        · simp only [if_neg hgt, if_pos hlt, if_neg hhop]
          rfl
      · by_cases hhop : hop = info.next
        · simp only [if_neg hgt, if_neg hlt, if_pos hhop]
          rfl
        · simp only [if_neg hgt, if_neg hlt, if_neg hhop]
          rfl

omit [DecidableEq V] in
theorem viewPacket_sendRIP {table : Table A}
    (h : ∀ pre info, table.lookup pre = some info → Plain pre info) (dst : A) (pre : Prefix) :
    viewPacket pre (.response (sendRIP dst table)) = (table.lookup pre).map fun info =>
      .update (DistanceVector.advert infty dst (viewRoute info)) := by
  simp only [viewPacket]
  cases hlookup : table.lookup pre with
  | none =>
    have hnone : (sendRIP dst table).find? (fun entry => entry.pre = pre) = none := by
      rw [List.find?_eq_none]
      intro entry hentry hpre
      obtain ⟨info, hinfo, -⟩ := (mem_sendRIP h dst).mp hentry
      rw [of_decide_eq_true hpre, hlookup] at hinfo
      contradiction
    rw [hnone]
    rfl
  | some info =>
    have hplain := h pre info hlookup
    have hpre : (ripEntry dst pre info).pre = pre :=
      (ripEntry_pre dst hplain.key).trans hplain.masked
    have hsome : (sendRIP dst table).find? (fun entry => entry.pre = pre) =
        some (ripEntry dst pre info) := by
      rw [find_eq_some_iff (sendRIP_plain h dst).nodup, mem_sendRIP h, hpre]
      exact ⟨⟨info, hlookup, rfl⟩, rfl⟩
    rw [hsome, Option.map_some, ripEntry_cost dst pre (hplain.cost_le.trans_lt (by decide))]
    rfl

variable {net : StableNetwork V A} [DecidableRel net.graph.Adj] {s s' : Traffic V A} {u v : V}

omit [DecidableEq A] in
theorem view_take (s : Traffic V A) (v u : V) (rest : List RipPacket) (table : Table A)
    (pre : Prefix) :
    (s.take v u rest table).view pre = (s.view pre).take v u (rest.filterMap (viewPacket pre))
      ((table.lookup pre).map viewRoute) := by
  refine DistanceVector.State.ext ?_ ?_
  · funext a
    by_cases ha : a = u
    · subst ha
      simp [Traffic.view, Traffic.take, DistanceVector.State.take]
    · simp [Traffic.view, Traffic.take, DistanceVector.State.take, Function.update_of_ne ha]
  · funext a b
    simp only [Traffic.view, Traffic.take, DistanceVector.State.take]
    split
    · rfl
    · rfl

def copies (net : StableNetwork V A) [DecidableRel net.graph.Adj] (u : V) (dsts : List A) (b : V) :
    ℕ :=
  if net.graph.Adj u b then dsts.count (net.addr b u) else 0

omit [DecidableEq V] in
theorem copies_pos {dsts : List A} {b : V} :
    0 < copies net u dsts b ↔ net.graph.Adj u b ∧ net.addr b u ∈ dsts := by
  unfold copies
  split
  · rename_i hadj
    rw [List.count_pos_iff]
    exact (and_iff_right hadj).symm
  · rename_i hadj
    exact iff_of_false (Nat.lt_irrefl 0) (fun h => hadj h.1)

omit [DecidableEq V] in
/-- The packets for one address. -/
theorem filter_sendRIP (dsts : List A) (table : Table A) (a : A) :
    ((dsts.map fun dst => (dst, sendRIP dst table)).filter fun m => m.1 = a).map
        (fun m => RipPacket.response m.2) =
      List.replicate (dsts.count a) (.response (sendRIP a table)) := by
  induction dsts with
  | nil => rfl
  | cons dst dsts ih =>
    by_cases hdst : dst = a
    · subst hdst
      simp [List.replicate_succ, ih]
    · simp [hdst, ih]

/-- A table is sent to some addresses: the machine of a prefix tells the route, if the table
has one. -/
theorem view_post {table : Table A}
    (h : ∀ pre info, table.lookup pre = some info → Plain pre info) (s : Traffic V A) (u : V)
    (dsts : List A) (pre : Prefix) :
    (s.post net u (dsts.map fun dst => (dst, sendRIP dst table))).view pre =
      match table.lookup pre with
      | none => s.view pre
      | some info => (s.view pre).post net.links u (copies net u dsts) (viewRoute info) := by
  have hqueue : ∀ a b, (s.post net u (dsts.map fun dst => (dst, sendRIP dst table))).queue a b =
      if a = u then
        s.queue a b ++
          List.replicate (copies net u dsts b) (.response (sendRIP (net.addr b u) table))
      else s.queue a b := by
    intro a b
    simp only [Traffic.post, filter_sendRIP, copies]
    by_cases ha : a = u
    · by_cases hb : net.graph.Adj u b
      · simp [ha, hb]
      · simp [ha, hb]
    · simp [ha]
  have hview : ∀ b, viewPacket pre (.response (sendRIP (net.addr b u) table)) =
      (table.lookup pre).map fun info =>
        .update (DistanceVector.advert infty (net.addr b u) (viewRoute info)) :=
    fun b => viewPacket_sendRIP h (net.addr b u) pre
  cases hlookup : table.lookup pre with
  | none =>
    refine DistanceVector.State.ext rfl ?_
    funext a b
    simp only [Traffic.view, hqueue]
    split
    · rw [List.filterMap_append, List.filterMap_replicate, hview, hlookup]
      exact List.append_nil _
    · rfl
  | some info =>
    refine DistanceVector.State.ext rfl ?_
    funext a b
    simp only [Traffic.view, hqueue, DistanceVector.State.post]
    split
    · rw [List.filterMap_append, List.filterMap_replicate, hview, hlookup]
      rfl
    · rfl

structure PlainTraffic (s : Traffic V A) : Prop where
  table : ∀ u pre info, (s.table u).lookup pre = some info → Plain pre info
  queue : ∀ v u entries, .response entries ∈ s.queue v u → PlainEntries entries

omit [DecidableEq A] in
theorem PlainTraffic.take (h : PlainTraffic s) {first : RipPacket} {rest : List RipPacket}
    (hqueue : s.queue v u = first :: rest) {table : Table A}
    (htable : ∀ pre info, table.lookup pre = some info → Plain pre info) :
    PlainTraffic (s.take v u rest table) := by
  constructor
  · intro a
    by_cases ha : a = u
    · subst ha
      simpa only [Traffic.take, Function.update_self] using htable
    · simpa only [Traffic.take, Function.update_of_ne ha] using h.table a
  · intro a b entries hmem
    simp only [Traffic.take] at hmem
    split at hmem
    · rename_i hab
      refine h.queue v u entries ?_
      rw [hqueue]
      exact List.mem_cons_of_mem _ hmem
    · exact h.queue a b entries hmem

theorem PlainTraffic.post (h : PlainTraffic s) {table : Table A}
    (htable : ∀ pre info, table.lookup pre = some info → Plain pre info) (u : V)
    (dsts : List A) :
    PlainTraffic (s.post net u (dsts.map fun dst => (dst, sendRIP dst table))) := by
  refine ⟨h.table, ?_⟩
  intro a b entries hmem
  simp only [Traffic.post, filter_sendRIP] at hmem
  split at hmem
  · rcases List.mem_append.mp hmem with hold | hnew
    · exact h.queue a b entries hold
    · cases List.eq_of_mem_replicate hnew
      exact sendRIP_plain htable _
  · exact h.queue a b entries hmem

end View

section Steps

variable {net : StableNetwork V A} [DecidableRel net.graph.Adj] {s s' : Traffic V A} {u v : V}
  {e : TrafficEvent V A}

def answered (net : StableNetwork V A) [DecidableRel net.graph.Adj] (s : Traffic V A) (v u : V)
    (rest : List RipPacket) : Traffic V A :=
  (s.take v u rest (s.table u)).post net u
    ([net.addr v u].map fun dst => (dst, sendRIP dst (s.table u)))

def handled (net : StableNetwork V A) [DecidableRel net.graph.Adj] (s : Traffic V A) (v u : V)
    (rest : List RipPacket) (result : Update A) : Traffic V A :=
  (s.take v u rest result.table).post net u
    ((if 0 < result.triggered.entries.length then net.ripNeighbors u else []).map
      fun dst => (dst, sendRIP dst result.triggered))

/-- Everything that a step can do. -/
theorem Traffic.step_cases (hstep : s.step net e = some s') :
    (∃ v u rest, s.queue v u = .request :: rest ∧ s' = answered net s v u rest) ∨
    (∃ now v u entries entries' rest, s.queue v u = .response entries' :: rest ∧
      entries.Perm entries' ∧
      s' = handled net s v u rest (receiveResponse now (net.addr v u) (s.table u) entries)) ∨
    ∃ u v subset, net.graph.Adj u v ∧
      (∀ pre info, subset.lookup pre = some info → (s.table u).lookup pre = some info) ∧
      s' = s.post net u ([net.addr v u].map fun dst => (dst, sendRIP dst subset)) := by
  cases e with
  | deliver now v u packet =>
    cases hqueue : s.queue v u with
    | nil => simp [Traffic.step, hqueue] at hstep
    | cons first rest =>
      simp only [Traffic.step, hqueue] at hstep
      split at hstep
      · rename_i hsame
        cases hstep
        cases packet with
        | request =>
          cases first with
          | request => exact Or.inl ⟨v, u, rest, hqueue, rfl⟩
          | response entries' => contradiction
        | response entries =>
          cases first with
          | request => contradiction
          | response entries' =>
            refine Or.inr (Or.inl ⟨now, v, u, entries, entries', rest, hqueue, hsame, ?_⟩)
            simp only [handled, protocol200]
            split
            · rfl
            · rfl
      · contradiction
  | periodic u v subset =>
    simp only [Traffic.step] at hstep
    split at hstep
    · rename_i hsend
      cases hstep
      refine Or.inr (Or.inr ⟨u, v, subset, hsend.1, ?_, rfl⟩)
      intro pre info hinfo
      exact mem_routes.mp (hsend.2 (pre, info) (mem_routes.mpr hinfo))
    · contradiction

omit [DecidableEq V] in
theorem receiveResponse_plain {table : Table A} {entries : List RipUpdate}
    (h : ∀ pre info, table.lookup pre = some info → Plain pre info)
    (hentries : PlainEntries entries) (now : ℕ) (hop : A) :
    PlainUpdate (receiveResponse now hop table entries) :=
  PlainUpdate.foldl ⟨h, by simp⟩ hentries.masked

theorem PlainTraffic.step (h : PlainTraffic s) (hstep : s.step net e = some s') :
    PlainTraffic s' := by
  rcases Traffic.step_cases hstep with ⟨v, u, rest, hqueue, rfl⟩ |
    ⟨now, v, u, entries, entries', rest, hqueue, hperm, rfl⟩ | ⟨u, v, subset, -, hsubset, rfl⟩
  · exact (h.take hqueue (h.table u)).post (h.table u) u _
  · have hentries := (h.queue v u entries' (by simp [hqueue])).perm hperm
    have hresult := receiveResponse_plain (h.table u) hentries now (net.addr v u)
    exact (h.take hqueue hresult.table).post hresult.triggered u _
  · exact h.post (fun pre info hinfo => h.table u pre info (hsubset pre info hinfo)) u _

omit [DecidableEq V] in
/-- What the handler does for one prefix. -/
theorem receiveResponse_lookup {entries : List RipUpdate}
    (hnodup : (entries.map RipUpdate.pre).Nodup) (now : ℕ) (hop : A) (table : Table A)
    (pre : Prefix) :
    ((receiveResponse now hop table entries).table.lookup pre,
        (receiveResponse now hop table entries).triggered.lookup pre) =
      match entries.find? fun entry => entry.pre = pre with
      | none => (table.lookup pre, none)
      | some entry => outcome now hop pre entry.cost (table.lookup pre) := by
  cases hfind : entries.find? fun entry => entry.pre = pre with
  | none =>
    have hnot : pre ∉ entries.map RipUpdate.pre := by
      rintro hmem
      obtain ⟨entry, hentry, hpre⟩ := List.mem_map.mp hmem
      exact List.find?_eq_none.mp hfind entry hentry (decide_eq_true hpre)
    exact Prod.ext_iff.mpr (foldl_receiveEntry_of_notMem (u := ⟨table, ∅⟩) hnot)
  | some entry =>
    obtain ⟨hmem, rfl⟩ := (find_eq_some_iff hnodup).mp hfind
    exact Prod.ext_iff.mpr (foldl_receiveEntry_of_mem (u := ⟨table, ∅⟩) hnodup hmem rfl)

theorem view_answered (h : PlainTraffic s) {pre : Prefix} {rest : List RipPacket}
    (hadj : ∀ v u, (s.view pre).queue v u ≠ [] → net.graph.Adj v u)
    (hqueue : s.queue v u = .request :: rest) :
    DistanceVector.Step net.links (s.view pre) ((answered net s v u rest).view pre) := by
  have hview : (s.view pre).queue v u = .request :: rest.filterMap (viewPacket pre) := by
    simp [Traffic.view, hqueue, viewPacket]
  unfold answered
  rw [view_post (h.table u), view_take]
  cases hlookup : (s.table u).lookup pre with
  | none => exact .ignore hview (by simp [Traffic.view, hlookup])
  | some info =>
    refine .answer hview (by simp [Traffic.view, hlookup]) (fun w hw => (copies_pos.mp hw).1) ?_
    exact copies_pos.mpr ⟨(hadj v u (by simp [hview])).symm, List.mem_singleton.mpr rfl⟩

theorem view_handled (h : PlainTraffic s) {entries entries' : List RipUpdate}
    {rest : List RipPacket} (hqueue : s.queue v u = .response entries' :: rest)
    (hperm : entries.Perm entries') (now : ℕ) (pre : Prefix) :
    let s' := handled net s v u rest (receiveResponse now (net.addr v u) (s.table u) entries)
    s'.view pre = s.view pre ∨ DistanceVector.Step net.links (s.view pre) (s'.view pre) := by
  intro s'
  have hentries' := h.queue v u entries' (by simp [hqueue])
  have hentries := hentries'.perm hperm
  have hresult := receiveResponse_plain (h.table u) hentries now (net.addr v u)
  have hlookup := receiveResponse_lookup hentries.nodup now (net.addr v u) (s.table u) pre
  let result := receiveResponse now (net.addr v u) (s.table u) entries
  have hview : s'.view pre = _ := view_post hresult.triggered (s.take v u rest result.table) u _ pre
  have hfind := find_perm hperm hentries'.nodup pre
  rw [view_take] at hview
  cases hentry : entries.find? fun entry => entry.pre = pre with
  | none =>
    rw [hentry] at hlookup hfind
    obtain ⟨htable, htriggered⟩ := Prod.mk.inj hlookup
    rw [htriggered, htable] at hview
    refine Or.inl (hview.trans (DistanceVector.take_same ?_))
    simp [Traffic.view, hqueue, viewPacket, ← hfind]
  | some entry =>
    rw [hentry] at hlookup hfind
    have hmem := List.mem_of_find?_eq_some hentry
    have hhead : (s.view pre).queue v u =
        .update entry.Cost.toNat :: rest.filterMap (viewPacket pre) := by
      simp [Traffic.view, hqueue, viewPacket, ← hfind]
    have hsplit : (result.table.lookup pre, result.triggered.lookup pre) =
      outcome now (net.addr v u) pre entry.cost ((s.table u).lookup pre) := hlookup
    have hlearn := outcome_learn now (net.addr v u) pre entry.cost ((s.table u).lookup pre)
    rw [← hsplit, cost_eq_metric_of_le (hentries.cost_le entry hmem)] at hlearn
    right
    rw [hview]
    cases htriggered : result.triggered.lookup pre with
    | none =>
      rw [htriggered] at hlearn
      exact .quiet hhead hlearn
    | some info =>
      rw [htriggered] at hlearn
      have hpos : 0 < result.triggered.entries.length :=
        List.length_pos_of_mem (AList.mem_lookup_iff.mp htriggered)
      refine .spread hhead hlearn ?_
      intro w
      rw [if_pos hpos, copies_pos, net.mem_ripNeighbors]
      exact ⟨fun hw => hw.1, fun hw => ⟨hw, w, hw.symm, rfl⟩⟩

/-- A step of the network is one of the machine of each prefix, or does not concern it. -/
theorem view_step (h : PlainTraffic s) {pre : Prefix}
    (hadj : ∀ v u, (s.view pre).queue v u ≠ [] → net.graph.Adj v u)
    (hstep : s.step net e = some s') :
    s'.view pre = s.view pre ∨ DistanceVector.Step net.links (s.view pre) (s'.view pre) := by
  rcases Traffic.step_cases hstep with ⟨v, u, rest, hqueue, rfl⟩ |
    ⟨now, v, u, entries, entries', rest, hqueue, hperm, rfl⟩ | ⟨u, v, subset, -, hsubset, rfl⟩
  · exact Or.inr (view_answered h hadj hqueue)
  · exact view_handled h hqueue hperm now pre
  · rw [view_post fun pre info hinfo => h.table u pre info (hsubset pre info hinfo)]
    cases hlookup : subset.lookup pre with
    | none => exact Or.inl rfl
    | some info =>
      refine Or.inr (.tell ?_ fun w hw => (copies_pos.mp hw).1)
      simp [Traffic.view, hsubset pre info hlookup]

theorem post_cons (s : Traffic V A) (u : V) (m : A × List RipUpdate)
    (out : List (A × List RipUpdate)) :
    s.post net u (m :: out) = (s.post net u [m]).post net u out := by
  refine Traffic.ext rfl ?_
  funext a b
  simp only [Traffic.post]
  by_cases hab : a = u ∧ net.graph.Adj u b
  · simp only [if_pos hab, List.append_assoc, ← List.map_append, ← List.filter_append,
      List.singleton_append]
  · simp only [if_neg hab]

/-- A round of periodic updates is a run. -/
theorem periodic_reach (s : Traffic V A) (u : V) :
    Reach (Traffic.step net) (fun _ _ => True) s
      (s.post net u (periodicUpdates (net.ripNeighbors u) (s.table u))) := by
  have hround : ∀ (dsts : List A) (s : Traffic V A), (∀ a ∈ dsts, a ∈ net.ripNeighbors u) →
      Reach (Traffic.step net) (fun _ _ => True) s
        (s.post net u (periodicUpdates dsts (s.table u))) := by
    intro dsts
    induction dsts with
    | nil =>
      intro s _
      have hsame : s.post net u (periodicUpdates [] (s.table u)) = s :=
        Traffic.ext rfl (by simp [Traffic.post, periodicUpdates])
      rw [hsame]
      exact .refl
    | cons a dsts ih =>
      intro s hdsts
      rw [List.forall_mem_cons] at hdsts
      obtain ⟨v, hadj, rfl⟩ := (net.mem_ripNeighbors u a).mp hdsts.1
      let first := s.post net u [(net.addr v u, sendRIP (net.addr v u) (s.table u))]
      have hstep : s.step net (.periodic u v (s.table u)) = some first :=
        if_pos ⟨hadj.symm, fun _ hroute => hroute⟩
      have hrest := ih first hdsts.2
      unfold periodicUpdates
      rw [List.map_cons, post_cons]
      exact (Reach.tail _ .refl trivial hstep).trans hrest
  exact hround (net.ripNeighbors u) s fun _ h => h

structure Converging (net : StableNetwork V A) (s : Traffic V A) : Prop where
  plain : PlainTraffic s
  good : ∀ pre, DistanceVector.Good net.links (net.Origin pre) (s.view pre)

omit [DecidableEq V] [DecidableEq A] in
/-- Nodes start with their interfaces. -/
theorem Converging.start (net : StableNetwork V A) [DecidableRel net.graph.Adj] :
    Converging net (Traffic.start net) := by
  have hlocal : ∀ u pre info, (initialTable (net.config u)).lookup pre = some info →
      ∃ iface ∈ (net.config u).Interfaces, pre = iface.2.masked ∧
        info = ⟨.L, iface.1, iface.2.masked, 0, 0⟩ := by
    intro u pre info hinfo
    rcases initialTable_cases hinfo with hiface | ⟨route, hroute, -⟩
    · exact hiface
    · rw [net.static_nil u] at hroute
      contradiction
  constructor
  case plain =>
    constructor
    · intro u pre info hinfo
      obtain ⟨iface, -, rfl, rfl⟩ := hlocal u pre info hinfo
      exact ⟨rfl, Prefix.masked_masked _, Nat.zero_le _⟩
    · intro v u entries hmem
      simp only [Traffic.start] at hmem
      split at hmem
      · simp at hmem
      · contradiction
  case good =>
    intro pre
    refine DistanceVector.Good.start (show 0 < infty by decide) ?_ ?_ ?_ ?_
    · intro u
      constructor
      · rintro ⟨key, info, hinfo, hkey⟩
        obtain ⟨iface, -, rfl, rfl⟩ := hlocal u key info hinfo
        rw [Prefix.masked_masked] at hkey
        subst hkey
        exact ⟨_, congrArg (Option.map viewRoute) hinfo⟩
      · rintro ⟨r, hr⟩
        obtain ⟨info, hinfo, -⟩ := Option.map_eq_some_iff.mp hr
        obtain ⟨iface, -, rfl, rfl⟩ := hlocal u pre info hinfo
        exact ⟨_, _, hinfo, Prefix.masked_masked _⟩
    · intro u r hr
      obtain ⟨info, hinfo, rfl⟩ := Option.map_eq_some_iff.mp hr
      obtain ⟨iface, hiface, rfl, rfl⟩ := hlocal u pre info hinfo
      exact ⟨rfl, fun v hadj => net.own_addr hadj iface hiface⟩
    · intro v u hne
      by_contra hadj
      have hnot : ¬ net.graph.Adj v u := hadj
      simp [Traffic.view, Traffic.start, hnot] at hne
    · intro v u hadj
      have hedge : net.graph.Adj v u := hadj
      simp [Traffic.view, Traffic.start, hedge, viewPacket]

/-- What a step keeps, and that it neither deletes a route nor raises a cost. -/
theorem Converging.step (h : Converging net s) (hstep : s.step net e = some s') :
    Converging net s' ∧ ∀ pre u, DistanceVector.Improves ((s.view pre).route u)
      ((s'.view pre).route u) := by
  have hgood : ∀ pre, DistanceVector.Good net.links (net.Origin pre) (s'.view pre) ∧
      ∀ u, DistanceVector.Improves ((s.view pre).route u) ((s'.view pre).route u) := by
    intro pre
    rcases view_step h.plain (h.good pre).adj hstep with hsame | hnext
    · rw [hsame]
      exact ⟨h.good pre, fun u => DistanceVector.Improves.refl _⟩
    · exact (h.good pre).step hnext
  exact ⟨⟨h.plain.step hstep, fun pre => (hgood pre).1⟩, fun pre => (hgood pre).2⟩

theorem Converging.reach (h : Converging net s)
    (hreach : Reach (Traffic.step net) (fun _ _ => True) s s') :
    Converging net s' ∧ ∀ pre u, DistanceVector.Improves ((s.view pre).route u)
      ((s'.view pre).route u) := by
  refine hreach.invariant (fun s' => Converging net s' ∧ ∀ pre u,
    DistanceVector.Improves ((s.view pre).route u) ((s'.view pre).route u))
    ⟨h, fun pre u => DistanceVector.Improves.refl _⟩ ?_
  rintro s₁ e s₂ ⟨hgood, hle⟩ - hnext
  obtain ⟨hgood', hle'⟩ := hgood.step hnext
  exact ⟨hgood', fun pre u => (hle pre u).trans (hle' pre u)⟩

end Steps

/-- On every run no route is deleted and no cost goes up, and whenever no packet is on a link
each node has routes for the prefixes that are owned within 15 links and no others, with the
distance to the nearest owner as the cost. -/
theorem rip_converges (net : StableNetwork V A) [DecidableRel net.graph.Adj] (s : Traffic V A)
    (h : Reach (Traffic.step net) (fun _ _ => True) (Traffic.start net) s) :
    (∀ s', Reach (Traffic.step net) (fun _ _ => True) s s' → ∀ u pre info,
      (s.table u).lookup pre = some info →
      ∃ info', (s'.table u).lookup pre = some info' ∧ info'.cost ≤ info.cost) ∧
    ((∀ v u, s.queue v u = []) → ∀ u pre,
      ((∃ info, (s.table u).lookup pre = some info) ↔ net.Near pre 15 u) ∧
      ∀ info, (s.table u).lookup pre = some info →
        IsLeast {n | ∃ o, net.Origin pre o ∧ ∃ path : net.graph.Walk u o, path.length = n}
          info.cost) := by
  have hgood := ((Converging.start net).reach h).1
  constructor
  · intro s' hreach u pre info hinfo
    have hroute : (s.view pre).route u = some (viewRoute info) :=
      congrArg (Option.map viewRoute) hinfo
    obtain ⟨r, hr, hle⟩ := (hgood.reach hreach).2 pre u _ hroute
    obtain ⟨info', hinfo', rfl⟩ := Option.map_eq_some_iff.mp hr
    exact ⟨info', hinfo', hle⟩
  · intro hquiet u pre
    have hempty : ∀ v u, (s.view pre).queue v u = [] := by
      intro v u
      simp [Traffic.view, hquiet]
    obtain ⟨hexists, hleast⟩ := (hgood.good pre).converged hempty u
    constructor
    · rw [← Option.isSome_iff_exists, ← Option.isSome_map (f := viewRoute),
        Option.isSome_iff_exists]
      refine hexists.trans ⟨?_, ?_⟩
      · rintro ⟨n, hn, hwithin⟩
        exact hwithin.mono (Nat.le_of_lt_succ hn)
      · exact fun hnear => ⟨15, show 15 < infty by decide, hnear⟩
    · intro info hinfo
      exact hleast (viewRoute info) (congrArg (Option.map viewRoute) hinfo)

def stablePair : StableNetwork Bool ℕ where
  toTopology := samplePair
  ripNeighbors u := if u then [2] else [1]
  mem_ripNeighbors := by
    intro u a
    cases u <;> simp [samplePair, eq_comm]
  addr_inj := by
    intro u v w hv hw _
    cases u <;> cases v <;> cases w <;> simp_all [samplePair]
  own_addr := by
    intro u v hadj iface hiface
    cases u <;> cases v <;> simp_all [samplePair]
  static_nil _ := rfl

instance : DecidableRel stablePair.graph.Adj :=
  inferInstanceAs (DecidableRel samplePair.graph.Adj)

/-- Both requests are answered, the second node learns the prefix of the first and poisons it
towards the first, and the links are empty. -/
theorem rip_converges_pair :
    ∃ s, Reach (Traffic.step stablePair) (fun _ _ => True) (Traffic.start stablePair) s ∧
      (∀ v u, s.queue v u = []) ∧ ∃ info, (s.table false).lookup samplePrefix = some info ∧
        IsLeast {n | ∃ o, stablePair.Origin samplePrefix o ∧
          ∃ path : stablePair.graph.Walk false o, path.length = n} info.cost := by
  obtain ⟨s, hreach, hquiet, hlookup⟩ := exists_reach (Traffic.step stablePair)
    (fun _ _ => True) (Traffic.start stablePair)
    (fun s => (∀ v u, s.queue v u = []) ∧
      (s.table false).lookup samplePrefix = some ⟨.R, 1, samplePrefix, 1, 7⟩)
    [.deliver 5 true false .request, .deliver 6 false true .request,
      .deliver 7 true false (.response [sampleEntry 0]), .deliver 8 false true (.response []),
      .deliver 9 false true (.response [sampleEntry 16])]
    (by decide +kernel)
  have hleast := ((rip_converges stablePair s hreach).2 hquiet false samplePrefix).2 _ hlookup
  exact ⟨s, hreach, hquiet, _, hlookup, hleast⟩

end IpTcp.Rip
