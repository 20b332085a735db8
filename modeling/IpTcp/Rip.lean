import Mathlib.Algebra.Group.Nat.Defs
import Mathlib.Data.List.AList

/-!
The routing half of a node: the forwarding table, sendRIP with split horizon and
poisoned reverse, the handler of RIP packets, periodic updates and the removal of
expired routes. Maps are association lists without repeated keys; addresses are any
type with decidable equality. The maps of the program hold pointers, but inside one
call every change of a route is followed by its entry in `triggered`, so that the
maps here can hold values.
-/
namespace IpTcp.Rip

abbrev infty : ℕ := 16

/-- A prefix of IPv4 addresses; the bits behind it may be set. -/
structure Prefix where
  addr : UInt32
  bits : ℕ
  bits_le : bits ≤ 32
  deriving DecidableEq, Repr

def popcountLoop : ℕ → ℕ → ℕ → ℕ
  | 0, _, res => res
  | fuel + 1, num, res =>
      if num > 0 then popcountLoop fuel (num / 2) (res + num % 2) else res

def popcount (num : UInt32) : ℕ := popcountLoop 32 num.toNat 0

theorem popcountLoop_le (fuel num res : ℕ) : popcountLoop fuel num res ≤ res + fuel := by
  induction fuel generalizing num res with
  | zero => exact Nat.le_refl _
  | succ fuel ih =>
    rw [popcountLoop]
    split
    · have hbound := ih (num / 2) (res + num % 2)
      omega
    · omega

theorem popcount_le (num : UInt32) : popcount num ≤ 32 := by
  simpa [popcount] using popcountLoop_le 32 num.toNat 0

def cidrMask (bits : ℕ) : UInt32 := UInt32.ofNat (4294967296 - 2 ^ (32 - bits))

theorem popcount_cidrMask : ∀ bits ≤ 32, popcount (cidrMask bits) = bits := by
  decide

namespace Prefix

/-- A prefix as it is written, with its length behind a slash. No length is above 32. -/
def slash (addr : UInt32) (bits : ℕ) : Prefix :=
  if h : bits ≤ 32 then ⟨addr, bits, h⟩ else ⟨addr, 32, Nat.le_refl 32⟩

@[simp] theorem slash_addr (addr : UInt32) (bits : ℕ) : (slash addr bits).addr = addr := by
  unfold slash
  split
  · rfl
  · rfl

def masked (p : Prefix) : Prefix := ⟨p.addr &&& cidrMask p.bits, p.bits, p.bits_le⟩

@[simp] theorem masked_masked (p : Prefix) : p.masked.masked = p.masked := by
  simp [masked, UInt32.and_assoc]

end Prefix

structure RipUpdate where
  Cost : UInt32
  Address : UInt32
  Mask : UInt32
  deriving DecidableEq, Repr

namespace RipUpdate

/-- The prefix that the receiver makes of an entry. -/
def pre (entry : RipUpdate) : Prefix :=
  ⟨entry.Address &&& entry.Mask, popcount entry.Mask, popcount_le _⟩

/-- The cost that the receiver makes of an entry. The sum is one of 32 bits. -/
def cost (entry : RipUpdate) : ℕ := min (entry.Cost + 1).toNat infty

end RipUpdate

inductive RouteType
  | S
  | L
  | R
  deriving DecidableEq, Repr

variable {A : Type*} [DecidableEq A]

/-- A route; `last_updated` is in milliseconds. -/
structure ForwardingInfo (A : Type*) where
  route_type : RouteType
  next : A
  pre : Prefix
  cost : ℕ
  last_updated : ℕ
  deriving DecidableEq, Repr

abbrev Table (A : Type*) := AList (fun _ : Prefix => ForwardingInfo A)

/-- What becomes of the route that an entry is about. A deleted route is still advertised. -/
inductive RouteChange (A : Type*)
  | unchanged
  | stored (info : ForwardingInfo A)
  | deleted (info : ForwardingInfo A)

def judge (now : ℕ) (hop : A) (pre : Prefix) (cost : ℕ) :
    Option (ForwardingInfo A) → RouteChange A
  | none =>
      if cost ≠ infty then .stored
        { route_type := .R, next := hop, pre := pre, cost := cost, last_updated := now }
      else .unchanged
  | some info =>
      if info.cost > cost then .stored { info with cost := cost, next := hop, last_updated := now }
      else if info.cost < cost then
        if hop = info.next then .deleted { info with cost := cost, last_updated := now }
        else .unchanged
      else if hop = info.next then .stored { info with last_updated := now }
      else .unchanged

/-- What holds for each branch of the handler holds for its result. -/
theorem judge_rule {now : ℕ} {hop : A} {pre : Prefix} {cost : ℕ}
    {route : Option (ForwardingInfo A)} (Q : RouteChange A → Prop) (hunchanged : Q .unchanged)
    (hnew : route = none → cost ≠ infty → Q (.stored ⟨.R, hop, pre, cost, now⟩))
    (hlower : ∀ info, route = some info → cost < info.cost →
      Q (.stored { info with cost := cost, next := hop, last_updated := now }))
    (hhigher : ∀ info, route = some info → info.cost < cost → hop = info.next →
      Q (.deleted { info with cost := cost, last_updated := now }))
    (hsame : ∀ info, route = some info → info.cost = cost → hop = info.next →
      Q (.stored { info with last_updated := now })) :
    Q (judge now hop pre cost route) := by
  cases route with
  | none =>
    by_cases hcost : cost ≠ infty
    · simpa only [judge, if_pos hcost] using hnew rfl hcost
    · simpa only [judge, if_neg hcost] using hunchanged
  | some info =>
    by_cases hgt : info.cost > cost
    · simpa only [judge, if_pos hgt] using hlower info rfl hgt
    · by_cases hhop : hop = info.next
      · by_cases hlt : info.cost < cost
        · simpa only [judge, if_neg hgt, if_pos hlt, if_pos hhop] using hhigher info rfl hlt hhop
        · simpa only [judge, if_neg hgt, if_neg hlt, if_pos hhop] using
            hsame info rfl (by omega) hhop
      · simpa only [judge, if_neg hgt, if_neg hhop, ite_self] using hunchanged

structure Update (A : Type*) where
  table : Table A
  triggered : Table A

namespace Update

def apply (u : Update A) (pre : Prefix) : RouteChange A → Update A
  | .unchanged => u
  | .stored info => ⟨u.table.insert pre info, u.triggered.insert pre info⟩
  | .deleted info => ⟨u.table.erase pre, u.triggered.insert pre info⟩

def receiveEntry (now : ℕ) (hop : A) (u : Update A) (entry : RipUpdate) : Update A :=
  u.apply entry.pre (judge now hop entry.pre entry.cost (u.table.lookup entry.pre))

end Update

def receiveResponse (now : ℕ) (hop : A) (table : Table A) (entries : List RipUpdate) : Update A :=
  entries.foldl (Update.receiveEntry now hop) ⟨table, ∅⟩

def ripEntry (dst : A) (pre : Prefix) (info : ForwardingInfo A) : RipUpdate where
  Cost := if dst = info.next then UInt32.ofNat infty else UInt32.ofNat info.cost
  Address := pre.addr
  Mask := cidrMask info.pre.bits

def sendRIP (dst : A) (subset : Table A) : List RipUpdate :=
  subset.entries.map fun route => ripEntry dst route.1 route.2

inductive RipPacket
  | request
  | response (entries : List RipUpdate)
  deriving DecidableEq, Repr

def protocol200 (now : ℕ) (ripNeighbors : List A) (table : Table A) (src : A) :
    RipPacket → Table A × List (A × List RipUpdate)
  | .request => (table, [(src, sendRIP src table)])
  | .response entries =>
      let u := receiveResponse now src table entries
      (u.table, if 0 < u.triggered.entries.length then
        ripNeighbors.map fun neighbor => (neighbor, sendRIP neighbor u.triggered) else [])

def periodicUpdates (ripNeighbors : List A) (table : Table A) : List (A × List RipUpdate) :=
  ripNeighbors.map fun neighbor => (neighbor, sendRIP neighbor table)

/-- A learned route that was not refreshed for twelve seconds. -/
def expired (now : ℕ) (info : ForwardingInfo A) : Bool :=
  info.route_type = .R ∧ info.last_updated + 12000 ≤ now

def collect (now : ℕ) (u : Update A) (pre : Prefix) (info : ForwardingInfo A) : Update A :=
  if expired now info then u.apply pre (.deleted { info with cost := infty }) else u

def garbageCollector (now : ℕ) (table : Table A) : Update A :=
  table.entries.foldl (fun u route => collect now u route.1 route.2) ⟨table, ∅⟩

structure Config (A : Type*) where
  StaticRoutes : List (Prefix × A)
  Interfaces : List (A × Prefix)

/-- The forwarding table that Initialize builds: static routes, then the interfaces, whose
prefixes were masked when the configuration was read. -/
def initialTable (config : Config A) : Table A :=
  let static := config.StaticRoutes.foldl (fun (table : Table A) route =>
    table.insert route.1
      { route_type := .S, next := route.2, pre := route.1, cost := 0, last_updated := 0 }) ∅
  config.Interfaces.foldl (fun (table : Table A) iface =>
    table.insert iface.2.masked
      { route_type := .L, next := iface.1, pre := iface.2.masked, cost := 0, last_updated := 0 })
    static

omit [DecidableEq A] in
/-- The route that an entry is about; all others stay. -/
theorem apply_lookup_ne {u : Update A} {pre pre' : Prefix} (hne : pre' ≠ pre)
    (change : RouteChange A) : (u.apply pre change).table.lookup pre' = u.table.lookup pre' := by
  cases change with
  | unchanged => rfl
  | stored info => exact AList.lookup_insert_ne hne
  | deleted info => exact AList.lookup_erase_ne hne

omit [DecidableEq A] in
theorem forall_lookup_insert {Q : Prefix → ForwardingInfo A → Prop} {table : Table A}
    {pre : Prefix} {info : ForwardingInfo A}
    (h : ∀ pre info, table.lookup pre = some info → Q pre info) (hnew : Q pre info) :
    ∀ pre' info', (table.insert pre info).lookup pre' = some info' → Q pre' info' := by
  intro pre' info' hlookup
  by_cases hpre : pre' = pre
  · subst hpre
    rw [AList.lookup_insert, Option.some.injEq] at hlookup
    exact hlookup ▸ hnew
  · rw [AList.lookup_insert_ne hpre] at hlookup
    exact h pre' info' hlookup

omit [DecidableEq A] in
theorem forall_lookup_erase {Q : Prefix → ForwardingInfo A → Prop} {table : Table A}
    (pre : Prefix) (h : ∀ pre info, table.lookup pre = some info → Q pre info) :
    ∀ pre' info', (table.erase pre).lookup pre' = some info' → Q pre' info' := by
  intro pre' info' hlookup
  by_cases hpre : pre' = pre
  · subst hpre
    rw [AList.lookup_erase] at hlookup
    contradiction
  · rw [AList.lookup_erase_ne hpre] at hlookup
    exact h pre' info' hlookup

section Insertions

variable {B K V : Type*} [DecidableEq K] (key : B → K) (value : B → V)

/-- Where a value comes from that is found after a loop of insertions. -/
theorem foldl_insert_lookup (l : List B) (table : AList (fun _ : K => V)) {k : K} {v : V}
    (h : (l.foldl (fun (table : AList (fun _ : K => V)) b => table.insert (key b) (value b))
      table).lookup k = some v) :
    (∃ b ∈ l, k = key b ∧ v = value b) ∨ table.lookup k = some v := by
  induction l generalizing table with
  | nil => exact Or.inr h
  | cons b l ih =>
    rcases ih _ h with ⟨b', hmem, hb'⟩ | hlookup
    · exact Or.inl ⟨b', List.mem_cons_of_mem _ hmem, hb'⟩
    · by_cases hkey : k = key b
      · subst hkey
        rw [AList.lookup_insert, Option.some.injEq] at hlookup
        exact Or.inl ⟨b, List.mem_cons_self, rfl, hlookup.symm⟩
      · rw [AList.lookup_insert_ne hkey] at hlookup
        exact Or.inr hlookup

theorem mem_foldl_insert (l : List B) (table : AList (fun _ : K => V)) {k : K}
    (h : k ∈ table ∨ ∃ b ∈ l, key b = k) :
    k ∈ l.foldl (fun (table : AList (fun _ : K => V)) b => table.insert (key b) (value b))
      table := by
  induction l generalizing table with
  | nil => simpa using h
  | cons b l ih =>
    refine ih _ ?_
    rw [AList.mem_insert]
    rcases h with hold | ⟨b', hmem, hkey⟩
    · exact Or.inl (Or.inr hold)
    · rcases List.mem_cons.mp hmem with rfl | hmem
      · exact Or.inl (Or.inl hkey.symm)
      · exact Or.inr ⟨b', hmem, hkey⟩

end Insertions

omit [DecidableEq A] in
/-- The routes of the first table are those of the interfaces and the static ones. -/
theorem initialTable_cases {config : Config A} {pre : Prefix} {info : ForwardingInfo A}
    (h : (initialTable config).lookup pre = some info) :
    (∃ iface ∈ config.Interfaces, pre = iface.2.masked ∧
        info = ⟨.L, iface.1, iface.2.masked, 0, 0⟩) ∨
      ∃ route ∈ config.StaticRoutes, pre = route.1 ∧ info = ⟨.S, route.2, route.1, 0, 0⟩ := by
  rcases foldl_insert_lookup (fun iface : A × Prefix => iface.2.masked)
    (fun iface => ForwardingInfo.mk .L iface.1 iface.2.masked 0 0) _ _ h with hiface | hstatic
  · exact Or.inl hiface
  · rcases foldl_insert_lookup (fun route : Prefix × A => route.1)
      (fun route => ForwardingInfo.mk .S route.2 route.1 0 0) _ _ hstatic with hroute | hempty
    · exact Or.inr hroute
    · simp at hempty

omit [DecidableEq A] in
/-- What Initialize installs costs nothing, was not learned and is stored under its prefix. -/
theorem initialTable_installed {config : Config A} {pre : Prefix} {info : ForwardingInfo A}
    (h : (initialTable config).lookup pre = some info) :
    info.cost = 0 ∧ info.route_type ≠ .R ∧ info.pre = pre := by
  rcases initialTable_cases h with ⟨iface, -, rfl, rfl⟩ | ⟨route, -, rfl, rfl⟩
  · exact ⟨rfl, by simp, rfl⟩
  · exact ⟨rfl, by simp, rfl⟩

def samplePrefix : Prefix := .slash 167772160 24

def sampleEntry (cost : UInt32) : RipUpdate := ⟨cost, 167772160, cidrMask 24⟩

end IpTcp.Rip
