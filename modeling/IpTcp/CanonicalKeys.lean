import IpTcp.Forwarding
import IpTcp.LearnedRoutes

/-!
The keys of the forwarding table. Interfaces bring masked prefixes, static routes bring
theirs as they are written, and an entry of a response brings the address under its
mask together with the number of ones in the mask, which is a masked prefix only if the
ones of the mask lead. With masked keys the table says one thing about each set of
addresses, and the order in which it is visited does not matter.
-/
namespace IpTcp

open Rip Runs LongestMatch

/-- Every key is the prefix of its route and has no host bits. -/
def Canonical (table : Table Addr) : Prop :=
  ∀ pre info, table.lookup pre = some info → info.pre = pre ∧ pre.masked = pre

def KeysDistinct (table : Table Addr) : Prop :=
  ∀ pre ∈ table, ∀ pre' ∈ table, pre ≠ pre' → ∃ a, pre.Contains a ≠ pre'.Contains a

def OrderFree (table : Table Addr) : Prop :=
  ∀ ifaces dst order, order.Perm (visited table) →
    FindNext ifaces order dst = FindNext ifaces (visited table) dst

def MaskedEntry (table : Table Addr) : TableEvent Addr → Prop
  | .entry _ _ entry =>
      table.lookup entry.pre = none → entry.cost ≠ infty → entry.pre.masked = entry.pre
  | .collect _ => True

instance (table : Table Addr) (e : TableEvent Addr) : Decidable (MaskedEntry table e) :=
  match e with
  | .entry _ _ entry => inferInstanceAs (Decidable (table.lookup entry.pre = none → _ → _))
  | .collect _ => .isTrue trivial

namespace Canonical

variable {table table' : Table Addr} {e : TableEvent Addr}

theorem step_iff (h : Canonical table) (hstep : lockedStep table e = some table') :
    Canonical table' ↔ MaskedEntry table e := by
  cases e with
  | entry now hop entry =>
    cases hstep
    unfold Canonical
    rw [learn_keeps_iff h fun _ _ hinfo => hinfo]
    simp only [true_and]
    exact and_iff_left fun info hinfo _ => h entry.pre info hinfo
  | collect now =>
    cases hstep
    exact iff_of_true (collect_keeps h) trivial

theorem keysDistinct (h : Canonical table) : KeysDistinct table := by
  intro pre hpre pre' hpre' hne
  obtain ⟨info, hinfo⟩ := Option.isSome_iff_exists.mp (AList.lookup_isSome.mpr hpre)
  obtain ⟨info', hinfo'⟩ := Option.isSome_iff_exists.mp (AList.lookup_isSome.mpr hpre')
  by_contra hall
  simp only [not_exists, not_not] at hall
  exact hne (Prefix.eq_of_contains_eq (h pre info hinfo).2 (h pre' info' hinfo').2 hall)

theorem orderFree (h : Canonical table) : OrderFree table := by
  intro ifaces dst order hperm
  unfold FindNext
  rw [longest_perm hperm]
  intro info hinfo info' hinfo' hcovers hcovers' hbits
  obtain ⟨pre, hpre⟩ := mem_visited.mp (hperm.mem_iff.mp hinfo)
  obtain ⟨pre', hpre'⟩ := mem_visited.mp (hperm.mem_iff.mp hinfo')
  obtain ⟨rfl, hmasked⟩ := h pre info hpre
  obtain ⟨rfl, hmasked'⟩ := h pre' info' hpre'
  have hsame := Prefix.eq_of_contains hmasked hmasked' hbits hcovers hcovers'
  rw [hsame, hpre'] at hpre
  exact (Option.some.inj hpre).symm

end Canonical

theorem mem_initialTable {config : IPConfig} {pre : Prefix} (h : pre ∈ config.StaticRoutes) :
    pre ∈ initialTable config.routing := by
  obtain ⟨via, hvia⟩ := Option.isSome_iff_exists.mp (AList.lookup_isSome.mpr h)
  refine mem_foldl_insert (fun iface : Addr × Prefix => iface.2.masked)
    (fun iface => ForwardingInfo.mk .L iface.1 iface.2.masked 0 0) _ _ (Or.inl ?_)
  refine mem_foldl_insert (fun route : Prefix × Addr => route.1)
    (fun route => ForwardingInfo.mk .S route.2 route.1 0 0) _ _ (Or.inr ⟨(pre, via), ?_, rfl⟩)
  exact List.mem_map.mpr ⟨⟨pre, via⟩, AList.mem_lookup_iff.mp hvia, rfl⟩

/-- The first table has canonical keys exactly if the static routes are written so. -/
theorem canonical_start_iff (config : IPConfig) :
    Canonical (initialTable config.routing) ↔ ∀ pre ∈ config.StaticRoutes, pre.masked = pre := by
  constructor
  · intro h pre hpre
    obtain ⟨info, hinfo⟩ := Option.isSome_iff_exists.mp
      (AList.lookup_isSome.mpr (mem_initialTable hpre))
    exact (h pre info hinfo).2
  · intro h pre info hinfo
    refine ⟨(initialTable_installed hinfo).2.2, ?_⟩
    rcases initialTable_cases hinfo with ⟨iface, -, rfl, -⟩ | ⟨route, hroute, rfl, -⟩
    · exact Prefix.masked_masked _
    · obtain ⟨⟨pre, via⟩, hmem, rfl⟩ := List.mem_map.mp hroute
      exact h pre (AList.mem_keys.mpr (List.mem_map.mpr ⟨_, hmem, rfl⟩))

/-- The table starts with canonical keys exactly if all route lines have masked prefixes. From
there, in every run in which each new key comes from an entry with a masked prefix, keys are
canonical, no two of them mean the same addresses, and the order of a search makes no
difference; an entry that breaks the condition brings a key that is not canonical. -/
theorem canonical_keys (lines : List Directive) (config : IPConfig)
    (hparse : ParseConfig lines = .ok config) :
    (Canonical (initialTable config.routing) ↔
        ∀ pre via, Directive.route pre via ∈ lines → pre.masked = pre) ∧
      ((∀ pre via, Directive.route pre via ∈ lines → pre.masked = pre) →
        ∀ table, Reach lockedStep MaskedEntry (initialTable config.routing) table →
          Canonical table ∧ KeysDistinct table ∧ OrderFree table ∧
          ∀ e table', lockedStep table e = some table' →
            (Canonical table' ↔ MaskedEntry table e)) := by
  have hstart : Canonical (initialTable config.routing) ↔
      ∀ pre via, Directive.route pre via ∈ lines → pre.masked = pre := by
    rw [canonical_start_iff]
    simp only [mem_static_iff hparse, forall_exists_index]
  refine ⟨hstart, fun hroutes table hreach => ?_⟩
  have hcanonical : Canonical table := hreach.invariant Canonical (hstart.mpr hroutes)
    fun _ _ _ h hok hstep => (h.step_iff hstep).mpr hok
  exact ⟨hcanonical, hcanonical.keysDistinct, hcanonical.orderFree,
    fun _ _ hstep => hcanonical.step_iff hstep⟩

/-- A prefix is learned and lost again. -/
theorem canonical_keys_sample :
    ∃ table, Reach lockedStep MaskedEntry (initialTable hostConfig.routing) table ∧
      table.entries.length = 3 ∧ Canonical table := by
  obtain ⟨table, hreach, hlength⟩ := exists_reach lockedStep MaskedEntry
    (initialTable hostConfig.routing) (fun table => table.entries.length = 3)
    [.entry 5 (.v4 167772162) ⟨2, 168427520, cidrMask 24⟩,
      .entry 6 (.v4 167772162) ⟨3, 168493056, cidrMask 16⟩,
      .entry 7 (.v4 167772162) ⟨16, 168493056, cidrMask 16⟩] (by decide)
  refine ⟨table, hreach, hlength, ?_⟩
  refine ((canonical_keys hostLines hostConfig parse_hostLines).2 ?_ table hreach).1
  intro pre via hroute
  simp only [hostLines, List.mem_cons, reduceCtorEq, Directive.route.injEq, List.not_mem_nil,
    false_or, or_false] at hroute
  rw [hroute.1]
  decide

/-- An entry for 10.10.0.5 under the mask 255.255.0.255 becomes the key 10.10.0.5/24. -/
theorem scattered_mask_key :
    ¬ ∀ (lines : List Directive) (config : IPConfig) (table : Table Addr),
      ParseConfig lines = .ok config →
      Reach lockedStep (fun _ _ => True) (initialTable config.routing) table →
      Canonical table ∧ KeysDistinct table ∧ OrderFree table := by
  intro hclaim
  obtain ⟨table, hreach, hkey⟩ := exists_reach lockedStep (fun _ _ => True)
    (initialTable hostConfig.routing)
    (fun table => table.lookup ⟨168427525, 24, by decide⟩ =
      some ⟨.R, .v4 167772162, ⟨168427525, 24, by decide⟩, 3, 5⟩)
    [.entry 5 (.v4 167772162) ⟨2, 168427525, 4294902015⟩] (by decide)
  have hmasked := ((hclaim hostLines hostConfig table parse_hostLines hreach).1 _ _ hkey).2
  exact absurd hmasked (by decide)

end IpTcp
