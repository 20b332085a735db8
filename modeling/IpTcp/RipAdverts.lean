import IpTcp.CanonicalKeys
import IpTcp.DottedText
import IpTcp.IpNode

/-!
A routing update from the routes of one node to the prefixes that the handler of another
one makes of it. A prefix travels as an address and a mask, is cut down to the mask,
printed with the number of ones in the mask, and parsed again. For routes with masked
prefixes and costs that fit into their field, as the tables of the program have them, what
is read is what was written.
-/
namespace IpTcp

open Rip Runs

def Rip.RipUpdate.text (entry : RipUpdate) : List Char :=
  DottedText.dotted (entry.Address &&& entry.Mask).toNat ++
    '/' :: DottedText.decimal (popcount entry.Mask)

def Rip.RipUpdate.parsed (entry : RipUpdate) : Option Prefix :=
  match DottedText.ParsePrefix entry.text with
  | none => none
  | some (addr, bits) =>
      if hbits : bits ≤ 32 then some ⟨UInt32.ofNat addr, bits, hbits⟩ else none

/-- The text of every entry can be parsed, and gives its masked address and length. -/
theorem Rip.RipUpdate.parsed_eq (entry : RipUpdate) : entry.parsed = some entry.pre := by
  have hbits := popcount_le entry.Mask
  have hparse := DottedText.parsePrefix_dotted (entry.Address &&& entry.Mask).toNat_lt hbits
  simp only [parsed, text, hparse, dif_pos hbits, UInt32.ofNat_toNat, pre]

def advert (dst : Addr) (subset : Table Addr) : RipMessage :=
  ⟨2, (sendRIP dst subset).length, sendRIP dst subset⟩

theorem sendRIP_eq (node : Node) (dst : Addr) (subset : Table Addr) :
    node.sendRIP dst (sendRIP dst subset) = node.sendMessage dst (advert dst subset) := rfl

def Bounded (table : Table Addr) : Prop :=
  ∀ pre info, table.lookup pre = some info → info.cost ≤ infty

/-- Routes with masked prefixes, as many as a message can count and with costs that fit into
their field. -/
structure RouteSet where
  routes : Table Addr
  canonical : Canonical routes
  cost_lt : ∀ pre info, routes.lookup pre = some info → info.cost < 4294967296
  size : routes.entries.length ≤ 65535

theorem Bounded.step {table table' : Table Addr} {e : TableEvent Addr} (h : Bounded table)
    (hstep : lockedStep table e = some table') : Bounded table' := by
  cases e with
  | entry now hop entry =>
    cases hstep
    refine (learn_keeps_iff h fun _ _ hinfo => hinfo).mpr ⟨?_, ?_⟩
    · exact fun _ _ => cost_le entry
    · exact fun _ _ _ => cost_le entry
  | collect now =>
    cases hstep
    exact collect_keeps h

/-- In a run that keeps the keys masked, the table is such a set of routes as long as it is
not too large. -/
theorem exists_routeSet {config : IPConfig} {table : Table Addr}
    (hstatic : ∀ pre ∈ config.StaticRoutes, pre.masked = pre)
    (hreach : Reach lockedStep MaskedEntry (initialTable config.routing) table)
    (hsize : table.entries.length ≤ 65535) : ∃ subset : RouteSet, subset.routes = table := by
  have hcanonical : Canonical table := hreach.invariant Canonical
    ((canonical_start_iff config).mpr hstatic) fun _ _ _ h hok hstep => (h.step_iff hstep).mpr hok
  have hbounded : Bounded table := hreach.invariant Bounded
    (fun pre info hinfo => by rw [(initialTable_installed hinfo).1]; exact Nat.zero_le _)
    fun _ _ _ h _ hstep => h.step hstep
  exact ⟨⟨table, hcanonical, fun pre info hinfo => (hbounded pre info hinfo).trans_lt (by decide),
    hsize⟩, rfl⟩

namespace RouteSet

variable (subset : RouteSet)

theorem ripEntry_parsed (dst : Addr) {pre : Prefix} {info : ForwardingInfo Addr}
    (h : subset.routes.lookup pre = some info) : (ripEntry dst pre info).parsed = some pre := by
  obtain ⟨hpre, hmasked⟩ := subset.canonical pre info h
  rw [RipUpdate.parsed_eq, ripEntry_pre dst hpre, hmasked]

/-- What the handler of a neighbour reads from an update are the command 2 and, for every
route, one entry with its prefix and with its cost, or with cost 16 if the route leads
through the neighbour. -/
theorem advert_decodes (subset : RouteSet) (dst : Addr) (spare : List UInt8) :
    ∃ packet, ExtractRIP ⟨MarshalRIP (advert dst subset.routes), spare⟩ = some packet ∧
      packet.Command = 2 ∧
      packet.Entries.map (fun entry => (entry.parsed, entry.Cost.toNat)) =
        subset.routes.entries.map fun route =>
          (some route.1, if dst = route.2.next then 16 else route.2.cost) := by
  have hlength : (sendRIP dst subset.routes).length = subset.routes.entries.length :=
    List.length_map _
  have hsize := subset.size
  refine ⟨advert dst subset.routes, extract_marshal rfl (by simp [advert]) rfl ?_, rfl, ?_⟩
  · change (sendRIP dst subset.routes).length < 65536
    omega
  · change (sendRIP dst subset.routes).map _ = _
    rw [sendRIP, List.map_map]
    refine List.map_congr_left fun route hroute => ?_
    have hlookup := AList.mem_lookup_iff.mpr hroute
    rw [Function.comp_apply, subset.ripEntry_parsed dst hlookup,
      ripEntry_cost dst route.1 (subset.cost_lt route.1 route.2 hlookup)]

/-- The sample host tells its neighbour that the network it has learned from it is out of
reach. -/
theorem advert_decodes_learned :
    ∃ (subset : RouteSet) (packet : RipMessage),
      subset.routes.lookup (.slash 169082880 24) =
        some ⟨.R, .v4 167772162, .slash 169082880 24, 2, 5⟩ ∧
      ExtractRIP ⟨MarshalRIP (advert (.v4 167772162) subset.routes), []⟩ = some packet ∧
      (some (.slash 169082880 24), 16) ∈
        packet.Entries.map fun entry => (entry.parsed, entry.Cost.toNat) := by
  obtain ⟨table, hreach, hlookup, hsize⟩ := exists_reach lockedStep MaskedEntry
    (initialTable hostConfig.routing)
    (fun table => table.lookup (.slash 169082880 24) =
        some ⟨.R, .v4 167772162, .slash 169082880 24, 2, 5⟩ ∧ table.entries.length ≤ 65535)
    [.entry 5 (.v4 167772162) ⟨1, 169082880, cidrMask 24⟩] (by decide)
  have hstatic : ∀ pre ∈ hostConfig.StaticRoutes, pre.masked = pre := by
    intro pre hpre
    rcases AList.mem_insert _ |>.mp hpre with rfl | hempty
    · decide
    · exact absurd hempty (AList.notMem_empty pre)
  obtain ⟨subset, rfl⟩ := exists_routeSet hstatic hreach hsize
  obtain ⟨packet, hextract, -, hentries⟩ := advert_decodes subset (.v4 167772162) []
  refine ⟨subset, packet, hlookup, hextract, ?_⟩
  rw [hentries]
  exact List.mem_map.mpr ⟨⟨_, _⟩, AList.mem_lookup_iff.mp hlookup, rfl⟩

end RouteSet

end IpTcp
