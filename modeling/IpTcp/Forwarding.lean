import IpTcp.LnxConfig
import IpTcp.LongestMatch
import Mathlib.Data.Nat.Bitwise

/-!
The choice of the next hop. A prefix contains the addresses that start with its bits,
whether or not its own host bits are cleared. Both the test for local delivery and the
search of the forwarding table take the longest prefix that contains the destination,
in whatever order the program visits the map.
-/
namespace IpTcp

open Rip LongestMatch

namespace Rip.Prefix

def Contains (p : Prefix) : Addr → Bool
  | .zero => false
  | .v4 bits => bits.toNat / 2 ^ (32 - p.bits) = p.addr.toNat / 2 ^ (32 - p.bits)

end Rip.Prefix

/-- Whether the destination is the address of the interface with the longest prefix. -/
def checkDest (ifaces : List InterfaceConfig) (dst : Addr) : Bool :=
  match longest (fun iface => iface.AssignedPrefix.Contains dst)
    (fun iface => iface.AssignedPrefix.bits) ifaces with
  | none => false
  | some toUse => dst = toUse.AssignedIP

theorem exists_iface_of_checkDest {ifaces : List InterfaceConfig} {dst : Addr}
    (h : checkDest ifaces dst = true) : ∃ iface ∈ ifaces, iface.AssignedIP = dst := by
  unfold checkDest at h
  split at h
  · contradiction
  · next toUse huse => exact ⟨toUse, (isLongest_of_longest huse).mem, (of_decide_eq_true h).symm⟩

def FindNext (ifaces : List InterfaceConfig) (table : List (ForwardingInfo Addr)) (dst : Addr) :
    Option (Addr × RouteType) :=
  if checkDest ifaces dst then some (dst, .L)
  else (longest (fun forward => forward.pre.Contains dst) (fun forward => forward.pre.bits)
    table).map fun useForward => (useForward.next, useForward.route_type)

def visited (table : Table Addr) : List (ForwardingInfo Addr) :=
  table.entries.map fun route => route.2

theorem mem_visited {table : Table Addr} {info : ForwardingInfo Addr} :
    info ∈ visited table ↔ ∃ pre, table.lookup pre = some info := by
  unfold visited
  rw [List.mem_map]
  constructor
  · rintro ⟨⟨pre, info'⟩, hmem, rfl⟩
    exact ⟨pre, AList.mem_lookup_iff.mpr hmem⟩
  · intro ⟨pre, hlookup⟩
    exact ⟨⟨pre, info⟩, AList.mem_lookup_iff.mp hlookup, rfl⟩

namespace Rip.Prefix

variable {p q : Prefix} {a : Addr}

theorem toNat_cidrMask {bits : ℕ} (h : bits ≤ 32) :
    (cidrMask bits).toNat = 2 ^ (32 - bits) * (2 ^ bits - 1) := by
  have hpow : 2 ^ (32 - bits) * 2 ^ bits = 4294967296 := by
    rw [← Nat.pow_add, Nat.sub_add_cancel h]
  have hpos : 0 < 2 ^ (32 - bits) := Nat.two_pow_pos _
  rw [cidrMask, UInt32.toNat_ofNat', Nat.mul_sub, hpow, Nat.mul_one]
  exact Nat.mod_eq_of_lt (by omega)

/-- Masking clears the bits behind the prefix. -/
theorem toNat_masked (p : Prefix) :
    p.masked.addr.toNat = 2 ^ (32 - p.bits) * (p.addr.toNat / 2 ^ (32 - p.bits)) := by
  have hlt : p.addr.toNat < 2 ^ 32 := p.addr.toNat_lt
  have hle := p.bits_le
  rw [masked, UInt32.toNat_and, toNat_cidrMask hle]
  apply Nat.eq_of_testBit_eq
  intro i
  rw [Nat.testBit_and, Nat.testBit_two_pow_mul, Nat.testBit_two_pow_mul,
    Nat.testBit_two_pow_sub_one, Nat.testBit_div_two_pow]
  by_cases hi : 32 - p.bits ≤ i
  · by_cases htop : i < 32
    · simp [hi, show i - (32 - p.bits) < p.bits by omega]
    · have hfalse : p.addr.toNat.testBit i = false :=
        Nat.testBit_lt_two_pow (hlt.trans_le (Nat.pow_le_pow_right (by decide) (by omega)))
      simp [hi, hfalse]
  · simp [hi]

theorem contains_self (p : Prefix) : p.Contains (.v4 p.addr) = true := by
  simp [Contains]

theorem contains_masked (p : Prefix) : p.masked.Contains (.v4 p.addr) = true := by
  have hpos : 0 < 2 ^ (32 - p.bits) := Nat.two_pow_pos _
  simp only [Contains, decide_eq_true_eq, toNat_masked]
  exact (Nat.mul_div_cancel_left _ hpos).symm

/-- A prefix without host bits is determined by its length and one address in it. -/
theorem eq_of_contains (hp : p.masked = p) (hq : q.masked = q) (hbits : p.bits = q.bits)
    (hpa : p.Contains a = true) (hqa : q.Contains a = true) : p = q := by
  cases a with
  | zero => simp [Contains] at hpa
  | v4 bits =>
    simp only [Contains, decide_eq_true_eq] at hpa hqa
    have haddr : p.addr.toNat = q.addr.toNat := by
      rw [← hp, ← hq, toNat_masked, toNat_masked, ← hpa, ← hqa, hbits]
    obtain ⟨addr, bits, hle⟩ := p
    obtain ⟨addr', bits', hle'⟩ := q
    cases hbits
    cases UInt32.toNat_inj.mp haddr
    rfl

/-- A shorter prefix contains an address that a longer one does not: the address of the
longer one with its last bit changed. -/
theorem exists_contains_of_lt (hq : q.masked = q) (hlt : p.bits < q.bits)
    (hpq : p.Contains (.v4 q.addr) = true) :
    ∃ a, p.Contains a = true ∧ q.Contains a = false := by
  have hle := q.bits_le
  obtain ⟨d, hd⟩ : ∃ d, 32 - p.bits = (32 - q.bits) + (1 + d) := ⟨q.bits - p.bits - 1, by omega⟩
  obtain ⟨t, hqt⟩ : ∃ t, q.addr.toNat = 2 ^ (32 - q.bits) * t :=
    ⟨_, (congrArg (fun p : Prefix => p.addr.toNat) hq).symm.trans (toNat_masked q)⟩
  have hpow : (2 : ℕ) ^ 32 = 2 ^ (32 - q.bits) * (2 * 2 ^ (q.bits - 1)) := by
    rw [← Nat.pow_succ', ← Nat.pow_add]
    congr 1
    omega
  have hpos : 0 < 2 ^ (32 - q.bits) := Nat.two_pow_pos _
  have ht : t < 2 * 2 ^ (q.bits - 1) := by
    have hbound : q.addr.toNat < 2 ^ 32 := q.addr.toNat_lt
    rw [hqt, hpow] at hbound
    exact Nat.lt_of_mul_lt_mul_left hbound
  have hflip : t / 2 * 2 + (1 - t % 2) < 2 * 2 ^ (q.bits - 1) := by omega
  have hx : (UInt32.ofNat (2 ^ (32 - q.bits) * (t / 2 * 2 + (1 - t % 2)))).toNat =
      2 ^ (32 - q.bits) * (t / 2 * 2 + (1 - t % 2)) := by
    rw [UInt32.toNat_ofNat']
    refine Nat.mod_eq_of_lt ?_
    rw [hpow]
    exact Nat.mul_lt_mul_of_pos_left hflip hpos
  refine ⟨.v4 (UInt32.ofNat (2 ^ (32 - q.bits) * (t / 2 * 2 + (1 - t % 2)))), ?_, ?_⟩
  · simp only [Contains, decide_eq_true_eq] at hpq ⊢
    rw [hx, ← hpq, hqt, hd, Nat.pow_add, Nat.mul_div_mul_left _ _ hpos,
      Nat.mul_div_mul_left _ _ hpos, Nat.pow_add, ← Nat.div_div_eq_div_mul,
      ← Nat.div_div_eq_div_mul]
    congr 1
    omega
  · simp only [Contains, decide_eq_false_iff_not]
    rw [hx, hqt, Nat.mul_div_cancel_left _ hpos, Nat.mul_div_cancel_left _ hpos]
    omega

/-- Different prefixes without host bits contain different addresses. -/
theorem eq_of_contains_eq (hp : p.masked = p) (hq : q.masked = q)
    (h : ∀ a, p.Contains a = q.Contains a) : p = q := by
  rcases Nat.lt_trichotomy p.bits q.bits with hlt | heq | hgt
  · obtain ⟨a, hpa, hqa⟩ := exists_contains_of_lt hq hlt ((h _).trans (contains_self q))
    rw [h a, hqa] at hpa
    contradiction
  · exact eq_of_contains hp hq heq (contains_self p) ((h _).symm.trans (contains_self p))
  · obtain ⟨a, hqa, hpa⟩ := exists_contains_of_lt hp hgt ((h _).symm.trans (contains_self p))
    rw [h a, hqa] at hpa
    contradiction

end Rip.Prefix

end IpTcp
