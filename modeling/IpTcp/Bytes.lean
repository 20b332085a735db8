import Mathlib.Algebra.Order.Ring.Nat
import Mathlib.Tactic.Ring

/-!
Byte strings. Numbers are written in network byte order, as a fixed count of bytes
with the highest first, and read back at an offset. A slice has bytes up to its length
and more behind it, up to its capacity: a slice expression with both bounds is checked
against the capacity, so that it can read bytes behind the length.
-/
namespace IpTcp.BigEndian

/-- The bytes of a number, cut to the given count. -/
def put : ℕ → ℕ → List UInt8
  | 0, _ => []
  | width + 1, n => UInt8.ofNat (n / 256 ^ width) :: put width n

def get : List UInt8 → ℕ
  | [] => 0
  | byte :: rest => 256 ^ rest.length * byte.toNat + get rest

@[simp] theorem length_put (width n : ℕ) : (put width n).length = width := by
  induction width with
  | zero => rfl
  | succ width ih => rw [put, List.length_cons, ih]

theorem get_lt (bytes : List UInt8) : get bytes < 256 ^ bytes.length := by
  induction bytes with
  | nil => simp [get]
  | cons byte rest ih =>
    have hbyte : byte.toNat + 1 ≤ 256 := byte.toNat_lt
    calc get (byte :: rest) < 256 ^ rest.length * byte.toNat + 256 ^ rest.length :=
          Nat.add_lt_add_left ih _
      _ = 256 ^ rest.length * (byte.toNat + 1) := (Nat.mul_succ _ _).symm
      _ ≤ 256 ^ rest.length * 256 := Nat.mul_le_mul_left _ hbyte
      _ = 256 ^ (byte :: rest).length := (pow_succ 256 rest.length).symm

theorem get_put (width n : ℕ) : get (put width n) = n % 256 ^ width := by
  induction width with
  | zero => rw [put, get, pow_zero, Nat.mod_one]
  | succ width ih =>
    rw [put, get, ih, length_put, UInt8.toNat_ofNat', pow_succ 256 width,
      Nat.mod_mul, Nat.add_comm]

/-- Only the lowest bytes of a number are written. -/
theorem put_mod (width n : ℕ) : put width (n % 256 ^ width) = put width n := by
  induction width generalizing n with
  | zero => rfl
  | succ width ih =>
    have hlow : n % 256 ^ (width + 1) % 256 ^ width = n % 256 ^ width :=
      Nat.mod_mod_of_dvd n (pow_dvd_pow 256 (Nat.le_succ width))
    have hhigh : n % 256 ^ (width + 1) / 256 ^ width = n / 256 ^ width % 256 := by
      rw [pow_succ, Nat.mod_mul_right_div_self]
    have hrest := ih (n % 256 ^ (width + 1))
    rw [hlow, ih] at hrest
    rw [put, put, hhigh, ← hrest]
    congr 1
    exact UInt8.toNat_inj.mp (by simp)

/-- Bytes that are read as a number and written again. -/
theorem put_get (bytes : List UInt8) : put bytes.length (get bytes) = bytes := by
  induction bytes with
  | nil => rfl
  | cons byte rest ih =>
    have hlow : (256 ^ rest.length * byte.toNat + get rest) % 256 ^ rest.length = get rest := by
      rw [Nat.mul_add_mod, Nat.mod_eq_of_lt (get_lt rest)]
    have hhigh : (256 ^ rest.length * byte.toNat + get rest) / 256 ^ rest.length = byte.toNat := by
      rw [Nat.mul_add_div (Nat.pow_pos (by decide)), Nat.div_eq_of_lt (get_lt rest), Nat.add_zero]
    have hrest := put_mod rest.length (256 ^ rest.length * byte.toNat + get rest)
    rw [hlow, ih] at hrest
    rw [List.length_cons, put, get, hhigh, ← hrest, UInt8.ofNat_toNat]

def field (bytes : List UInt8) (off width : ℕ) : ℕ := get ((bytes.drop off).take width)

theorem put_field {bytes : List UInt8} {off width : ℕ} (h : off + width ≤ bytes.length) :
    put width (field bytes off width) = (bytes.drop off).take width := by
  have hlength : ((bytes.drop off).take width).length = width := by
    rw [List.length_take, List.length_drop]
    omega
  have hput := put_get ((bytes.drop off).take width)
  rwa [hlength] at hput

theorem field_drop (bytes : List UInt8) (start off width : ℕ) :
    field (bytes.drop start) off width = field bytes (start + off) width := by
  rw [field, List.drop_drop, field]

theorem field_append (front rest : List UInt8) (off width : ℕ) :
    field (front ++ rest) (front.length + off) width = field rest off width := by
  rw [← field_drop, List.drop_left]

theorem field_append_left {front : List UInt8} {off width : ℕ} (h : off + width ≤ front.length)
    (rest : List UInt8) : field (front ++ rest) off width = field front off width := by
  rw [field, field, List.drop_append_of_le_length (by omega), List.take_append_of_le_length]
  rw [List.length_drop]
  omega

theorem field_lt (bytes : List UInt8) (off width : ℕ) : field bytes off width < 256 ^ width :=
  (get_lt _).trans_le (Nat.pow_le_pow_right (by decide) (List.length_take_le _ _))

@[simp] theorem field_put (width n : ℕ) (rest : List UInt8) :
    field (put width n ++ rest) 0 width = n % 256 ^ width := by
  rw [field, List.drop_zero, List.take_left' (length_put width n), get_put]

@[simp] theorem field_put_skip {width off : ℕ} (hle : width ≤ off) (n : ℕ) (rest : List UInt8)
    (width' : ℕ) : field (put width n ++ rest) off width' = field rest (off - width) width' := by
  rw [field, field, List.drop_append, length_put,
    List.drop_eq_nil_of_le (by rwa [length_put]), List.nil_append]

end IpTcp.BigEndian

namespace IpTcp

structure Slice where
  bytes : List UInt8
  spare : List UInt8
  deriving DecidableEq, Repr

namespace Slice

def cap (s : Slice) : ℕ := s.bytes.length + s.spare.length

/-- The expression `s[low:high]`. -/
def between (s : Slice) (low high : ℕ) : Option (List UInt8) :=
  if low ≤ high ∧ high ≤ s.cap then
    some (((s.bytes ++ s.spare).drop low).take (high - low))
  else none

/-- The expression `s[low:]`, for a bound up to the length. -/
def behind (s : Slice) (low : ℕ) : Slice := ⟨s.bytes.drop low, s.spare⟩

/-- A number that is read through `s[low:high]`. -/
def number (s : Slice) (low high : ℕ) : Option ℕ := (s.between low high).map BigEndian.get

theorem number_eq (s : Slice) (low high : ℕ) :
    s.number low high = if low ≤ high ∧ high ≤ s.cap then
      some (BigEndian.field (s.bytes ++ s.spare) low (high - low)) else none := by
  unfold number between
  split
  · rfl
  · rfl

end Slice

end IpTcp
