import Mathlib.Algebra.GroupWithZero.Nat
import Mathlib.Data.List.Basic
import Mathlib.Data.Fin.Basic
import Mathlib.Tactic.Common

/-!
Circular buffers of a fixed number of cells. A running position counts every
element that ever passed through the buffer and falls into the cell given by its
remainder. Reading and writing are stated over running positions; the plain
slice copy of the programs that use such buffers is the special case in which
the positions do not wrap.
-/
namespace IpTcp.RingBuffer

variable {α : Type*} {n : ℕ} [NeZero n]

def cell (n : ℕ) [NeZero n] (pos : ℕ) : Fin n := Fin.ofNat n pos

@[simp] theorem cell_val (pos : ℕ) : (cell n pos).val = pos % n := rfl

/-- The elements at the running positions `start, ..., start + count - 1`. -/
def slice (b : Fin n → α) (start count : ℕ) : List α :=
  (List.range count).map (fun i => b (cell n (start + i)))

/-- Store the elements one after the other from the running position `start`. -/
def write (b : Fin n → α) (start : ℕ) : List α → Fin n → α
  | [] => b
  | x :: rest => write (Function.update b (cell n start) x) (start + 1) rest

omit [NeZero n] in
/-- `copy(b[lo:], src)` for a source that ends within the buffer. -/
def copyAt (b : Fin n → α) (lo : ℕ) (src : List α) : Fin n → α :=
  fun i => if lo ≤ i.val then (src[i.val - lo]?).getD (b i) else b i

/-- `b[lo:hi]`, which fails unless the bounds are in order and within the buffer. -/
def sub (b : Fin n → α) (lo hi : ℕ) : Option (List α) :=
  if lo ≤ hi ∧ hi ≤ n then some (slice b lo (hi - lo)) else none

omit [NeZero n] in
/-- `copy(b[lo:hi], src)`. -/
def copySub (b : Fin n → α) (lo hi : ℕ) (src : List α) : Option (Fin n → α) :=
  if lo ≤ hi ∧ hi ≤ n then some (copyAt b lo (src.take (hi - lo))) else none

@[simp] theorem slice_length (b : Fin n → α) (start count : ℕ) :
    (slice b start count).length = count := by
  simp [slice]

@[simp] theorem slice_zero (b : Fin n → α) (start : ℕ) : slice b start 0 = [] := rfl

theorem slice_add (b : Fin n → α) (start m k : ℕ) :
    slice b start (m + k) = slice b start m ++ slice b (start + m) k := by
  simp only [slice, List.range_add, List.map_append, List.map_map]
  congr 1
  apply List.map_congr_left
  intro i _
  simp [Nat.add_assoc]

theorem slice_take (b : Fin n → α) (start count m : ℕ) (hm : m ≤ count) :
    (slice b start count).take m = slice b start m := by
  have hsplit := slice_add b start m (count - m)
  rw [show m + (count - m) = count by omega] at hsplit
  rw [hsplit]
  simp

theorem slice_drop (b : Fin n → α) (start count m : ℕ) (hm : m ≤ count) :
    (slice b start count).drop m = slice b (start + m) (count - m) := by
  have hsplit := slice_add b start m (count - m)
  rw [show m + (count - m) = count by omega] at hsplit
  rw [hsplit]
  simp

theorem slice_congr_start (b : Fin n → α) (s t count : ℕ) (h : s % n = t % n) :
    slice b s count = slice b t count := by
  apply List.map_congr_left
  intro i _
  congr 1
  apply Fin.ext
  simp only [cell_val]
  rw [Nat.add_mod, h, ← Nat.add_mod]

theorem write_append (b : Fin n → α) (start : ℕ) (xs ys : List α) :
    write b start (xs ++ ys) = write (write b start xs) (start + xs.length) ys := by
  induction xs generalizing b start with
  | nil => rfl
  | cons x rest ih =>
    simp only [List.cons_append, write, ih, List.length_cons]
    congr 1
    omega

theorem write_congr_start (b : Fin n → α) (s t : ℕ) (src : List α) (h : s % n = t % n) :
    write b s src = write b t src := by
  induction src generalizing b s t with
  | nil => rfl
  | cons x rest ih =>
    have hcell : cell n s = cell n t := Fin.ext h
    simp only [write, hcell]
    apply ih
    rw [Nat.add_mod, h, ← Nat.add_mod]

/-- A write reaches the cells of its own positions only. -/
theorem write_of_ne (b : Fin n → α) (start : ℕ) (src : List α) (i : Fin n)
    (h : ∀ k, k < src.length → (start + k) % n ≠ i.val) : write b start src i = b i := by
  induction src generalizing b start with
  | nil => rfl
  | cons x rest ih =>
    have hhead : i ≠ cell n start := by
      intro heq
      exact h 0 (by simp) (by rw [heq]; rfl)
    simp only [write]
    rw [ih, Function.update_of_ne hhead]
    intro k hk
    have := h (k + 1) (by simpa using hk)
    rwa [show start + (k + 1) = start + 1 + k by omega] at this

omit [NeZero n] in
/-- Two positions less than one turn apart fall into different cells. -/
theorem mod_ne_of_lt {a b : ℕ} (hab : a < b) (hb : b < a + n) : a % n ≠ b % n := by
  intro heq
  have hsub : (b - a) % n = 0 := Nat.sub_mod_eq_zero_of_mod_eq heq.symm
  rw [Nat.mod_eq_of_lt (by omega)] at hsub
  omega

/-- A write that starts behind a region and ends within one turn of its start
leaves the region alone. -/
theorem slice_write_of_disjoint (b : Fin n → α) (start : ℕ) (src : List α) (s count : ℕ)
    (hbefore : s + count ≤ start) (hturn : start + src.length ≤ s + n) :
    slice (write b start src) s count = slice b s count := by
  apply List.map_congr_left
  intro i hi
  have hi' : i < count := List.mem_range.mp hi
  apply write_of_ne
  intro k hk
  exact (mod_ne_of_lt (by omega) (by omega)).symm

/-- What was written is read back when it does not lap itself. -/
theorem slice_write_self (b : Fin n → α) (start : ℕ) (src : List α) (h : src.length ≤ n) :
    slice (write b start src) start src.length = src := by
  induction src generalizing b start with
  | nil => rfl
  | cons x rest ih =>
    have hlen : rest.length + 1 ≤ n := by simpa using h
    have htail := ih (Function.update b (cell n start) x) (start + 1) (by omega)
    have hhead : slice (write b start (x :: rest)) start 1 = [x] := by
      have hcell : write b start (x :: rest) (cell n start) = x := by
        simp only [write]
        rw [write_of_ne, Function.update_self]
        intro k hk
        exact (mod_ne_of_lt (by omega) (by omega)).symm
      simpa [slice] using hcell
    rw [List.length_cons, Nat.add_comm rest.length 1, slice_add, hhead]
    simpa only [write, List.singleton_append, List.cons.injEq, true_and] using htail

/-- Appending behind the region that starts at `s` extends it by the source. -/
theorem slice_write_extend (b : Fin n → α) (s count : ℕ) (src : List α)
    (h : count + src.length ≤ n) :
    slice (write b (s + count) src) s (count + src.length) = slice b s count ++ src := by
  rw [slice_add, slice_write_of_disjoint b (s + count) src s count (le_refl _) (by omega),
    slice_write_self b (s + count) src (by omega)]

theorem copyAt_eq_write (b : Fin n → α) (lo : ℕ) (src : List α) (h : lo + src.length ≤ n) :
    copyAt b lo src = write b lo src := by
  induction src generalizing b lo with
  | nil =>
    funext i
    simp [copyAt, write]
  | cons x rest ih =>
    have hlen : lo + 1 + rest.length ≤ n := by
      simp only [List.length_cons] at h
      omega
    have hcell : (cell n lo).val = lo := Nat.mod_eq_of_lt (by omega)
    simp only [write]
    rw [← ih _ _ hlen]
    funext i
    simp only [copyAt]
    rcases lt_trichotomy i.val lo with hlt | heq | hgt
    · have hne : i ≠ cell n lo := by
        intro hi
        rw [hi, hcell] at hlt
        omega
      rw [Function.update_of_ne hne]
      simp [show ¬ lo ≤ i.val by omega, show ¬ lo + 1 ≤ i.val by omega]
    · have hi : i = cell n lo := Fin.ext (by rw [hcell]; exact heq)
      have hself : Function.update b (cell n lo) x i = x := by
        rw [hi, Function.update_self]
      rw [hself]
      simp [heq]
    · have hne : i ≠ cell n lo := by
        intro hi
        rw [hi, hcell] at hgt
        omega
      have hidx : i.val - lo = i.val - (lo + 1) + 1 := by omega
      rw [Function.update_of_ne hne]
      simp [show lo ≤ i.val by omega, show lo + 1 ≤ i.val by omega, hidx]

/-- Reading in two pieces, up to the end of the buffer and from its start. -/
theorem sub_wrapped (b : Fin n → α) (lo count : ℕ) (hlo : lo ≤ n) (hcount : count ≤ n) :
    ∃ head tail, sub b lo (lo + min (n - lo) count) = some head ∧
      sub b 0 (count - min (n - lo) count) = some tail ∧ head ++ tail = slice b lo count := by
  refine ⟨slice b lo (min (n - lo) count), slice b 0 (count - min (n - lo) count), ?_, ?_, ?_⟩
  · rw [sub, if_pos (by omega), Nat.add_sub_cancel_left]
  · rw [sub, if_pos (by omega), Nat.sub_zero]
  · have hsum : count = min (n - lo) count + (count - min (n - lo) count) := by omega
    conv_rhs => rw [hsum, slice_add]
    congr 1
    by_cases hfits : count ≤ n - lo
    · rw [Nat.min_eq_right hfits, Nat.sub_self]
      rfl
    · apply slice_congr_start
      have hend : lo + min (n - lo) count = n := by omega
      rw [hend, Nat.zero_mod, Nat.mod_self]

/-- Storing in two pieces, up to the end of the buffer and from its start. -/
theorem copySub_wrapped (b : Fin n → α) (lo : ℕ) (src : List α) (hlo : lo ≤ n)
    (hsrc : src.length ≤ n) :
    ∃ b', copySub b lo (lo + min (n - lo) src.length) (src.take (min (n - lo) src.length)) =
        some b' ∧
      copySub b' 0 (src.length - min (n - lo) src.length) (src.drop (min (n - lo) src.length)) =
        some (write b lo src) := by
  generalize hfirst : min (n - lo) src.length = first
  have hlen : (src.take first).length = first := by
    rw [List.length_take]
    omega
  have hrest : (src.drop first).length = src.length - first := List.length_drop
  have hall : (src.drop first).take (src.length - first) = src.drop first :=
    List.take_of_length_le (by omega)
  have hwhole : write b lo src = write (write b lo (src.take first)) (lo + first)
      (src.drop first) := by
    conv_lhs => rw [← List.take_append_drop first src, write_append, hlen]
  refine ⟨write b lo (src.take first), ?_, ?_⟩
  · rw [copySub, if_pos (by omega), Nat.add_sub_cancel_left, List.take_take, Nat.min_self,
      copyAt_eq_write _ _ _ (by omega)]
  · rw [copySub, if_pos (by omega), Nat.sub_zero, hall, copyAt_eq_write _ _ _ (by omega), hwhole]
    by_cases hfits : src.length ≤ n - lo
    · have hnil : src.drop first = [] := List.drop_eq_nil_of_le (by omega)
      rw [hnil]
      rfl
    · have hend : lo + first = n := by omega
      rw [hend, write_congr_start _ 0 n _ (by rw [Nat.zero_mod, Nat.mod_self])]

end IpTcp.RingBuffer
