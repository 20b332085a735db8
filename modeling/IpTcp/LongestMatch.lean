import Mathlib.Data.List.Induction
import Mathlib.Data.Option.Basic

/-!
The longest of the elements of a list that cover something, found in one pass that
keeps the first of the longest so far. If the elements that cover it have different
lengths, the order of the list makes no difference.
-/
namespace IpTcp.LongestMatch

variable {α : Type*} (covers : α → Bool) (len : α → ℕ)

def better (best : Option α) (x : α) : Option α :=
  if covers x = true ∧ ∀ b ∈ best, len b < len x then some x else best

def longest (l : List α) : Option α := l.foldl (better covers len) none

structure IsLongest (l : List α) (x : α) : Prop where
  mem : x ∈ l
  covered : covers x = true
  max : ∀ y ∈ l, covers y = true → len y ≤ len x

variable {covers len} {l l' : List α} {x : α}

theorem longest_append (l : List α) (x : α) :
    longest covers len (l ++ [x]) = better covers len (longest covers len l) x := by
  rw [longest, List.foldl_append]
  rfl

theorem IsLongest.append {y : α} (h : IsLongest covers len l x)
    (hy : covers y = true → len y ≤ len x) : IsLongest covers len (l ++ [y]) x where
  mem := List.mem_append_left _ h.mem
  covered := h.covered
  max := List.forall_mem_append.mpr ⟨h.max, by simpa using hy⟩

theorem isLongest_last {y : α} (hy : covers y = true)
    (hmax : ∀ z ∈ l, covers z = true → len z ≤ len y) : IsLongest covers len (l ++ [y]) y where
  mem := List.mem_append_right _ (List.mem_singleton_self y)
  covered := hy
  max := List.forall_mem_append.mpr ⟨hmax, by simp⟩

variable (covers len) in
/-- The pass finds a longest element, if there is any element that covers. -/
theorem longest_spec (l : List α) :
    (longest covers len l = none → ∀ x ∈ l, covers x = false) ∧
      ∀ x, longest covers len l = some x → IsLongest covers len l x := by
  induction l using List.reverseRecOn with
  | nil => simp [longest]
  | append_singleton l y ih =>
    obtain ⟨hnone, hsome⟩ := ih
    rw [longest_append, better]
    split
    · next hy =>
      refine ⟨by simp, fun x hx => ?_⟩
      cases hx
      refine isLongest_last hy.1 fun z hz hcovers => ?_
      cases hbest : longest covers len l with
      | none =>
        rw [hnone hbest z hz] at hcovers
        contradiction
      | some best =>
        exact Nat.le_of_lt (Nat.lt_of_le_of_lt ((hsome best hbest).max z hz hcovers)
          (hy.2 best hbest))
    · next hy =>
      refine ⟨fun hbest => ?_, fun best hbest => (hsome best hbest).append fun hcovers => ?_⟩
      · refine List.forall_mem_append.mpr ⟨hnone hbest, ?_⟩
        simpa [hbest] using hy
      · exact Nat.le_of_not_lt fun hlt => hy ⟨hcovers, by simpa [hbest] using hlt⟩

theorem isLongest_of_longest (h : longest covers len l = some x) : IsLongest covers len l x :=
  (longest_spec covers len l).2 x h

theorem longest_eq_none_iff : longest covers len l = none ↔ ∀ x ∈ l, covers x = false := by
  refine ⟨(longest_spec covers len l).1, fun hnone => ?_⟩
  cases h : longest covers len l with
  | none => rfl
  | some x =>
    have hx := isLongest_of_longest h
    exact absurd hx.covered (by simp [hnone x hx.mem])

theorem foldl_better_some (hmax : ∀ y ∈ l, covers y = true → len y ≤ len x) :
    l.foldl (better covers len) (some x) = some x := by
  induction l with
  | nil => rfl
  | cons y l ih =>
    obtain ⟨hy, hrest⟩ := List.forall_mem_cons.mp hmax
    have hkeep : better covers len (some x) y = some x :=
      if_neg fun hlonger => absurd (hlonger.2 x rfl) (Nat.not_lt.mpr (hy hlonger.1))
    rw [List.foldl_cons, hkeep, ih hrest]

/-- A longest element that comes first is the one found. -/
theorem longest_cons (h : IsLongest covers len (x :: l) x) :
    longest covers len (x :: l) = some x := by
  rw [longest, List.foldl_cons, better, if_pos ⟨h.covered, by simp⟩]
  exact foldl_better_some (List.forall_mem_cons.mp h.max).2

/-- The order makes no difference if no two elements that cover are equally long. -/
theorem longest_perm (hperm : l.Perm l')
    (hinj : ∀ x ∈ l, ∀ y ∈ l, covers x = true → covers y = true → len x = len y → x = y) :
    longest covers len l = longest covers len l' := by
  cases h : longest covers len l with
  | none =>
    have hnone := longest_eq_none_iff.mp h
    exact (longest_eq_none_iff.mpr fun x hx => hnone x (hperm.mem_iff.mpr hx)).symm
  | some x =>
    have hx := isLongest_of_longest h
    cases h' : longest covers len l' with
    | none =>
      have hnone := longest_eq_none_iff.mp h' x (hperm.mem_iff.mp hx.mem)
      exact absurd hx.covered (by simp [hnone])
    | some y =>
      have hy := isLongest_of_longest h'
      have hmem : y ∈ l := hperm.mem_iff.mpr hy.mem
      have hlen : len x = len y := Nat.le_antisymm
        (hy.max x (hperm.mem_iff.mp hx.mem) hx.covered) (hx.max y hmem hy.covered)
      rw [hinj x hx.mem y hmem hx.covered hy.covered hlen]

end IpTcp.LongestMatch
