import Mathlib.Data.List.Perm.Basic
import Mathlib.Order.Defs.LinearOrder
import Mathlib.Order.Lattice
import Mathlib.Order.Nat
import Mathlib.Tactic.Common

/-!
The binary min-heap of Go's container/heap, over an arbitrary element type and
a key in a linear order. The loops of `up` and `down` are followed literally,
with the index itself (or the heap size) as the bound on the number of turns.
A push and a pop keep the elements as a multiset and keep every parent at or
below its children, so that the first element is a least one.
-/
namespace IpTcp.ContainerHeap

variable {α κ : Type*} [Inhabited α] [LinearOrder κ]

def less (key : α → κ) (h : Array α) (i j : ℕ) : Bool :=
  key (h.getD i default) < key (h.getD j default)

def upLoop (key : α → κ) : ℕ → Array α → ℕ → Array α
  | 0, h, _ => h
  | fuel + 1, h, j =>
      let i := (j - 1) / 2 -- parent
      if i = j ∨ !less key h j i then h
      else upLoop key fuel (h.swapIfInBounds i j) i

def up (key : α → κ) (h : Array α) (j : ℕ) : Array α := upLoop key (j + 1) h j

def downLoop (key : α → κ) (n : ℕ) : ℕ → Array α → ℕ → Array α
  | 0, h, _ => h
  | fuel + 1, h, i =>
      let j1 := 2 * i + 1
      if n ≤ j1 then h
      else
        let j := if j1 + 1 < n ∧ less key h (j1 + 1) j1 then j1 + 1 else j1
        if !less key h j i then h
        else downLoop key n fuel (h.swapIfInBounds i j) j

def down (key : α → κ) (h : Array α) (i n : ℕ) : Array α := downLoop key n n h i

def push (key : α → κ) (h : Array α) (x : α) : Array α :=
  up key (h.push x) h.size

/-- `heap.Pop`: the root is swapped with the last slot, sifted down in the
shortened heap, and the last slot is taken off. -/
def pop (key : α → κ) (h : Array α) : α × Array α :=
  let n := h.size - 1
  let h' := down key (h.swapIfInBounds 0 n) 0 n
  (h'.getD n default, h'.pop)

def slot (key : α → κ) (h : Array α) (i : ℕ) : κ := key (h.getD i default)

theorem less_iff (key : α → κ) (h : Array α) (i j : ℕ) :
    less key h i j = true ↔ slot key h i < slot key h j := by
  simp [less, slot]

omit [LinearOrder κ] in
theorem slot_swap (key : α → κ) (h : Array α) (i j k : ℕ)
    (hi : i < h.size) (hj : j < h.size) :
    slot key (h.swapIfInBounds i j) k =
      if k = i then slot key h j else if k = j then slot key h i else slot key h k := by
  have hswap : h.swapIfInBounds i j = h.swap i j hi hj := by
    simp [Array.swapIfInBounds_def, hi, hj]
  simp only [slot, hswap, Array.getD_eq_getD_getElem?, Array.getElem?_swap]
  by_cases hkj : k = j
  · subst hkj
    by_cases hki : k = i
    · subst hki
      simp [hi]
    · simp [hki, hi]
  · by_cases hki : k = i
    · subst hki
      simp [Ne.symm hkj, hj]
    · simp [hkj, hki, Ne.symm hkj, Ne.symm hki]

theorem getD_of_lt (h : Array α) (k : ℕ) (hk : k < h.size) : h.getD k default = h[k] := by
  rw [Array.getD_eq_getD_getElem?, Array.getElem?_eq_getElem hk]
  rfl

/-- Among the first `n` slots no child is below its parent. -/
def Ordered (key : α → κ) (h : Array α) (n : ℕ) : Prop :=
  ∀ k, 0 < k → k < n → slot key h ((k - 1) / 2) ≤ slot key h k

/-- Only the edge entering slot `j` may be out of order. -/
structure UpReady (key : α → κ) (h : Array α) (n j : ℕ) : Prop where
  size_le : n ≤ h.size
  lt : j < n
  others : ∀ k, 0 < k → k < n → k ≠ j → slot key h ((k - 1) / 2) ≤ slot key h k
  below : 0 < j → ∀ k, 0 < k → k < n → (k - 1) / 2 = j →
    slot key h ((j - 1) / 2) ≤ slot key h k

/-- Only the edges leaving slot `i` may be out of order. -/
structure DownReady (key : α → κ) (h : Array α) (n i : ℕ) : Prop where
  size_le : n ≤ h.size
  others : ∀ k, 0 < k → k < n → (k - 1) / 2 ≠ i → slot key h ((k - 1) / 2) ≤ slot key h k
  below : 0 < i → ∀ k, 0 < k → k < n → (k - 1) / 2 = i →
    slot key h ((i - 1) / 2) ≤ slot key h k

theorem UpReady.swap {key : α → κ} {h : Array α} {n j : ℕ} (r : UpReady key h n j)
    (hj : 0 < j) (hless : slot key h j < slot key h ((j - 1) / 2)) :
    UpReady key (h.swapIfInBounds ((j - 1) / 2) j) n ((j - 1) / 2) := by
  have hsize := r.size_le
  have hjn := r.lt
  have hget := fun k => slot_swap key h ((j - 1) / 2) j k (by omega) (by omega)
  refine ⟨by simpa using hsize, by omega, ?_, ?_⟩
  · intro k hk hkn hne
    rw [hget, hget]
    by_cases hkj : k = j
    · subst hkj
      simp only [if_true, hne, if_false]
      exact le_of_lt hless
    · have hold := r.others k hk hkn hkj
      by_cases hp : (k - 1) / 2 = (j - 1) / 2
      · simp only [hp, if_true, hne, hkj, if_false]
        rw [hp] at hold
        exact le_trans (le_of_lt hless) hold
      · by_cases hpj : (k - 1) / 2 = j
        · have hjp : j ≠ (j - 1) / 2 := by omega
          simp only [hpj, hjp, if_true, hne, hkj, if_false]
          exact r.below hj k hk hkn hpj
        · simp only [hp, hpj, hne, hkj, if_false]
          exact hold
  · intro hpos k hk hkn hparent
    have hgrand := r.others ((j - 1) / 2) hpos (by omega) (by omega)
    have h1 : ((j - 1) / 2 - 1) / 2 ≠ (j - 1) / 2 := by omega
    have h2 : ((j - 1) / 2 - 1) / 2 ≠ j := by omega
    have h3 : k ≠ (j - 1) / 2 := by omega
    rw [hget, hget]
    simp only [h1, h2, h3, if_false]
    by_cases hkj : k = j
    · simp only [hkj, if_true]
      exact hgrand
    · simp only [hkj, if_false]
      have hold := r.others k hk hkn hkj
      rw [hparent] at hold
      exact le_trans hgrand hold

theorem UpReady.stop {key : α → κ} {h : Array α} {n j : ℕ} (r : UpReady key h n j)
    (hstop : 0 < j → slot key h ((j - 1) / 2) ≤ slot key h j) : Ordered key h n := by
  intro k hk hkn
  by_cases hkj : k = j
  · subst hkj
    exact hstop hk
  · exact r.others k hk hkn hkj

theorem upLoop_ordered (key : α → κ) (n : ℕ) (fuel : ℕ) (h : Array α) (j : ℕ)
    (hfuel : j < fuel) (r : UpReady key h n j) : Ordered key (upLoop key fuel h j) n := by
  induction fuel generalizing h j with
  | zero => omega
  | succ fuel ih =>
    simp only [upLoop]
    split
    · rename_i hstop
      apply r.stop
      intro hj
      rcases hstop with heq | hless
      · omega
      · have hnot : ¬ slot key h j < slot key h ((j - 1) / 2) := by
          rw [← less_iff]
          simpa using hless
        exact not_lt.mp hnot
    · rename_i hgo
      push Not at hgo
      have hless : slot key h j < slot key h ((j - 1) / 2) := by
        rw [← less_iff]
        simpa using hgo.2
      exact ih _ _ (by omega) (r.swap (by omega) hless)

/-- The child that `down` compares with its parent has the least key of the
children in the first `n` slots. -/
private theorem chosen_child (key : α → κ) (h : Array α) (n i j : ℕ) (hn : 2 * i + 1 < n)
    (hj : j = if 2 * i + 1 + 1 < n ∧ less key h (2 * i + 1 + 1) (2 * i + 1)
      then 2 * i + 1 + 1 else 2 * i + 1) :
    i < j ∧ j < n ∧ (j - 1) / 2 = i ∧
      ∀ k, 0 < k → k < n → (k - 1) / 2 = i → slot key h j ≤ slot key h k := by
  simp only [less_iff] at hj
  split at hj
  · rename_i hright
    refine ⟨by omega, by omega, by omega, ?_⟩
    intro k hk hkn hparent
    rcases (by omega : k = 2 * i + 1 ∨ k = j) with rfl | rfl
    · rw [hj]
      exact le_of_lt hright.2
    · exact le_refl _
  · rename_i hleft
    refine ⟨by omega, by omega, by omega, ?_⟩
    intro k hk hkn hparent
    rcases (by omega : k = j ∨ k = 2 * i + 1 + 1) with rfl | rfl
    · exact le_refl _
    · have hnot := fun hlt => hleft ⟨hkn, hlt⟩
      rw [hj]
      exact not_lt.mp hnot

theorem DownReady.swap {key : α → κ} {h : Array α} {n i j : ℕ} (r : DownReady key h n i)
    (hij : i < j) (hjn : j < n) (hparent : (j - 1) / 2 = i)
    (hmin : ∀ k, 0 < k → k < n → (k - 1) / 2 = i → slot key h j ≤ slot key h k)
    (hless : slot key h j < slot key h i) : DownReady key (h.swapIfInBounds i j) n j := by
  have hsize := r.size_le
  have hget := fun k => slot_swap key h i j k (by omega) (by omega)
  refine ⟨by simpa using hsize, ?_, ?_⟩
  · intro k hk hkn hne
    rw [hget, hget]
    by_cases hki : k = i
    · have h1 : (k - 1) / 2 ≠ i := by omega
      simp only [hki, if_true]
      rw [hki] at h1 hne
      simp only [h1, hne, if_false]
      exact r.below (by omega) j (by omega) hjn hparent
    · by_cases hp : (k - 1) / 2 = i
      · simp only [hp, if_true, hki, if_false]
        by_cases hkj : k = j
        · simp only [hkj, if_true]
          exact le_of_lt hless
        · simp only [hkj, if_false]
          exact hmin k hk hkn hp
      · have hkj : k ≠ j := by
          intro heq
          subst heq
          exact hp hparent
        simp only [hp, hne, hki, hkj, if_false]
        exact r.others k hk hkn hp
  · intro hj k hk hkn hpk
    rw [hget, hget]
    have h1 : k ≠ i := by omega
    have h2 : k ≠ j := by omega
    simp only [hparent, if_true, h1, h2, if_false]
    have hold := r.others k hk hkn (by omega)
    rw [hpk] at hold
    exact hold

theorem DownReady.stop {key : α → κ} {h : Array α} {n i : ℕ} (r : DownReady key h n i)
    (hstop : ∀ k, 0 < k → k < n → (k - 1) / 2 = i → slot key h i ≤ slot key h k) :
    Ordered key h n := by
  intro k hk hkn
  by_cases hp : (k - 1) / 2 = i
  · rw [hp]
    exact hstop k hk hkn hp
  · exact r.others k hk hkn hp

theorem downLoop_ordered (key : α → κ) (n : ℕ) (fuel : ℕ) (h : Array α) (i : ℕ)
    (hfuel : n ≤ fuel + i) (r : DownReady key h n i) :
    Ordered key (downLoop key n fuel h i) n := by
  induction fuel generalizing h i with
  | zero =>
    simp only [downLoop]
    exact r.stop (fun k hk hkn hp => by omega)
  | succ fuel ih =>
    simp only [downLoop]
    split
    · exact r.stop (fun k hk hkn hp => by omega)
    · rename_i hn
      generalize hj : (if 2 * i + 1 + 1 < n ∧ less key h (2 * i + 1 + 1) (2 * i + 1)
        then 2 * i + 1 + 1 else 2 * i + 1) = j
      obtain ⟨hij, hjn, hparent, hmin⟩ := chosen_child key h n i j (by omega) hj.symm
      split
      · rename_i hstop
        apply r.stop
        intro k hk hkn hp
        have hnot : ¬ slot key h j < slot key h i := by
          rw [← less_iff]
          simpa using hstop
        exact le_trans (not_lt.mp hnot) (hmin k hk hkn hp)
      · rename_i hgo
        have hless : slot key h j < slot key h i := by
          rw [← less_iff]
          simpa using hgo
        exact ih _ _ (by omega) (r.swap hij hjn hparent hmin hless)

section Contents

omit [Inhabited α] in
theorem swap_toList_perm (h : Array α) (i j : ℕ) :
    (h.swapIfInBounds i j).toList.Perm h.toList := by
  rw [Array.swapIfInBounds_def]
  split
  · split
    · exact Array.perm_iff_toList_perm.mp (Array.swap_perm _ _)
    · exact List.Perm.refl _
  · exact List.Perm.refl _

theorem upLoop_perm (key : α → κ) (fuel : ℕ) (h : Array α) (j : ℕ) :
    (upLoop key fuel h j).toList.Perm h.toList := by
  induction fuel generalizing h j with
  | zero => exact List.Perm.refl _
  | succ fuel ih =>
    simp only [upLoop]
    split
    · exact List.Perm.refl _
    · exact (ih _ _).trans (swap_toList_perm h _ _)

theorem downLoop_perm (key : α → κ) (n fuel : ℕ) (h : Array α) (i : ℕ) :
    (downLoop key n fuel h i).toList.Perm h.toList := by
  induction fuel generalizing h i with
  | zero => exact List.Perm.refl _
  | succ fuel ih =>
    simp only [downLoop]
    generalize (if 2 * i + 1 + 1 < n ∧ less key h (2 * i + 1 + 1) (2 * i + 1)
      then 2 * i + 1 + 1 else 2 * i + 1) = j
    split
    · exact List.Perm.refl _
    · split
      · exact List.Perm.refl _
      · exact (ih _ _).trans (swap_toList_perm h _ _)

/-- `down` on the first `n` slots leaves the slots from `n` on alone. -/
theorem downLoop_slot_of_le (key : α → κ) (n fuel : ℕ) (h : Array α) (i k : ℕ)
    (hsize : n ≤ h.size) (hin : i < n ∨ n ≤ 2 * i + 1) (hk : n ≤ k) :
    (downLoop key n fuel h i).getD k default = h.getD k default := by
  induction fuel generalizing h i with
  | zero => rfl
  | succ fuel ih =>
    simp only [downLoop]
    split
    · rfl
    · rename_i hn
      generalize hj : (if 2 * i + 1 + 1 < n ∧ less key h (2 * i + 1 + 1) (2 * i + 1)
        then 2 * i + 1 + 1 else 2 * i + 1) = j
      have hjn : j < n := by
        split at hj <;> omega
      split
      · rfl
      · rw [ih _ _ (by simpa using hsize) (Or.inl hjn)]
        have hget := slot_swap (fun x : α => x) h i j k (by omega) (by omega)
        simp only [slot] at hget
        rw [hget]
        simp only [show k ≠ i by omega, show k ≠ j by omega, if_false]

omit [LinearOrder κ] in
theorem slot_push_of_lt (key : α → κ) (h : Array α) (x : α) (k : ℕ) (hk : k < h.size) :
    slot key (h.push x) k = slot key h k := by
  simp [slot, Array.getD_eq_getD_getElem?, Array.getElem?_push, hk.ne, hk]

theorem push_perm (key : α → κ) (h : Array α) (x : α) :
    (push key h x).toList.Perm (x :: h.toList) := by
  refine (upLoop_perm key _ _ _).trans ?_
  rw [Array.toList_push]
  exact List.perm_append_singleton x h.toList

theorem push_ordered (key : α → κ) (h : Array α) (x : α) (hh : Ordered key h h.size) :
    Ordered key (push key h x) (push key h x).size := by
  have hsize : (push key h x).size = h.size + 1 := by
    have := (push_perm key h x).length_eq
    simpa using this
  rw [hsize]
  apply upLoop_ordered key (h.size + 1) (h.size + 1) (h.push x) h.size (by omega)
  refine ⟨by simp, by omega, ?_, ?_⟩
  · intro k hk hkn hne
    rw [slot_push_of_lt key h x k (by omega), slot_push_of_lt key h x _ (by omega)]
    exact hh k hk (by omega)
  · intro _ k hk hkn hparent
    omega

/-- The first slot of an ordered heap holds a least key. -/
theorem Ordered.root_le {key : α → κ} {h : Array α} {n : ℕ} (hh : Ordered key h n) (k : ℕ)
    (hk : k < n) : slot key h 0 ≤ slot key h k := by
  induction k using Nat.strong_induction_on with
  | h k ih =>
    by_cases h0 : k = 0
    · rw [h0]
    · exact le_trans (ih ((k - 1) / 2) (by omega) (by omega)) (hh k (by omega) hk)

theorem Ordered.root_le_of_mem {key : α → κ} {h : Array α} (hh : Ordered key h h.size)
    {x : α} (hx : x ∈ h.toList) : slot key h 0 ≤ key x := by
  obtain ⟨k, hk, rfl⟩ := List.mem_iff_getElem.mp hx
  have hk' : k < h.size := by simpa using hk
  have hroot := hh.root_le k hk'
  simpa [slot, hk'] using hroot

private theorem popped_size (key : α → κ) (h : Array α) :
    (down key (h.swapIfInBounds 0 (h.size - 1)) 0 (h.size - 1)).size = h.size := by
  have hperm := (downLoop_perm key (h.size - 1) (h.size - 1)
    (h.swapIfInBounds 0 (h.size - 1)) 0).trans (swap_toList_perm h 0 (h.size - 1))
  simpa [down] using hperm.length_eq

theorem pop_fst (key : α → κ) (h : Array α) (hne : 0 < h.size) :
    (pop key h).1 = h.getD 0 default := by
  simp only [pop, down]
  rw [downLoop_slot_of_le key _ _ _ 0 (h.size - 1) (by simp) (by omega) (le_refl _)]
  have hget := slot_swap (fun x : α => x) h 0 (h.size - 1) (h.size - 1) hne (by omega)
  simp only [slot] at hget
  rw [hget]
  by_cases h0 : h.size - 1 = 0
  · simp only [h0, if_true]
  · simp only [h0, if_true, if_false]

theorem pop_perm (key : α → κ) (h : Array α) (hne : 0 < h.size) :
    h.toList.Perm ((pop key h).1 :: (pop key h).2.toList) := by
  have hperm := (downLoop_perm key (h.size - 1) (h.size - 1)
    (h.swapIfInBounds 0 (h.size - 1)) 0).trans (swap_toList_perm h 0 (h.size - 1))
  have hsize := popped_size key h
  refine hperm.symm.trans ?_
  simp only [pop]
  change (down key (h.swapIfInBounds 0 (h.size - 1)) 0 (h.size - 1)).toList.Perm _
  generalize down key (h.swapIfInBounds 0 (h.size - 1)) 0 (h.size - 1) = g at hsize
  have hlt : h.size - 1 < g.size := by omega
  have hsplit : g.toList = g.pop.toList ++ [g.getD (h.size - 1) default] := by
    have hnil : g.toList ≠ [] := by
      intro hempty
      have hzero : g.toList.length = 0 := by rw [hempty]; rfl
      rw [Array.length_toList] at hzero
      omega
    have hlast : g.toList.getLast hnil = g.getD (h.size - 1) default := by
      rw [getD_of_lt g _ hlt, List.getLast_eq_getElem]
      simp [hsize]
    rw [Array.toList_pop, ← hlast, List.dropLast_append_getLast]
  rw [hsplit]
  exact List.perm_append_singleton _ _

theorem pop_ordered (key : α → κ) (h : Array α) (hne : 0 < h.size)
    (hh : Ordered key h h.size) : Ordered key (pop key h).2 (pop key h).2.size := by
  have hsize := popped_size key h
  have hready : DownReady key (h.swapIfInBounds 0 (h.size - 1)) (h.size - 1) 0 := by
    refine ⟨by simp, ?_, by omega⟩
    intro k hk hkn hp
    have hget := fun k => slot_swap key h 0 (h.size - 1) k hne (by omega)
    rw [hget, hget]
    simp only [show k ≠ 0 by omega, show k ≠ h.size - 1 by omega, hp,
      show (k - 1) / 2 ≠ h.size - 1 by omega, if_false]
    exact hh k hk (by omega)
  have hdown := downLoop_ordered key (h.size - 1) (h.size - 1) _ 0 (by omega) hready
  simp only [pop, down] at hsize ⊢
  generalize downLoop key (h.size - 1) (h.size - 1) (h.swapIfInBounds 0 (h.size - 1)) 0 = g
    at hsize hdown
  have hpop : ∀ k, k < h.size - 1 → slot key g.pop k = slot key g k := by
    intro k hk
    rw [slot, slot, getD_of_lt g k (by omega), getD_of_lt g.pop k (by simp; omega)]
    simp
  intro k hk hkn
  have hkn' : k < h.size - 1 := by simpa [hsize] using hkn
  rw [hpop _ (by omega), hpop _ (by omega)]
  exact hdown k hk hkn'

example : (pop id (push id (push id (push id #[] 5) 3) 4)).1 = 3 := by decide

end Contents

section Relabelling

variable {β κ' : Type*} [Inhabited β] [LinearOrder κ']

def KeepsOrder (key : α → κ) (key' : β → κ') (f : α → β) (l : List α) : Prop :=
  ∀ a ∈ l, ∀ b ∈ l, (key' (f a) < key' (f b) ↔ key a < key b)

omit [Inhabited α] [Inhabited β] in
theorem KeepsOrder.of_perm {key : α → κ} {key' : β → κ'} {f : α → β} {l l' : List α}
    (h : KeepsOrder key key' f l) (hp : l'.Perm l) : KeepsOrder key key' f l' := by
  intro a ha b hb
  exact h a (hp.mem_iff.mp ha) b (hp.mem_iff.mp hb)

private theorem less_map {key : α → κ} {key' : β → κ'} {f : α → β} {h : Array α}
    (hf : KeepsOrder key key' f h.toList) (i j : ℕ) (hi : i < h.size) (hj : j < h.size) :
    less key' (h.map f) i j = less key h i j := by
  have hi' : i < (h.map f).size := by simpa using hi
  have hj' : j < (h.map f).size := by simpa using hj
  simp only [less, getD_of_lt h i hi, getD_of_lt h j hj, getD_of_lt _ i hi', getD_of_lt _ j hj',
    Array.getElem_map, decide_eq_decide]
  exact hf _ (by simp) _ (by simp)

omit [Inhabited α] [Inhabited β] in
private theorem map_swap (f : α → β) (h : Array α) (i j : ℕ) :
    (h.map f).swapIfInBounds i j = (h.swapIfInBounds i j).map f := by
  simp only [Array.swapIfInBounds_def, Array.size_map]
  split
  · split
    · simp [Array.swap_def, Array.map_set]
    · rfl
  · rfl

private theorem upLoop_map {key : α → κ} {key' : β → κ'} {f : α → β} (fuel : ℕ) (h : Array α)
    (j : ℕ) (hj : j < h.size) (hf : KeepsOrder key key' f h.toList) :
    upLoop key' fuel (h.map f) j = (upLoop key fuel h j).map f := by
  induction fuel generalizing h j with
  | zero => rfl
  | succ fuel ih =>
    simp only [upLoop, less_map hf j ((j - 1) / 2) hj (by omega)]
    split
    · rfl
    · rw [map_swap, ih _ _ (by simp; omega) (hf.of_perm (swap_toList_perm h _ _))]

private theorem downLoop_map {key : α → κ} {key' : β → κ'} {f : α → β} (n fuel : ℕ)
    (h : Array α) (i : ℕ) (hn : n ≤ h.size) (hf : KeepsOrder key key' f h.toList) :
    downLoop key' n fuel (h.map f) i = (downLoop key n fuel h i).map f := by
  induction fuel generalizing h i with
  | zero => rfl
  | succ fuel ih =>
    simp only [downLoop]
    by_cases hi : n ≤ 2 * i + 1
    · simp only [hi, if_true]
    · simp only [hi, if_false]
      have hchild : (if 2 * i + 1 + 1 < n ∧ less key' (h.map f) (2 * i + 1 + 1) (2 * i + 1)
            then 2 * i + 1 + 1 else 2 * i + 1) =
          (if 2 * i + 1 + 1 < n ∧ less key h (2 * i + 1 + 1) (2 * i + 1)
            then 2 * i + 1 + 1 else 2 * i + 1) := by
        by_cases hr : 2 * i + 1 + 1 < n
        · rw [less_map hf _ _ (by omega) (by omega)]
        · simp only [hr, false_and, if_false]
      rw [hchild]
      generalize hj : (if 2 * i + 1 + 1 < n ∧ less key h (2 * i + 1 + 1) (2 * i + 1)
        then 2 * i + 1 + 1 else 2 * i + 1) = j
      have hjn : j < n := by
        split at hj <;> omega
      rw [less_map hf j i (by omega) (by omega)]
      split
      · rfl
      · rw [map_swap, ih _ _ (by simpa using hn) (hf.of_perm (swap_toList_perm h _ _))]

/-- A relabelling that keeps the order of the keys commutes with a push. -/
theorem push_map {key : α → κ} {key' : β → κ'} {f : α → β} (h : Array α) (x : α)
    (hf : KeepsOrder key key' f (x :: h.toList)) :
    push key' (h.map f) (f x) = (push key h x).map f := by
  have hperm : (h.push x).toList.Perm (x :: h.toList) := by
    rw [Array.toList_push]
    exact List.perm_append_singleton x h.toList
  simp only [push, up, Array.size_map, ← Array.map_push]
  exact upLoop_map _ _ _ (by simp) (hf.of_perm hperm)

/-- A relabelling that keeps the order of the keys commutes with a pop. -/
theorem pop_map {key : α → κ} {key' : β → κ'} {f : α → β} (h : Array α) (hne : 0 < h.size)
    (hf : KeepsOrder key key' f h.toList) :
    pop key' (h.map f) = (f (pop key h).1, (pop key h).2.map f) := by
  have hsize := popped_size key h
  simp only [pop, down, Array.size_map, map_swap] at hsize ⊢
  rw [downLoop_map _ _ _ _ (by simp) (hf.of_perm (swap_toList_perm h _ _))]
  generalize downLoop key (h.size - 1) (h.size - 1) (h.swapIfInBounds 0 (h.size - 1)) 0 = g
    at hsize
  rw [getD_of_lt g _ (by omega), getD_of_lt (g.map f) _ (by simp; omega)]
  simp

end Relabelling

end IpTcp.ContainerHeap
