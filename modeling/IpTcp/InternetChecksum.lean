import IpTcp.Bytes
import Mathlib.Algebra.BigOperators.Group.List.Basic
import Mathlib.Data.Nat.ModEq

/-!
One's-complement sums. A sum that goes over the largest word carries around to its
low end, so that it keeps its residue modulo the largest word. Zero has a second form,
the largest word itself, which every sum other than that of zeros takes.
-/
namespace IpTcp.InternetChecksum

open BigEndian

section Carry

variable {m : ℕ}

def add (m a b : ℕ) : ℕ := if a + b ≤ m then a + b else a + b - m

def fold (m s : ℕ) : ℕ := if s = 0 then 0 else (s - 1) % m + 1

@[simp] theorem fold_zero : fold m 0 = 0 := rfl

theorem fold_le (hm : 0 < m) (s : ℕ) : fold m s ≤ m := by
  unfold fold
  split
  · exact Nat.zero_le m
  · exact Nat.mod_lt _ hm

theorem fold_pos {s : ℕ} (hs : 0 < s) : 0 < fold m s := by
  rw [fold, if_neg (by omega)]
  exact Nat.succ_pos _

theorem fold_mod (m s : ℕ) : fold m s % m = s % m := by
  unfold fold
  split
  · next hs => rw [hs]
  · next hs => rw [Nat.mod_add_mod, Nat.sub_add_cancel (by omega)]

/-- The residue and whether it is zero determine a word. -/
theorem eq_of_mod {a b : ℕ} (ha : a ≤ m) (hb : b ≤ m) (hmod : a % m = b % m)
    (hzero : a = 0 ↔ b = 0) : a = b := by
  rcases Nat.lt_or_eq_of_le ha with ha | rfl
  · rcases Nat.lt_or_eq_of_le hb with hb | rfl
    · rwa [Nat.mod_eq_of_lt ha, Nat.mod_eq_of_lt hb] at hmod
    · rw [Nat.mod_self, Nat.mod_eq_of_lt ha] at hmod
      exact hmod.trans (hzero.mp hmod).symm
  · rcases Nat.lt_or_eq_of_le hb with hb | rfl
    · rw [Nat.mod_self, Nat.mod_eq_of_lt hb] at hmod
      exact (hzero.mpr hmod.symm).trans hmod
    · rfl

theorem fold_eq_zero_iff {s : ℕ} : fold m s = 0 ↔ s = 0 := by
  constructor
  · intro h
    by_contra hs
    exact absurd h (fold_pos (Nat.pos_of_ne_zero hs)).ne'
  · rintro rfl
    rfl

theorem fold_congr (hm : 0 < m) {s t : ℕ} (hmod : s % m = t % m) (hzero : s = 0 ↔ t = 0) :
    fold m s = fold m t := by
  apply eq_of_mod (fold_le hm s) (fold_le hm t)
  · rw [fold_mod, fold_mod, hmod]
  · rw [fold_eq_zero_iff, fold_eq_zero_iff, hzero]

theorem fold_of_le {a : ℕ} (hm : 0 < m) (ha : a ≤ m) : fold m a = a :=
  eq_of_mod (fold_le hm a) ha (fold_mod m a) fold_eq_zero_iff

/-- Folding in between makes no difference. -/
theorem fold_fold_add (hm : 0 < m) (s t : ℕ) : fold m (fold m s + t) = fold m (s + t) := by
  apply fold_congr hm
  · rw [Nat.add_mod, fold_mod, ← Nat.add_mod]
  · rw [Nat.add_eq_zero_iff, Nat.add_eq_zero_iff, fold_eq_zero_iff]

theorem add_eq_fold {a b : ℕ} (ha : a ≤ m) (hb : b ≤ m) : add m a b = fold m (a + b) := by
  unfold add
  split
  · next hle =>
    rcases Nat.eq_zero_or_pos m with rfl | hm
    · rw [Nat.le_zero.mp hle]
      rfl
    · exact (fold_of_le hm hle).symm
  · next hgt =>
    have hm : 0 < m := by omega
    refine eq_of_mod (by omega) (fold_le hm _) ?_ ?_
    · rw [fold_mod, ← Nat.mod_eq_sub_mod (by omega)]
    · rw [fold_eq_zero_iff]
      omega

theorem add_le {a b : ℕ} (ha : a ≤ m) (hb : b ≤ m) : add m a b ≤ m := by
  unfold add
  split <;> omega

/-- A sum verifies when it folds to the largest word. -/
theorem fold_eq_max_iff (hm : 0 < m) {s : ℕ} : fold m s = m ↔ 0 < s ∧ s % m = 0 := by
  constructor
  · intro h
    refine ⟨Nat.pos_of_ne_zero fun hs => ?_, ?_⟩
    · rw [hs, fold_zero] at h
      omega
    · rw [← fold_mod, h, Nat.mod_self]
  · intro ⟨hs, hmod⟩
    apply eq_of_mod (fold_le hm s) le_rfl
    · rw [fold_mod, hmod, Nat.mod_self]
    · rw [fold_eq_zero_iff]
      omega

/-- Adding a sum leaves a word as it is: nothing was added, or a multiple of the largest
word to a word that is not zero. -/
theorem fold_add_eq_self_iff (hm : 0 < m) {c s : ℕ} (hc : c ≤ m) :
    fold m (c + s) = c ↔ s = 0 ∨ 0 < c ∧ s % m = 0 := by
  constructor
  · intro h
    rcases Nat.eq_zero_or_pos c with rfl | hpos
    · rw [Nat.zero_add, fold_eq_zero_iff] at h
      exact Or.inl h
    · have hmod : (c + s) % m = c % m := by rw [← fold_mod, h]
      have hs : s ≡ 0 [MOD m] := Nat.ModEq.add_left_cancel' c hmod
      exact Or.inr ⟨hpos, by simpa [Nat.ModEq] using hs⟩
  · rintro (rfl | ⟨hpos, hs⟩)
    · rw [Nat.add_zero, fold_of_le hm hc]
    · rw [← fold_of_le hm hc]
      apply fold_congr hm
      · rw [fold_of_le hm hc, Nat.add_mod, hs, Nat.add_zero, Nat.mod_mod]
      · rw [fold_of_le hm hc]
        omega

/-- A sum and the complement of its word cancel out. -/
theorem add_complement_mod (hm : 0 < m) (s : ℕ) : (s + (m - fold m s)) % m = 0 := by
  rw [Nat.add_mod, ← fold_mod m s, ← Nat.add_mod, Nat.add_sub_of_le (fold_le hm s), Nat.mod_self]

theorem complement_pos_iff (hm : 0 < m) {s : ℕ} (hs : 0 < s) :
    0 < m - fold m s ↔ s % m ≠ 0 := by
  have hle := fold_le hm s
  have hmax := fold_eq_max_iff hm (s := s)
  constructor
  · intro hpos hmod
    have := hmax.mpr ⟨hs, hmod⟩
    omega
  · intro hmod
    have hne : fold m s ≠ m := fun h => hmod (hmax.mp h).2
    omega

/-- A word is the complement of a sum exactly if the two cancel out and the word is not the
largest. -/
theorem complement_eq_iff (hm : 0 < m) {c s : ℕ} (hs : 0 < s) (hc : c ≤ m) :
    m - fold m s = c ↔ c ≠ m ∧ (s + c) % m = 0 := by
  have hpos : 0 < fold m s := fold_pos hs
  have hle := fold_le hm s
  constructor
  · rintro rfl
    exact ⟨by omega, add_complement_mod hm s⟩
  · intro ⟨hne, hmod⟩
    have hcancel : s + c ≡ m - c + c [MOD m] := by
      rw [Nat.sub_add_cancel hc]
      exact hmod.trans (Nat.mod_self m).symm
    have hfold : fold m s = m - c := by
      refine eq_of_mod hle (Nat.sub_le m c) ?_ (by omega)
      rw [fold_mod]
      exact Nat.ModEq.add_right_cancel' c hcancel
    omega

end Carry

/-- The 16-bit words of a byte string. The last byte of an odd one is a high byte. -/
def words : List UInt8 → List ℕ
  | [] => []
  | [high] => [256 * high.toNat]
  | high :: low :: rest => (256 * high.toNat + low.toNat) :: words rest

def wordSum (bytes : List UInt8) : ℕ := (words bytes).sum

abbrev maxWord : ℕ := 65535

/-- The folded sum of a byte string over an initial value. -/
def checksum (bytes : List UInt8) (initial : ℕ) : ℕ := (words bytes).foldl (add maxWord) initial

@[simp] theorem wordSum_nil : wordSum [] = 0 := rfl

@[simp] theorem wordSum_singleton (high : UInt8) : wordSum [high] = 256 * high.toNat := by
  simp [wordSum, words]

@[simp] theorem wordSum_cons_cons (high low : UInt8) (rest : List UInt8) :
    wordSum (high :: low :: rest) = 256 * high.toNat + low.toNat + wordSum rest := by
  simp [wordSum, words]

theorem words_le (bytes : List UInt8) : ∀ word ∈ words bytes, word ≤ maxWord := by
  induction bytes using words.induct with
  | case1 => simp [words]
  | case2 high =>
    have hhigh : high.toNat < 256 := high.toNat_lt
    simp only [words, List.mem_singleton, forall_eq, maxWord]
    omega
  | case3 high low rest ih =>
    have hhigh : high.toNat < 256 := high.toNat_lt
    have hlow : low.toNat < 256 := low.toNat_lt
    simp only [words, List.mem_cons, forall_eq_or_imp]
    exact ⟨by simp only [maxWord]; omega, ih⟩

theorem foldl_add_eq (l : List ℕ) (initial : ℕ) (hl : ∀ word ∈ l, word ≤ maxWord)
    (hinitial : initial ≤ maxWord) :
    l.foldl (add maxWord) initial = fold maxWord (initial + l.sum) := by
  induction l generalizing initial with
  | nil => simp [fold_of_le (show 0 < maxWord by decide) hinitial]
  | cons word l ih =>
    have hword : word ≤ maxWord := hl word List.mem_cons_self
    have hrest : ∀ w ∈ l, w ≤ maxWord := fun w hw => hl w (List.mem_cons_of_mem _ hw)
    rw [List.foldl_cons, ih _ hrest (add_le hinitial hword), add_eq_fold hinitial hword,
      fold_fold_add (by decide), List.sum_cons, Nat.add_assoc]

theorem checksum_eq (bytes : List UInt8) {initial : ℕ} (hinitial : initial ≤ maxWord) :
    checksum bytes initial = fold maxWord (initial + wordSum bytes) :=
  foldl_add_eq _ _ (words_le bytes) hinitial

theorem checksum_le (bytes : List UInt8) {initial : ℕ} (hinitial : initial ≤ maxWord) :
    checksum bytes initial ≤ maxWord := by
  rw [checksum_eq bytes hinitial]
  exact fold_le (by decide) _

theorem wordSum_append {front : List UInt8} (heven : front.length % 2 = 0) (rest : List UInt8) :
    wordSum (front ++ rest) = wordSum front + wordSum rest := by
  induction front using words.induct with
  | case1 => simp
  | case2 high => simp at heven
  | case3 high low front ih =>
    rw [List.length_cons, List.length_cons] at heven
    rw [List.cons_append, List.cons_append, wordSum_cons_cons, wordSum_cons_cons,
      ih (by omega)]
    omega

@[simp] theorem wordSum_put_two (n : ℕ) (rest : List UInt8) :
    wordSum (put 2 n ++ rest) = n % 65536 + wordSum rest := by
  simp only [put, List.cons_append, List.nil_append, wordSum_cons_cons, UInt8.toNat_ofNat']
  omega

@[simp] theorem wordSum_put_four (n : ℕ) (rest : List UInt8) :
    wordSum (put 4 n ++ rest) = n / 65536 % 65536 + n % 65536 + wordSum rest := by
  simp only [put, List.cons_append, List.nil_append, wordSum_cons_cons, UInt8.toNat_ofNat']
  omega

@[simp] theorem wordSum_put_one_one (n m : ℕ) (rest : List UInt8) :
    wordSum (put 1 n ++ (put 1 m ++ rest)) = 256 * (n % 256) + m % 256 + wordSum rest := by
  simp only [put, List.cons_append, List.nil_append, wordSum_cons_cons, UInt8.toNat_ofNat']
  omega

theorem wordSum_field_two {bytes : List UInt8} (h : 2 ≤ bytes.length) :
    wordSum bytes = field bytes 0 2 + wordSum (bytes.drop 2) := by
  match bytes, h with
  | high :: low :: rest, _ => simp [field, BigEndian.get]

theorem wordSum_field_four {bytes : List UInt8} (h : 4 ≤ bytes.length) :
    wordSum bytes = field bytes 0 4 / 65536 + field bytes 0 4 % 65536 +
      wordSum (bytes.drop 4) := by
  match bytes, h with
  | b₀ :: b₁ :: b₂ :: b₃ :: rest, _ =>
    have h₁ := b₁.toNat_lt
    have h₂ := b₂.toNat_lt
    have h₃ := b₃.toNat_lt
    simp only [wordSum_cons_cons, field, BigEndian.get, List.drop_zero, List.take_succ_cons,
      List.take_zero, List.length_cons, List.length_nil, List.drop_succ_cons]
    omega

theorem wordSum_field_one_one {bytes : List UInt8} (h : 2 ≤ bytes.length) :
    wordSum bytes = 256 * field bytes 0 1 + field bytes 1 1 + wordSum (bytes.drop 2) := by
  match bytes, h with
  | high :: low :: rest, _ => simp [field, BigEndian.get]

/-- Checksums chain: the sum of one part is the initial value for the next. -/
theorem checksum_append {front : List UInt8} (heven : front.length % 2 = 0)
    (rest : List UInt8) {initial : ℕ} (hinitial : initial ≤ maxWord) :
    checksum (front ++ rest) initial = checksum rest (checksum front initial) := by
  rw [checksum_eq _ hinitial, checksum_eq _ (checksum_le front hinitial),
    checksum_eq front hinitial, fold_fold_add (by decide), wordSum_append heven,
    Nat.add_assoc]

theorem head_le_wordSum (byte : UInt8) (rest : List UInt8) :
    byte.toNat ≤ wordSum (byte :: rest) := by
  cases rest with
  | nil =>
    rw [wordSum_singleton]
    omega
  | cons low rest =>
    rw [wordSum_cons_cons]
    omega

end IpTcp.InternetChecksum
