import Mathlib.Data.List.Basic
import Mathlib.Data.Nat.Notation

/-!
The text of an IPv4 prefix: four numbers with dots between them, a slash and the number
of leading bits. The parser takes the last slash, no number may have a leading zero, the
numbers in front of the slash are at most 255 and the one behind it at most 32. What is
printed is parsed back.
-/
namespace IpTcp.DottedText

def digit (c : Char) : Option ℕ := if '0' ≤ c ∧ c ≤ '9' then some (c.toNat - 48) else none

/-- Read digits onto a number that has `digLen` of them already. -/
def octet : List Char → ℕ → ℕ → Option (ℕ × ℕ)
  | [], val, digLen => some (val, digLen)
  | c :: rest, val, digLen =>
      match digit c with
      | none => none
      | some d =>
          if digLen = 1 ∧ val = 0 then none
          else if 255 < 10 * val + d then none
          else octet rest (10 * val + d) (digLen + 1)

def parseFields : List Char → ℕ → ℕ → List ℕ → Option (List ℕ)
  | [], val, digLen, fields =>
      if digLen = 0 ∨ fields.length < 3 then none else some (fields ++ [val])
  | c :: rest, val, digLen, fields =>
      match digit c with
      | some d =>
          if digLen = 1 ∧ val = 0 then none
          else if 255 < 10 * val + d then none
          else parseFields rest (10 * val + d) (digLen + 1) fields
      | none =>
          if c = '.' then
            if digLen = 0 ∨ fields.length = 3 then none
            else parseFields rest 0 0 (fields ++ [val])
          else none

def parseNumber : List Char → ℕ → Option ℕ
  | [], val => some val
  | c :: rest, val =>
      match digit c with
      | none => none
      | some d => parseNumber rest (10 * val + d)

/-- The bits of a prefix, without sign or leading zero. -/
def parseBits : List Char → Option ℕ
  | [] => none
  | [c] => digit c
  | c :: rest => if '1' ≤ c ∧ c ≤ '9' then parseNumber (c :: rest) 0 else none

def splitLast : List Char → Option (List Char × List Char)
  | [] => none
  | c :: rest =>
      match splitLast rest with
      | some (front, back) => some (c :: front, back)
      | none => if c = '/' then some ([], rest) else none

def fromFields (fields : List ℕ) : ℕ := fields.foldl (fun n field => 256 * n + field) 0

def ParsePrefix (s : List Char) : Option (ℕ × ℕ) :=
  match splitLast s with
  | none => none
  | some (addr, bitsStr) =>
      match parseFields addr 0 0 [], parseBits bitsStr with
      | some fields, some bits => if bits ≤ 32 then some (fromFields fields, bits) else none
      | _, _ => none

def decimal (n : ℕ) : List Char := Nat.toDigits 10 n

def dotted (n : ℕ) : List Char :=
  decimal (n / 16777216 % 256) ++ '.' :: (decimal (n / 65536 % 256) ++
    '.' :: (decimal (n / 256 % 256) ++ '.' :: decimal (n % 256)))

theorem parseFields_append {digits : List Char} {val digLen val' digLen' : ℕ}
    (h : octet digits val digLen = some (val', digLen')) (rest : List Char) (fields : List ℕ) :
    parseFields (digits ++ rest) val digLen fields = parseFields rest val' digLen' fields := by
  induction digits generalizing val digLen with
  | nil =>
    cases h
    rfl
  | cons c digits ih =>
    simp only [octet] at h
    rw [List.cons_append, parseFields]
    cases hdigit : digit c with
    | none => simp [hdigit] at h
    | some d =>
      simp only [hdigit] at h ⊢
      split at h
      · contradiction
      · next hzero =>
        split at h
        · contradiction
        · next hbound =>
          rw [if_neg hzero, if_neg hbound]
          exact ih h

theorem octet_decimal : ∀ n < 256, octet (decimal n) 0 0 = some (n, (decimal n).length) ∧
    (decimal n).length ≠ 0 := by
  decide +kernel

/-- A field that is printed is read back, up to the dot behind it. -/
theorem parseFields_decimal_dot {n : ℕ} (hn : n < 256) {fields : List ℕ}
    (hfields : fields.length < 3) (rest : List Char) :
    parseFields (decimal n ++ '.' :: rest) 0 0 fields =
      parseFields rest 0 0 (fields ++ [n]) := by
  obtain ⟨hoctet, hlength⟩ := octet_decimal n hn
  have hdot : digit '.' = none := by decide
  rw [parseFields_append hoctet, parseFields, hdot]
  simp only [if_true]
  rw [if_neg (by omega)]

theorem parseFields_decimal_end {n : ℕ} (hn : n < 256) {fields : List ℕ}
    (hfields : fields.length = 3) :
    parseFields (decimal n) 0 0 fields = some (fields ++ [n]) := by
  obtain ⟨hoctet, hlength⟩ := octet_decimal n hn
  have happend := parseFields_append hoctet [] fields
  rw [List.append_nil] at happend
  rw [happend, parseFields, if_neg (by omega)]

theorem parseFields_dotted (n : ℕ) :
    parseFields (dotted n) 0 0 [] =
      some [n / 16777216 % 256, n / 65536 % 256, n / 256 % 256, n % 256] := by
  have hlt : ∀ m, m % 256 < 256 := fun m => Nat.mod_lt m (by decide)
  unfold dotted
  rw [parseFields_decimal_dot (hlt _) (by simp), parseFields_decimal_dot (hlt _) (by simp),
    parseFields_decimal_dot (hlt _) (by simp), parseFields_decimal_end (hlt _) (by simp)]
  rfl

theorem splitLast_none {s : List Char} (h : '/' ∉ s) : splitLast s = none := by
  induction s with
  | nil => rfl
  | cons c rest ih =>
    rw [List.mem_cons, not_or] at h
    rw [splitLast, ih h.2]
    exact if_neg (Ne.symm h.1)

theorem splitLast_append (front : List Char) {back : List Char} (h : '/' ∉ back) :
    splitLast (front ++ '/' :: back) = some (front, back) := by
  induction front with
  | nil => rw [List.nil_append, splitLast, splitLast_none h]; rfl
  | cons c front ih => rw [List.cons_append, splitLast, ih]

theorem parseBits_decimal : ∀ bits ≤ 32, parseBits (decimal bits) = some bits ∧
    '/' ∉ decimal bits := by
  decide +kernel

/-- A prefix that is printed is parsed back. -/
theorem parsePrefix_dotted {n bits : ℕ} (hn : n < 4294967296) (hbits : bits ≤ 32) :
    ParsePrefix (dotted n ++ '/' :: decimal bits) = some (n, bits) := by
  obtain ⟨hparse, hslash⟩ := parseBits_decimal bits hbits
  have hfields : fromFields [n / 16777216 % 256, n / 65536 % 256, n / 256 % 256, n % 256] = n := by
    simp only [fromFields, List.foldl_cons, List.foldl_nil]
    omega
  simp only [ParsePrefix, splitLast_append _ hslash, parseFields_dotted, hparse, if_pos hbits,
    hfields]

end IpTcp.DottedText
