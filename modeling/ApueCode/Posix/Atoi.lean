import ApueCode.Posix.Printf

/-! `atoi`: blanks, a sign and digits, by way of `strtol`, which stops at the ends of `long`. -/

namespace ApueCode.Posix

def isspace (c : Char) : Bool := [' ', '\t', '\n', '\x0b', '\x0c', '\r'].contains c

def LONG_MAX : ℤ := 2 ^ 63 - 1
def LONG_MIN : ℤ := -2 ^ 63

def digitsValue (cs : List Char) : ℕ := Nat.ofDigitChars 10 (cs.takeWhile Char.isDigit) 0

def signedValue : List Char → ℤ
  | [] => 0
  | c :: cs => if c = '-' then -digitsValue cs else if c = '+' then digitsValue cs else digitsValue (c :: cs)

def strtol (cs : List Char) : ℤ := max LONG_MIN (min (signedValue (cs.dropWhile isspace)) LONG_MAX)

def atoi (cs : List Char) : BitVec 32 := BitVec.ofInt 32 (strtol cs)

variable {blanks rest : List Char} {z : ℤ}

lemma digitsValue_decimal {n : ℕ} (h : NoDigit rest) : digitsValue (decimal n ++ rest) = n := by
  have hs := scanNat_decimal (n := n) h
  simp only [scanNat] at hs
  split at hs
  · cases hs
  · exact congrArg Prod.fst (Option.some.inj hs)

lemma isspace_of_isDigit {c : Char} (h : c.isDigit = true) : isspace c = false := by
  have hall : [' ', '\t', '\n', '\x0b', '\x0c', '\r'].all (fun d => !d.isDigit) = true := rfl
  by_contra hs
  have hd := List.all_eq_true.mp hall c (List.contains_iff_mem.mp (eq_true_of_ne_false hs))
  rw [h] at hd
  cases hd

lemma signedValue_signedDecimal (h : NoDigit rest) : signedValue (signedDecimal z ++ rest) = z := by
  by_cases hz : z < 0
  · rw [signedDecimal, if_pos hz, List.cons_append, signedValue, if_pos rfl, digitsValue_decimal h,
      Int.natCast_natAbs, abs_of_neg hz, neg_neg]
  · obtain ⟨d, ds, hd⟩ := List.exists_cons_of_ne_nil (decimal_ne_nil z.natAbs)
    have hdigit : d.isDigit = true := isDigit_of_mem_decimal (hd ▸ List.mem_cons_self)
    have hsign : d ≠ '-' ∧ d ≠ '+' := by
      constructor <;> rintro rfl <;> cases hdigit
    have hv := digitsValue_decimal (n := z.natAbs) h
    rw [hd, List.cons_append] at hv
    rw [signedDecimal, if_neg hz, hd, List.cons_append, signedValue, if_neg hsign.1, if_neg hsign.2, hv,
      Int.natCast_natAbs, abs_of_nonneg (not_lt.mp hz)]

lemma dropWhile_isspace (hb : ∀ c ∈ blanks, isspace c = true) :
    (blanks ++ (signedDecimal z ++ rest)).dropWhile isspace = signedDecimal z ++ rest := by
  obtain ⟨d, ds, hd, hspace⟩ : ∃ d ds, signedDecimal z = d :: ds ∧ isspace d = false := by
    unfold signedDecimal
    split
    · exact ⟨'-', _, rfl, rfl⟩
    · obtain ⟨d, ds, hd⟩ := List.exists_cons_of_ne_nil (decimal_ne_nil z.natAbs)
      exact ⟨d, ds, hd, isspace_of_isDigit (isDigit_of_mem_decimal (hd ▸ List.mem_cons_self))⟩
  rw [List.dropWhile_append_of_pos hb, hd, List.cons_append, List.dropWhile_cons, hspace]
  rfl

lemma atoi_signedDecimal {s : BitVec 32} (hb : ∀ c ∈ blanks, isspace c = true) (h : NoDigit rest) :
    atoi (blanks ++ (signedDecimal s.toInt ++ rest)) = s := by
  have hlo := BitVec.le_toInt s
  have hhi := BitVec.toInt_lt (x := s)
  rw [atoi, strtol, dropWhile_isspace hb, signedValue_signedDecimal h]
  have hclip : max LONG_MIN (min s.toInt LONG_MAX) = s.toInt := by
    unfold LONG_MIN LONG_MAX
    omega
  rw [hclip, BitVec.ofInt_toInt]

end ApueCode.Posix
