import ApueCode.Posix.CString

/-! Conversions of `printf`, and how to read their output back. -/

namespace ApueCode.Posix

def Byte.toChar (b : Byte) : Char := Char.ofNat b.toNat

def decimal (n : ℕ) : List Char := Nat.toDigits 10 n

def signedDecimal (z : ℤ) : List Char := if z < 0 then '-' :: decimal z.natAbs else decimal z.natAbs

def unlines (lines : List (List Char)) : List Char := lines.flatMap (· ++ ['\n'])

def words (xs : List (List Char)) : List Char := xs.flatMap (' ' :: ·)

def scanNat (cs : List Char) : Option (ℕ × List Char) :=
  let digits := cs.takeWhile Char.isDigit
  if digits = [] then none else some (Nat.ofDigitChars 10 digits 0, cs.dropWhile Char.isDigit)

def skipBlanks (cs : List Char) : List Char := cs.dropWhile (· = ' ')

def scanInt (cs : List Char) : Option (ℤ × List Char) :=
  match skipBlanks cs with
  | [] => none
  | c :: cs =>
    if c = '-' then (scanNat cs).map fun r => (-r.1, r.2) else (scanNat (c :: cs)).map fun r => (r.1, r.2)

def scanText (pre cs : List Char) : Option (List Char) :=
  if pre <+: cs then some (cs.drop pre.length) else none

def NoDigit (rest : List Char) : Prop := rest.head?.any Char.isDigit = false

variable {cs rest rest' : List Char} {m n width : ℕ} {z : ℤ} {xs ys : List (List Char)}

lemma decimal_ne_nil (n : ℕ) : decimal n ≠ [] := Nat.toDigits_ne_nil

lemma isDigit_of_mem_decimal {c : Char} (h : c ∈ decimal n) : c.isDigit = true :=
  Nat.isDigit_of_mem_toDigits (by decide) (by decide) h

lemma notMem_decimal {c : Char} (hc : c.isDigit = false) : c ∉ decimal n := by
  intro h
  rw [isDigit_of_mem_decimal h] at hc
  cases hc

lemma notMem_signedDecimal {c : Char} (hc : c.isDigit = false) (hm : c ≠ '-') : c ∉ signedDecimal z := by
  unfold signedDecimal
  split <;> simp [notMem_decimal hc, hm]

lemma noDigit_nil : NoDigit [] := rfl

lemma noDigit_cons {c : Char} (hc : c.isDigit = false) : NoDigit (c :: rest) := hc

lemma NoDigit.append (h : NoDigit cs) (hne : cs ≠ []) (rest : List Char) : NoDigit (cs ++ rest) := by
  rwa [NoDigit, List.head?_append_of_ne_nil _ hne]

lemma scanNat_decimal (h : NoDigit rest) : scanNat (decimal n ++ rest) = some (n, rest) := by
  have hstop : rest.takeWhile Char.isDigit = [] ∧ rest.dropWhile Char.isDigit = rest := by
    cases rest with
    | nil => simp
    | cons c cs =>
      have hc : c.isDigit = false := h
      simp [hc]
  have hd : ∀ c ∈ decimal n, c.isDigit = true := fun _ => isDigit_of_mem_decimal
  simp only [scanNat, List.takeWhile_append_of_pos hd, List.dropWhile_append_of_pos hd, hstop, List.append_nil,
    decimal_ne_nil, if_false]
  rw [decimal, Nat.ofDigitChars_ten_toDigits]

lemma decimal_append_inj (h : NoDigit rest) (h' : NoDigit rest') (he : decimal m ++ rest = decimal n ++ rest') :
    m = n ∧ rest = rest' := by
  have hs := congrArg scanNat he
  rw [scanNat_decimal h, scanNat_decimal h'] at hs
  exact Prod.mk.inj (Option.some.inj hs)

lemma decimal_injective : Function.Injective decimal := by
  intro m n h
  have hd : decimal m ++ [] = decimal n ++ [] := congrArg (· ++ []) h
  exact (decimal_append_inj noDigit_nil noDigit_nil hd).1

lemma skipBlanks_leftpad {c : Char} (hc : c ≠ ' ') :
    skipBlanks (List.leftpad width ' ' (c :: cs) ++ rest) = c :: (cs ++ rest) := by
  have hblank : ∀ d ∈ List.replicate (width - (c :: cs).length) ' ', decide (d = ' ') = true := by
    intro d hd
    simp [List.eq_of_mem_replicate hd]
  rw [skipBlanks, List.leftpad, List.append_assoc, List.dropWhile_append_of_pos hblank]
  simp [hc]

lemma scanInt_signedDecimal (h : NoDigit rest) :
    scanInt (List.leftpad width ' ' (signedDecimal z) ++ rest) = some (z, rest) := by
  by_cases hz : z < 0
  · have hs : signedDecimal z = '-' :: decimal z.natAbs := if_pos hz
    rw [hs, scanInt, skipBlanks_leftpad (by decide)]
    simp only [if_true, scanNat_decimal h, Option.map_some]
    rw [Int.natCast_natAbs, abs_of_neg hz, neg_neg]
  · obtain ⟨d, ds, hd⟩ := List.exists_cons_of_ne_nil (decimal_ne_nil z.natAbs)
    have hs : signedDecimal z = d :: ds := (if_neg hz).trans hd
    have hdigit : d.isDigit = true := isDigit_of_mem_decimal (hd ▸ List.mem_cons_self)
    have hb : d ≠ ' ' := by
      rintro rfl
      cases hdigit
    have hm : d ≠ '-' := by
      rintro rfl
      cases hdigit
    have hscan := scanNat_decimal (n := z.natAbs) h
    rw [hd, List.cons_append] at hscan
    rw [hs, scanInt, skipBlanks_leftpad hb]
    simp only [hm, if_false, hscan, Option.map_some]
    rw [Int.natCast_natAbs, abs_of_nonneg (not_lt.mp hz)]

lemma signedDecimal_append_inj {z' : ℤ} (h : NoDigit rest) (h' : NoDigit rest')
    (he : signedDecimal z ++ rest = signedDecimal z' ++ rest') : z = z' ∧ rest = rest' := by
  have hscan : scanInt (List.leftpad 0 ' ' (signedDecimal z) ++ rest) =
      scanInt (List.leftpad 0 ' ' (signedDecimal z') ++ rest') := by
    simpa [List.leftpad] using congrArg scanInt he
  rw [scanInt_signedDecimal h, scanInt_signedDecimal h'] at hscan
  exact Prod.mk.inj (Option.some.inj hscan)

@[simp] lemma scanText_append (pre cs : List Char) : scanText pre (pre ++ cs) = some cs := by
  simp [scanText]

lemma newline_notMem_signedDecimal : '\n' ∉ signedDecimal z := notMem_signedDecimal rfl (by decide)

@[simp] lemma newline_mem_leftpad : '\n' ∈ List.leftpad width ' ' cs ↔ '\n' ∈ cs := by
  simp [List.leftpad]

@[simp] lemma newline_mem_rightpad : '\n' ∈ List.rightpad width ' ' cs ↔ '\n' ∈ cs := by
  simp [List.rightpad]

@[simp] lemma unlines_cons (x : List Char) : unlines (x :: xs) = x ++ '\n' :: unlines xs := by simp [unlines]

lemma count_unlines : (unlines xs).count '\n' = xs.length + (xs.map (List.count '\n')).sum := by
  induction xs with
  | nil => rfl
  | cons x xs ih =>
    rw [unlines_cons, List.count_append, List.count_cons_self, ih, List.length_cons, List.map_cons, List.sum_cons]
    omega

lemma marker_inj {α : Type} [DecidableEq α] {m : α} {x y r r' : List α} (hx : m ∉ x) (hy : m ∉ y)
    (h : x ++ m :: r = y ++ m :: r') : x = y ∧ r = r' := by
  have hbefore : ∀ {z t : List α}, m ∉ z → (z ++ m :: t).takeWhile (· ≠ m) = z := by
    intro z t hz
    have hne : ∀ w ∈ z, decide (w ≠ m) = true := fun w hw => decide_eq_true (ne_of_mem_of_not_mem hw hz)
    rw [List.takeWhile_append_of_pos hne]
    simp
  have hxy := congrArg (List.takeWhile (· ≠ m)) h
  rw [hbefore hx, hbefore hy] at hxy
  subst hxy
  exact ⟨rfl, (List.cons.inj (List.append_cancel_left h)).2⟩

lemma unlines_inj (hx : ∀ x ∈ xs, '\n' ∉ x) (hy : ∀ y ∈ ys, '\n' ∉ y) (h : unlines xs = unlines ys) : xs = ys := by
  induction xs generalizing ys with
  | nil =>
    cases ys with
    | nil => rfl
    | cons y ys => simp [unlines] at h
  | cons x xs ih =>
    cases ys with
    | nil => simp [unlines] at h
    | cons y ys =>
      rw [unlines_cons, unlines_cons] at h
      obtain ⟨rfl, hrest⟩ := marker_inj (hx x (by simp)) (hy y (by simp)) h
      rw [ih (fun z hz => hx z (by simp [hz])) (fun z hz => hy z (by simp [hz])) hrest]

lemma sum_count_eq_zero : (xs.map (List.count '\n')).sum = 0 ↔ ∀ x ∈ xs, '\n' ∉ x := by
  simp [List.sum_eq_zero_iff, List.count_eq_zero]

lemma unlines_append (xs ys : List (List Char)) : unlines (xs ++ ys) = unlines xs ++ unlines ys := List.flatMap_append

lemma unlines_inj_of_length (hx : ∀ x ∈ xs, '\n' ∉ x) (hl : xs.length = ys.length) (h : unlines xs = unlines ys) :
    xs = ys := by
  have hcount := congrArg (List.count '\n') h
  have hxs := sum_count_eq_zero.mpr hx
  rw [count_unlines, count_unlines] at hcount
  exact unlines_inj hx (sum_count_eq_zero.mp (by omega)) h

lemma takeWhile_word {x : List Char} (hx : ' ' ∉ x) (hc : cs.head?.all (· = ' ')) :
    (x ++ cs).takeWhile (· ≠ ' ') = x := by
  have hne : ∀ c ∈ x, decide (c ≠ ' ') = true := fun c h => decide_eq_true (ne_of_mem_of_not_mem h hx)
  rw [List.takeWhile_append_of_pos hne]
  cases cs with
  | nil => simp
  | cons c cs =>
    have hblank : c = ' ' := by simpa using hc
    simp [hblank]

@[simp] lemma words_cons (x : List Char) : words (x :: xs) = ' ' :: (x ++ words xs) := rfl

lemma words_append (xs ys : List (List Char)) : words (xs ++ ys) = words xs ++ words ys := List.flatMap_append

lemma words_map_toList (names : List String) :
    words (names.map String.toList) = names.flatMap fun name => ' ' :: name.toList := by
  simp [words, List.flatMap_map]

lemma head?_words (xs : List (List Char)) : (words xs).head?.all (· = ' ') := by
  cases xs <;> simp [words]

lemma words_inj (hx : ∀ x ∈ xs, ' ' ∉ x) (hy : ∀ y ∈ ys, ' ' ∉ y) (h : words xs = words ys) : xs = ys := by
  induction xs generalizing ys with
  | nil =>
    cases ys with
    | nil => rfl
    | cons y ys => simp [words] at h
  | cons x xs ih =>
    cases ys with
    | nil => simp [words] at h
    | cons y ys =>
      rw [words_cons, words_cons, List.cons.injEq] at h
      have hw := congrArg (List.takeWhile (· ≠ ' ')) h.2
      rw [takeWhile_word (hx x (by simp)) (head?_words xs), takeWhile_word (hy y (by simp)) (head?_words ys)] at hw
      subst hw
      rw [ih (fun z hz => hx z (by simp [hz])) (fun z hz => hy z (by simp [hz])) (List.append_cancel_left h.2)]

end ApueCode.Posix
