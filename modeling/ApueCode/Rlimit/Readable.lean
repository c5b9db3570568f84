import ApueCode.Rlimit.Model

/-! The limits can be read back from the output of `rlimit`, unless they do not fit into a signed number. -/

namespace ApueCode.Rlimit

open Posix

variable {lim : Rlim} {limit : Limits} {name : String} {getrlimit : String → Except String Limits} {xs : List String}
  {defined : String → Bool} {rest : List Char}

def value (lim : Rlim) : Option ℤ := if lim = RLIM_INFINITY then none else some lim.toNat

def signedValue (lim : Rlim) : Option ℤ := if lim = RLIM_INFINITY then none else some lim.toInt

def scanColumn (cs : List Char) : Option (Option ℤ × List Char) :=
  match scanInt cs with
  | some r => some (some r.1, r.2)
  | none => (scanText "(infinite)".toList cs).map fun rest => (none, rest)

def shown (row : List Char) : Option (Option ℤ × Option ℤ) := do
  let (cur, rest) ← scanColumn (row.drop 19)
  let rest ← scanText " ".toList rest
  let (max, _) ← scanColumn rest
  return (cur, max)

def Fits (lim : Rlim) : Prop := lim = RLIM_INFINITY ∨ lim.toNat < 2 ^ 63

lemma signedValue_eq_iff : signedValue lim = value lim ↔ Fits lim := by
  unfold signedValue value Fits
  by_cases h : lim = RLIM_INFINITY
  · simp [h]
  · simp only [h, if_false, Option.some.injEq, false_or, BitVec.toInt_eq_toNat_cond]
    have hlt := lim.isLt
    split <;> omega

lemma scanColumn_column (h : NoDigit rest) : scanColumn (column lim ++ rest) = some (signedValue lim, rest) := by
  unfold column signedValue
  by_cases hi : lim = RLIM_INFINITY
  · have hnone : scanInt ("(infinite)".toList ++ rest) = none := rfl
    rw [if_pos hi, if_pos hi, scanColumn, hnone, scanText_append]
    rfl
  · rw [if_neg hi, if_neg hi, scanColumn, scanInt_signedDecimal h]

lemma shown_row (hn : name.toList.length ≤ 18) :
    shown (row name limit) = some (signedValue limit.rlim_cur, signedValue limit.rlim_max) := by
  have hlen : (List.rightpad 18 ' ' name.toList ++ " ".toList).length = 19 := by
    simp only [List.rightpad, List.length_append, List.length_replicate]
    have hblank : " ".toList.length = 1 := rfl
    omega
  have hdrop : (row name limit).drop 19 =
      column limit.rlim_cur ++ (" ".toList ++ (column limit.rlim_max ++ [])) := by
    rw [row, ← List.append_assoc, List.drop_append_of_le_length hlen.ge, List.drop_eq_nil_of_le hlen.le,
      List.nil_append, List.append_nil]
  have hblank : NoDigit (" ".toList ++ (column limit.rlim_max ++ [])) := rfl
  rw [shown, hdrop]
  simp only [Option.bind_eq_bind, scanColumn_column hblank, Option.bind_some, scanText_append,
    scanColumn_column noDigit_nil]
  rfl

lemma length_names : ∀ name ∈ names, name.toList.length ≤ 18 := by
  have hall : names.all (fun name => name.toList.length ≤ 18) = true := by decide +kernel
  intro name h
  simpa using List.all_eq_true.mp hall name h

def expected (getrlimit : String → Except String Limits) (name : String) : Option (Option ℤ × Option ℤ) :=
  (getrlimit name).toOption.map fun limit => (value limit.rlim_cur, value limit.rlim_max)

lemma pr_limits_faithful (hx : ∀ name ∈ xs, name.toList.length ≤ 18) (h : (pr_limits getrlimit xs).status = 0) :
    (pr_limits getrlimit xs).stdout.map shown = xs.map (expected getrlimit) ↔
      ∀ name ∈ xs, ∀ limit, getrlimit name = .ok limit → Fits limit.rlim_cur ∧ Fits limit.rlim_max := by
  induction xs with
  | nil => simp [pr_limits]
  | cons name xs ih =>
    cases hg : getrlimit name with
    | error e => simp [pr_limits, hg, EXIT_FAILURE] at h
    | ok limit =>
      simp only [pr_limits, hg] at h ⊢
      have hrest := ih (fun y hy => hx y (by simp [hy])) h
      have hrow : shown (row name limit) = expected getrlimit name ↔
          Fits limit.rlim_cur ∧ Fits limit.rlim_max := by
        rw [shown_row (hx name (by simp)), expected, hg]
        simp only [Except.toOption, Option.map_some, Option.some.injEq, Prod.mk.injEq, signedValue_eq_iff]
      simp only [List.map_cons, List.cons.injEq, hrow, hrest, List.forall_mem_cons, hg, Except.ok.injEq, forall_eq']

/-- Where every resource has limits, the output says what they are if and only if none of them is finite and `2 ^ 63` or
more. -/
theorem main_faithful_iff (h : (main getrlimit defined).status = 0) :
    (main getrlimit defined).stdout.map shown = (names.filter defined).map (expected getrlimit) ↔
      ∀ name ∈ names, defined name = true → ∀ limit, getrlimit name = .ok limit →
        Fits limit.rlim_cur ∧ Fits limit.rlim_max := by
  rw [main, pr_limits_faithful (fun name hn => length_names name (List.mem_of_mem_filter hn)) h]
  simp only [List.mem_filter, and_imp]

def largeCore (name : String) : Except String Limits :=
  .ok (if name = "RLIMIT_CORE" then ⟨BitVec.ofNat 64 (2 ^ 63), RLIM_INFINITY⟩ else ⟨1024, RLIM_INFINITY⟩)

def modest (_ : String) : Except String Limits := .ok ⟨1024, RLIM_INFINITY⟩

theorem main_faithful_iff_modest :
    (main modest fun _ => true).stdout.map shown = (names.filter fun _ => true).map (expected modest) ∧
      (main largeCore fun _ => true).stdout.map shown ≠ (names.filter fun _ => true).map (expected largeCore) := by
  constructor
  · refine (main_faithful_iff (by decide +kernel)).mpr fun name _ _ limit h => ?_
    obtain rfl := Except.ok.inj h
    exact ⟨.inr (by decide), .inl rfl⟩
  · intro he
    have hcore := (main_faithful_iff (by decide +kernel)).mp he "RLIMIT_CORE" (by decide) rfl _ rfl
    exact absurd hcore.1 (by unfold Fits; decide)

end ApueCode.Rlimit
