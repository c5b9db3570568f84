import ApueCode.ShowAccount.Model

/-! What the lines of the output say about the records of the file. -/

namespace ApueCode.ShowAccount

open Posix

variable {l : Layout} {file : List Byte} {c : Comp_t}

def mantissa (c : Comp_t) : ℕ := c.toNat % 2 ^ 13

def exponent (c : Comp_t) : ℕ := c.toNat / 2 ^ 13

def value (c : Comp_t) : ℕ := mantissa c * 8 ^ exponent c

def Fits (c : Comp_t) : Prop := exponent c < 7 ∨ mantissa c < 1024

instance (c : Comp_t) : Decidable (Fits c) := by
  unfold Fits
  infer_instance

def records (l : Layout) (file : List Byte) : List (Acct l.commLen) :=
  (List.range (file.length / l.sizeof)).filterMap fun k => (fread l (file.drop (k * l.sizeof))).map Prod.fst

def shown (commLen : ℕ) (line : List Char) : Option (ℤ × ℤ) := do
  let (e, rest) ← scanInt (← scanText " e = ".toList (line.drop commLen))
  let (chars, _) ← scanInt (← scanText ", chars = ".toList rest)
  return (e, chars)

def Faithful (l : Layout) (file : List Byte) (stdout : List Char) : Prop :=
  ∃ lines : List (List Char), stdout = unlines lines ∧ (∀ x ∈ lines, '\n' ∉ x) ∧
    List.Forall₂ (fun x r => shown l.commLen x = some (↑(value r.ac_etime), ↑(value r.ac_io))) lines (records l file)

lemma exponent_lt (c : Comp_t) : exponent c < 8 := by
  have hc := c.isLt
  unfold exponent
  omega

lemma mantissa_lt (c : Comp_t) : mantissa c < 8192 := Nat.mod_lt _ (by decide)

lemma scale_toNat (exp : ℕ) (val : BitVec 64) (h : val.toNat * 8 ^ exp < 2 ^ 64) :
    (scale exp val).toNat = val.toNat * 8 ^ exp := by
  induction exp generalizing val with
  | zero => simp [scale]
  | succ exp ih =>
    have hmul : (val * 8).toNat = val.toNat * 8 := by
      have hp : 0 < 8 ^ exp := by positivity
      have hle : val.toNat * 8 * 1 ≤ val.toNat * 8 * 8 ^ exp := Nat.mul_le_mul_left _ hp
      rw [pow_succ] at h
      rw [BitVec.toNat_mul]
      simp only [BitVec.ofNat_eq_ofNat, BitVec.toNat_ofNat]
      rw [Nat.mod_eq_of_lt]
      nlinarith
    rw [scale, ih, hmul, pow_succ]
    · ring
    · rw [hmul]
      calc val.toNat * 8 * 8 ^ exp = val.toNat * 8 ^ (exp + 1) := by ring
        _ < 2 ^ 64 := h

lemma value_lt (c : Comp_t) : value c < 2 ^ 34 := by
  have he := exponent_lt c
  have hm := mantissa_lt c
  unfold value
  calc mantissa c * 8 ^ exponent c ≤ mantissa c * 8 ^ 7 :=
        Nat.mul_le_mul_left _ (Nat.pow_le_pow_right (by decide) (by omega))
    _ < 2 ^ 34 := by omega

lemma toNat_mantissa (c : Comp_t) : ((c &&& 0x1fff).setWidth 64).toNat = mantissa c := by
  have hand : (c &&& 0x1fff).toNat = mantissa c := by
    rw [BitVec.toNat_and]
    exact Nat.and_two_pow_sub_one_eq_mod c.toNat 13
  have hm := mantissa_lt c
  rw [BitVec.toNat_setWidth, hand]
  exact Nat.mod_eq_of_lt (by omega)

lemma toNat_exponent (c : Comp_t) : ((c >>> 13) &&& 7).toNat = exponent c := by
  have hand : ((c >>> 13) &&& 7).toNat = (c >>> 13).toNat % 2 ^ 3 := by
    rw [BitVec.toNat_and]
    exact Nat.and_two_pow_sub_one_eq_mod (c >>> 13).toNat 3
  rw [hand, BitVec.toNat_ushiftRight, Nat.shiftRight_eq_div_pow]
  exact Nat.mod_eq_of_lt (exponent_lt c)

lemma compt2ulong_toNat (c : Comp_t) : (compt2ulong c).toNat = value c := by
  have hlt := value_lt c
  simp only [compt2ulong, toNat_exponent]
  rw [scale_toNat, toNat_mantissa]
  · rfl
  · rw [toNat_mantissa]
    exact lt_trans hlt (by decide)

lemma fits_iff : Fits c ↔ value c < 2 ^ 31 := by
  have he := exponent_lt c
  have hm := mantissa_lt c
  unfold Fits value
  interval_cases exponent c <;> omega

lemma low32_eq_iff : low32 (compt2ulong c) = value c ↔ Fits c := by
  have hlt := value_lt c
  rw [fits_iff, low32, BitVec.toInt_eq_toNat_cond, BitVec.toNat_setWidth, compt2ulong_toNat]
  split <;> omega

lemma fread_eq_none : fread l file = none ↔ file.length < l.sizeof := by
  simp [fread]

lemma records_nil (h : fread l file = none) : records l file = [] := by
  have hz : file.length / l.sizeof = 0 := Nat.div_eq_of_lt (fread_eq_none.mp h)
  simp [records, hz]

lemma records_cons {r : Acct l.commLen} {rest : List Byte} (h : fread l file = some (r, rest)) :
    records l file = r :: records l rest := by
  have hlen := length_of_fread h
  have hdiv : file.length / l.sizeof = rest.length / l.sizeof + 1 := by
    rw [← hlen, Nat.add_div_right _ l.sizeof_pos]
  have hrest : rest = file.drop l.sizeof := by
    unfold fread at h
    split at h
    · exact (Prod.mk.inj (Option.some.inj h)).2.symm
    · cases h
  have hnext : ∀ k, file.drop ((k + 1) * l.sizeof) = rest.drop (k * l.sizeof) := fun k => by
    rw [hrest, List.drop_drop, Nat.succ_mul, Nat.add_comm]
  unfold records
  rw [hdiv, List.range_succ_eq_map, List.filterMap_cons, List.filterMap_map]
  simp only [Nat.zero_mul, List.drop_zero, h, Option.map_some]
  congr 1
  exact List.filterMap_congr fun k _ => by simp only [Function.comp, Nat.succ_eq_add_one, hnext]

lemma records_length : (records l file).length = file.length / l.sizeof := by
  induction file using dump.induct l with
  | case1 file r rest h ih =>
    rw [records_cons h, List.length_cons, ih, ← length_of_fread h, Nat.add_div_right _ l.sizeof_pos]
  | case2 file h => rw [records_nil h, Nat.div_eq_of_lt (fread_eq_none.mp h), List.length_nil]

lemma dump_eq : dump l file = unlines ((records l file).map (line l)) := by
  induction file using dump.induct l with
  | case1 file r rest h ih =>
    rw [dump, records_cons h, List.map_cons, unlines_cons, ← ih]
    split
    · rename_i r' rest' h'
      obtain ⟨rfl, rfl⟩ := Prod.mk.inj (Option.some.inj (h.symm.trans h'))
      rfl
    · rename_i h'
      rw [h] at h'
      cases h'
  | case2 file h =>
    rw [dump, records_nil h]
    split
    · rename_i h'
      rw [h] at h'
      cases h'
    · rfl

lemma comm_length (r : Acct l.commLen) : (comm r).length ≤ l.commLen := by
  rw [comm, List.length_map]
  exact (List.takeWhile_sublist _).length_le.trans r.ac_comm.size.le

lemma drop_line (r : Acct l.commLen) (rest : List Char) :
    (List.rightpad l.commLen ' ' (comm r) ++ rest).drop l.commLen = rest := by
  have hl : (List.rightpad l.commLen ' ' (comm r)).length = l.commLen := by
    rw [List.rightpad, List.length_append, List.length_replicate]
    have := comm_length r
    omega
  rw [List.drop_append_of_le_length hl.ge, List.drop_eq_nil_of_le hl.le, List.nil_append]

lemma shown_line (r : Acct l.commLen) :
    shown l.commLen (line l r) = some (low32 (compt2ulong r.ac_etime), low32 (compt2ulong r.ac_io)) := by
  have hchars : NoDigit ", chars = ".toList := rfl
  have hflags : NoDigit ", ".toList := rfl
  rw [shown, line, drop_line, scanText_append]
  simp only [Option.bind_eq_bind, Option.bind_some]
  rw [scanInt_signedDecimal (hchars.append (by decide) _), Option.bind_some, scanText_append, Option.bind_some,
    scanInt_signedDecimal (hflags.append (by decide) _), Option.bind_some]
  rfl

lemma flag_ne_newline {ac_flag mask : BitVec 8} {c : Char} (hc : c ≠ '\n') : '\n' ≠ flag ac_flag mask c := by
  unfold flag
  split
  · exact hc.symm
  · decide

lemma newline_mem_line (r : Acct l.commLen) : '\n' ∈ line l r ↔ '\n' ∈ comm r := by
  have hd : '\n' ≠ flag r.ac_flag l.ACORE 'D' := flag_ne_newline (by decide)
  have hx : '\n' ≠ flag r.ac_flag l.AXSIG 'X' := flag_ne_newline (by decide)
  have hf : '\n' ≠ flag r.ac_flag l.AFORK 'F' := flag_ne_newline (by decide)
  have hs : '\n' ≠ flag r.ac_flag l.ASU 'S' := flag_ne_newline (by decide)
  simp [line, newline_notMem_signedDecimal, hd, hx, hf, hs]

lemma shows_iff (r : Acct l.commLen) : shown l.commLen (line l r) = some (↑(value r.ac_etime), ↑(value r.ac_io)) ↔
    Fits r.ac_etime ∧ Fits r.ac_io := by
  rw [shown_line, Option.some.injEq, Prod.mk.injEq, low32_eq_iff, low32_eq_iff]

lemma fits_of_faithful (h : Faithful l file (dump l file)) (r : Acct l.commLen) (hr : r ∈ records l file) :
    Fits r.ac_etime ∧ Fits r.ac_io ∧ '\n' ∉ comm r := by
  obtain ⟨lines, hl, hn, hall⟩ := h
  have hlen : lines.length = ((records l file).map (line l)).length := by rw [List.length_map, hall.length_eq]
  have hlines := unlines_inj_of_length hn hlen (hl.symm.trans dump_eq)
  have hmem : line l r ∈ lines := hlines ▸ List.mem_map_of_mem hr
  rw [hlines, List.forall₂_map_left_iff, List.forall₂_same] at hall
  obtain ⟨he, hc⟩ := (shows_iff r).mp (hall r hr)
  exact ⟨he, hc, fun hm => hn _ hmem ((newline_mem_line r).mpr hm)⟩

/-- The output has a line for each complete record and for nothing else, with the values of its two fields,
if and only if both values of every record fit and no name has a newline in it. -/
theorem dump_faithful_iff (l : Layout) (file : List Byte) :
    (records l file).length = file.length / l.sizeof ∧
    (Faithful l file (main l file false).stdout ↔
      ∀ r ∈ records l file, Fits r.ac_etime ∧ Fits r.ac_io ∧ '\n' ∉ comm r) := by
  refine ⟨records_length, fits_of_faithful, fun h => ⟨_, dump_eq, fun x hx => ?_, ?_⟩⟩
  · obtain ⟨r, hr, rfl⟩ := List.mem_map.mp hx
    exact fun hm => (h r hr).2.2 ((newline_mem_line r).mp hm)
  · rw [List.forall₂_map_left_iff, List.forall₂_same]
    exact fun r hr => (shows_iff r).mpr ⟨(h r hr).1, (h r hr).2.1⟩

def comp_t (lo hi : Byte) : Comp_t := BitVec.ofNat 16 (lo.toNat + 256 * hi.toNat)

def acct64 : Layout where
  sizeof := 64
  sizeof_pos := by decide
  commLen := 17
  acdata b :=
    { ac_flag := BitVec.ofNat 8 (b.bytes.getD 0 0).toNat
      ac_etime := comp_t (b.bytes.getD 16 0) (b.bytes.getD 17 0)
      ac_io := comp_t (b.bytes.getD 20 0) (b.bytes.getD 21 0)
      ac_comm := ⟨(b.bytes.drop 36).take 17, by simp [b.size]⟩ }
  ACORE := 0
  AXSIG := 0
  AFORK := 1
  ASU := 2

theorem dump_unfaithful : ¬ ∀ file, Faithful acct64 file (main acct64 file false).stdout := by
  intro h
  have hr : ∃ r ∈ records acct64 (List.replicate 16 0 ++ [0, 0xe4] ++ List.replicate 46 0), ¬ Fits r.ac_etime := by
    decide
  obtain ⟨r, hr, hn⟩ := hr
  exact hn (fits_of_faithful (h _) r hr).1

end ApueCode.ShowAccount
