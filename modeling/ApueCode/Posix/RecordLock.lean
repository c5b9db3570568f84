import Mathlib.Tactic

/-! Advisory record locks: for each process, the byte ranges of a file it has locked. In a request the type `none`
is `F_UNLCK`, and a range without an end goes on however far the file grows. -/

namespace ApueCode.Posix

inductive LockType
  | read | write
  deriving DecidableEq

structure ByteRange where
  start : ℕ
  stop : Option ℕ
  deriving DecidableEq

namespace ByteRange

def below (b : ℕ) : Option ℕ → Bool
  | none => true
  | some e => b < e

def contains (r : ByteRange) (b : ℕ) : Bool := r.start ≤ b && below b r.stop

def overlaps (r r' : ByteRange) : Bool :=
  below (max r.start r'.start) r.stop && below (max r.start r'.start) r'.stop

def cut (r r' : ByteRange) : List ByteRange :=
  ⟨r'.start, some (match r'.stop with | none => r.start | some e => min e r.start)⟩ ::
    match r.stop with
    | none => []
    | some e => [⟨max r'.start e, r'.stop⟩]

lemma below_of_le {b c : ℕ} (h : b ≤ c) {e : Option ℕ} (hc : below c e = true) : below b e = true := by
  cases e with
  | none => rfl
  | some e =>
    simp only [below, decide_eq_true_eq] at hc ⊢
    omega

lemma overlaps_iff {r r' : ByteRange} :
    r.overlaps r' = true ↔ ∃ b, r.contains b = true ∧ r'.contains b = true := by
  simp only [overlaps, contains, Bool.and_eq_true, decide_eq_true_eq]
  constructor
  · rintro ⟨h, h'⟩
    exact ⟨max r.start r'.start, ⟨le_max_left _ _, h⟩, le_max_right _ _, h'⟩
  · rintro ⟨b, ⟨hb, h⟩, hb', h'⟩
    have hle : max r.start r'.start ≤ b := max_le hb hb'
    exact ⟨below_of_le hle h, below_of_le hle h'⟩

lemma contains_cut {r r' : ByteRange} {b : ℕ} :
    (∃ x ∈ r.cut r', x.contains b = true) ↔ r'.contains b = true ∧ r.contains b = false := by
  obtain ⟨a, e⟩ := r
  obtain ⟨a', e'⟩ := r'
  cases e <;> cases e' <;> simp [cut, contains, below] <;> omega

end ByteRange

structure Lock (ι : Type) where
  owner : ι
  type : LockType
  range : ByteRange
  deriving DecidableEq

abbrev LockTable (ι : Type) := List (Lock ι)

namespace LockTable

variable {ι : Type}

def Holds (t : LockTable ι) (p : ι) (ty : LockType) (b : ℕ) : Prop :=
  ∃ l ∈ t, l.owner = p ∧ l.type = ty ∧ l.range.contains b = true

def Compatible (t : LockTable ι) : Prop :=
  ∀ p q b ty, t.Holds p .write b → t.Holds q ty b → p = q

lemma compatible_nil : Compatible ([] : LockTable ι) := by
  rintro p q b ty ⟨l, hl, -⟩
  cases hl

lemma Compatible.mono {t t' : LockTable ι} (h : t.Compatible)
    (hs : ∀ q ty b, t'.Holds q ty b → t.Holds q ty b) : t'.Compatible :=
  fun p q b ty hp hq => h p q b ty (hs p _ b hp) (hs q ty b hq)

variable [DecidableEq ι]

instance (t : LockTable ι) (p : ι) (ty : LockType) (b : ℕ) : Decidable (t.Holds p ty b) :=
  inferInstanceAs (Decidable (∃ l ∈ t, _))

def conflicts (t : LockTable ι) (p : ι) (ty : LockType) (r : ByteRange) : Bool :=
  t.any fun l => l.owner ≠ p && (l.type = .write || ty = .write) && r.overlaps l.range

def release (t : LockTable ι) (p : ι) (r : ByteRange) : LockTable ι :=
  t.flatMap fun l => if l.owner = p then (r.cut l.range).map fun x => { l with range := x } else [l]

def acquire (t : LockTable ι) (p : ι) (ty : LockType) (r : ByteRange) : LockTable ι :=
  ⟨p, ty, r⟩ :: t.release p r

def dropAll (t : LockTable ι) (p : ι) : LockTable ι := t.filter fun l => l.owner ≠ p

variable {t : LockTable ι} {p q : ι} {ty ty' : LockType} {r : ByteRange} {b : ℕ}

lemma holds_release : (t.release p r).Holds q ty b ↔ t.Holds q ty b ∧ (q = p → r.contains b = false) := by
  constructor
  · rintro ⟨l, hl, rfl, rfl, hb⟩
    obtain ⟨l', hl', hm⟩ := List.mem_flatMap.mp hl
    split at hm
    · obtain ⟨x, hx, rfl⟩ := List.mem_map.mp hm
      obtain ⟨hc, hn⟩ := ByteRange.contains_cut.mp ⟨x, hx, hb⟩
      exact ⟨⟨l', hl', rfl, rfl, hc⟩, fun _ => hn⟩
    · rename_i hp
      obtain rfl := List.mem_singleton.mp hm
      exact ⟨⟨l, hl', rfl, rfl, hb⟩, fun h => (hp h).elim⟩
  · rintro ⟨⟨l, hl, rfl, rfl, hb⟩, hn⟩
    by_cases hp : l.owner = p
    · obtain ⟨x, hx, hxb⟩ := ByteRange.contains_cut.mpr ⟨hb, hn hp⟩
      exact ⟨{ l with range := x }, List.mem_flatMap.mpr ⟨l, hl, by
        rw [if_pos hp]
        exact List.mem_map.mpr ⟨x, hx, rfl⟩⟩, rfl, rfl, hxb⟩
    · exact ⟨l, List.mem_flatMap.mpr ⟨l, hl, by simp [hp]⟩, rfl, rfl, hb⟩

lemma holds_acquire : (t.acquire p ty r).Holds q ty' b ↔
    q = p ∧ ty' = ty ∧ r.contains b = true ∨ t.Holds q ty' b ∧ (q = p → r.contains b = false) := by
  rw [← holds_release]
  constructor
  · rintro ⟨l, hl, rfl, rfl, hb⟩
    rcases List.mem_cons.mp hl with rfl | hl
    · exact .inl ⟨rfl, rfl, hb⟩
    · exact .inr ⟨l, hl, rfl, rfl, hb⟩
  · rintro (⟨rfl, rfl, hb⟩ | ⟨l, hl, ho, ht, hb⟩)
    · exact ⟨_, List.mem_cons_self, rfl, rfl, hb⟩
    · exact ⟨l, List.mem_cons_of_mem _ hl, ho, ht, hb⟩

lemma holds_dropAll : (t.dropAll p).Holds q ty b ↔ t.Holds q ty b ∧ q ≠ p := by
  constructor
  · rintro ⟨l, hl, rfl, rfl, hb⟩
    obtain ⟨hm, hp⟩ := List.mem_filter.mp hl
    exact ⟨⟨l, hm, rfl, rfl, hb⟩, by simpa using hp⟩
  · rintro ⟨⟨l, hl, rfl, rfl, hb⟩, hp⟩
    exact ⟨l, List.mem_filter.mpr ⟨hl, by simpa using hp⟩, rfl, rfl, hb⟩

lemma conflicts_iff : t.conflicts p ty r = true ↔
    ∃ q ty' b, q ≠ p ∧ t.Holds q ty' b ∧ r.contains b = true ∧ (ty' = .write ∨ ty = .write) := by
  simp only [conflicts, List.any_eq_true, Bool.and_eq_true, Bool.or_eq_true, decide_eq_true_eq,
    ByteRange.overlaps_iff]
  constructor
  · rintro ⟨l, hl, ⟨hp, hw⟩, b, hb, hb'⟩
    exact ⟨l.owner, l.type, b, by simpa using hp, ⟨l, hl, rfl, rfl, hb'⟩, hb, hw⟩
  · rintro ⟨q, ty', b, hp, ⟨l, hl, rfl, rfl, hb'⟩, hb, hw⟩
    exact ⟨l, hl, ⟨by simpa using hp, hw⟩, b, hb, hb'⟩

lemma Compatible.release (h : t.Compatible) : (t.release p r).Compatible :=
  h.mono fun _ _ _ hl => (holds_release.mp hl).1

lemma Compatible.dropAll (h : t.Compatible) : (t.dropAll p).Compatible :=
  h.mono fun _ _ _ hl => (holds_dropAll.mp hl).1

lemma Compatible.acquire (h : t.Compatible) (hc : t.conflicts p ty r = false) :
    (t.acquire p ty r).Compatible := by
  have hno : ∀ q ty' b, q ≠ p → t.Holds q ty' b → r.contains b = true → ty' = .write ∨ ty = .write →
      False := by
    intro q ty' b hq hl hb hw
    rw [conflicts_iff.mpr ⟨q, ty', b, hq, hl, hb, hw⟩] at hc
    cases hc
  intro q q' b ty' hw hl
  rcases holds_acquire.mp hw with ⟨rfl, rfl, hb⟩ | ⟨hw', -⟩
  · rcases holds_acquire.mp hl with ⟨rfl, -, -⟩ | ⟨hl', -⟩
    · rfl
    · by_contra hne
      exact hno q' ty' b (Ne.symm hne) hl' hb (.inr rfl)
  · rcases holds_acquire.mp hl with ⟨rfl, -, hb⟩ | ⟨hl', -⟩
    · by_contra hne
      exact hno q .write b hne hw' hb (.inl rfl)
    · exact h q q' b ty' hw' hl'

end LockTable

inductive Whence
  | SEEK_SET | SEEK_CUR | SEEK_END
  deriving DecidableEq

structure Flock where
  l_type : Option LockType
  l_whence : Whence
  l_start : ℤ
  l_len : ℤ
  deriving DecidableEq

def F_RDLCK : Option LockType := some .read
def F_WRLCK : Option LockType := some .write
def F_UNLCK : Option LockType := none

def OFF_MAX : ℤ := 2 ^ 63 - 1

namespace Flock

def range (f : Flock) (offset size : ℕ) : Option ByteRange :=
  let base : ℤ := match f.l_whence with
    | .SEEK_SET => 0
    | .SEEK_CUR => offset
    | .SEEK_END => size
  let first := base + f.l_start + min f.l_len 0
  let stop := base + f.l_start + max f.l_len 0
  if first < 0 ∨ OFF_MAX < stop - 1 then none
  else some ⟨first.toNat, if f.l_len = 0 then none else some stop.toNat⟩

def setlk {ι : Type} [DecidableEq ι] (f : Flock) (t : LockTable ι) (p : ι) (offset size : ℕ) :
    Option (LockTable ι) :=
  match f.range offset size, f.l_type with
  | none, _ => none
  | some r, none => some (t.release p r)
  | some r, some ty => if t.conflicts p ty r then none else some (t.acquire p ty r)

end Flock

end ApueCode.Posix
