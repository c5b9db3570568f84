import ApueCode.NiceInfluence.Model

/-! At which reading of the clock the loop stops, and what count it prints there. -/

namespace ApueCode.NiceInfluence

open Transition Machine

variable {deadline tv : Timeval} {str : String} {clock : ℕ → Timeval} {s : State} {f k : ℕ}

def iterations (clock : ℕ → Timeval) : ℕ → List Action := rounds fun i => [.count, .gettimeofday (clock i)]

def StopsAt (deadline : Timeval) (str : String) (clock : ℕ → Timeval) (f : ℕ) : Prop :=
  ∃ s, (machine deadline str).exec start (iterations clock (f + 1)) = some s ∧ s.pc = .exited 0 ∧
    s.stdout = [countLine str (f + 1)]

def FirstLate (deadline : Timeval) (clock : ℕ → Timeval) (f : ℕ) : Prop :=
  deadline.time ≤ (clock f).time ∧ ∀ i < f, (clock i).time < deadline.time

lemma iterations_succ (clock : ℕ → Timeval) (k : ℕ) :
    iterations clock (k + 1) = iterations clock k ++ [.count, .gettimeofday (clock k)] := rounds_succ ..

lemma late_iff : deadline.time ≤ tv.time ↔
    deadline.tv_sec < tv.tv_sec ∨ deadline.tv_sec = tv.tv_sec ∧ deadline.tv_usec ≤ tv.tv_usec :=
  Prod.Lex.toLex_le_toLex

lemma reached_iff : deadline.reached tv = true ↔ deadline.time ≤ tv.time ∧ deadline.tv_usec ≤ tv.tv_usec := by
  simp only [Timeval.reached, late_iff, Bool.and_eq_true, decide_eq_true_eq]
  omega

lemma exec_iteration (hp : s.pc = .count) (hc : s.count + 1 ≠ 0) :
    (machine deadline str).exec s [.count, .gettimeofday tv] =
      some (checktime deadline str { s with count := s.count + 1, pc := .checktime } tv) := by
  have hcount : step deadline str s .count = some { s with count := s.count + 1, pc := .checktime } := by
    simp only [step, hp, countUp]
    rw [if_neg hc]
  simp only [machine, exec_cons, exec_nil, hcount, Option.bind_some]
  rfl

lemma count_ne_zero (hk : k + 1 < 2 ^ 64) : BitVec.ofNat 64 k + 1 ≠ 0 := by
  rw [← BitVec.toNat_inj.ne]
  simp only [BitVec.ofNat_eq_ofNat, BitVec.toNat_add, BitVec.toNat_ofNat]
  omega

lemma exec_early (hk : k < 2 ^ 64) (he : ∀ i < k, deadline.reached (clock i) = false) :
    (machine deadline str).exec start (iterations clock k) = some { start with count := BitVec.ofNat 64 k } := by
  induction k with
  | zero => rfl
  | succ k ih =>
    have hlast := he k (Nat.lt_succ_self k)
    rw [iterations_succ, exec_append, ih (Nat.lt_of_succ_lt hk) fun i hi => he i (Nat.lt_succ_of_lt hi),
      Option.bind_some, exec_iteration rfl (count_ne_zero hk)]
    simp [checktime, hlast, start, BitVec.ofNat_add]

lemma stopsAt_of_first (hf : f + 1 < 2 ^ 64) (he : ∀ i < f, deadline.reached (clock i) = false)
    (hl : deadline.reached (clock f) = true) : StopsAt deadline str clock f := by
  have hrun : (machine deadline str).exec start (iterations clock f) =
      some { start with count := BitVec.ofNat 64 f } := exec_early (Nat.lt_of_succ_lt hf) he
  have hcount : (BitVec.ofNat 64 f + 1).toNat = f + 1 := by
    simp only [BitVec.ofNat_eq_ofNat, BitVec.toNat_add, BitVec.toNat_ofNat]
    omega
  have hexec : (machine deadline str).exec start (iterations clock (f + 1)) =
      some (checktime deadline str { start with count := BitVec.ofNat 64 f + 1, pc := .checktime } (clock f)) := by
    rw [iterations_succ, exec_append, hrun, Option.bind_some, exec_iteration rfl (count_ne_zero hf)]
  refine ⟨_, hexec, by simp [checktime, hl], ?_⟩
  simp only [checktime, hl, if_true, hcount]
  rfl

lemma early_of_exec {a : Action} {as : List Action} (hk : k < 2 ^ 64)
    (he : (machine deadline str).exec start (iterations clock k ++ a :: as) = some s) :
    ∀ i < k, deadline.reached (clock i) = false := by
  induction k generalizing a as with
  | zero => simp
  | succ k ih =>
    rw [iterations_succ, List.append_assoc] at he
    have hearly := ih (Nat.lt_of_succ_lt hk) he
    intro i hi
    rcases Nat.lt_succ_iff_lt_or_eq.mp hi with hi | rfl
    · exact hearly i hi
    · by_contra hn
      rw [exec_append, exec_early (Nat.lt_of_succ_lt hk) hearly, Option.bind_some, exec_append,
        exec_iteration rfl (count_ne_zero hk), Option.bind_some, exec_cons] at he
      simp [machine, step, checktime, hn] at he

lemma stopsAt_iff (hf : f + 1 < 2 ^ 64) : StopsAt deadline str clock f ↔
    deadline.reached (clock f) = true ∧ ∀ i < f, deadline.reached (clock i) = false := by
  constructor
  · rintro ⟨s, he, hp, -⟩
    rw [iterations_succ] at he
    have hearly := early_of_exec (Nat.lt_of_succ_lt hf) he
    refine ⟨?_, hearly⟩
    rw [exec_append, exec_early (Nat.lt_of_succ_lt hf) hearly, Option.bind_some,
      exec_iteration rfl (count_ne_zero hf)] at he
    obtain rfl := Option.some.inj he
    by_contra hn
    simp [checktime, hn] at hp
  · rintro ⟨hl, he⟩
    exact stopsAt_of_first hf he hl

/-- The loop stops at the first late reading, whichever that is, if and only if the microseconds of that
reading are not below those of the deadline. -/
theorem stops_first_late_iff (deadline : Timeval) (str : String) (clock : ℕ → Timeval) :
    (∀ f, f + 1 < 2 ^ 64 → (StopsAt deadline str clock f ↔ FirstLate deadline clock f)) ↔
      ∀ f, f + 1 < 2 ^ 64 → FirstLate deadline clock f → deadline.tv_usec ≤ (clock f).tv_usec := by
  constructor
  · intro h f hf hl
    exact (reached_iff.mp ((stopsAt_iff hf).mp ((h f hf).mpr hl)).1).2
  · intro h f hf
    rw [stopsAt_iff hf]
    constructor
    · rintro ⟨hr, he⟩
      refine ⟨(reached_iff.mp hr).1, ?_⟩
      by_contra hn
      have hex : ∃ i, deadline.time ≤ (clock i).time := ⟨f, (reached_iff.mp hr).1⟩
      obtain ⟨j, hj, hjl⟩ : ∃ j < f, deadline.time ≤ (clock j).time := by simpa using hn
      have hmin := Nat.find_min' hex hjl
      have hlt : Nat.find hex < f := lt_of_le_of_lt hmin hj
      have hfirst : FirstLate deadline clock (Nat.find hex) :=
        ⟨Nat.find_spec hex, fun i hi => not_le.mp (Nat.find_min hex hi)⟩
      have hreached := reached_iff.mpr ⟨hfirst.1, h _ (by omega) hfirst⟩
      rw [he _ hlt] at hreached
      cases hreached
    · rintro ⟨hl, he⟩
      refine ⟨reached_iff.mpr ⟨hl, h f hf ⟨hl, he⟩⟩, fun i hi => ?_⟩
      by_contra hn
      rw [Bool.not_eq_false] at hn
      exact absurd (he i hi) (not_lt.mpr (reached_iff.mp hn).1)

theorem late_reading_missed : ¬ ∀ (deadline : Timeval) (clock : ℕ → Timeval), deadline.Valid →
    (∀ i, (clock i).Valid) → Monotone (fun i => (clock i).time) →
    ∀ f, f + 1 < 2 ^ 64 → (StopsAt deadline "parent" clock f ↔ FirstLate deadline clock f) := by
  intro h
  have hmono : Monotone fun i : ℕ => (Timeval.mk i 0).time := by
    intro i j hij
    rw [late_iff]
    rcases hij.lt_or_eq with hlt | rfl
    · exact .inl (by simpa using hlt)
    · exact .inr ⟨rfl, le_rfl⟩
  have hv : ∀ i : ℕ, (Timeval.mk i 0).Valid := fun i => ⟨le_rfl, by norm_num⟩
  have hfirst : FirstLate ⟨0, 500000⟩ (fun i => ⟨i, 0⟩) 1 := by
    refine ⟨late_iff.mpr (.inl (by decide)), fun i hi => ?_⟩
    obtain rfl : i = 0 := by omega
    exact not_le.mp fun hle => by simp [late_iff] at hle
  have hstops := (h ⟨0, 500000⟩ _ ⟨by decide, by decide⟩ hv hmono 1 (by decide)).mpr hfirst
  exact absurd ((stopsAt_iff (by decide)).mp hstops).1 (by decide)

end ApueCode.NiceInfluence
