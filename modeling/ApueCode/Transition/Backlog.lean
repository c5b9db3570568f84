import Mathlib.Data.List.Infix

/-! A counter that goes up and down but not below zero, and when it ends at zero. -/

namespace ApueCode.Transition

universe u

variable {α : Type u} (up down : α → Bool)

def count (a : α) (n : ℕ) : ℕ := if up a then n + 1 else if down a then n - 1 else n

def backlog (as : List α) (n : ℕ) : ℕ := as.foldl (fun n a => count up down a n) n

/-- From every point on there are at least as many steps down as up. -/
def CaughtUp (as : List α) : Prop := ∀ bs ∈ as.tails, bs.countP up ≤ bs.countP down

instance (as : List α) : Decidable (CaughtUp up down as) :=
  inferInstanceAs (Decidable (∀ bs ∈ as.tails, bs.countP up ≤ bs.countP down))

variable {up down} {as : List α} {n k : ℕ}

lemma backlog_cons (a : α) (as : List α) (n : ℕ) :
    backlog up down (a :: as) n = backlog up down as (count up down a n) := rfl

lemma backlog_le (hd : ∀ a, up a = true → down a = false) : backlog up down as 0 ≤ k ↔
    ∀ bs, bs <:+ as → bs.countP up ≤ bs.countP down + k := by
  induction as using List.reverseRecOn generalizing k with
  | nil => simp [backlog]
  | append_singleton as a ih =>
    have hlast : backlog up down (as ++ [a]) 0 = count up down a (backlog up down as 0) := by
      simp [backlog]
    have hsuffix : (∀ bs, bs <:+ as ++ [a] → bs.countP up ≤ bs.countP down + k) ↔
        ∀ bs, bs <:+ as → (bs ++ [a]).countP up ≤ (bs ++ [a]).countP down + k := by
      constructor
      · exact fun h bs hb => h _ (List.suffix_concat_iff.mpr (.inr ⟨bs, rfl, hb⟩))
      · intro h bs hb
        rcases List.suffix_concat_iff.mp hb with rfl | ⟨cs, rfl, hc⟩
        · simp
        · exact h cs hc
    rw [hlast, hsuffix, count]
    by_cases hu : up a = true
    · have hdown := hd a hu
      simp only [hu, if_true, List.countP_append, List.countP_singleton, hdown]
      cases k with
      | zero =>
        refine iff_of_false (by omega) fun h => ?_
        have hnil := h [] List.nil_suffix
        simp at hnil
      | succ k =>
        rw [Nat.add_le_add_iff_right, ih]
        exact forall₂_congr fun bs _ => by simp only [Bool.false_eq_true, if_false]; omega
    · by_cases hdown : down a = true
      · have hle : backlog up down as 0 - 1 ≤ k ↔ backlog up down as 0 ≤ k + 1 := by omega
        simp only [hu, hdown, if_true, List.countP_append, List.countP_singleton]
        rw [if_neg (by simp), hle, ih]
        exact forall₂_congr fun bs _ => by simp only [Bool.false_eq_true, if_false]; omega
      · simp only [hu, hdown, List.countP_append, List.countP_singleton, Bool.false_eq_true, if_false, Nat.add_zero]
        exact ih

lemma backlog_eq_zero (hd : ∀ a, up a = true → down a = false) :
    backlog up down as 0 = 0 ↔ CaughtUp up down as := by
  have hle : backlog up down as 0 ≤ 0 ↔ _ := backlog_le hd
  rw [Nat.le_zero] at hle
  simpa [CaughtUp] using hle

end ApueCode.Transition
