import Mathlib.Data.Fintype.Basic
import Mathlib.Data.Finset.Card
import Mathlib.Tactic

/-! Counting the permits of a semaphore among its value and the processes that hold one. -/

namespace ApueCode.Posix

variable {ι : Type}

def Permits (n value : ℕ) (holders : Finset ι) : Prop := value + holders.card = n

namespace Permits

variable {n value : ℕ} {holders : Finset ι} {p q : ι}

lemma wait [DecidableEq ι] (h : Permits n value holders) (hv : 0 < value) (hp : p ∉ holders) :
    Permits n (value - 1) (insert p holders) := by
  rw [Permits, Finset.card_insert_of_notMem hp]
  rw [Permits] at h
  omega

lemma post [DecidableEq ι] (h : Permits n value holders) (hp : p ∈ holders) :
    Permits n (value + 1) (holders.erase p) := by
  have hpos := Finset.card_pos.mpr ⟨p, hp⟩
  rw [Permits, Finset.card_erase_of_mem hp]
  rw [Permits] at h
  omega

lemma unique (h : Permits 1 value holders) (hp : p ∈ holders) (hq : q ∈ holders) : p = q := by
  have hle : holders.card ≤ 1 := by
    rw [Permits] at h
    omega
  exact Finset.card_le_one.mp hle p hp q hq

lemma holders_eq_empty (h : Permits 1 value holders) (hv : 0 < value) : holders = ∅ := by
  rw [Permits] at h
  exact Finset.card_eq_zero.mp (by omega)

lemma exists_holder (h : Permits n value holders) (hn : 0 < n) (hv : value = 0) : ∃ p, p ∈ holders := by
  have hpos : 0 < holders.card := by
    rw [Permits] at h
    omega
  exact Finset.card_pos.mp hpos

end Permits

end ApueCode.Posix
