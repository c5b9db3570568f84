import Mathlib.Data.Finset.Image
import Mathlib.Tactic

/-! The children of one process: those that run, and those that have ended and wait to be asked about. -/

namespace ApueCode.Posix

structure Children (π ε : Type) [DecidableEq π] [DecidableEq ε] where
  running : Finset π
  zombies : Finset (π × ε)
  apart : ∀ p e, (p, e) ∈ zombies → p ∉ running
  unique : ∀ p e e', (p, e) ∈ zombies → (p, e') ∈ zombies → e = e'

namespace Children

variable {π ε : Type} [DecidableEq π] [DecidableEq ε] (c : Children π ε) (p : π) (e : ε)

def none : Children π ε := ⟨∅, ∅, by simp, by simp⟩

def pids : Finset π := c.running ∪ c.zombies.image Prod.fst

variable {c p e} {q : π} {e' : ε}

lemma mem_pids : p ∈ c.pids ↔ p ∈ c.running ∨ ∃ e, (p, e) ∈ c.zombies := by
  simp [pids]

def fork (c : Children π ε) (p : π) (h : p ∉ c.pids) : Children π ε where
  running := insert p c.running
  zombies := c.zombies
  apart q e hq hm := by
    rcases Finset.mem_insert.mp hm with rfl | hm
    · exact h (mem_pids.mpr (.inr ⟨e, hq⟩))
    · exact c.apart q e hq hm
  unique := c.unique

def finish (c : Children π ε) (p : π) (e : ε) (keep : Bool) (h : p ∈ c.running) : Children π ε where
  running := c.running.erase p
  zombies := if keep then insert (p, e) c.zombies else c.zombies
  apart q e' hq hm := by
    obtain ⟨hne, hm⟩ := Finset.mem_erase.mp hm
    cases keep with
    | false => exact c.apart q e' hq hm
    | true =>
      rcases Finset.mem_insert.mp hq with he | hq
      · exact hne (Prod.mk.inj he).1
      · exact c.apart q e' hq hm
  unique q e₁ e₂ h₁ h₂ := by
    cases keep with
    | false => exact c.unique q e₁ e₂ h₁ h₂
    | true =>
      have hp : ∀ e', (p, e') ∉ c.zombies := fun e' hz => c.apart p e' hz h
      rcases Finset.mem_insert.mp h₁ with he₁ | h₁ <;> rcases Finset.mem_insert.mp h₂ with he₂ | h₂
      · exact (Prod.mk.inj he₁).2.trans (Prod.mk.inj he₂).2.symm
      · exact (hp e₂ ((Prod.mk.inj he₁).1 ▸ h₂)).elim
      · exact (hp e₁ ((Prod.mk.inj he₂).1 ▸ h₁)).elim
      · exact c.unique q e₁ e₂ h₁ h₂

def reap (c : Children π ε) (p : π) (e : ε) : Children π ε where
  running := c.running
  zombies := c.zombies.erase (p, e)
  apart q e' hq := c.apart q e' (Finset.mem_of_mem_erase hq)
  unique q e₁ e₂ h₁ h₂ := c.unique q e₁ e₂ (Finset.mem_of_mem_erase h₁) (Finset.mem_of_mem_erase h₂)

@[simp] lemma pids_none : (none : Children π ε).pids = ∅ := rfl

@[simp] lemma pids_fork (h : p ∉ c.pids) : (c.fork p h).pids = insert p c.pids := by
  simp [pids, fork, Finset.insert_union]

lemma pids_keep (h : p ∈ c.running) : (c.finish p e true h).pids = c.pids := by
  ext q
  simp only [mem_pids, finish, if_true, Finset.mem_erase, Finset.mem_insert, Prod.mk.injEq]
  constructor
  · rintro (⟨-, hq⟩ | ⟨e', ⟨rfl, -⟩ | hz⟩)
    · exact .inl hq
    · exact .inl h
    · exact .inr ⟨e', hz⟩
  · rintro (hq | ⟨e', hz⟩)
    · by_cases hqp : q = p
      · exact .inr ⟨e, .inl ⟨hqp, rfl⟩⟩
      · exact .inl ⟨hqp, hq⟩
    · exact .inr ⟨e', .inr hz⟩

lemma pids_discard (h : p ∈ c.running) : (c.finish p e false h).pids = c.pids.erase p := by
  ext q
  simp only [mem_pids, finish, Bool.false_eq_true, if_false, Finset.mem_erase]
  constructor
  · rintro (⟨hne, hq⟩ | ⟨e', hz⟩)
    · exact ⟨hne, .inl hq⟩
    · exact ⟨fun he => c.apart q e' hz (he ▸ h), .inr ⟨e', hz⟩⟩
  · rintro ⟨hne, hq | hz⟩
    · exact .inl ⟨hne, hq⟩
    · exact .inr hz

lemma pids_reap (h : (p, e) ∈ c.zombies) : (c.reap p e).pids = c.pids.erase p := by
  ext q
  simp only [mem_pids, reap, Finset.mem_erase, ne_eq, Prod.mk.injEq, not_and]
  constructor
  · rintro (hq | ⟨e', hne, hz⟩)
    · exact ⟨fun he => c.apart p e h (he ▸ hq), .inl hq⟩
    · refine ⟨fun he => hne he (c.unique p e' e (he ▸ hz) h), .inr ⟨e', hz⟩⟩
  · rintro ⟨hne, hq | ⟨e', hz⟩⟩
    · exact .inl hq
    · exact .inr ⟨e', fun he => (hne he).elim, hz⟩

end Children

end ApueCode.Posix
