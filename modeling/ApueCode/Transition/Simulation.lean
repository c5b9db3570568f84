import ApueCode.Transition.Machine

/-! Forward simulations: a concrete step is matched by a finite abstract run. -/

namespace ApueCode.Transition

universe u v

open Machine

structure Simulation {σ τ : Type u} {α β : Type v} (C : Machine σ α) (A : Machine τ β)
    (ok : σ → α → Prop) (R : σ → τ → Prop) : Prop where
  base : ∀ s, C.init s → ∃ t, A.init t ∧ R s t
  step : ∀ s a s' t, R s t → ok s a → C.step s a = some s' →
    ∃ bs t', A.exec t bs = some t' ∧ R s' t'

namespace Simulation

variable {σ τ : Type u} {α β : Type v} {C : Machine σ α} {A : Machine τ β}
variable {ok : σ → α → Prop} {R : σ → τ → Prop} {s : σ}

lemma reach (h : Simulation C A ok R) (hs : C.Reach ok s) : ∃ t, A.Reachable t ∧ R s t := by
  induction hs with
  | init hi =>
    obtain ⟨t, ht, hr⟩ := h.base _ hi
    exact ⟨t, .init ht, hr⟩
  | step _ ha hs ih =>
    obtain ⟨t, ht, hr⟩ := ih
    obtain ⟨bs, t', he, hr'⟩ := h.step _ _ _ t hr ha hs
    exact ⟨t', ht.exec (along_true t bs) he, hr'⟩

lemma transfer (h : Simulation C A ok R) {I : τ → Prop} (hI : A.Invariant (fun _ _ => True) I)
    (hs : C.Reach ok s) : ∃ t, I t ∧ R s t := by
  obtain ⟨t, ht, hr⟩ := h.reach hs
  exact ⟨t, hI.holds ht, hr⟩

end Simulation

end ApueCode.Transition
