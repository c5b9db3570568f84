import ApueCode.Transition.Machine

/-! An atomic dispenser: each client that takes a ticket gets the next number. -/

namespace ApueCode.Transition

variable {ι : Type}

def dispenser (ι : Type) : Machine (List (ι × ℕ)) ι where
  init issued := issued = []
  step issued i := some (issued ++ [(i, issued.length)])

lemma dispenser_invariant : (dispenser ι).Invariant (fun _ _ => True)
    (fun issued => issued.map Prod.snd = List.range issued.length) where
  base := by
    rintro _ rfl
    rfl
  step issued i issued' h _ hs := by
    obtain rfl := Option.some.inj hs
    simp [h, List.range_succ]

end ApueCode.Transition
