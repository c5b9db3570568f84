import ApueCode.Transition.Machine

/-! A relay takes its input into a buffer, piece by piece, and passes it on from there. -/

namespace ApueCode.Transition

universe u

structure Relay (α : Type u) where
  sent : List α
  buffer : List α
  rest : List α

namespace Relay

variable {α : Type u}

def whole (r : Relay α) : List α := r.sent ++ r.buffer ++ r.rest

def fill (r : Relay α) (n : ℕ) : Relay α := ⟨r.sent, r.buffer ++ r.rest.take n, r.rest.drop n⟩

def pass (r : Relay α) (n : ℕ) : Relay α := ⟨r.sent ++ r.buffer.take n, r.buffer.drop n, r.rest⟩

inductive Move
  | fill (n : ℕ) | pass (n : ℕ)

variable {r : Relay α} {n : ℕ}

@[simp] lemma whole_fill : (r.fill n).whole = r.whole := by
  simp only [whole, fill, List.append_assoc, List.take_append_drop]

@[simp] lemma whole_pass : (r.pass n).whole = r.whole := by
  rw [whole, pass, List.append_assoc r.sent, List.take_append_drop, whole]

lemma sent_prefix : r.sent <+: r.whole := ⟨r.buffer ++ r.rest, by rw [whole, List.append_assoc]⟩

lemma sent_eq_whole (hb : r.buffer = []) (hr : r.rest = []) : r.sent = r.whole := by
  rw [whole, hb, hr, List.append_nil, List.append_nil]

end Relay

variable {α : Type u} {input : List α}

def relay (input : List α) : Machine (Relay α) Relay.Move where
  init r := r = ⟨[], [], input⟩
  step r
    | .fill n => some (r.fill n)
    | .pass n => some (r.pass n)

lemma relay_invariant : (relay input).Invariant (fun _ _ => True) (fun r => r.whole = input) where
  base := by
    rintro _ rfl
    rfl
  step r a r' h _ hs := by
    cases a with
    | fill n =>
      obtain rfl := Option.some.inj hs
      exact Relay.whole_fill.trans h
    | pass n =>
      obtain rfl := Option.some.inj hs
      exact Relay.whole_pass.trans h

end ApueCode.Transition
