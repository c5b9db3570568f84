import Mathlib.Tactic

/-! Labelled machines, their runs, and the rules that carry facts along runs. -/

namespace ApueCode.Transition

universe u v

/-- A machine whose every nondeterministic choice (who moves, which call fails) is in the action. -/
structure Machine (σ : Type u) (α : Type v) where
  init : σ → Prop
  step : σ → α → Option σ

namespace Machine

variable {σ : Type u} {α : Type v} (M : Machine σ α)

def exec : σ → List α → Option σ
  | s, [] => some s
  | s, a :: as => (M.step s a).bind fun t => exec t as

def Along (ok : σ → α → Prop) : σ → List α → Prop
  | _, [] => True
  | s, a :: as => ok s a ∧ ∀ t, M.step s a = some t → Along ok t as

instance decidableAlong (M : Machine σ α) (ok : σ → α → Prop) [∀ s a, Decidable (ok s a)] :
    ∀ (s : σ) (as : List α), Decidable (M.Along ok s as)
  | _, [] => isTrue trivial
  | s, a :: as =>
    match h : M.step s a with
    | none => decidable_of_iff (ok s a) ⟨fun ha => ⟨ha, fun t ht => by rw [h] at ht; cases ht⟩, And.left⟩
    | some t =>
      have := decidableAlong M ok t as
      decidable_of_iff (ok s a ∧ M.Along ok t as)
        ⟨fun ha => ⟨ha.1, fun u hu => Option.some.inj (h.symm.trans hu) ▸ ha.2⟩, fun ha => ⟨ha.1, ha.2 t h⟩⟩

def rounds {α : Type v} (round : ℕ → List α) (k : ℕ) : List α := (List.range k).flatMap round

inductive Reach (ok : σ → α → Prop) : σ → Prop
  | init {s} : M.init s → Reach ok s
  | step {s a t} : Reach ok s → ok s a → M.step s a = some t → Reach ok t

abbrev Reachable (s : σ) : Prop := M.Reach (fun _ _ => True) s

structure Invariant (ok : σ → α → Prop) (I : σ → Prop) : Prop where
  base : ∀ s, M.init s → I s
  step : ∀ s a t, I s → ok s a → M.step s a = some t → I t

def Stable (ok : σ → α → Prop) (P : σ → Prop) : Prop :=
  ∀ s a t, P s → ok s a → M.step s a = some t → P t

variable {M} {ok ok' : σ → α → Prop} {I J P : σ → Prop} {s t u : σ} {a : α} {as bs : List α}

@[simp] lemma exec_nil : M.exec s [] = some s := rfl

@[simp] lemma exec_cons : M.exec s (a :: as) = (M.step s a).bind fun t => M.exec t as := rfl

lemma exec_cons_iff : M.exec s (a :: as) = some u ↔ ∃ t, M.step s a = some t ∧ M.exec t as = some u := by
  simp [Option.bind_eq_some_iff]

lemma exec_append : M.exec s (as ++ bs) = (M.exec s as).bind fun t => M.exec t bs := by
  induction as generalizing s with
  | nil => rfl
  | cons a as ih =>
    rw [List.cons_append, exec_cons, exec_cons]
    cases M.step s a with
    | none => rfl
    | some t => exact ih

lemma rounds_succ (round : ℕ → List α) (k : ℕ) : rounds round (k + 1) = rounds round k ++ round k := by
  simp [rounds, List.range_succ]

lemma Along.mono (h : M.Along ok s as) (hok : ∀ s a, ok s a → ok' s a) : M.Along ok' s as := by
  induction as generalizing s with
  | nil => trivial
  | cons a as ih => exact ⟨hok s a h.1, fun t ht => ih (h.2 t ht)⟩

lemma Along.and (h : M.Along ok s as) (h' : M.Along ok' s as) :
    M.Along (fun s a => ok s a ∧ ok' s a) s as := by
  induction as generalizing s with
  | nil => trivial
  | cons a as ih => exact ⟨⟨h.1, h'.1⟩, fun t ht => ih (h.2 t ht) (h'.2 t ht)⟩

lemma along_of_forall {C : α → Prop} (h : ∀ a ∈ as, C a) : M.Along (fun _ a => C a) s as := by
  induction as generalizing s with
  | nil => trivial
  | cons a as ih => exact ⟨h a (by simp), fun t _ => ih fun b hb => h b (by simp [hb])⟩

lemma Along.append (h : M.Along ok s (as ++ bs)) (he : M.exec s as = some t) : M.Along ok t bs := by
  induction as generalizing s with
  | nil => exact Option.some.inj he ▸ h
  | cons a as ih =>
    obtain ⟨u, hu, hr⟩ := exec_cons_iff.mp he
    exact ih (h.2 u hu) hr

lemma Along.left (h : M.Along ok s (as ++ bs)) : M.Along ok s as := by
  induction as generalizing s with
  | nil => trivial
  | cons a as ih => exact ⟨h.1, fun t ht => ih (h.2 t ht)⟩

lemma Along.get (h : M.Along ok s as) (he : M.exec s as = some t) {k : ℕ} (hk : as[k]? = some a) :
    ∃ u, M.exec s (as.take k) = some u ∧ M.Along ok s (as.take k) ∧ ok u a := by
  obtain ⟨hlt, rfl⟩ := List.getElem?_eq_some_iff.mp hk
  have has : as.take k ++ as[k] :: as.drop (k + 1) = as := by
    rw [← List.drop_eq_getElem_cons hlt, List.take_append_drop]
  rw [← has] at h he
  rw [exec_append] at he
  obtain ⟨u, hu, -⟩ := Option.bind_eq_some_iff.mp he
  exact ⟨u, hu, h.left, (h.append hu).1⟩

lemma Reach.exec (h : M.Reach ok s) (ha : M.Along ok s as) (he : M.exec s as = some t) : M.Reach ok t := by
  induction as generalizing s with
  | nil => exact Option.some.inj he ▸ h
  | cons a as ih =>
    obtain ⟨u, hu, hr⟩ := exec_cons_iff.mp he
    exact ih (h.step ha.1 hu) (ha.2 u hu) hr

lemma along_true (s : σ) (as : List α) : M.Along (fun _ _ => True) s as := by
  induction as generalizing s with
  | nil => trivial
  | cons a as ih => exact ⟨trivial, fun t _ => ih t⟩

lemma reachable_of_exec (hi : M.init s) (he : M.exec s as = some t) : M.Reachable t :=
  (Reach.init hi).exec (along_true s as) he

lemma Invariant.holds (h : M.Invariant ok I) (hs : M.Reach ok s) : I s := by
  induction hs with
  | init hi => exact h.base _ hi
  | step _ ha hs ih => exact h.step _ _ _ ih ha hs

lemma Invariant.mono (h : M.Invariant ok I) (hok : ∀ s a, ok' s a → ok s a) : M.Invariant ok' I :=
  ⟨h.base, fun s a t hs ha ht => h.step s a t hs (hok s a ha) ht⟩

lemma Invariant.strengthen (h : M.Invariant ok I) (hb : ∀ s, M.init s → J s)
    (hj : ∀ s a t, I s → I t → J s → ok s a → M.step s a = some t → J t) :
    M.Invariant ok (fun s => I s ∧ J s) where
  base s hi := ⟨h.base s hi, hb s hi⟩
  step s a t hs ha ht :=
    have ht' := h.step s a t hs.1 ha ht
    ⟨ht', hj s a t hs.1 ht' hs.2 ha ht⟩

lemma Stable.exec (h : M.Stable ok P) (ha : M.Along ok s as) (he : M.exec s as = some t)
    (hp : P s) : P t := by
  induction as generalizing s with
  | nil => exact Option.some.inj he ▸ hp
  | cons a as ih =>
    obtain ⟨u, hu, hr⟩ := exec_cons_iff.mp he
    exact ih (ha.2 u hu) hr (h _ _ _ hp ha.1 hu)

lemma exists_first_break (he : M.exec s as = some t) (h : ¬ M.Along ok s as) :
    ∃ bs a cs u v, as = bs ++ a :: cs ∧ M.exec s bs = some u ∧ M.Along ok s bs ∧
      ¬ ok u a ∧ M.step u a = some v ∧ M.exec v cs = some t := by
  induction as generalizing s with
  | nil => exact (h trivial).elim
  | cons a as ih =>
    obtain ⟨v, hv, hr⟩ := exec_cons_iff.mp he
    by_cases ha : ok s a
    · have hn : ¬ M.Along ok v as := fun hl => h ⟨ha, fun w hw => by
        obtain rfl : v = w := Option.some.inj (hv.symm.trans hw)
        exact hl⟩
      obtain ⟨bs, b, cs, u, w, rfl, hu, hl, hb, hw, hc⟩ := ih hr hn
      refine ⟨a :: bs, b, cs, u, w, rfl, exec_cons_iff.mpr ⟨v, hv, hu⟩, ⟨ha, fun x hx => ?_⟩, hb, hw, hc⟩
      obtain rfl : v = x := Option.some.inj (hv.symm.trans hx)
      exact hl
    · exact ⟨[], a, as, s, v, rfl, rfl, trivial, ha, hv, hr⟩

lemma Invariant.exec (h : M.Invariant ok I) (hi : M.init s) (ha : M.Along ok s as) (he : M.exec s as = some t) :
    I t :=
  h.holds ((Reach.init hi).exec ha he)

lemma Invariant.broken (h : M.Invariant ok I) (hb : ∀ s a t, I s → ¬ ok s a → M.step s a = some t → J t)
    (hj : M.Stable (fun _ _ => True) J) (hi : M.init s) (he : M.exec s as = some t) (hn : ¬ M.Along ok s as) :
    J t := by
  obtain ⟨bs, a, cs, u, v, rfl, hu, hl, ha, hv, hc⟩ := exists_first_break he hn
  exact hj.exec (along_true v cs) hc (hb u a v (h.exec hi hl hu) ha hv)

lemma Stable.run (h : M.Stable (fun _ _ => True) P) (he : M.exec s as = some t) (hp : P s) : P t :=
  h.exec (along_true s as) he hp

lemma Stable.exec_length_le (h : M.Stable (fun _ _ => True) P) (rank : σ → ℕ)
    (hr : ∀ s a t, P s → M.step s a = some t → rank t < rank s) (he : M.exec s as = some t) (hp : P s) :
    as.length + rank t ≤ rank s := by
  induction as generalizing s with
  | nil => simp [Option.some.inj he]
  | cons a as ih =>
    obtain ⟨u, hu, hx⟩ := exec_cons_iff.mp he
    have hlt := hr s a u hp hu
    have hle := ih hx (h s a u hp trivial hu)
    simp only [List.length_cons]
    omega

lemma exec_length_le (rank : σ → ℕ) (hr : ∀ s a t, M.step s a = some t → rank t < rank s)
    (he : M.exec s as = some t) : as.length + rank t ≤ rank s :=
  Stable.exec_length_le (P := fun _ => True) (fun _ _ _ _ _ _ => trivial) rank (fun s a t _ => hr s a t) he trivial

end Machine

end ApueCode.Transition
