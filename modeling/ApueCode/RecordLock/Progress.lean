import ApueCode.RecordLock.Exclusion

/-! Runs are bounded and do not get stuck: those that have a lock go on and give it up. -/

namespace ApueCode.RecordLock

open Posix Transition Machine

variable {ι : Type} [DecidableEq ι] {sys : System ι} {s t : State ι} {p q : ι} {ty : LockType} {a : Action ι}
  {as : List (Action ι)}

def Pc.Without : Pc → Prop
  | .openFile | .lock _ | .exited _ => True
  | _ => False

def HeldInside (s : State ι) : Prop := ∀ q ty b, s.locks.Holds q ty b → ¬ (s.pc q).Without

lemma HeldInside.goto {pc : Pc} (h : HeldInside s) (hp : ¬ pc.Without ∨ (s.pc p).Without) : HeldInside (s.goto p pc) := by
  intro q ty b hb
  by_cases hq : q = p
  · subst hq
    rw [goto_pc_self]
    exact hp.resolve_right (h q ty b hb)
  · rw [goto_pc_other pc hq]
    exact h q ty b hb

lemma HeldInside.exit (h : HeldInside s) (status : ℕ) : HeldInside (s.exit p status) := by
  intro q ty b hb
  obtain ⟨hb, hq⟩ := LockTable.holds_dropAll.mp hb
  rw [State.exit, goto_pc_other _ hq]
  exact h q ty b hb

lemma heldInside_step (h : HeldInside s) (hs : step sys s a = some t) : HeldInside t := by
  cases step_cases hs with
  | opened hp _ => exact h.goto (.inr (by simp [hp, Pc.Without]))
  | usage _ _ | openFail _ | returning _ => exact h.exit _
  | @granted p ty locks hp hl =>
    obtain ⟨-, rfl⟩ := setlk_lock.mp hl
    intro q ty' b hb
    by_cases hq : q = p
    · subst hq
      simp [Pc.Without]
    · rw [goto_pc_other _ hq]
      exact h q ty' b ((LockTable.holds_acquire.mp hb).resolve_left fun he => hq he.1).1
  | refused _ | sleep _ | unlockFail _ => exact h.goto (.inl (by simp [Pc.Without]))
  | get _ | release _ => exact HeldInside.goto (s := s.print _) h (.inl (by simp [Pc.Without]))
  | @unlock p ty hp =>
    refine HeldInside.goto (s := { s with locks := _ }) ?_ (.inl (by simp [Pc.Without]))
    rcases setlk_unlock (p := p) s.locks (sys.l_start p) (sys.l_len p) 0 sys.size with hu | ⟨r, hu⟩
    · rw [hu]
      exact h
    · rw [hu]
      exact fun q ty' b hb => h q ty' b (LockTable.holds_release.mp hb).1

lemma heldInside : (machine sys).Invariant (fun _ _ => True) HeldInside where
  base := by
    rintro s rfl q ty b ⟨l, hl, -⟩
    cases hl
  step _ _ _ h _ hs := heldInside_step h hs

lemma granted_of_without (h : HeldInside s) (hp : s.pc p = .lock ty) (ho : ∀ q, (s.pc q).Without) :
    ∃ u, step sys s (.run p) = some u := by
  have hfree : s.locks.conflicts p ty firstByte = false := by
    by_contra hc
    obtain ⟨q, ty', b, -, hb, -⟩ := LockTable.conflicts_iff.mp (eq_true_of_ne_false hc)
    exact h q ty' b hb (ho q)
  have hl : (lock ty).setlk s.locks p 0 sys.size = some (s.locks.acquire p ty firstByte) :=
    setlk_lock.mpr ⟨hfree, rfl⟩
  exact ⟨_, by simp only [step, hp, hl, Option.map_some]; rfl⟩

lemma runs_of_not_lock (hl : ∀ ty, s.pc p ≠ .lock ty) (hx : ∀ status, s.pc p ≠ .exited status) :
    ∃ u, step sys s (.run p) = some u := by
  cases hp : s.pc p with
  | lock ty => exact (hl ty hp).elim
  | exited status => exact (hx status hp).elim
  | _ => exact ⟨_, by simp only [step, hp]; rfl⟩

def Pc.rank : Pc → ℕ
  | .openFile => 7
  | .lock _ => 6
  | .get _ => 5
  | .sleep _ => 4
  | .unlock _ => 3
  | .release _ => 2
  | .returning => 1
  | .exited _ => 0

variable [Fintype ι]

omit [DecidableEq ι] in
def rank (s : State ι) : ℕ := ∑ p, (s.pc p).rank

lemma rank_goto {pc : Pc} (h : pc.rank < (s.pc p).rank) : rank (s.goto p pc) < rank s := by
  refine Finset.sum_lt_sum (fun q _ => ?_) ⟨p, Finset.mem_univ p, by simpa using h⟩
  by_cases hq : q = p
  · subst hq
    simpa using h.le
  · rw [goto_pc_other pc hq]

lemma rank_step (hs : step sys s a = some t) : rank t < rank s := by
  cases step_cases hs with
  | opened hp _ | refused hp | sleep hp | unlockFail hp => exact rank_goto (by simp [hp, Pc.rank])
  | usage hp _ | openFail hp | returning hp => exact rank_goto (s := { s with locks := _ }) (by simp [hp, Pc.rank])
  | granted hp _ => exact rank_goto (s := s.grant _ _) (by simp [State.grant, hp, Pc.rank])
  | get hp | release hp => exact rank_goto (s := s.print _) (by simp [State.print, hp, Pc.rank])
  | unlock hp => exact rank_goto (s := { s with locks := _ }) (by simp [hp, Pc.rank])

theorem runs_without_deadlock (he : (machine sys).exec start as = some t) : as.length ≤ 7 * Fintype.card ι ∧
    (∀ p, (∀ status, t.pc p ≠ .exited status) → ∃ q u, (machine sys).step t (.run q) = some u) := by
  have hle := exec_length_le rank (fun _ _ _ => rank_step) he
  have hstart : rank (start : State ι) = 7 * Fintype.card ι := by
    simp [rank, start, Pc.rank, mul_comm]
  refine ⟨by omega, fun p hp => ?_⟩
  by_cases hall : ∀ q, (t.pc q).Without
  · cases hpc : t.pc p with
    | lock ty => exact ⟨p, granted_of_without (heldInside.exec rfl (along_true _ as) he) hpc hall⟩
    | exited status => exact (hp status hpc).elim
    | _ => exact ⟨p, runs_of_not_lock (by simp [hpc]) hp⟩
  · obtain ⟨q, hq⟩ := not_forall.mp hall
    refine ⟨q, runs_of_not_lock (fun ty hl => hq ?_) fun status hx => hq ?_⟩
    · simp [hl, Pc.Without]
    · simp [hx, Pc.Without]

theorem runs_without_deadlock_two : ∃ t, (machine twoWriters).exec start oneReports = some t ∧
    ∃ q u, (machine twoWriters).step t (.run q) = some u := by
  obtain ⟨t, he, ht⟩ := Option.map_eq_some_iff.mp (show
    ((machine twoWriters).exec start oneReports).map (fun s => s.pc true) = some (.lock .write) by decide +kernel)
  exact ⟨t, he, (runs_without_deadlock he).2 true (by simp [ht])⟩

end ApueCode.RecordLock
