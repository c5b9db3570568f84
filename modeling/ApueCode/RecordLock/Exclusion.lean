import ApueCode.RecordLock.Model

/-! Who reports a lock has it, as long as no `F_SETLKW` fails; then a writer reports alone. -/

namespace ApueCode.RecordLock

open Posix Transition

variable {ι : Type} [DecidableEq ι] {sys : System ι} {s t : State ι} {p q : ι} {ty : LockType}

@[simp] lemma goto_pc_self (pc : Pc) : (s.goto p pc).pc p = pc := by simp [State.goto]

@[simp] lemma goto_pc_other (pc : Pc) (h : q ≠ p) : (s.goto p pc).pc q = s.pc q := by simp [State.goto, h]

@[simp] lemma goto_granted (pc : Pc) : (s.goto p pc).granted = s.granted := rfl

def firstByte : ByteRange := ⟨0, some 1⟩

lemma setlk_lock {locks locks' : LockTable ι} {offset size : ℕ} :
    (lock ty).setlk locks p offset size = some locks' ↔
      locks.conflicts p ty firstByte = false ∧ locks.acquire p ty firstByte = locks' := by
  have hr : (lock ty).range offset size = some firstByte := by
    simp [lock, Flock.range, OFF_MAX, firstByte]
  have ht : (lock ty).l_type = some ty := rfl
  simp only [Flock.setlk, hr, ht]
  cases locks.conflicts p ty firstByte <;> simp

lemma setlk_unlock (locks : LockTable ι) (l_start l_len : ℤ) (offset size : ℕ) :
    ((unlock l_start l_len).setlk locks p offset size).getD locks = locks ∨
    ∃ r, ((unlock l_start l_len).setlk locks p offset size).getD locks = locks.release p r := by
  simp only [Flock.setlk, unlock, F_UNLCK]
  split
  · exact .inl rfl
  · exact .inr ⟨_, rfl⟩
  · rename_i h
    cases h

def Pc.Claims (pc : Pc) (ty : LockType) : Prop := pc = .get ty ∨ pc = .sleep ty ∨ pc = .unlock ty

structure Sound (s : State ι) (p : ι) : Prop where
  fresh : ∀ ty, s.pc p = .openFile ∨ s.pc p = .lock ty → s.granted p = false
  holds : ∀ ty, s.granted p = true → (s.pc p).Claims ty → s.locks.Holds p ty 0

structure Inv (s : State ι) : Prop where
  compatible : s.locks.Compatible
  sound : ∀ p, Sound s p

lemma Inv.of_step (h : Inv s) (p : ι) (hc : t.locks.Compatible)
    (hpc : ∀ q, q ≠ p → t.pc q = s.pc q) (hg : ∀ q, q ≠ p → t.granted q = s.granted q)
    (hl : ∀ q, q ≠ p → ∀ ty, s.locks.Holds q ty 0 → t.locks.Holds q ty 0) (hp : Sound t p) : Inv t where
  compatible := hc
  sound := by
    intro q
    by_cases he : q = p
    · subst he
      exact hp
    · have hq := h.sound q
      constructor
      · intro ty hf
        rw [hpc q he] at hf
        rw [hg q he]
        exact hq.fresh ty hf
      · intro ty hgr hcl
        rw [hg q he] at hgr
        rw [hpc q he] at hcl
        exact hl q he ty (hq.holds ty hgr hcl)

lemma inv_goto (h : Inv s) {pc : Pc} (hp : Sound (s.goto p pc) p) : Inv (s.goto p pc) := by
  apply Inv.of_step (t := s.goto p pc) h p h.compatible
  · intro q hq
    exact goto_pc_other pc hq
  · intro q _
    rfl
  · intro q _ ty hl
    exact hl
  · exact hp

omit [DecidableEq ι] in
lemma sound_of_silent (ho : s.pc p ≠ .openFile) (hl : ∀ ty, s.pc p ≠ .lock ty)
    (hc : ∀ ty, ¬ (s.pc p).Claims ty) : Sound s p where
  fresh ty hf := by
    rcases hf with hf | hf
    · exact (ho hf).elim
    · exact (hl ty hf).elim
  holds ty _ hcl := (hc ty hcl).elim

lemma inv_grant {locks : LockTable ι} (h : Inv s) (hl : (lock ty).setlk s.locks p 0 sys.size = some locks) :
    Inv ((s.grant p locks).goto p (.get ty)) := by
  obtain ⟨hc, rfl⟩ := setlk_lock.mp hl
  apply h.of_step p (h.compatible.acquire hc)
  · intro q hq
    exact goto_pc_other _ hq
  · intro q hq
    simp [State.grant, hq]
  · intro q hq ty' hb
    exact LockTable.holds_acquire.mpr (.inr ⟨hb, fun he => (hq he).elim⟩)
  · constructor
    · simp
    · intro ty' _ hcl
      have ht : ty = ty' := by simpa [Pc.Claims] using hcl
      subst ht
      exact LockTable.holds_acquire.mpr (.inl ⟨rfl, rfl, rfl⟩)

lemma inv_release (h : Inv s) (l_start l_len : ℤ) (size : ℕ) :
    Inv ({ s with locks := ((unlock l_start l_len).setlk s.locks p 0 size).getD s.locks }.goto p
      (.release ty)) := by
  rcases setlk_unlock (p := p) s.locks l_start l_len 0 size with hu | ⟨r, hu⟩ <;> rw [hu]
  · apply inv_goto h
    apply sound_of_silent <;> simp [Pc.Claims]
  · apply h.of_step p h.compatible.release
    · intro q hq
      exact goto_pc_other _ hq
    · intro q _
      rfl
    · intro q hq ty' hb
      exact LockTable.holds_release.mpr ⟨hb, fun he => (hq he).elim⟩
    · apply sound_of_silent <;> simp [Pc.Claims]

lemma inv_exit (h : Inv s) (status : ℕ) : Inv (s.exit p status) := by
  apply h.of_step p h.compatible.dropAll
  · intro q hq
    exact goto_pc_other _ hq
  · intro q _
    rfl
  · intro q hq ty' hb
    exact LockTable.holds_dropAll.mpr ⟨hb, hq⟩
  · apply sound_of_silent <;> simp [State.exit, Pc.Claims]

lemma inv_next {pc : Pc} (h : Inv s) (hf : s.granted p = true → pc ≠ .openFile ∧ ∀ ty, pc ≠ .lock ty)
    (hc : ∀ ty, s.granted p = true → pc.Claims ty → (s.pc p).Claims ty) : Inv (s.goto p pc) := by
  apply inv_goto h
  constructor
  · intro ty hpc
    rw [goto_pc_self] at hpc
    by_contra hg
    obtain ⟨ho, hl⟩ := hf (by simpa using hg)
    rcases hpc with hpc | hpc
    · exact ho hpc
    · exact hl ty hpc
  · intro ty hg hcl
    rw [goto_pc_self] at hcl
    exact (h.sound p).holds ty hg (hc ty hg hcl)

omit [DecidableEq ι] in
lemma inv_print (h : Inv s) (line : Line ι) : Inv (s.print line) :=
  ⟨h.compatible, fun q => ⟨(h.sound q).fresh, (h.sound q).holds⟩⟩

lemma inv_step {a : Action ι} (h : Inv s) (hs : step sys s a = some t) : Inv t := by
  cases step_cases hs with
  | @opened p ty hp _ => exact inv_next h (by simp [(h.sound p).fresh ty (.inl hp)]) (by simp [Pc.Claims])
  | usage _ _ | openFail _ | returning _ => exact inv_exit h _
  | granted _ hl => exact inv_grant h hl
  | @refused p ty hp => exact inv_next h (by simp) (by simp [(h.sound p).fresh ty (.inr hp)])
  | get hp => exact inv_next (inv_print h _) (by simp) (by simp [Pc.Claims, State.print, hp])
  | sleep hp => exact inv_next h (by simp) (by simp [Pc.Claims, hp])
  | unlock _ => exact inv_release h _ _ _
  | unlockFail _ => exact inv_next h (by simp) (by simp [Pc.Claims])
  | release _ => exact inv_next (inv_print h _) (by simp) (by simp [Pc.Claims])

omit [DecidableEq ι] in
lemma inv_start : Inv (start : State ι) where
  compatible := LockTable.compatible_nil
  sound p := ⟨fun _ _ => rfl, by simp [start]⟩

theorem invariant : (machine sys).Invariant (fun _ _ => True) Inv where
  base := by
    rintro s rfl
    exact inv_start
  step s a t h _ hs := inv_step h hs

def LockGranted (s : State ι) (a : Action ι) : Prop := ∀ p ty, a = .fail p → s.pc p ≠ .lock ty

def AllGranted (s : State ι) : Prop := ∀ p ty, (s.pc p).Claims ty → s.granted p = true

lemma allGranted_goto {pc : Pc} (h : AllGranted s) (hc : ∀ ty, pc.Claims ty → s.granted p = true) :
    AllGranted (s.goto p pc) := by
  intro q ty hq
  by_cases he : q = p
  · subst he
    rw [goto_pc_self] at hq
    exact hc ty hq
  · rw [goto_pc_other pc he] at hq
    exact h q ty hq

lemma allGranted_step {a : Action ι} (h : AllGranted s) (ha : LockGranted s a) (hs : step sys s a = some t) :
    AllGranted t := by
  cases step_cases hs with
  | @granted p ty locks _ _ =>
    apply allGranted_goto
    · intro q ty' hq
      by_cases he : q = p
      · simp [State.grant, he]
      · simpa [State.grant, he] using h q ty' hq
    · simp [State.grant]
  | @refused p ty hp => exact (ha p ty rfl hp).elim
  | @get p ty hp | @sleep p ty hp => exact allGranted_goto h fun _ _ => h p ty (by simp [Pc.Claims, hp])
  | opened _ _ | usage _ _ | openFail _ | unlock _ | unlockFail _ | release _ | returning _ =>
    exact allGranted_goto h (by simp [Pc.Claims])

theorem invariant_granted :
    (machine sys).Invariant LockGranted (fun s => Inv s ∧ AllGranted s) := by
  apply (invariant.mono fun _ _ _ => trivial).strengthen
  · rintro s rfl
    simp [AllGranted, Pc.Claims, start]
  · intro s a t _ _ h ha hs
    exact allGranted_step h ha hs

/-- As long as no `F_SETLKW` fails, a process that reports a write lock is the only one that reports. -/
theorem writer_alone (h : (machine sys).Reach LockGranted s) (hp : s.Reported p .write)
    (hq : s.Reported q ty) : q = p := by
  obtain ⟨hi, hg⟩ := invariant_granted.holds h
  have hcp : (s.pc p).Claims .write := .inr hp
  have hcq : (s.pc q).Claims ty := .inr hq
  have hlp := (hi.sound p).holds .write (hg p .write hcp) hcp
  have hlq := (hi.sound q).holds ty (hg q ty hcq) hcq
  exact (hi.compatible p q 0 ty hlp hlq).symm

def twoWriters : System Bool := ⟨fun _ => 119, fun _ => 0, fun _ => 1, 0⟩

def oneReports : List (Action Bool) := [.run false, .run true, .run false, .run false]

theorem writer_alone_two : ∃ s, (machine twoWriters).exec start oneReports = some s ∧
    s.Reported false .write ∧ ∀ q ty, s.Reported q ty → q = false := by
  have hd : ((machine twoWriters).exec start oneReports).map (fun s => s.pc false) =
      some (.sleep .write) := by decide
  obtain ⟨s, hs, hp⟩ := Option.map_eq_some_iff.mp hd
  have ha : (machine twoWriters).Along LockGranted start oneReports := by
    apply Machine.Along.mono (Machine.along_of_forall (C := fun a => ∀ p, a ≠ .fail p) (by decide))
    intro u a hr p ty hf
    exact (hr p hf).elim
  refine ⟨s, hs, .inl hp, ?_⟩
  intro q ty hq
  exact writer_alone ((Machine.Reach.init rfl).exec ha hs) (.inl hp) hq

def refusedRun : List (Action Bool) :=
  [.run false, .run true, .run false, .fail true, .run false, .run true]

theorem writers_together : ¬ ∀ s, (machine twoWriters).Reachable s →
    ∀ p q ty, s.Reported p .write → s.Reported q ty → q = p := by
  intro h
  have hd : ((machine twoWriters).exec start refusedRun).map (fun s => (s.pc false, s.pc true)) =
      some (.sleep .write, .sleep .write) := by decide
  obtain ⟨s, hs, hd⟩ := Option.map_eq_some_iff.mp hd
  obtain ⟨hf, ht⟩ := Prod.mk.inj hd
  have he := h s (Machine.reachable_of_exec rfl hs) false true .write (.inl hf) (.inl ht)
  cases he

end ApueCode.RecordLock
