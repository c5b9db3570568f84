import ApueCode.MandatoryLock.Handshake

/-! What the child cannot learn from the end of the file: that its parent has failed. -/

namespace ApueCode.MandatoryLock

open Posix Transition

variable {s t : State}

def Action.parentFails (a : Action) : Prop := a = .parent .setlkFail ∨ a = .parent .writeFail

def Detected (s : State) : Prop :=
  s.parent.hasExited = true → s.told = false → s.child = .waitParent → s.fd1.read = .eof

lemma read_of_waiting (h : Inv s) (ht : s.told = false) (hc : s.child = .waitParent) :
    s.fd1.read = .blocked :=
  Pipe.read_blocked.mpr ⟨(h.untold ht).1, Finset.ne_empty_of_mem (h.writer hc)⟩

lemma not_detected (h : Inv s) (hp : s.parent.hasExited = true) (ht : s.told = false)
    (hc : s.child = .waitParent) : ¬ Detected s := by
  intro hd
  have he := hd hp ht hc
  rw [read_of_waiting h ht hc] at he
  cases he

lemma stuck (h : Inv s) (hp : s.parent.hasExited = true) (ht : s.told = false)
    (hc : s.child = .waitParent) (a : Action) : step s a = none := by
  have hr := read_of_waiting h ht hc
  cases hs : s.parent with
  | exited status =>
    rcases a with a | a <;> cases a <;>
      simp [step, parentStep, parentFail, childStep, childFail, waitParent, hs, hc, hr]
  | _ => simp [hs, ParentPc.hasExited] at hp

lemma stuck_stable : machine.Stable (fun _ _ => True)
    (fun s => Inv s ∧ s.parent.hasExited = true ∧ s.told = false ∧ s.child = .waitParent) := by
  rintro s a t ⟨h, hp, ht, hc⟩ - hs
  rw [show machine.step s a = none from stuck h hp ht hc a] at hs
  cases hs

lemma exited_of_fails {a : Action} (h : Inv s) (ha : a.parentFails) (hs : step s a = some t) :
    t.parent.hasExited = true ∧ t.told = false ∧ t.child = .waitParent := by
  have hfail : ∀ pc msg, pc = .setlk ∨ pc = .tellChild → parentFail s pc msg = some t →
      t.parent.hasExited = true ∧ t.told = false ∧ t.child = .waitParent := by
    intro pc msg hpc hf
    simp only [parentFail, Option.ite_none_right_eq_some, Option.some.injEq] at hf
    obtain ⟨rfl, rfl⟩ := hf
    have ht := told_eq_false h (by rcases hpc with hpc | hpc <;> simp [hpc])
      (by rcases hpc with hpc | hpc <;> simp [hpc, ParentPc.hasExited])
    exact ⟨rfl, ht, h.born hpc⟩
  rcases ha with rfl | rfl
  · exact hfail _ _ (.inl rfl) hs
  · exact hfail _ _ (.inr rfl) hs

lemma childStep_frame {a : ChildAction} (hs : childStep s a = some t) :
    t.parent = s.parent ∧ t.told = s.told ∧ s.child ≠ .unborn := by
  cases a with
  | readByte =>
    simp only [childStep, Option.ite_none_right_eq_some, waitParent] at hs
    obtain ⟨hc, hs⟩ := hs
    split at hs <;> simp only [Option.some.injEq, reduceCtorEq] at hs <;> subst hs <;>
      simp [hc, State.exitChild, State.close]
  | setlk =>
    simp only [childStep, Option.ite_none_right_eq_some, Option.some.injEq] at hs
    obtain ⟨hc, rfl⟩ := hs
    cases fcntl s .child readLock <;> simp [hc, refused]
  | getflFail | setflFail | report | lseekFail =>
    simp only [childStep, childFail, Option.ite_none_right_eq_some, Option.some.injEq] at hs
    obtain ⟨hc, rfl⟩ := hs
    exact ⟨rfl, rfl, by simp [hc]⟩
  | getfl | setfl | setlkFail | lseek | read | readFail =>
    simp only [childStep, Option.ite_none_right_eq_some, Option.some.injEq] at hs
    obtain ⟨hc, rfl⟩ := hs
    exact ⟨rfl, rfl, by simp [hc]⟩

lemma fcntl_free (h : s.locks = []) : (fcntl s .parent writeLock).isSome = true := by
  simp [fcntl, Flock.setlk, writeLock, wholeFile_range, F_WRLCK, LockTable.conflicts, h]

def Spoken (s : State) : Prop := s.parent.hasExited = true → s.told = true ∨ s.child = .unborn

lemma spoken_parentStep {a : ParentAction} (h : Inv s) (ha : ¬ (Action.parent a).parentFails)
    (hs : parentStep s a = some t) : Spoken t := by
  intro he
  cases a with
  | pipe1 | pipe2 | fork | write =>
    simp only [parentStep, Option.ite_none_right_eq_some, Option.some.injEq] at hs
    obtain ⟨-, rfl⟩ := hs
    simp [ParentPc.hasExited] at he
  | setlk =>
    simp only [parentStep, Option.ite_none_right_eq_some, Option.some.injEq] at hs
    obtain ⟨hp, rfl⟩ := hs
    obtain ⟨locks, hl⟩ := Option.isSome_iff_exists.mp (fcntl_free (h.free (by simp [hp])))
    simp [hl, ParentPc.hasExited] at he
  | pipe1Fail | pipe2Fail | forkFail =>
    simp only [parentStep, parentFail, Option.ite_none_right_eq_some, Option.some.injEq] at hs
    obtain ⟨hp, rfl⟩ := hs
    exact .inr (h.early (by simp [hp]))
  | waitpid | waitpidFail =>
    obtain ⟨⟨hp, -⟩, rfl⟩ := by simpa [parentStep] using hs
    exact .inl (h.waiting hp)
  | setlkFail => exact (ha (.inl rfl)).elim
  | writeFail => exact (ha (.inr rfl)).elim

theorem invariant_spoken :
    machine.Invariant (fun _ a => ¬ a.parentFails) (fun s => Inv s ∧ Spoken s) := by
  apply (invariant.mono fun _ _ _ => trivial).strengthen
  · rintro s rfl
    simp [Spoken, start, ParentPc.hasExited]
  · intro s a t h _ hk ha hs
    cases a with
    | parent a => exact spoken_parentStep h ha hs
    | child a =>
      obtain ⟨hp, ht, hc⟩ := childStep_frame hs
      intro he
      rcases hk (hp ▸ he) with hk | hu
      · exact .inl (ht.trans hk)
      · exact (hc hu).elim

/-- The end of the file never tells the child that the parent has failed, since the child has the
write end open itself. -/
theorem failure_detected_iff {as : List Action} (h : machine.exec start as = some s) :
    (Detected s ↔ machine.Along (fun _ a => ¬ a.parentFails) start as) ∧
    (s.parent.hasExited = true → s.told = false → s.child ≠ .unborn →
      s.child = .waitParent ∧ s.fd1.read = .blocked ∧ ∀ a, machine.step s a = none) := by
  have hi := reachable_inv (Machine.reachable_of_exec rfl h)
  refine ⟨⟨?_, ?_⟩, ?_⟩
  · intro hd
    by_contra hb
    obtain ⟨-, hp, ht, hw⟩ := invariant_spoken.broken
      (fun u a v hu ha hv => ⟨invariant.step u a v hu.1 trivial hv, exited_of_fails hu.1 (not_not.mp ha) hv⟩)
      stuck_stable rfl h hb
    exact not_detected hi hp ht hw hd
  · intro ha hp ht hw
    have hk := (invariant_spoken.exec rfl ha h).2 hp
    simp [ht, hw] at hk
  · intro hp ht hu
    have hw : s.child = .waitParent := by simpa [hu] using (hi.untold ht).2
    exact ⟨hw, read_of_waiting hi ht hw, stuck hi hp ht hw⟩

def silentRun : List Action :=
  [.parent .pipe1, .parent .pipe2, .parent .fork, .parent .setlk, .parent .writeFail]

lemma exec_silentRun : ∃ s, machine.exec start silentRun = some s ∧
    s.parent.hasExited = true ∧ s.told = false ∧ s.child = .waitParent := by
  have hd : (machine.exec start silentRun).map (fun s => (s.parent.hasExited, s.told, s.child)) =
      some (true, false, .waitParent) := by decide
  obtain ⟨s, hs, hd⟩ := Option.map_eq_some_iff.mp hd
  simp only [Prod.mk.injEq] at hd
  exact ⟨s, hs, hd⟩

theorem failure_detected_iff_silent : ∃ s, machine.exec start silentRun = some s ∧
    s.child = .waitParent ∧ s.fd1.read = .blocked ∧ ∀ a, machine.step s a = none := by
  obtain ⟨s, hs, hp, ht, hc⟩ := exec_silentRun
  exact ⟨s, hs, (failure_detected_iff hs).2 hp ht (by simp [hc])⟩

theorem failure_undetected : ¬ ∀ s, machine.Reachable s → Detected s := by
  intro h
  obtain ⟨s, hs, hp, ht, hc⟩ := exec_silentRun
  have hr := Machine.reachable_of_exec rfl hs
  exact not_detected (reachable_inv hr) hp ht hc (h s hr)

end ApueCode.MandatoryLock
