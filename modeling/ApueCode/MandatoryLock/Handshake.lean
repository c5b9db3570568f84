import ApueCode.MandatoryLock.Model

/-! What the byte in the pipe tells the child: the parent has the lock and keeps it. -/

namespace ApueCode.MandatoryLock

open Posix Transition

variable {s t : State} {a : Action}

structure Inv (s : State) : Prop where
  early : s.parent = .pipe1 ∨ s.parent = .pipe2 ∨ s.parent = .fork → s.child = .unborn
  creator : s.parent = .pipe2 ∨ s.parent = .fork → Proc.parent ∈ s.fd1.writers
  free : s.parent = .pipe1 ∨ s.parent = .pipe2 ∨ s.parent = .fork ∨ s.parent = .setlk → s.locks = []
  born : s.parent = .setlk ∨ s.parent = .tellChild → s.child = .waitParent
  lock : s.parent = .tellChild ∨ s.parent = .waitpid → ∀ b, s.locks.Holds .parent .write b
  waiting : s.parent = .waitpid → s.told = true
  told : s.told = true → s.parent = .waitpid ∨ s.parent.hasExited = true ∧ s.child.hasExited = true
  untold : s.told = false → s.fd1.data = [] ∧ (s.child = .unborn ∨ s.child = .waitParent)
  writer : s.child = .waitParent → Proc.child ∈ s.fd1.writers
  refused : s.child ≠ .succeeded

lemma inv_start : Inv start where
  early := fun _ => rfl
  creator := by simp [start]
  free := fun _ => rfl
  born := by simp [start]
  lock := by simp [start]
  waiting := by simp [start]
  told := by simp [start]
  untold := fun _ => ⟨rfl, .inl rfl⟩
  writer := by simp [start]
  refused := by simp [start]

lemma wholeFile_range (ty : Option LockType) (offset size : ℕ) :
    (⟨ty, .SEEK_SET, 0, 0⟩ : Flock).range offset size = some ⟨0, none⟩ := by
  simp [Flock.range, OFF_MAX]

lemma fcntl_writeLock {locks : LockTable Proc} (h : fcntl s .parent writeLock = some locks) (b : ℕ) :
    locks.Holds .parent .write b := by
  simp only [fcntl, Flock.setlk, writeLock, wholeFile_range, F_WRLCK] at h
  split at h
  · cases h
  · rw [← Option.some.inj h]
    apply LockTable.holds_acquire.mpr
    exact .inl ⟨rfl, rfl, by simp [ByteRange.contains, ByteRange.below]⟩

lemma fcntl_readLock (h : s.locks.Holds .parent .write 0) : fcntl s .child readLock = none := by
  have hc : s.locks.conflicts .child .read ⟨0, none⟩ = true :=
    LockTable.conflicts_iff.mpr ⟨.parent, .write, 0, by simp, h, rfl, .inl rfl⟩
  simp [fcntl, Flock.setlk, readLock, wholeFile_range, F_RDLCK, hc]

lemma told_eq_false (h : Inv s) (hw : s.parent ≠ .waitpid) (he : s.parent.hasExited = false) :
    s.told = false := by
  by_contra ht
  rcases h.told (by simpa using ht) with hp | ⟨hp, -⟩
  · exact hw hp
  · rw [he] at hp
    cases hp

lemma told_of_child (h : Inv s) (hu : s.child ≠ .unborn) (hw : s.child ≠ .waitParent) : s.told = true := by
  by_contra ht
  rcases (h.untold (by simpa using ht)).2 with hc | hc
  · exact hu hc
  · exact hw hc

lemma parent_waits (h : Inv s) (ht : s.told = true) (he : s.child.hasExited = false) :
    s.parent = .waitpid := by
  rcases h.told ht with hp | ⟨-, hc⟩
  · exact hp
  · rw [he] at hc
    cases hc

lemma inv_exitParent {status : ℕ} {msg : List String} (h : Inv s)
    (hp : s.told = true → s.child.hasExited = true) : Inv (s.exitParent status msg) where
  early := by simp [State.exitParent]
  creator := by simp [State.exitParent]
  free := by simp [State.exitParent]
  born := by simp [State.exitParent]
  lock := by simp [State.exitParent]
  waiting := by simp [State.exitParent]
  told := fun ht => .inr ⟨rfl, hp ht⟩
  untold := h.untold
  writer hc := Finset.mem_erase.mpr ⟨by simp, h.writer hc⟩
  refused := h.refused

lemma inv_parentFail {pc : ParentPc} {msg : String} (h : Inv s) (hpc : pc ≠ .waitpid)
    (he : pc.hasExited = false) (hs : parentFail s pc msg = some t) : Inv t := by
  simp only [parentFail, Option.ite_none_right_eq_some, Option.some.injEq] at hs
  obtain ⟨hp, rfl⟩ := hs
  apply inv_exitParent h
  intro ht
  have hf := told_eq_false h (hp ▸ hpc) (hp ▸ he)
  rw [ht] at hf
  cases hf

lemma inv_fork (h : Inv s) (hp : s.parent = .fork) :
    Inv { s with
      fd1 := s.fd1.fork .parent .child
      fd2 := s.fd2.fork .parent .child
      parent := .setlk
      child := .waitParent } where
  early := by simp
  creator := by simp
  free _ := h.free (.inr (.inr (.inl hp)))
  born _ := rfl
  lock := by simp
  waiting := by simp
  told ht := by
    have hf := told_eq_false h (by simp [hp]) (by simp [hp, ParentPc.hasExited])
    rw [hf] at ht
    cases ht
  untold ht := ⟨(h.untold ht).1, .inr rfl⟩
  writer _ := (Pipe.mem_fork_writers (h.creator (.inr hp))).2
  refused := by simp

lemma inv_setlk {locks : LockTable Proc} (h : Inv s) (hp : s.parent = .setlk)
    (hl : fcntl s .parent writeLock = some locks) :
    Inv { s with locks := locks, parent := .tellChild } := by
  have hf := told_eq_false h (by simp [hp]) (by simp [hp, ParentPc.hasExited])
  exact { h with
    early := by simp
    creator := by simp
    free := by simp
    born := fun _ => h.born (.inl hp)
    lock := fun _ => fcntl_writeLock hl
    waiting := by simp
    told := by simp [hf] }

lemma inv_write (h : Inv s) (hp : s.parent = .tellChild) :
    Inv { s with fd1 := s.fd1.put 112, told := true, parent := .waitpid } :=
  { h with
    early := by simp
    creator := by simp
    free := by simp
    born := by simp
    lock := fun _ => h.lock (.inl hp)
    waiting := fun _ => rfl
    told := fun _ => .inl rfl
    untold := by simp }

lemma inv_parentStep {a : ParentAction} (h : Inv s) (hs : parentStep s a = some t) : Inv t := by
  cases a with
  | pipe1 =>
    obtain ⟨hp, rfl⟩ := by simpa [parentStep] using hs
    have hc := h.early (.inl hp)
    have hf := told_eq_false h (by simp [hp]) (by simp [hp, ParentPc.hasExited])
    exact { h with
      early := fun _ => hc
      creator := by simp
      free := fun _ => h.free (.inl hp)
      born := by simp
      lock := by simp
      waiting := by simp
      told := by simp [hf]
      untold := fun _ => ⟨rfl, .inl hc⟩
      writer := by simp [hc] }
  | pipe2 =>
    obtain ⟨hp, rfl⟩ := by simpa [parentStep] using hs
    have hc := h.early (.inr (.inl hp))
    have hf := told_eq_false h (by simp [hp]) (by simp [hp, ParentPc.hasExited])
    exact { h with
      early := fun _ => hc
      creator := fun _ => h.creator (.inl hp)
      free := fun _ => h.free (.inr (.inl hp))
      born := by simp
      lock := by simp
      waiting := by simp
      told := by simp [hf] }
  | fork =>
    obtain ⟨hp, rfl⟩ := by simpa [parentStep] using hs
    exact inv_fork h hp
  | setlk =>
    simp only [parentStep, Option.ite_none_right_eq_some, Option.some.injEq] at hs
    obtain ⟨hp, rfl⟩ := hs
    cases hl : fcntl s .parent writeLock with
    | some locks => exact inv_setlk h hp hl
    | none =>
      apply inv_exitParent h
      simp [told_eq_false h (by simp [hp]) (by simp [hp, ParentPc.hasExited])]
  | write =>
    obtain ⟨⟨hp, -⟩, rfl⟩ := by simpa [parentStep] using hs
    exact inv_write h hp
  | pipe1Fail | pipe2Fail | forkFail | setlkFail | writeFail => exact inv_parentFail h (by simp) rfl hs
  | waitpid | waitpidFail =>
    obtain ⟨⟨hp, he⟩, rfl⟩ := by simpa [parentStep] using hs
    exact inv_exitParent h fun _ => he

lemma holds_close_child (s : State) (h : ∀ b, s.locks.Holds .parent .write b) (b : ℕ) :
    (s.close .child).locks.Holds .parent .write b :=
  LockTable.holds_dropAll.mpr ⟨h b, by simp⟩

lemma inv_exitChild {status : ℕ} {out msg : List String} (h : Inv s) (ht : s.told = true)
    (he : s.child.hasExited = false) : Inv ({ s with stdout := out }.exitChild status msg) := by
  have hp := parent_waits h ht he
  exact {
    early := by simp [State.exitChild, State.close, hp]
    creator := by simp [State.exitChild, State.close, hp]
    free := by simp [State.exitChild, State.close, hp]
    born := by simp [State.exitChild, State.close, hp]
    lock := fun _ => holds_close_child s (h.lock (.inr hp))
    waiting := h.waiting
    told := fun _ => .inl hp
    untold := by simp [State.exitChild, State.close, ht]
    writer := by simp [State.exitChild]
    refused := by simp [State.exitChild] }

lemma inv_childFail {pc : ChildPc} {msg : String} (h : Inv s) (hu : pc ≠ .unborn) (hw : pc ≠ .waitParent)
    (he : pc.hasExited = false) (hs : childFail s pc msg = some t) : Inv t := by
  simp only [childFail, Option.ite_none_right_eq_some, Option.some.injEq] at hs
  obtain ⟨hp, rfl⟩ := hs
  exact inv_exitChild h (told_of_child h (hp ▸ hu) (hp ▸ hw)) (hp ▸ he)

lemma inv_child {pc : ChildPc} {out : List String} (h : Inv s) (ht : s.told = true)
    (he : s.child.hasExited = false) (hw : pc ≠ .waitParent) (hr : pc ≠ .succeeded) :
    Inv { s with stdout := out, child := pc } := by
  have hp := parent_waits h ht he
  exact { h with
    early := by simp [hp]
    born := by simp [hp]
    told := fun _ => .inl hp
    untold := by simp [ht]
    writer := fun hc => (hw hc).elim
    refused := hr }

lemma inv_readByte (h : Inv s) (hc : s.child = .waitParent) (hs : waitParent s = some t) : Inv t := by
  have hw := h.writer hc
  cases hd : s.fd1.data with
  | nil =>
    have hb : s.fd1.read = .blocked := Pipe.read_blocked.mpr ⟨hd, Finset.ne_empty_of_mem hw⟩
    simp [waitParent, hb] at hs
  | cons b bs =>
    simp only [waitParent, Pipe.read, hd, Option.some.injEq] at hs
    subst hs
    have ht : s.told = true := by
      by_contra ht
      simp [(h.untold (by simpa using ht)).1] at hd
    have hi : Inv { s with stdout := s.stdout, child := .getfl } :=
      inv_child h ht (by simp [hc, ChildPc.hasExited]) (by simp) (by simp)
    exact { hi with
      untold := by simp [ht]
      writer := by simp }

lemma inv_childStep {a : ChildAction} (h : Inv s) (hs : childStep s a = some t) : Inv t := by
  have hgo : s.child ≠ .unborn → s.child ≠ .waitParent → s.child.hasExited = false →
      ∀ pc out, pc ≠ .waitParent → pc ≠ .succeeded → Inv { s with stdout := out, child := pc } :=
    fun hu hw he pc out => inv_child h (told_of_child h hu hw) he
  cases a with
  | readByte =>
    simp only [childStep, Option.ite_none_right_eq_some] at hs
    exact inv_readByte h hs.1 hs.2
  | getfl | setfl | lseek | setlkFail =>
    obtain ⟨hc, rfl⟩ := by simpa [childStep] using hs
    apply hgo <;> simp [hc, ChildPc.hasExited]
  | setlk =>
    simp only [childStep, Option.ite_none_right_eq_some, Option.some.injEq] at hs
    obtain ⟨hc, rfl⟩ := hs
    have hp := parent_waits h (told_of_child h (by simp [hc]) (by simp [hc])) (by simp [hc, ChildPc.hasExited])
    rw [fcntl_readLock (h.lock (.inr hp) 0)]
    apply hgo <;> simp [hc, ChildPc.hasExited]
  | getflFail | setflFail | report | lseekFail => exact inv_childFail h (by simp) (by simp) rfl hs
  | read | readFail =>
    obtain ⟨hc, rfl⟩ := by simpa [childStep] using hs
    exact inv_exitChild h (told_of_child h (by simp [hc]) (by simp [hc])) (by simp [hc, ChildPc.hasExited])

theorem invariant : machine.Invariant (fun _ _ => True) Inv where
  base := by
    rintro s rfl
    exact inv_start
  step s a t h _ hs := by
    cases a with
    | parent a => exact inv_parentStep h hs
    | child a => exact inv_childStep h hs

lemma reachable_inv (h : machine.Reachable s) : Inv s := invariant.holds h

/-- The read lock of the child meets the write lock of a parent that waits for the child. -/
theorem read_lock_refused (h : machine.Reachable s) :
    (s.child = .setlk → s.parent.hasExited = false ∧ (∀ b, s.locks.Holds .parent .write b) ∧
      fcntl s .child readLock = none) ∧
    s.child ≠ .succeeded := by
  have hi := reachable_inv h
  refine ⟨?_, hi.refused⟩
  intro hc
  have ht := told_of_child hi (by simp [hc]) (by simp [hc])
  have hp := parent_waits hi ht (by simp [hc, ChildPc.hasExited])
  have hl := hi.lock (.inr hp)
  exact ⟨by simp [hp, ParentPc.hasExited], hl, fcntl_readLock (hl 0)⟩

def toReadLock : List Action :=
  [.parent .pipe1, .parent .pipe2, .parent .fork, .parent .setlk, .parent .write, .child .readByte,
    .child .getfl, .child .setfl]

theorem read_lock_refused_run : ∃ s, machine.exec start toReadLock = some s ∧ s.child = .setlk ∧
    s.parent.hasExited = false ∧ fcntl s .child readLock = none := by
  have hd : (machine.exec start toReadLock).map State.child = some .setlk := by decide
  obtain ⟨s, hs, hc⟩ := Option.map_eq_some_iff.mp hd
  obtain ⟨hp, -, hf⟩ := (read_lock_refused (Machine.reachable_of_exec rfl hs)).1 hc
  exact ⟨s, hs, hc, hp, hf⟩

end ApueCode.MandatoryLock
