import ApueCode.RecordLock.Exclusion

/-! Whether the unlock releases the byte that was locked: `unlock` names whatever range its two members
that are never assigned happen to contain. -/

namespace ApueCode.RecordLock

open Posix Transition

variable {ι : Type} [DecidableEq ι] {sys : System ι} {s t : State ι} {p q : ι} {ty : LockType}
variable {l_start l_len : ℤ} {a : Action ι}

def NamesFirstByte (l_start l_len : ℤ) : Prop :=
  l_start + min l_len 0 = 0 ∧ l_start + max l_len 0 - 1 ≤ OFF_MAX

instance : Decidable (NamesFirstByte l_start l_len) := inferInstanceAs (Decidable (_ ∧ _))

lemma names_iff (offset size : ℕ) : NamesFirstByte l_start l_len ↔
    ∃ r, (unlock l_start l_len).range offset size = some r ∧ r.contains 0 = true := by
  simp only [Flock.range, unlock, zero_add, NamesFirstByte]
  constructor
  · rintro ⟨hfirst, hstop⟩
    rw [if_neg (by omega)]
    refine ⟨_, rfl, ?_⟩
    by_cases hl : l_len = 0
    · have hzero : l_start = 0 := by simpa [hl] using hfirst
      simp [ByteRange.contains, ByteRange.below, hzero, hl]
    · have hpos : 0 < l_start + max l_len 0 := by omega
      simp [ByteRange.contains, ByteRange.below, hfirst, hl, hpos]
  · rintro ⟨r, hr, hc⟩
    split at hr
    · cases hr
    · obtain rfl := Option.some.inj hr
      simp only [ByteRange.contains, Bool.and_eq_true, decide_eq_true_eq] at hc
      omega

def UnlockServed (s : State ι) (a : Action ι) : Prop := ∀ p ty, a = .fail p → s.pc p ≠ .unlock ty

def State.Released (s : State ι) (p : ι) : Prop :=
  s.granted p = true ∧ ∃ ty, Line.release p ty ∈ s.stdout

def State.Unlocked (s : State ι) (p : ι) : Prop :=
  (∀ ty, ¬ s.locks.Holds p ty 0) ∧
    ∀ q ty, s.locks.conflicts q ty firstByte = true → ∃ r ty', r ≠ q ∧ r ≠ p ∧ s.locks.Holds r ty' 0

lemma unlocked_iff : s.Unlocked p ↔ ∀ ty, ¬ s.locks.Holds p ty 0 := by
  refine ⟨And.left, fun h => ⟨h, ?_⟩⟩
  intro q ty hc
  obtain ⟨r, ty', b, hr, hl, hb, -⟩ := LockTable.conflicts_iff.mp hc
  obtain rfl : b = 0 := by simpa [firstByte, ByteRange.contains, ByteRange.below] using hb
  refine ⟨r, ty', hr, ?_, hl⟩
  rintro rfl
  exact h ty' hl

def Pc.Locking (pc : Pc) (ty : LockType) : Prop := pc = .lock ty ∨ pc.Claims ty

def Pc.Done (pc : Pc) : Prop := pc = .returning ∨ ∃ status, pc = .exited status

def Pc.After (pc : Pc) : Prop := (∃ ty, pc = .release ty) ∨ pc.Done

structure Frees (sys : System ι) (s : State ι) (p : ι) : Prop where
  typed : ∀ ty, (s.pc p).Locking ty → lockType (sys.mode p) = some ty
  freed : (s.pc p).After → ∀ ty, ¬ s.locks.Holds p ty 0
  printed : ∀ ty, Line.release p ty ∈ s.stdout → (s.pc p).Done

def Action.proc : Action ι → ι
  | .run p | .fail p => p

lemma step_frame (h : Step sys s a t) (hq : q ≠ a.proc) : t.pc q = s.pc q ∧
    (∀ ty, t.locks.Holds q ty 0 → s.locks.Holds q ty 0) ∧
    (∀ ty, Line.release q ty ∈ t.stdout → Line.release q ty ∈ s.stdout) := by
  have hpc : ∀ (u : State ι) (pc : Pc), (u.goto a.proc pc).pc q = u.pc q := fun u pc => goto_pc_other pc hq
  cases h with
  | opened _ _ | refused _ | sleep _ | unlockFail _ => exact ⟨hpc s _, fun _ => id, fun _ => id⟩
  | usage _ _ | openFail _ | returning _ =>
    exact ⟨hpc _ _, fun _ hl => (LockTable.holds_dropAll.mp hl).1, fun _ => id⟩
  | granted _ hl =>
    obtain ⟨-, rfl⟩ := setlk_lock.mp hl
    refine ⟨hpc _ _, ?_, fun _ => id⟩
    intro ty hb
    rcases LockTable.holds_acquire.mp hb with ⟨hp, -⟩ | ⟨hb, -⟩
    · exact (hq hp).elim
    · exact hb
  | @get p ty _ =>
    refine ⟨hpc _ _, fun _ => id, ?_⟩
    intro ty' hm
    simpa [State.print, State.goto] using hm
  | @release p ty _ =>
    refine ⟨hpc _ _, fun _ => id, ?_⟩
    intro ty' hm
    have hne : q ≠ p := hq
    simpa [State.print, State.goto, hne] using hm
  | @unlock p ty _ =>
    refine ⟨hpc _ _, ?_, fun _ => id⟩
    intro ty' hb
    rcases setlk_unlock (p := p) s.locks (sys.l_start p) (sys.l_len p) 0 sys.size with hu | ⟨r, hu⟩
    · rw [hu] at hb
      exact hb
    · rw [hu] at hb
      exact (LockTable.holds_release.mp hb).1

lemma frees_other (h : Frees sys s q) (hs : Step sys s a t) (hq : q ≠ a.proc) : Frees sys t q := by
  obtain ⟨hpc, hl, ho⟩ := step_frame hs hq
  constructor
  · rw [hpc]
    exact h.typed
  · rw [hpc]
    exact fun ha ty hb => h.freed ha ty (hl ty hb)
  · rw [hpc]
    exact fun ty hm => h.printed ty (ho ty hm)

lemma unlock_frees (hn : NamesFirstByte l_start l_len) (locks : LockTable ι) (size : ℕ) (ty : LockType) :
    ¬ LockTable.Holds (((unlock l_start l_len).setlk locks p 0 size).getD locks) p ty 0 := by
  obtain ⟨r, hr, hc⟩ := (names_iff 0 size).mp hn
  have hu : (unlock l_start l_len).setlk locks p 0 size = some (locks.release p r) := by
    simp only [Flock.setlk, hr]
    rfl
  rw [hu]
  intro hl
  have hno := (LockTable.holds_release.mp hl).2 rfl
  rw [hc] at hno
  cases hno

lemma frees_goto {pc : Pc} (ht : ∀ ty, pc.Locking ty → lockType (sys.mode p) = some ty)
    (hf : pc.After → ∀ ty, ¬ s.locks.Holds p ty 0)
    (hp : ∀ ty, Line.release p ty ∈ s.stdout → pc.Done) : Frees sys (s.goto p pc) p where
  typed := by
    rw [goto_pc_self]
    exact ht
  freed := by
    rw [goto_pc_self]
    exact hf
  printed := by
    rw [goto_pc_self]
    exact hp

lemma frees_before {pc : Pc} (h : Frees sys s p) (hd : ¬ (s.pc p).Done)
    (ho : ∀ ty, Line.release p ty ∈ t.stdout → Line.release p ty ∈ s.stdout) (hl : pc.Locking ty)
    (hm : lockType (sys.mode p) = some ty) : Frees sys (t.goto p pc) p := by
  apply frees_goto
  · intro ty' hl'
    have he : ty' = ty := by
      rcases hl with rfl | rfl | rfl | rfl <;> simpa [Pc.Locking, Pc.Claims, eq_comm] using hl'
    rw [he, hm]
  · intro ha
    rcases hl with rfl | rfl | rfl | rfl <;> simp [Pc.After, Pc.Done] at ha
  · intro ty' hr
    exact (hd (h.printed ty' (ho ty' hr))).elim

lemma frees_exit (status : ℕ) : Frees sys (s.exit p status) p := by
  apply frees_goto
  · intro ty hl
    simp [Pc.Locking, Pc.Claims] at hl
  · intro _ ty hb
    exact (LockTable.holds_dropAll.mp hb).2 rfl
  · exact fun _ _ => .inr ⟨status, rfl⟩

lemma frees_actor (hn : ∀ p ty, lockType (sys.mode p) = some ty → NamesFirstByte (sys.l_start p) (sys.l_len p))
    (h : Frees sys s a.proc) (hs : Step sys s a t) (ha : UnlockServed s a) : Frees sys t a.proc := by
  cases hs with
  | @opened p ty hpc hm => exact frees_before h (by simp [hpc, Pc.Done]) (fun _ => id) (.inl rfl) hm
  | usage _ _ | openFail _ | returning _ => exact frees_exit _
  | @granted p ty _ hpc _ | @refused p ty hpc =>
    exact frees_before h (by simp [hpc, Pc.Done]) (fun _ => id) (.inr (.inl rfl)) (h.typed ty (.inl hpc))
  | @get p ty hpc =>
    refine frees_before h (by simp [hpc, Pc.Done]) ?_ (.inr (.inr (.inl rfl))) (h.typed ty (.inr (.inl hpc)))
    intro ty' hm
    simpa [State.print] using hm
  | @sleep p ty hpc =>
    exact frees_before h (by simp [hpc, Pc.Done]) (fun _ => id) (.inr (.inr (.inr rfl)))
      (h.typed ty (.inr (.inr (.inl hpc))))
  | @unlock p ty hpc =>
    have hm := h.typed ty (.inr (.inr (.inr hpc)))
    apply frees_goto
    · intro ty' hl
      simp [Pc.Locking, Pc.Claims] at hl
    · intro _ ty'
      exact unlock_frees (hn p ty hm) s.locks sys.size ty'
    · intro ty' hr
      have hd := h.printed ty' hr
      simp [Action.proc, hpc, Pc.Done] at hd
  | @unlockFail p ty hpc => exact (ha p ty rfl hpc).elim
  | @release p ty hpc =>
    apply frees_goto
    · intro ty' hl
      simp [Pc.Locking, Pc.Claims] at hl
    · intro _
      exact h.freed (.inl ⟨ty, hpc⟩)
    · exact fun _ _ => .inl rfl

lemma frees_step (hn : ∀ p ty, lockType (sys.mode p) = some ty → NamesFirstByte (sys.l_start p) (sys.l_len p))
    (h : ∀ p, Frees sys s p) (hs : Step sys s a t) (ha : UnlockServed s a) (p : ι) : Frees sys t p := by
  by_cases hp : p = a.proc
  · rw [hp]
    exact frees_actor hn (h _) hs ha
  · exact frees_other (h p) hs hp

theorem invariant_frees
    (hn : ∀ p ty, lockType (sys.mode p) = some ty → NamesFirstByte (sys.l_start p) (sys.l_len p)) :
    (machine sys).Invariant UnlockServed (fun s => ∀ p, Frees sys s p) where
  base := by
    rintro s rfl p
    constructor <;> simp [start, Pc.Locking, Pc.Claims, Pc.After, Pc.Done]
  step s a t h ha hs := frees_step hn h (step_cases hs) ha

def toRelease (p : ι) : List (Action ι) := List.replicate 6 (.run p)

lemma exec_toRelease (hm : lockType (sys.mode p) = some ty) :
    ∃ s, (machine sys).exec start (toRelease p) = some s ∧ s.Released p ∧
      s.locks = ((unlock (sys.l_start p) (sys.l_len p)).setlk [⟨p, ty, firstByte⟩] p 0 sys.size).getD
        [⟨p, ty, firstByte⟩] := by
  let held : LockTable ι := [⟨p, ty, firstByte⟩]
  have hl : (lock ty).setlk [] p 0 sys.size = some held := setlk_lock.mpr ⟨rfl, rfl⟩
  let opened : State ι := start.goto p (.lock ty)
  let got := (opened.grant p held).goto p (.get ty)
  let slept := ((got.print (.get p ty)).goto p (.sleep ty)).goto p (.unlock ty)
  let freed := { slept with
    locks := ((unlock (sys.l_start p) (sys.l_len p)).setlk held p 0 sys.size).getD held }.goto p (.release ty)
  let ended := (freed.print (.release p ty)).goto p .returning
  have h₁ : step sys start (.run p) = some opened := by simp [step, start, hm, opened]
  have h₂ : step sys opened (.run p) = some got := by
    have hpc : opened.pc p = .lock ty := goto_pc_self _
    have hk : opened.locks = [] := rfl
    simp [step, hpc, hk, hl, got]
  have h₃ : step sys got (.run p) = some ((got.print (.get p ty)).goto p (.sleep ty)) := by
    have hpc : got.pc p = .get ty := goto_pc_self _
    simp [step, hpc]
  have h₄ : step sys ((got.print (.get p ty)).goto p (.sleep ty)) (.run p) = some slept := by
    simp [step, slept]
  have h₅ : step sys slept (.run p) = some freed := by
    have hpc : slept.pc p = .unlock ty := goto_pc_self _
    have hk : slept.locks = held := rfl
    simp [step, hpc, hk, freed]
  have h₆ : step sys freed (.run p) = some ended := by
    have hpc : freed.pc p = .release ty := goto_pc_self _
    simp [step, hpc, ended]
  refine ⟨ended, ?_, ⟨?_, ty, ?_⟩, rfl⟩
  · simp [toRelease, List.replicate, machine, h₁, h₂, h₃, h₄, h₅, h₆]
  · simp [ended, freed, slept, got, State.print, State.grant]
  · simp [ended, State.print, State.goto]

lemma along_toRelease (s : State ι) : (machine sys).Along UnlockServed s (toRelease p) := by
  apply Machine.Along.mono (Machine.along_of_forall (C := fun a => ∀ q, a ≠ .fail q) (by simp [toRelease]))
  intro u a hr q ty hf
  exact (hr q hf).elim

lemma holds_of_not_names (hn : ¬ NamesFirstByte l_start l_len) (size : ℕ) :
    LockTable.Holds (((unlock l_start l_len).setlk [⟨p, ty, firstByte⟩] p 0 size).getD [⟨p, ty, firstByte⟩])
      p ty 0 := by
  have hold : LockTable.Holds [⟨p, ty, firstByte⟩] p ty 0 := ⟨_, List.mem_singleton_self _, rfl, rfl, rfl⟩
  cases hr : (unlock l_start l_len).range 0 size with
  | none => simpa [Flock.setlk, hr] using hold
  | some r =>
    have hu : (unlock l_start l_len).setlk [⟨p, ty, firstByte⟩] p 0 size =
        some (LockTable.release [⟨p, ty, firstByte⟩] p r) := by
      simp only [Flock.setlk, hr]
      rfl
    rw [hu]
    refine LockTable.holds_release.mpr ⟨hold, fun _ => ?_⟩
    by_contra hc
    exact hn ((names_iff 0 size).mpr ⟨r, hr, by simpa using hc⟩)

/-- A process that has printed `release` is without a lock on the first byte, in every run in which the
kernel serves the unlock requests, if and only if the members of `unlock` that are never assigned happen
to name that byte in every process. -/
theorem unlock_releases_iff (sys : System ι) :
    (∀ s, (machine sys).Reach UnlockServed s → ∀ p, s.Released p → s.Unlocked p) ↔
      ∀ p, (lockType (sys.mode p)).isSome → NamesFirstByte (sys.l_start p) (sys.l_len p) := by
  constructor
  · intro h p hp
    obtain ⟨ty, hm⟩ := Option.isSome_iff_exists.mp hp
    obtain ⟨s, hs, hrel, hlocks⟩ := exec_toRelease hm
    by_contra hn
    have hfree := (h s ((Machine.Reach.init rfl).exec (along_toRelease start) hs) p hrel).1 ty
    rw [hlocks] at hfree
    exact hfree (holds_of_not_names hn sys.size)
  · intro h s hs p hrel
    have hn : ∀ p ty, lockType (sys.mode p) = some ty → NamesFirstByte (sys.l_start p) (sys.l_len p) :=
      fun p ty hm => h p (by simp [hm])
    have hf := (invariant_frees hn).holds hs p
    obtain ⟨-, ty, hm⟩ := hrel
    exact unlocked_iff.mpr (hf.freed (.inr (hf.printed ty hm)))

def garbled : System Unit := ⟨fun _ => 119, fun _ => 1, fun _ => 1, 2⟩

theorem unlock_keeps_lock :
    ¬ ∀ s, (machine garbled).Reach UnlockServed s → ∀ p, s.Released p → s.Unlocked p := by
  intro h
  have hx : ((machine garbled).exec start (toRelease ())).map (fun s => (s.granted (), s.stdout,
      decide (s.locks.Holds () .write 0))) = some (true, [.get () .write, .release () .write], true) := by
    decide
  obtain ⟨s, hs, hx⟩ := Option.map_eq_some_iff.mp hx
  simp only [Prod.mk.injEq, decide_eq_true_eq] at hx
  obtain ⟨hg, ho, hl⟩ := hx
  have hrel : s.Released () := ⟨hg, .write, by simp [ho]⟩
  exact (h s ((Machine.Reach.init rfl).exec (along_toRelease start) hs) () hrel).1 .write hl

end ApueCode.RecordLock
