import ApueCode.SigactionSemantics.Restart

/-! When the line printed is right: the signal has to find the parent blocked in `read`. -/

namespace ApueCode.SigactionSemantics

open Posix Transition Machine

variable {sec : Section} {s t : State} {a : Action} {as : List Action}

def VerdictRight (sec : Section) (s : State) : Prop :=
  (sec.notRestart ∈ s.stdout ↔ sec.restarts = false) ∧ (sec.restart ∈ s.stdout ↔ sec.restarts = true)

def Timely (sec : Section) (s : State) (a : Action) : Prop :=
  sec.restarts = true ∨ (a = .deliver → s.parent = .blocked) ∧
    (a = .parent → s.parent = .read ∨ s.parent = .blocked → s.fd.data ≠ [] → s.pending = false)

instance (sec : Section) (s : State) (a : Action) : Decidable (Timely sec s a) := by
  unfold Timely
  infer_instance

structure OnTime (sec : Section) (s : State) : Prop where
  waits : s.child.Quiet → s.parent.Setup ∨ s.parent.Reading
  due : s.parent.Reading → ¬ s.child.Quiet → s.pending = true
  served : s.pending = true → s.parent.Reading
  interrupted : s.parent ≠ .test .byte
  line : s.parent = .closeRead ∨ s.parent = .finished → s.stdout = [sec.notRestart]

def Doomed (sec : Section) (s : State) : Prop :=
  s.parent = .test .byte ∨ (s.parent = .closeRead ∨ s.parent = .finished) ∧ s.stdout = [sec.restart] ∨
    s.parent.Reading ∧ s.pending = false ∧ ¬ s.child.Quiet

lemma onTime_of_quiet (hp : s.parent.Setup ∨ s.parent.Reading) (hc : s.child.Quiet) (hf : s.pending = false) :
    OnTime sec s where
  waits := fun _ => hp
  due := fun _ hn => (hn hc).elim
  served := by simp [hf]
  interrupted := by
    intro hr
    simp [hr, ParentPc.Setup, ParentPc.Reading] at hp
  line := by
    rintro (hl | hl) <;> simp [hl, ParentPc.Setup, ParentPc.Reading] at hp

lemma onTime_start : OnTime sec start :=
  onTime_of_quiet (.inl (.inl rfl)) (.inl rfl) rfl

lemma not_quiet_of_data (h : Inv sec s) (hr : s.parent.Reading) (hd : s.fd.data ≠ []) : ¬ s.child.Quiet :=
  fun hc => hd (h.writer (.inl hc) (h.reader hr).2.2).2

lemma onTime_parentStep (h : Inv sec s) (ho : OnTime sec s) (ha : Timely sec s .parent)
    (hrs : sec.restarts = false) (hs : parentStep sec s = some t) : OnTime sec t := by
  have hread : s.parent = .read ∨ s.parent = .blocked → readByte s = some t → OnTime sec t := by
    intro hp hs
    have hreading : s.parent.Reading := .inr hp
    rcases readByte_cases h hp hs with ⟨c, rest, hd, rfl⟩ | ⟨hd, -, rfl⟩
    · have hne : s.fd.data ≠ [] := by simp [hd]
      have hq := not_quiet_of_data h hreading hne
      rcases ha with hr | ⟨-, hb⟩
      · rw [hrs] at hr
        cases hr
      · have hf := hb rfl hp hne
        rw [ho.due hreading hq] at hf
        cases hf
    · exact {
        waits := fun _ => .inr (.inr (.inr rfl))
        due := fun _ => ho.due hreading
        served := fun _ => .inr (.inr rfl)
        interrupted := by simp
        line := by simp }
  cases hp : s.parent with
  | read => exact hread (.inl hp) (by simpa [parentStep, hp] using hs)
  | blocked => exact hread (.inr hp) (by simpa [parentStep, hp] using hs)
  | finished | exited _ | killed _ => simp [parentStep, hp] at hs
  | signal =>
    simp only [parentStep, hp, Option.some.injEq] at hs
    subst hs
    have hu : s.child.Quiet := .inl (h.unborn (.inl hp))
    exact onTime_of_quiet (.inl (.inr (.inl rfl))) hu (h.quiet hu)
  | pipe =>
    simp only [parentStep, hp, Option.some.injEq] at hs
    subst hs
    have hu : s.child.Quiet := .inl (h.unborn (.inr (.inl hp)))
    exact onTime_of_quiet (.inl (.inr (.inr rfl))) hu (h.quiet hu)
  | fork =>
    simp only [parentStep, hp, Option.some.injEq] at hs
    subst hs
    have hu : s.child.Quiet := .inl (h.unborn (.inr (.inr hp)))
    exact onTime_of_quiet (.inr (.inl rfl)) (.inr (.inl rfl)) (h.quiet hu)
  | closeWrite =>
    simp only [parentStep, hp, Option.some.injEq] at hs
    subst hs
    exact {
      waits := fun _ => .inr (.inr (.inl rfl))
      due := fun _ => ho.due (.inl hp)
      served := fun _ => .inr (.inl rfl)
      interrupted := by simp
      line := by simp }
  | test r =>
    have hout : s.stdout = [] := h.silent (.inr (.inr ⟨r, hp⟩))
    have hlate : s.parent.Setup ∨ s.parent.Reading → OnTime sec t := by simp [hp, ParentPc.Setup, ParentPc.Reading]
    rcases h.result r hp with rfl | ⟨rfl, -⟩
    · exact (ho.interrupted hp).elim
    · simp only [parentStep, hp, if_true, Option.some.injEq] at hs
      subst hs
      exact {
        waits := fun hc => (hlate (ho.waits hc)).waits hc
        due := by simp [State.print, ParentPc.Reading]
        served := fun hpe => (hlate (.inr (ho.served hpe))).served hpe
        interrupted := by simp [State.print]
        line := fun _ => by simp [State.print, hout] }
  | closeRead =>
    have hlate : s.parent.Setup ∨ s.parent.Reading → OnTime sec t := by simp [hp, ParentPc.Setup, ParentPc.Reading]
    have hl := ho.line (.inl hp)
    simp only [parentStep, hp, Option.some.injEq] at hs
    subst hs
    exact {
      waits := fun hc => (hlate (ho.waits hc)).waits hc
      due := by simp [ParentPc.Reading]
      served := fun hpe => (hlate (.inr (ho.served hpe))).served hpe
      interrupted := by simp
      line := fun _ => hl }

lemma onTime_childStep (h : Inv sec s) (ho : OnTime sec s) (hs : childStep s = some t) : OnTime sec t := by
  have hborn : s.child ≠ .unborn → s.child.Quiet → s.parent.Reading := fun hu hc =>
    (ho.waits hc).resolve_left fun hp => hu (h.unborn hp)
  cases hc : s.child with
  | unborn | exited | killed => simp [childStep, hc] at hs
  | closeRead =>
    have hq : s.child.Quiet := .inr (.inl hc)
    simp only [childStep, hc, Option.some.injEq] at hs
    subst hs
    exact onTime_of_quiet (ho.waits hq) (.inr (.inr (.inl rfl))) (h.quiet hq)
  | sleep =>
    have hq : s.child.Quiet := .inr (.inr (.inl hc))
    simp only [childStep, hc, Option.some.injEq] at hs
    subst hs
    exact onTime_of_quiet (ho.waits hq) (.inr (.inr (.inr rfl))) (h.quiet hq)
  | kill =>
    have hp := hborn (by simp [hc]) (.inr (.inr (.inr hc)))
    simp only [childStep, hc, Option.some.injEq] at hs
    subst hs
    exact { ho with
      waits := fun _ => .inr hp
      due := fun _ _ => rfl
      served := fun _ => hp }
  | write =>
    have hn : ¬ s.child.Quiet := by simp [hc, ChildPc.Quiet]
    simp only [childStep, hc] at hs
    split at hs <;> simp only [Option.some.injEq] at hs <;> subst hs
    · exact { ho with
        waits := by simp [ChildPc.Quiet]
        due := fun hp _ => ho.due hp hn }
    · exact { ho with
        waits := by simp [ChildPc.Quiet]
        due := fun hp _ => ho.due hp hn }
  | returning =>
    have hn : ¬ s.child.Quiet := by simp [hc, ChildPc.Quiet]
    simp only [childStep, hc, Option.some.injEq] at hs
    subst hs
    exact { ho with
      waits := by simp [ChildPc.Quiet]
      due := fun hp _ => ho.due hp hn }

lemma onTime_step (h : Inv sec s) (ho : OnTime sec s) (ha : Timely sec s a) (hrs : sec.restarts = false)
    (hs : step sec s a = some t) : OnTime sec t := by
  cases a with
  | parent => exact onTime_parentStep h ho ha hrs hs
  | child => exact onTime_childStep h ho hs
  | deliver =>
    simp only [step, Option.ite_none_right_eq_some, Option.some.injEq] at hs
    obtain ⟨⟨hp, -⟩, rfl⟩ := hs
    have hq := not_quiet_of_pending h hp
    have hb : s.parent = .blocked := by
      rcases ha with hr | ⟨hb, -⟩
      · rw [hrs] at hr
        cases hr
      · exact hb rfl
    rcases deliver_cases h hp with ⟨-, -, heq⟩ | ⟨hn | hr, -⟩
    · rw [heq]
      exact {
        waits := fun hc => (hq hc).elim
        due := by simp [ParentPc.Reading]
        served := by simp
        interrupted := by simp
        line := by simp }
    · exact (hn hb).elim
    · rw [hrs] at hr
      cases hr

lemma invariant_onTime (hrs : sec.restarts = false) :
    (machine sec).Invariant (Timely sec) fun s => Inv sec s ∧ OnTime sec s := by
  apply (invariant.mono fun _ _ _ => trivial).strengthen
  · rintro s rfl
    exact onTime_start
  · intro s a t h _ ho ha hs
    exact onTime_step h ho ha hrs hs

lemma doomed_stable : (machine sec).Stable (fun _ _ => True) (fun s => Inv sec s ∧ Doomed sec s) := by
  rintro s a t ⟨h, hd⟩ - hs
  refine ⟨invariant.step s a t h trivial hs, ?_⟩
  cases a with
  | parent =>
    rcases hd with hp | ⟨hp | hp, hl⟩ | ⟨hp, hf, hq⟩
    · have hout : s.stdout = [] := h.silent (.inr (.inr ⟨_, hp⟩))
      simp only [machine, step, parentStep, hp, Option.some.injEq] at hs
      subst hs
      exact .inr (.inl ⟨.inl rfl, by simp [State.print, hout]⟩)
    · simp only [machine, step, parentStep, hp, Option.some.injEq] at hs
      subst hs
      exact .inr (.inl ⟨.inr rfl, hl⟩)
    · simp [machine, step, parentStep, hp] at hs
    · have hread : s.parent = .read ∨ s.parent = .blocked → readByte s = some t → Doomed sec t := by
        intro hp hs
        rcases readByte_cases h hp hs with ⟨c, rest, -, rfl⟩ | ⟨-, -, rfl⟩
        · exact .inl rfl
        · exact .inr (.inr ⟨.inr (.inr rfl), hf, hq⟩)
      rcases hp with hp | hp | hp
      · simp only [machine, step, parentStep, hp, Option.some.injEq] at hs
        subst hs
        exact .inr (.inr ⟨.inr (.inl rfl), hf, hq⟩)
      · exact hread (.inl hp) (by simpa [machine, step, parentStep, hp] using hs)
      · exact hread (.inr hp) (by simpa [machine, step, parentStep, hp] using hs)
  | child =>
    have hframe : t.parent = s.parent ∧ t.stdout = s.stdout ∧
        (¬ s.child.Quiet → ¬ t.child.Quiet ∧ t.pending = s.pending) := by
      cases hc : s.child <;> simp only [machine, step, childStep, hc, reduceCtorEq, Option.some.injEq] at hs
      case write =>
        split at hs <;> simp only [Option.some.injEq] at hs <;> subst hs <;> simp [ChildPc.Quiet]
      all_goals
        subst hs
        simp [ChildPc.Quiet]
    obtain ⟨hp, hl, hc⟩ := hframe
    rw [Doomed, hp, hl]
    rcases hd with hd | hd | ⟨hr, hf, hq⟩
    · exact .inl hd
    · exact .inr (.inl hd)
    · exact .inr (.inr ⟨hr, (hc hq).2.trans hf, (hc hq).1⟩)
  | deliver =>
    simp only [machine, step, Option.ite_none_right_eq_some, Option.some.injEq] at hs
    obtain ⟨⟨hpe, -⟩, rfl⟩ := hs
    rcases deliver_cases h hpe with ⟨hb, -, -⟩ | ⟨-, heq⟩
    · rcases hd with hp | ⟨hp | hp, -⟩ | ⟨-, hf, -⟩
      · simp [hb] at hp
      · simp [hb] at hp
      · simp [hb] at hp
      · rw [hf] at hpe
        cases hpe
    · rw [heq]
      rcases hd with hd | hd | ⟨-, hf, -⟩
      · exact .inl hd
      · exact .inr (.inl hd)
      · rw [hf] at hpe
        cases hpe

lemma doomed_of_late (h : Inv sec s) (ho : OnTime sec s) (ha : ¬ Timely sec s a) (hs : step sec s a = some t) :
    Doomed sec t := by
  simp only [Timely, not_or, not_and_or, Bool.not_eq_true, Classical.not_imp, Bool.not_eq_false] at ha
  obtain ⟨-, ⟨rfl, hb⟩ | ⟨rfl, hp, hne, hpe⟩⟩ := ha
  · simp only [step, Option.ite_none_right_eq_some, Option.some.injEq] at hs
    obtain ⟨⟨hpe, -⟩, rfl⟩ := hs
    have hq := not_quiet_of_pending h hpe
    rcases deliver_cases h hpe with ⟨hbl, -, -⟩ | ⟨-, heq⟩
    · exact (hb hbl).elim
    · rw [heq]
      exact .inr (.inr ⟨ho.served hpe, rfl, hq⟩)
  · have hs' : readByte s = some t := by
      rcases hp with hp | hp <;> simpa [step, parentStep, hp] using hs
    rcases readByte_cases h hp hs' with ⟨c, rest, -, rfl⟩ | ⟨hd, -, -⟩
    · exact .inl rfl
    · exact (hne hd).elim

def ParentPc.rank : ParentPc → ℕ
  | .signal => 9
  | .pipe => 8
  | .fork => 7
  | .closeWrite => 6
  | .read => 5
  | .blocked => 4
  | .test _ => 3
  | .closeRead => 2
  | .finished => 1
  | .exited _ | .killed _ => 0

def ChildPc.rank : ChildPc → ℕ
  | .unborn => 8
  | .closeRead => 7
  | .sleep => 6
  | .kill => 5
  | .write => 3
  | .returning => 2
  | .exited | .killed => 0

def State.rank (s : State) : ℕ := s.parent.rank + s.child.rank + s.pending.toNat

lemma rank_step (h : Inv sec s) (hs : step sec s a = some t) : t.rank < s.rank := by
  cases a with
  | parent =>
    have hread : s.parent = .read ∨ s.parent = .blocked → readByte s = some t → t.rank < s.rank := by
      intro hp hs
      rcases readByte_cases h hp hs with ⟨c, rest, -, rfl⟩ | ⟨-, hp, rfl⟩
      · rcases hp with hp | hp <;> simp [State.rank, hp, ParentPc.rank]
      · simp [State.rank, hp, ParentPc.rank]
    cases hp : s.parent with
    | read => exact hread (.inl hp) (by simpa [step, parentStep, hp] using hs)
    | blocked => exact hread (.inr hp) (by simpa [step, parentStep, hp] using hs)
    | fork =>
      have hu := h.unborn (.inr (.inr hp))
      simp only [step, parentStep, hp, Option.some.injEq] at hs
      subst hs
      simp only [State.rank, hp, hu, ParentPc.rank, ChildPc.rank]
      omega
    | test r =>
      rcases h.result r hp with rfl | ⟨rfl, -⟩ <;> simp only [step, parentStep, hp, if_true, Option.some.injEq] at hs <;>
        subst hs <;> simp [State.rank, State.print, hp, ParentPc.rank]
    | _ =>
      simp only [step, parentStep, hp, reduceCtorEq, Option.some.injEq] at hs
      all_goals
        subst hs
        simp [State.rank, hp, ParentPc.rank]
  | child =>
    cases hc : s.child with
    | write =>
      simp only [step, childStep, hc] at hs
      split at hs <;> simp only [Option.some.injEq] at hs <;> subst hs <;> simp [State.rank, hc, ChildPc.rank]
    | kill =>
      have hf : s.pending = false := h.quiet (.inr (.inr (.inr hc)))
      simp only [step, childStep, hc, Option.some.injEq] at hs
      subst hs
      simp only [State.rank, hc, hf, ChildPc.rank, Bool.toNat_true, Bool.toNat_false]
      omega
    | _ =>
      simp only [step, childStep, hc, reduceCtorEq, Option.some.injEq] at hs
      all_goals
        subst hs
        simp [State.rank, hc, ChildPc.rank]
  | deliver =>
    simp only [step, Option.ite_none_right_eq_some, Option.some.injEq] at hs
    obtain ⟨⟨hp, -⟩, rfl⟩ := hs
    rcases deliver_cases h hp with ⟨hb, -, heq⟩ | ⟨-, heq⟩ <;> rw [heq]
    · simp only [State.rank, hb, hp, ParentPc.rank, Bool.toNat_true, Bool.toNat_false]
      omega
    · simp [State.rank, hp]

lemma progress (h : Inv sec s) (hp : s.parent ≠ .finished) : ∃ a t, step sec s a = some t := by
  have hread : s.parent = .read ∨ s.parent = .blocked → (readByte s).isSome ∨ (childStep s).isSome := by
    intro hp
    have hreading : s.parent.Reading := .inr hp
    cases hd : s.fd.data with
    | cons c rest => exact .inl (by simp [readByte, Pipe.read, hd])
    | nil =>
      obtain ⟨-, hk, hu⟩ := h.reader hreading
      have hsent := h.sent hreading
      right
      cases hc : s.child with
      | unborn => exact (hu hc).elim
      | exited => exact (hsent (.inr hc) hd).elim
      | killed => exact (hk hc).elim
      | write =>
        simp only [childStep, hc]
        split <;> rfl
      | _ => simp [childStep, hc]
  have halive := h.alive
  cases hpc : s.parent with
  | finished => exact (hp hpc).elim
  | exited _ | killed _ => simp [hpc, ParentPc.hasEnded] at halive
  | read | blocked =>
    have hr := hread (by simp [hpc])
    rcases hr with hr | hr <;> obtain ⟨t, ht⟩ := Option.isSome_iff_exists.mp hr
    · exact ⟨.parent, t, by simpa [step, parentStep, hpc] using ht⟩
    · exact ⟨.child, t, ht⟩
  | test r => cases r <;> exact ⟨.parent, _, by simp only [step, parentStep, hpc]; rfl⟩
  | _ => exact ⟨.parent, _, by simp only [step, parentStep, hpc]; rfl⟩

lemma verdictRight_of_restart (h : s.stdout = [sec.restart]) : VerdictRight sec s ↔ sec.restarts = true := by
  have hd := sec.distinct
  cases hr : sec.restarts <;> simp [VerdictRight, h, hr, hd]

lemma verdictRight_of_notRestart (h : s.stdout = [sec.notRestart]) (hr : sec.restarts = false) :
    VerdictRight sec s := by
  have hd := sec.distinct.symm
  simp [VerdictRight, h, hr, hd]

lemma verdictRight_of_timely (hr : (machine sec).Reach (Timely sec) s) (hp : s.parent = .finished) :
    VerdictRight sec s := by
  cases hrs : sec.restarts with
  | true =>
    have hi : Inv sec s := (invariant.mono fun _ _ _ => trivial).holds hr
    have hl : s.stdout = [sec.restart] := by simpa [hrs] using hi.printed (.inr hp)
    exact (verdictRight_of_restart hl).mpr hrs
  | false =>
    exact verdictRight_of_notRestart (((invariant_onTime hrs).holds hr).2.line (.inr hp)) hrs

/-- A section ends after at most 17 steps. With `SA_RESTART` its line is always right; without it, in the
runs in which the signal interrupts the blocked `read`, and in no other. -/
theorem verdict_right_iff (he : (machine sec).exec start as = some s) :
    as.length ≤ 17 ∧ (s.parent ≠ .finished → ∃ a t, (machine sec).step s a = some t) ∧
      (s.parent = .finished → (VerdictRight sec s ↔ (machine sec).Along (Timely sec) start as)) := by
  have hi : Inv sec s := invariant.holds (reachable_of_exec rfl he)
  refine ⟨?_, progress hi, fun hp => ⟨fun hv => ?_, fun ha => ?_⟩⟩
  · have hstable : (machine sec).Stable (fun _ _ => True) (Inv sec) := invariant.step
    have hle := hstable.exec_length_le State.rank (fun _ _ _ h hs => rank_step h hs) he inv_start
    have hstart : start.rank = 17 := rfl
    omega
  · by_contra hb
    have hrs : sec.restarts = false := by
      by_contra hr
      exact hb ((along_true start as).mono fun _ _ _ => .inl (by simpa using hr))
    obtain ⟨-, hd⟩ := (invariant_onTime hrs).broken
      (fun u a v hu ha hs => ⟨invariant.step u a v hu.1 trivial hs, doomed_of_late hu.1 hu.2 ha hs⟩)
      doomed_stable rfl he hb
    have hline : s.stdout = [sec.restart] := by
      rcases hd with hd | ⟨-, hd⟩ | ⟨hd | hd | hd, -⟩
      · simp [hp] at hd
      · exact hd
      all_goals simp [hp] at hd
    have ht := (verdictRight_of_restart hline).mp hv
    rw [hrs] at ht
    cases ht
  · exact verdictRight_of_timely ((Reach.init rfl).exec ha he) hp

def alrmDefault : Section := sigactionSections.head (by simp [sigactionSections])

def timelyRun : List Action :=
  [.parent, .parent, .parent, .parent, .parent, .child, .child, .child, .deliver, .child, .parent, .parent, .child]

theorem verdict_right_iff_alrm : ∃ s, (machine alrmDefault).exec start timelyRun = some s ∧
    s.parent = .finished ∧ VerdictRight alrmDefault s := by
  have hd : ((machine alrmDefault).exec start timelyRun).map (fun s => s.parent) = some .finished := by decide
  obtain ⟨s, hs, hp⟩ := Option.map_eq_some_iff.mp hd
  exact ⟨s, hs, hp, ((verdict_right_iff hs).2.2 hp).mpr (by decide)⟩

def hastyRun : List Action :=
  [.parent, .parent, .parent, .child, .child, .child, .deliver, .parent, .parent, .child, .parent, .parent, .parent]

theorem restart_misreported : ¬ ∀ as s, (machine alrmDefault).exec start as = some s → s.parent = .finished →
    VerdictRight alrmDefault s := by
  intro h
  have hd : ((machine alrmDefault).exec start hastyRun).map (fun s => (s.parent, s.stdout)) =
      some (.finished, [alrmDefault.restart]) := by decide +kernel
  obtain ⟨s, hs, hd⟩ := Option.map_eq_some_iff.mp hd
  obtain ⟨hp, hl⟩ := Prod.mk.inj hd
  have hr := (verdictRight_of_restart hl).mp (h hastyRun s hs hp)
  exact absurd hr (by decide)

end ApueCode.SigactionSemantics
