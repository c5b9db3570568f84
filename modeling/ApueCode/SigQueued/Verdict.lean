import ApueCode.SigQueued.Count

/-! When the verdict of the experiment is right: no `SIGQUIT` may interrupt the `sigsuspend`. -/

namespace ApueCode.SigQueued

open Posix Transition

variable {d : Discipline} {inherited : Mask} {s t : State} {a : Action}

def Undisturbed (d : Discipline) (s : State) (a : Action) : Prop :=
  a ≠ .otherQuit ∧ match d with
    | .single => a = .deliver .SIGQUIT → ¬ ∃ f ∈ s.ctx.frames, f.pc.Suspended
    | .queued => a = .run → s.ctx.frames = [] → s.main = .test2 →
        s.pending .SIGQUIT = 0 ∨ .SIGQUIT ∈ s.ctx.mask

instance : Decidable (Undisturbed d s a) :=
  match d with
  | .single => inferInstanceAs (Decidable (_ ∧ (_ → ¬ ∃ f ∈ s.ctx.frames, f.pc.Suspended)))
  | .queued => inferInstanceAs (Decidable (_ ∧ (_ → _ → _ → (_ ∨ _))))

structure Single (s : State) : Prop where
  fresh : s.Fresh → s.handled = 0
  pending : s.pending .SIGQUIT ≤ 1
  count : s.handled ≤ 1 ∨ ¬ s.Waits ∧ s.handled + s.pending .SIGQUIT ≤ 2

lemma single_start : Single (start inherited) where
  fresh := fun _ => rfl
  pending := by simp [start]
  count := .inl (by simp [start, State.handled])

lemma single_step (hi : Inv inherited s) (h : Single s) (he : Effect .single s t a)
    (hal : s.main.hasEnded = false) (ha : Undisturbed .single s a) : Single t := by
  have hfr := h.fresh
  have hpe := h.pending
  have hco := h.count
  cases he with
  | quiet hh hp _ hw hf =>
    refine ⟨?_, ?_, ?_⟩
    · intro ht
      rw [hh]
      exact hfr (hf ht)
    · rw [hp]
      exact hpe
    · rw [hh, hp]
      exact hco.imp_right fun hc => ⟨fun ht => hc.1 (hw ht), hc.2⟩
  | handle hpos hm hh hp _ hw hne =>
    obtain ⟨left, hph, -, -⟩ := hi.phase hal
    refine ⟨fun ht => (hne ht.2).elim, by omega, ?_⟩
    cases left with
    | false =>
      rcases phase_quit hph hm with hq | hq
      · left
        rw [hh, hfr hq]
      · exact (ha.2 rfl hq).elim
    | true =>
      have hnw : ¬ s.Waits := by
        rw [waits_iff hal hph]
        simp
      right
      refine ⟨fun ht => hnw (hw ht), ?_⟩
      omega
  | send hc hh hp _ hw hf =>
    obtain ⟨left, hph, hl, -⟩ := hi.phase hal
    refine ⟨?_, ?_, ?_⟩
    · intro ht
      rw [hh]
      exact hfr (hf ht)
    · rw [hp]
      exact Pending.post_single_le hpe
    · rw [hh]
      refine .inl (hco.resolve_right ?_)
      rintro ⟨hnw, -⟩
      rw [waits_iff hal hph] at hnw
      exact hc (hl (by simpa using hnw))

structure Queued (s : State) : Prop where
  fresh : s.Fresh → s.handled = 0
  count : s.handled + s.pending .SIGQUIT = s.sent

lemma queued_start : Queued (start inherited) where
  fresh := fun _ => rfl
  count := rfl

lemma queued_step (h : Queued s) (he : Effect .queued s t a) : Queued t := by
  have hco := h.count
  cases he with
  | quiet hh hp hse _ hf =>
    refine ⟨fun ht => ?_, by omega⟩
    rw [hh]
    exact h.fresh (hf ht)
  | handle hpos _ hh hp hse _ hne => exact ⟨fun ht => (hne ht.2).elim, by omega⟩
  | send _ hh hp hse _ hf =>
    rw [Pending.post_queued] at hp
    refine ⟨fun ht => ?_, by omega⟩
    rw [hh]
    exact h.fresh (hf ht)

lemma count_line (n : ℕ) : s!"sigcount: {n}\n" ≠ "Signal is queued\n" ∧
    s!"sigcount: {n}\n" ≠ "Signal is NOT queued\n" := by
  have hline : s!"sigcount: {n}\n" = "sigcount: " ++ toString n ++ "\n" := rfl
  rw [hline]
  constructor <;> intro h <;> simpa using congrArg (fun line => line.toList.head?) h

lemma mainStep_stdout (hs : mainStep s = some t) :
    ("Signal is NOT queued\n" ∈ t.stdout →
      "Signal is NOT queued\n" ∈ s.stdout ∨ s.main = .test2 ∧ s.sigcount = 2) ∧
    ("Signal is queued\n" ∈ t.stdout → "Signal is queued\n" ∈ s.stdout ∨ s.main = .test4 ∧ s.sigcount = 4) := by
  cases hp : s.main with
  | exited | killed => simp [mainStep, hp] at hs
  | test2 | test4 =>
    simp only [mainStep, hp, Option.some.injEq] at hs
    subst hs
    split <;> simp_all [State.print]
  | count =>
    simp only [mainStep, hp, Option.some.injEq] at hs
    subst hs
    obtain ⟨hq, hn⟩ := count_line s.sigcount
    simp only [State.print, List.mem_append, List.mem_singleton]
    exact ⟨fun hm => hm.elim .inl fun he => (hn he.symm).elim,
      fun hm => hm.elim .inl fun he => (hq he.symm).elim⟩
  | _ =>
    simp only [mainStep, hp, Option.some.injEq] at hs
    subst hs
    exact ⟨.inl, .inl⟩

lemma step_stdout (hs : step d s a = some t) :
    t.stdout = s.stdout ∨ a = .run ∧ s.ctx.frames = [] ∧ mainStep s = some t := by
  cases a with
  | run =>
    simp only [step] at hs
    cases hf : s.ctx.frames with
    | nil => exact .inr ⟨rfl, rfl, by simpa [hf] using hs⟩
    | cons f fs => exact .inl (handlerStep_frame (by simpa [hf] using hs)).2.2.2.2.2.2
  | fail =>
    obtain rfl := fail_eq hs
    exact .inl rfl
  | deliver x =>
    simp only [step, Option.ite_none_right_eq_some, Option.some.injEq] at hs
    obtain ⟨-, rfl⟩ := hs
    simp only [deliver]
    split <;> exact .inl rfl
  | childSend =>
    simp only [step] at hs
    split at hs
    · obtain rfl := Option.some.inj hs
      exact .inl (send_frame d _ _).2.2
    · cases hs
  | otherQuit =>
    obtain rfl := Option.some.inj hs
    exact .inl (send_frame d s .SIGQUIT).2.2

lemma alive_of_step (hi : Inv inherited s) (hs : step d s a = some t) (hal : t.main.hasEnded = false) :
    s.main.hasEnded = false := by
  cases a with
  | run =>
    simp only [step] at hs
    cases hf : s.ctx.frames with
    | nil => exact (mainStep_frame hf (by simpa [hf] using hs)).1
    | cons f fs => exact alive_of_frames hi hf
  | fail =>
    obtain rfl := fail_eq hs
    cases hal
  | deliver x =>
    simp only [step, Option.ite_none_right_eq_some, Option.some.injEq] at hs
    exact hs.1.2.2
  | childSend =>
    simp only [step] at hs
    split at hs
    · obtain rfl := Option.some.inj hs
      rw [(send_frame d _ _).1] at hal
      exact hal
    · cases hs
  | otherQuit =>
    obtain rfl := Option.some.inj hs
    rw [(send_frame d s .SIGQUIT).1] at hal
    exact hal

lemma verdict_invariant {line : String} {Q : State → Prop} (hstart : Q (start inherited))
    (hstep : ∀ s t a, Inv inherited s → s.main.hasEnded = false → Q s → Undisturbed d s a →
      Effect d s t a → Q t)
    (hline : ∀ s t, Inv inherited s → Q s → Undisturbed d s .run → s.ctx.frames = [] →
      mainStep s = some t → line ∈ t.stdout → line ∈ s.stdout) :
    (machine d inherited).Invariant (Undisturbed d) fun s =>
      Inv inherited s ∧ (s.main.hasEnded = false → Q s) ∧ line ∉ s.stdout := by
  apply (invariant.mono fun _ _ _ => trivial).strengthen
  · rintro s rfl
    exact ⟨fun _ => hstart, by simp [start]⟩
  · rintro s a t hi - ⟨hq, hn⟩ ha hs
    refine ⟨?_, ?_⟩
    · intro hal
      have hal' := alive_of_step hi hs hal
      exact hstep s t a hi hal' (hq hal') ha (step_effect hi ha.1 hs hal)
    · intro hm
      rcases step_stdout hs with heq | ⟨rfl, hf, hms⟩
      · exact hn (heq ▸ hm)
      · exact hn (hline s t hi (hq (mainStep_frame hf hms).1) ha hf hms hm)

theorem invariant_single : (machine .single inherited).Invariant (Undisturbed .single) fun s =>
    Inv inherited s ∧ (s.main.hasEnded = false → Single s) ∧ "Signal is queued\n" ∉ s.stdout := by
  apply verdict_invariant single_start
  · intro s t a hi hal h ha he
    exact single_step hi h he hal ha
  · intro s t _ h _ hf hs hm
    rcases (mainStep_stdout hs).2 hm with hm | ⟨-, hc⟩
    · exact hm
    · have hcount := h.count
      rw [handled_of_frames hf, hc] at hcount
      omega

lemma count_ne_two (hi : Inv inherited s) (h : Queued s) (hf : s.ctx.frames = []) (hp : s.main = .test2)
    (hd : s.pending .SIGQUIT = 0 ∨ .SIGQUIT ∈ s.ctx.mask) : s.sigcount ≠ 2 := by
  intro hc
  have hh := handled_of_frames hf
  obtain ⟨-, hover⟩ := inv_idle hi hf (by simp [hp, MainPc.hasEnded])
  by_cases hw : s.waitflag = 0
  · obtain ⟨hchild, hm⟩ := hover hw
    have hzero : s.pending .SIGQUIT = 0 := hd.resolve_right hm
    have hsent : s.sent = 4 := by simp [State.sent, hchild]
    have hcount := h.count
    omega
  · rw [h.fresh ⟨hw, hf⟩] at hh
    omega

theorem invariant_queued : (machine .queued inherited).Invariant (Undisturbed .queued) fun s =>
    Inv inherited s ∧ (s.main.hasEnded = false → Queued s) ∧ "Signal is NOT queued\n" ∉ s.stdout := by
  apply verdict_invariant queued_start
  · intro s t a _ _ h _ he
    exact queued_step h he
  · intro s t hi h ha hf hs hm
    rcases (mainStep_stdout hs).1 hm with hm | ⟨hp, hc⟩
    · exact hm
    · exact (count_ne_two hi h hf hp (ha.2 rfl hf hp) hc).elim

/-- The verdict is right as long as no `SIGQUIT` is handled inside `sigsuspend`. -/
theorem verdict_sound (h : (machine d inherited).Reach (Undisturbed d) s) :
    (d = .single → "Signal is queued\n" ∉ s.stdout) ∧ (d = .queued → "Signal is NOT queued\n" ∉ s.stdout) := by
  constructor
  · rintro rfl
    exact (invariant_single.holds h).2.2
  · rintro rfl
    exact (invariant_queued.holds h).2.2

def setup : List Action := [.run, .run, .run, .run, .run]

def first : List Action := [.childSend, .deliver .SIGQUIT, .run, .run, .run, .run, .run]

def told : List Action := [.childSend, .deliver .SIGUSR2, .run, .run, .run, .run, .run, .run, .run]

def promptRun : List Action :=
  setup ++ first ++ [.childSend, .childSend, .childSend] ++ told ++
    [.deliver .SIGQUIT, .run, .run, .run, .run, .run]

theorem verdict_sound_prompt : ∃ s, (machine .single ∅).exec (start ∅) promptRun = some s ∧
    s.stdout = ["Signal is NOT queued\n"] ∧ "Signal is queued\n" ∉ s.stdout := by
  have hd : ((machine .single ∅).exec (start ∅) promptRun).map State.stdout =
      some ["Signal is NOT queued\n"] := by decide +kernel
  obtain ⟨s, hs, ho⟩ := Option.map_eq_some_iff.mp hd
  have ha : (machine .single ∅).Along (Undisturbed .single) (start ∅) promptRun := by decide +kernel
  exact ⟨s, hs, ho, (verdict_sound ((Machine.Reach.init rfl).exec ha hs)).1 rfl⟩

def nested : List Action := [.childSend, .deliver .SIGQUIT, .run, .run, .run, .run, .run, .run]

def nestedRun : List Action :=
  setup ++ first ++ nested ++ nested ++ nested ++ told ++ [.run, .run, .run]

theorem verdict_wrong : ¬ ∀ s, (machine .single ∅).Reach (fun _ a => a ≠ .otherQuit) s →
    "Signal is queued\n" ∉ s.stdout := by
  intro h
  have hd : ((machine .single ∅).exec (start ∅) nestedRun).map State.stdout =
      some ["Signal is queued\n"] := by decide +kernel
  obtain ⟨s, hs, ho⟩ := Option.map_eq_some_iff.mp hd
  have ha : (machine .single ∅).Along (fun _ a => a ≠ .otherQuit) (start ∅) nestedRun := by decide +kernel
  exact h s ((Machine.Reach.init rfl).exec ha hs) (by simp [ho])

end ApueCode.SigQueued
