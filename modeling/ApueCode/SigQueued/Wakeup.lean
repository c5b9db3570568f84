import ApueCode.SigQueued.Phases

/-! No lost wake-up: the `SIGUSR2` of the child stays on its way until the parent stops waiting. -/

namespace ApueCode.SigQueued

open Posix Transition

variable {d : Discipline} {inherited b : Mask} {s t : State} {x : Signo} {left : Bool}
variable {f : Frame HandlerPc} {fs : List (Frame HandlerPc)}

def State.Told (s : State) : Prop :=
  0 < s.pending .SIGUSR2 ∨ (∃ f ∈ s.ctx.frames, f.pc = .setFlag) ∨ s.sigflag = 1

def MainPc.Unforked : MainPc → Prop
  | .sigQuit | .sigUsr1 | .sigUsr2 | .block | .fork => True
  | _ => False

structure Inv (inherited : Mask) (s : State) : Prop where
  zero : s.zeromask = ∅
  flag : s.sigflag = 0 ∨ s.sigflag = 1
  unforked : s.main.Unforked → s.child = none
  script : ∀ l, s.child = some l → l <:+ sends
  sent : ∀ x, 0 < s.pending x → x = .SIGQUIT ∨ x = .SIGUSR2
  told : s.Told → s.child = some []
  tested : ∀ f ∈ s.ctx.frames, f.pc.Asleep → s.sigflag = 0
  ended : s.main.hasEnded = true → s.ctx.frames = []
  phase : s.main.hasEnded = false → ∃ left, Phase (s.main.base inherited) left s.waitflag s.ctx ∧
    (left = true → s.child = some []) ∧ (left = false → s.child = some [] → s.Told)

lemma inv_start : Inv inherited (start inherited) where
  zero := rfl
  flag := .inl rfl
  unforked := fun _ => rfl
  script := by simp [start]
  sent := by simp [start]
  told := by simp [State.Told, start]
  tested := by simp [start]
  ended := fun _ => rfl
  phase := fun _ => ⟨false, .idle (by simp [start]), by simp, by simp [start]⟩

lemma handlerStep_frame {pc : HandlerPc} (hs : handlerStep s pc = some t) :
    t.main = s.main ∧ t.caught = s.caught ∧ t.pending = s.pending ∧ t.child = s.child ∧
      t.zeromask = s.zeromask ∧ t.omask = s.omask ∧ t.stdout = s.stdout := by
  cases pc with
  | waiting saved woken =>
    cases woken with
    | false => simp [handlerStep] at hs
    | true =>
      simp only [handlerStep, if_true, Option.some.injEq] at hs
      subst hs
      simp
  | _ =>
    simp only [handlerStep, Option.some.injEq] at hs
    subst hs
    simp [State.goto]

lemma told_iff (hf : s.ctx.frames = f :: fs) : s.Told ↔
    0 < s.pending .SIGUSR2 ∨ f.pc = .setFlag ∨ (∃ g ∈ fs, g.pc = .setFlag) ∨ s.sigflag = 1 := by
  simp [State.Told, hf, or_assoc]

lemma handlerStep_frames (hf : s.ctx.frames = f :: fs) (hs : handlerStep s f.pc = some t) :
    f.pc = .ret ∧ t.ctx.frames = fs ∨
    ∃ pc, pc ≠ .setFlag ∧ t.ctx.frames = ⟨pc, f.saved⟩ :: fs ∧
      (pc.Asleep → t.sigflag = s.sigflag ∧ (s.sigflag = 0 ∨ f.pc.Asleep)) := by
  have hgo : ∀ pc, (s.ctx.goto pc).frames = ⟨pc, f.saved⟩ :: fs := fun pc => Context.goto_frames hf
  cases hp : f.pc with
  | ret =>
    simp only [hp, handlerStep, Option.some.injEq] at hs
    subst hs
    exact .inl ⟨rfl, Context.leave_frames hf⟩
  | waiting saved woken =>
    simp only [hp, handlerStep, Option.ite_none_right_eq_some, Option.some.injEq] at hs
    obtain ⟨-, rfl⟩ := hs
    exact .inr ⟨.testFlag, by simp, hgo _, by simp [HandlerPc.Asleep]⟩
  | testWait =>
    simp only [hp, handlerStep, Option.some.injEq] at hs
    subst hs
    by_cases hw : s.waitflag = 0
    · exact .inr ⟨.ret, by simp, by simpa [State.goto, hw] using hgo .ret, by simp [HandlerPc.Asleep]⟩
    · exact .inr ⟨.clearWait, by simp, by simpa [State.goto, hw] using hgo .clearWait,
        by simp [HandlerPc.Asleep]⟩
  | testFlag =>
    simp only [hp, handlerStep, Option.some.injEq] at hs
    subst hs
    by_cases hg : s.sigflag = 0
    · exact .inr ⟨.suspend, by simp, by simpa [State.goto, hg] using hgo .suspend, fun _ => ⟨rfl, .inl hg⟩⟩
    · exact .inr ⟨.clearFlag, by simp, by simpa [State.goto, hg] using hgo .clearFlag,
        by simp [HandlerPc.Asleep]⟩
  | _ =>
    simp only [hp, handlerStep, Option.some.injEq] at hs
    subst hs
    exact .inr ⟨_, by simp, hgo _, by simp [HandlerPc.Asleep]⟩

lemma handlerStep_sigflag (hs : handlerStep s f.pc = some t) :
    f.pc = .setFlag ∧ t.sigflag = 1 ∨ f.pc = .clearFlag ∧ t.sigflag = 0 ∨
      f.pc ≠ .setFlag ∧ t.sigflag = s.sigflag := by
  cases hp : f.pc with
  | waiting saved woken =>
    simp only [hp, handlerStep, Option.ite_none_right_eq_some, Option.some.injEq] at hs
    obtain ⟨-, rfl⟩ := hs
    simp
  | _ =>
    simp only [hp, handlerStep, Option.some.injEq] at hs
    subst hs
    simp [State.goto]

lemma told_handlerStep (hf : s.ctx.frames = f :: fs) (hs : handlerStep s f.pc = some t) :
    (t.Told → s.Told) ∧ (f.pc ≠ .clearFlag → s.Told → t.Told) := by
  have ht : t.Told ↔ 0 < s.pending .SIGUSR2 ∨ (∃ g ∈ fs, g.pc = .setFlag) ∨ t.sigflag = 1 := by
    rw [← (handlerStep_frame hs).2.2.1]
    rcases handlerStep_frames hf hs with ⟨-, hk⟩ | ⟨pc, hpc, hk, -⟩
    · simp [State.Told, hk]
    · simp [State.Told, hk, hpc]
  rw [ht, told_iff hf]
  rcases handlerStep_sigflag hs with ⟨hp, hg⟩ | ⟨hp, hg⟩ | ⟨hp, hg⟩
  · simp [hp, hg]
  · rw [hg]
    refine ⟨?_, fun hn => (hn hp).elim⟩
    rintro (h | h | h)
    · exact .inl h
    · exact .inr (.inr (.inl h))
    · cases h
  · simp [hp, hg]

lemma alive_of_frames (h : Inv inherited s) (hf : s.ctx.frames = f :: fs) : s.main.hasEnded = false := by
  by_contra he
  rw [h.ended (by simpa using he)] at hf
  cases hf

lemma send_frame (d : Discipline) (s : State) (x : Signo) :
    (send d s x).main = s.main ∧ (send d s x).omask = s.omask ∧ (send d s x).stdout = s.stdout := by
  simp only [send]
  split <;> exact ⟨rfl, rfl, rfl⟩

lemma inv_idle (h : Inv inherited s) (hf : s.ctx.frames = []) (hal : s.main.hasEnded = false) :
    s.ctx.mask = s.main.base inherited ∧ (s.waitflag = 0 → s.child = some [] ∧ .SIGQUIT ∉ s.ctx.mask) := by
  obtain ⟨left, hph, hl, -⟩ := h.phase hal
  have hctx : s.ctx = ⟨s.ctx.mask, []⟩ := by rw [← hf]
  rw [hctx] at hph
  obtain ⟨hm, ⟨-, hw⟩ | ⟨hleft, -, hb⟩⟩ := phase_main.mp hph
  · exact ⟨hm, fun h0 => (hw h0).elim⟩
  · exact ⟨hm, fun _ => ⟨hl hleft, hm ▸ hb⟩⟩

lemma inv_handlerStep (h : Inv inherited s) (hf : s.ctx.frames = f :: fs) (hs : handlerStep s f.pc = some t) :
    Inv inherited t := by
  obtain ⟨hmain, -, hpend, hchild, hzero, -, -⟩ := handlerStep_frame hs
  obtain ⟨hback, hkeep⟩ := told_handlerStep hf hs
  have hal := alive_of_frames h hf
  obtain ⟨left, hph, hl, hk⟩ := h.phase hal
  obtain ⟨left', hph', hleft⟩ := phase_handlerStep hph rfl rfl h.zero hf hs
  have hflag : s.sigflag ≠ 0 → s.child = some [] := by
    intro hg
    exact h.told (.inr (.inr (h.flag.resolve_left hg)))
  exact {
    zero := hzero.trans h.zero
    flag := by
      rcases handlerStep_sigflag hs with ⟨-, hg⟩ | ⟨-, hg⟩ | ⟨-, hg⟩
      · exact .inr hg
      · exact .inl hg
      · exact hg ▸ h.flag
    unforked := by
      rw [hmain, hchild]
      exact h.unforked
    script := by
      rw [hchild]
      exact h.script
    sent := by
      rw [hpend]
      exact h.sent
    told := by
      rw [hchild]
      exact fun ht => h.told (hback ht)
    tested := by
      intro g hg hp
      have hone := (phase_asleep hph' hg hp).1
      rcases handlerStep_frames hf hs with ⟨-, ht⟩ | ⟨pc, -, ht, hz⟩
      · have hsole := (phase_asleep hph (by simp [hf, ← ht, hg]) hp).1
        rw [hf, ← ht, hone] at hsole
        cases hsole
      · rw [ht] at hone
        obtain rfl := (List.cons.inj hone).1
        obtain ⟨heq, h0 | ha⟩ := hz hp
        · exact heq.trans h0
        · exact heq.trans (h.tested f (by simp [hf]) ha)
    ended := by
      rw [hmain, hal]
      simp
    phase := by
      rw [hmain, hchild]
      intro _
      refine ⟨left', hph', ?_, ?_⟩
      · intro hl'
        rcases hleft with rfl | ⟨-, hg⟩
        · exact hl hl'
        · exact hflag hg
      · intro hl' hc
        rcases hleft with rfl | ⟨hl2, -⟩
        · refine hkeep ?_ (hk hl' hc)
          subst hl'
          exact phase_not_clearFlag hph f (by simp [hf])
        · rw [hl2] at hl'
          cases hl' }

lemma inv_finish {pc : MainPc} {p : Pending} (h : Inv inherited s) (hpc : pc.hasEnded = true)
    (hp : ∀ y, p y ≤ s.pending y) : Inv inherited ({ s with pending := p }.finish pc) where
  zero := h.zero
  flag := h.flag
  unforked := by
    intro hu
    cases pc <;> simp_all [State.finish, MainPc.Unforked, MainPc.hasEnded]
  script := h.script
  sent y hy := h.sent y (lt_of_lt_of_le hy (hp y))
  told := by
    rintro (ht | ⟨f, hf, -⟩ | ht)
    · exact h.told (.inl (lt_of_lt_of_le ht (hp _)))
    · cases hf
    · exact h.told (.inr (.inr ht))
  tested := by simp [State.finish]
  ended := fun _ => rfl
  phase := by simp [State.finish, hpc]

lemma mainStep_frame (hf : s.ctx.frames = []) (hs : mainStep s = some t) :
    s.main.hasEnded = false ∧ t.ctx.frames = [] ∧ t.pending = s.pending ∧ t.sigcount = s.sigcount ∧
      t.waitflag = s.waitflag ∧ t.sigflag = s.sigflag ∧ (t.zeromask = s.zeromask ∨ t.zeromask = ∅) ∧
      (s.main ≠ .fork ∧ t.child = s.child ∧ (t.main.Unforked → s.main.Unforked) ∨
        s.main = .fork ∧ t.child = some sends ∧ ¬ t.main.Unforked) := by
  cases hp : s.main with
  | exited | killed => simp [mainStep, hp] at hs
  | test2 | test4 =>
    simp only [mainStep, hp, Option.some.injEq] at hs
    subst hs
    split <;> simp [MainPc.hasEnded, MainPc.Unforked, State.print, hf]
  | _ =>
    simp only [mainStep, hp, Option.some.injEq] at hs
    subst hs
    simp [MainPc.hasEnded, MainPc.Unforked, State.print, State.catch, State.finish, hf]

lemma inv_mainStep (h : Inv inherited s) (hf : s.ctx.frames = []) (hs : mainStep s = some t) :
    Inv inherited t := by
  obtain ⟨hal, hf', hpend, -, -, hflag, hzero, hchild⟩ := mainStep_frame hf hs
  have htold : t.Told ↔ s.Told := by simp only [State.Told, hpend, hflag, hf, hf']
  have hdone : t.child = some [] ↔ s.child = some [] := by
    rcases hchild with ⟨-, hc, -⟩ | ⟨hp, hc, -⟩
    · rw [hc]
    · simp [hc, h.unforked (by simp [hp, MainPc.Unforked]), sends]
  exact {
    zero := by
      rcases hzero with hz | hz
      · exact hz.trans h.zero
      · exact hz
    flag := hflag ▸ h.flag
    unforked := by
      intro hu
      rcases hchild with ⟨-, hc, hb⟩ | ⟨-, -, hb⟩
      · exact hc.trans (h.unforked (hb hu))
      · exact (hb hu).elim
    script := by
      intro l hl
      rcases hchild with ⟨-, hc, -⟩ | ⟨-, hc, -⟩
      · exact h.script l (hc ▸ hl)
      · rw [hc] at hl
        exact Option.some.inj hl ▸ List.suffix_refl sends
    sent := hpend ▸ h.sent
    told := fun ht => hdone.mpr (h.told (htold.mp ht))
    tested := by simp [hf']
    ended := fun _ => hf'
    phase := by
      intro hnot
      obtain ⟨left, hph, hl, hk⟩ := h.phase hal
      refine ⟨left, ?_, fun hleft => hdone.mpr (hl hleft), ?_⟩
      · rcases phase_mainStep hph hf hs with hend | hph'
        · rw [hend] at hnot
          cases hnot
        · exact hph'
      · intro hleft hc
        exact htold.mpr (hk hleft (hdone.mp hc)) }

lemma fail_eq (hs : fail s = some t) : s.finish (.exited EXIT_FAILURE) = t := by
  simp only [fail] at hs
  split at hs
  · split at hs <;> simp_all
  · simp only [Option.ite_none_right_eq_some, Option.some.injEq] at hs
    exact hs.2

lemma wake_eq_setFlag {pc : HandlerPc} : pc.wake = .setFlag ↔ pc = .setFlag := by
  cases pc <;> simp [HandlerPc.wake]

lemma wakeTop_exists {P : HandlerPc → Prop} (hP : ∀ pc : HandlerPc, P pc.wake ↔ P pc) (c : Context HandlerPc) :
    (∃ f ∈ (wakeTop c).frames, P f.pc) ↔ ∃ f ∈ c.frames, P f.pc := by
  rcases c with ⟨m, fs⟩
  cases fs with
  | nil => rfl
  | cons f fs => simp [wakeTop, hP]

lemma told_deliver (hx : x ∈ s.caught) (hp : x = .SIGQUIT ∨ x = .SIGUSR2) (hk : s.Told) : (deliver s x).Told := by
  simp only [deliver, hx, if_true]
  rcases hp with rfl | rfl
  · rcases hk with hk | hk | hk
    · refine .inl ?_
      simpa [Pending.take] using hk
    · refine .inr (.inl ?_)
      obtain ⟨f, hf, hset⟩ := (wakeTop_exists (P := (· = .setFlag)) (fun _ => wake_eq_setFlag) s.ctx).mpr hk
      exact ⟨f, List.mem_cons_of_mem _ hf, hset⟩
    · exact .inr (.inr hk)
  · exact .inr (.inl ⟨_, List.mem_cons_self, rfl⟩)

lemma of_told_deliver (hx : x ∈ s.caught) (hp : 0 < s.pending x) (hq : x = .SIGQUIT ∨ x = .SIGUSR2)
    (hk : (deliver s x).Told) : s.Told := by
  simp only [deliver, hx, if_true] at hk
  rcases hq with rfl | rfl
  · rcases hk with hk | ⟨f, hf, hset⟩ | hk
    · refine .inl ?_
      simpa [Pending.take] using hk
    · refine .inr (.inl ((wakeTop_exists (P := (· = .setFlag)) (fun _ => wake_eq_setFlag) s.ctx).mp ?_))
      rcases List.mem_cons.mp hf with rfl | hf
      · cases hset
      · exact ⟨f, hf, hset⟩
    · exact .inr (.inr hk)
  · exact .inl hp

lemma base_of_forked {pc : MainPc} (hun : ¬ pc.Unforked) : pc.base inherited = inherited ∪ mask := by
  cases pc <;> first | rfl | exact (hun trivial).elim

lemma mem_base (h : Inv inherited s) (hk : s.Told) : .SIGUSR2 ∈ s.main.base inherited := by
  have hc := h.told hk
  have hun : ¬ s.main.Unforked := by
    intro hu
    rw [h.unforked hu] at hc
    cases hc
  simp [base_of_forked hun, mask]

lemma inv_deliver (h : Inv inherited s) (hx : 0 < s.pending x) (hm : x ∉ s.ctx.mask)
    (hal : s.main.hasEnded = false) : Inv inherited (deliver s x) := by
  have hxs := h.sent x hx
  by_cases hc : x ∈ s.caught
  · obtain ⟨left, hph, hl, hk⟩ := h.phase hal
    have hb : x = .SIGQUIT ∨ x ∈ s.main.base inherited := by
      rcases hxs with rfl | rfl
      · exact .inl rfl
      · exact .inr (mem_base h (.inl hx))
    have hph' := phase_deliver hph hm hb
    have heq : deliver s x = { s with pending := s.pending.take x, ctx := (wakeTop s.ctx).enter (entry x) x } := by
      simp [deliver, hc]
    have hback : (deliver s x).Told → s.Told := of_told_deliver hc hx hxs
    have hkeep : s.Told → (deliver s x).Told := told_deliver hc hxs
    rw [heq] at hback hkeep ⊢
    exact {
      zero := h.zero
      flag := h.flag
      unforked := h.unforked
      script := h.script
      sent := fun y hy => h.sent y (lt_of_lt_of_le hy Pending.take_le)
      told := fun ht => h.told (hback ht)
      tested := by
        intro g hg hp
        obtain rfl := (List.cons.inj (phase_asleep hph' hg hp).1).1
        rcases hxs with rfl | rfl <;> cases hp
      ended := by simp [hal]
      phase := fun _ => ⟨left, hph', hl, fun hleft hd => hkeep (hk hleft hd)⟩ }
  · have heq : deliver s x = { s with pending := s.pending.take x }.finish (.killed x) := by
      simp [deliver, hc]
    rw [heq]
    exact inv_finish h rfl fun y => Pending.take_le

lemma inv_otherQuit (h : Inv inherited s) : Inv inherited (send d s .SIGQUIT) := by
  cases he : s.main.hasEnded with
  | true => simpa [send, he] using h
  | false =>
    have heq : send d s .SIGQUIT = { s with pending := s.pending.post .SIGQUIT d } := by simp [send, he]
    have hp : s.pending.post .SIGQUIT d .SIGUSR2 = s.pending .SIGUSR2 := Pending.post_other d (by simp)
    have htold : (send d s .SIGQUIT).Told ↔ s.Told := by simp only [heq, State.Told, hp]
    rw [heq] at htold ⊢
    exact { h with
      sent := by
        intro y hy
        by_cases hq : y = .SIGQUIT
        · exact .inl hq
        · exact h.sent y (by simpa [Pending.post_other d hq] using hy)
      told := fun ht => h.told (htold.mp ht)
      phase := by
        intro hal
        obtain ⟨left, hph, hl, hk⟩ := h.phase hal
        exact ⟨left, hph, hl, fun hleft hd => htold.mpr (hk hleft hd)⟩ }

lemma suffix_sends {l : List Signo} (h : x :: l <:+ sends) :
    x = .SIGQUIT ∧ l ≠ [] ∨ x = .SIGUSR2 ∧ l = [] := by
  simp only [sends, List.suffix_cons_iff, List.suffix_nil, List.cons.injEq] at h
  grind

lemma inv_childSend {l : List Signo} (h : Inv inherited s) (hc : s.child = some (x :: l)) :
    Inv inherited (send d { s with child := some l } x) := by
  have hsuf := h.script _ hc
  have hnt : ¬ s.Told := by
    intro ht
    rw [h.told ht] at hc
    cases hc
  have hun : ¬ s.main.Unforked := by
    intro hu
    rw [h.unforked hu] at hc
    cases hc
  have hscript : ∀ l', some l = some l' → l' <:+ sends := by
    rintro l' ⟨⟩
    exact (List.suffix_cons x l).trans hsuf
  cases he : s.main.hasEnded with
  | true =>
    have heq : send d { s with child := some l } x = { s with child := some l } := by simp [send, he]
    rw [heq]
    exact { h with
      unforked := fun hu => (hun hu).elim
      script := hscript
      told := fun ht => (hnt ht).elim
      phase := by simp [he] }
  | false =>
    have heq : send d { s with child := some l } x =
        { s with child := some l, pending := s.pending.post x d } := by simp [send, he]
    obtain ⟨left, hph, hl, -⟩ := h.phase he
    have hfalse : left ≠ true := by
      intro hleft
      rw [hl hleft] at hc
      cases hc
    have hsent : ∀ y, 0 < s.pending.post x d y → y = .SIGQUIT ∨ y = .SIGUSR2 := by
      intro y hy
      by_cases hyx : y = x
      · rw [hyx]
        exact (suffix_sends hsuf).imp And.left And.left
      · exact h.sent y (by simpa [Pending.post_other d hyx] using hy)
    have hlast : x = .SIGUSR2 ∧ l = [] ∨ l ≠ [] ∧
        ¬ ({ s with child := some l, pending := s.pending.post x d } : State).Told := by
      rcases suffix_sends hsuf with ⟨rfl, hne⟩ | hx
      · refine .inr ⟨hne, ?_⟩
        simpa [State.Told, Pending.post_other d (show Signo.SIGUSR2 ≠ .SIGQUIT by simp)] using hnt
      · exact .inl hx
    rw [heq]
    exact { h with
      unforked := fun hu => (hun hu).elim
      script := hscript
      sent := hsent
      told := by
        intro ht
        rcases hlast with ⟨-, rfl⟩ | ⟨-, hn⟩
        · rfl
        · exact (hn ht).elim
      phase := by
        intro _
        refine ⟨left, hph, fun hleft => (hfalse hleft).elim, ?_⟩
        intro _ hd
        rcases hlast with ⟨rfl, -⟩ | ⟨hne, -⟩
        · have hpos : 0 < s.pending.post .SIGUSR2 d .SIGUSR2 := Pending.post_pos d
          exact .inl hpos
        · exact (hne (Option.some.inj hd)).elim }

lemma inv_step {a : Action} (h : Inv inherited s) (hs : step d s a = some t) : Inv inherited t := by
  cases a with
  | run =>
    simp only [step] at hs
    cases hf : s.ctx.frames with
    | nil => exact inv_mainStep h hf (by simpa [hf] using hs)
    | cons f fs => exact inv_handlerStep h hf (by simpa [hf] using hs)
  | fail =>
    obtain rfl := fail_eq hs
    exact inv_finish h rfl fun _ => le_rfl
  | deliver x =>
    simp only [step, Option.ite_none_right_eq_some, Option.some.injEq] at hs
    obtain ⟨⟨hx, hm, hal⟩, rfl⟩ := hs
    exact inv_deliver h hx hm hal
  | childSend =>
    simp only [step] at hs
    split at hs
    · rename_i x l hc
      exact Option.some.inj hs ▸ inv_childSend h hc
    · cases hs
  | otherQuit => exact Option.some.inj hs ▸ inv_otherQuit h

theorem invariant : (machine d inherited).Invariant (fun _ _ => True) (Inv inherited) where
  base := by
    rintro s rfl
    exact inv_start
  step s a t h _ hs := inv_step h hs

def State.Waits (s : State) : Prop :=
  s.main.hasEnded = false ∧ (s.waitflag ≠ 0 ∨ ∃ f ∈ s.ctx.frames, f.pc.InLoop)

lemma waits_iff (hal : s.main.hasEnded = false) (h : Phase b left s.waitflag s.ctx) :
    s.Waits ↔ left = false := by
  cases left with
  | false => simpa [State.Waits, hal] using phase_not_left h
  | true =>
    obtain ⟨hz, hn⟩ := phase_left h
    simpa [State.Waits, hz] using fun _ => hn

/-- Once the child has told its parent, `SIGUSR2` stays on its way until the parent has seen the flag;
and a parent that is about to suspend, or suspended and not woken, has it pending. -/
theorem no_lost_wakeup (h : (machine d inherited).Reachable s) (hc : s.child = some []) (hw : s.Waits) :
    s.Told ∧ ∀ f ∈ s.ctx.frames, f.pc.Asleep →
      0 < s.pending .SIGUSR2 ∧ (f.pc ≠ .suspend → .SIGUSR2 ∉ s.ctx.mask) := by
  have hi := invariant.holds h
  obtain ⟨left, hph, -, hk⟩ := hi.phase hw.1
  have ht := hk ((waits_iff hw.1 hph).mp hw) hc
  refine ⟨ht, ?_⟩
  intro f hf hp
  obtain ⟨hone, hmask⟩ := phase_asleep hph hf hp
  refine ⟨?_, ?_⟩
  · rcases ht with ht | ⟨g, hg, hset⟩ | ht
    · exact ht
    · rw [hone, List.mem_singleton] at hg
      rw [← hg, hset] at hp
      cases hp
    · rw [hi.tested f hf hp] at ht
      cases ht
  · intro hs
    simp [hmask hs]

def suspendedRun : List Action :=
  [.run, .run, .run, .run, .run, .childSend, .deliver .SIGQUIT, .run, .run, .run, .run, .run,
    .childSend, .childSend, .childSend, .childSend]

theorem no_lost_wakeup_suspended : ∃ s, (machine .single ∅).exec (start ∅) suspendedRun = some s ∧
    (∃ f ∈ s.ctx.frames, f.pc.InLoop) ∧ s.child = some [] ∧ s.Told := by
  have hd : ((machine .single ∅).exec (start ∅) suspendedRun).map (fun s =>
      (s.main, s.child, decide (∃ f ∈ s.ctx.frames, f.pc.InLoop))) = some (.sleep, some [], true) := by decide
  obtain ⟨s, hs, hd⟩ := Option.map_eq_some_iff.mp hd
  simp only [Prod.mk.injEq, decide_eq_true_eq] at hd
  obtain ⟨hm, hc, hf⟩ := hd
  have hw : s.Waits := ⟨by simp [hm, MainPc.hasEnded], .inr hf⟩
  exact ⟨s, hs, hf, hc, (no_lost_wakeup (Machine.reachable_of_exec rfl hs) hc hw).1⟩

end ApueCode.SigQueued
