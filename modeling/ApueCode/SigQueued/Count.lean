import ApueCode.SigQueued.Wakeup

/-! How often the handler of `SIGQUIT` has been entered, and what each step does to that number. -/

namespace ApueCode.SigQueued

open Posix Transition

variable {d : Discipline} {inherited b : Mask} {s t : State} {x : Signo} {left : Bool} {w : ℕ}
variable {f : Frame HandlerPc} {fs : List (Frame HandlerPc)} {a : Action}

def State.handled (s : State) : ℕ := s.sigcount + s.ctx.frames.countP fun f => f.pc = .incr

def State.sent (s : State) : ℕ :=
  match s.child with
  | none => 0
  | some l => 4 - l.count .SIGQUIT

lemma handled_of_frames (hf : s.ctx.frames = []) : s.handled = s.sigcount := by
  simp [State.handled, hf]

lemma handled_handlerStep (hf : s.ctx.frames = f :: fs) (hs : handlerStep s f.pc = some t) :
    t.handled = s.handled := by
  have hgo : ∀ pc, (s.ctx.goto pc).frames = ⟨pc, f.saved⟩ :: fs := fun pc => Context.goto_frames hf
  cases hp : f.pc with
  | ret =>
    simp only [hp, handlerStep, Option.some.injEq] at hs
    subst hs
    simp [State.handled, Context.leave_frames hf, hf, hp]
  | waiting saved woken =>
    simp only [hp, handlerStep, Option.ite_none_right_eq_some, Option.some.injEq] at hs
    obtain ⟨-, rfl⟩ := hs
    simp [State.handled, hgo, hf, hp]
  | testWait | testFlag =>
    simp only [hp, handlerStep, Option.some.injEq] at hs
    subst hs
    split <;> simp [State.handled, State.goto, hgo, hf, hp]
  | incr =>
    simp only [hp, handlerStep, Option.some.injEq] at hs
    subst hs
    simp [State.handled, State.goto, hgo, hf, hp]
    omega
  | _ =>
    simp only [hp, handlerStep, Option.some.injEq] at hs
    subst hs
    simp [State.handled, State.goto, hgo, hf, hp]

lemma wake_eq_incr {pc : HandlerPc} : pc.wake = .incr ↔ pc = .incr := by
  cases pc <;> simp [HandlerPc.wake]

lemma wakeTop_countP (c : Context HandlerPc) :
    (wakeTop c).frames.countP (fun f => f.pc = .incr) = c.frames.countP fun f => f.pc = .incr := by
  rcases c with ⟨m, fs⟩
  cases fs with
  | nil => rfl
  | cons f fs => simp [wakeTop, List.countP_cons, wake_eq_incr]

lemma handled_deliver (hx : x ∈ s.caught) :
    (deliver s x).handled = s.handled + if x = .SIGQUIT then 1 else 0 := by
  have hw := wakeTop_countP s.ctx
  have he : (entry x = .incr) = (x = .SIGQUIT) := by cases x <;> simp [entry]
  simp only [deliver, hx, if_true, State.handled, Context.enter_frames, List.countP_cons, hw,
    decide_eq_true_eq, he]
  omega

def State.Fresh (s : State) : Prop := s.waitflag ≠ 0 ∧ s.ctx.frames = []

inductive Effect (d : Discipline) (s t : State) : Action → Prop
  | quiet {a : Action} : t.handled = s.handled → t.pending .SIGQUIT = s.pending .SIGQUIT →
      t.sent = s.sent → (t.Waits → s.Waits) → (t.Fresh → s.Fresh) → Effect d s t a
  | handle : 0 < s.pending .SIGQUIT → .SIGQUIT ∉ s.ctx.mask → t.handled = s.handled + 1 →
      t.pending .SIGQUIT = s.pending .SIGQUIT - 1 → t.sent = s.sent → (t.Waits → s.Waits) →
      t.ctx.frames ≠ [] → Effect d s t (.deliver .SIGQUIT)
  | send : s.child ≠ some [] → t.handled = s.handled →
      t.pending .SIGQUIT = s.pending.post .SIGQUIT d .SIGQUIT → t.sent = s.sent + 1 →
      (t.Waits → s.Waits) → (t.Fresh → s.Fresh) → Effect d s t .childSend

lemma effect_mainStep (hi : Inv inherited s) (hf : s.ctx.frames = []) (hs : mainStep s = some t) :
    Effect d s t a := by
  obtain ⟨hal, hf', hpend, hcount, hwait, -, -, hchild⟩ := mainStep_frame hf hs
  have hsent : t.sent = s.sent := by
    rcases hchild with ⟨-, hc, -⟩ | ⟨hp, hc, -⟩
    · simp only [State.sent, hc]
    · have hn := hi.unforked (by simp [hp, MainPc.Unforked])
      simp [State.sent, hc, hn, sends]
  apply Effect.quiet
  · rw [handled_of_frames hf', handled_of_frames hf, hcount]
  · rw [hpend]
  · exact hsent
  · rintro ⟨-, hw | ⟨f, hm, -⟩⟩
    · exact ⟨hal, .inl (hwait ▸ hw)⟩
    · rw [hf'] at hm
      cases hm
  · rintro ⟨hw, -⟩
    exact ⟨hwait ▸ hw, hf⟩

lemma handlerStep_waitflag {pc : HandlerPc} (hs : handlerStep s pc = some t) : t.waitflag ≠ 0 → s.waitflag ≠ 0 := by
  cases pc with
  | waiting saved woken =>
    simp only [handlerStep, Option.ite_none_right_eq_some, Option.some.injEq] at hs
    obtain ⟨-, rfl⟩ := hs
    exact id
  | clearWait =>
    simp only [handlerStep, Option.some.injEq] at hs
    subst hs
    simp
  | _ =>
    simp only [handlerStep, Option.some.injEq] at hs
    subst hs
    exact id

lemma effect_handlerStep (h : Inv inherited s) (hf : s.ctx.frames = f :: fs) (hs : handlerStep s f.pc = some t) :
    Effect d s t a := by
  obtain ⟨hmain, -, hpend, hchild, -, -, -⟩ := handlerStep_frame hs
  have hal := alive_of_frames h hf
  obtain ⟨left, hph, -, -⟩ := h.phase hal
  obtain ⟨left', hph', hleft⟩ := phase_handlerStep hph rfl rfl h.zero hf hs
  have hal' : t.main.hasEnded = false := hmain ▸ hal
  apply Effect.quiet
  · exact handled_handlerStep hf hs
  · rw [hpend]
  · simp only [State.sent, hchild]
  · rw [waits_iff hal hph, waits_iff hal' (hmain ▸ hph')]
    rintro rfl
    rcases hleft with hl | ⟨hl, -⟩
    · exact hl.symm
    · cases hl
  · rintro ⟨hw, hn⟩
    rcases handlerStep_frames hf hs with ⟨hr, -⟩ | ⟨pc, -, ht, -⟩
    · exact (phase_early hph (handlerStep_waitflag hs hw) (by simp [hf]) hr).elim
    · rw [ht] at hn
      cases hn

lemma wake_inLoop {pc : HandlerPc} : pc.wake.InLoop ↔ pc.InLoop := by
  cases pc <;> simp [HandlerPc.wake, HandlerPc.InLoop]

lemma waits_of_deliver (hc : x ∈ s.caught) (hal : s.main.hasEnded = false) (hw : (deliver s x).Waits) :
    s.Waits := by
  simp only [deliver, hc, if_true] at hw
  rcases hw with ⟨-, hw | ⟨f, hf, hp⟩⟩
  · exact ⟨hal, .inl hw⟩
  · rcases List.mem_cons.mp hf with rfl | hf
    · exact (nested_not_inLoop (nested_entry x) hp).elim
    · exact ⟨hal, .inr ((wakeTop_exists (P := HandlerPc.InLoop) (fun _ => wake_inLoop) s.ctx).mp ⟨f, hf, hp⟩)⟩

lemma effect_deliver (h : Inv inherited s) (hx : 0 < s.pending x) (hm : x ∉ s.ctx.mask)
    (hal : s.main.hasEnded = false) (hal' : (deliver s x).main.hasEnded = false) :
    Effect d s (deliver s x) (.deliver x) := by
  have hc : x ∈ s.caught := by
    by_contra hc
    simp [deliver, hc, State.finish, MainPc.hasEnded] at hal'
  have hcount := handled_deliver hc
  have hsent : (deliver s x).sent = s.sent := by simp [deliver, hc, State.sent]
  have hpend : (deliver s x).pending = s.pending.take x := by simp [deliver, hc]
  rcases h.sent x hx with rfl | rfl
  · refine .handle hx hm (by simpa using hcount) ?_ hsent (waits_of_deliver hc hal) ?_
    · rw [hpend, Pending.take_self]
    · simp [deliver, hc]
  · refine .quiet (by simpa using hcount) ?_ hsent (waits_of_deliver hc hal) ?_
    · rw [hpend, Pending.take_other (by simp)]
    · simp [State.Fresh, deliver, hc]

lemma effect_childSend {l : List Signo} (h : Inv inherited s) (hc : s.child = some (x :: l))
    (hal : (send d { s with child := some l } x).main.hasEnded = false) :
    Effect d s (send d { s with child := some l } x) .childSend := by
  have hal' : s.main.hasEnded = false := by
    rw [(send_frame d _ x).1] at hal
    exact hal
  have heq : send d { s with child := some l } x =
      { s with child := some l, pending := s.pending.post x d } := by simp [send, hal']
  rw [heq]
  rcases suffix_sends (h.script _ hc) with ⟨rfl, hne⟩ | ⟨rfl, rfl⟩
  · refine .send (by simp [hc]) rfl rfl ?_ id id
    have hle : l.count .SIGQUIT < 4 := by
      have hsub := (h.script _ hc).sublist.count_le .SIGQUIT
      have hall : sends.count .SIGQUIT = 4 := by decide
      rw [hall, List.count_cons_self] at hsub
      omega
    simp only [State.sent, hc, List.count_cons_self]
    omega
  · refine .quiet rfl (Pending.post_other d (show Signo.SIGQUIT ≠ .SIGUSR2 by simp)) ?_ id id
    simp [State.sent, hc]

theorem step_effect (h : Inv inherited s) (ha : a ≠ .otherQuit) (hs : step d s a = some t)
    (hal : t.main.hasEnded = false) : Effect d s t a := by
  cases a with
  | run =>
    simp only [step] at hs
    cases hf : s.ctx.frames with
    | nil => exact effect_mainStep h hf (by simpa [hf] using hs)
    | cons f fs => exact effect_handlerStep h hf (by simpa [hf] using hs)
  | fail =>
    obtain rfl := fail_eq hs
    simp [State.finish, MainPc.hasEnded] at hal
  | deliver x =>
    simp only [step, Option.ite_none_right_eq_some, Option.some.injEq] at hs
    obtain ⟨⟨hx, hm, hal'⟩, rfl⟩ := hs
    exact effect_deliver h hx hm hal' hal
  | childSend =>
    simp only [step] at hs
    split at hs
    · rename_i x l hc
      obtain rfl := Option.some.inj hs
      exact effect_childSend h hc hal
    · cases hs
  | otherQuit => exact (ha rfl).elim

end ApueCode.SigQueued
