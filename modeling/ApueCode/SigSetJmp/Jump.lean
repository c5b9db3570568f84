import ApueCode.SigSetJmp.Model

/-! The guard that `sig_usr1` lacks: with `canjump` set the jump is safe, and executed once. -/

namespace ApueCode.SigSetJmp

open Posix Transition

variable {option : ℕ} {inherited : Mask} {s t : State} {x : Signo} {a : Action}
variable {f : Frame HandlerPc} {fs : List (Frame HandlerPc)} {pc : HandlerPc}

def HandlerPc.Usr1 : HandlerPc → Prop
  | .prAlrm | .ret => False
  | _ => True

structure Armed (s : State) : Prop where
  main : s.main = .pause
  filled : s.jmpbuf.isSome = true
  armed : s.armed = true
  jumps : s.jumps = 0

structure Inv (s : State) : Prop where
  flag : s.main.hasEnded = false → s.canjump = 1 → Armed s
  usr1 : ∀ f ∈ s.ctx.frames, f.pc.Usr1 → Armed s
  cleared : ∀ f ∈ s.ctx.frames, f.pc = .jump → s.canjump = 0
  early : s.main = .usr1 ∨ s.main = .alrm ∨ s.main = .sigsetjmp ∨ s.main = .canjump → s.jumps = 0
  ready : s.main = .canjump → s.jmpbuf.isSome = true
  once : s.jumps ≤ 1

def Guarded (s : State) (a : Action) : Prop := a = .deliver .SIGUSR1 → .SIGUSR1 ∈ s.caught → s.canjump = 1

def JumpsSafely (s : State) : Prop :=
  ∀ f fs, s.ctx.frames = f :: fs → f.pc = .jump →
    s.jmpbuf.isSome = true ∧ s.armed = true ∧ s.main ≠ .returned ∧ s.jumps = 0

lemma inv_start : Inv (start inherited) where
  flag := by simp [start]
  usr1 := by simp [start]
  cleared := by simp [start]
  early := fun _ => rfl
  ready := by simp [start]
  once := by simp [start]

lemma inv_finish {pc : MainPc} (h : Inv s) (hpc : pc.hasEnded = true) : Inv (s.finish pc) where
  flag := by simp [State.finish, hpc]
  usr1 := by simp [State.finish]
  cleared := by simp [State.finish]
  early := by
    rintro (hp | hp | hp | hp) <;> simp [State.finish] at hp <;> simp [hp, MainPc.hasEnded] at hpc
  ready := by
    intro hp
    simp [State.finish] at hp
    simp [hp, MainPc.hasEnded] at hpc
  once := h.once

lemma inv_mainStep (h : Inv s) (hf : s.ctx.frames = []) (hs : mainStep option s = some t) : Inv t := by
  have hflag : s.main ≠ .pause → s.main.hasEnded = false → s.canjump ≠ 1 :=
    fun hp hal hc => hp (h.flag hal hc).main
  cases hp : s.main with
  | pause | exited | killed | undefined => simp [mainStep, hp] at hs
  | returned =>
    simp only [mainStep, hp, Option.some.injEq] at hs
    subst hs
    exact inv_finish h rfl
  | canjump =>
    simp only [mainStep, hp, Option.some.injEq] at hs
    subst hs
    have harmed : Armed { s with main := .pause, canjump := 1, armed := true } :=
      ⟨rfl, h.ready hp, rfl, h.early (by simp [hp])⟩
    exact {
      flag := fun _ _ => harmed
      usr1 := fun _ _ _ => harmed
      cleared := by simp [hf]
      early := by simp
      ready := by simp
      once := h.once }
  | sigsetjmp =>
    simp only [mainStep, hp, Option.some.injEq] at hs
    subst hs
    exact { h with
      flag := fun _ hc => (hflag (by simp [hp]) (by simp [hp, MainPc.hasEnded]) hc).elim
      usr1 := by simp [hf]
      early := fun _ => h.early (by simp [hp])
      ready := fun _ => rfl }
  | usr1 | alrm =>
    simp only [mainStep, hp, Option.some.injEq] at hs
    subst hs
    exact { h with
      flag := fun _ hc => (hflag (by simp [hp]) (by simp [hp, MainPc.hasEnded]) hc).elim
      usr1 := by simp [State.catch, hf]
      early := fun _ => h.early (by simp [hp])
      ready := by simp [State.catch] }
  | ending =>
    simp only [mainStep, hp, Option.some.injEq] at hs
    subst hs
    exact { h with
      flag := fun _ hc => (hflag (by simp [hp]) (by simp [hp, MainPc.hasEnded]) hc).elim
      usr1 := by simp [State.prMask, hf]
      early := by simp
      ready := by simp }

lemma handlerStep_frames (hf : s.ctx.frames = f :: fs) (hp : f.pc ≠ .jump) :
    (handlerStep s f.pc).main = s.main ∧ (handlerStep s f.pc).jmpbuf = s.jmpbuf ∧
    (handlerStep s f.pc).armed = s.armed ∧ (handlerStep s f.pc).jumps = s.jumps ∧
    ((handlerStep s f.pc).canjump = s.canjump ∨ (handlerStep s f.pc).canjump = 0) ∧
    ((handlerStep s f.pc).ctx.frames = fs ∨
      ∃ pc, (handlerStep s f.pc).ctx.frames = ⟨pc, f.saved⟩ :: fs ∧ (pc.Usr1 → f.pc.Usr1) ∧
        (pc = .jump → (handlerStep s f.pc).canjump = 0)) := by
  have hgo : ∀ pc, (s.ctx.goto pc).frames = ⟨pc, f.saved⟩ :: fs := fun pc => Context.goto_frames hf
  cases hq : f.pc with
  | jump => exact (hp hq).elim
  | ret => simp [handlerStep, Context.leave_frames hf]
  | _ => simp [handlerStep, State.goto, State.prMask, hgo, HandlerPc.Usr1]

lemma inv_handlerStep (h : Inv s) (hf : s.ctx.frames = f :: fs) : Inv (handlerStep s f.pc) := by
  have htop : f ∈ s.ctx.frames := by simp [hf]
  have hin : ∀ g ∈ fs, g ∈ s.ctx.frames := by
    intro g hg
    simp [hf, hg]
  by_cases hp : f.pc = .jump
  · obtain ⟨hmain, hfill, -, hj⟩ := h.usr1 f htop (by simp [hp, HandlerPc.Usr1])
    obtain ⟨saved, hb⟩ := Option.isSome_iff_exists.mp hfill
    have hc := h.cleared f htop hp
    rw [hp]
    simp only [handlerStep, siglongjmp, hb, hmain, reduceCtorEq, if_false]
    exact {
      flag := by simp [hc]
      usr1 := by simp
      cleared := by simp
      early := by simp
      ready := by simp
      once := by simp [hj] }
  · obtain ⟨hmain, hbuf, harm, hjmp, hcj, hfr⟩ := handlerStep_frames hf hp
    have harmed : Armed s → Armed (handlerStep s f.pc) := by
      intro ha
      exact ⟨hmain.trans ha.main, by rw [hbuf]; exact ha.filled, harm.trans ha.armed, hjmp.trans ha.jumps⟩
    have hzero : s.canjump = 0 → (handlerStep s f.pc).canjump = 0 := by
      intro h0
      rcases hcj with hc | hc
      · exact hc.trans h0
      · exact hc
    have hmem : ∀ g ∈ (handlerStep s f.pc).ctx.frames, g ∈ fs ∨
        (g.pc.Usr1 → f.pc.Usr1) ∧ (g.pc = .jump → (handlerStep s f.pc).canjump = 0) := by
      intro g hg
      rcases hfr with hfr | ⟨pc, hfr, hu, hz⟩ <;> rw [hfr] at hg
      · exact .inl hg
      · rcases List.mem_cons.mp hg with rfl | hg
        · exact .inr ⟨hu, hz⟩
        · exact .inl hg
    exact {
      flag := by
        intro hal hc
        rw [hmain] at hal
        rcases hcj with hk | hk
        · exact harmed (h.flag hal (hk.symm.trans hc))
        · rw [hk] at hc
          cases hc
      usr1 := by
        intro g hg hu
        rcases hmem g hg with hg | ⟨hb, -⟩
        · exact harmed (h.usr1 g (hin g hg) hu)
        · exact harmed (h.usr1 f htop (hb hu))
      cleared := by
        intro g hg hj
        rcases hmem g hg with hg | ⟨-, hz⟩
        · exact hzero (h.cleared g (hin g hg) hj)
        · exact hz hj
      early := by
        rw [hmain, hjmp]
        exact h.early
      ready := by
        rw [hmain, hbuf]
        exact h.ready
      once := hjmp ▸ h.once }

lemma inv_deliver (h : Inv s) (hg : Guarded s (.deliver x)) (hx : x = .SIGUSR1 ∨ x = .SIGALRM)
    (hal : s.main.hasEnded = false) : Inv (deliver s x) := by
  by_cases hc : x ∈ s.caught
  · have heq : deliver s x = { s with ctx := s.ctx.enter (entry x) x } := by simp [deliver, hc]
    have htop : (entry x).Usr1 → Armed s := by
      intro hu
      rcases hx with rfl | rfl
      · exact h.flag hal (hg rfl hc)
      · exact hu.elim
    have hjump : entry x ≠ .jump := by rcases hx with rfl | rfl <;> simp [entry]
    have harmed : Armed s → Armed { s with ctx := s.ctx.enter (entry x) x } :=
      fun ha => ⟨ha.main, ha.filled, ha.armed, ha.jumps⟩
    rw [heq]
    exact { h with
      flag := fun hal hcj => harmed (h.flag hal hcj)
      usr1 := by
        intro g hm hu
        rcases List.mem_cons.mp hm with rfl | hm
        · exact harmed (htop hu)
        · exact harmed (h.usr1 g hm hu)
      cleared := by
        intro g hm hj
        rcases List.mem_cons.mp hm with rfl | hm
        · exact (hjump hj).elim
        · exact h.cleared g hm hj }
  · have heq : deliver s x = s.finish (.killed x) := by simp [deliver, hc]
    rw [heq]
    exact inv_finish h rfl

lemma fail_eq (hs : fail s = some t) : s.finish (.exited EXIT_FAILURE) = t := by
  simp only [fail] at hs
  split at hs <;> split at hs <;> simp_all

theorem invariant : (machine option inherited).Invariant Guarded Inv where
  base := by
    rintro s rfl
    exact inv_start
  step s a t h ha hs := by
    cases a with
    | run =>
      simp only [machine, step] at hs
      cases hf : s.ctx.frames with
      | nil => exact inv_mainStep h hf (by simpa [hf] using hs)
      | cons f fs =>
        simp only [hf, Option.some.injEq] at hs
        exact hs ▸ inv_handlerStep h hf
    | fail =>
      obtain rfl := fail_eq hs
      exact inv_finish h rfl
    | deliver x =>
      simp only [machine, step, Option.ite_none_right_eq_some, Option.some.injEq] at hs
      obtain ⟨⟨hx, -, hal⟩, rfl⟩ := hs
      exact inv_deliver h ha hx hal

/-- If every `SIGUSR1` that is handled arrives while `canjump` is set, every jump is safe, and there is at
most one. -/
theorem jumps_safely (h : (machine option inherited).Reach Guarded s) : JumpsSafely s ∧ s.jumps ≤ 1 := by
  have hi := invariant.holds h
  refine ⟨?_, hi.once⟩
  intro f fs hf hp
  obtain ⟨hmain, hfill, harm, hj⟩ := hi.usr1 f (by simp [hf]) (by simp [hp, HandlerPc.Usr1])
  exact ⟨hfill, harm, by simp [hmain], hj⟩

instance : Decidable (Guarded s a) := inferInstanceAs (Decidable (_ → _ → _))

def pausedRun : List Action :=
  [.run, .run, .run, .run, .deliver .SIGUSR1, .run, .run, .run, .deliver .SIGALRM, .run, .run, .run, .run, .run]

theorem jumps_safely_paused : ∃ s, (machine 1 ∅).exec (start ∅) pausedRun = some s ∧
    s.ctx.frames.map Frame.pc = [.jump] ∧ JumpsSafely s ∧ s.jumps ≤ 1 := by
  have ha : (machine 1 ∅).Along Guarded (start ∅) pausedRun := by decide +kernel
  have hd : ((machine 1 ∅).exec (start ∅) pausedRun).map (fun s => s.ctx.frames.map Frame.pc) =
      some [.jump] := by decide +kernel
  obtain ⟨s, hs, hpc⟩ := Option.map_eq_some_iff.mp hd
  exact ⟨s, hs, hpc, jumps_safely ((Machine.Reach.init rfl).exec ha hs)⟩

def earlyRun : List Action :=
  [.run, .run, .deliver .SIGUSR1, .run, .run, .run, .deliver .SIGALRM, .run, .run, .run, .run, .run]

theorem jumps_unsafely : ∃ s, (machine 1 ∅).exec (start ∅) earlyRun = some s ∧ s.main = .sigsetjmp ∧
    s.ctx.frames.map Frame.pc = [.jump] ∧ ¬ JumpsSafely s := by
  have hd : ((machine 1 ∅).exec (start ∅) earlyRun).map
      (fun s => (s.main, s.ctx.frames.map Frame.pc, s.jmpbuf)) = some (.sigsetjmp, [.jump], none) := by decide +kernel
  obtain ⟨s, hs, hd⟩ := Option.map_eq_some_iff.mp hd
  simp only [Prod.mk.injEq] at hd
  obtain ⟨hmain, hpc, hb⟩ := hd
  obtain ⟨f, fs, hf, hp, -⟩ := List.map_eq_cons_iff.mp hpc
  refine ⟨s, hs, hmain, hpc, fun hsafe => ?_⟩
  have hfill := (hsafe f fs hf hp).1
  simp [hb] at hfill

end ApueCode.SigSetJmp
