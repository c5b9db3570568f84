import ApueCode.SigQueued.Wakeup

/-! The mask after `WAIT_CHILD`, which runs inside the handler of `SIGQUIT`. -/

namespace ApueCode.SigQueued

open Posix Transition

variable {d : Discipline} {inherited : Mask} {s t : State} {a : Action}

def HandlerPc.InWaitChild : HandlerPc → Prop
  | .testFlag | .suspend | .waiting _ _ | .clearFlag | .setMask => True
  | _ => False

def State.Waited (s : State) : Prop :=
  s.main.hasEnded = false ∧ s.waitflag = 0 ∧ ∀ f ∈ s.ctx.frames, ¬ f.pc.InWaitChild

def MainPc.Saved : MainPc → Prop
  | .fork | .sleep | .test2 | .test4 | .count | .returning => True
  | _ => False

lemma saved_mainStep (h : Inv inherited s) (hj : s.main.Saved → s.omask = inherited) (hf : s.ctx.frames = [])
    (hs : mainStep s = some t) : t.main.Saved → t.omask = inherited := by
  cases hp : s.main with
  | exited | killed => simp [mainStep, hp] at hs
  | block =>
    have hm := (inv_idle h hf (by simp [hp, MainPc.hasEnded])).1
    simp only [mainStep, hp, Option.some.injEq] at hs
    subst hs
    simpa [hp, MainPc.base] using fun _ => hm
  | sigQuit | sigUsr1 | sigUsr2 | returning =>
    simp only [mainStep, hp, Option.some.injEq] at hs
    subst hs
    simp [MainPc.Saved, State.catch, State.finish]
  | test2 | test4 =>
    have hold := hj (by simp [hp, MainPc.Saved])
    simp only [mainStep, hp, Option.some.injEq] at hs
    subst hs
    split <;> exact fun _ => hold
  | fork | sleep | count =>
    have hold := hj (by simp [hp, MainPc.Saved])
    simp only [mainStep, hp, Option.some.injEq] at hs
    subst hs
    exact fun _ => hold

lemma saved_step (h : Inv inherited s) (hj : s.main.Saved → s.omask = inherited) (hs : step d s a = some t) :
    t.main.Saved → t.omask = inherited := by
  cases a with
  | run =>
    simp only [step] at hs
    cases hf : s.ctx.frames with
    | nil => exact saved_mainStep h hj hf (by simpa [hf] using hs)
    | cons f fs =>
      obtain ⟨hmain, -, -, -, -, hmask, -⟩ := handlerStep_frame (by simpa [hf] using hs)
      rw [hmain, hmask]
      exact hj
  | fail =>
    obtain rfl := fail_eq hs
    exact False.elim
  | deliver x =>
    simp only [step, Option.ite_none_right_eq_some, Option.some.injEq] at hs
    obtain ⟨-, rfl⟩ := hs
    simp only [deliver]
    split
    · exact hj
    · exact False.elim
  | childSend =>
    simp only [step] at hs
    split at hs
    · obtain rfl := Option.some.inj hs
      rw [(send_frame d _ _).1, (send_frame d _ _).2.1]
      exact hj
    · cases hs
  | otherQuit =>
    obtain rfl := Option.some.inj hs
    rw [(send_frame d s .SIGQUIT).1, (send_frame d s .SIGQUIT).2.1]
    exact hj

lemma saved : (machine d inherited).Invariant (fun _ _ => True)
    (fun s => Inv inherited s ∧ (s.main.Saved → s.omask = inherited)) := by
  apply invariant.strengthen
  · rintro s rfl
    exact False.elim
  · intro s a t h _ hj _ hs
    exact saved_step h hj hs

lemma saved_of_forked {pc : MainPc} (hun : ¬ pc.Unforked) (hal : pc.hasEnded = false) : pc.Saved := by
  cases pc <;> simp [MainPc.Unforked, MainPc.hasEnded] at hun hal <;> trivial

theorem mask_after_wait (h : (machine d inherited).Reachable s) (hw : s.Waited) (hf : s.ctx.frames = []) :
    s.omask = inherited ∧ s.ctx.mask = inherited ∪ mask := by
  obtain ⟨hi, hj⟩ := saved.holds h
  obtain ⟨hm, hover⟩ := inv_idle hi hf hw.1
  have hun : ¬ s.main.Unforked := by
    intro hu
    have hc := (hover hw.2.1).1
    rw [hi.unforked hu] at hc
    cases hc
  exact ⟨hj (saved_of_forked hun hw.1), hm.trans (base_of_forked hun)⟩

def posted (d : Discipline) : Pending := sends.foldl (fun p x => Pending.post p x d) fun _ => 0

def sentAll (d : Discipline) (inherited : Mask) : State :=
  { start inherited with
    main := .sleep
    ctx := ⟨inherited ∪ mask, []⟩
    caught := {.SIGUSR2, .SIGUSR1, .SIGQUIT}
    pending := posted d
    omask := inherited
    child := some [] }

def asleep (d : Discipline) (inherited : Mask) : State :=
  { sentAll d inherited with
    ctx := ⟨∅, [⟨.waiting (insert .SIGQUIT (inherited ∪ mask)) false, inherited ∪ mask⟩]⟩
    pending := (posted d).take .SIGQUIT
    sigcount := 1
    waitflag := 0 }

def resumed (d : Discipline) (inherited : Mask) : State :=
  { asleep d inherited with
    ctx := ⟨inherited ∪ mask, []⟩
    pending := (asleep d inherited).pending.take .SIGUSR2 }

lemma posted_pos (d : Discipline) : 0 < posted d .SIGQUIT ∧ 0 < (posted d).take .SIGQUIT .SIGUSR2 := by
  cases d <;> decide

def waitedRun : List Action :=
  List.replicate 5 .run ++ List.replicate 5 .childSend ++ .deliver .SIGQUIT :: List.replicate 5 .run ++
    .deliver .SIGUSR2 :: List.replicate 7 .run

lemma exec_waitedRun (d : Discipline) (hq : .SIGQUIT ∉ inherited) :
    ∃ s, (machine d inherited).exec (start inherited) waitedRun = some s ∧ s.Waited ∧ s.ctx.frames = [] := by
  have hsent : (machine d inherited).exec (start inherited)
      (List.replicate 5 .run ++ List.replicate 5 .childSend) = some (sentAll d inherited) := rfl
  have hquit : (machine d inherited).step (sentAll d inherited) (.deliver .SIGQUIT) =
      some (deliver (sentAll d inherited) .SIGQUIT) :=
    if_pos ⟨(posted_pos d).1, by simp [sentAll, hq, mask], rfl⟩
  have hasleep : (machine d inherited).exec (deliver (sentAll d inherited) .SIGQUIT)
      (List.replicate 5 .run) = some (asleep d inherited) := rfl
  have husr : (machine d inherited).step (asleep d inherited) (.deliver .SIGUSR2) =
      some (deliver (asleep d inherited) .SIGUSR2) :=
    if_pos ⟨(posted_pos d).2, Finset.notMem_empty _, rfl⟩
  have hback : (machine d inherited).exec (deliver (asleep d inherited) .SIGUSR2) (List.replicate 7 .run) =
      some (resumed d inherited) := rfl
  refine ⟨resumed d inherited, ?_, ⟨rfl, rfl, List.forall_mem_nil _⟩, rfl⟩
  rw [waitedRun, Machine.exec_append, Machine.exec_append, hsent]
  simp only [Machine.exec_cons, Option.bind_some, hquit, hasleep, husr]
  exact hback

/-- The mask from before `TELL_WAIT` is back when the parent has waited exactly if it had already
blocked the two signals that `TELL_WAIT` blocks. -/
theorem mask_restored_iff (hq : .SIGQUIT ∉ inherited) :
    (∀ s, (machine d inherited).Reachable s → s.Waited → s.ctx.frames = [] → s.ctx.mask = s.omask) ↔
      .SIGUSR1 ∈ inherited ∧ .SIGUSR2 ∈ inherited := by
  have hunion : inherited ∪ mask = inherited ↔ .SIGUSR1 ∈ inherited ∧ .SIGUSR2 ∈ inherited := by
    rw [Finset.union_eq_left]
    simp [mask, Finset.insert_subset_iff]
  constructor
  · intro h
    obtain ⟨s, hs, hw, hf⟩ := exec_waitedRun d hq
    have hr := Machine.reachable_of_exec rfl hs
    obtain ⟨ho, hm⟩ := mask_after_wait hr hw hf
    rw [← hunion, ← hm, h s hr hw hf, ho]
  · intro hb s hs hw hf
    obtain ⟨ho, hm⟩ := mask_after_wait hs hw hf
    rw [hm, ho, hunion.mpr hb]

theorem mask_restored_blocked : ∃ s, (machine .queued {.SIGUSR1, .SIGUSR2}).exec (start {.SIGUSR1, .SIGUSR2})
    waitedRun = some s ∧ s.Waited ∧ s.ctx.frames = [] ∧ s.ctx.mask = s.omask := by
  have hq : .SIGQUIT ∉ ({.SIGUSR1, .SIGUSR2} : Mask) := by decide
  obtain ⟨s, hs, hw, hf⟩ := exec_waitedRun .queued hq
  have hall := (mask_restored_iff (d := .queued) hq).mpr (by decide)
  exact ⟨s, hs, hw, hf, hall s (Machine.reachable_of_exec rfl hs) hw hf⟩

theorem mask_left_blocked : ∃ s, (machine .single ∅).exec (start ∅) waitedRun = some s ∧ s.Waited ∧
    s.ctx.frames = [] ∧ s.omask = ∅ ∧ s.ctx.mask = {.SIGUSR1, .SIGUSR2} := by
  obtain ⟨s, hs, hw, hf⟩ := exec_waitedRun .single (Finset.notMem_empty _)
  obtain ⟨ho, hm⟩ := mask_after_wait (Machine.reachable_of_exec rfl hs) hw hf
  exact ⟨s, hs, hw, hf, ho, hm⟩

end ApueCode.SigQueued
