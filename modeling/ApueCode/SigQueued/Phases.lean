import ApueCode.SigQueued.Model

/-! The handlers on the stack while the parent waits, and after it has stopped waiting. -/

namespace ApueCode.SigQueued

open Posix Transition

variable {d : Discipline} {inherited b m : Mask} {s t : State} {x : Signo} {w : ℕ} {left : Bool}
variable {f : Frame HandlerPc} {fs pre rest : List (Frame HandlerPc)} {pc : HandlerPc}

def MainPc.base (inherited : Mask) : MainPc → Mask
  | .sigQuit | .sigUsr1 | .sigUsr2 | .block => inherited
  | _ => inherited ∪ mask

def Nested (pc : HandlerPc) : Prop := pc = .incr ∨ pc = .testWait ∨ pc = .setFlag ∨ pc = .ret

def HandlerPc.InLoop : HandlerPc → Prop
  | .testFlag | .suspend | .waiting _ _ => True
  | _ => False

instance : DecidablePred HandlerPc.InLoop
  | .testFlag | .suspend | .waiting _ _ => isTrue trivial
  | .incr | .testWait | .clearWait | .clearFlag | .setMask | .setFlag | .ret => isFalse id

def HandlerPc.Suspended : HandlerPc → Prop
  | .waiting _ _ => True
  | _ => False

instance : DecidablePred HandlerPc.Suspended
  | .waiting _ _ => isTrue trivial
  | .incr | .testWait | .clearWait | .testFlag | .suspend | .clearFlag | .setMask | .setFlag | .ret =>
    isFalse id

inductive Phase (b : Mask) : Bool → ℕ → Context HandlerPc → Prop
  | idle {w : ℕ} : w ≠ 0 → Phase b false w ⟨b, []⟩
  | early {w : ℕ} {pc : HandlerPc} : w ≠ 0 → .SIGQUIT ∉ b → pc = .incr ∨ pc = .testWait ∨ pc = .clearWait →
      Phase b false w ⟨insert .SIGQUIT b, [⟨pc, b⟩]⟩
  | loop {pc : HandlerPc} : .SIGQUIT ∉ b → pc = .testFlag ∨ pc = .suspend →
      Phase b false 0 ⟨insert .SIGQUIT b, [⟨pc, b⟩]⟩
  | suspended {m : Mask} {pre : List (Frame HandlerPc)} {woken : Bool} : .SIGQUIT ∉ b →
      Stacked Nested ∅ m pre → (woken = false → pre = []) →
      Phase b false 0 ⟨m, pre ++ [⟨.waiting (insert .SIGQUIT b) woken, b⟩]⟩
  | leaving {pc : HandlerPc} : .SIGQUIT ∉ b → pc = .clearFlag ∨ pc = .setMask →
      Phase b true 0 ⟨insert .SIGQUIT b, [⟨pc, b⟩]⟩
  | unblocked {m o : Mask} {pre : List (Frame HandlerPc)} : .SIGQUIT ∉ b → Stacked Nested o m pre →
      Phase b true 0 ⟨m, pre ++ [⟨.ret, b⟩]⟩
  | past {m : Mask} {pre : List (Frame HandlerPc)} : .SIGQUIT ∉ b → Stacked Nested b m pre →
      Phase b true 0 ⟨m, pre⟩

lemma nested_wake (h : Nested pc) : pc.wake = pc := by
  rcases h with rfl | rfl | rfl | rfl <;> rfl

lemma nested_entry (x : Signo) : Nested (entry x) := by
  cases x <;> simp [entry, Nested]

lemma nested_step (hc : s.ctx = ⟨m, f :: (pre ++ rest)⟩) (hn : Nested f.pc) (hw : s.waitflag = 0)
    (hs : handlerStep s f.pc = some t) :
    t.waitflag = 0 ∧ ∃ m' pre', t.ctx = ⟨m', pre' ++ rest⟩ ∧
      ∀ o, Stacked Nested o m (f :: pre) → Stacked Nested o m' pre' := by
  have hgo : ∀ pc', Nested pc' → ∃ m' pre', s.ctx.goto pc' = ⟨m', pre' ++ rest⟩ ∧
      ∀ o, Stacked Nested o m (f :: pre) → Stacked Nested o m' pre' := by
    intro pc' hpc
    exact ⟨m, ⟨pc', f.saved⟩ :: pre, by simp [Context.goto, hc], fun o ho => ho.goto hpc⟩
  rcases hn with hf | hf | hf | hf <;> rw [hf] at hs <;> simp only [handlerStep, Option.some.injEq] at hs <;>
    subst hs
  · exact ⟨hw, hgo .testWait (.inr (.inl rfl))⟩
  · refine ⟨hw, ?_⟩
    simp only [hw, ne_eq, not_true, if_false]
    exact hgo .ret (.inr (.inr (.inr rfl)))
  · exact ⟨hw, hgo .ret (.inr (.inr (.inr rfl)))⟩
  · exact ⟨hw, f.saved, pre, by simp [Context.leave, hc], fun o ho => ho.leave⟩

lemma phase_handlerStep {c : Context HandlerPc} (h : Phase b left w c) (hc : s.ctx = c) (hw : s.waitflag = w)
    (hz : s.zeromask = ∅) (hf : c.frames = f :: fs) (hs : handlerStep s f.pc = some t) :
    ∃ left', Phase b left' t.waitflag t.ctx ∧ (left' = left ∨ left' = true ∧ s.sigflag ≠ 0) := by
  cases h with
  | idle => cases hf
  | early hw0 hb hpc =>
    obtain ⟨rfl, rfl⟩ := List.cons.inj hf
    rcases hpc with rfl | rfl | rfl <;> simp only [handlerStep, Option.some.injEq] at hs <;> subst hs
    · refine ⟨false, ?_, .inl rfl⟩
      simpa [State.goto, Context.goto, hc, hw] using Phase.early hw0 hb (.inr (.inl rfl))
    · refine ⟨false, ?_, .inl rfl⟩
      simpa [State.goto, Context.goto, hc, hw, hw0] using Phase.early hw0 hb (.inr (.inr rfl))
    · refine ⟨false, ?_, .inl rfl⟩
      simpa [State.goto, Context.goto, hc] using Phase.loop hb (.inl rfl)
  | loop hb hpc =>
    obtain ⟨rfl, rfl⟩ := List.cons.inj hf
    rcases hpc with rfl | rfl <;> simp only [handlerStep, Option.some.injEq] at hs <;> subst hs
    · by_cases hg : s.sigflag = 0
      · refine ⟨false, ?_, .inl rfl⟩
        simpa [State.goto, Context.goto, hc, hw, hg] using Phase.loop hb (.inr rfl)
      · refine ⟨true, ?_, .inr ⟨rfl, hg⟩⟩
        simpa [State.goto, Context.goto, hc, hw, hg] using Phase.leaving hb (.inl rfl)
    · refine ⟨false, ?_, .inl rfl⟩
      simpa [Context.goto, Context.setMask, hc, hw, hz] using
        @Phase.suspended b ∅ [] false hb rfl (fun _ => rfl)
  | @suspended m pre woken hb hst hwk =>
    cases pre with
    | nil =>
      obtain ⟨rfl, rfl⟩ := List.cons.inj hf
      cases woken with
      | false => simp [handlerStep] at hs
      | true =>
        simp only [handlerStep, if_true, Option.some.injEq] at hs
        subst hs
        refine ⟨false, ?_, .inl rfl⟩
        simpa [Context.goto, Context.setMask, hc, hw] using Phase.loop hb (.inl rfl)
    | cons g pre =>
      obtain ⟨rfl, rfl⟩ := List.cons.inj hf
      obtain ⟨hw', m', pre', ht, hk⟩ := nested_step hc hst.1 hw hs
      refine ⟨false, ?_, .inl rfl⟩
      rw [hw', ht]
      refine .suspended hb (hk ∅ hst) ?_
      intro hwo
      cases hwk hwo
  | leaving hb hpc =>
    obtain ⟨rfl, rfl⟩ := List.cons.inj hf
    rcases hpc with rfl | rfl <;> simp only [handlerStep, Option.some.injEq] at hs <;> subst hs
    · refine ⟨true, ?_, .inl rfl⟩
      simpa [State.goto, Context.goto, hc, hw] using Phase.leaving hb (.inr rfl)
    · refine ⟨true, ?_, .inl rfl⟩
      simpa [Context.goto, Context.setMask, hc, hw] using
        @Phase.unblocked b s.omask s.omask [] hb rfl
  | @unblocked m o pre hb hst =>
    cases pre with
    | nil =>
      obtain ⟨rfl, rfl⟩ := List.cons.inj hf
      simp only [handlerStep, Option.some.injEq] at hs
      subst hs
      refine ⟨true, ?_, .inl rfl⟩
      simpa [Context.leave, hc, hw] using @Phase.past b b [] hb rfl
    | cons g pre =>
      obtain ⟨rfl, rfl⟩ := List.cons.inj hf
      obtain ⟨hw', m', pre', ht, hk⟩ := nested_step hc hst.1 hw hs
      refine ⟨true, ?_, .inl rfl⟩
      rw [hw', ht]
      exact .unblocked hb (hk o hst)
  | @past m pre hb hst =>
    cases pre with
    | nil => cases hf
    | cons g pre =>
      obtain ⟨rfl, rfl⟩ := List.cons.inj hf
      have hc' : s.ctx = ⟨m, g :: (pre ++ [])⟩ := by simpa using hc
      obtain ⟨hw', m', pre', ht, hk⟩ := nested_step hc' hst.1 hw hs
      refine ⟨true, ?_, .inl rfl⟩
      rw [hw', ht, List.append_nil]
      exact .past hb (hk b hst)

lemma wakeTop_nested (hn : ∀ f ∈ pre, Nested f.pc) (hp : pre ≠ []) (rest : List (Frame HandlerPc)) :
    wakeTop ⟨m, pre ++ rest⟩ = ⟨m, pre ++ rest⟩ := by
  cases pre with
  | nil => exact (hp rfl).elim
  | cons f fs => simp [wakeTop, nested_wake (hn f (by simp))]

lemma phase_deliver {c : Context HandlerPc} (h : Phase b left w c) (hm : x ∉ c.mask)
    (hx : x = .SIGQUIT ∨ x ∈ b) : Phase b left w ((wakeTop c).enter (entry x) x) := by
  have hblocked : .SIGQUIT ∉ b → c.mask ≠ insert .SIGQUIT b := by
    intro _ hcm
    rw [hcm] at hm
    rcases hx with rfl | hx
    · exact hm (Finset.mem_insert_self _ _)
    · exact hm (Finset.mem_insert_of_mem hx)
  cases h with
  | idle hw =>
    rcases hx with rfl | hx
    · exact .early hw hm (.inl rfl)
    · exact (hm hx).elim
  | early _ hb _ | loop hb _ | leaving hb _ => exact (hblocked hb rfl).elim
  | @suspended m pre woken hb hst hwk =>
    have hent : Stacked Nested ∅ (insert x m) (⟨entry x, m⟩ :: pre) := hst.enter (nested_entry x)
    cases pre with
    | nil =>
      simpa [wakeTop, Context.enter, HandlerPc.wake] using
        @Phase.suspended b (insert x m) [⟨entry x, m⟩] true hb hent (by simp)
    | cons f fs =>
      rw [wakeTop_nested hst.forall_ok (by simp)]
      refine Phase.suspended hb hent ?_
      intro hwo
      cases hwk hwo
  | @unblocked m o pre hb hst =>
    have hent : Stacked Nested o (insert x m) (⟨entry x, m⟩ :: pre) := hst.enter (nested_entry x)
    cases pre with
    | nil => simpa [wakeTop, Context.enter, HandlerPc.wake] using Phase.unblocked hb hent
    | cons f fs =>
      rw [wakeTop_nested hst.forall_ok (by simp)]
      exact .unblocked hb hent
  | @past m pre hb hst =>
    have hent : Stacked Nested b (insert x m) (⟨entry x, m⟩ :: pre) := hst.enter (nested_entry x)
    cases pre with
    | nil => exact .past hb hent
    | cons f fs =>
      have hwt := wakeTop_nested (m := m) hst.forall_ok (by simp) []
      rw [List.append_nil] at hwt
      rw [hwt]
      exact .past hb hent

lemma phase_main : Phase b left w ⟨m, []⟩ ↔
    m = b ∧ (left = false ∧ w ≠ 0 ∨ left = true ∧ w = 0 ∧ .SIGQUIT ∉ b) := by
  constructor
  · intro h
    generalize hc : (⟨m, []⟩ : Context HandlerPc) = c at h
    cases h with
    | idle hw =>
      cases hc
      exact ⟨rfl, .inl ⟨rfl, hw⟩⟩
    | early | loop | leaving => cases hc
    | suspended | unblocked => simp at hc
    | past hb hst =>
      cases hc
      exact ⟨hst, .inr ⟨rfl, rfl, hb⟩⟩
  · rintro ⟨rfl, ⟨rfl, hw⟩ | ⟨rfl, rfl, hb⟩⟩
    · exact .idle hw
    · exact .past hb rfl

lemma phase_mainStep (h : Phase (s.main.base inherited) left s.waitflag s.ctx) (hf : s.ctx.frames = [])
    (hs : mainStep s = some t) : t.main.hasEnded = true ∨ Phase (t.main.base inherited) left t.waitflag t.ctx := by
  rcases hc : s.ctx with ⟨m, fs⟩
  obtain rfl : fs = [] := by simpa [hc] using hf
  rw [hc] at h
  obtain ⟨hm, hw⟩ := phase_main.mp h
  have hgo : ∀ pc : MainPc, pc.base inherited = s.main.base inherited →
      Phase (pc.base inherited) left s.waitflag s.ctx := by
    intro pc hpc
    rw [hpc, hc]
    exact h
  cases hp : s.main with
  | exited | killed => simp [mainStep, hp] at hs
  | returning =>
    simp only [mainStep, hp, Option.some.injEq] at hs
    subst hs
    exact .inl rfl
  | block =>
    simp only [mainStep, hp, Option.some.injEq] at hs
    subst hs
    rw [hp] at hm hw
    refine .inr ?_
    simp only [hc, Context.setMask]
    refine phase_main.mpr ⟨by simp [MainPc.base, hm], ?_⟩
    simpa [MainPc.base, mask] using hw
  | test2 =>
    simp only [mainStep, hp, Option.some.injEq] at hs
    subst hs
    right
    split
    · exact hgo .returning (by simp [hp, MainPc.base])
    · exact hgo .test4 (by simp [hp, MainPc.base])
  | test4 =>
    simp only [mainStep, hp, Option.some.injEq] at hs
    subst hs
    right
    split
    · exact hgo .returning (by simp [hp, MainPc.base])
    · exact hgo .count (by simp [hp, MainPc.base])
  | sigQuit | sigUsr1 | sigUsr2 | fork | sleep | count =>
    simp only [mainStep, hp, Option.some.injEq] at hs
    subst hs
    right
    apply hgo
    simp [hp, MainPc.base, State.catch, State.print]

lemma nested_not_inLoop (h : Nested pc) : ¬ pc.InLoop := by
  rcases h with rfl | rfl | rfl | rfl <;> simp [HandlerPc.InLoop]

lemma phase_left {c : Context HandlerPc} (h : Phase b true w c) :
    w = 0 ∧ ∀ f ∈ c.frames, ¬ f.pc.InLoop := by
  cases h with
  | leaving hb hpc =>
    refine ⟨rfl, ?_⟩
    rcases hpc with rfl | rfl <;> simp [HandlerPc.InLoop]
  | unblocked hb hst =>
    refine ⟨rfl, fun f hf => ?_⟩
    rcases List.mem_append.mp hf with hf | hf
    · exact nested_not_inLoop (hst.forall_ok f hf)
    · simp [List.mem_singleton.mp hf, HandlerPc.InLoop]
  | past hb hst => exact ⟨rfl, fun f hf => nested_not_inLoop (hst.forall_ok f hf)⟩

lemma phase_not_clearFlag {c : Context HandlerPc} (h : Phase b false w c) :
    ∀ f ∈ c.frames, f.pc ≠ .clearFlag := by
  intro f hf
  cases h with
  | idle => cases hf
  | early _ _ hpc => rcases hpc with rfl | rfl | rfl <;> simp [List.mem_singleton.mp hf]
  | loop _ hpc => rcases hpc with rfl | rfl <;> simp [List.mem_singleton.mp hf]
  | suspended _ hst _ =>
    rcases List.mem_append.mp hf with hf | hf
    · rcases hst.forall_ok f hf with hp | hp | hp | hp <;> simp [hp]
    · simp [List.mem_singleton.mp hf]

def HandlerPc.Asleep : HandlerPc → Prop
  | .suspend | .waiting _ false => True
  | _ => False

lemma nested_not_asleep (h : Nested pc) : ¬ pc.Asleep := by
  rcases h with rfl | rfl | rfl | rfl <;> simp [HandlerPc.Asleep]

lemma phase_asleep {c : Context HandlerPc} (h : Phase b left w c) (hf : f ∈ c.frames) (hp : f.pc.Asleep) :
    c.frames = [f] ∧ (f.pc ≠ .suspend → c.mask = ∅) := by
  have hnest : ∀ {o m : Mask} {pre : List (Frame HandlerPc)}, Stacked Nested o m pre → f ∉ pre :=
    fun hst hm => nested_not_asleep (hst.forall_ok f hm) hp
  cases h with
  | idle => cases hf
  | early _ _ hpc | leaving _ hpc =>
    rw [List.mem_singleton.mp hf] at hp
    rcases hpc with rfl | rfl | rfl <;> cases hp
  | loop _ hpc =>
    obtain rfl := List.mem_singleton.mp hf
    rcases hpc with rfl | rfl
    · cases hp
    · exact ⟨rfl, by simp⟩
  | @suspended m pre woken _ hst hwk =>
    rcases List.mem_append.mp hf with hf | hf
    · exact (hnest hst hf).elim
    · obtain rfl := List.mem_singleton.mp hf
      cases woken with
      | true => cases hp
      | false =>
        obtain rfl := hwk rfl
        exact ⟨rfl, fun _ => hst⟩
  | unblocked _ hst =>
    rcases List.mem_append.mp hf with hf | hf
    · exact (hnest hst hf).elim
    · rw [List.mem_singleton.mp hf] at hp
      cases hp
  | past _ hst => exact (hnest hst hf).elim

lemma phase_not_left {c : Context HandlerPc} (h : Phase b false w c) :
    w ≠ 0 ∨ ∃ f ∈ c.frames, f.pc.InLoop := by
  cases h with
  | idle hw => exact .inl hw
  | early hw _ _ => exact .inl hw
  | loop _ hpc =>
    refine .inr ⟨_, List.mem_singleton_self _, ?_⟩
    rcases hpc with rfl | rfl <;> trivial
  | suspended _ _ _ => exact .inr ⟨_, List.mem_append_right _ (List.mem_singleton_self _), trivial⟩

lemma phase_early {c : Context HandlerPc} (h : Phase b left w c) (hw : w ≠ 0) (hf : f ∈ c.frames) :
    f.pc ≠ .ret := by
  cases h with
  | idle => cases hf
  | early _ _ hpc =>
    rw [List.mem_singleton.mp hf]
    rcases hpc with rfl | rfl | rfl <;> simp
  | _ => exact (hw rfl).elim

lemma phase_quit {c : Context HandlerPc} (h : Phase b false w c) (hm : .SIGQUIT ∉ c.mask) :
    w ≠ 0 ∧ c.frames = [] ∨ ∃ f ∈ c.frames, f.pc.Suspended := by
  cases h with
  | idle hw => exact .inl ⟨hw, rfl⟩
  | early _ _ _ | loop _ _ => exact (hm (Finset.mem_insert_self _ _)).elim
  | suspended _ _ _ => exact .inr ⟨_, List.mem_append_right _ (List.mem_singleton_self _), trivial⟩

end ApueCode.SigQueued
