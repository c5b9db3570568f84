import ApueCode.HandlerSemantics.Verdict

/-! When the two answers are right, when the process is killed, and that it comes to an end. -/

namespace ApueCode.HandlerSemantics

open Posix Transition Machine SigactionSemantics

variable {sa_flags : ℕ} {kept : Bool} {m : Mask} {s t : State} {a : Action} {as : List Action}

/-- The second answer is "prevent" if `SIGUSR2` is not blocked from the start and does not come while its handler has
seconds to sleep. -/
theorem answers (he : (machine sa_flags kept m).exec (start m) as = some t) (hx : t.main = .finished) :
    (t.stdout = [firstLine sa_flags m, preventLine] ∨ t.stdout = [firstLine sa_flags m, notPreventLine]) ∧
      (t.stdout = [firstLine sa_flags m, preventLine] ↔ .SIGUSR2 ∉ m ∧
        (machine sa_flags kept m).Along (fun s a => ¬ CutShort s a) (start m) as) := by
  have hne : preventLine ≠ notPreventLine := by decide
  have hreach : ∀ P, (machine sa_flags kept m).Along (fun s a => P → ¬ CutShort s a) (start m) as →
      Known m P t ∧ t.stdout = [firstLine sa_flags m, if t.left_to_sleep ≠ 0 then notPreventLine else preventLine] := by
    intro P hl
    cases inv.exec rfl hl he with
    | finished hpc hk ho => exact ⟨hk, ho⟩
    | _ => simp_all
  obtain ⟨hk, ho⟩ := hreach False ((along_true _ as).mono fun _ _ _ hf => hf.elim)
  have hiff : t.stdout = [firstLine sa_flags m, preventLine] ↔ t.left_to_sleep = 0 := by
    rw [ho]
    by_cases hz : t.left_to_sleep = 0 <;> simp [hz, hne.symm]
  refine ⟨?_, hiff.trans ⟨fun hz => ?_, fun h => ?_⟩⟩
  · rw [ho]
    split
    · exact .inr rfl
    · exact .inl rfl
  · refine ⟨fun hm => ?_, ?_⟩
    · have hfive := hk.blocked hm
      omega
    · by_contra hl
      have hinv : (machine sa_flags kept m).Invariant (fun s a => ¬ CutShort s a) (Inv sa_flags m False) :=
        inv.mono fun _ _ _ hf => hf.elim
      have hrest := hinv.broken (J := Rested sa_flags m)
        (fun s a t h hc hs => rested_of_cutShort h (not_not.mp hc) hs) rested_stable rfl he hl
      have hres := hrest.result
      rw [State.result, hk.ctx] at hres
      exact hres hz
  · exact (hreach True (h.2.mono fun _ _ hc _ => hc)).1.slept h.1 trivial

def systemVRun : List Action := [
  .main, .main, .deliver .SIGUSR1 0, .handler, .main, .main, .main, .child, .deliver .SIGUSR2 0,
  .handler, .handler, .handler, .handler, .child, .child, .deliver .SIGUSR2 3, .handler, .handler, .handler,
  .handler, .handler, .child, .main, .main]

def calmRun : List Action := [
  .main, .main, .deliver .SIGUSR1 0, .handler, .main, .main, .main, .child, .deliver .SIGUSR2 0,
  .handler, .handler, .handler, .handler, .child, .child, .deliver .SIGUSR2 0, .handler, .handler, .handler,
  .handler, .handler, .child, .main, .main]

theorem answers_systemVRun :
    (∃ t, (machine (SA_RESETHAND ||| SA_NODEFER) true ∅).exec (start ∅) systemVRun = some t ∧
      t.stdout = [firstLine (SA_RESETHAND ||| SA_NODEFER) ∅, notPreventLine]) ∧
    ∃ t, (machine (SA_RESETHAND ||| SA_NODEFER) true ∅).exec (start ∅) calmRun = some t ∧
      t.stdout = [firstLine (SA_RESETHAND ||| SA_NODEFER) ∅, preventLine] := by
  have hcut : ¬ (machine (SA_RESETHAND ||| SA_NODEFER) true ∅).Along (fun s a => ¬ CutShort s a) (start ∅) systemVRun := by
    decide +kernel
  have hcalm : (machine (SA_RESETHAND ||| SA_NODEFER) true ∅).Along (fun s a => ¬ CutShort s a) (start ∅) calmRun := by
    decide +kernel
  constructor
  · obtain ⟨t, he, hx⟩ := Option.map_eq_some_iff.mp (show
      ((machine (SA_RESETHAND ||| SA_NODEFER) true ∅).exec (start ∅) systemVRun).map (·.main) = some .finished by
        decide +kernel)
    obtain ⟨hone, hiff⟩ := answers he hx
    exact ⟨t, he, hone.resolve_left fun hp => hcut (hiff.mp hp).2⟩
  · obtain ⟨t, he, hx⟩ := Option.map_eq_some_iff.mp (show
      ((machine (SA_RESETHAND ||| SA_NODEFER) true ∅).exec (start ∅) calmRun).map (·.main) = some .finished by
        decide +kernel)
    exact ⟨t, he, (answers he hx).2.mpr ⟨by decide, hcalm⟩⟩

/-- A signal ends the process only where the library resets handlers and blocks nothing, and only before the handler
has set itself up again. -/
theorem killed_in_window (hs : (machine sa_flags kept m).Reachable s) (hx : s.main = .killed) :
    resets sa_flags = true ∧ defers sa_flags = false ∧ ∃ f ∈ s.ctx.frames.head?, f.pc = .signal := by
  have hinv : (machine sa_flags kept m).Invariant (fun _ _ => True) (Inv sa_flags m False) :=
    inv.mono fun _ _ _ hf => hf.elim
  cases hinv.holds hs with
  | killed hpc hr hd hf => exact ⟨hr, hd, hf⟩
  | _ => simp_all

def killedRun : List Action := [
  .main, .main, .deliver .SIGUSR1 0, .handler, .main, .main, .main, .child, .deliver .SIGUSR2 0, .child, .child,
  .deliver .SIGUSR2 0]

theorem killed_in_window_killedRun : ∃ t,
    (machine (SA_RESETHAND ||| SA_NODEFER) true ∅).exec (start ∅) killedRun = some t ∧
    ∃ f ∈ t.ctx.frames.head?, f.pc = .signal := by
  obtain ⟨t, he, hx⟩ := Option.map_eq_some_iff.mp (show
    ((machine (SA_RESETHAND ||| SA_NODEFER) true ∅).exec (start ∅) killedRun).map (·.main) = some .killed by
      decide +kernel)
  exact ⟨t, he, (killed_in_window (reachable_of_exec rfl he) hx).2.2⟩

namespace State

def mainRank : Pc → ℕ
  | .signalUsr1 => 56
  | .kill => 55
  | .query => 45
  | .signalUsr2 => 44
  | .fork => 43
  | .waitpid => 12
  | .test => 11
  | .finished => 10
  | .exited _ | .killed => 0

def childRank : ChildPc → ℕ
  | .kill => 30
  | .sleep => 20
  | .killAgain => 19
  | .return => 9
  | .zombie => 1
  | .unborn | .gone => 0

def handlerRank : HandlerPc → ℕ
  | .signal => 7
  | .testNeed => 6
  | .clearNeed => 5
  | .sleep => 4
  | .sleeping _ => 3
  | .store _ => 2
  | .return | .sig_usr1 => 1

def rank (s : State) : ℕ :=
  mainRank s.main + childRank s.child + 9 * s.pending.card + (s.ctx.frames.map fun f => handlerRank f.pc).sum

end State

open State (mainRank childRank handlerRank)

lemma rank_main (hs : mainStep sa_flags s = some t) : t.rank < s.rank := by
  cases hpc : s.main with
  | kill =>
    have hcard := Finset.card_insert_le Signo.SIGUSR1 s.pending
    simp only [mainStep, hpc, Option.some.injEq] at hs
    subst hs
    simp only [State.rank, hpc, mainRank]
    omega
  | query =>
    simp only [mainStep, hpc, Option.ite_none_left_eq_some, Option.some.injEq] at hs
    obtain ⟨-, rfl⟩ := hs
    simp [State.rank, hpc, mainRank]
  | waitpid =>
    simp only [mainStep, hpc, Option.ite_none_left_eq_some] at hs
    obtain ⟨-, hs⟩ := hs
    split at hs <;> simp only [reduceCtorEq, Option.some.injEq] at hs <;> subst hs <;> rename_i hc <;>
      simp only [State.rank, State.perror, hpc, hc, mainRank, childRank] <;> omega
  | fork =>
    simp only [mainStep, hpc, Option.some.injEq] at hs
    subst hs
    simp only [State.rank, hpc, mainRank, childRank]
    omega
  | finished | exited | killed => simp [mainStep, hpc] at hs
  | signalUsr1 | signalUsr2 | test =>
    simp only [mainStep, hpc, Option.some.injEq] at hs
    subst hs
    simp [State.rank, hpc, mainRank]

lemma rank_child (hs : childStep kept s = some t) : t.rank < s.rank := by
  have hcard := Finset.card_insert_le Signo.SIGUSR2 s.pending
  unfold childStep at hs
  split at hs <;> simp only [reduceCtorEq, Option.some.injEq] at hs <;> subst hs <;> rename_i hc
  · simp only [State.rank, hc, childRank]
    omega
  · simp [State.rank, hc, childRank]
  · simp only [State.rank, hc, childRank]
    omega
  · cases kept <;> simp [State.rank, hc, childRank]

lemma rank_handler (hs : handlerStep sa_flags s = some t) : t.rank < s.rank := by
  unfold handlerStep at hs
  split at hs
  · cases hs
  · rename_i f fs hf
    split at hs <;> obtain rfl := Option.some.inj hs <;> rename_i hpc
    case h_2 =>
      cases s.need_sleep <;> simp [State.rank, Context.goto, hf, hpc, handlerRank]
    all_goals simp [State.rank, Context.goto, Context.leave, hf, hpc, handlerRank]

lemma rank_wake (left : ℕ) (fs : List (Frame HandlerPc)) :
    ((fs.modifyHead fun f => { f with pc := wake left f.pc }).map fun f => handlerRank f.pc).sum ≤
      (fs.map fun f => handlerRank f.pc).sum := by
  cases fs with
  | nil => exact le_rfl
  | cons f fs =>
    have hw : handlerRank (wake left f.pc) ≤ handlerRank f.pc := by
      cases hpc : f.pc <;> simp [wake, handlerRank]
    simpa using hw

lemma rank_deliver {x : Signo} {left : ℕ} (hx : x ∈ s.pending) :
    (deliver s x left).rank < s.rank := by
  have hcard := Finset.card_erase_add_one hx
  cases hh : s.handlers x with
  | none =>
    simp only [deliver, hh, State.rank, mainRank]
    omega
  | some flags =>
    have hw := rank_wake left s.ctx.frames
    have hentry : handlerRank (entry x) ≤ 7 := by
      unfold entry
      split <;> simp [handlerRank]
    simp only [deliver, hh, State.rank, enter, List.map_cons, List.sum_cons]
    omega

lemma rank_step (hs : step sa_flags kept s a = some t) : t.rank < s.rank := by
  cases a with
  | main =>
    simp only [step, Option.ite_none_right_eq_some] at hs
    exact rank_main hs.2
  | forkFails =>
    simp only [step, Option.ite_none_right_eq_some, Option.some.injEq] at hs
    obtain ⟨⟨-, hpc⟩, rfl⟩ := hs
    simp only [State.rank, State.perror, hpc, mainRank]
    omega
  | child => exact rank_child hs
  | handler =>
    simp only [step, Option.ite_none_right_eq_some] at hs
    exact rank_handler hs.2
  | deliver x left =>
    simp only [step, Option.ite_none_right_eq_some, Option.some.injEq] at hs
    obtain ⟨⟨hx, -⟩, rfl⟩ := hs
    exact rank_deliver hx

lemma progress {P : Prop} (h : Inv sa_flags m P s) (hend : s.main.hasEnded = false) (hx : s.main ≠ .finished) :
    ∃ a t, step sa_flags kept s a = some t := by
  have hint : ∀ x ∈ s.pending, x ∉ s.ctx.mask → ∃ a t, step sa_flags kept s a = some t := fun x hx hm =>
    ⟨.deliver x 0, _, by simp only [step]; exact if_pos ⟨hx, hm, hend⟩⟩
  cases hf : s.ctx.frames with
  | cons f fs =>
    have hs : ∃ t, handlerStep sa_flags s = some t := by
      simp only [handlerStep, hf]
      cases f.pc <;> exact ⟨_, rfl⟩
    obtain ⟨t, ht⟩ := hs
    exact ⟨.handler, t, by simp only [step]; rw [if_pos hend, ht]⟩
  | nil =>
    have hmain : ∀ t, mainStep sa_flags s = some t → ∃ a t, step sa_flags kept s a = some t := fun t ht =>
      ⟨.main, t, by simp only [step]; rw [if_pos hf, ht]⟩
    have hquiet : ¬ s.Interrupted ∨ ∃ a t, step sa_flags kept s a = some t := by
      by_cases hi : s.Interrupted
      · obtain ⟨x, hx, hm⟩ := hi
        exact .inr (hint x hx hm)
      · exact .inl hi
    cases h with
    | sent hpc | handled hpc =>
      refine hquiet.elim (fun hi => ?_) id
      exact hmain _ (by simp only [mainStep, hpc]; exact if_neg hi)
    | handling hpc mask hctx => simp [hctx] at hf
    | waitpid hpc hw ho =>
      refine hquiet.elim (fun hi => ?_) id
      have hborn := hw.born
      cases hc : s.child with
      | unborn => exact (hborn hc).elim
      | zombie | gone => exact hmain _ (by simp only [mainStep, hpc, hc]; exact if_neg hi)
      | kill | sleep | killAgain | «return» => exact ⟨.child, _, by simp only [step, childStep, hc]; rfl⟩
    | finished hpc => exact (hx hpc).elim
    | exited hpc | killed hpc => simp [hpc, Pc.hasEnded] at hend
    | signalUsr1 hpc | kill hpc | signalUsr2 hpc | fork hpc | test hpc =>
      exact hmain _ (by simp only [mainStep, hpc]; rfl)

theorem comes_to_an_end (he : (machine sa_flags kept m).exec (start m) as = some t) : as.length ≤ 56 ∧
    (t.main.hasEnded = false → t.main ≠ .finished → ∃ a u, step sa_flags kept t a = some u) := by
  have hle := exec_length_le State.rank (fun _ _ _ => rank_step) he
  have hstart : (start m).rank = 56 := rfl
  have hinv : (machine sa_flags kept m).Invariant (fun _ _ => True) (Inv sa_flags m False) :=
    inv.mono fun _ _ _ hf => hf.elim
  exact ⟨by omega, progress (hinv.exec rfl (along_true _ as) he)⟩

theorem comes_to_an_end_systemVRun : systemVRun.length ≤ 56 := by
  obtain ⟨t, he, -⟩ := Option.map_eq_some_iff.mp (show
    ((machine (SA_RESETHAND ||| SA_NODEFER) true ∅).exec (start ∅) systemVRun).map (·.main) = some .finished by
      decide +kernel)
  exact (comes_to_an_end he).1

end ApueCode.HandlerSemantics
