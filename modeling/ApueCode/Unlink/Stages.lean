import ApueCode.Unlink.Model

/-! Which `SIGUSR1` is lost: one that is handled outside a `pause` ends none. -/

namespace ApueCode.Unlink

open Posix Transition

variable {BUFSIZ : ℕ} {argv : List String} {inherited : Mask} {s t : State} {a : Action} {as : List Action}

def State.Lost (s : State) : Prop :=
  s.main = .paused .first false ∧ 1 ≤ s.delivered ∨ s.main = .paused .second false ∧ 2 ≤ s.delivered

def OnTime (s : State) (a : Action) : Prop :=
  a = .deliver → s.main.prompted = true → s.main.blocked = true

def MainPc.passed : MainPc → ℕ
  | .paused .first true | .unlink | .printUnlink | .pause .second | .paused .second false => 1
  | .paused .second true | .printExit | .returning => 2
  | _ => 0

lemma passed_wake (pc : MainPc) : pc.wake.passed = pc.passed + if pc.blocked then 1 else 0 := by
  rcases pc with _ | _ | _ | _ | _ | _ | _ | ⟨_ | _, _ | _⟩ | _ | _ | _ | _ | _ | _ <;> rfl

lemma lost_iff_lt : s.Lost ↔ s.main.blocked = true ∧ s.main.passed < s.delivered := by
  rcases hp : s.main with _ | _ | _ | _ | _ | _ | _ | ⟨_ | _, _ | _⟩ | _ | _ | _ | _ | _ | _ <;>
    simp [State.Lost, hp, MainPc.blocked, MainPc.passed, Nat.succ_le_iff]

lemma mainStep_passed (hs : mainStep BUFSIZ argv s = some t) : s.main.hasEnded = false ∧
    (t.main.hasEnded = true ∨ t.delivered = s.delivered ∧ t.main.passed = s.main.passed) := by
  cases hp : s.main with
  | exited | killed => simp [mainStep, hp] at hs
  | argc | write =>
    simp only [mainStep, hp, Option.some.injEq] at hs
    subst hs
    split <;> simp [MainPc.hasEnded, MainPc.passed, State.die]
  | paused stage woken =>
    simp only [mainStep, hp, Option.ite_none_right_eq_some, Option.some.injEq] at hs
    obtain ⟨rfl, rfl⟩ := hs
    cases stage <;> simp [MainPc.hasEnded, MainPc.passed, Stage.next]
  | pause stage =>
    simp only [mainStep, hp, Option.some.injEq] at hs
    subst hs
    cases stage <;> simp [MainPc.hasEnded, MainPc.passed]
  | _ =>
    simp only [mainStep, hp, Option.some.injEq] at hs
    subst hs
    simp [MainPc.hasEnded, MainPc.passed, State.print]

lemma handlerStep_frame (s : State) (pc : HandlerPc) :
    (handlerStep s pc).main = s.main ∧ (handlerStep s pc).delivered = s.delivered := by
  cases pc <;> exact ⟨rfl, rfl⟩

lemma fail_ended {error : String} (hs : fail BUFSIZ argv s error = some t) : t.main.hasEnded = true := by
  simp only [fail] at hs
  split at hs
  · exact Option.some.inj hs ▸ rfl
  · exact Option.some.inj hs ▸ rfl
  · simp only [Option.ite_none_right_eq_some, Option.some.injEq] at hs
    exact hs.2 ▸ rfl
  · cases hs

lemma deliver_passed (s : State) : (deliver s).main.hasEnded = true ∨
    (deliver s).delivered = (if s.main.prompted then s.delivered + 1 else s.delivered) ∧
      (deliver s).main.passed = s.main.passed + if s.main.blocked then 1 else 0 := by
  cases hc : s.caught with
  | false => simp [deliver, hc, MainPc.hasEnded]
  | true => simp [deliver, hc, passed_wake]

lemma prompted_of_blocked {pc : MainPc} (h : pc.blocked = true) : pc.prompted = true := by
  cases pc <;> simp [MainPc.blocked, MainPc.prompted] at h ⊢

lemma passed_step (hs : step BUFSIZ argv s a = some t) : t.main.hasEnded = true ∨
    s.main.hasEnded = false ∧
    (OnTime s a ∧ t.delivered + s.main.passed = s.delivered + t.main.passed ∨
      ¬ OnTime s a ∧ t.delivered + s.main.passed = s.delivered + t.main.passed + 1) := by
  cases a with
  | run =>
    have hon : OnTime s .run := by simp [OnTime]
    simp only [step] at hs
    cases hf : s.ctx.frames with
    | nil =>
      obtain ⟨hal, hend | ⟨hd, hp⟩⟩ := mainStep_passed (by simpa [hf] using hs)
      · exact .inl hend
      · exact .inr ⟨hal, .inl ⟨hon, by omega⟩⟩
    | cons f fs =>
      rw [hf] at hs
      obtain rfl := Option.some.inj hs
      obtain ⟨hm, hd⟩ := handlerStep_frame s f.pc
      rw [hm, hd]
      cases hal : s.main.hasEnded with
      | true => exact .inl rfl
      | false => exact .inr ⟨rfl, .inl ⟨hon, rfl⟩⟩
  | fail error =>
    simp only [step, Option.ite_none_right_eq_some] at hs
    exact .inl (fail_ended hs.2)
  | deliver =>
    simp only [step, Option.ite_none_right_eq_some, Option.some.injEq] at hs
    obtain ⟨⟨-, hal⟩, rfl⟩ := hs
    rcases deliver_passed s with hend | ⟨hd, hp⟩
    · exact .inl hend
    · refine .inr ⟨hal, ?_⟩
      rw [hd, hp]
      cases hb : s.main.blocked with
      | true =>
        refine .inl ⟨fun _ _ => hb, ?_⟩
        simp only [prompted_of_blocked hb, if_true]
        omega
      | false =>
        cases hpr : s.main.prompted with
        | true => exact .inr ⟨fun h => by simp [h rfl hpr] at hb, by simp; omega⟩
        | false => exact .inl ⟨fun _ h => by simp [h] at hpr, by simp⟩

def State.Exact (s : State) : Prop := s.main.hasEnded = true ∨ s.delivered = s.main.passed

def State.Late (s : State) : Prop := s.main.hasEnded = true ∨ s.main.passed < s.delivered

lemma exact : (machine BUFSIZ argv inherited).Invariant OnTime State.Exact where
  base := by
    rintro s rfl
    exact .inr rfl
  step s a t hex hon hs := by
    rcases passed_step hs with hend | ⟨hal, ⟨-, hk⟩ | ⟨hoff, -⟩⟩
    · exact .inl hend
    · have heq := hex.resolve_left (by simp [hal])
      exact .inr (by omega)
    · exact (hoff hon).elim

lemma late_of_not_onTime (hex : s.Exact) (hoff : ¬ OnTime s a) (hs : step BUFSIZ argv s a = some t) : t.Late := by
  rcases passed_step hs with hend | ⟨hal, ⟨hon, -⟩ | ⟨-, hk⟩⟩
  · exact .inl hend
  · exact (hoff hon).elim
  · have heq := hex.resolve_left (by simp [hal])
    exact .inr (by omega)

lemma late_stable : (machine BUFSIZ argv inherited).Stable (fun _ _ => True) State.Late := by
  rintro s a t hlate - hs
  rcases passed_step hs with hend | ⟨hal, hk⟩
  · exact .inl hend
  · have hlt := hlate.resolve_left (by simp [hal])
    refine .inr ?_
    rcases hk with ⟨-, hk⟩ | ⟨-, hk⟩ <;> omega

lemma not_ended_of_blocked {pc : MainPc} (h : pc.blocked = true) : pc.hasEnded ≠ true := by
  cases pc <;> simp [MainPc.blocked, MainPc.hasEnded] at h ⊢

/-- No stage signal is lost exactly if none comes while the process is between two calls of `pause`. -/
theorem no_lost_signal_iff (hs : (machine BUFSIZ argv inherited).exec (start inherited) as = some s) :
    ¬ s.Lost ↔ (s.main.blocked = true → (machine BUFSIZ argv inherited).Along OnTime (start inherited) as) := by
  rw [lost_iff_lt]
  constructor
  · intro h hb
    by_contra hoff
    have hlate := exact.broken (fun _ _ _ => late_of_not_onTime) late_stable rfl hs hoff
    exact h ⟨hb, hlate.resolve_left (not_ended_of_blocked hb)⟩
  · rintro hon ⟨hb, hlt⟩
    have hex := exact.exec rfl (hon hb) hs
    exact hlt.ne' (hex.resolve_left (not_ended_of_blocked hb))

def promptRun (BUFSIZ : ℕ) : List Action :=
  List.replicate 4 .run ++ List.replicate (FILE_SIZE / BUFSIZ) .run ++ List.replicate 2 .run

def opened (argv : List String) (inherited : Mask) : State :=
  { start inherited with
    main := .write 0
    caught := true
    stdout := [s!"open {arg argv 1} success\n"] }

def prompt (argv : List String) (inherited : Mask) : State :=
  { start inherited with
    main := .pause .first
    caught := true
    stdout := [s!"open {arg argv 1} success\n", s!"write {arg argv 1} success\n"] }

lemma exec_writes {i k : ℕ} (hf : s.ctx.frames = []) (hk : i + k = FILE_SIZE / BUFSIZ) :
    (machine BUFSIZ argv inherited).exec { s with main := .write i } (List.replicate k .run) =
      some { s with main := .write (FILE_SIZE / BUFSIZ) } := by
  induction k generalizing i with
  | zero => exact hk ▸ rfl
  | succ k ih =>
    have hne : i ≠ FILE_SIZE / BUFSIZ := by omega
    have hstep : (machine BUFSIZ argv inherited).step { s with main := .write i } .run =
        some { s with main := .write (i + 1) } := by
      simp [machine, step, hf, mainStep, hne]
    rw [List.replicate_succ, Machine.exec_cons, hstep, Option.bind_some, ih (by omega)]

lemma exec_prompt (ha : argv.length = 2) :
    (machine BUFSIZ argv inherited).exec (start inherited) (promptRun BUFSIZ) = some (prompt argv inherited) := by
  have hopen : (machine BUFSIZ argv inherited).exec (start inherited) (List.replicate 4 .run) =
      some (opened argv inherited) := by
    simp [List.replicate, machine, step, mainStep, start, ha, opened, State.print]
  have hwrites : (machine BUFSIZ argv inherited).exec (opened argv inherited)
      (List.replicate (FILE_SIZE / BUFSIZ) .run) =
        some { opened argv inherited with main := .write (FILE_SIZE / BUFSIZ) } :=
    exec_writes (s := opened argv inherited) rfl (Nat.zero_add _)
  rw [promptRun, Machine.exec_append, Machine.exec_append, hopen, Option.bind_some, hwrites, Option.bind_some]
  simp [List.replicate, machine, step, mainStep, start, opened, prompt, State.print]

def onceRun : List Action :=
  promptRun 8192 ++ [.run, .deliver, .run, .run, .run, .run, .run, .run]

theorem no_lost_signal_once : ∃ s, (machine 8192 ["unlink", "file"] ∅).exec (start ∅) onceRun = some s ∧
    s.main = .paused .second false ∧ ¬ s.Lost ∧
      (machine 8192 ["unlink", "file"] ∅).Along OnTime (start ∅) onceRun := by
  have hd : ((machine 8192 ["unlink", "file"] ∅).exec (start ∅) onceRun).map (fun s => (s.main, s.delivered)) =
      some (.paused .second false, 1) := by
    rw [onceRun, Machine.exec_append, exec_prompt rfl]
    rfl
  obtain ⟨s, hs, hd⟩ := Option.map_eq_some_iff.mp hd
  obtain ⟨hm, hk⟩ := Prod.mk.inj hd
  have hlost : ¬ s.Lost := by simp [State.Lost, hm, hk]
  exact ⟨s, hs, hm, hlost, (no_lost_signal_iff hs).mp hlost (by simp [hm, MainPc.blocked])⟩

theorem signal_lost_before_pause : ∃ s, (machine 8192 ["unlink", "file"] ∅).exec (start ∅)
    (promptRun 8192 ++ [.deliver, .run, .run, .run]) = some s ∧ s.main = .paused .first false ∧
      s.delivered = 1 ∧ s.Lost := by
  have hd : ((machine 8192 ["unlink", "file"] ∅).exec (start ∅) (promptRun 8192 ++ [.deliver, .run, .run, .run])).map
      (fun s => (s.main, s.delivered)) = some (.paused .first false, 1) := by
    rw [Machine.exec_append, exec_prompt rfl]
    rfl
  obtain ⟨s, hs, hd⟩ := Option.map_eq_some_iff.mp hd
  obtain ⟨hm, hk⟩ := Prod.mk.inj hd
  exact ⟨s, hs, hm, hk, .inl ⟨hm, hk.ge⟩⟩

end ApueCode.Unlink
