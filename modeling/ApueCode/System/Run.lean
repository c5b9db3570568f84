import ApueCode.System.PrExit

/-! What `main` prints is what became of the three children, whichever way they end. -/

namespace ApueCode.System

open Posix Transition Machine Status

variable {b : Buffering} {keep : Bool} {inherited : Children ℕ Termination} {s t : State} {a : Action}
  {as : List Action} {k pid : ℕ} {e : Termination} {es : List Termination} {clean : Prop}

structure Books (b : Buffering) (inherited : Children ℕ Termination) (es : List Termination) (k : ℕ)
    (own : Finset ℕ) (s : State) : Prop where
  out : s.stdout.Alone b (es.map report)
  quiet : s.stderr = []
  length : es.length = k
  pids : s.children.pids ⊆ own ∪ inherited.pids

inductive Inv (b : Buffering) (keep : Bool) (inherited : Children ℕ Termination) (clean : Prop) (s : State) : Prop
  | fork (k : ℕ) (hpc : s.pc = .fork k) (hchild : s.child = none) (hk : k < commands.length)
    (hkeep : keep = true ∨ k = 0) (hb : Books b inherited s.ended k ∅ s)
  | running (k pid : ℕ) (c : ChildPc) (hpc : s.pc = .waitpid k pid) (hchild : s.child = some (pid, c))
    (hrun : pid ∈ s.children.running) (hk : k < commands.length) (hkeep : keep = true ∨ k = 0)
    (hb : Books b inherited s.ended k {pid} s)
  | kept (k pid : ℕ) (es : List Termination) (e : Termination) (hpc : s.pc = .waitpid k pid)
    (hchild : s.child = none) (hended : s.ended = es ++ [e]) (hz : (pid, e) ∈ s.children.zombies)
    (hk : k < commands.length) (hkeep : keep = true) (hb : Books b inherited es k {pid} s)
  | lost (pid : ℕ) (hpc : s.pc = .waitpid 0 pid) (hchild : s.child = none) (hp : pid ∉ s.children.pids)
    (hkeep : keep = false) (hb : Books b inherited [] 0 ∅ s)
  | returned (k : ℕ) (es : List Termination) (e : Termination) (hpc : s.pc = .returned k (encode e))
    (hchild : s.child = none) (hended : s.ended = es ++ [e]) (hk : k < commands.length) (hkeep : keep = true)
    (hb : Books b inherited es k ∅ s)
  | failed (k : ℕ) (es : List Termination) (hpc : s.pc = .returned k (-1)) (hchild : s.child = none)
    (hended : s.ended.take k = es) (hk : k < commands.length) (hkeep : keep = false → k = 0)
    (hc : clean → keep = false) (hb : Books b inherited es k ∅ s)
  | succeeded (hpc : s.pc = .exited 0) (hchild : s.child = none) (hkeep : keep = true)
    (hlen : s.ended.length = commands.length) (hout : s.stdout.file = s.ended.map report)
    (hpids : s.children.pids ⊆ inherited.pids)
  | aborted (k : ℕ) (hpc : s.pc = .exited EXIT_FAILURE) (hchild : s.child = none) (hc : clean → keep = false)
    (hk : k < commands.length) (hkeep : keep = false → k = 0) (herr : s.stderr = [systemError k])
    (hout : s.stdout.file = (s.ended.take k).map report) (hlen : s.stdout.file.length = k)

lemma inv_start : Inv b keep inherited clean (start inherited) :=
  .fork 0 rfl rfl (by decide) (.inr rfl) ⟨.empty, rfl, rfl, by simp [start]⟩

lemma alone_printAll {ls : List (List Char)} {o : Stdout (List Char)} (lines : List (List Char)) (h : o.Alone b ls) :
    (lines.foldl (fun o line => o.print b line) o).Alone b (ls ++ lines) := by
  induction lines generalizing o ls with
  | nil => simpa using h
  | cons x xs ih =>
    rw [List.foldl_cons, List.append_cons]
    exact ih h.print

lemma inv_forked (h : Inv b keep inherited clean s) (hs : mainStep b s (.fork pid) = some t) :
    Inv b keep inherited clean t := by
  simp only [mainStep] at hs
  split at hs
  case h_2 => cases hs
  next k' hpc =>
  split at hs
  case isFalse => cases hs
  next hp =>
  obtain rfl := Option.some.inj hs
  cases h with
  | fork k hpc' hchild hk hkeep hb =>
    obtain rfl : k' = k := Pc.fork.inj (hpc.symm.trans hpc')
    refine .running k' pid .execl rfl rfl ?_ hk hkeep ⟨hb.out.fork, hb.quiet, hb.length, ?_⟩
    · simp [Children.fork]
    · rw [Children.pids_fork]
      exact Finset.insert_subset (by simp) (hb.pids.trans (Finset.union_subset_union_left (by simp)))
  | _ => simp_all

lemma inv_reap (h : Inv b keep inherited clean s) (hs : mainStep b s (.reap e) = some t) :
    Inv b keep inherited clean t := by
  simp only [mainStep] at hs
  split at hs
  case h_2 => cases hs
  next k' pid' hpc =>
  simp only [Option.ite_none_right_eq_some, Option.some.injEq] at hs
  obtain ⟨hz', rfl⟩ := hs
  cases h with
  | kept k pid es e' hpc' hchild hended hz hk hkeep hb =>
    obtain ⟨rfl, rfl⟩ := Pc.waitpid.inj (hpc.symm.trans hpc')
    obtain rfl := s.children.unique _ _ _ hz hz'
    refine .returned k' es e' rfl hchild hended hk hkeep ⟨hb.out, hb.quiet, hb.length, ?_⟩
    rw [Children.pids_reap hz, Finset.empty_union, ← Finset.subset_insert_iff, Finset.insert_eq]
    exact hb.pids
  | running k pid c hpc' hchild hrun hk hkeep hb =>
    obtain ⟨rfl, rfl⟩ := Pc.waitpid.inj (hpc.symm.trans hpc')
    exact (s.children.apart _ _ hz' hrun).elim
  | lost pid hpc' hchild hp hkeep hb =>
    obtain ⟨rfl, rfl⟩ := Pc.waitpid.inj (hpc.symm.trans hpc')
    exact (hp (Children.mem_pids.mpr (.inr ⟨_, hz'⟩))).elim
  | _ => simp_all

lemma inv_echild (h : Inv b keep inherited clean s) (hs : mainStep b s .echild = some t) :
    Inv b keep inherited clean t := by
  simp only [mainStep] at hs
  split at hs
  case h_2 => cases hs
  next k' pid' hpc =>
  simp only [Option.ite_none_right_eq_some, Option.some.injEq] at hs
  obtain ⟨hn, rfl⟩ := hs
  cases h with
  | lost pid hpc' hchild hp hkeep hb =>
    obtain ⟨rfl, rfl⟩ := Pc.waitpid.inj (hpc.symm.trans hpc')
    exact .failed 0 [] rfl hchild rfl (by decide) (fun _ => rfl) (fun _ => hkeep) ⟨hb.out, hb.quiet, hb.length, hb.pids⟩
  | running k pid c hpc' hchild hrun hk hkeep hb =>
    obtain ⟨rfl, rfl⟩ := Pc.waitpid.inj (hpc.symm.trans hpc')
    exact (hn (Children.mem_pids.mpr (.inl hrun))).elim
  | kept k pid es e' hpc' hchild hended hz hk hkeep hb =>
    obtain ⟨rfl, rfl⟩ := Pc.waitpid.inj (hpc.symm.trans hpc')
    exact (hn (Children.mem_pids.mpr (.inr ⟨_, hz⟩))).elim
  | _ => simp_all

lemma inv_forkFails (h : Inv b keep inherited clean s) (hc : ¬ clean) (hs : mainStep b s .forkFails = some t) :
    Inv b keep inherited clean t := by
  simp only [mainStep] at hs
  split at hs
  case h_2 => cases hs
  next k' hpc =>
  obtain rfl := Option.some.inj hs
  cases h with
  | fork k hpc' hchild hk hkeep hb =>
    obtain rfl : k' = k := Pc.fork.inj (hpc.symm.trans hpc')
    refine .failed k' s.ended rfl hchild (List.take_of_length_le hb.length.le) hk (fun hf => ?_)
      (fun hc' => (hc hc').elim) ⟨hb.out, hb.quiet, hb.length, hb.pids⟩
    simpa [hf] using hkeep
  | _ => simp_all

lemma inv_test (h : Inv b keep inherited clean s) (hs : mainStep b s .main = some t) :
    Inv b keep inherited clean t := by
  simp only [mainStep] at hs
  split at hs
  case h_2 => cases hs
  next k' status hpc =>
  obtain rfl := Option.some.inj hs
  cases h with
  | returned k es e hpc' hchild hended hk hkeep hb =>
    obtain ⟨rfl, rfl⟩ := Pc.returned.inj (hpc.symm.trans hpc')
    have hout := alone_printAll (pr_exit (encode e)) hb.out
    rw [pr_exit_encode, ← List.map_singleton (f := report), ← List.map_append, ← hended] at hout
    have hlen : s.ended.length = k' + 1 := by rw [hended, List.length_append, hb.length, List.length_singleton]
    rw [test, if_neg (by rw [encode_nonneg]; decide), pr_exit_encode]
    split
    · next hlt =>
      exact .fork (k' + 1) rfl hchild hlt (.inl hkeep) ⟨hout, hb.quiet, hlen, hb.pids⟩
    · refine .succeeded rfl hchild hkeep (by simp only [State.exit, State.printAll]; omega) hout.exit ?_
      have hp := hb.pids
      rwa [Finset.empty_union] at hp
  | failed k es hpc' hchild hended hk hkeep hc hb =>
    obtain ⟨rfl, rfl⟩ := Pc.returned.inj (hpc.symm.trans hpc')
    rw [test, if_pos (by decide)]
    have hout : s.stdout.exit.file = (s.ended.take k').map report := hended ▸ hb.out.exit
    refine .aborted k' rfl hchild hc hk hkeep (by simp [State.exit, hb.quiet]) hout ?_
    simp only [State.exit]
    rw [hb.out.exit, List.length_map, hb.length]
  | _ => simp_all

lemma inv_execl {ok : Bool} (h : Inv b keep inherited clean s) (hs : childStep keep s (.execl ok) = some t) :
    Inv b keep inherited clean t := by
  simp only [childStep] at hs
  split at hs
  case h_2 => cases hs
  next pid' hchild' =>
  cases h with
  | running k pid c hpc hchild hrun hk hkeep hb =>
    obtain rfl : pid' = pid := (Prod.mk.inj (Option.some.inj (hchild'.symm.trans hchild))).1
    cases ok with
    | true =>
      obtain rfl := Option.some.inj hs
      exact .running k pid' .bash hpc rfl hrun hk hkeep ⟨hb.out.childDrop, hb.quiet, hb.length, hb.pids⟩
    | false =>
      obtain rfl := Option.some.inj hs
      exact .running k pid' ._exit hpc rfl hrun hk hkeep ⟨hb.out, hb.quiet, hb.length, hb.pids⟩
  | _ => simp_all

lemma inv_childEnds (h : Inv b keep inherited clean s) (hs : childStep keep s (.childEnds e) = some t) :
    Inv b keep inherited clean t := by
  simp only [childStep] at hs
  split at hs
  case h_2 => cases hs
  next pid' c' hchild' =>
  split at hs
  case isFalse => cases hs
  next hrun' =>
  simp only [Option.ite_none_right_eq_some, Option.some.injEq] at hs
  obtain ⟨-, rfl⟩ := hs
  cases h with
  | running k pid c hpc hchild hrun hk hkeep hb =>
    obtain ⟨rfl, rfl⟩ := Prod.mk.inj (Option.some.inj (hchild'.symm.trans hchild))
    cases keep with
    | true =>
      refine .kept k pid' s.ended e hpc rfl rfl ?_ hk rfl ⟨hb.out.childDrop, hb.quiet, hb.length, ?_⟩
      · simp [Children.finish]
      · rw [Children.pids_keep]
        exact hb.pids
    | false =>
      obtain rfl : k = 0 := hkeep.resolve_left (by decide)
      have hnil : s.ended = [] := List.length_eq_zero_iff.mp hb.length
      have hout := hb.out
      rw [hnil] at hout
      refine .lost pid' hpc rfl ?_ rfl ⟨hout.childDrop, hb.quiet, rfl, ?_⟩
      · rw [Children.pids_discard]
        exact Finset.notMem_erase _ _
      · rw [Children.pids_discard, Finset.empty_union, ← Finset.subset_insert_iff, Finset.insert_eq]
        exact hb.pids
  | _ => simp_all

lemma pids_finish_subset {c : Children ℕ Termination} (h : pid ∈ c.running) : (c.finish pid e keep h).pids ⊆ c.pids := by
  cases keep with
  | true => rw [Children.pids_keep]
  | false =>
    rw [Children.pids_discard]
    exact Finset.erase_subset _ _

lemma inv_otherEnds (h : Inv b keep inherited clean s) (hs : childStep keep s (.otherEnds pid e) = some t) :
    Inv b keep inherited clean t := by
  simp only [childStep] at hs
  split at hs
  case isFalse => cases hs
  next hrun' =>
  simp only [Option.ite_none_left_eq_some, Option.some.injEq] at hs
  obtain ⟨hne, rfl⟩ := hs
  have hsub : (s.children.finish pid e keep hrun').pids ⊆ s.children.pids := pids_finish_subset hrun'
  have hbooks : ∀ {es k own}, Books b inherited es k own s →
      Books b inherited es k own { s with children := s.children.finish pid e keep hrun' } :=
    fun hb => ⟨hb.out, hb.quiet, hb.length, hsub.trans hb.pids⟩
  cases h with
  | fork k hpc hchild hk hkeep hb => exact .fork k hpc hchild hk hkeep (hbooks hb)
  | running k pid' c hpc hchild hrun hk hkeep hb =>
    refine .running k pid' c hpc hchild (Finset.mem_erase.mpr ⟨?_, hrun⟩) hk hkeep (hbooks hb)
    rintro rfl
    exact hne (by rw [hchild]; rfl)
  | kept k pid' es e' hpc hchild hended hz hk hkeep hb =>
    refine .kept k pid' es e' hpc hchild hended ?_ hk hkeep (hbooks hb)
    subst hkeep
    exact Finset.mem_insert_of_mem hz
  | lost pid' hpc hchild hp hkeep hb => exact .lost pid' hpc hchild (fun hm => hp (hsub hm)) hkeep (hbooks hb)
  | returned k es e' hpc hchild hended hk hkeep hb => exact .returned k es e' hpc hchild hended hk hkeep (hbooks hb)
  | failed k es hpc hchild hended hk hkeep hc hb =>
    exact .failed k es hpc hchild hended hk hkeep hc (hbooks hb)
  | succeeded hpc hchild hkeep hlen hout hpids => exact .succeeded hpc hchild hkeep hlen hout (hsub.trans hpids)
  | aborted k hpc hchild hc hk hkeep herr hout hlen => exact .aborted k hpc hchild hc hk hkeep herr hout hlen

lemma inv_step (h : Inv b keep inherited clean s) (hc : clean → a ≠ .forkFails) (hs : step b keep s a = some t) :
    Inv b keep inherited clean t := by
  cases a with
  | forkFails => exact inv_forkFails h (fun hcl => hc hcl rfl) hs
  | fork pid => exact inv_forked h hs
  | eintr =>
    simp only [step, mainStep] at hs
    split at hs
    · simp only [Option.ite_none_right_eq_some, Option.some.injEq] at hs
      exact hs.2 ▸ h
    · cases hs
  | reap e => exact inv_reap h hs
  | echild => exact inv_echild h hs
  | main => exact inv_test h hs
  | execl ok => exact inv_execl h hs
  | childEnds e => exact inv_childEnds h hs
  | otherEnds pid e => exact inv_otherEnds h hs

lemma inv : (machine b keep inherited).Invariant (fun _ _ => True) (Inv b keep inherited False) where
  base _ hs := hs ▸ inv_start
  step _ _ _ h _ hs := inv_step h False.elim hs

lemma inv_clean : (machine b keep inherited).Invariant (fun _ a => a ≠ .forkFails) (Inv b keep inherited True) where
  base _ hs := hs ▸ inv_start
  step _ _ _ h ha hs := inv_step h (fun _ => ha) hs

/-- The lines in the file are the ends of the children of the three calls, in order and each once, and no child of
`main` is left over. -/
theorem reports (hs : (machine b keep inherited).Reachable s) (hx : s.pc = .exited 0) :
    s.ended.length = commands.length ∧ s.stdout.file = s.ended.map report ∧ s.children.pids ⊆ inherited.pids := by
  cases inv.holds hs with
  | succeeded hpc hchild hkeep hlen hout hpids => exact ⟨hlen, hout, hpids⟩
  | _ => simp_all [EXIT_FAILURE]

def shellRun : List Action := [
  .fork 5, .execl true, .eintr, .childEnds (.exited 0), .reap (.exited 0), .main,
  .fork 6, .execl true, .childEnds (.exited 127), .reap (.exited 127), .main,
  .fork 5, .execl false, .childEnds (.exited 127), .reap (.exited 127), .main]

theorem reports_shellRun : ∃ t, (machine .full true .none).exec (start .none) shellRun = some t ∧
    t.stdout.file = t.ended.map report := by
  obtain ⟨t, he, ht⟩ := Option.map_eq_some_iff.mp (show
    ((machine .full true .none).exec (start .none) shellRun).map (·.pc) = some (.exited 0) by decide +kernel)
  exact ⟨t, he, (reports (reachable_of_exec rfl he) ht).2.1⟩

def Doomed (s : State) : Prop := (∃ k, s.pc = .returned k (-1)) ∨ s.pc = .exited EXIT_FAILURE

lemma doomed_mainStep (h : Doomed s) (hs : mainStep b s a = some t) : Doomed t := by
  rcases h with ⟨k, hpc⟩ | hpc
  · cases a <;> simp only [mainStep, hpc, Option.some.injEq, reduceCtorEq] at hs
    subst hs
    rw [test, if_pos (by decide)]
    exact .inr rfl
  · cases a <;> simp [mainStep, hpc] at hs

lemma pc_childStep (hs : childStep keep s a = some t) : t.pc = s.pc := by
  cases a with
  | execl ok =>
    simp only [childStep] at hs
    split at hs
    · cases ok <;> exact Option.some.inj hs ▸ rfl
    · cases hs
  | childEnds e =>
    simp only [childStep] at hs
    split at hs
    · split at hs
      · simp only [Option.ite_none_right_eq_some, Option.some.injEq] at hs
        exact hs.2 ▸ rfl
      · cases hs
    · cases hs
  | otherEnds pid e =>
    simp only [childStep] at hs
    split at hs
    · simp only [Option.ite_none_left_eq_some, Option.some.injEq] at hs
      exact hs.2 ▸ rfl
    · cases hs
  | _ => cases hs

lemma doomed_stable : (machine b keep inherited).Stable (fun _ _ => True) Doomed := by
  intro s a t h _ hs
  cases a with
  | execl _ | childEnds _ | otherEnds _ _ =>
    simp only [machine, step] at hs
    simpa only [Doomed, pc_childStep hs] using h
  | _ =>
    simp only [machine, step] at hs
    exact doomed_mainStep h hs

end ApueCode.System
