import ApueCode.ForkedStdout.Model

/-! A line stays in the buffer of a fully buffered `stdout`, and each child forked later writes it again. -/

namespace ApueCode.ForkedStdout

open Posix Transition Machine

variable {p : Program} {b : Buffering} {s t : State} {a : Action} {as : List Action} {k : ℕ}
  {done l r : List Stmt} {lost : List ℕ}

def choices : List Stmt → List (List String)
  | [] => []
  | .print lines :: r => lines :: choices r
  | .fork :: r => choices r

lemma choices_append : choices (l ++ r) = choices l ++ choices r := by
  induction l with
  | nil => rfl
  | cons c l ih => cases c <;> simp [choices, ih]

lemma forkPoints_append (n : ℕ) :
    forkPoints (l ++ r) n = forkPoints l n ++ forkPoints r (n + (choices l).length) := by
  induction l generalizing n with
  | nil => rfl
  | cons c l ih =>
    cases c with
    | print lines => simp [forkPoints, choices, ih, Nat.add_assoc, Nat.add_comm 1]
    | fork => simp [forkPoints, choices, ih]

structure Past (p : Program) (s : State) (done : List Stmt) : Prop where
  script : p.script = done ++ s.rest
  chosen : List.Forall₂ (· ∈ ·) s.printed (choices done)

lemma Past.length (h : Past p s done) : s.printed.length = (choices done).length := h.chosen.length_eq

def beginnings (done : List Stmt) (s : State) : List ℕ :=
  forkPoints done 0 ++ if s.running then [] else [s.printed.length]

structure Written (p : Program) (lost : List ℕ) (s : State) : Prop where
  holds : s.running = true → s.stdout.buffer = s.printed
  split : ∃ done ended live, Past p s done ∧ Stdout.Split s.stdout s.printed ended live ∧
    (ended ++ (live ++ lost)).Perm (beginnings done s)

lemma written_start : Written p [] (start p) where
  holds _ := rfl
  split := ⟨[], [], [], ⟨rfl, List.Forall₂.nil⟩, .empty, List.Perm.refl _⟩

lemma Written.exit (h : Written p lost s) (hr : s.running = true) :
    Written p lost { s with running := false, stdout := s.stdout.exit } := by
  obtain ⟨done, ended, live, hp, hx, hc⟩ := h.split
  simp only [beginnings, hr, if_true, List.append_nil] at hc
  refine ⟨by simp, done, ended ++ [s.printed.length], live, ⟨hp.script, hp.chosen⟩, hx.exit (h.holds hr), ?_⟩
  rw [beginnings, if_neg Bool.false_ne_true, List.append_assoc]
  calc (ended ++ ([s.printed.length] ++ (live ++ lost))).Perm (ended ++ (live ++ lost ++ [s.printed.length])) :=
        List.perm_append_comm.append_left ended
    _ = ended ++ (live ++ lost) ++ [s.printed.length] := (List.append_assoc ..).symm
    List.Perm _ (forkPoints done 0 ++ [s.printed.length]) := hc.append_right _

lemma Written.fork (h : Written p lost s) (hr : s.running = true) (hrest : s.rest = .fork :: r) :
    Written p lost { s with rest := r, stdout := s.stdout.fork } := by
  obtain ⟨done, ended, live, hp, hx, hc⟩ := h.split
  simp only [beginnings, hr, if_true, List.append_nil] at hc
  refine ⟨h.holds, done ++ [.fork], ended, live ++ [s.printed.length], ⟨?_, ?_⟩, hx.fork (h.holds hr), ?_⟩
  · simp [hp.script, hrest]
  · simpa [choices_append, choices] using hp.chosen
  · simp only [beginnings, hr, if_true, List.append_nil, forkPoints_append, forkPoints, Nat.zero_add, ← hp.length]
    calc (ended ++ (live ++ [s.printed.length] ++ lost)).Perm (ended ++ (live ++ lost ++ [s.printed.length])) := by
          rw [List.append_assoc, List.append_assoc]
          exact (List.perm_append_comm.append_left live).append_left ended
      _ = ended ++ (live ++ lost) ++ [s.printed.length] := (List.append_assoc ..).symm
      List.Perm _ (forkPoints done 0 ++ [s.printed.length]) := hc.append_right _

lemma Written.print {lines : List String} {line : String} (h : Written p lost s) (hr : s.running = true)
    (hrest : s.rest = .print lines :: r) (hl : line ∈ lines) :
    Written p lost { s with rest := r, printed := s.printed ++ [line], stdout := s.stdout.print .full line } := by
  obtain ⟨done, ended, live, hp, hx, hc⟩ := h.split
  refine ⟨fun _ => ?_, done ++ [.print lines], ended, live, ⟨?_, ?_⟩, hx.print, ?_⟩
  · simp [Stdout.print, h.holds hr]
  · simp [hp.script, hrest]
  · rw [choices_append]
    exact List.rel_append hp.chosen (.cons hl .nil)
  · simpa [beginnings, hr, forkPoints_append, forkPoints] using hc

lemma Written.childReturn {i : ℕ} (h : Written p lost s) (hi : i < s.stdout.children.length) :
    Written p lost { s with stdout := s.stdout.childExit i } := by
  obtain ⟨done, ended, live, hp, hx, hc⟩ := h.split
  have hi' : i < live.length := by simpa [hx.children] using hi
  refine ⟨h.holds, done, ended ++ [live[i]], live.eraseIdx i, ⟨hp.script, hp.chosen⟩, hx.childExit hi', ?_⟩
  refine List.Perm.trans ?_ hc
  rw [List.append_assoc, ← List.append_assoc [live[i]]]
  exact ((List.getElem_cons_eraseIdx_perm hi').append_right lost).append_left ended

lemma Written.childKilled {i : ℕ} (h : Written p lost s) (hi : i < s.stdout.children.length) :
    ∃ k, Written p (k :: lost) { s with stdout := s.stdout.childDrop i } := by
  obtain ⟨done, ended, live, hp, hx, hc⟩ := h.split
  have hi' : i < live.length := by simpa [hx.children] using hi
  refine ⟨live[i], h.holds, done, ended, live.eraseIdx i, ⟨hp.script, hp.chosen⟩, hx.childDrop, ?_⟩
  refine List.Perm.trans (List.Perm.append_left ended ?_) hc
  exact List.perm_middle.trans ((List.getElem_cons_eraseIdx_perm hi').append_right lost)

lemma written_mainStep (h : Written p lost s) (hr : s.running = true) (hs : mainStep .full s a = some t) :
    Written p lost t := by
  cases a with
  | childReturn i | childKilled i => cases hs
  | print line =>
    simp only [mainStep] at hs
    split at hs
    · next lines r hrest =>
      simp only [Option.ite_none_right_eq_some, Option.some.injEq] at hs
      obtain ⟨hl, rfl⟩ := hs
      exact h.print hr hrest hl
    · cases hs
  | fork =>
    simp only [mainStep] at hs
    split at hs
    · next r hrest => exact Option.some.inj hs ▸ h.fork hr hrest
    · cases hs
  | fail => exact Option.some.inj hs ▸ h.exit hr
  | finish =>
    simp only [mainStep, Option.ite_none_right_eq_some, Option.some.injEq] at hs
    exact hs.2 ▸ h.exit hr

lemma written_step (h : Written p lost s) (hs : step .full s a = some t) :
    ∃ lost', Written p lost' t ∧ (a.IsKill = false → lost' = lost) := by
  cases a with
  | childReturn i =>
    simp only [step, Option.ite_none_right_eq_some, Option.some.injEq] at hs
    exact ⟨lost, hs.2 ▸ h.childReturn hs.1, fun _ => rfl⟩
  | childKilled i =>
    simp only [step, Option.ite_none_right_eq_some, Option.some.injEq] at hs
    obtain ⟨k, hk⟩ := h.childKilled hs.1
    exact ⟨k :: lost, hs.2 ▸ hk, by simp [Action.IsKill]⟩
  | print _ | fork | fail | finish =>
    simp only [step, Option.ite_none_right_eq_some] at hs
    exact ⟨lost, written_mainStep h hs.1 hs.2, fun _ => rfl⟩

lemma written_inv : (machine p .full).Invariant (fun _ _ => True) fun s => ∃ lost, Written p lost s where
  base _ hs := ⟨[], hs ▸ written_start⟩
  step s a t := by
    rintro ⟨lost, h⟩ - hs
    obtain ⟨lost', h', -⟩ := written_step h hs
    exact ⟨lost', h'⟩

lemma written_unkilled : (machine p .full).Invariant (fun _ a => a.IsKill = false) (Written p []) where
  base _ hs := hs ▸ written_start
  step s a t h ha hs := by
    obtain ⟨lost', h', he⟩ := written_step h hs
    exact he ha ▸ h'

lemma Program.choices_nodup (p : Program) : (choices p.script).flatten.Nodup := by
  cases p <;> decide

lemma mem_flatten_of_chosen {ls : List (List String)} {xs : List String} {x : String}
    (h : List.Forall₂ (· ∈ ·) xs ls) (hx : x ∈ xs) : x ∈ ls.flatten := by
  induction h with
  | nil => cases hx
  | cons hy _ ih =>
    rw [List.flatten_cons, List.mem_append]
    rcases List.mem_cons.mp hx with rfl | hx
    · exact .inl hy
    · exact .inr (ih hx)

lemma nodup_of_chosen {ls : List (List String)} {xs : List String} (h : List.Forall₂ (· ∈ ·) xs ls)
    (hd : ls.flatten.Nodup) : xs.Nodup := by
  induction h with
  | nil => exact List.nodup_nil
  | cons hx hxs ih =>
    rw [List.flatten_cons] at hd
    exact List.nodup_cons.mpr ⟨fun hm => List.disjoint_of_nodup_append hd hx (mem_flatten_of_chosen hxs hm),
      ih hd.of_append_right⟩

lemma Past.nodup (h : Past p s done) : s.printed.Nodup := by
  have hd := p.choices_nodup
  rw [h.script, choices_append, List.flatten_append] at hd
  exact nodup_of_chosen h.chosen hd.of_append_left

/-- Where nobody is killed and `main` reaches its end, a line is in the file once for `main` and once for every
fork that comes after it. -/
theorem copies_full (he : (machine p .full).exec (start p) as = some t) (hk : ∀ a ∈ as, a.IsKill = false)
    (ho : t.Over) (hl : k < t.printed.length) :
    t.stdout.file.count t.printed[k] = 1 + p.forksAfter k := by
  have h := written_unkilled.exec rfl (along_of_forall hk) he
  obtain ⟨done, ended, live, hp, hx, hc⟩ := h.split
  obtain rfl : live = [] := List.map_eq_nil_iff.mp (hx.children.symm.trans ho.2.2)
  have hd : done = p.script := by simp [hp.script, ho.2.1]
  rw [hx.count hp.nodup hl]
  calc ended.countP (k < ·) = (beginnings done t).countP (k < ·) := by
        simpa using hc.countP_eq (k < ·)
    _ = 1 + p.forksAfter k := by
        simp [beginnings, ho.1, Program.forksAfter, hd, hl, add_comm]

def sigchldRun : List Action := [
  .fork, .fork, .childReturn 0, .fork, .childReturn 1, .childReturn 0,
  .print "* SIGCHLD: SIG_IGN throw away child exit status\n", .fork, .childReturn 0,
  .print "* SIGCHLD: handler NOT invoked immediately after established\n", .finish]

theorem copies_full_sigchld : ∃ t, ∃ hl : 0 < t.printed.length,
    (machine .sigchld .full).exec (start .sigchld) sigchldRun = some t ∧ t.stdout.file.count t.printed[0] = 2 := by
  obtain ⟨t, he, ht⟩ := Option.map_eq_some_iff.mp (show
    ((machine .sigchld .full).exec (start .sigchld) sigchldRun).map
      (fun t => (t.running, t.rest, t.stdout.children, t.printed.length)) = some (false, [], [], 2) from rfl)
  simp only [Prod.mk.injEq] at ht
  obtain ⟨h1, h2, h3, h4⟩ := ht
  exact ⟨t, by omega, he, copies_full he (by decide) ⟨h1, h2, h3⟩ (by omega)⟩

lemma forksAfter_of_past (h : Past p s done) : (forkPoints done 0).countP (k < ·) ≤ p.forksAfter k := by
  rw [Program.forksAfter, h.script, forkPoints_append, List.countP_append]
  exact Nat.le_add_right _ _

theorem copies_le (hs : (machine p .full).Reachable s) (hl : k < s.printed.length) :
    s.stdout.file.count s.printed[k] ≤ 1 + p.forksAfter k := by
  obtain ⟨lost, h⟩ := written_inv.holds hs
  obtain ⟨done, ended, live, hp, hx, hc⟩ := h.split
  rw [hx.count hp.nodup hl]
  have hle : ended.countP (k < ·) ≤ (beginnings done s).countP (k < ·) := by
    rw [← hc.countP_eq (k < ·), List.countP_append]
    exact Nat.le_add_right _ _
  refine hle.trans ?_
  rw [beginnings, List.countP_append, add_comm]
  refine Nat.add_le_add ?_ (forksAfter_of_past hp)
  split
  · simp
  · simp [hl]

theorem copies_le_sigchld : ∃ t, ∃ hl : 0 < t.printed.length,
    (machine .sigchld .full).exec (start .sigchld) sigchldRun = some t ∧ t.stdout.file.count t.printed[0] ≤ 2 := by
  obtain ⟨t, he, ht⟩ := Option.map_eq_some_iff.mp (show
    ((machine .sigchld .full).exec (start .sigchld) sigchldRun).map (·.printed.length) = some 2 from rfl)
  exact ⟨t, by omega, he, copies_le (reachable_of_exec rfl he) (by omega)⟩

structure Direct (s : State) : Prop where
  file : s.stdout.file = s.printed
  buffer : s.stdout.buffer = []
  children : ∀ c ∈ s.stdout.children, c = []

lemma direct_inv : (machine p .line).Invariant (fun _ _ => True) Direct where
  base _ hs := hs ▸ ⟨rfl, rfl, by simp [start, Stdout.empty]⟩
  step s a t h _ hs := by
    cases a with
    | childReturn i =>
      simp only [machine, step, Option.ite_none_right_eq_some, Option.some.injEq] at hs
      obtain ⟨hi, rfl⟩ := hs
      refine ⟨?_, h.buffer, fun c hc => h.children c (List.mem_of_mem_eraseIdx hc)⟩
      simp [Stdout.childExit, h.file, hi, h.children _ (List.getElem_mem hi)]
    | childKilled i =>
      simp only [machine, step, Option.ite_none_right_eq_some, Option.some.injEq] at hs
      obtain ⟨hi, rfl⟩ := hs
      exact ⟨h.file, h.buffer, fun c hc => h.children c (List.mem_of_mem_eraseIdx hc)⟩
    | print line =>
      simp only [machine, step, mainStep, Option.ite_none_right_eq_some] at hs
      obtain ⟨-, hs⟩ := hs
      split at hs
      · simp only [Option.ite_none_right_eq_some, Option.some.injEq] at hs
        obtain ⟨-, rfl⟩ := hs
        exact ⟨by simp [Stdout.print, h.file], h.buffer, h.children⟩
      · cases hs
    | fork =>
      simp only [machine, step, mainStep, Option.ite_none_right_eq_some] at hs
      obtain ⟨-, hs⟩ := hs
      split at hs
      · obtain rfl := Option.some.inj hs
        refine ⟨h.file, h.buffer, fun c hc => ?_⟩
        rcases List.mem_append.mp hc with hc | hc
        · exact h.children c hc
        · exact (List.mem_singleton.mp hc).trans h.buffer
      · cases hs
    | fail | finish =>
      simp only [machine, step, mainStep, Option.ite_none_right_eq_some, Option.some.injEq] at hs
      simp only [← hs.2, Stdout.exit]
      exact ⟨by simp [h.file, h.buffer], rfl, h.children⟩

theorem lines_once (hs : (machine p .line).Reachable s) : s.stdout.file = s.printed :=
  (direct_inv.holds hs).file

theorem lines_once_sigchld : ∃ t, (machine .sigchld .line).exec (start .sigchld) sigchldRun = some t ∧
    t.stdout.file = t.printed := by
  obtain ⟨t, he, -⟩ := Option.map_eq_some_iff.mp (show
    ((machine .sigchld .line).exec (start .sigchld) sigchldRun).map (·.running) = some false from rfl)
  exact ⟨t, he, lines_once (reachable_of_exec rfl he)⟩

end ApueCode.ForkedStdout
