import ApueCode.Posix.ThreadsEnd

/-! `pthread_exit`: three threads that end in three ways are joined, and a detached one cannot be. -/

namespace ApueCode.PthreadExit

open Posix.Threads Transition Machine

inductive Tid
  | tid1 | tid2 | tid3 | tid4
  deriving DecidableEq

instance : Fintype Tid := ⟨{.tid1, .tid2, .tid3, .tid4}, fun i => by cases i <;> decide⟩

def thr_fn1 : List (Op String) := [.print "thread 1 returning\n", .return 1]
def thr_fn2 : List (Op String) := [.print "thread 2 returning\n", .exit 2]
def thr_fn3 : List (Op String) := [.print "thread 3 canceled\n", .pause, .exit 3]
def thr_fn4 : List (Op String) := [.print "thread 4 detached\n", .pause, .exit 4]

def routine : Tid → List (Op String)
  | .tid1 => thr_fn1
  | .tid2 => thr_fn2
  | .tid3 => thr_fn3
  | .tid4 => thr_fn4

def main : List (MainOp Tid) := [
  .create .tid1 false, .create .tid2 false, .create .tid3 false, .create .tid4 true,
  .join .tid1, .join .tid2, .cancel .tid3, .join .tid3, .join .tid4]

def exitLine (tid : Tid) (tret : ℤ) : String :=
  match tid with
  | .tid1 => s!"thread 1 exit code {tret}\n"
  | .tid2 => s!"thread 2 exit code {tret}\n"
  | .tid3 => s!"thread 3 exit code {tret}" ++ (if tret = PTHREAD_CANCELED then " (PTHREAD_CANCELED)" else "") ++ "\n"
  | .tid4 => s!"thread 4 exit code {tret}\n"

def program (onReturn : Bool) : Program Tid String := ⟨main, routine, exitLine, onReturn⟩

variable {onReturn : Bool} {s t : Process Tid String} {as : List (Action Tid)} {i : Tid} {x : String}

def report : Tid → String
  | .tid1 => exitLine .tid1 1
  | .tid2 => exitLine .tid2 2
  | .tid3 => exitLine .tid3 PTHREAD_CANCELED
  | .tid4 => ""

def due : Tid → List (List String)
  | .tid1 => [["thread 1 returning\n"]]
  | .tid2 => [["thread 2 returning\n"]]
  | .tid3 => [[], ["thread 3 canceled\n"]]
  | .tid4 => []

lemma outcomes_routine (i : Tid) : ∀ o ∈ outcomes (Process.mayCancel (program onReturn) i) onReturn (routine i) [],
    exitLine i o.2 = report i ∧ o.1 ∈ due i := by
  cases i <;> cases onReturn <;> decide +kernel

lemma routine_ends (i : Tid) : (routine i).any Op.ends = true := by
  cases i <;> rfl

lemma main_orderly : Process.orderly (program onReturn) [] main = true := by
  cases onReturn <;> decide +kernel

lemma detached_iff {d : Bool} (h : MainOp.create i d ∈ main) : d = true ↔ i = .tid4 := by
  revert h
  cases i <;> cases d <;> decide

lemma before_last {done r : List (MainOp Tid)} (h : main = done ++ .join .tid4 :: r) : done = main.take 8 := by
  have hc : (done ++ MainOp.join Tid.tid4 :: r).count (.join .tid4) = 1 := h ▸ (by decide)
  have hn : MainOp.join Tid.tid4 ∉ done := by
    rw [← List.count_eq_zero]
    simp only [List.count_append, List.count_cons_self] at hc
    omega
  have hi : (done ++ MainOp.join Tid.tid4 :: r).idxOf (.join .tid4) = 8 := h ▸ (by decide)
  rw [List.idxOf_append_of_notMem hn, List.idxOf_cons_self, Nat.add_zero] at hi
  rw [h, ← hi, List.take_left]

/-- The process never succeeds: if every thread can be created, `main` fails where it joins the detached one, when it has
joined the others. -/
theorem ends_in_failure {status : ℕ} (hs : (program onReturn).machine.Reachable s) (hx : s.status = some status) :
    status = 1 ∧ ((∃ i d, s.failed = some (.create i d)) ∨
      s.failed = some (.join .tid4) ∧ joined s.out = [.tid1, .tid2, .tid3]) := by
  have hfail := Process.fails_of_detached (P := program onReturn) (i := .tid4) routine_ends main_orderly
    (show _ ∈ main by decide) (show _ ∈ main by decide)
  obtain ⟨⟨before, hl⟩, -, hz⟩ := hfail.holds hs
  obtain ⟨done, hd, hj⟩ := (Process.inv.holds hs).done
  cases Process.ended.holds hs with
  | running h => simp [h] at hx
  | returned h => exact (hz h).elim
  | create i d r h hf => exact ⟨Option.some.inj (hx.symm.trans h), .inl ⟨i, d, hf⟩⟩
  | join i u r h hf hmain hu hdet =>
    have hc : MainOp.create i u.detached ∈ main := by
      rw [show main = before ++ s.main from hl.main]
      exact List.mem_append_left _ (hl.known i u hu).detached.1
    obtain rfl : i = .tid4 := (detached_iff hc).mp hdet
    refine ⟨Option.some.inj (hx.symm.trans h), .inr ⟨hf, ?_⟩⟩
    rw [hmain] at hd
    rw [hj, before_last hd]
    rfl

def lateRun : List (Action Tid) := [
  .main, .main, .run .tid2, .main, .run .tid1, .run .tid1, .main, .run .tid2, .main, .main, .main, .cancel .tid3, .main,
  .main]

theorem ends_in_failure_lateRun : ∃ t, (program false).machine.exec (program false).start lateRun = some t ∧
    joined t.out = [.tid1, .tid2, .tid3] := by
  obtain ⟨t, he, ht⟩ := Option.map_eq_some_iff.mp (show
    ((program false).machine.exec (program false).start lateRun).map (fun t => (t.status, t.failed)) =
      some (some 1, some (.join .tid4)) by decide +kernel)
  obtain ⟨hstatus, hfailed⟩ := Prod.mk.inj ht
  rcases (ends_in_failure (reachable_of_exec rfl he) hstatus).2 with ⟨i, d, hc⟩ | ⟨-, hj⟩
  · simp [hfailed] at hc
  · exact ⟨t, he, hj⟩

theorem joins_report (hs : (program onReturn).machine.Reachable s) :
    s.out.Pairwise InOrder ∧ ∀ i x, (.join i, x) ∈ s.out → x = report i ∧ linesOf i s.out ∈ due i := by
  refine ⟨Process.in_order hs, fun i x hx => ?_⟩
  obtain ⟨value, rfl, ho⟩ := Process.joined_outcome hs hx
  exact outcomes_routine i _ ho

theorem joins_report_lateRun : ∃ t, (program false).machine.exec (program false).start lateRun = some t ∧
    t.out.Pairwise InOrder := by
  obtain ⟨t, he, -⟩ := Option.map_eq_some_iff.mp (show
    ((program false).machine.exec (program false).start lateRun).map (·.status) = some (some 1) by decide +kernel)
  exact ⟨t, he, (joins_report (reachable_of_exec rfl he)).1⟩

theorem never_hangs (he : (program onReturn).machine.exec (program onReturn).start as = some t) :
    as.length ≤ 20 ∧ (t.status = none → ∃ a u, Process.step (program onReturn) t a = some u) := by
  have hle := exec_length_le (Process.rank (program onReturn)) (fun _ _ _ => Process.rank_step) he
  have hrank : Process.rank (program onReturn) (program onReturn).start = 20 := rfl
  exact ⟨by omega, Process.progress routine_ends main_orderly (reachable_of_exec rfl he)⟩

theorem never_hangs_lateRun : lateRun.length ≤ 20 := by
  obtain ⟨t, he, -⟩ := Option.map_eq_some_iff.mp (show
    ((program false).machine.exec (program false).start lateRun).map (·.status) = some (some 1) by decide +kernel)
  exact (never_hangs he).1

end ApueCode.PthreadExit
