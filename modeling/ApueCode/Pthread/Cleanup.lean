import ApueCode.Posix.ThreadsEnd

/-! `pthread_cleanup`: one thread returns and one calls `pthread_exit` while two cleanup handlers are pushed. -/

namespace ApueCode.PthreadCleanup

open Posix.Threads Transition Machine

inductive Tid
  | tid1 | tid2
  deriving DecidableEq

instance : Fintype Tid := ⟨{.tid1, .tid2}, fun i => by cases i <;> decide⟩

def cleanup (arg : String) : List String := [s!"cleanup: {arg}\n"]

def thr_fn1 (arg : Bool) : List (Op String) := [
  .print "thread 1 start\n", .push (cleanup "thread 1 first handler"), .push (cleanup "thread 1 second handler"),
  .print "thread 1 push complete\n"] ++ if arg then [.return 1] else [.pop false, .pop false, .return 1]

def thr_fn2 (arg : Bool) : List (Op String) := [
  .print "thread 2 start\n", .push (cleanup "thread 2 first handler"), .push (cleanup "thread 2 second handler"),
  .print "thread 2 push complete\n"] ++ if arg then [.exit 2] else [.pop false, .pop false, .exit 2]

def routine (arg : Bool) : Tid → List (Op String)
  | .tid1 => thr_fn1 arg
  | .tid2 => thr_fn2 arg

def main : List (MainOp Tid) := [.create .tid1 false, .create .tid2 false, .join .tid1, .join .tid2]

def exitLine (tid : Tid) (tret : ℤ) : String :=
  match tid with
  | .tid1 => s!"thread 1 exit code {tret}\n"
  | .tid2 => s!"thread 2 exit code {tret}\n"

def program (arg onReturn : Bool) : Program Tid String := ⟨main, routine arg, exitLine, onReturn⟩

variable {arg onReturn : Bool} {s t : Process Tid String} {as : List (Action Tid)}

def value : Tid → ℤ
  | .tid1 => 1
  | .tid2 => 2

def lines (arg onReturn : Bool) : Tid → List String
  | .tid1 => ["thread 1 start\n", "thread 1 push complete\n"] ++
      if arg && onReturn then cleanup "thread 1 second handler" ++ cleanup "thread 1 first handler" else []
  | .tid2 => ["thread 2 start\n", "thread 2 push complete\n"] ++
      if arg then cleanup "thread 2 second handler" ++ cleanup "thread 2 first handler" else []

lemma outcomes_routine (i : Tid) :
    ∀ o ∈ outcomes (Process.mayCancel (program arg onReturn) i) onReturn (routine arg i) [],
      o = (lines arg onReturn i, value i) := by
  cases i <;> cases arg <;> cases onReturn <;> decide +kernel

lemma routine_ends (i : Tid) : (routine arg i).any Op.ends = true := by
  cases i <;> cases arg <;> rfl

lemma main_orderly : Process.orderly (program arg onReturn) [] main = true := by
  cases arg <;> cases onReturn <;> decide +kernel

lemma joins_of_ended {status : ℕ} (hs : (program arg onReturn).machine.Reachable s) (hx : s.status = some status)
    (hf : ∀ i d, s.failed ≠ some (.create i d)) :
    status = 0 ∧ joined s.out = [.tid1, .tid2] ∧
      ∀ i x, (.join i, x) ∈ s.out → x = exitLine i (value i) ∧ linesOf i s.out = lines arg onReturn i := by
  obtain ⟨before, hl⟩ := (Process.live routine_ends main_orderly).holds hs
  obtain ⟨done, hd, hj⟩ := (Process.inv.holds hs).done
  cases Process.ended.holds hs with
  | running h => simp [h] at hx
  | create i d r h hf' => exact (hf i d hf').elim
  | join i u r h hf' hmain hu hdet =>
    have hc : MainOp.create i u.detached ∈ main := by
      rw [show main = before ++ s.main from hl.main]
      exact List.mem_append_left _ (hl.known i u hu).detached.1
    rw [hdet] at hc
    cases i <;> simp [main] at hc
  | returned h hf' hmain =>
    rw [hmain, List.append_nil] at hd
    refine ⟨Option.some.inj (hx.symm.trans h), ?_, fun i x hm => ?_⟩
    · rw [hj, ← hd]
      rfl
    · obtain ⟨v, rfl, ho⟩ := Process.joined_outcome hs hm
      obtain ⟨hlines, rfl⟩ := Prod.mk.inj (outcomes_routine i _ ho)
      exact ⟨rfl, hlines⟩

/-- The program comes to an end, and if both threads can be created it succeeds, with the lines of each thread complete
and before the line of `main` on it, whatever the order in which the threads run. -/
theorem joins_both (he : (program arg onReturn).machine.exec (program arg onReturn).start as = some t) :
    as.length ≤ 27 ∧ (t.status = none → ∃ a u, Process.step (program arg onReturn) t a = some u) ∧
      t.out.Pairwise InOrder ∧
      ∀ status, t.status = some status → (∀ i d, t.failed ≠ some (.create i d)) →
        status = 0 ∧ joined t.out = [.tid1, .tid2] ∧
        ∀ i x, (.join i, x) ∈ t.out → x = exitLine i (value i) ∧ linesOf i t.out = lines arg onReturn i := by
  have hle := exec_length_le (Process.rank (program arg onReturn)) (fun _ _ _ => Process.rank_step) he
  have hrank : Process.rank (program arg onReturn) (program arg onReturn).start ≤ 27 := by
    cases arg <;> cases onReturn <;> decide +kernel
  have hs := reachable_of_exec rfl he
  exact ⟨by omega, Process.progress routine_ends main_orderly hs, Process.in_order hs,
    fun _ hx hf => joins_of_ended hs hx hf⟩

def mixedRun : List (Action Tid) :=
  [.main, .main] ++ List.replicate 4 (.run .tid2) ++ List.replicate 5 (.run .tid1) ++ [.main] ++
    List.replicate 3 (.run .tid2) ++ [.main, .main]

theorem joins_both_mixedRun : ∃ t, (program true false).machine.exec (program true false).start mixedRun = some t ∧
    mixedRun.length ≤ 27 ∧ t.out.Pairwise InOrder ∧ t.status = some 0 ∧ joined t.out = [.tid1, .tid2] ∧
    ∀ i x, (.join i, x) ∈ t.out → x = exitLine i (value i) ∧ linesOf i t.out = lines true false i := by
  obtain ⟨t, he, ht⟩ := Option.map_eq_some_iff.mp (show
    ((program true false).machine.exec (program true false).start mixedRun).map (fun t => (t.status, t.failed)) =
      some (some 0, none) by decide +kernel)
  obtain ⟨hstatus, hfailed⟩ := Prod.mk.inj ht
  obtain ⟨hlen, -, horder, hend⟩ := joins_both he
  obtain ⟨-, hj, hlines⟩ := hend 0 hstatus fun i d => by simp [hfailed]
  exact ⟨t, he, hlen, horder, hstatus, hj, hlines⟩

end ApueCode.PthreadCleanup
