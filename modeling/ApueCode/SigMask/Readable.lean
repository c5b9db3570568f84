import ApueCode.SigMask.Model

/-! The output of `sig_mask` tells which signals of the platform are in the mask. -/

namespace ApueCode.SigMask

open Posix

variable {signo : String → Option ℕ} {m m' : ℕ → Bool} {str : String}

lemma blank_notMem_names : ∀ name ∈ names, ' ' ∉ name.toList := by
  have hall : names.all (fun name => !name.toList.contains ' ') = true := by decide +kernel
  intro name h
  simpa using List.all_eq_true.mp hall name h

lemma pr_mask_eq_iff : pr_mask signo str m = pr_mask signo str m' ↔
    ∀ name ∈ names, isShown signo m name = isShown signo m' name := by
  constructor
  · intro h name hn
    have hplain : ∀ (mask : ℕ → Bool), ∀ x ∈ (names.filter (isShown signo mask)).map String.toList, ' ' ∉ x := by
      intro mask x hx
      obtain ⟨name, hm, rfl⟩ := List.mem_map.mp hx
      exact blank_notMem_names name (List.mem_of_mem_filter hm)
    have hwords := List.append_cancel_right (List.append_cancel_left (List.append_cancel_left h))
    rw [← words_map_toList, ← words_map_toList] at hwords
    have hnames := words_inj (hplain m) (hplain m') hwords
    have hfilter := List.map_injective_iff.mpr (fun _ _ => String.toList_injective) hnames
    have hmem : name ∈ names.filter (isShown signo m) ↔ name ∈ names.filter (isShown signo m') := by rw [hfilter]
    rw [List.mem_filter, List.mem_filter] at hmem
    exact Bool.eq_iff_iff.mpr (by simpa [hn] using hmem)
  · intro h
    rw [pr_mask, pr_mask, List.filter_congr h]

def linux : List (String × ℕ) := [
  ("SIGHUP", 1), ("SIGINT", 2), ("SIGQUIT", 3), ("SIGILL", 4), ("SIGTRAP", 5), ("SIGABRT", 6), ("SIGIOT", 6),
  ("SIGBUS", 7), ("SIGFPE", 8), ("SIGKILL", 9), ("SIGUSR1", 10), ("SIGSEGV", 11), ("SIGUSR2", 12), ("SIGPIPE", 13),
  ("SIGALRM", 14), ("SIGTERM", 15), ("SIGSTKFLT", 16), ("SIGCHLD", 17), ("SIGCONT", 18), ("SIGSTOP", 19),
  ("SIGTSTP", 20), ("SIGTTIN", 21), ("SIGTTOU", 22), ("SIGURG", 23), ("SIGXCPU", 24), ("SIGXFSZ", 25),
  ("SIGVTALRM", 26), ("SIGPROF", 27), ("SIGWINCH", 28), ("SIGIO", 29), ("SIGPOLL", 29), ("SIGPWR", 30), ("SIGSYS", 31)]

def linuxSigno (name : String) : Option ℕ := linux.lookup name

theorem main_eq_iff : main linuxSigno m = main linuxSigno m' ↔ ∀ n, 1 ≤ n → n ≤ 31 → m n = m' n := by
  rw [main, main, pr_mask_eq_iff]
  have hnumber : ∀ n, 1 ≤ n → n ≤ 31 → ∃ name ∈ names, linuxSigno name = some n := by decide +kernel
  have hrange : ∀ name ∈ names, (linuxSigno name).all (fun n => 1 ≤ n ∧ n ≤ 31) = true :=
    List.all_eq_true.mp (by decide +kernel)
  constructor
  · intro h n hlo hhi
    obtain ⟨name, hmem, hn⟩ := hnumber n hlo hhi
    simpa [isShown, hn] using h name hmem
  · intro h name hmem
    have hr := hrange name hmem
    cases hn : linuxSigno name with
    | none => simp [isShown, hn]
    | some n =>
      rw [hn] at hr
      obtain ⟨hlo, hhi⟩ : 1 ≤ n ∧ n ≤ 31 := by simpa using hr
      simp [isShown, hn, h n hlo hhi]

end ApueCode.SigMask
