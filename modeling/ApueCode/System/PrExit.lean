import ApueCode.System.Model

/-! A line of `pr_exit` tells what became of the child. -/

namespace ApueCode.System

open Posix Status

variable {s t : Status} {e e' : Termination}

def report : Termination → List Char
  | .exited status => exitLine status.toNat
  | .signaled signo core => signalLine signo.1.toNat core
  | .stopped signo => stopLine signo.toNat

lemma pr_exit_eq (s : Status) : pr_exit s = ((decode s).map report).toList := by
  have hz := ofNat_seven_eq_zero (s := s)
  have hs := ofNat_seven_eq_127 (s := s)
  by_cases h0 : s.toNat % 128 = 0
  · have hd : decode s = some (.exited (BitVec.ofNat 8 (s.toNat / 256))) := dif_pos (hz.mpr h0)
    rw [pr_exit, if_pos (WIFEXITED_iff.mpr h0), hd, toNat_WEXITSTATUS]
    rfl
  · have hx : ¬ WIFEXITED s = true := mt WIFEXITED_iff.mp h0
    by_cases h127 : s.toNat % 128 = 127
    · have hg : ¬ WIFSIGNALED s = true := fun hg => (WIFSIGNALED_iff.mp hg).2 h127
      rw [pr_exit, if_neg hx, if_neg hg, decode, dif_neg (mt hz.mp h0), dif_pos (hs.mpr h127)]
      by_cases h : s.toNat % 256 = 127
      · rw [if_pos (WIFSTOPPED_iff.mpr h), if_pos h, WSTOPSIG, toNat_WEXITSTATUS]
        rfl
      · rw [if_neg (mt WIFSTOPPED_iff.mp h), if_neg h]
        rfl
    · have hg : WIFSIGNALED s = true := WIFSIGNALED_iff.mpr ⟨h0, h127⟩
      have hc : WCOREDUMP s = decide (s.toNat / 128 % 2 = 1) := by
        rw [Bool.eq_iff_iff, WCOREDUMP_iff, decide_eq_true_eq]
      rw [pr_exit, if_neg hx, if_pos hg, decode, dif_neg (mt hz.mp h0), dif_neg (mt hs.mp h127), toNat_WTERMSIG, hc]
      rfl

lemma pr_exit_eq_nil : pr_exit s = [] ↔ s.toNat % 256 = 255 := by
  rw [pr_exit_eq, ← decode_eq_none]
  simp

theorem pr_exit_encode (e : Termination) : pr_exit (encode e) = [report e] := by
  rw [pr_exit_eq, decode_encode]
  rfl

lemma noDigit_core (c : Bool) : NoDigit (if c then " (core file generated)" else "").toList := by
  cases c with
  | false => exact noDigit_nil
  | true =>
    have hcore : NoDigit " (core file generated)".toList := rfl
    exact hcore

lemma signalLine_inj {m n : ℕ} {c d : Bool} (h : signalLine m c = signalLine n d) : m = n ∧ c = d := by
  unfold signalLine at h
  rw [List.append_assoc, List.append_assoc] at h
  have ht := List.append_cancel_left h
  obtain ⟨hn, hr⟩ := decimal_append_inj (noDigit_core c) (noDigit_core d) ht
  refine ⟨hn, ?_⟩
  cases c <;> cases d <;> first | rfl | simp at hr

lemma exitLine_injective : Function.Injective exitLine := fun _ _ h => decimal_injective (List.append_cancel_left h)

lemma stopLine_injective : Function.Injective stopLine := fun _ _ h => decimal_injective (List.append_cancel_left h)

lemma head_append {cs ds : List Char} {c : Char} (h : cs.head? = some c) : (cs ++ ds).head? = some c := by
  rw [List.head?_append, h]
  rfl

lemma head_exitLine (n : ℕ) : (exitLine n).head? = some 'n' := head_append rfl

lemma head_signalLine (n : ℕ) (c : Bool) : (signalLine n c).head? = some 'a' := head_append (head_append rfl)

lemma head_stopLine (n : ℕ) : (stopLine n).head? = some 'c' := head_append rfl

lemma report_injective : Function.Injective report := by
  intro e e' h
  have hh := congrArg List.head? h
  simp only [report] at h hh
  cases e with
  | exited n =>
    cases e' with
    | exited n' => exact congrArg _ (BitVec.eq_of_toNat_eq (exitLine_injective h))
    | signaled _ _ | stopped _ => simp [head_exitLine, head_signalLine, head_stopLine] at hh
  | signaled n c =>
    cases e' with
    | signaled n' c' =>
      obtain ⟨hn, rfl⟩ := signalLine_inj h
      obtain rfl : n = n' := Subtype.ext (BitVec.eq_of_toNat_eq hn)
      rfl
    | exited _ | stopped _ => simp [head_exitLine, head_signalLine, head_stopLine] at hh
  | stopped n =>
    cases e' with
    | stopped n' => exact congrArg _ (BitVec.eq_of_toNat_eq (stopLine_injective h))
    | exited _ | signaled _ _ => simp [head_exitLine, head_signalLine, head_stopLine] at hh

theorem pr_exit_eq_iff : pr_exit s = pr_exit t ↔ decode s = decode t := by
  rw [pr_exit_eq, pr_exit_eq]
  refine ⟨fun h => Option.map_injective report_injective ?_, fun h => by rw [h]⟩
  cases hs : (decode s).map report <;> cases ht : (decode t).map report <;> simp_all

lemma encode_nonneg (e : Termination) : (encode e).slt 0 = false := by
  cases e with
  | exited status => exact (show ∀ n : BitVec 8, (encode (.exited n)).slt 0 = false by decide +kernel) status
  | stopped signo => exact (show ∀ n : BitVec 8, (encode (.stopped n)).slt 0 = false by decide +kernel) signo
  | signaled signo core =>
    obtain ⟨n, hn⟩ := signo
    exact (show ∀ (n : BitVec 7) (hn : n ≠ 0 ∧ n ≠ 0x7f) (core : Bool),
      (encode (.signaled ⟨n, hn⟩ core)).slt 0 = false by decide +kernel) n hn core

end ApueCode.System
