import ApueCode.Posix.Atoi
import ApueCode.System.PrExit

/-! `exit_status status`: what a wait status that is given as a number says. -/

namespace ApueCode.ExitStatus

open Posix Status ApueCode.System

structure Outcome where
  stdout : List (List Char)
  stderr : List String
  status : ℕ
  deriving DecidableEq

def arg (argv : List String) (i : ℕ) : String := argv.getD i ""

def main (argv : List String) : Outcome :=
  if argv.length ≠ 2 then ⟨[], [s!"usage: {arg argv 0} <exit_status>\n"], EXIT_FAILURE⟩
  else
    let status := atoi (arg argv 1).toList
    let lines :=
      if WIFEXITED status then ["normal termination, exit status = ".toList ++ decimal (WEXITSTATUS status).toNat]
      else if WIFSIGNALED status then [
        "abnormal termination, signal number = ".toList ++ decimal (WTERMSIG status).toNat ++
          (if WCOREDUMP status then " (core file generated)" else "").toList]
      else if WIFSTOPPED status then ["child stopped, signal number = ".toList ++ decimal (WSTOPSIG status).toNat]
      else []
    ⟨lines, [], 0⟩

variable {name : String} {s : Status} {blanks rest : List Char}

theorem main_decimal (hb : ∀ c ∈ blanks, isspace c = true) (hr : NoDigit rest) :
    main [name, String.ofList (blanks ++ (signedDecimal s.toInt ++ rest))] = ⟨pr_exit s, [], 0⟩ := by
  have hs : atoi (arg [name, String.ofList (blanks ++ (signedDecimal s.toInt ++ rest))] 1).toList = s := by
    simp only [arg, List.getD_cons_succ, List.getD_cons_zero, String.toList_ofList]
    exact atoi_signedDecimal hb hr
  simp only [main, hs]
  rfl

theorem main_decimal_core :
    main ["exit_status", String.ofList ("  ".toList ++ (signedDecimal (BitVec.toInt (139 : Status)) ++ []))] =
      ⟨["abnormal termination, signal number = 11 (core file generated)".toList], [], 0⟩ :=
  (main_decimal (List.all_eq_true.mp rfl) noDigit_nil).trans (by decide +kernel)

end ApueCode.ExitStatus
