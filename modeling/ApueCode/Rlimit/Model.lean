import ApueCode.Posix.Printf

/-! `rlimit`: the limits of the process on a line for each resource. -/

namespace ApueCode.Rlimit

open Posix

abbrev Rlim := BitVec 64

def RLIM_INFINITY : Rlim := BitVec.allOnes 64

structure Limits where
  rlim_cur : Rlim
  rlim_max : Rlim
  deriving DecidableEq

def column (lim : Rlim) : List Char :=
  if lim = RLIM_INFINITY then "(infinite)".toList else List.leftpad 10 ' ' (signedDecimal lim.toInt)

def row (name : String) (limit : Limits) : List Char :=
  List.rightpad 18 ' ' name.toList ++ (" ".toList ++ (column limit.rlim_cur ++ (" ".toList ++ column limit.rlim_max)))

def names : List String := [
  "RLIMIT_AS", "RLIMIT_CORE", "RLIMIT_CPU", "RLIMIT_DATA", "RLIMIT_FSIZE", "RLIMIT_MEMLOCK", "RLIMIT_MSGQUEUE",
  "RLIMIT_NICE", "RLIMIT_NOFILE", "RLIMIT_NPROC", "RLIMIT_NPTS", "RLIMIT_RSS", "RLIMIT_SBSIZE", "RLIMIT_SIGPENDING",
  "RLIMIT_STACK", "RLIMIT_SWAP", "RLIMIT_VMEM"]

structure Outcome where
  stdout : List (List Char)
  stderr : List String
  status : ℕ
  deriving DecidableEq

def EXIT_FAILURE : ℕ := 1

section

variable (getrlimit : String → Except String Limits)

def pr_limits : List String → Outcome
  | [] => ⟨[], [], 0⟩
  | name :: rest =>
    match getrlimit name with
    | .error e => ⟨[], [s!"getrlimit error for {name}: {e}\n"], EXIT_FAILURE⟩
    | .ok limit => { pr_limits rest with stdout := row name limit :: (pr_limits rest).stdout }

def main (defined : String → Bool) : Outcome := pr_limits getrlimit (names.filter defined)

end

end ApueCode.Rlimit
