import ApueCode.Posix.Printf

/-! `sig_mask`: the names of the signals in the mask of the process. -/

namespace ApueCode.SigMask

open Posix

def names : List String := [
  "SIGABRT", "SIGALRM", "SIGBUS", "SIGCACEL", "SIGCHLD", "SIGCONT", "SIGEMT", "SIGFPE", "SIGFREEZE", "SIGHUP",
  "SIGILL", "SIGINFO", "SIGINT", "SIGIO", "SIGIOT", "SIGJVM1", "SIGJVM2", "SIGKILL", "SIGLOST", "SIGLWP",
  "SIGPIPE", "SIGPOLL", "SIGPROF", "SIGPWR", "SIGQUIT", "SIGSEGV", "SIGSTKFLT", "SIGSTOP", "SIGSYS", "SIGTERM",
  "SIGTHAW", "SIGTHR", "SIGTRAP", "SIGTSTP", "SIGTTIN", "SIGTTOU", "SIGURG", "SIGUSR1", "SIGUSR2", "SIGVTALRM",
  "SIGWAITING", "SIGWINCH", "SIGXCPU", "SIGXFSZ", "SIGXRES"]

section

variable (signo : String → Option ℕ)

def isShown (mask : ℕ → Bool) (name : String) : Bool := (signo name).any mask

def pr_mask (str : String) (mask : ℕ → Bool) : List Char :=
  str.toList ++ (":\n".toList ++ ((names.filter (isShown signo mask)).flatMap (fun name => ' ' :: name.toList) ++ ['\n']))

def main (mask : ℕ → Bool) : List Char := pr_mask signo "default signal mask" mask

end

end ApueCode.SigMask
