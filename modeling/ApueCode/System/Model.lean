import ApueCode.Posix.Children
import ApueCode.Posix.Stdio
import ApueCode.Posix.WaitStatus
import ApueCode.Transition.Machine

/-! `system` and `pr_exit`, and the `main` that asks a shell for one command after the other. `eintr` and `echild`
are the failures of `waitpid`, and `keep` is false where `SIGCHLD` is ignored when the program starts. -/

namespace ApueCode.System

open Posix Transition Status

def signalLine (signo : ℕ) (core : Bool) : List Char :=
  "abnormal termination, signal number = ".toList ++ decimal signo ++
    (if core then " (core file generated)" else "").toList

def exitLine (status : ℕ) : List Char := "normal termination, exit status = ".toList ++ decimal status

def stopLine (signo : ℕ) : List Char := "child stopped, signal number = ".toList ++ decimal signo

def pr_exit (status : Status) : List (List Char) :=
  if WIFEXITED status then [exitLine (WEXITSTATUS status).toNat]
  else if WIFSIGNALED status then [signalLine (WTERMSIG status).toNat (WCOREDUMP status)]
  else if WIFSTOPPED status then [stopLine (WSTOPSIG status).toNat]
  else []

def EXIT_FAILURE : ℕ := 1

def commands : List String := ["date", "nosuchcommand", "who; exit 44"]

inductive Pc
  | fork (k : ℕ) | waitpid (k pid : ℕ) | returned (k : ℕ) (status : Status) | exited (status : ℕ)
  deriving DecidableEq

inductive ChildPc
  | execl | bash | _exit
  deriving DecidableEq

structure State where
  pc : Pc
  child : Option (ℕ × ChildPc)
  children : Children ℕ Termination
  stdout : Stdout (List Char)
  stderr : List String
  ended : List Termination

inductive Action
  | forkFails | fork (pid : ℕ) | eintr | reap (e : Termination) | echild | main
  | execl (ok : Bool) | childEnds (e : Termination) | otherEnds (pid : ℕ) (e : Termination)
  deriving DecidableEq

def ChildPc.mayEnd : ChildPc → Termination → Bool
  | _, .stopped _ => false
  | _, .signaled _ _ => true
  | .execl, .exited _ => false
  | .bash, .exited _ => true
  | ._exit, .exited status => status = 127

def State.printAll (s : State) (b : Buffering) (lines : List (List Char)) : State :=
  { s with stdout := lines.foldl (fun o line => o.print b line) s.stdout }

def State.exit (s : State) (status : ℕ) : State := { s with stdout := s.stdout.exit, pc := .exited status }

def systemError (k : ℕ) : String := s!"#{k + 1} system() error"

def test (b : Buffering) (s : State) (k : ℕ) (status : Status) : State :=
  if status.slt 0 then { s with stderr := s.stderr ++ [systemError k] }.exit EXIT_FAILURE
  else
    let s := s.printAll b (pr_exit status)
    if k + 1 < commands.length then { s with pc := .fork (k + 1) } else s.exit 0

def mainStep (b : Buffering) (s : State) : Action → Option State
  | .forkFails =>
    match s.pc with
    | .fork k => some { s with pc := .returned k (-1) }
    | _ => none
  | .fork pid =>
    match s.pc with
    | .fork k =>
      if h : pid ∉ s.children.pids then
        some { s with
          pc := .waitpid k pid
          child := some (pid, .execl)
          children := s.children.fork pid h
          stdout := s.stdout.fork }
      else none
    | _ => none
  | .eintr =>
    match s.pc with
    | .waitpid _ pid => if pid ∈ s.children.running then some s else none
    | _ => none
  | .reap e =>
    match s.pc with
    | .waitpid k pid =>
      if (pid, e) ∈ s.children.zombies then
        some { s with pc := .returned k (encode e), children := s.children.reap pid e }
      else none
    | _ => none
  | .echild =>
    match s.pc with
    | .waitpid k pid => if pid ∉ s.children.pids then some { s with pc := .returned k (-1) } else none
    | _ => none
  | .main =>
    match s.pc with
    | .returned k status => some (test b s k status)
    | _ => none
  | _ => none

def childStep (keep : Bool) (s : State) : Action → Option State
  | .execl ok =>
    match s.child with
    | some (pid, .execl) =>
      if ok then some { s with child := some (pid, .bash), stdout := s.stdout.childDrop 0 }
      else some { s with child := some (pid, ._exit) }
    | _ => none
  | .childEnds e =>
    match s.child with
    | some (pid, pc) =>
      if h : pid ∈ s.children.running then
        if pc.mayEnd e then
          some { s with
            child := none
            children := s.children.finish pid e keep h
            stdout := s.stdout.childDrop 0
            ended := s.ended ++ [e] }
        else none
      else none
    | _ => none
  | .otherEnds pid e =>
    if h : pid ∈ s.children.running then
      if s.child.map Prod.fst = some pid then none
      else some { s with children := s.children.finish pid e keep h }
    else none
  | _ => none

def step (b : Buffering) (keep : Bool) (s : State) (a : Action) : Option State :=
  match a with
  | .execl _ | .childEnds _ | .otherEnds _ _ => childStep keep s a
  | a => mainStep b s a

def start (inherited : Children ℕ Termination) : State where
  pc := .fork 0
  child := none
  children := inherited
  stdout := .empty
  stderr := []
  ended := []

def machine (b : Buffering) (keep : Bool) (inherited : Children ℕ Termination) : Machine State Action where
  init s := s = start inherited
  step := step b keep

end ApueCode.System
