import ApueCode.Posix.Stdio
import ApueCode.SigactionSemantics.Model
import ApueCode.Transition.Machine

/-! The lines that `sigaction_semantics`, `signal_semantics` and `sigchld` print between their forks. The children
print nothing, but return from `main`. `rest` is what `main` has still to do, `printed` all that it has given to
`printf`. -/

namespace ApueCode.ForkedStdout

open Posix Transition SigactionSemantics

inductive Stmt
  | print (lines : List String)
  | fork
  deriving DecidableEq

inductive Program
  | sigaction_semantics | signal_semantics | sigchld
  deriving DecidableEq

def handlerScript : List Stmt := [
  .print ["* Reset handler after invoked\n", "* NOT reset handler after invoked\n",
    "* UNKNOWN whether reset handler after invoked\n"],
  .fork,
  .print ["* NOT prevent received signal while the handler is excuting\n",
    "* Prevent received signal while the handler is excuting\n"]]

def sectionScript (sec : Section) : List Stmt := [.fork, .print [sec.notRestart, sec.restart]]

def sigchldScript : List Stmt := [
  .fork, .fork, .fork,
  .print ["* SIGCHLD: SIG_IGN is equivalent to SIG_DFL\n", "* SIGCHLD: SIG_IGN throw away child exit status\n"],
  .fork,
  .print ["* SIGCHLD: handler invoked immediately after established\n",
    "* SIGCHLD: handler NOT invoked immediately after established\n"]]

def Program.script : Program → List Stmt
  | .sigaction_semantics => handlerScript ++ sigactionSections.flatMap sectionScript
  | .signal_semantics => handlerScript ++ (signalSections 0).flatMap sectionScript
  | .sigchld => sigchldScript

structure State where
  rest : List Stmt
  running : Bool
  printed : List String
  stdout : Stdout String

inductive Action
  | print (line : String) | fork | fail | finish | childReturn (i : ℕ) | childKilled (i : ℕ)
  deriving DecidableEq

def mainStep (b : Buffering) (s : State) : Action → Option State
  | .print line =>
    match s.rest with
    | .print lines :: r =>
      if line ∈ lines then
        some { s with rest := r, printed := s.printed ++ [line], stdout := s.stdout.print b line }
      else none
    | _ => none
  | .fork =>
    match s.rest with
    | .fork :: r => some { s with rest := r, stdout := s.stdout.fork }
    | _ => none
  | .fail => some { s with running := false, stdout := s.stdout.exit }
  | .finish => if s.rest = [] then some { s with running := false, stdout := s.stdout.exit } else none
  | _ => none

def step (b : Buffering) (s : State) : Action → Option State
  | .childReturn i =>
    if i < s.stdout.children.length then some { s with stdout := s.stdout.childExit i } else none
  | .childKilled i =>
    if i < s.stdout.children.length then some { s with stdout := s.stdout.childDrop i } else none
  | a => if s.running then mainStep b s a else none

def start (p : Program) : State := ⟨p.script, true, [], .empty⟩

def machine (p : Program) (b : Buffering) : Machine State Action where
  init s := s = start p
  step := step b

def Action.IsKill : Action → Bool
  | .childKilled _ => true
  | _ => false

def State.Over (s : State) : Prop := s.running = false ∧ s.rest = [] ∧ s.stdout.children = []

def forkPoints : List Stmt → ℕ → List ℕ
  | [], _ => []
  | .print _ :: r, n => forkPoints r (n + 1)
  | .fork :: r, n => n :: forkPoints r n

def Program.forksAfter (p : Program) (k : ℕ) : ℕ := (forkPoints p.script 0).countP (k < ·)

end ApueCode.ForkedStdout
