import ApueCode.Posix.Signals
import ApueCode.Transition.Machine

/-! `unlink filename`: a program that goes on to its next stage when a `SIGUSR1` has ended a `pause`. `write i` is
the test of the loop with the body after it, and `delivered` counts the signals handled since the line of
`printWrite`. -/

namespace ApueCode.Unlink

open Posix Transition

def FILE_SIZE : ℕ := 102400000

def EXIT_FAILURE : ℕ := 1

inductive Stage
  | first | second
  deriving DecidableEq

inductive MainPc
  | argc | sigaction | open | printOpen | write (i : ℕ) | printWrite
  | pause (stage : Stage) | paused (stage : Stage) (woken : Bool)
  | unlink | printUnlink | printExit | returning
  | exited (status : ℕ) | killed
  deriving DecidableEq

inductive HandlerPc
  | psignal | ret
  deriving DecidableEq

structure State where
  main : MainPc
  ctx : Context HandlerPc
  caught : Bool
  stdout : List String
  stderr : List String
  delivered : ℕ

inductive Action
  | run | fail (error : String) | deliver
  deriving DecidableEq

namespace MainPc

def hasEnded : MainPc → Bool
  | .exited _ | .killed => true
  | _ => false

def prompted : MainPc → Bool
  | .pause _ | .paused _ _ | .unlink | .printUnlink | .printExit | .returning => true
  | _ => false

def blocked : MainPc → Bool
  | .paused _ false => true
  | _ => false

def wake : MainPc → MainPc
  | .paused stage _ => .paused stage true
  | pc => pc

end MainPc

def Stage.next : Stage → MainPc
  | .first => .unlink
  | .second => .printExit

def State.print (s : State) (line : String) (pc : MainPc) : State :=
  { s with main := pc, stdout := s.stdout ++ [line] }

def State.die (s : State) (line : String) : State :=
  { s with main := .exited EXIT_FAILURE, stderr := s.stderr ++ [line] }

section

variable (BUFSIZ : ℕ) (argv : List String)

def arg (i : ℕ) : String := argv.getD i ""

-- The result of `unlink` is not looked at.
def mainStep (s : State) : Option State :=
  match s.main with
  | .argc =>
    some (if argv.length ≠ 2 then s.die s!"Usage: {arg argv 0} <filename>\n" else { s with main := .sigaction })
  | .sigaction => some { s with main := .open, caught := true }
  | .open => some { s with main := .printOpen }
  | .printOpen => some (s.print s!"open {arg argv 1} success\n" (.write 0))
  | .write i => some { s with main := if i ≠ FILE_SIZE / BUFSIZ then .write (i + 1) else .printWrite }
  | .printWrite => some (s.print s!"write {arg argv 1} success\n" (.pause .first))
  | .pause stage => some { s with main := .paused stage false }
  | .paused stage woken => if woken then some { s with main := stage.next } else none
  | .unlink => some { s with main := .printUnlink }
  | .printUnlink => some (s.print s!"unlink {arg argv 1} success\n" (.pause .second))
  | .printExit => some (s.print "process exit\n" .returning)
  | .returning => some { s with main := .exited 0 }
  | .exited _ | .killed => none

def handlerStep (s : State) : HandlerPc → State
  | .psignal => { s with
      ctx := s.ctx.goto .ret
      stderr := s.stderr ++ ["catuch signal: User defined signal 1\n"] }
  | .ret => { s with ctx := s.ctx.leave }

def fail (s : State) (error : String) : Option State :=
  match s.main with
  | .sigaction => some (s.die "sigaction error")
  | .open => some (s.die s!"open({arg argv 1}) error: {error}\n")
  | .write i => if i ≠ FILE_SIZE / BUFSIZ then some (s.die "write error") else none
  | _ => none

def deliver (s : State) : State :=
  if s.caught then
    { s with
      main := s.main.wake
      ctx := s.ctx.enter .psignal .SIGUSR1
      delivered := if s.main.prompted then s.delivered + 1 else s.delivered }
  else { s with main := .killed }

def step (s : State) : Action → Option State
  | .run =>
    match s.ctx.frames with
    | [] => mainStep BUFSIZ argv s
    | f :: _ => some (handlerStep s f.pc)
  | .fail error => if s.ctx.frames = [] then fail BUFSIZ argv s error else none
  | .deliver => if .SIGUSR1 ∉ s.ctx.mask ∧ s.main.hasEnded = false then some (deliver s) else none

end

def start (inherited : Mask) : State where
  main := .argc
  ctx := ⟨inherited, []⟩
  caught := false
  stdout := []
  stderr := []
  delivered := 0

def machine (BUFSIZ : ℕ) (argv : List String) (inherited : Mask) : Machine State Action where
  init s := s = start inherited
  step := step BUFSIZ argv

end ApueCode.Unlink
