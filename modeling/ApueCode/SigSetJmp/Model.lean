import ApueCode.Posix.Signals
import ApueCode.Transition.Machine

/-! A handler of `SIGUSR1` that leaves by `siglongjmp`, interrupted by or interrupting one of `SIGALRM`. `check` to
`jump` are `sig_usr1`, the other two points `sig_alrm`; `undefined` is a `siglongjmp` without a context to return
to. -/

namespace ApueCode.SigSetJmp

open Posix Transition

inductive MainPc
  | usr1 | alrm | sigsetjmp | canjump | pause | ending | returned
  | exited (status : ℕ) | killed (x : Signo) | undefined
  deriving DecidableEq

inductive HandlerPc
  | check | prStart | alarm | spin | prFinish | clear | jump | prAlrm | ret
  deriving DecidableEq

structure Report where
  str : String
  mask : Mask
  deriving DecidableEq

structure State where
  main : MainPc
  ctx : Context HandlerPc
  caught : Finset Signo
  canjump : ℕ
  jmpbuf : Option (Option Mask)
  stdout : List Report
  armed : Bool
  jumps : ℕ

inductive Action
  | run | fail | deliver (x : Signo)
  deriving DecidableEq

def EXIT_FAILURE : ℕ := 1

def MainPc.hasEnded : MainPc → Bool
  | .exited _ | .killed _ | .undefined => true
  | _ => false

def entry : Signo → HandlerPc
  | .SIGUSR1 => .check
  | _ => .prAlrm

def State.finish (s : State) (pc : MainPc) : State := { s with main := pc, ctx := { s.ctx with frames := [] } }

def State.catch (s : State) (x : Signo) (pc : MainPc) : State :=
  { s with main := pc, caught := insert x s.caught }

def State.goto (s : State) (pc : HandlerPc) : State := { s with ctx := s.ctx.goto pc }

def State.prMask (s : State) (str : String) : State := { s with stdout := s.stdout ++ [⟨str, s.ctx.mask⟩] }

def mainStep (option : ℕ) (s : State) : Option State :=
  match s.main with
  | .usr1 => some (s.catch .SIGUSR1 .alrm)
  | .alrm => some (s.catch .SIGALRM .sigsetjmp)
  | .sigsetjmp =>
    some { s with main := .canjump, jmpbuf := some (if option ≠ 0 then some s.ctx.mask else none) }
  | .canjump => some { s with main := .pause, canjump := 1, armed := true }
  | .ending => some { s.prMask "ending main" with main := .returned }
  | .returned => some (s.finish (.exited 0))
  | .pause | .exited _ | .killed _ | .undefined => none

def siglongjmp (s : State) : State :=
  match s.jmpbuf with
  | none => { s with jumps := s.jumps + 1 }.finish .undefined
  | some saved =>
    if s.main = .returned then { s with jumps := s.jumps + 1 }.finish .undefined
    else { s with main := .ending, ctx := ⟨saved.getD s.ctx.mask, []⟩, jumps := s.jumps + 1 }

-- `jmpbuf` is an array, so `jmpbuf == 0` is never true and `sig_usr1` always goes on.
def handlerStep (s : State) : HandlerPc → State
  | .check => s.goto .prStart
  | .prStart => (s.prMask "starting sig_usr1").goto .alarm
  | .alarm => s.goto .spin
  | .spin => s.goto .prFinish
  | .prFinish => (s.prMask "finishing sig_usr1").goto .clear
  | .clear => { s.goto .jump with canjump := 0 }
  | .jump => siglongjmp s
  | .prAlrm => (s.prMask "in sig_alrm").goto .ret
  | .ret => { s with ctx := s.ctx.leave }

def fail (s : State) : Option State :=
  match s.ctx.frames with
  | [] =>
    match s.main with
    | .usr1 | .alrm | .ending => some (s.finish (.exited EXIT_FAILURE))
    | _ => none
  | f :: _ =>
    match f.pc with
    | .prStart | .prFinish | .prAlrm => some (s.finish (.exited EXIT_FAILURE))
    | _ => none

def deliver (s : State) (x : Signo) : State :=
  if x ∈ s.caught then { s with ctx := s.ctx.enter (entry x) x } else s.finish (.killed x)

def step (option : ℕ) (s : State) : Action → Option State
  | .run =>
    match s.ctx.frames with
    | [] => mainStep option s
    | f :: _ => some (handlerStep s f.pc)
  | .fail => fail s
  | .deliver x =>
    if (x = .SIGUSR1 ∨ x = .SIGALRM) ∧ x ∉ s.ctx.mask ∧ s.main.hasEnded = false then some (deliver s x)
    else none

def start (inherited : Mask) : State where
  main := .usr1
  ctx := ⟨inherited, []⟩
  caught := ∅
  canjump := 0
  jmpbuf := none
  stdout := []
  armed := false
  jumps := 0

def machine (option : ℕ) (inherited : Mask) : Machine State Action where
  init s := s = start inherited
  step := step option

end ApueCode.SigSetJmp
