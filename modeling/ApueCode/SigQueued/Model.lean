import ApueCode.Posix.Signals
import ApueCode.Transition.Machine

/-! A child sends its parent four `SIGQUIT` and a `SIGUSR2`; the parent counts the ones it handles. `sigUsr1`,
`sigUsr2` and `block` are `TELL_WAIT`, `testFlag` to `setMask` are `WAIT_CHILD`, and a `waiting` handler is in
`sigsuspend`. -/

namespace ApueCode.SigQueued

open Posix Transition

inductive MainPc
  | sigQuit | sigUsr1 | sigUsr2 | block | fork | sleep | test2 | test4 | count | returning
  | exited (status : ℕ) | killed (x : Signo)
  deriving DecidableEq

inductive HandlerPc
  | incr | testWait | clearWait | testFlag | suspend | waiting (saved : Mask) (woken : Bool)
  | clearFlag | setMask | setFlag | ret
  deriving DecidableEq

structure State where
  main : MainPc
  ctx : Context HandlerPc
  caught : Finset Signo
  pending : Pending
  sigcount : ℕ
  waitflag : ℕ
  sigflag : ℕ
  omask : Mask
  zeromask : Mask
  child : Option (List Signo)
  stdout : List String

inductive Action
  | run | fail | deliver (x : Signo) | childSend | otherQuit
  deriving DecidableEq

def EXIT_FAILURE : ℕ := 1

def MainPc.hasEnded : MainPc → Bool
  | .exited _ | .killed _ => true
  | _ => false

def entry : Signo → HandlerPc
  | .SIGQUIT => .incr
  | _ => .setFlag

def HandlerPc.wake : HandlerPc → HandlerPc
  | .waiting saved _ => .waiting saved true
  | pc => pc

def wakeTop (c : Context HandlerPc) : Context HandlerPc :=
  { c with frames := c.frames.modifyHead fun f => { f with pc := f.pc.wake } }

def mask : Mask := {.SIGUSR1, .SIGUSR2}

def sends : List Signo := [.SIGQUIT, .SIGQUIT, .SIGQUIT, .SIGQUIT, .SIGUSR2]

def State.finish (s : State) (pc : MainPc) : State := { s with main := pc, ctx := { s.ctx with frames := [] } }

def State.print (s : State) (line : String) (pc : MainPc) : State :=
  { s with main := pc, stdout := s.stdout ++ [line] }

def State.catch (s : State) (x : Signo) (pc : MainPc) : State :=
  { s with main := pc, caught := insert x s.caught }

def mainStep (s : State) : Option State :=
  match s.main with
  | .sigQuit => some (s.catch .SIGQUIT .sigUsr1)
  | .sigUsr1 => some (s.catch .SIGUSR1 .sigUsr2)
  | .sigUsr2 => some (s.catch .SIGUSR2 .block)
  | .block =>
    some { s with
      main := .fork
      zeromask := ∅
      omask := s.ctx.mask
      ctx := s.ctx.setMask (s.ctx.mask ∪ mask) }
  | .fork => some { s with main := .sleep, child := some sends }
  | .sleep => some { s with main := .test2 }
  | .test2 =>
    some (if s.sigcount = 2 then s.print "Signal is NOT queued\n" .returning else { s with main := .test4 })
  | .test4 =>
    some (if s.sigcount = 4 then s.print "Signal is queued\n" .returning
      else s.print "Unknown error in handler\n" .count)
  | .count => some (s.print s!"sigcount: {s.sigcount}\n" .returning)
  | .returning => some (s.finish (.exited 0))
  | .exited _ | .killed _ => none

def State.goto (s : State) (pc : HandlerPc) : State := { s with ctx := s.ctx.goto pc }

def handlerStep (s : State) : HandlerPc → Option State
  | .incr => some { s.goto .testWait with sigcount := s.sigcount + 1 }
  | .testWait => some (s.goto (if s.waitflag ≠ 0 then .clearWait else .ret))
  | .clearWait => some { s.goto .testFlag with waitflag := 0 }
  | .testFlag => some (s.goto (if s.sigflag = 0 then .suspend else .clearFlag))
  | .suspend => some { s with ctx := (s.ctx.goto (.waiting s.ctx.mask false)).setMask s.zeromask }
  | .waiting saved woken =>
    if woken then some { s with ctx := (s.ctx.goto .testFlag).setMask saved } else none
  | .clearFlag => some { s.goto .setMask with sigflag := 0 }
  | .setMask => some { s with ctx := (s.ctx.goto .ret).setMask s.omask }
  | .setFlag => some { s.goto .ret with sigflag := 1 }
  | .ret => some { s with ctx := s.ctx.leave }

def fail (s : State) : Option State :=
  match s.ctx.frames with
  | [] =>
    match s.main with
    | .sigQuit | .sigUsr1 | .sigUsr2 | .block | .fork => some (s.finish (.exited EXIT_FAILURE))
    | _ => none
  | f :: _ => if f.pc = .setMask then some (s.finish (.exited EXIT_FAILURE)) else none

def deliver (s : State) (x : Signo) : State :=
  let t := { s with pending := s.pending.take x }
  if x ∈ s.caught then { t with ctx := (wakeTop s.ctx).enter (entry x) x } else t.finish (.killed x)

-- After the end of the parent `getppid` names another process.
def send (d : Discipline) (s : State) (x : Signo) : State :=
  if s.main.hasEnded then s else { s with pending := s.pending.post x d }

def step (d : Discipline) (s : State) : Action → Option State
  | .run =>
    match s.ctx.frames with
    | [] => mainStep s
    | f :: _ => handlerStep s f.pc
  | .fail => fail s
  | .deliver x =>
    if 0 < s.pending x ∧ x ∉ s.ctx.mask ∧ s.main.hasEnded = false then some (deliver s x) else none
  | .childSend =>
    match s.child with
    | some (x :: l) => some (send d { s with child := some l } x)
    | _ => none
  | .otherQuit => some (send d s .SIGQUIT)

def start (inherited : Mask) : State where
  main := .sigQuit
  ctx := ⟨inherited, []⟩
  caught := ∅
  pending := fun _ => 0
  sigcount := 0
  waitflag := 1
  sigflag := 0
  omask := ∅
  zeromask := ∅
  child := none
  stdout := []

def machine (d : Discipline) (inherited : Mask) : Machine State Action where
  init s := s = start inherited
  step := step d

end ApueCode.SigQueued
