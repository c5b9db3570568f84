import ApueCode.Posix.Signals
import ApueCode.Transition.Machine

/-! `sigpending`: `SIGQUIT` is blocked for a while, looked for among the pending signals, and let through. In
`restoring` the second `sigprocmask` returns only when a signal that was `due` has been delivered. -/

namespace ApueCode.Sigpending

open Posix Transition

inductive Disposition
  | SIG_DFL | SIG_IGN | sig_quit
  deriving DecidableEq

inductive Pc
  | signal | block | sleep | sigpending | test (member : Bool) | restore | restoring (due : Bool) | unblocked
  | sleepAgain | return | exited (status : ℕ) | killed
  deriving DecidableEq

inductive HandlerPc
  | printf | signal | ret
  deriving DecidableEq

inductive Line
  | caught | pending | unblocked
  deriving DecidableEq

def Line.text : Line → String
  | .caught => "catch SIGQUIT\n"
  | .pending => "SIGQUIT is pending\n"
  | .unblocked => "SIGQUIT unblocked\n"

structure State where
  pc : Pc
  ctx : Context HandlerPc
  disposition : Disposition
  oldmask : Mask
  pending : Pending
  sent : ℕ
  stdout : List Line

inductive Action
  | main | quit | deliver | handler
  deriving DecidableEq

def Pc.hasEnded : Pc → Bool
  | .exited _ | .killed => true
  | _ => false

def State.print (s : State) (line : Line) (pc : Pc) : State := { s with stdout := s.stdout ++ [line], pc := pc }

def mainStep (s : State) : Option State :=
  match s.pc with
  | .signal => some { s with disposition := .sig_quit, pc := .block }
  | .block => some { s with oldmask := s.ctx.mask, ctx := s.ctx.setMask (insert .SIGQUIT s.ctx.mask), pc := .sleep }
  | .sleep => some { s with pc := .sigpending }
  | .sigpending => some { s with pc := .test (0 < s.pending .SIGQUIT) }
  | .test member => some (if member then s.print .pending .restore else { s with pc := .restore })
  | .restore =>
    some { s with
      ctx := s.ctx.setMask s.oldmask
      pc := .restoring (decide (0 < s.pending .SIGQUIT) && decide (.SIGQUIT ∉ s.oldmask)) }
  | .restoring due => if due then none else some { s with pc := .unblocked }
  | .unblocked => some (s.print .unblocked .sleepAgain)
  | .sleepAgain => some { s with pc := .return }
  | .return => some { s with pc := .exited 0 }
  | .exited _ | .killed => none

def sig_quit (s : State) : Option State :=
  match s.ctx.frames with
  | ⟨.printf, _⟩ :: _ => some { s with stdout := s.stdout ++ [.caught], ctx := s.ctx.goto .signal }
  | ⟨.signal, _⟩ :: _ => some { s with disposition := .SIG_DFL, ctx := s.ctx.goto .ret }
  | ⟨.ret, _⟩ :: _ => some { s with ctx := s.ctx.leave }
  | [] => none

def Pc.delivered : Pc → Pc
  | .restoring _ => .restoring false
  | pc => pc

def deliver (s : State) : State :=
  match s.disposition with
  | .sig_quit =>
    { s with pending := s.pending.take .SIGQUIT, ctx := s.ctx.enter .printf .SIGQUIT, pc := s.pc.delivered }
  | .SIG_IGN => { s with pending := s.pending.take .SIGQUIT, pc := s.pc.delivered }
  | .SIG_DFL => { s with pending := s.pending.take .SIGQUIT, pc := .killed }

def step (d : Discipline) (s : State) (a : Action) : Option State :=
  if s.pc.hasEnded then none
  else match a with
  | .main => if s.ctx.frames = [] then mainStep s else none
  | .quit =>
    some { s with
      sent := s.sent + 1
      pending := if s.disposition = .SIG_IGN then s.pending else s.pending.post .SIGQUIT d }
  | .deliver => if 0 < s.pending .SIGQUIT ∧ .SIGQUIT ∉ s.ctx.mask then some (deliver s) else none
  | .handler => sig_quit s

def start (ignored : Bool) (mask : Mask) : State where
  pc := .signal
  ctx := ⟨mask, []⟩
  disposition := if ignored then .SIG_IGN else .SIG_DFL
  oldmask := ∅
  pending := fun _ => 0
  sent := 0
  stdout := []

def machine (d : Discipline) (ignored : Bool) (mask : Mask) : Machine State Action where
  init s := s = start ignored mask
  step := step d

end ApueCode.Sigpending
