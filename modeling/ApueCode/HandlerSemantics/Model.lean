import ApueCode.Posix.Signals
import ApueCode.SigactionSemantics.Model
import ApueCode.Transition.Machine

/-! Is a handler reset when it is invoked, and is its signal blocked while it runs: the first two sections of
`sigaction_semantics` and `signal_semantics`, which find out by a handler that sleeps. `sleeping` is inside of
`sleep`, and `store` is the assignment of its result. -/

namespace ApueCode.HandlerSemantics

open Posix Transition

def SA_NODEFER : ℕ := 0x40000000
def SA_RESETHAND : ℕ := 0x80000000

def resets (sa_flags : ℕ) : Bool := sa_flags &&& SA_RESETHAND ≠ 0
def defers (sa_flags : ℕ) : Bool := sa_flags &&& SA_NODEFER = 0

def EXIT_FAILURE : ℕ := 1

inductive Pc
  | signalUsr1 | kill | query | signalUsr2 | fork | waitpid | test | finished
  | exited (status : ℕ) | killed
  deriving DecidableEq

inductive HandlerPc
  | sig_usr1 | signal | testNeed | clearNeed | sleep | sleeping (seconds : ℕ) | store (left : ℕ) | return
  deriving DecidableEq

inductive ChildPc
  | unborn | kill | sleep | killAgain | return | zombie | gone
  deriving DecidableEq

structure State where
  main : Pc
  ctx : Context HandlerPc
  handlers : Signo → Option ℕ
  pending : Mask
  need_sleep : Bool
  left_to_sleep : ℕ
  child : ChildPc
  stdout : List String
  stderr : List String

inductive Action
  | main | forkFails | child | handler | deliver (x : Signo) (left : ℕ)
  deriving DecidableEq

def Pc.hasEnded : Pc → Bool
  | .exited _ | .killed => true
  | _ => false

def resetLine : String := "* Reset handler after invoked\n"
def notResetLine : String := "* NOT reset handler after invoked\n"
def preventLine : String := "* Prevent received signal while the handler is excuting\n"
def notPreventLine : String := "* NOT prevent received signal while the handler is excuting\n"

def State.perror (s : State) (msg : String) : State :=
  { s with stderr := s.stderr ++ [msg], main := .exited EXIT_FAILURE }

def State.Interrupted (s : State) : Prop := ∃ x ∈ s.pending, x ∉ s.ctx.mask

instance (s : State) : Decidable s.Interrupted := inferInstanceAs (Decidable (∃ x ∈ s.pending, x ∉ s.ctx.mask))

section

variable (sa_flags : ℕ) (kept : Bool)

def mainStep (s : State) : Option State :=
  match s.main with
  | .signalUsr1 => some { s with handlers := Function.update s.handlers .SIGUSR1 (some sa_flags), main := .kill }
  | .kill => some { s with pending := insert .SIGUSR1 s.pending, main := .query }
  | .query =>
    if s.Interrupted then none
    else
      some { s with
        stdout := s.stdout ++ [if s.handlers .SIGUSR1 = none then resetLine else notResetLine]
        handlers := Function.update s.handlers .SIGUSR1 none
        main := .signalUsr2 }
  | .signalUsr2 => some { s with handlers := Function.update s.handlers .SIGUSR2 (some sa_flags), main := .fork }
  | .fork => some { s with child := .kill, main := .waitpid }
  | .waitpid =>
    if s.Interrupted then none
    else
      match s.child with
      | .zombie => some { s with child := .gone, main := .test }
      | .gone => some (s.perror "waitpid error")
      | _ => none
  | .test =>
    some { s with
      stdout := s.stdout ++ [if s.left_to_sleep ≠ 0 then notPreventLine else preventLine]
      main := .finished }
  | .finished | .exited _ | .killed => none

def childStep (s : State) : Option State :=
  match s.child with
  | .kill => some { s with pending := insert .SIGUSR2 s.pending, child := .sleep }
  | .sleep => some { s with child := .killAgain }
  | .killAgain => some { s with pending := insert .SIGUSR2 s.pending, child := .return }
  | .return => some { s with child := if kept then .zombie else .gone }
  | .unborn | .zombie | .gone => none

def handlerStep (s : State) : Option State :=
  match s.ctx.frames with
  | [] => none
  | f :: _ =>
    match f.pc with
    | .signal => some { s with
        handlers := Function.update s.handlers .SIGUSR2 (some sa_flags)
        ctx := s.ctx.goto .testNeed }
    | .testNeed => some { s with ctx := s.ctx.goto (if s.need_sleep then .clearNeed else .return) }
    | .clearNeed => some { s with need_sleep := false, ctx := s.ctx.goto .sleep }
    | .sleep => some { s with ctx := s.ctx.goto (.sleeping s.left_to_sleep) }
    | .sleeping _ => some { s with ctx := s.ctx.goto (.store 0) }
    | .store left => some { s with left_to_sleep := left, ctx := s.ctx.goto .return }
    | .sig_usr1 | .return => some { s with ctx := s.ctx.leave }

def wake (left : ℕ) : HandlerPc → HandlerPc
  | .sleeping seconds => .store (min left seconds)
  | pc => pc

def enter (c : Context HandlerPc) (pc : HandlerPc) (x : Signo) (left : ℕ) (sa_flags : ℕ) : Context HandlerPc :=
  let frames := ⟨pc, c.mask⟩ :: c.frames.modifyHead fun f => { f with pc := wake left f.pc }
  ⟨if defers sa_flags then insert x c.mask else c.mask, frames⟩

def entry : Signo → HandlerPc
  | .SIGUSR2 => .signal
  | _ => .sig_usr1

def deliver (s : State) (x : Signo) (left : ℕ) : State :=
  match s.handlers x with
  | none => { s with pending := s.pending.erase x, main := .killed }
  | some flags => { s with
      pending := s.pending.erase x
      handlers := if resets flags then Function.update s.handlers x none else s.handlers
      ctx := enter s.ctx (entry x) x left flags }

def step (s : State) : Action → Option State
  | .main => if s.ctx.frames = [] then mainStep sa_flags s else none
  | .forkFails => if s.ctx.frames = [] ∧ s.main = .fork then some (s.perror "fork error") else none
  | .child => childStep kept s
  | .handler => if s.main.hasEnded = false then handlerStep sa_flags s else none
  | .deliver x left =>
    if x ∈ s.pending ∧ x ∉ s.ctx.mask ∧ s.main.hasEnded = false then some (deliver s x left) else none

end

def start (inherited : Mask) : State where
  main := .signalUsr1
  ctx := ⟨inherited, []⟩
  handlers := fun _ => none
  pending := ∅
  need_sleep := true
  left_to_sleep := 5
  child := .unborn
  stdout := []
  stderr := []

def machine (sa_flags : ℕ) (kept : Bool) (inherited : Mask) : Machine State Action where
  init s := s = start inherited
  step := step sa_flags kept

end ApueCode.HandlerSemantics
