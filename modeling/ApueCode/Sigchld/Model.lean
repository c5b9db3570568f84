import ApueCode.Posix.Children
import ApueCode.Posix.WaitStatus
import ApueCode.Transition.Machine

/-! `sigchld`: what becomes of children while `SIGCHLD` is ignored, and whether a handler that is set up after a
child has ended runs at once. `reap` and `handlerReap` are the calls of `wait` that succeed, the others are part of
`main` and `handler`. -/

namespace ApueCode.Sigchld

open Posix Transition

/-- What the program asks about: does the kernel keep what became of children while `SIGCHLD` is ignored, and does
it send `SIGCHLD` when a handler is set up for a child that has ended before. The last field is the mask that the
program starts with. -/
structure Kernel where
  keepsIgnored : Bool
  raises : Bool
  blocked : Bool

inductive Disposition
  | SIG_DFL | SIG_IGN | sig_chld
  deriving DecidableEq

inductive Pc
  | ignore | fork (i : ℕ) | count | default | forkLast | waitid (pid : ℕ) | establish | wait | return
  | exited (status : ℕ)
  deriving DecidableEq

inductive HandlerPc
  | psignal | wait
  deriving DecidableEq

structure State where
  pc : Pc
  handler : Option HandlerPc
  count : ℕ
  children : Children ℕ Termination
  disposition : Disposition
  pending : Bool
  stdout : List String
  stderr : List String

inductive Action
  | main | forkFails | fork (pid : ℕ) | reap (pid : ℕ) (e : Termination)
  | childEnds (pid : ℕ) (e : Termination) | deliver | handler | handlerReap (pid : ℕ) (e : Termination)
  deriving DecidableEq

def EXIT_FAILURE : ℕ := 1

def nchild : ℕ := 3

def equivalentLine : String := "* SIGCHLD: SIG_IGN is equivalent to SIG_DFL\n"
def throwAwayLine : String := "* SIGCHLD: SIG_IGN throw away child exit status\n"
def immediatelyLine : String := "* SIGCHLD: handler invoked immediately after established\n"
def notImmediatelyLine : String := "* SIGCHLD: handler NOT invoked immediately after established\n"

def State.perror (s : State) (msg : String) : State :=
  { s with stderr := s.stderr ++ [msg], handler := none, pc := .exited EXIT_FAILURE }

def forkError (i : ℕ) : String := s!"fork#{i} error"

def mainStep (k : Kernel) (s : State) : Option State :=
  match s.pc with
  | .ignore => some { s with disposition := .SIG_IGN, pc := .fork 0 }
  | .count =>
    if s.children.pids = ∅ then
      some { s with
        stdout := s.stdout ++ [if s.count ≠ 0 then equivalentLine else throwAwayLine]
        pc := .default }
    else none
  | .default => some { s with disposition := .SIG_DFL, pending := false, pc := .forkLast }
  | .waitid pid =>
    if pid ∈ s.children.zombies.image Prod.fst then some { s with pc := .establish }
    else if pid ∉ s.children.pids then some (s.perror "waitid error")
    else none
  | .establish =>
    some { s with
      disposition := .sig_chld
      pending := k.raises && decide (s.children.zombies ≠ ∅)
      pc := .wait }
  | .wait =>
    if s.children.pids = ∅ then some { s with stdout := s.stdout ++ [immediatelyLine], pc := .return } else none
  | .return => some { s with pc := .exited 0 }
  | .fork _ | .forkLast | .exited _ => none

def forkStep (s : State) (pid : ℕ) : Option State :=
  if h : pid ∉ s.children.pids then
    match s.pc with
    | .fork i =>
      some { s with
        children := s.children.fork pid h
        pc := if i + 1 < nchild then .fork (i + 1) else .count }
    | .forkLast => some { s with children := s.children.fork pid h, pc := .waitid pid }
    | _ => none
  else none

def forkFails (s : State) : Option State :=
  match s.pc with
  | .fork i => some (s.perror (forkError i))
  | .forkLast => some (s.perror "fork error")
  | _ => none

def reapStep (s : State) (pid : ℕ) (e : Termination) : Option State :=
  if (pid, e) ∈ s.children.zombies then
    match s.pc with
    | .count => some { s with children := s.children.reap pid e, count := s.count + 1 }
    | .wait =>
      some { s with
        children := s.children.reap pid e
        stdout := s.stdout ++ [notImmediatelyLine]
        pc := .return }
    | _ => none
  else none

def sig_chld (s : State) : Option State :=
  match s.handler with
  | some .psignal => some { s with stderr := s.stderr ++ ["catch signal"], handler := some .wait }
  | some .wait => if s.children.pids = ∅ then some (s.perror "wait error") else none
  | none => none

def childEnds (k : Kernel) (s : State) (pid : ℕ) (e : Termination) : Option State :=
  if h : pid ∈ s.children.running then
    some { s with
      children := s.children.finish pid e (s.disposition ≠ .SIG_IGN || k.keepsIgnored) h
      pending := s.pending || s.disposition = .sig_chld }
  else none

def hasEnded : Pc → Bool
  | .exited _ => true
  | _ => false

def step (k : Kernel) (s : State) (a : Action) : Option State :=
  match a with
  | .childEnds pid e => childEnds k s pid e
  | .deliver =>
    if s.pending ∧ k.blocked = false ∧ s.handler = none ∧ hasEnded s.pc = false then
      some { s with pending := false, handler := some .psignal }
    else none
  | .handler => sig_chld s
  | .handlerReap pid e =>
    if s.handler = some .wait ∧ (pid, e) ∈ s.children.zombies then
      some { s with children := s.children.reap pid e, handler := none }
    else none
  | .main => if s.handler = none then mainStep k s else none
  | .forkFails => if s.handler = none then forkFails s else none
  | .fork pid => if s.handler = none then forkStep s pid else none
  | .reap pid e => if s.handler = none then reapStep s pid e else none

def start : State where
  pc := .ignore
  handler := none
  count := 0
  children := .none
  disposition := .SIG_DFL
  pending := false
  stdout := []
  stderr := []

def machine (k : Kernel) : Machine State Action where
  init s := s = start
  step := step k

/-- A signal that can be delivered is delivered before anything else happens. -/
def Prompt (k : Kernel) (s : State) (a : Action) : Prop :=
  s.pending = true → k.blocked = false → s.handler = none → a = .deliver

instance (k : Kernel) (s : State) (a : Action) : Decidable (Prompt k s a) :=
  inferInstanceAs (Decidable (s.pending = true → k.blocked = false → s.handler = none → a = .deliver))

end ApueCode.Sigchld
