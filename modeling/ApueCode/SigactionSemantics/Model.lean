import ApueCode.Posix.Pipe
import ApueCode.Posix.Signals
import ApueCode.Transition.Machine

/-! Does a handler interrupt a blocked `read` or is the call restarted: each section of the two programs
asks a child for a signal and then for a byte, and prints what became of one `read`. -/

namespace ApueCode.SigactionSemantics

open Posix Transition

def SA_RESTART : ℕ := 0x10000000

def EINTR : ℕ := 4

def Signal : ℕ := 0
def Signal_r : ℕ := 0 ||| SA_RESTART
def signal (library : ℕ) : ℕ := library

structure Section where
  signo : Signo
  sa_flags : ℕ
  notRestart : String
  restart : String
  distinct : notRestart ≠ restart

def Section.restarts (sec : Section) : Bool := sec.sa_flags &&& SA_RESTART ≠ 0

def sigactionSections : List Section := [
  ⟨.SIGALRM, Signal, "* [DEFAULT] SIGALRM: blocking system calls NOT automatically restart\n",
    "* [DEFAULT] SIGALRM: blocking system calls automatically restart\n", by decide⟩,
  ⟨.SIGUSR1, Signal, "* [DEFAULT] OTHER:   blocking system calls NOT automatically restart\n",
    "* [DEFAULT] OTHER:   blocking system calls automatically restart\n", by decide⟩,
  ⟨.SIGALRM, Signal_r, "* [RESTART] SIGALRM: blocking system calls NOT automatically restart\n",
    "* [RESTART] SIGALRM: blocking system calls automatically restart\n", by decide⟩,
  ⟨.SIGUSR1, Signal_r, "* [RESTART] OTHER:   blocking system calls NOT automatically restart\n",
    "* [RESTART] OTHER:   blocking system calls automatically restart\n", by decide⟩]

def signalSections (library : ℕ) : List Section := [
  ⟨.SIGALRM, signal library, "* Signal SIGALRM: blocking system calls NOT automatically restart:\n",
    "* Signal SIGALRM: blocking system calls automatically restart\n", by decide⟩,
  ⟨.SIGUSR1, signal library, "* Signal other:   blocking system calls NOT automatically restart\n",
    "* Signal OTHER:   blocking system calls automatically restart\n", by decide⟩]

inductive Proc
  | parent | child
  deriving DecidableEq

inductive Nread
  | error (errno : ℕ) | eof | byte
  deriving DecidableEq

inductive ParentPc
  | signal | pipe | fork | closeWrite | read | blocked | test (nread : Nread) | closeRead | finished
  | exited (status : ℕ) | killed (x : Signo)
  deriving DecidableEq

inductive ChildPc
  | unborn | closeRead | sleep | kill | write | returning | exited | killed
  deriving DecidableEq

structure State where
  parent : ParentPc
  child : ChildPc
  handler : Option ℕ
  pending : Bool
  fd : Pipe Proc
  stdout : List String
  stderr : List String

inductive Action
  | parent | child | deliver
  deriving DecidableEq

def EXIT_FAILURE : ℕ := 1

def ParentPc.hasEnded : ParentPc → Bool
  | .exited _ | .killed _ => true
  | _ => false

def State.print (s : State) (line : String) : State :=
  { s with stdout := s.stdout ++ [line], parent := .closeRead }

def State.perror (s : State) (msg : String) : State :=
  { s with stderr := s.stderr ++ [msg], parent := .exited EXIT_FAILURE, fd := s.fd.exit .parent }

def readByte (s : State) : Option State :=
  match s.fd.read with
  | .byte _ rest => some { s with fd := rest, parent := .test .byte }
  | .eof => some { s with parent := .test .eof }
  | .error => none
  | .blocked => if s.parent = .read then some { s with parent := .blocked } else none

def parentStep (sec : Section) (s : State) : Option State :=
  match s.parent with
  | .signal => some { s with handler := some sec.sa_flags, parent := .pipe }
  | .pipe => some { s with fd := .create .parent, parent := .fork }
  | .fork => some { s with fd := s.fd.fork .parent .child, parent := .closeWrite, child := .closeRead }
  | .closeWrite => some { s with fd := s.fd.closeWriter .parent, parent := .read }
  | .read | .blocked => readByte s
  | .test (.error e) => some (if e = EINTR then s.print sec.notRestart else s.perror "read error")
  | .test .eof => some (s.perror "child process occurred unknown error")
  | .test .byte => some (s.print sec.restart)
  | .closeRead => some { s with fd := s.fd.closeReader .parent, parent := .finished }
  | .finished | .exited _ | .killed _ => none

def childStep (s : State) : Option State :=
  match s.child with
  | .closeRead => some { s with fd := s.fd.closeReader .child, child := .sleep }
  | .sleep => some { s with child := .kill }
  | .kill => some { s with pending := true, child := .write }
  | .write =>
    if s.fd.readers = ∅ then some { s with fd := s.fd.exit .child, child := .killed }
    else some { s with fd := s.fd.put 97, child := .returning }
  | .returning => some { s with fd := s.fd.exit .child, child := .exited }
  | .unborn | .exited | .killed => none

def deliver (s : State) (x : Signo) (flags : Option ℕ) : State :=
  match flags with
  | none => { s with pending := false, parent := .killed x, fd := s.fd.exit .parent }
  | some sa_flags =>
    if s.parent = .blocked ∧ sa_flags &&& SA_RESTART = 0 then
      { s with pending := false, parent := .test (.error EINTR) }
    else { s with pending := false }

def step (sec : Section) (s : State) : Action → Option State
  | .parent => parentStep sec s
  | .child => childStep s
  | .deliver =>
    if s.pending = true ∧ s.parent.hasEnded = false then some (deliver s sec.signo s.handler) else none

def start : State where
  parent := .signal
  child := .unborn
  handler := none
  pending := false
  fd := ⟨[], ∅, ∅⟩
  stdout := []
  stderr := []

def machine (sec : Section) : Machine State Action where
  init s := s = start
  step := step sec

end ApueCode.SigactionSemantics
