import ApueCode.Posix.Pipe
import ApueCode.Posix.RecordLock
import ApueCode.Transition.Machine

/-! The mandatory-locking experiment: the parent locks the file and tells the child through a pipe. The six bytes
`abcdef` have been written before, so the offset and the size are both 6. -/

namespace ApueCode.MandatoryLock

open Posix Transition

inductive Proc
  | parent | child
  deriving DecidableEq

inductive ParentPc
  | pipe1 | pipe2 | fork | setlk | tellChild | waitpid | exited (status : ℕ)
  deriving DecidableEq

inductive ChildPc
  | unborn | waitParent | getfl | setfl | setlk | succeeded | lseek | read | exited (status : ℕ)
  deriving DecidableEq

structure State where
  parent : ParentPc
  child : ChildPc
  fd1 : Pipe Proc
  fd2 : Pipe Proc
  told : Bool
  locks : LockTable Proc
  stdout : List String
  stderr : List String

inductive ParentAction
  | pipe1 | pipe1Fail | pipe2 | pipe2Fail | fork | forkFail | setlk | setlkFail
  | write | writeFail | waitpid | waitpidFail
  deriving DecidableEq

inductive ChildAction
  | readByte | getfl | getflFail | setfl | setflFail | setlk | setlkFail (errno : ℕ)
  | report | lseek | lseekFail | read | readFail
  deriving DecidableEq

inductive Action
  | parent (a : ParentAction)
  | child (a : ChildAction)
  deriving DecidableEq

def EXIT_FAILURE : ℕ := 1

def EAGAIN : ℕ := 11

def writeLock : Flock := ⟨F_WRLCK, .SEEK_SET, 0, 0⟩

def readLock : Flock := ⟨F_RDLCK, .SEEK_SET, 0, 0⟩

def fcntl (s : State) (p : Proc) (f : Flock) : Option (LockTable Proc) := f.setlk s.locks p 6 6

def State.close (s : State) (p : Proc) : State :=
  { s with fd1 := s.fd1.exit p, fd2 := s.fd2.exit p, locks := s.locks.dropAll p }

def State.exitParent (s : State) (status : ℕ) (msg : List String) : State :=
  { s.close .parent with parent := .exited status, stderr := s.stderr ++ msg }

def State.exitChild (s : State) (status : ℕ) (msg : List String) : State :=
  { s.close .child with child := .exited status, stderr := s.stderr ++ msg }

def ChildPc.hasExited : ChildPc → Bool
  | .exited _ => true
  | _ => false

def ParentPc.hasExited : ParentPc → Bool
  | .exited _ => true
  | _ => false

def parentFail (s : State) (pc : ParentPc) (msg : String) : Option State :=
  if s.parent = pc then some (s.exitParent EXIT_FAILURE [msg]) else none

def childFail (s : State) (pc : ChildPc) (msg : String) : Option State :=
  if s.child = pc then some (s.exitChild EXIT_FAILURE [msg]) else none

def parentStep (s : State) : ParentAction → Option State
  | .pipe1 =>
    if s.parent = .pipe1 then some { s with fd1 := .create .parent, parent := .pipe2 } else none
  | .pipe1Fail => parentFail s .pipe1 "pipe#1 error"
  | .pipe2 =>
    if s.parent = .pipe2 then some { s with fd2 := .create .parent, parent := .fork } else none
  | .pipe2Fail => parentFail s .pipe2 "pipe#2 error"
  | .fork =>
    if s.parent = .fork then
      some { s with
        fd1 := s.fd1.fork .parent .child
        fd2 := s.fd2.fork .parent .child
        parent := .setlk
        child := .waitParent }
    else none
  | .forkFail => parentFail s .fork "fork error"
  | .setlk =>
    if s.parent = .setlk then
      some (match fcntl s .parent writeLock with
        | some locks => { s with locks := locks, parent := .tellChild }
        | none => s.exitParent EXIT_FAILURE ["write lock error"])
    else none
  | .setlkFail => parentFail s .setlk "write lock error"
  | .write =>
    if s.parent = .tellChild ∧ s.fd1.readers ≠ ∅ then
      some { s with fd1 := s.fd1.put 112, told := true, parent := .waitpid }
    else none
  | .writeFail => parentFail s .tellChild "parent write error"
  | .waitpid =>
    if s.parent = .waitpid ∧ s.child.hasExited then some (s.exitParent 0 []) else none
  | .waitpidFail =>
    if s.parent = .waitpid ∧ s.child.hasExited then some (s.exitParent EXIT_FAILURE ["waitpid error"])
    else none

def waitParent (s : State) : Option State :=
  match s.fd1.read with
  | .byte _ rest => some { s with fd1 := rest, child := .getfl }
  | .eof => some (s.exitChild EXIT_FAILURE ["parent has an unknown error\n"])
  | .error => some (s.exitChild EXIT_FAILURE ["child read error"])
  | .blocked => none

def refused (s : State) (errno : ℕ) : State :=
  { s with
    stdout := s.stdout ++ [s!"read lock of already-locked region returns {errno}\n"]
    child := .lseek }

def childStep (s : State) : ChildAction → Option State
  | .readByte => if s.child = .waitParent then waitParent s else none
  | .getfl => if s.child = .getfl then some { s with child := .setfl } else none
  | .getflFail => childFail s .getfl "fcntl error"
  | .setfl => if s.child = .setfl then some { s with child := .setlk } else none
  | .setflFail => childFail s .setfl "fcntl error"
  | .setlk =>
    if s.child = .setlk then
      some (match fcntl s .child readLock with
        | some locks => { s with locks := locks, child := .succeeded }
        | none => refused s EAGAIN)
    else none
  | .setlkFail errno => if s.child = .setlk then some (refused s errno) else none
  | .report => childFail s .succeeded "child: read lock succeeded\n"
  | .lseek => if s.child = .lseek then some { s with child := .read } else none
  | .lseekFail => childFail s .lseek "lseek error"
  | .read =>
    if s.child = .read then
      some ({ s with stdout := s.stdout ++ ["read OK (no mandatory locking), buf = ab\n"] }.exitChild 0 [])
    else none
  | .readFail =>
    if s.child = .read then some (s.exitChild 0 ["read failed (mandatory locking works)"]) else none

def step (s : State) : Action → Option State
  | .parent a => parentStep s a
  | .child a => childStep s a

def start : State where
  parent := .pipe1
  child := .unborn
  fd1 := ⟨[], ∅, ∅⟩
  fd2 := ⟨[], ∅, ∅⟩
  told := false
  locks := []
  stdout := []
  stderr := []

def machine : Machine State Action where
  init s := s = start
  step := step

end ApueCode.MandatoryLock
