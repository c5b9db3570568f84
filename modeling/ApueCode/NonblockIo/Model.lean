import ApueCode.Posix.CString
import ApueCode.Transition.Machine

/-! `nonblock_io`: one `read` of the standard input, and a loop that writes it to a standard output that does not
block. A failed `read` is noticed only in that `ntowrite` is not positive. -/

namespace ApueCode.NonblockIo

open Posix Transition

def sizeofBuf : ℕ := 500000

def EXIT_FAILURE : ℕ := 1

def EINTR : ℕ := 4

def EAGAIN : ℕ := 11

def ENOSPC : ℕ := 28

inductive Nwrite
  | count (n : ℕ) | error (errno : ℕ)
  deriving DecidableEq

namespace Nwrite

def accepted : Nwrite → ℕ
  | count n => n
  | error _ => 0

def value : Nwrite → ℤ
  | count n => n
  | error _ => -1

def errno : Nwrite → ℕ
  | count _ => 0
  | error e => e

end Nwrite

inductive Pc
  | read | fcntl | test | write | exited (status : ℕ)
  deriving DecidableEq

structure State where
  pc : Pc
  buf : Buffer sizeofBuf
  ptr : ℕ
  ntowrite : ℤ
  stdout : List Byte
  stderr : List String

inductive Action
  | read (data : Option (List Byte)) | fcntl (ok : Bool) | test | write (nwrite : Nwrite)
  deriving DecidableEq

def State.print (s : State) (line : String) : State := { s with stderr := s.stderr ++ [line] }

def readInput (s : State) : Option (List Byte) → Option State
  | none => some ({ s with ntowrite := -1, pc := .fcntl }.print "read -1 bytes\n")
  | some data => (s.buf.write data).map fun buf =>
      let n := data.length
      { s with buf := buf, ntowrite := n, pc := .fcntl }.print s!"read {n} bytes\n"

def afterWrite (s : State) (nwrite : Nwrite) : State :=
  let n := nwrite.value
  let e := nwrite.errno
  let called := { s with
    stdout := s.stdout ++ (s.buf.bytes.drop s.ptr).take nwrite.accepted
    pc := .test }.print s!"nwrite = {n}, errno = {e}\n"
  if 0 < n then { called with ptr := s.ptr + nwrite.accepted, ntowrite := s.ntowrite - n } else called

def step (s : State) (a : Action) : Option State :=
  match s.pc, a with
  | .read, .read data => readInput s data
  | .fcntl, .fcntl true => some { s with ptr := 0, pc := .test }
  | .fcntl, .fcntl false => some { s.print "fcntl error" with pc := .exited EXIT_FAILURE }
  | .test, .test => some { s with pc := if 0 < s.ntowrite then .write else .exited 0 }
  | .write, .write nwrite => if nwrite.accepted ≤ s.ntowrite then some (afterWrite s nwrite) else none
  | _, _ => none

def start : State where
  pc := .read
  buf := .zero sizeofBuf
  ptr := 0
  ntowrite := 0
  stdout := []
  stderr := []

def machine : Machine State Action where
  init s := s = start
  step := step

end ApueCode.NonblockIo
