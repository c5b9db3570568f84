import ApueCode.Posix.CString
import Mathlib.Data.Finset.Erase
import Mathlib.Data.Finset.Insert

/-! A pipe: the bytes in it and the processes that have either end open. -/

namespace ApueCode.Posix

structure Pipe (ι : Type) where
  data : List Byte
  readers : Finset ι
  writers : Finset ι

inductive ReadResult (ι : Type)
  | byte (c : Byte) (rest : Pipe ι)
  | eof
  | blocked
  | error

namespace Pipe

variable {ι : Type}

def create (p : ι) : Pipe ι := ⟨[], {p}, {p}⟩

def put (x : Pipe ι) (c : Byte) : Pipe ι := { x with data := x.data ++ [c] }

@[simp] lemma create_writers (p : ι) : (create p).writers = {p} := rfl

variable [DecidableEq ι]

def fork (x : Pipe ι) (p c : ι) : Pipe ι where
  data := x.data
  readers := if p ∈ x.readers then insert c x.readers else x.readers
  writers := if p ∈ x.writers then insert c x.writers else x.writers

def closeReader (x : Pipe ι) (p : ι) : Pipe ι := { x with readers := x.readers.erase p }

def closeWriter (x : Pipe ι) (p : ι) : Pipe ι := { x with writers := x.writers.erase p }

def exit (x : Pipe ι) (p : ι) : Pipe ι := ⟨x.data, x.readers.erase p, x.writers.erase p⟩

def read (x : Pipe ι) : ReadResult ι :=
  match x.data with
  | c :: cs => .byte c { x with data := cs }
  | [] => if x.writers = ∅ then .eof else .blocked

variable {x : Pipe ι} {p c : ι}

lemma mem_fork_writers (hp : p ∈ x.writers) : p ∈ (x.fork p c).writers ∧ c ∈ (x.fork p c).writers := by
  simp [fork, hp]

lemma read_blocked : x.read = .blocked ↔ x.data = [] ∧ x.writers ≠ ∅ := by
  cases hd : x.data with
  | nil => by_cases hw : x.writers = ∅ <;> simp [read, hd, hw]
  | cons b bs => simp [read, hd]

end Pipe

end ApueCode.Posix
