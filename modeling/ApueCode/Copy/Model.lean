import ApueCode.Posix.FileSystem
import ApueCode.Transition.Machine

/-! `copy infile outfile`: the two opens and the loop that reads a block and writes it. `buf` holds the bytes that
the last `read` has stored, and `n` is their number. -/

namespace ApueCode.Copy

open Posix Transition

def BUFSIZE : ℕ := 4096

def EXIT_FAILURE : ℕ := 1

inductive Pc
  | openIn
  | openOut (ifd : OpenFile)
  | read (ifd ofd : OpenFile)
  | write (ifd ofd : OpenFile) (buf : List Byte)
  | exited (status : ℕ)
  deriving DecidableEq

structure State (ν : Type) where
  pc : Pc
  fs : FileSystem ν
  stderr : List String

inductive Action
  | open | read (n : ℕ) | write (n : ℕ) | fail
  deriving DecidableEq

variable {ν : Type}

def State.perror (s : State ν) (msg : String) : State ν :=
  { s with stderr := s.stderr ++ [msg], pc := .exited EXIT_FAILURE }

def readBlock (s : State ν) (ifd ofd : OpenFile) (n : ℕ) : Option (State ν) :=
  let rest := s.fs.rest ifd
  if n ≤ BUFSIZE ∧ n ≤ rest.length ∧ (n = 0 → rest = []) then
    some (if n = 0 then { s with pc := .exited 0 }
      else { s with pc := .write { ifd with offset := ifd.offset + n } ofd (rest.take n) })
  else none

-- A short count is treated like a failure, after its bytes have reached the file.
def writeBlock (s : State ν) (ifd ofd : OpenFile) (buf : List Byte) (n : ℕ) : Option (State ν) :=
  let written := { s with fs := s.fs.pwrite ofd (buf.take n) }
  if n ≤ buf.length then
    some (if n = buf.length then { written with pc := .read ifd { ofd with offset := ofd.offset + n } }
      else written.perror "write error")
  else none

variable [DecidableEq ν]

def step (infile outfile : ν) (s : State ν) (a : Action) : Option (State ν) :=
  match s.pc, a with
  | .openIn, .open => (s.fs.openExisting infile).map fun ifd => { s with pc := .openOut ifd }
  | .openIn, .fail => some (s.perror "open input file error")
  | .openOut ifd, .open => (s.fs.openTrunc outfile).map fun r => { s with pc := .read ifd r.1, fs := r.2 }
  | .openOut _, .fail => some (s.perror "open output file error")
  | .read ifd ofd, .read n => readBlock s ifd ofd n
  | .read _ _, .fail => some (s.perror "read error")
  | .write ifd ofd buf, .write n => writeBlock s ifd ofd buf n
  | .write _ _ _, .fail => some (s.perror "write error")
  | _, _ => none

def start (fs : FileSystem ν) : State ν where
  pc := .openIn
  fs := fs
  stderr := []

def machine (fs : FileSystem ν) (infile outfile : ν) : Machine (State ν) Action where
  init s := s = start fs
  step := step infile outfile

def Pc.opening : Pc → Bool
  | .openIn | .openOut _ => true
  | _ => false

inductive Effect (infile outfile : ν) (s : State ν) : Action → State ν → Prop
  | opened (ifd : OpenFile) : s.pc = .openIn → s.fs.openExisting infile = some ifd →
      Effect infile outfile s .open { s with pc := .openOut ifd }
  | truncated (ifd ofd : OpenFile) (fs : FileSystem ν) : s.pc = .openOut ifd →
      s.fs.openTrunc outfile = some (ofd, fs) →
      Effect infile outfile s .open { s with pc := .read ifd ofd, fs := fs }
  | eof (ifd ofd : OpenFile) : s.pc = .read ifd ofd → s.fs.rest ifd = [] →
      Effect infile outfile s (.read 0) { s with pc := .exited 0 }
  | filled (ifd ofd : OpenFile) (n : ℕ) : s.pc = .read ifd ofd → 0 < n → n ≤ (s.fs.rest ifd).length →
      Effect infile outfile s (.read n)
        { s with pc := .write { ifd with offset := ifd.offset + n } ofd ((s.fs.rest ifd).take n) }
  | full (ifd ofd : OpenFile) (buf : List Byte) : s.pc = .write ifd ofd buf →
      Effect infile outfile s (.write buf.length) { s with
        fs := s.fs.pwrite ofd buf
        pc := .read ifd { ofd with offset := ofd.offset + buf.length } }
  | short (ifd ofd : OpenFile) (buf : List Byte) (n : ℕ) : s.pc = .write ifd ofd buf → n < buf.length →
      Effect infile outfile s (.write n) (State.perror { s with fs := s.fs.pwrite ofd (buf.take n) } "write error")
  | notOpened (msg : String) : s.pc.opening = true → Effect infile outfile s .fail (s.perror msg)
  | failed (msg : String) : s.pc.opening = false → (∀ status, s.pc ≠ .exited status) →
      Effect infile outfile s .fail (s.perror msg)

variable {infile outfile : ν} {s t : State ν} {a : Action}

lemma effect_of_step (h : step infile outfile s a = some t) : Effect infile outfile s a t := by
  cases hp : s.pc <;> cases a <;> simp only [step, hp, reduceCtorEq, Option.some.injEq, Option.map_eq_some_iff] at h
  case openIn.open =>
    obtain ⟨ifd, ho, rfl⟩ := h
    exact .opened ifd hp ho
  case openOut.open ifd =>
    obtain ⟨⟨ofd, fs⟩, ho, rfl⟩ := h
    exact .truncated ifd ofd fs hp ho
  case read.read ifd ofd n =>
    simp only [readBlock, Option.ite_none_right_eq_some, Option.some.injEq] at h
    obtain ⟨⟨-, hl, he⟩, rfl⟩ := h
    by_cases hn : n = 0
    · subst hn
      exact .eof ifd ofd hp (he rfl)
    · simp only [hn, if_false]
      exact .filled ifd ofd n hp (Nat.pos_of_ne_zero hn) hl
  case write.write ifd ofd buf n =>
    simp only [writeBlock, Option.ite_none_right_eq_some, Option.some.injEq] at h
    obtain ⟨hl, rfl⟩ := h
    by_cases hn : n = buf.length
    · subst hn
      simp only [if_true, List.take_length]
      exact .full ifd ofd buf hp
    · simp only [hn, if_false]
      exact .short ifd ofd buf n hp (lt_of_le_of_ne hl hn)
  case openIn.fail =>
    subst h
    exact .notOpened _ (by simp [hp, Pc.opening])
  case openOut.fail ifd =>
    subst h
    exact .notOpened _ (by simp [hp, Pc.opening])
  case read.fail ifd ofd =>
    subst h
    exact .failed _ (by simp [hp, Pc.opening]) (by simp [hp])
  case write.fail ifd ofd buf =>
    subst h
    exact .failed _ (by simp [hp, Pc.opening]) (by simp [hp])

end ApueCode.Copy
