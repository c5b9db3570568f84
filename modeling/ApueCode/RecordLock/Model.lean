import ApueCode.Posix.CString
import ApueCode.Posix.RecordLock
import ApueCode.Transition.Machine

/-! Any number of processes that lock the first byte of a file, report it, sleep and unlock. `granted` records that
the `F_SETLKW` of a process has succeeded. -/

namespace ApueCode.RecordLock

open Posix Transition

variable {ι : Type}

inductive Pc
  | openFile | lock (ty : LockType) | get (ty : LockType) | sleep (ty : LockType)
  | unlock (ty : LockType) | release (ty : LockType) | returning | exited (status : ℕ)
  deriving DecidableEq

inductive Line (ι : Type)
  | get (p : ι) (ty : LockType)
  | release (p : ι) (ty : LockType)
  deriving DecidableEq

/-- The processes on one file: the first byte of `argv[2]`, and what the two members of `unlock` that
are never assigned contain. -/
structure System (ι : Type) where
  mode : ι → Byte
  l_start : ι → ℤ
  l_len : ι → ℤ
  size : ℕ

structure State (ι : Type) where
  pc : ι → Pc
  granted : ι → Bool
  locks : LockTable ι
  stdout : List (Line ι)

inductive Action (ι : Type)
  | run (p : ι)
  | fail (p : ι)
  deriving DecidableEq

def EXIT_FAILURE : ℕ := 1

def lockType (c : Byte) : Option LockType :=
  if c = 114 then F_RDLCK else if c = 119 then F_WRLCK else none

def lock (ty : LockType) : Flock := ⟨some ty, .SEEK_SET, 0, 1⟩

def unlock (l_start l_len : ℤ) : Flock := ⟨F_UNLCK, .SEEK_SET, l_start, l_len⟩

def State.print (s : State ι) (l : Line ι) : State ι := { s with stdout := s.stdout ++ [l] }

variable [DecidableEq ι]

def State.goto (s : State ι) (p : ι) (pc : Pc) : State ι := { s with pc := Function.update s.pc p pc }

def State.grant (s : State ι) (p : ι) (locks : LockTable ι) : State ι :=
  { s with locks := locks, granted := Function.update s.granted p true }

def State.exit (s : State ι) (p : ι) (status : ℕ) : State ι :=
  { s with locks := s.locks.dropAll p }.goto p (.exited status)

def step (sys : System ι) (s : State ι) : Action ι → Option (State ι)
  | .run p =>
    match s.pc p with
    | .openFile =>
      some (match lockType (sys.mode p) with
        | some ty => s.goto p (.lock ty)
        | none => s.exit p EXIT_FAILURE)
    | .lock ty =>
      ((lock ty).setlk s.locks p 0 sys.size).map fun locks => (s.grant p locks).goto p (.get ty)
    | .get ty => some ((s.print (.get p ty)).goto p (.sleep ty))
    | .sleep ty => some (s.goto p (.unlock ty))
    | .unlock ty =>
      let locks := (unlock (sys.l_start p) (sys.l_len p)).setlk s.locks p 0 sys.size
      some ({ s with locks := locks.getD s.locks }.goto p (.release ty))
    | .release ty => some ((s.print (.release p ty)).goto p .returning)
    | .returning => some (s.exit p 0)
    | .exited _ => none
  | .fail p =>
    match s.pc p with
    | .openFile => some (s.exit p EXIT_FAILURE)
    | .lock ty => some (s.goto p (.get ty))
    | .unlock ty => some (s.goto p (.release ty))
    | _ => none

def start : State ι where
  pc := fun _ => .openFile
  granted := fun _ => false
  locks := []
  stdout := []

def machine (sys : System ι) : Machine (State ι) (Action ι) where
  init s := s = start
  step := step sys

def State.Reported (s : State ι) (p : ι) (ty : LockType) : Prop :=
  s.pc p = .sleep ty ∨ s.pc p = .unlock ty

inductive Step (sys : System ι) (s : State ι) : Action ι → State ι → Prop
  | opened {p : ι} {ty : LockType} : s.pc p = .openFile → lockType (sys.mode p) = some ty →
      Step sys s (.run p) (s.goto p (.lock ty))
  | usage {p : ι} : s.pc p = .openFile → lockType (sys.mode p) = none →
      Step sys s (.run p) (s.exit p EXIT_FAILURE)
  | openFail {p : ι} : s.pc p = .openFile → Step sys s (.fail p) (s.exit p EXIT_FAILURE)
  | granted {p : ι} {ty : LockType} {locks : LockTable ι} : s.pc p = .lock ty →
      (lock ty).setlk s.locks p 0 sys.size = some locks →
      Step sys s (.run p) ((s.grant p locks).goto p (.get ty))
  | refused {p : ι} {ty : LockType} : s.pc p = .lock ty → Step sys s (.fail p) (s.goto p (.get ty))
  | get {p : ι} {ty : LockType} : s.pc p = .get ty →
      Step sys s (.run p) ((s.print (.get p ty)).goto p (.sleep ty))
  | sleep {p : ι} {ty : LockType} : s.pc p = .sleep ty → Step sys s (.run p) (s.goto p (.unlock ty))
  | unlock {p : ι} {ty : LockType} : s.pc p = .unlock ty →
      Step sys s (.run p) ({ s with
        locks := ((unlock (sys.l_start p) (sys.l_len p)).setlk s.locks p 0 sys.size).getD s.locks }.goto p
          (.release ty))
  | unlockFail {p : ι} {ty : LockType} : s.pc p = .unlock ty → Step sys s (.fail p) (s.goto p (.release ty))
  | release {p : ι} {ty : LockType} : s.pc p = .release ty →
      Step sys s (.run p) ((s.print (.release p ty)).goto p .returning)
  | returning {p : ι} : s.pc p = .returning → Step sys s (.run p) (s.exit p 0)

lemma step_cases {sys : System ι} {s t : State ι} {a : Action ι} (h : step sys s a = some t) :
    Step sys s a t := by
  cases a with
  | run p =>
    cases hp : s.pc p <;> simp only [step, hp, Option.some.injEq, Option.map_eq_some_iff, reduceCtorEq] at h
    case lock ty =>
      obtain ⟨locks, hl, rfl⟩ := h
      exact .granted hp hl
    all_goals subst h
    case openFile =>
      cases hm : lockType (sys.mode p) with
      | some ty => exact .opened hp hm
      | none => exact .usage hp hm
    case get ty => exact .get hp
    case sleep ty => exact .sleep hp
    case unlock ty => exact .unlock hp
    case release ty => exact .release hp
    case returning => exact .returning hp
  | fail p =>
    cases hp : s.pc p <;> simp only [step, hp, Option.some.injEq, reduceCtorEq] at h
    all_goals subst h
    case openFile => exact .openFail hp
    case lock ty => exact .refused hp
    case unlock ty => exact .unlockFail hp

end ApueCode.RecordLock
