import ApueCode.Transition.Machine

/-! A parent and a child increment a counter in shared memory under a semaphore. `overflow` is the undefined
increment of `INT_MAX`, and `failed` is `exit(1)` after a failed `sem_wait`. -/

namespace ApueCode.Mmap

open Transition

def INT_MAX : ℤ := 2 ^ 31 - 1

inductive Side
  | parent | child
  deriving DecidableEq

instance : Fintype Side := ⟨{.parent, .child}, fun p => by cases p <;> decide⟩

inductive Pc
  | test | wait | read | write | print | post | returned | failed | overflow
  deriving DecidableEq

structure Local where
  pc : Pc
  i : ℤ
  value : ℤ
  deriving DecidableEq

structure State where
  mutex : ℕ
  ptr : ℤ
  proc : Side → Local
  stdout : List (Side × ℤ)

inductive Action
  | run (p : Side)
  | waitFail (p : Side)
  deriving DecidableEq

def State.set (s : State) (p : Side) (l : Local) : State := { s with proc := Function.update s.proc p l }

def State.goto (s : State) (p : Side) (pc : Pc) : State := s.set p { s.proc p with pc := pc }

def step (nloop : ℤ) (s : State) : Action → Option State
  | .run p =>
    match (s.proc p).pc with
    | .test => some (s.goto p (if (s.proc p).i < nloop then .wait else .returned))
    | .wait => if 0 < s.mutex then some ({ s with mutex := s.mutex - 1 }.goto p .read) else none
    | .read => some (s.set p { s.proc p with pc := .write, value := s.ptr })
    | .write =>
      if (s.proc p).value = INT_MAX then some (s.goto p .overflow)
      else some ({ s with ptr := (s.proc p).value + 1 }.goto p .print)
    | .print => some ({ s with stdout := s.stdout ++ [(p, (s.proc p).value)] }.goto p .post)
    | .post =>
      some ({ s with mutex := s.mutex + 1 }.set p { s.proc p with pc := .test, i := (s.proc p).i + 1 })
    | .returned | .failed | .overflow => none
  | .waitFail p => if (s.proc p).pc = .wait then some (s.goto p .failed) else none

def start : State where
  mutex := 1
  ptr := 0
  proc := fun _ => ⟨.test, 0, 0⟩
  stdout := []

def machine (nloop : ℤ) : Machine State Action where
  init s := s = start
  step := step nloop

def Pc.inside : Pc → Bool
  | .read | .write | .print | .post | .overflow => true
  | .test | .wait | .returned | .failed => false

def State.inside (s : State) : Finset Side := Finset.univ.filter fun p => (s.proc p).pc.inside

def State.printedBy (s : State) (p : Side) : ℕ := s.stdout.countP fun e => e.1 = p

def State.finished (s : State) (p : Side) : Prop := (s.proc p).pc = .returned ∨ (s.proc p).pc = .failed

@[simp] lemma set_proc (s : State) (p : Side) (l : Local) :
    (s.set p l).proc = Function.update s.proc p l := rfl
@[simp] lemma set_mutex (s : State) (p : Side) (l : Local) : (s.set p l).mutex = s.mutex := rfl
@[simp] lemma set_ptr (s : State) (p : Side) (l : Local) : (s.set p l).ptr = s.ptr := rfl
@[simp] lemma set_stdout (s : State) (p : Side) (l : Local) : (s.set p l).stdout = s.stdout := rfl

@[simp] lemma mem_inside {s : State} {p : Side} : p ∈ s.inside ↔ (s.proc p).pc.inside = true := by
  simp [State.inside]

end ApueCode.Mmap
