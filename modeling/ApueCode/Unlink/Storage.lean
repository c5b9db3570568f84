import ApueCode.Posix.DiskCalls
import ApueCode.Unlink.Model

/-! The disk under `unlink filename`, which other processes use meanwhile. The kernel has the choice of the inode of
a new file, of how many bytes a failing `write` has stored, and of refusing to unlink. -/

namespace ApueCode.Unlink.Storage

open Posix Transition

structure State where
  program : Unlink.State
  disk : Disk String
  fd : Option ℕ

structure Choice where
  ino : ℕ
  stored : ℕ
  refuses : Bool

inductive Action
  | program (a : Unlink.Action) (k : Choice)
  | kill
  | other (c : Disk.Call String)

section

variable {BUFSIZ : ℕ} (argv : List String) (buf : Fin BUFSIZ → Byte)

def written (old : List Byte) (offset : ℕ) (bytes : List Byte) : List Byte :=
  old.takeD offset NUL ++ bytes ++ old.drop (offset + bytes.length)

def write (d : Disk String) (fd : Option ℕ) (offset : ℕ) (bytes : List Byte) : Disk String :=
  match fd with
  | none => d
  | some ino =>
    match d.inodes ino with
    | some (.file old) => d.store ino (.file (written old offset bytes))
    | _ => d

def call (s : State) (a : Unlink.Action) (k : Choice) : Option (Disk String × Option ℕ) :=
  match a, s.program.ctx.frames, s.program.main with
  | .run, [], .open =>
    match s.disk.openTrunc k.ino (arg argv 1) with
    | .ok (ino, d) => if s.disk.inodes k.ino = none then some (d, some ino) else none
    | .error _ => none
  | .run, [], .write i =>
    some (if i ≠ FILE_SIZE / BUFSIZ then write s.disk s.fd (i * BUFSIZ) (List.ofFn buf) else s.disk, s.fd)
  | .fail _, [], .write i => some (write s.disk s.fd (i * BUFSIZ) ((List.ofFn buf).take k.stored), s.fd)
  | .run, [], .unlink =>
    match s.disk.unlink (arg argv 1) with
    | .ok d => some (if k.refuses then s.disk else d, s.fd)
    | .error _ => some (s.disk, s.fd)
  | _, _, _ => some (s.disk, s.fd)

def settle (p : Unlink.State) (d : Disk String) (fd : Option ℕ) : State :=
  match fd with
  | some ino => if p.main.hasEnded then ⟨p, d.close ino, none⟩ else ⟨p, d, fd⟩
  | none => ⟨p, d, none⟩

def State.shared (s : State) (ino : ℕ) : Prop := (if s.fd = some ino then 1 else 0) < s.disk.opens ino

def State.Permits (s : State) (c : Disk.Call String) : Prop :=
  c.Allowed s.disk ∧
    match c with
    | .close ino | .write ino _ => s.shared ino
    | _ => True

instance (s : State) (ino : ℕ) : Decidable (s.shared ino) := inferInstanceAs (Decidable (_ < _))

instance (s : State) (c : Disk.Call String) : Decidable (s.Permits c) :=
  match c with
  | .close ino | .write ino _ => inferInstanceAs (Decidable (_ ∧ s.shared ino))
  | .link _ _ _ | .symlink _ _ _ | .rename _ _ | .unlink _ | .openTrunc _ _ | .openExisting _ =>
    inferInstanceAs (Decidable (_ ∧ True))

def step (s : State) : Action → Option State
  | .program a k => do
    let p ← Unlink.step BUFSIZ argv s.program a
    let (d, fd) ← call argv buf s a k
    return settle p d fd
  | .kill =>
    if s.program.main.hasEnded then none else some (settle { s.program with main := .killed } s.disk s.fd)
  | .other c =>
    if s.Permits c then
      match c.run s.disk with
      | .ok d => some { s with disk := d }
      | .error _ => some s
    else none

end

def start (inherited : Mask) (d : Disk String) : State := ⟨Unlink.start inherited, d, none⟩

def machine {BUFSIZ : ℕ} (argv : List String) (buf : Fin BUFSIZ → Byte) (inherited : Mask) (d : Disk String) :
    Machine State Action where
  init s := s = start inherited d
  step := step argv buf

end ApueCode.Unlink.Storage
