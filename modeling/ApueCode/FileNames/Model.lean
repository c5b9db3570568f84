import ApueCode.Posix.DiskCalls
import ApueCode.Transition.Machine

/-! The programs that give names to files: `link`, `linkat`, `symlink`, `rename` and `renameat`. Paths are names of
one directory. -/

namespace ApueCode.FileNames

open Posix Transition

def EXIT_FAILURE : ℕ := 1

structure Result where
  disk : Disk String
  stdout : List String
  stderr : List String
  status : ℕ

def arg (argv : List String) (i : ℕ) : String := argv.getD i ""

def main (params name : String) (said : String → String → List String) (call : String → String → Disk.Call String)
    (refused : Option String) (d : Disk String) (argv : List String) : Result :=
  if argv.length ≠ 3 then ⟨d, [], [s!"Usage: {arg argv 0} {params}\n"], EXIT_FAILURE⟩
  else
    match refused.elim ((call (arg argv 1) (arg argv 2)).run d) fun text => .error (.other text) with
    | .error e => ⟨d, [], [s!"{name} error: {Disk.strerror e}\n"], EXIT_FAILURE⟩
    | .ok d' => ⟨d', said (arg argv 1) (arg argv 2), [], 0⟩

def link (follows : Bool) : Option String → Disk String → List String → Result :=
  main "<exist_path> <new_path>" "link" (fun old new => ["link success\n", s!"{old} - {new}\n"]) (.link follows)

def linkat (MODE : Bool) : Option String → Disk String → List String → Result :=
  main "<exist_path> <new_path>" "linkat" (fun old new => ["linkat success\n", s!"{old} - {new}\n"]) (.link MODE)

def symlink (ino : ℕ) : Option String → Disk String → List String → Result :=
  main "<actualpath> <sympath>" "symlink" (fun _ _ => []) (.symlink ino)

def rename : Option String → Disk String → List String → Result :=
  main "<old_file> <new_file>" "rename" (fun old new => ["rename success\n", s!"{old} -> {new}\n"]) .rename

def renameat : Option String → Disk String → List String → Result :=
  main "<old_file> <new_file>" "renameat" (fun old new => ["renameat success\n", s!"{old} -> {new}\n"]) .rename

inductive Program
  | link (follows : Bool) | linkat (MODE : Bool) | symlink (ino : ℕ) | rename | renameat
  deriving DecidableEq

structure Invocation where
  program : Program
  argv : List String
  refused : Option String
  deriving DecidableEq

def Program.run : Program → Option String → Disk String → List String → Result
  | .link follows => FileNames.link follows
  | .linkat MODE => FileNames.linkat MODE
  | .symlink ino => FileNames.symlink ino
  | .rename => FileNames.rename
  | .renameat => FileNames.renameat

def Invocation.run (v : Invocation) (d : Disk String) : Result := v.program.run v.refused d v.argv

def Program.Allowed (d : Disk String) : Program → Prop
  | .symlink ino => d.inodes ino = none
  | _ => True

instance (d : Disk String) (p : Program) : Decidable (p.Allowed d) :=
  match p with
  | .symlink ino => inferInstanceAs (Decidable (d.inodes ino = none))
  | .link _ | .linkat _ | .rename | .renameat => inferInstanceAs (Decidable True)

def machine (d : Disk String) : Machine (Disk String) Invocation where
  init e := e = d
  step e v := if v.program.Allowed e then some (v.run e).disk else none

end ApueCode.FileNames
