import ApueCode.Posix.Printf

/-! `show_process_account`: every record of an accounting file is printed on a line. -/

namespace ApueCode.ShowAccount

open Posix

abbrev Comp_t := BitVec 16

structure Acct (commLen : ℕ) where
  ac_flag : BitVec 8
  ac_etime : Comp_t
  ac_io : Comp_t
  ac_comm : Buffer commLen

/-- How a platform lays out `struct acct`, and the flags in it. -/
structure Layout where
  sizeof : ℕ
  sizeof_pos : 0 < sizeof
  commLen : ℕ
  acdata : Buffer sizeof → Acct commLen
  ACORE : BitVec 8
  AXSIG : BitVec 8
  AFORK : BitVec 8
  ASU : BitVec 8

def scale : ℕ → BitVec 64 → BitVec 64
  | 0, val => val
  | exp + 1, val => scale exp (val * 8)

def compt2ulong (comptime : Comp_t) : BitVec 64 :=
  let val := (comptime &&& 0x1fff).setWidth 64
  let exp := (comptime >>> 13) &&& 7
  scale exp.toNat val

def low32 (arg : BitVec 64) : ℤ := (arg.setWidth 32).toInt

def comm {commLen : ℕ} (r : Acct commLen) : List Char :=
  (r.ac_comm.bytes.takeWhile (· ≠ NUL)).map Byte.toChar

def flag (ac_flag mask : BitVec 8) (c : Char) : Char := if ac_flag &&& mask ≠ 0 then c else ' '

def line (l : Layout) (r : Acct l.commLen) : List Char :=
  List.rightpad l.commLen ' ' (comm r) ++ (" e = ".toList ++
    (List.leftpad 61 ' ' (signedDecimal (low32 (compt2ulong r.ac_etime))) ++ (", chars = ".toList ++
      (List.leftpad 71 ' ' (signedDecimal (low32 (compt2ulong r.ac_io))) ++ (", ".toList ++
        [flag r.ac_flag l.ACORE 'D', ' ', flag r.ac_flag l.AXSIG 'X', ' ', flag r.ac_flag l.AFORK 'F', ' ',
          flag r.ac_flag l.ASU 'S'])))))

def fread (l : Layout) (file : List Byte) : Option (Acct l.commLen × List Byte) :=
  if h : l.sizeof ≤ file.length then
    some (l.acdata ⟨file.take l.sizeof, by simp [h]⟩, file.drop l.sizeof)
  else none

lemma length_of_fread {l : Layout} {file rest : List Byte} {r : Acct l.commLen} (h : fread l file = some (r, rest)) :
    rest.length + l.sizeof = file.length := by
  unfold fread at h
  split at h
  · rename_i hl
    simp only [Option.some.injEq, Prod.mk.injEq] at h
    rw [← h.2, List.length_drop]
    omega
  · cases h

def dump (l : Layout) (file : List Byte) : List Char :=
  match _h : fread l file with
  | some (r, rest) => line l r ++ '\n' :: dump l rest
  | none => []
termination_by file.length
decreasing_by
  have hl := length_of_fread _h
  have hp := l.sizeof_pos
  omega

structure Outcome where
  stdout : List Char
  stderr : List String
  status : ℕ

def main (l : Layout) (file : List Byte) (ferror : Bool) : Outcome :=
  if ferror then ⟨dump l file, ["fread error"], 1⟩ else ⟨dump l file, [], 0⟩

end ApueCode.ShowAccount
