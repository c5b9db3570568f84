import ApueCode.Posix.Printf

/-! `file_stat`: the line that describes a file. -/

namespace ApueCode.FileStat

open Posix

abbrev Mode := BitVec 32

def S_IFMT : Mode := 0o170000
def S_IFSOCK : Mode := 0o140000
def S_IFLNK : Mode := 0o120000
def S_IFREG : Mode := 0o100000
def S_IFBLK : Mode := 0o060000
def S_IFDIR : Mode := 0o040000
def S_IFCHR : Mode := 0o020000
def S_IFIFO : Mode := 0o010000

def S_ISUID : Mode := 0o4000
def S_ISGID : Mode := 0o2000
def S_ISVTX : Mode := 0o1000
def S_IRUSR : Mode := 0o400
def S_IWUSR : Mode := 0o200
def S_IXUSR : Mode := 0o100
def S_IRGRP : Mode := 0o040
def S_IWGRP : Mode := 0o020
def S_IXGRP : Mode := 0o010
def S_IROTH : Mode := 0o004
def S_IWOTH : Mode := 0o002
def S_IXOTH : Mode := 0o001

structure Stat where
  st_ino : BitVec 64
  st_mode : Mode
  st_nlink : BitVec 64
  st_uid : BitVec 32
  st_gid : BitVec 32
  st_size : BitVec 64
  deriving DecidableEq

variable (buf : Stat)

def Stat.type : Mode := buf.st_mode &&& S_IFMT

def Stat.has (bit : Mode) : Bool := buf.st_mode &&& bit ≠ 0

def typeChar (type : Mode) : Char :=
  if type = S_IFREG then '-'
  else if type = S_IFLNK then 'l'
  else if type = S_IFDIR then 'd'
  else if type = S_IFCHR then 'c'
  else if type = S_IFBLK then 'b'
  else if type = S_IFIFO then 'f'
  else if type = S_IFSOCK then 's'
  else ' '

def bitChar (c : Char) (bit : Bool) : Char := if bit then c else '-'

def execChar (x s : Bool) : Char :=
  if x || s then
    if x && s then 's'
    else if x then 'x'
    else 'S'
  else '-'

-- Here the outer condition has `&&`, so that two of the branches are never taken.
def otherExecChar (x t : Bool) : Char :=
  if x && t then
    if x && t then 't'
    else if x then 'x'
    else 'T'
  else '-'

def permissions : List Char :=
  [bitChar 'r' (buf.has S_IRUSR), bitChar 'w' (buf.has S_IWUSR), execChar (buf.has S_IXUSR) (buf.has S_ISUID),
    bitChar 'r' (buf.has S_IRGRP), bitChar 'w' (buf.has S_IWGRP), execChar (buf.has S_IXGRP) (buf.has S_ISGID),
    bitChar 'r' (buf.has S_IROTH), bitChar 'w' (buf.has S_IWOTH), otherExecChar (buf.has S_IXOTH) (buf.has S_ISVTX)]

def field (n : ℕ) : List Char := ' ' :: (decimal n ++ [' '])

def line : List Char :=
  decimal buf.st_ino.toNat ++ [' ', typeChar buf.type] ++ permissions buf ++ ['.'] ++ field buf.st_nlink.toNat ++
    field buf.st_uid.toNat ++ field buf.st_gid.toNat ++ field buf.st_size.toNat ++ ['\n']

structure Outcome where
  stdout : List Char
  stderr : List String
  status : ℕ

def main : Option Stat → Outcome
  | none => ⟨[], ["stat error"], 1⟩
  | some buf => ⟨line buf, [], 0⟩

end ApueCode.FileStat
