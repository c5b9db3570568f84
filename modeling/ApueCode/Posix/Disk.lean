import Mathlib.Data.Set.Card
import ApueCode.Posix.FileSystem

/-! The inodes of a disk with their link counts. The contents of a file go when it has neither a name nor a process
that has it open. A path is one name, and the kernel gives up after `symloopMax` symbolic links. -/

namespace ApueCode.Posix

inductive Inode (ν : Type)
  | file (data : List Byte) | symlink (target : ν)
  deriving DecidableEq

structure Disk (ν : Type) where
  entries : ν → Option ℕ
  inodes : ℕ → Option (Inode ν)
  nlink : ℕ → ℕ
  opens : ℕ → ℕ
  symloopMax : ℕ

namespace Disk

inductive Errno
  | ENOENT | EEXIST | ELOOP | other (text : String)
  deriving DecidableEq

def strerror : Errno → String
  | .ENOENT => "No such file or directory"
  | .EEXIST => "File exists"
  | .ELOOP => "Too many levels of symbolic links"
  | .other text => text

variable {ν : Type}

def release (d : Disk ν) (ino : ℕ) : Disk ν :=
  if d.opens ino = 0 ∧ d.nlink ino = 0 then { d with inodes := Function.update d.inodes ino none } else d

def openFile (d : Disk ν) (ino : ℕ) : Disk ν := { d with opens := Function.update d.opens ino (d.opens ino + 1) }

def close (d : Disk ν) (ino : ℕ) : Disk ν :=
  { d with opens := Function.update d.opens ino (d.opens ino - 1) }.release ino

def store (d : Disk ν) (ino : ℕ) (inode : Inode ν) : Disk ν :=
  { d with inodes := Function.update d.inodes ino (some inode) }

def follow (d : Disk ν) : ℕ → ν → Resolution ν
  | limit, n =>
    match d.entries n with
    | none => .absent n
    | some ino =>
      match d.inodes ino with
      | some (.symlink target) =>
        match limit with
        | 0 => .loop
        | limit + 1 => follow d limit target
      | _ => .file ino

def resolve (d : Disk ν) (n : ν) : Resolution ν := d.follow d.symloopMax n

section

variable [DecidableEq ν]

def addName (d : Disk ν) (n : ν) (ino : ℕ) : Disk ν :=
  { d with
    entries := Function.update d.entries n (some ino)
    nlink := Function.update d.nlink ino (d.nlink ino + 1) }

def dropName (d : Disk ν) (n : ν) (ino : ℕ) : Disk ν :=
  { d with
    entries := Function.update d.entries n none
    nlink := Function.update d.nlink ino (d.nlink ino - 1) }.release ino

def source (d : Disk ν) (follows : Bool) (old : ν) : Except Errno ℕ :=
  if follows then
    match d.resolve old with
    | .file ino => .ok ino
    | .absent _ => .error .ENOENT
    | .loop => .error .ELOOP
  else
    match d.entries old with
    | some ino => .ok ino
    | none => .error .ENOENT

def link (d : Disk ν) (follows : Bool) (old new : ν) : Except Errno (Disk ν) :=
  match d.source follows old with
  | .error e => .error e
  | .ok ino => if d.entries new = none then .ok (d.addName new ino) else .error .EEXIST

def create (d : Disk ν) (n : ν) (ino : ℕ) (inode : Inode ν) : Disk ν := (d.store ino inode).addName n ino

def symlink (d : Disk ν) (ino : ℕ) (target n : ν) : Except Errno (Disk ν) :=
  if d.entries n = none then .ok (d.create n ino (.symlink target)) else .error .EEXIST

def unlink (d : Disk ν) (n : ν) : Except Errno (Disk ν) :=
  match d.entries n with
  | some ino => .ok (d.dropName n ino)
  | none => .error .ENOENT

def rename (d : Disk ν) (old new : ν) : Except Errno (Disk ν) :=
  match d.entries old with
  | none => .error .ENOENT
  | some ino =>
    match d.entries new with
    | none => .ok ((d.addName new ino).dropName old ino)
    | some replaced =>
      if replaced = ino then .ok d
      else .ok (((d.dropName new replaced).addName new ino).dropName old ino)

def openTrunc (d : Disk ν) (ino : ℕ) (n : ν) : Except Errno (ℕ × Disk ν) :=
  match d.resolve n with
  | .file i => .ok (i, (d.store i (.file [])).openFile i)
  | .absent m => .ok (ino, (d.create m ino (.file [])).openFile ino)
  | .loop => .error .ELOOP

def openExisting (d : Disk ν) (n : ν) : Except Errno (Disk ν) :=
  match d.resolve n with
  | .file ino => .ok (d.openFile ino)
  | .absent _ => .error .ENOENT
  | .loop => .error .ELOOP

end

def empty (symloopMax : ℕ) : Disk ν := ⟨fun _ => none, fun _ => none, fun _ => 0, fun _ => 0, symloopMax⟩

def holders (d : Disk ν) (ino : ℕ) : Set ν := {n | d.entries n = some ino}

/-- The link count is the number of names, and the contents are there as long as somebody can get at them. -/
structure Consistent (d : Disk ν) : Prop where
  links : ∀ ino, (d.holders ino).encard = d.nlink ino
  held : ∀ ino, d.inodes ino = none ↔ d.nlink ino = 0 ∧ d.opens ino = 0

section

variable {d d' : Disk ν} {n m old new target : ν} {ino i : ℕ} {inode : Inode ν} {follows : Bool}

@[simp] lemma release_entries : (d.release ino).entries = d.entries := by unfold release; split <;> rfl

@[simp] lemma release_nlink : (d.release ino).nlink = d.nlink := by unfold release; split <;> rfl

@[simp] lemma release_opens : (d.release ino).opens = d.opens := by unfold release; split <;> rfl

lemma release_inodes : (d.release ino).inodes i =
    if i = ino ∧ d.opens ino = 0 ∧ d.nlink ino = 0 then none else d.inodes i := by
  unfold release
  by_cases hi : i = ino
  · subst hi
    split <;> simp_all
  · split <;> simp_all [Function.update_of_ne]

lemma entries_of_follow {limit : ℕ} (h : d.follow limit n = .file ino) : ∃ m, d.entries m = some ino := by
  induction limit generalizing n with
  | zero =>
    rw [follow] at h
    split at h <;> simp only [reduceCtorEq] at h
    split at h <;> simp only [reduceCtorEq, Resolution.file.injEq] at h
    exact ⟨n, by simp_all⟩
  | succ limit ih =>
    rw [follow] at h
    split at h <;> simp only [reduceCtorEq] at h
    split at h
    · exact ih h
    · simp only [Resolution.file.injEq] at h
      exact ⟨n, by simp_all⟩

lemma absent_of_follow {limit : ℕ} (h : d.follow limit n = .absent m) : d.entries m = none := by
  induction limit generalizing n with
  | zero =>
    rw [follow] at h
    split at h
    · cases h
      assumption
    · split at h <;> simp only [reduceCtorEq] at h
  | succ limit ih =>
    rw [follow] at h
    split at h
    · cases h
      assumption
    · split at h
      · exact ih h
      · simp only [reduceCtorEq] at h

lemma holders_congr (h : d'.entries = d.entries) : d'.holders i = d.holders i := by rw [holders, h]; rfl

namespace Consistent

lemma empty {limit : ℕ} : (empty limit : Disk ν).Consistent where
  links ino := by simp [holders, Disk.empty]
  held ino := by simp [Disk.empty]

lemma inode_of_nlink (h : d.Consistent) (hn : 0 < d.nlink ino) : ∃ inode, d.inodes ino = some inode := by
  rw [← Option.ne_none_iff_exists', Ne, h.held]
  omega

lemma inode_of_opens (h : d.Consistent) (ho : 0 < d.opens ino) : ∃ inode, d.inodes ino = some inode := by
  rw [← Option.ne_none_iff_exists', Ne, h.held]
  omega

lemma nlink_pos (h : d.Consistent) (hn : d.entries n = some ino) : 0 < d.nlink ino := by
  have hne : (d.holders ino).encard ≠ 0 := Set.encard_ne_zero.mpr ⟨n, hn⟩
  rw [h.links] at hne
  exact Nat.pos_of_ne_zero fun hz => hne (by simp [hz])

lemma nlink_eq_zero (h : d.Consistent) : d.nlink ino = 0 ↔ ∀ n, d.entries n ≠ some ino := by
  constructor
  · intro hz n hn
    exact (h.nlink_pos hn).ne' hz
  · intro hn
    have hl := h.links ino
    have hempty : d.holders ino = ∅ := Set.eq_empty_of_forall_notMem hn
    rw [hempty, Set.encard_empty] at hl
    exact_mod_cast hl.symm

lemma inode_of_entry (h : d.Consistent) (hn : d.entries n = some ino) : ∃ inode, d.inodes ino = some inode :=
  h.inode_of_nlink (h.nlink_pos hn)

lemma release (hl : ∀ i, (d.holders i).encard = d.nlink i)
    (hh : ∀ i, i ≠ ino → (d.inodes i = none ↔ d.nlink i = 0 ∧ d.opens i = 0))
    (hi : d.inodes ino ≠ none) : (d.release ino).Consistent where
  links i := by
    rw [holders_congr release_entries, release_nlink]
    exact hl i
  held i := by
    rw [release_inodes, release_nlink, release_opens]
    by_cases h : i = ino
    · subst h
      simp only [true_and, ite_eq_left_iff, hi, imp_false, not_not]
      exact and_comm
    · simp [h, hh i h]

lemma openFile (h : d.Consistent) (hi : d.inodes ino = some inode) : (d.openFile ino).Consistent where
  links i := h.links i
  held i := by
    have hi' := h.held i
    by_cases hio : i = ino
    · subst hio
      simp [Disk.openFile, hi]
    · simpa [Disk.openFile, hio] using hi'

lemma close (h : d.Consistent) (ho : 0 < d.opens ino) : (d.close ino).Consistent := by
  obtain ⟨inode, hi⟩ := h.inode_of_opens ho
  refine release (fun i => h.links i) (fun i hio => ?_) (by simp [hi])
  simpa [hio] using h.held i

lemma store (h : d.Consistent) (hi : d.inodes ino ≠ none) : (d.store ino inode).Consistent where
  links i := h.links i
  held i := by
    have hh := h.held i
    by_cases hio : i = ino
    · subst hio
      simpa [Disk.store, hi] using hh
    · simpa [Disk.store, hio] using hh

variable [DecidableEq ν]

lemma holders_addName (hn : d.entries n = none) :
    (d.addName n ino).holders i = if i = ino then insert n (d.holders i) else d.holders i := by
  ext m
  by_cases hi : i = ino
  · by_cases hm : m = n <;> simp [holders, addName, hi, hm]
  · by_cases hm : m = n <;> simp [holders, addName, hi, hm, hn, Ne.symm hi]

lemma holders_dropName (hn : d.entries n = some ino) :
    (d.dropName n ino).holders i = if i = ino then d.holders i \ {n} else d.holders i := by
  ext m
  by_cases hi : i = ino
  · by_cases hm : m = n <;> simp [holders, dropName, hi, hm]
  · by_cases hm : m = n <;> simp [holders, dropName, hi, hm, hn, Ne.symm hi]

lemma addName_links (h : ∀ i, (d.holders i).encard = d.nlink i) (hn : d.entries n = none) (i : ℕ) :
    ((d.addName n ino).holders i).encard = (d.addName n ino).nlink i := by
  rw [holders_addName hn]
  by_cases hi : i = ino
  · subst hi
    rw [if_pos rfl, Set.encard_insert_of_notMem (by simp [holders, hn]), h]
    simp [addName]
  · simp [hi, addName, h]

lemma addName (h : d.Consistent) (hn : d.entries n = none) (hi : d.inodes ino ≠ none) :
    (d.addName n ino).Consistent where
  links := addName_links h.links hn
  held i := by
    have hh := h.held i
    by_cases hio : i = ino
    · subst hio
      simp [Disk.addName, hi]
    · simpa [Disk.addName, hio] using hh

lemma create (h : d.Consistent) (hn : d.entries n = none) (hi : d.inodes ino = none) :
    (d.create n ino inode).Consistent where
  links := addName_links (d := d.store ino inode) h.links hn
  held i := by
    have hh := h.held i
    by_cases hio : i = ino
    · subst hio
      simp [Disk.create, Disk.addName, Disk.store]
    · simpa [Disk.create, Disk.addName, Disk.store, hio] using hh

lemma dropName (h : d.Consistent) (hn : d.entries n = some ino) : (d.dropName n ino).Consistent := by
  obtain ⟨inode, hi⟩ := h.inode_of_entry hn
  refine release (fun i => ?_) (fun i hio => ?_) (by simp [hi])
  · have hd := holders_dropName (i := i) hn
    rw [Disk.dropName, holders_congr release_entries] at hd
    rw [hd]
    by_cases hio : i = ino
    · subst hio
      have hc : (d.holders i \ {n}).encard + 1 = d.nlink i := by
        rw [Set.encard_sdiff_singleton_add_one (show n ∈ d.holders i from hn), h.links]
      have hp := h.nlink_pos hn
      obtain ⟨k, hk⟩ := Nat.exists_eq_succ_of_ne_zero hp.ne'
      rw [hk] at hc
      simpa [hk] using hc
    · simp [hio, h.links]
  · simpa [hio] using h.held i

end Consistent

end

end Disk

end ApueCode.Posix
