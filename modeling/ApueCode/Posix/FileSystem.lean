import ApueCode.Posix.CString

/-! A file system in which names are links, hard or symbolic, and reading and writing through open files. -/

namespace ApueCode.Posix

inductive Entry (ν : Type)
  | file (ino : ℕ) | symlink (target : ν)
  deriving DecidableEq

structure FileSystem (ν : Type) where
  entries : ν → Option (Entry ν)
  data : ℕ → List Byte
  next : ℕ
  symloopMax : ℕ
  alloc : ∀ n ino, entries n = some (.file ino) → ino < next

inductive Resolution (ν : Type)
  | file (ino : ℕ) | absent (name : ν) | loop
  deriving DecidableEq

structure OpenFile where
  ino : ℕ
  offset : ℕ
  deriving DecidableEq

namespace FileSystem

variable {ν : Type}

def follow (fs : FileSystem ν) : ℕ → ν → Resolution ν
  | limit, n =>
    match fs.entries n with
    | none => .absent n
    | some (.file ino) => .file ino
    | some (.symlink m) =>
      match limit with
      | 0 => .loop
      | limit + 1 => follow fs limit m

def resolve (fs : FileSystem ν) (n : ν) : Resolution ν := fs.follow fs.symloopMax n

def update (fs : FileSystem ν) (ino : ℕ) (data : List Byte) : FileSystem ν :=
  { fs with data := Function.update fs.data ino data }

def openExisting (fs : FileSystem ν) (n : ν) : Option OpenFile :=
  match fs.resolve n with
  | .file ino => some ⟨ino, 0⟩
  | .absent _ | .loop => none

section

variable [DecidableEq ν]

def create (fs : FileSystem ν) (n : ν) : FileSystem ν where
  entries := Function.update fs.entries n (some (.file fs.next))
  data := Function.update fs.data fs.next []
  next := fs.next + 1
  symloopMax := fs.symloopMax
  alloc m ino hm := by
    by_cases h : m = n
    · subst h
      simp only [Function.update_self, Option.some.injEq, Entry.file.injEq] at hm
      omega
    · rw [Function.update_of_ne h] at hm
      exact Nat.lt_succ_of_lt (fs.alloc m ino hm)

def openTrunc (fs : FileSystem ν) (n : ν) : Option (OpenFile × FileSystem ν) :=
  match fs.resolve n with
  | .file ino => some (⟨ino, 0⟩, fs.update ino [])
  | .absent m => some (⟨fs.next, 0⟩, fs.create m)
  | .loop => none

end

def rest (fs : FileSystem ν) (fd : OpenFile) : List Byte := (fs.data fd.ino).drop fd.offset

def pwrite (fs : FileSystem ν) (fd : OpenFile) (bytes : List Byte) : FileSystem ν :=
  let old := fs.data fd.ino
  if bytes = [] then fs
  else fs.update fd.ino (old.takeD fd.offset NUL ++ bytes ++ old.drop (fd.offset + bytes.length))

variable {fs : FileSystem ν} {n m : ν} {ino limit : ℕ} {bytes : List Byte} {fd : OpenFile}

@[simp] lemma update_data_self : (fs.update ino bytes).data ino = bytes := Function.update_self ..

@[simp] lemma update_data_of_ne {i : ℕ} (h : i ≠ ino) : (fs.update ino bytes).data i = fs.data i :=
  Function.update_of_ne h ..

lemma follow_update : (fs.update ino bytes).follow limit n = fs.follow limit n := by
  induction limit generalizing n with
  | zero =>
    rw [follow, follow]
    rfl
  | succ limit ih =>
    rw [follow, follow]
    simp only [ih]
    rfl

@[simp] lemma resolve_update : (fs.update ino bytes).resolve n = fs.resolve n := follow_update

lemma lt_next_of_follow (h : fs.follow limit n = .file ino) : ino < fs.next := by
  induction limit generalizing n with
  | zero =>
    rw [follow] at h
    split at h <;> simp only [reduceCtorEq, Resolution.file.injEq] at h
    rename_i hn
    exact fs.alloc n ino (h ▸ hn)
  | succ limit ih =>
    rw [follow] at h
    split at h <;> simp only [reduceCtorEq, Resolution.file.injEq] at h
    · rename_i hn
      exact fs.alloc n ino (h ▸ hn)
    · exact ih h

lemma lt_next_of_resolve (h : fs.resolve n = .file ino) : ino < fs.next := lt_next_of_follow h

lemma pwrite_end (h : (fs.data fd.ino).length = fd.offset) :
    fs.pwrite fd bytes = fs.update fd.ino (fs.data fd.ino ++ bytes) := by
  by_cases hb : bytes = []
  · simp [pwrite, update, hb, Function.update_eq_self]
  · simp only [pwrite, hb, if_false, ← h, List.takeD_eq_take _ le_rfl, List.take_length,
      List.drop_eq_nil_of_le (Nat.le_add_right _ _), List.append_nil]

lemma pwrite_data_of_ne {i : ℕ} (h : i ≠ fd.ino) : (fs.pwrite fd bytes).data i = fs.data i := by
  simp only [pwrite]
  split
  · rfl
  · exact update_data_of_ne h

lemma openExisting_eq_some : fs.openExisting n = some fd ↔ fs.resolve n = .file fd.ino ∧ fd.offset = 0 := by
  obtain ⟨ino, offset⟩ := fd
  unfold openExisting
  split <;> rename_i hr <;> simp [hr, eq_comm]

variable [DecidableEq ν]

lemma follow_create (h : fs.follow limit n = .absent m) : (fs.create m).follow limit n = .file fs.next := by
  have hm : (fs.create m).entries m = some (.file fs.next) := Function.update_self ..
  have hne : ∀ k, k ≠ m → (fs.create m).entries k = fs.entries k := fun k hk => Function.update_of_ne hk ..
  induction limit generalizing n with
  | zero =>
    by_cases hn : n = m
    · rw [follow, hn, hm]
    · rw [follow] at h
      split at h <;> simp only [reduceCtorEq, Resolution.absent.injEq] at h
      exact (hn h).elim
  | succ limit ih =>
    by_cases hn : n = m
    · rw [follow, hn, hm]
    · rw [follow] at h
      rw [follow, hne n hn]
      split at h <;> simp only [reduceCtorEq, Resolution.absent.injEq] at h
      · exact (hn h).elim
      · exact ih h

lemma openTrunc_spec {fs' : FileSystem ν} (h : fs.openTrunc n = some (fd, fs')) :
    fs'.resolve n = .file fd.ino ∧ fd.offset = 0 ∧ fs'.data fd.ino = [] ∧
      (∀ i, i ≠ fd.ino → fs'.data i = fs.data i) ∧
      ∀ i, i < fs.next → (i = fd.ino ↔ fs.resolve n = .file i) := by
  unfold openTrunc at h
  split at h <;> rename_i hr <;> simp only [reduceCtorEq, Option.some.injEq, Prod.mk.injEq] at h <;>
    obtain ⟨rfl, rfl⟩ := h
  · refine ⟨resolve_update.trans hr, rfl, update_data_self, fun i hi => update_data_of_ne hi, fun i _ => ?_⟩
    simp [hr, eq_comm]
  · refine ⟨follow_create hr, rfl, Function.update_self .., fun i hi => Function.update_of_ne hi .., fun i hi => ?_⟩
    simp only [hr, reduceCtorEq, iff_false]
    omega

end FileSystem

end ApueCode.Posix
