import ApueCode.FileStat.Model

/-! What can be read off the line. -/

namespace ApueCode.FileStat

open Posix

variable {a b : Stat} {m n : ℕ} {rest rest' : List Char}

def types : List Mode := [S_IFREG, S_IFLNK, S_IFDIR, S_IFCHR, S_IFBLK, S_IFIFO, S_IFSOCK]

def bits : List Mode := [S_IRUSR, S_IWUSR, S_IXUSR, S_IRGRP, S_IWGRP, S_IXGRP, S_IROTH, S_IWOTH, S_IXOTH,
  S_ISUID, S_ISGID, S_ISVTX]

structure Agree (hidden : List Mode) (a b : Stat) : Prop where
  st_ino : a.st_ino = b.st_ino
  type : a.type = b.type
  bits : ∀ bit ∈ bits, bit ∉ hidden → a.has bit = b.has bit
  st_nlink : a.st_nlink = b.st_nlink
  st_uid : a.st_uid = b.st_uid
  st_gid : a.st_gid = b.st_gid
  st_size : a.st_size = b.st_size

def Stat.stickyExec (buf : Stat) : Bool := buf.has S_IXOTH && buf.has S_ISVTX

lemma typeChar_inj (ha : a.type ∈ types) (hb : b.type ∈ types) :
    typeChar a.type = typeChar b.type ↔ a.type = b.type := by
  have hn : (types.map typeChar).Nodup := by decide
  exact ⟨fun h => List.inj_on_of_nodup_map hn ha hb h, congrArg typeChar⟩

lemma bitChar_inj {c : Char} (hc : c ≠ '-') {x y : Bool} : bitChar c x = bitChar c y ↔ x = y := by
  cases x <;> cases y <;> simp [bitChar, hc, hc.symm]

lemma execChar_inj {x s x' s' : Bool} : execChar x s = execChar x' s' ↔ x = x' ∧ s = s' := by
  revert x s x' s'
  decide

lemma otherExecChar_eq_iff {x t x' t' : Bool} : otherExecChar x t = otherExecChar x' t' ↔ (x && t) = (x' && t') := by
  revert x t x' t'
  decide

lemma field_append_inj : field m ++ rest = field n ++ rest' ↔ m = n ∧ rest = rest' := by
  constructor
  · intro h
    simp only [field, List.cons_append, List.append_assoc, List.nil_append, List.cons.injEq, true_and] at h
    obtain ⟨hn, hr⟩ := decimal_append_inj (noDigit_cons rfl) (noDigit_cons rfl) h
    exact ⟨hn, (List.cons.inj hr).2⟩
  · rintro ⟨rfl, rfl⟩
    rfl

lemma permissions_eq_iff : permissions a = permissions b ↔
    (∀ bit ∈ bits, bit ∉ [S_IXOTH, S_ISVTX] → a.has bit = b.has bit) ∧ a.stickyExec = b.stickyExec := by
  have hr : 'r' ≠ '-' := by decide
  have hw : 'w' ≠ '-' := by decide
  have hshown : bits.filter (· ∉ [S_IXOTH, S_ISVTX]) = [S_IRUSR, S_IWUSR, S_IXUSR, S_IRGRP, S_IWGRP, S_IXGRP, S_IROTH,
      S_IWOTH, S_ISUID, S_ISGID] := by decide
  have hfilter : (∀ bit ∈ bits, bit ∉ [S_IXOTH, S_ISVTX] → a.has bit = b.has bit) ↔
      ∀ bit ∈ bits.filter (· ∉ [S_IXOTH, S_ISVTX]), a.has bit = b.has bit := by
    simp only [List.mem_filter, decide_eq_true_eq, and_imp]
  rw [hfilter, hshown]
  simp only [permissions, List.cons.injEq, bitChar_inj hr, bitChar_inj hw, execChar_inj, otherExecChar_eq_iff, and_true,
    List.forall_mem_cons, List.not_mem_nil, IsEmpty.forall_iff, implies_true, Stat.stickyExec]
  tauto

lemma line_eq_iff (ha : a.type ∈ types) (hb : b.type ∈ types) :
    line a = line b ↔ Agree [S_IXOTH, S_ISVTX] a b ∧ a.stickyExec = b.stickyExec := by
  constructor
  · intro h
    simp only [line, List.append_assoc, List.cons_append, List.nil_append] at h
    obtain ⟨hino, h⟩ := decimal_append_inj (noDigit_cons rfl) (noDigit_cons rfl) h
    obtain ⟨htype, h⟩ := List.cons.inj (List.cons.inj h).2
    obtain ⟨hperm, h⟩ := List.append_inj h rfl
    obtain ⟨hnlink, h⟩ := field_append_inj.mp (List.cons.inj h).2
    obtain ⟨huid, h⟩ := field_append_inj.mp h
    obtain ⟨hgid, h⟩ := field_append_inj.mp h
    obtain ⟨hsize, -⟩ := field_append_inj.mp h
    obtain ⟨hbits, hsticky⟩ := permissions_eq_iff.mp hperm
    exact ⟨{
      st_ino := BitVec.toNat_inj.mp hino
      type := (typeChar_inj ha hb).mp htype
      bits := hbits
      st_nlink := BitVec.toNat_inj.mp hnlink
      st_uid := BitVec.toNat_inj.mp huid
      st_gid := BitVec.toNat_inj.mp hgid
      st_size := BitVec.toNat_inj.mp hsize }, hsticky⟩
  · rintro ⟨h, hsticky⟩
    rw [line, line, h.st_ino, h.type, h.st_nlink, h.st_uid, h.st_gid, h.st_size,
      permissions_eq_iff.mpr ⟨h.bits, hsticky⟩]

def Merged (a b : Stat) : Prop :=
  Agree [S_IXOTH, S_ISVTX] a b ∧ (a.has S_IXOTH ≠ b.has S_IXOTH ∨ a.has S_ISVTX ≠ b.has S_ISVTX) ∧
    a.stickyExec = false ∧ b.stickyExec = false

lemma agree_nil_iff : Agree [] a b ↔ Agree [S_IXOTH, S_ISVTX] a b ∧ a.has S_IXOTH = b.has S_IXOTH ∧
    a.has S_ISVTX = b.has S_ISVTX := by
  constructor
  · intro h
    exact ⟨{ h with bits := fun bit hb _ => h.bits bit hb (by simp) }, h.bits S_IXOTH (by simp [bits]) (by simp),
      h.bits S_ISVTX (by simp [bits]) (by simp)⟩
  · rintro ⟨h, hx, ht⟩
    refine { h with bits := fun bit hb _ => ?_ }
    by_cases hbit : bit ∈ [S_IXOTH, S_ISVTX]
    · rcases List.mem_pair.mp hbit with rfl | rfl
      · exact hx
      · exact ht
    · exact h.bits bit hb hbit

/-- The line of a file of one of the seven types determines what it is to say, unless the file can be merged
with another one. -/
theorem decodable_iff (ha : a.type ∈ types) (hb : b.type ∈ types) :
    (line a = line b → Agree [] a b) ↔ ¬ Merged a b := by
  rw [line_eq_iff ha hb, agree_nil_iff, Merged, Stat.stickyExec, Stat.stickyExec]
  by_cases h : Agree [S_IXOTH, S_ISVTX] a b
  · simp only [h, true_and]
    cases a.has S_IXOTH <;> cases a.has S_ISVTX <;> cases b.has S_IXOTH <;> cases b.has S_ISVTX <;> simp
  · simp [h]

def regular (mode : Mode) : Stat := ⟨1, S_IFREG ||| mode, 1, 0, 0, 0⟩

theorem decodable_iff_regular : ¬ Merged (regular 0o644) (regular 0o4755) :=
  (decodable_iff (by decide) (by decide)).mp fun hl => absurd hl (by decide)

theorem line_ambiguous : ¬ ∀ a b, a.type ∈ types → b.type ∈ types → line a = line b → Agree [] a b := by
  intro h
  have hl : line (regular 0o644) = line (regular 0o645) := by decide
  have hx := (h _ _ (by decide) (by decide) hl).bits S_IXOTH (by decide) (by decide)
  exact absurd hx (by decide)

end ApueCode.FileStat
