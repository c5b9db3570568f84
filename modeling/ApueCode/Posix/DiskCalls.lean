import ApueCode.Posix.Disk

/-! What a process can do to a disk by its system calls, and what each call leaves as it is. -/

namespace ApueCode.Posix.Disk

variable {ν : Type}

inductive Call (ν : Type)
  | link (follows : Bool) (old new : ν)
  | symlink (ino : ℕ) (target new : ν)
  | rename (old new : ν)
  | unlink (n : ν)
  | openTrunc (ino : ℕ) (n : ν)
  | openExisting (n : ν)
  | close (ino : ℕ)
  | write (ino : ℕ) (data : List Byte)

namespace Call

def Allowed (d : Disk ν) : Call ν → Prop
  | .symlink ino _ _ | .openTrunc ino _ => d.inodes ino = none
  | .close ino | .write ino _ => 0 < d.opens ino
  | .link _ _ _ | .rename _ _ | .unlink _ | .openExisting _ => True

instance (d : Disk ν) (c : Call ν) : Decidable (c.Allowed d) :=
  match c with
  | .symlink ino _ _ | .openTrunc ino _ => inferInstanceAs (Decidable (d.inodes ino = none))
  | .close ino | .write ino _ => inferInstanceAs (Decidable (0 < d.opens ino))
  | .link _ _ _ | .rename _ _ | .unlink _ | .openExisting _ => inferInstanceAs (Decidable True)

def Changes (d : Disk ν) (ino : ℕ) : Call ν → Prop
  | .write i _ => i = ino
  | .openTrunc _ n => d.resolve n = .file ino
  | _ => False

def Displaces (n : ν) : Call ν → Prop
  | .rename old new => n = old ∨ n = new
  | .unlink m => n = m
  | _ => False

variable [DecidableEq ν]

instance (d : Disk ν) (ino : ℕ) (c : Call ν) : Decidable (c.Changes d ino) :=
  match c with
  | .write i _ => inferInstanceAs (Decidable (i = ino))
  | .openTrunc _ n => inferInstanceAs (Decidable (d.resolve n = .file ino))
  | .link _ _ _ | .symlink _ _ _ | .rename _ _ | .unlink _ | .openExisting _ | .close _ =>
    inferInstanceAs (Decidable False)

instance (n : ν) (c : Call ν) : Decidable (c.Displaces n) :=
  match c with
  | .rename old new => inferInstanceAs (Decidable (n = old ∨ n = new))
  | .unlink m => inferInstanceAs (Decidable (n = m))
  | .link _ _ _ | .symlink _ _ _ | .openTrunc _ _ | .openExisting _ | .close _ | .write _ _ =>
    inferInstanceAs (Decidable False)

def run (d : Disk ν) : Call ν → Except Errno (Disk ν)
  | .link follows old new => d.link follows old new
  | .symlink ino target new => d.symlink ino target new
  | .rename old new => d.rename old new
  | .unlink n => d.unlink n
  | .openTrunc ino n => (d.openTrunc ino n).map Prod.snd
  | .openExisting n => d.openExisting n
  | .close ino => .ok (d.close ino)
  | .write ino data => .ok (d.store ino (.file data))

end Call

variable {d d' : Disk ν} {n m old new target : ν} {ino i limit : ℕ} {inode : Inode ν} {follows : Bool}
  {data : List Byte} {c : Call ν}

lemma entries_of_source (h : d.source follows old = .ok ino) : ∃ n, d.entries n = some ino := by
  unfold source at h
  split at h
  · split at h <;> simp only [reduceCtorEq, Except.ok.injEq] at h
    rename_i hr
    exact h ▸ entries_of_follow hr
  · split at h <;> simp only [reduceCtorEq, Except.ok.injEq] at h
    exact ⟨old, by simp_all⟩

lemma source_not_follows : d.source false old = .ok ino ↔ d.entries old = some ino := by
  unfold source
  cases d.entries old <;> simp

lemma ne_of_entries (hn : d.entries n = some i) (hm : d.entries m = none) : n ≠ m := by
  rintro rfl
  simp [hn] at hm

lemma ne_of_inodes (hn : d.entries n = some i) (hm : d.entries m = some ino) (hi : i ≠ ino) : n ≠ m := by
  rintro rfl
  exact hi (Option.some.inj (hn.symm.trans hm))

lemma openExisting_eq_ok : d.openExisting n = .ok d' ↔ ∃ i, d.resolve n = .file i ∧ d' = d.openFile i := by
  unfold openExisting
  cases d.resolve n <;> simp [eq_comm]

lemma Consistent.openExisting (hd : d.Consistent) (h : d.openExisting n = .ok d') : d'.Consistent := by
  obtain ⟨i, hr, rfl⟩ := openExisting_eq_ok.mp h
  obtain ⟨k, hk⟩ := entries_of_follow hr
  obtain ⟨inode, hi⟩ := hd.inode_of_entry hk
  exact hd.openFile hi

lemma opens_openFile {k : ℕ} : d.opens i ≤ (d.openFile k).opens i := by
  by_cases hk : i = k <;> simp [openFile, hk]

section

variable [DecidableEq ν]

lemma link_eq_ok : d.link follows old new = .ok d' ↔
    ∃ ino, d.source follows old = .ok ino ∧ d.entries new = none ∧ d' = d.addName new ino := by
  unfold link
  cases d.source follows old with
  | error e => simp
  | ok ino =>
    by_cases hn : d.entries new = none
    · simp [hn, eq_comm]
    · simp [hn]

lemma symlink_eq_ok : d.symlink ino target new = .ok d' ↔
    d.entries new = none ∧ d' = d.create new ino (.symlink target) := by
  unfold symlink
  split
  · simp_all [eq_comm]
  · simp_all

lemma unlink_eq_ok : d.unlink n = .ok d' ↔ ∃ ino, d.entries n = some ino ∧ d' = d.dropName n ino := by
  unfold unlink
  cases d.entries n <;> simp [eq_comm]

lemma rename_cases (h : d.rename old new = .ok d') : ∃ ino, d.entries old = some ino ∧
    (d.entries new = some ino ∧ d' = d ∨
      d.entries new = none ∧ d' = (d.addName new ino).dropName old ino ∨
      ∃ i, i ≠ ino ∧ d.entries new = some i ∧ d' = ((d.dropName new i).addName new ino).dropName old ino) := by
  unfold rename at h
  cases ho : d.entries old with
  | none => simp [ho] at h
  | some ino =>
    refine ⟨ino, rfl, ?_⟩
    cases hn : d.entries new with
    | none => simp_all [eq_comm]
    | some i =>
      simp only [ho, hn] at h
      split at h
      · simp_all
      · right; right
        exact ⟨i, by assumption, rfl, by simpa [eq_comm] using h⟩

lemma openTrunc_eq_ok (h : d.openTrunc ino n = .ok (i, d')) :
    d.resolve n = .file i ∧ d' = (d.store i (.file [])).openFile i ∨
      ∃ m, d.resolve n = .absent m ∧ i = ino ∧ d' = (d.create m ino (.file [])).openFile ino := by
  unfold openTrunc at h
  split at h <;> simp only [reduceCtorEq, Except.ok.injEq, Prod.mk.injEq] at h <;> obtain ⟨rfl, rfl⟩ := h
  · exact .inl ⟨by assumption, rfl⟩
  · exact .inr ⟨_, by assumption, rfl, rfl⟩

lemma openTrunc_of_run (h : (Call.openTrunc ino n).run d = .ok d') : ∃ i, d.openTrunc ino n = .ok (i, d') := by
  cases hr : d.openTrunc ino n with
  | error e => simp [Call.run, hr, Except.map] at h
  | ok r =>
    simp only [Call.run, hr, Except.map, Except.ok.injEq] at h
    exact ⟨r.1, h ▸ rfl⟩

namespace Consistent

lemma openTrunc (hd : d.Consistent) (hi : d.inodes ino = none) (h : d.openTrunc ino n = .ok (i, d')) :
    d'.Consistent := by
  rcases openTrunc_eq_ok h with ⟨hr, rfl⟩ | ⟨m, hr, rfl, rfl⟩
  · obtain ⟨k, hk⟩ := entries_of_follow hr
    obtain ⟨inode, hn⟩ := hd.inode_of_entry hk
    have hs : (d.store i (.file [])).Consistent := hd.store (by simp [hn])
    have hi' : (d.store i (.file [])).inodes i = some (.file []) := by simp [Disk.store]
    exact hs.openFile hi'
  · have hc : (d.create m i (.file [])).Consistent := hd.create (absent_of_follow hr) hi
    have hi' : (d.create m i (.file [])).inodes i = some (.file []) := by
      simp [Disk.create, Disk.addName, Disk.store]
    exact hc.openFile hi'

lemma rename (hd : d.Consistent) (h : d.rename old new = .ok d') : d'.Consistent := by
  obtain ⟨ino, ho, ⟨-, rfl⟩ | ⟨hn, rfl⟩ | ⟨i, hi, hn, rfl⟩⟩ := rename_cases h
  · exact hd
  · have hne : old ≠ new := ne_of_entries ho hn
    obtain ⟨inode, hino⟩ := hd.inode_of_entry ho
    exact (hd.addName hn (by simp [hino])).dropName (by simpa [Disk.addName, hne] using ho)
  · have hne : old ≠ new := (ne_of_inodes hn ho hi).symm
    have hdrop := hd.dropName hn
    have hod : (d.dropName new i).entries old = some ino := by simpa [Disk.dropName, hne] using ho
    obtain ⟨inode, hino⟩ := hdrop.inode_of_entry hod
    have hadd : ((d.dropName new i).addName new ino).Consistent :=
      hdrop.addName (by simp [Disk.dropName]) (by simp [hino])
    exact hadd.dropName (by simpa [Disk.addName, hne] using hod)

lemma run (hd : d.Consistent) (ha : c.Allowed d) (h : c.run d = .ok d') : d'.Consistent := by
  cases c with
  | link follows old new =>
    obtain ⟨ino, hs, hn, rfl⟩ := link_eq_ok.mp h
    obtain ⟨m, hm⟩ := entries_of_source hs
    obtain ⟨inode, hi⟩ := hd.inode_of_entry hm
    exact hd.addName hn (by simp [hi])
  | symlink ino target new =>
    obtain ⟨hn, rfl⟩ := symlink_eq_ok.mp h
    exact hd.create hn ha
  | rename old new => exact hd.rename h
  | unlink n =>
    obtain ⟨ino, hn, rfl⟩ := unlink_eq_ok.mp h
    exact hd.dropName hn
  | openTrunc ino n =>
    obtain ⟨i, ho⟩ := openTrunc_of_run h
    exact hd.openTrunc ha ho
  | openExisting n => exact hd.openExisting h
  | close ino =>
    simp only [Call.run, Except.ok.injEq] at h
    exact h ▸ hd.close ha
  | write ino data =>
    simp only [Call.run, Except.ok.injEq] at h
    obtain ⟨inode, hi⟩ := hd.inode_of_opens ha
    exact h ▸ hd.store (by simp [hi])

end Consistent

lemma dropName_inodes (hi : (d.dropName n ino).inodes i ≠ none) : (d.dropName n ino).inodes i = d.inodes i := by
  rw [dropName, release_inodes] at hi ⊢
  split at hi
  · exact (hi rfl).elim
  · rw [if_neg (by assumption)]

lemma inodes_of_run (ha : c.Allowed d) (h : c.run d = .ok d') (hc : ¬ c.Changes d i) (hi : d.inodes i ≠ none)
    (hi' : d'.inodes i ≠ none) : d'.inodes i = d.inodes i := by
  cases c with
  | link follows old new =>
    obtain ⟨ino, hs, hn, rfl⟩ := link_eq_ok.mp h
    rfl
  | symlink ino target new =>
    obtain ⟨hn, rfl⟩ := symlink_eq_ok.mp h
    have hne : i ≠ ino := fun he => hi (he ▸ ha)
    simp [create, addName, store, hne]
  | rename old new =>
    obtain ⟨ino, hold, ⟨-, rfl⟩ | ⟨hn, rfl⟩ | ⟨j, hj, hn, rfl⟩⟩ := rename_cases h
    · rfl
    · exact dropName_inodes hi'
    · have hadd := dropName_inodes hi'
      rw [hadd] at hi' ⊢
      exact dropName_inodes hi'
  | unlink n =>
    obtain ⟨ino, hn, rfl⟩ := unlink_eq_ok.mp h
    exact dropName_inodes hi'
  | openTrunc ino n =>
    obtain ⟨k, ho⟩ := openTrunc_of_run h
    rcases openTrunc_eq_ok ho with ⟨hres, rfl⟩ | ⟨m, hres, rfl, rfl⟩
    · have hne : i ≠ k := fun he => hc (he ▸ hres)
      simp [openFile, store, hne]
    · have hne : i ≠ k := fun he => hi (he ▸ ha)
      simp [openFile, create, addName, store, hne]
  | openExisting n =>
    obtain ⟨j, -, rfl⟩ := openExisting_eq_ok.mp h
    rfl
  | close ino =>
    simp only [Call.run, Except.ok.injEq] at h
    subst h
    rw [close, release_inodes] at hi' ⊢
    split at hi'
    · exact (hi' rfl).elim
    · rw [if_neg (by assumption)]
  | write ino data =>
    simp only [Call.run, Except.ok.injEq] at h
    have hne : i ≠ ino := fun he => hc he.symm
    simp [← h, store, hne]

@[simp] lemma dropName_entries : (d.dropName n ino).entries = Function.update d.entries n none := release_entries

lemma entries_of_run (h : c.run d = .ok d') (hc : ¬ c.Displaces n) (hn : d.entries n = some i) :
    d'.entries n = some i := by
  cases c with
  | link follows old new =>
    obtain ⟨ino, hs, hnew, rfl⟩ := link_eq_ok.mp h
    simp [addName, ne_of_entries hn hnew, hn]
  | symlink ino target new =>
    obtain ⟨hnew, rfl⟩ := symlink_eq_ok.mp h
    simp [create, addName, store, ne_of_entries hn hnew, hn]
  | rename old new =>
    obtain ⟨hold, hnew⟩ := not_or.mp hc
    obtain ⟨ino, -, ⟨-, rfl⟩ | ⟨-, rfl⟩ | ⟨j, -, -, rfl⟩⟩ := rename_cases h
    · exact hn
    · simp [addName, hold, hnew, hn]
    · simp [addName, hold, hnew, hn]
  | unlink m =>
    obtain ⟨ino, -, rfl⟩ := unlink_eq_ok.mp h
    have hm : n ≠ m := hc
    simp [hm, hn]
  | openTrunc ino m =>
    obtain ⟨j, ho⟩ := openTrunc_of_run h
    rcases openTrunc_eq_ok ho with ⟨-, rfl⟩ | ⟨k, hk, rfl, rfl⟩
    · simp [openFile, store, hn]
    · simp [openFile, create, addName, store, ne_of_entries hn (absent_of_follow hk), hn]
  | openExisting m =>
    obtain ⟨j, -, rfl⟩ := openExisting_eq_ok.mp h
    exact hn
  | close ino =>
    simp only [Call.run, Except.ok.injEq] at h
    simpa [← h, close] using hn
  | write ino data =>
    simp only [Call.run, Except.ok.injEq] at h
    simpa [← h, store] using hn

lemma opens_of_run (h : c.run d = .ok d') (hc : c ≠ .close i) : d.opens i ≤ d'.opens i := by
  cases c with
  | link follows old new =>
    obtain ⟨ino, -, -, rfl⟩ := link_eq_ok.mp h
    exact le_rfl
  | symlink ino target new =>
    obtain ⟨-, rfl⟩ := symlink_eq_ok.mp h
    exact le_rfl
  | rename old new =>
    obtain ⟨ino, -, ⟨-, rfl⟩ | ⟨-, rfl⟩ | ⟨j, -, -, rfl⟩⟩ := rename_cases h
    · exact le_rfl
    · simp [dropName, addName]
    · simp [dropName, addName]
  | unlink m =>
    obtain ⟨ino, -, rfl⟩ := unlink_eq_ok.mp h
    simp [dropName]
  | openTrunc ino m =>
    obtain ⟨j, ho⟩ := openTrunc_of_run h
    rcases openTrunc_eq_ok ho with ⟨-, rfl⟩ | ⟨k, -, -, rfl⟩ <;> exact opens_openFile
  | openExisting m =>
    obtain ⟨j, -, rfl⟩ := openExisting_eq_ok.mp h
    exact opens_openFile
  | close ino =>
    simp only [Call.run, Except.ok.injEq] at h
    have hne : i ≠ ino := by
      rintro rfl
      exact hc rfl
    simp [← h, close, hne]
  | write ino data =>
    simp only [Call.run, Except.ok.injEq] at h
    simp [← h, store]

lemma file_of_run (ha : c.Allowed d) (h : c.run d = .ok d') (hi : d.inodes i = some (.file data))
    (hi' : d'.inodes i ≠ none) : ∃ data, d'.inodes i = some (.file data) := by
  by_cases hc : c.Changes d i
  · cases c with
    | write ino data =>
      obtain rfl : ino = i := hc
      simp only [Call.run, Except.ok.injEq] at h
      exact ⟨data, by simp [← h, store]⟩
    | openTrunc ino n =>
      have hres : d.resolve n = .file i := hc
      simp only [Call.run, openTrunc, hres, Except.map, Except.ok.injEq] at h
      exact ⟨[], by simp [← h, openFile, store]⟩
    | _ => exact hc.elim
  · exact ⟨data, (inodes_of_run ha h hc (by simp [hi]) hi').trans hi⟩

namespace Consistent

lemma file_of_run (hd : d.Consistent) (ha : c.Allowed d) (h : c.run d = .ok d') (hi : d.inodes i = some (.file data))
    (ho : 0 < d'.opens i) : ∃ data, d'.inodes i = some (.file data) := by
  obtain ⟨x, hx⟩ := (hd.run ha h).inode_of_opens ho
  exact Disk.file_of_run ha h hi (by simp [hx])

lemma inodes_of_run (hd : d.Consistent) (ha : c.Allowed d) (h : c.run d = .ok d') (hc : ¬ c.Changes d i)
    (ho : 0 < d.opens i) (ho' : 0 < d'.opens i) : d'.inodes i = d.inodes i := by
  obtain ⟨x, hx⟩ := hd.inode_of_opens ho
  obtain ⟨y, hy⟩ := (hd.run ha h).inode_of_opens ho'
  exact Disk.inodes_of_run ha h hc (by simp [hx]) (by simp [hy])

end Consistent

end

end ApueCode.Posix.Disk
