import ApueCode.FileNames.Model

/-! What the programs leave of the names and the files that are there. -/

namespace ApueCode.FileNames

open Posix Transition Machine

variable {d e e' : Disk String} {v : Invocation} {vs : List Invocation} {n old new : String} {ino i : ℕ}

def Program.call : Program → String → String → Disk.Call String
  | .link follows => .link follows
  | .linkat MODE => .link MODE
  | .symlink ino => .symlink ino
  | .rename | .renameat => .rename

lemma run_cases (v : Invocation) (d : Disk String) :
    (v.run d).status = 0 ∧ (v.program.call (arg v.argv 1) (arg v.argv 2)).run d = .ok (v.run d).disk ∨
      (v.run d).status = EXIT_FAILURE ∧ (v.run d).disk = d := by
  have hmain : ∀ params name said (call : String → String → Disk.Call String) refused argv,
      (main params name said call refused d argv).status = 0 ∧
          (call (arg argv 1) (arg argv 2)).run d = .ok (main params name said call refused d argv).disk ∨
        (main params name said call refused d argv).status = EXIT_FAILURE ∧
          (main params name said call refused d argv).disk = d := by
    intro params name said call refused argv
    unfold main
    split
    · exact .inr ⟨rfl, rfl⟩
    · cases refused with
      | some text => exact .inr ⟨rfl, rfl⟩
      | none =>
        cases hc : (call (arg argv 1) (arg argv 2)).run d with
        | error e => exact .inr ⟨by simp, by simp⟩
        | ok d' => exact .inl ⟨by simp, by simp⟩
  cases hp : v.program <;> simp only [Invocation.run, hp] <;> apply hmain

lemma allowed_call {p : Program} (h : p.Allowed d) : (p.call old new).Allowed d := by
  cases p with
  | symlink ino => exact h
  | _ => trivial

lemma step_cases (hs : (machine d).step e v = some e') :
    v.program.Allowed e ∧ (e' = e ∨ (v.program.call (arg v.argv 1) (arg v.argv 2)).run e = .ok e') := by
  simp only [machine, Option.ite_none_right_eq_some, Option.some.injEq] at hs
  obtain ⟨ha, rfl⟩ := hs
  exact ⟨ha, (run_cases v e).elim (fun h => .inr h.2) fun h => .inl h.2⟩

def Invocation.Renames (n : String) (v : Invocation) : Prop :=
  (v.program = .rename ∨ v.program = .renameat) ∧ (n = arg v.argv 1 ∨ n = arg v.argv 2)

instance (n : String) (v : Invocation) : Decidable (v.Renames n) :=
  inferInstanceAs (Decidable ((v.program = .rename ∨ v.program = .renameat) ∧ (n = arg v.argv 1 ∨ n = arg v.argv 2)))

lemma not_displaces (h : ¬ v.Renames n) :
    ¬ (v.program.call (arg v.argv 1) (arg v.argv 2)).Displaces n := by
  unfold Invocation.Renames at h
  cases hp : v.program <;> simp_all [Program.call, Disk.Call.Displaces]

lemma not_changes (v : Invocation) (d : Disk String) :
    ¬ (v.program.call (arg v.argv 1) (arg v.argv 2)).Changes d i := by
  cases v.program <;> simp [Program.call, Disk.Call.Changes]

structure Names (d : Disk String) (n : String) (ino : ℕ) (inode : Option (Inode String)) : Prop where
  consistent : d.Consistent
  entry : d.entries n = some ino
  contents : d.inodes ino = inode

lemma names_step {inode : Option (Inode String)} :
    (machine d).Stable (fun _ w => ¬ w.Renames n) (fun e => Names e n ino inode) := by
  intro e w e' h hw hs
  obtain ⟨ha, rfl | hr⟩ := step_cases hs
  · exact h
  · have hc := h.consistent.run (allowed_call ha) hr
    have hn := Disk.entries_of_run hr (not_displaces hw) h.entry
    obtain ⟨x, hx⟩ := h.consistent.inode_of_entry h.entry
    obtain ⟨y, hy⟩ := hc.inode_of_entry hn
    have hkept := Disk.inodes_of_run (allowed_call ha) hr (not_changes w e) (i := ino) (by simp [hx]) (by simp [hy])
    exact ⟨hc, hn, hkept.trans h.contents⟩

def Program.follows : Program → Bool
  | .link follows => follows
  | .linkat MODE => MODE
  | .symlink _ | .rename | .renameat => false

lemma entry_of_rename (h : d.rename old new = .ok e) : ∃ ino, d.entries old = some ino ∧ e.entries new = some ino := by
  obtain ⟨ino, ho, ⟨hn, rfl⟩ | ⟨hn, rfl⟩ | ⟨i, hi, hn, rfl⟩⟩ := Disk.rename_cases h
  · exact ⟨ino, ho, hn⟩
  · have hne : new ≠ old := (Disk.ne_of_entries ho hn).symm
    exact ⟨ino, ho, by simp [Disk.addName, hne]⟩
  · have hne : new ≠ old := Disk.ne_of_inodes hn ho hi
    exact ⟨ino, ho, by simp [Disk.addName, hne]⟩

lemma entry_of_call {p : Program} (hp : ∀ ino, p ≠ .symlink ino) (h : (p.call old new).run d = .ok e) :
    ∃ ino, d.source p.follows old = .ok ino ∧ e.entries new = some ino := by
  have hlink : ∀ follows, d.link follows old new = .ok e →
      ∃ ino, d.source follows old = .ok ino ∧ e.entries new = some ino := by
    intro follows hl
    obtain ⟨ino, hs, -, rfl⟩ := Disk.link_eq_ok.mp hl
    exact ⟨ino, hs, by simp [Disk.addName]⟩
  have hrename : d.rename old new = .ok e → ∃ ino, d.source false old = .ok ino ∧ e.entries new = some ino := by
    simpa only [Disk.source_not_follows] using entry_of_rename
  cases p with
  | link follows => exact hlink follows h
  | linkat MODE => exact hlink MODE h
  | symlink ino => exact (hp ino rfl).elim
  | rename => exact hrename h
  | renameat => exact hrename h

/-- After `link`, `linkat`, `rename` or `renameat` has succeeded, the new name leads to what the program found under the
old one, with its contents, until the new name is renamed or replaced itself. -/
theorem name_kept (hd : d.Consistent) (hv : ∀ ino, v.program ≠ .symlink ino) (h : (v.run d).status = 0)
    (he : (machine d).exec (v.run d).disk vs = some e) (hk : ∀ w ∈ vs, ¬ w.Renames (arg v.argv 2)) :
    ∃ ino, d.source v.program.follows (arg v.argv 1) = .ok ino ∧ e.entries (arg v.argv 2) = some ino ∧
      e.inodes ino = d.inodes ino := by
  have hr : (v.program.call (arg v.argv 1) (arg v.argv 2)).run d = .ok (v.run d).disk := by
    rcases run_cases v d with ⟨-, hr⟩ | ⟨hs, -⟩
    · exact hr
    · cases hs.symm.trans h
  have ha : v.program.Allowed d := by
    cases hp : v.program with
    | symlink ino => exact (hv ino hp).elim
    | _ => trivial
  obtain ⟨ino, hs, hn⟩ := entry_of_call hv hr
  have hc := hd.run (allowed_call ha) hr
  obtain ⟨m, hm⟩ := Disk.entries_of_source hs
  obtain ⟨x, hx⟩ := hd.inode_of_entry hm
  obtain ⟨y, hy⟩ := hc.inode_of_entry hn
  have hi := Disk.inodes_of_run (allowed_call ha) hr (not_changes v d) (i := ino) (by simp [hx]) (by simp [hy])
  have hnames : Names e (arg v.argv 2) ino (d.inodes ino) :=
    names_step.exec (along_of_forall hk) he ⟨hc, hn, hi⟩
  exact ⟨ino, hs, hnames.entry, hnames.contents⟩

def linkedDisk : Disk String := ((Disk.empty 40).create "b" 1 (.file [NUL])).create "a" 2 (.symlink "b")

lemma linkedDisk_consistent : linkedDisk.Consistent :=
  (Disk.Consistent.empty.create rfl rfl).create (by decide) (by decide)

def renamingRun : List Invocation := [
  ⟨.rename, ["rename", "a", "d"], none⟩, ⟨.symlink 3, ["symlink", "d", "a"], none⟩]

theorem name_kept_renamingRun : ∃ e, (machine linkedDisk).exec
    (Invocation.run ⟨.link false, ["link", "a", "c"], none⟩ linkedDisk).disk renamingRun = some e ∧
    ∃ ino, linkedDisk.source false "a" = .ok ino ∧ e.entries "c" = some ino ∧
      e.inodes ino = linkedDisk.inodes ino := by
  obtain ⟨e, he, -⟩ := Option.map_eq_some_iff.mp (show
    ((machine linkedDisk).exec (Invocation.run ⟨.link false, ["link", "a", "c"], none⟩ linkedDisk).disk
      renamingRun).map (fun e => e.entries "d") = some (some 2) by decide +kernel)
  exact ⟨e, he, name_kept (v := ⟨.link false, ["link", "a", "c"], none⟩) linkedDisk_consistent (by simp)
    (by decide +kernel) he (by decide +kernel)⟩

end ApueCode.FileNames
