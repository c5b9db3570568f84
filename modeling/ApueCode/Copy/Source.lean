import ApueCode.Copy.Loop

/-! What becomes of the input file when the two names may lead to one file. -/

namespace ApueCode.Copy

open Posix Transition Machine

variable {ν : Type} [DecidableEq ν] {fs : FileSystem ν} {infile outfile : ν} {s t : State ν} {a : Action}
  {as : List Action} {i : ℕ}

def Pc.atOpenOut : Pc → Bool
  | .openOut _ => true
  | _ => false

def Spared (outfile : ν) (i : ℕ) (s : State ν) (a : Action) : Prop :=
  s.pc.atOpenOut = true → a = .open → s.fs.resolve outfile = .file i → s.fs.data i = []

instance (outfile : ν) (i : ℕ) (s : State ν) (a : Action) : Decidable (Spared outfile i s a) := by
  unfold Spared
  infer_instance

def Pc.Apart (fs : FileSystem ν) (i : ℕ) : Pc → FileSystem ν → Prop
  | .openIn, fs' => fs' = fs
  | .openOut ifd, fs' => fs' = fs ∧ ifd.ino = i
  | .read ifd ofd, _ => ifd.ino = i ∧ (ofd.ino = i → fs.data i = [])
  | .write ifd ofd _, _ => ifd.ino = i ∧ ofd.ino ≠ i
  | .exited _, _ => True

structure Safe (fs : FileSystem ν) (i : ℕ) (s : State ν) : Prop where
  kept : s.fs.data i = fs.data i
  apart : s.pc.Apart fs i s.fs

def Emptied (i : ℕ) (s : State ν) : Prop :=
  s.fs.data i = [] ∧ ((∃ ifd ofd, s.pc = .read ifd ofd ∧ ifd.ino = i) ∨ ∃ status, s.pc = .exited status)

lemma safe_step (hi : fs.resolve infile = .file i) (h : Safe fs i s) (ha : Spared outfile i s a)
    (hs : step infile outfile s a = some t) : Safe fs i t := by
  obtain ⟨hk, hapart⟩ := h
  cases effect_of_step hs with
  | opened ifd hp hopen =>
    rw [hp] at hapart
    obtain ⟨hr, -⟩ := FileSystem.openExisting_eq_some.mp hopen
    rw [show s.fs = fs from hapart, hi] at hr
    exact ⟨hk, hapart, (Resolution.file.inj hr).symm⟩
  | truncated ifd ofd fs' hp hopen =>
    rw [hp] at hapart
    obtain ⟨hfs, hsrc⟩ := hapart
    obtain ⟨-, -, he, hframe, hsame⟩ := FileSystem.openTrunc_spec hopen
    have hlt : i < s.fs.next := by
      rw [hfs]
      exact FileSystem.lt_next_of_resolve hi
    by_cases hc : i = ofd.ino
    · have hempty : s.fs.data i = [] := ha (by simp [hp, Pc.atOpenOut]) rfl ((hsame i hlt).mp hc)
      have hz : fs.data i = [] := hk ▸ hempty
      subst hc
      exact ⟨he.trans hz.symm, hsrc, fun _ => hz⟩
    · exact ⟨(hframe i hc).trans hk, hsrc, fun hc' => (hc hc'.symm).elim⟩
  | eof => exact ⟨hk, trivial⟩
  | filled ifd ofd n hp hn hl =>
    rw [hp] at hapart
    obtain ⟨hsrc, hsame⟩ := hapart
    refine ⟨hk, hsrc, fun hc => ?_⟩
    simp only [FileSystem.rest, hsrc, hk, hsame hc, List.drop_nil, List.length_nil] at hl
    omega
  | full ifd ofd buf hp =>
    rw [hp] at hapart
    obtain ⟨hsrc, hne⟩ := hapart
    exact ⟨(FileSystem.pwrite_data_of_ne hne.symm).trans hk, hsrc, fun hc => (hne hc).elim⟩
  | short ifd ofd buf n hp _ =>
    rw [hp] at hapart
    exact ⟨(FileSystem.pwrite_data_of_ne hapart.2.symm).trans hk, trivial⟩
  | notOpened | failed => exact ⟨hk, trivial⟩

lemma invariant_safe (hi : fs.resolve infile = .file i) :
    (machine fs infile outfile).Invariant (Spared outfile i) (Safe fs i) where
  base := by
    rintro s rfl
    exact ⟨rfl, rfl⟩
  step _ _ _ h ha hs := safe_step hi h ha hs

lemma emptied_stable :
    (machine fs infile outfile).Stable (fun _ _ => True) (fun s => fs.data i ≠ [] ∧ Emptied i s) := by
  rintro s a t ⟨hne, hd, ⟨ifd, ofd, hp, hsrc⟩ | ⟨status, hp⟩⟩ - hs
  · have hs' := effect_of_step hs
    cases hs' with
    | opened _ hp' | truncated _ _ _ hp' | full _ _ _ hp' | short _ _ _ _ hp' => simp [hp] at hp'
    | eof => exact ⟨hne, hd, .inr ⟨0, rfl⟩⟩
    | filled ifd' ofd' n hp' hn hl =>
      obtain ⟨rfl, rfl⟩ := Pc.read.inj (hp.symm.trans hp')
      simp only [FileSystem.rest, hsrc, hd, List.drop_nil, List.length_nil] at hl
      omega
    | notOpened | failed => exact ⟨hne, hd, .inr ⟨EXIT_FAILURE, rfl⟩⟩
  · cases a <;> simp [machine, step, hp] at hs

lemma emptied_of_not_spared (h : Safe fs i s) (ha : ¬ Spared outfile i s a)
    (hs : step infile outfile s a = some t) : fs.data i ≠ [] ∧ Emptied i t := by
  simp only [Spared, Classical.not_imp] at ha
  obtain ⟨hat, rfl, hr, hne⟩ := ha
  obtain ⟨hk, hapart⟩ := h
  cases hp : s.pc <;> simp only [hp, Pc.atOpenOut, Bool.false_eq_true] at hat
  rename_i ifd
  rw [hp] at hapart
  simp only [step, hp, FileSystem.openTrunc, hr, Option.map_some, Option.some.injEq] at hs
  subst hs
  exact ⟨hk ▸ hne, FileSystem.update_data_self, .inl ⟨ifd, ⟨i, 0⟩, rfl, hapart.2⟩⟩

/-- The file that `infile` names keeps its content in exactly the runs in which the second `open` finds
another file, or that file empty. -/
theorem source_kept_iff (hi : fs.resolve infile = .file i)
    (he : (machine fs infile outfile).exec (start fs) as = some s) :
    s.fs.data i = fs.data i ↔ (machine fs infile outfile).Along (Spared outfile i) (start fs) as := by
  constructor
  · intro hk
    by_contra hb
    obtain ⟨hne, hd, -⟩ :=
      (invariant_safe hi).broken (fun _ _ _ => emptied_of_not_spared) emptied_stable rfl he hb
    exact hne (hk ▸ hd)
  · intro ha
    exact ((invariant_safe hi).exec rfl ha he).kept

theorem source_kept_iff_linked : ∃ s, (machine linked 0 2).exec (start linked) copyRun = some s ∧
    s.fs.data 0 = linked.data 0 := by
  have hd : ((machine linked 0 2).exec (start linked) copyRun).isSome = true := by decide
  obtain ⟨s, hs⟩ := Option.isSome_iff_exists.mp hd
  have hr : linked.resolve 0 = .file 0 := by decide
  exact ⟨s, hs, (source_kept_iff hr hs).mpr (by decide)⟩

theorem source_lost : ¬ ∀ (fs : FileSystem ℕ) (infile outfile i : ℕ) (as : List Action) (s : State ℕ) (status : ℕ),
    fs.resolve infile = .file i → (machine fs infile outfile).exec (start fs) as = some s →
    s.pc = .exited status → s.fs.data i = fs.data i := by
  intro h
  have hd : ((machine linked 0 1).exec (start linked) [.open, .open, .read 0]).map (fun s => (s.pc, s.fs.data 0)) =
      some (.exited 0, []) := by decide
  obtain ⟨s, hs, hd⟩ := Option.map_eq_some_iff.mp hd
  obtain ⟨hp, hz⟩ := Prod.mk.inj hd
  have hk := h linked 0 1 0 _ s 0 (by decide) hs hp
  rw [hz] at hk
  exact absurd hk (by decide)

end ApueCode.Copy
