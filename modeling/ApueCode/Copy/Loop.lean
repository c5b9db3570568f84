import ApueCode.Copy.Model
import ApueCode.Transition.Relay
import ApueCode.Transition.Simulation

/-! The loop between two different files: how much has been copied when the program exits. -/

namespace ApueCode.Copy

open Posix Transition Machine

variable {ν : Type} {fs : FileSystem ν} {infile outfile : ν} {s t : State ν} {a : Action} {as : List Action}
  {i n : ℕ} {ifd ofd : OpenFile} {r : Relay Byte}

def Output (fs : FileSystem ν) (outfile : ν) (i : ℕ) (s : State ν) (status : ℕ) : Prop :=
  ∃ o, s.fs.resolve outfile = .file o ∧ o ≠ i ∧ s.fs.data o <+: fs.data i ∧
    (status = 0 → s.fs.data o = fs.data i)

def Opens (s : State ν) (a : Action) : Prop := s.pc.opening = true → a ≠ .fail

def Full (s : State ν) (a : Action) : Prop :=
  a ≠ .fail ∧ ∀ ifd ofd buf, s.pc = .write ifd ofd buf → a = .write buf.length

structure Copying (fs : FileSystem ν) (outfile : ν) (i : ℕ) (s : State ν) (ifd ofd : OpenFile) (r : Relay Byte) :
    Prop where
  source : ifd.ino = i
  apart : ofd.ino ≠ i
  named : s.fs.resolve outfile = .file ofd.ino
  kept : s.fs.data i = fs.data i
  sent : s.fs.data ofd.ino = r.sent
  rest : (fs.data i).drop ifd.offset = r.rest
  position : (s.fs.data ofd.ino).length = ofd.offset

def Exited (outfile : ν) (i : ℕ) (s : State ν) (status : ℕ) (r : Relay Byte) : Prop :=
  ∃ o, s.fs.resolve outfile = .file o ∧ o ≠ i ∧ s.fs.data o = r.sent ∧ (status = 0 → r.buffer = [] ∧ r.rest = [])

def Relays (fs : FileSystem ν) (outfile : ν) (i : ℕ) (s : State ν) (r : Relay Byte) : Prop :=
  match s.pc with
  | .openIn => s.fs = fs ∧ r = ⟨[], [], fs.data i⟩
  | .openOut ifd => s.fs = fs ∧ ifd.ino = i ∧ ifd.offset = 0 ∧ r = ⟨[], [], fs.data i⟩
  | .read ifd ofd => Copying fs outfile i s ifd ofd r ∧ r.buffer = []
  | .write ifd ofd buf => Copying fs outfile i s ifd ofd r ∧ r.buffer = buf
  | .exited status => Exited outfile i s status r

lemma Copying.rest_eq (h : Copying fs outfile i s ifd ofd r) : s.fs.rest ifd = r.rest := by
  rw [FileSystem.rest, h.source, h.kept, h.rest]

lemma Copying.fill (h : Copying fs outfile i s ifd ofd r) (n : ℕ) {t : State ν} (ht : t.fs = s.fs) :
    Copying fs outfile i t { ifd with offset := ifd.offset + n } ofd (r.fill n) where
  source := h.source
  apart := h.apart
  named := by rw [ht, h.named]
  kept := by rw [ht, h.kept]
  sent := by rw [ht, h.sent, Relay.fill]
  rest := by rw [Relay.fill, ← h.rest, List.drop_drop]
  position := by rw [ht, h.position]

lemma Copying.pass (h : Copying fs outfile i s ifd ofd r) (hn : n ≤ r.buffer.length) {t : State ν}
    (ht : t.fs = s.fs.pwrite ofd (r.buffer.take n)) :
    Copying fs outfile i t ifd { ofd with offset := ofd.offset + n } (r.pass n) := by
  rw [FileSystem.pwrite_end h.position] at ht
  exact {
    source := h.source
    apart := h.apart
    named := by rw [ht, FileSystem.resolve_update, h.named]
    kept := by rw [ht, FileSystem.update_data_of_ne h.apart.symm, h.kept]
    sent := by rw [ht, FileSystem.update_data_self, h.sent, Relay.pass]
    rest := h.rest
    position := by
      rw [ht, FileSystem.update_data_self, List.length_append, h.position, List.length_take, Nat.min_eq_left hn] }

lemma Copying.exited (h : Copying fs outfile i s ifd ofd r) (msg : String) :
    Exited outfile i (s.perror msg) EXIT_FAILURE r :=
  ⟨ofd.ino, h.named, h.apart, h.sent, fun he => by cases he⟩

lemma output_of_exited {status : ℕ} (hr : r.whole = fs.data i) (h : Exited outfile i s status r) :
    Output fs outfile i s status := by
  obtain ⟨o, hn, ho, hs, hz⟩ := h
  refine ⟨o, hn, ho, ?_, fun he => ?_⟩
  · rw [hs, ← hr]
    exact Relay.sent_prefix
  · rw [hs, ← hr]
    exact Relay.sent_eq_whole (hz he).1 (hz he).2

variable [DecidableEq ν]

lemma relays_step (hi : fs.resolve infile = .file i) (ho : fs.resolve outfile ≠ .file i)
    (h : Relays fs outfile i s r) (ha : Opens s a) (hs : step infile outfile s a = some t) :
    ∃ moves r', (relay (fs.data i)).exec r moves = some r' ∧ Relays fs outfile i t r' := by
  cases effect_of_step hs with
  | opened ifd hp hopen =>
    rw [Relays, hp] at h
    obtain ⟨hfs, hr⟩ := h
    obtain ⟨hres, hz⟩ := FileSystem.openExisting_eq_some.mp hopen
    rw [hfs, hi] at hres
    exact ⟨[], r, rfl, hfs, (Resolution.file.inj hres).symm, hz, hr⟩
  | truncated ifd ofd fs' hp hopen =>
    rw [Relays, hp] at h
    obtain ⟨hfs, hsrc, hz, rfl⟩ := h
    rw [hfs] at hopen
    obtain ⟨hn, hoff, he, hk, hsame⟩ := FileSystem.openTrunc_spec hopen
    have hne : ofd.ino ≠ i := fun hc => ho ((hsame i (FileSystem.lt_next_of_resolve hi)).mp hc.symm)
    have hcopy : Copying fs outfile i { s with pc := .read ifd ofd, fs := fs' } ifd ofd ⟨[], [], fs.data i⟩ := {
      source := hsrc
      apart := hne
      named := hn
      kept := hk i hne.symm
      sent := he
      rest := by rw [hz, List.drop_zero]
      position := by rw [he, hoff, List.length_nil] }
    exact ⟨[], _, rfl, hcopy, rfl⟩
  | eof ifd ofd hp hr =>
    rw [Relays, hp] at h
    obtain ⟨hc, hb⟩ := h
    exact ⟨[], r, rfl, ofd.ino, hc.named, hc.apart, hc.sent, fun _ => ⟨hb, hc.rest_eq.symm.trans hr⟩⟩
  | filled ifd ofd n hp _ hl =>
    rw [Relays, hp] at h
    obtain ⟨hc, hb⟩ := h
    refine ⟨[.fill n], r.fill n, rfl, hc.fill n rfl, ?_⟩
    rw [Relay.fill, hb, List.nil_append, hc.rest_eq]
  | full ifd ofd buf hp =>
    rw [Relays, hp] at h
    obtain ⟨hc, rfl⟩ := h
    refine ⟨[.pass r.buffer.length], r.pass r.buffer.length, rfl, ?_, List.drop_length⟩
    exact hc.pass le_rfl (by rw [List.take_length])
  | short ifd ofd buf n hp hn =>
    rw [Relays, hp] at h
    obtain ⟨hc, rfl⟩ := h
    have hpass := hc.pass hn.le (t := { s with fs := s.fs.pwrite ofd (r.buffer.take n) }) rfl
    exact ⟨[.pass n], r.pass n, rfl, hpass.exited _⟩
  | notOpened msg hp => exact (ha hp rfl).elim
  | failed msg hp hx =>
    refine ⟨[], r, rfl, ?_⟩
    cases hpc : s.pc with
    | openIn | openOut _ => simp [hpc, Pc.opening] at hp
    | read ifd ofd =>
      rw [Relays, hpc] at h
      exact h.1.exited _
    | write ifd ofd buf =>
      rw [Relays, hpc] at h
      exact h.1.exited _
    | exited status => exact (hx status hpc).elim

lemma refines_relay (hi : fs.resolve infile = .file i) (ho : fs.resolve outfile ≠ .file i) :
    Simulation (machine fs infile outfile) (relay (fs.data i)) Opens (Relays fs outfile i) where
  base := by
    rintro s rfl
    exact ⟨_, rfl, rfl, rfl⟩
  step := fun _ _ _ _ h ha hs => relays_step hi ho h ha hs

def Going (fs : FileSystem ν) (outfile : ν) (i : ℕ) (s : State ν) : Prop :=
  (∃ status, s.pc = .exited status) ∨ ∃ r, Relays fs outfile i s r

lemma going_stable (hi : fs.resolve infile = .file i) (ho : fs.resolve outfile ≠ .file i) :
    (machine fs infile outfile).Stable (fun _ _ => True) (Going fs outfile i) := by
  rintro s a t (⟨status, hp⟩ | ⟨r, h⟩) - hs
  · cases a <;> simp [machine, step, hp] at hs
  · by_cases ha : Opens s a
    · obtain ⟨-, r', -, hr⟩ := relays_step hi ho h ha hs
      exact .inr ⟨r', hr⟩
    · obtain ⟨hp, rfl⟩ : s.pc.opening = true ∧ a = .fail := by simpa [Opens] using ha
      have hs' := effect_of_step hs
      cases hs' with
      | notOpened msg _ => exact .inl ⟨_, rfl⟩
      | failed msg hf _ => simp [hp] at hf

def rank (len : ℕ) : Pc → ℕ
  | .openIn => 2 * len + 3
  | .openOut _ => 2 * len + 2
  | .read ifd _ => 2 * (len - ifd.offset) + 1
  | .write ifd _ _ => 2 * (len - ifd.offset) + 2
  | .exited _ => 0

lemma rank_step (h : Going fs outfile i s) (hs : step infile outfile s a = some t) :
    rank (fs.data i).length t.pc < rank (fs.data i).length s.pc := by
  rcases h with ⟨status, hp⟩ | ⟨r, h⟩
  · cases a <;> simp [step, hp] at hs
  have hexit : ∀ msg, (∀ status, s.pc ≠ .exited status) →
      rank (fs.data i).length (s.perror msg).pc < rank (fs.data i).length s.pc := by
    intro msg hx
    cases hp : s.pc <;> simp [rank, State.perror]
    exact hx _ hp
  cases effect_of_step hs with
  | opened ifd hp _ => simp [rank, hp]
  | truncated ifd ofd fs' hp _ =>
    simp only [rank, hp]
    omega
  | eof ifd ofd hp _ => simp [rank, hp]
  | filled ifd ofd n hp hn hl =>
    rw [Relays, hp] at h
    obtain ⟨hc, -⟩ := h
    rw [FileSystem.rest, hc.source, hc.kept, List.length_drop] at hl
    simp only [rank, hp]
    omega
  | full ifd ofd buf hp => simp [rank, hp]
  | short ifd ofd buf n hp _ => simp [rank, hp, State.perror]
  | notOpened msg hp =>
    refine hexit msg fun status hx => ?_
    simp [hx, Pc.opening] at hp
  | failed msg _ hx => exact hexit msg hx

lemma progress (hx : ∀ status, s.pc ≠ .exited status) :
    ∃ a t, (s.pc.opening = false → Full s a) ∧ step infile outfile s a = some t := by
  cases hp : s.pc with
  | exited status => exact (hx status hp).elim
  | openIn => exact ⟨.fail, s.perror "open input file error", by simp [Pc.opening], by simp [step, hp]⟩
  | openOut ifd => exact ⟨.fail, s.perror "open output file error", by simp [Pc.opening], by simp [step, hp]⟩
  | read ifd ofd =>
    have hz : min BUFSIZE (s.fs.rest ifd).length = 0 → s.fs.rest ifd = [] := by
      intro hm
      exact List.length_eq_zero_iff.mp ((Nat.min_eq_zero_iff.mp hm).resolve_left (by decide))
    obtain ⟨t, ht⟩ : ∃ t, readBlock s ifd ofd (min BUFSIZE (s.fs.rest ifd).length) = some t := by
      simp only [readBlock]
      rw [if_pos ⟨min_le_left _ _, min_le_right _ _, hz⟩]
      exact ⟨_, rfl⟩
    exact ⟨.read (min BUFSIZE (s.fs.rest ifd).length), t, by simp [Full, hp], by simpa [step, hp] using ht⟩
  | write ifd ofd buf =>
    obtain ⟨t, ht⟩ : ∃ t, writeBlock s ifd ofd buf buf.length = some t := by
      simp only [writeBlock]
      rw [if_pos le_rfl]
      exact ⟨_, rfl⟩
    exact ⟨.write buf.length, t, by simp [Full, hp], by simpa [step, hp] using ht⟩

lemma invariant_full :
    (machine fs infile outfile).Invariant Full (fun s => ∀ status, s.pc = .exited status → status = 0) where
  base := by
    rintro s rfl status hp
    cases hp
  step s a t _ ha hs := by
    intro status hp
    cases effect_of_step hs with
    | opened | truncated | filled | full => cases hp
    | eof => exact (Pc.exited.inj hp).symm
    | short ifd ofd buf n hw hn =>
      have he := Action.write.inj (ha.2 ifd ofd buf hw)
      exact absurd he hn.ne
    | notOpened | failed => exact (ha.1 rfl).elim

/-- A copy to another file ends; whatever has failed the output is then a prefix of the input, status 0
says that it is the input, and status 0 it is when nothing fails. -/
theorem copy_exact (hi : fs.resolve infile = .file i) (ho : fs.resolve outfile ≠ .file i)
    (he : (machine fs infile outfile).exec (start fs) as = some s) :
    as.length ≤ 2 * (fs.data i).length + 3 ∧
    ((∀ status, s.pc ≠ .exited status) →
      ∃ a t, (s.pc.opening = false → Full s a) ∧ (machine fs infile outfile).step s a = some t) ∧
    ∀ status, s.pc = .exited status →
      ((machine fs infile outfile).Along Opens (start fs) as → Output fs outfile i s status) ∧
      ((machine fs infile outfile).Along Full (start fs) as → status = 0) := by
  refine ⟨?_, progress, fun status hp => ⟨fun ha => ?_, fun ha => ?_⟩⟩
  · have hg : Going fs outfile i (start fs) := .inr ⟨_, rfl, rfl⟩
    have hle := (going_stable hi ho).exec_length_le (fun s => rank (fs.data i).length s.pc)
      (fun _ _ _ h hs => rank_step h hs) he hg
    exact le_trans (Nat.le_add_right _ _) hle
  · obtain ⟨r, hr, h⟩ := (refines_relay hi ho).transfer relay_invariant ((Reach.init rfl).exec ha he)
    rw [Relays, hp] at h
    exact output_of_exited hr h
  · exact invariant_full.exec rfl ha he status hp

def linked : FileSystem ℕ where
  entries n := [.file 0, .symlink 0][n]?
  data _ := [104, 105]
  next := 1
  symloopMax := 8
  alloc n ino h := by
    match n with
    | 0 => simp_all
    | 1 => simp at h
    | n + 2 => simp at h

def copyRun : List Action := [.open, .open, .read 1, .write 1, .read 1, .write 1, .read 0]

theorem copy_exact_linked : ∃ s, (machine linked 1 2).exec (start linked) copyRun = some s ∧
    s.pc = .exited 0 ∧ Output linked 2 0 s 0 := by
  have hd : ((machine linked 1 2).exec (start linked) copyRun).map (fun s => s.pc) = some (.exited 0) := by decide
  obtain ⟨s, hs, hp⟩ := Option.map_eq_some_iff.mp hd
  have hx := (copy_exact (i := 0) (by decide) (by decide) hs).2.2 0 hp
  refine ⟨s, hs, hp, hx.1 ?_⟩
  exact (along_of_forall (C := (· ≠ .fail)) (by decide)).mono fun _ _ ha _ => ha

end ApueCode.Copy
