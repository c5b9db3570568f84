import ApueCode.Unlink.Stages
import ApueCode.Unlink.Storage

/-! The contents of the file of `unlink filename`: they are there as long as the program runs, and when they go. -/

namespace ApueCode.Unlink

open Posix Transition Machine

inductive Phase
  | before | named | unnamed | over
  deriving DecidableEq

namespace MainPc

def phase : MainPc → Phase
  | .argc | .sigaction | .open => .before
  | .printOpen | .write _ | .printWrite | .pause .first | .paused .first _ | .unlink => .named
  | .printUnlink | .pause .second | .paused .second _ | .printExit | .returning => .unnamed
  | .exited _ | .killed => .over

def writes (BUFSIZ : ℕ) : MainPc → ℕ
  | .write i => i
  | .printWrite | .pause _ | .paused _ _ | .unlink | .printUnlink | .printExit | .returning => FILE_SIZE / BUFSIZ
  | _ => 0

lemma hasEnded_iff {pc : MainPc} : pc.hasEnded = true ↔ pc.phase = .over := by
  rcases pc with _ | _ | _ | _ | _ | _ | ⟨_ | _⟩ | ⟨_ | _, _⟩ | _ | _ | _ | _ | _ | _ <;> simp [hasEnded, phase]

@[simp] lemma wake_phase (pc : MainPc) : pc.wake.phase = pc.phase := by
  rcases pc with _ | _ | _ | _ | _ | _ | ⟨_ | _⟩ | ⟨_ | _, _⟩ | _ | _ | _ | _ | _ | _ <;> rfl

lemma wake_of_over (pc : MainPc) (h : pc.wake.phase = .over) : pc.wake = pc := by
  cases pc with
  | paused stage woken => cases stage <;> simp [wake, phase] at h
  | _ => rfl

@[simp] lemma wake_writes {BUFSIZ : ℕ} (pc : MainPc) : pc.wake.writes BUFSIZ = pc.writes BUFSIZ := by
  cases pc <;> rfl

end MainPc

namespace Storage

inductive Called {BUFSIZ : ℕ} (argv : List String) (buf : Fin BUFSIZ → Byte) (s : State) (k : Choice) (p : Unlink.State) :
    Disk String → Option ℕ → Prop
  | opens {ino d} (hpc : s.program.main = .open) (hp : p.main = .printOpen)
      (ho : s.disk.openTrunc k.ino (arg argv 1) = .ok (ino, d)) (hfree : s.disk.inodes k.ino = none) :
      Called argv buf s k p d (some ino)
  | writes {i} (hpc : s.program.main = .write i) (hp : p.main = .write (i + 1)) :
      Called argv buf s k p (write s.disk s.fd (i * BUFSIZ) (List.ofFn buf)) s.fd
  | tears {i} (hpc : s.program.main = .write i) (hp : p.main = .exited EXIT_FAILURE) :
      Called argv buf s k p (write s.disk s.fd (i * BUFSIZ) ((List.ofFn buf).take k.stored)) s.fd
  | unlinks {d} (hpc : s.program.main = .unlink) (hp : p.main = .printUnlink)
      (hd : s.disk.unlink (arg argv 1) = .ok d) : Called argv buf s k p (if k.refuses then s.disk else d) s.fd
  | stays (hp : p.main.phase = s.program.main.phase ∧ p.main.writes BUFSIZ = s.program.main.writes BUFSIZ)
      (hm : p.main.phase = .over → p.main = s.program.main) :
      Called argv buf s k p s.disk s.fd
  | misses {e} (hpc : s.program.main = .unlink) (hp : p.main = .printUnlink)
      (hd : s.disk.unlink (arg argv 1) = .error e) : Called argv buf s k p s.disk s.fd
  | ends (hpc : s.program.main.phase ≠ .over) (hp : p.main.phase = .over)
      (hx : p.main = .exited 0 → s.program.main = .returning) : Called argv buf s k p s.disk s.fd

variable {BUFSIZ : ℕ} {argv : List String} {buf : Fin BUFSIZ → Byte} {inherited : Mask} {d₀ d : Disk String}
  {s t : State} {a : Unlink.Action} {k : Choice} {p : Unlink.State} {fd : Option ℕ} {ino : ℕ}
  {x : Action} {as : List Action}

lemma call_eq_of_frames (hf : s.program.ctx.frames ≠ []) : call argv buf s .run k = some (s.disk, s.fd) := by
  unfold call
  split <;> first | rfl | simp_all

lemma called (hp : Unlink.step BUFSIZ argv s.program a = some p) (hc : call argv buf s a k = some (d, fd)) :
    Called argv buf s k p d fd := by
  cases a with
  | deliver =>
    obtain ⟨rfl, rfl⟩ : s.disk = d ∧ s.fd = fd := by simpa [call] using hc
    simp only [Unlink.step, Option.ite_none_right_eq_some, Option.some.injEq] at hp
    obtain ⟨⟨-, he⟩, rfl⟩ := hp
    unfold deliver
    split
    · exact .stays ⟨MainPc.wake_phase _, MainPc.wake_writes _⟩ (MainPc.wake_of_over _)
    · refine .ends (fun h => ?_) rfl (fun h => by simp at h)
      rw [MainPc.hasEnded_iff.mpr h] at he
      cases he
  | fail error =>
    simp only [Unlink.step, Option.ite_none_right_eq_some] at hp
    obtain ⟨hf, hp⟩ := hp
    cases hpc : s.program.main with
    | write i =>
      simp only [fail, hpc, Option.ite_none_right_eq_some, Option.some.injEq] at hp
      simp only [call, hf, hpc, Option.some.injEq, Prod.mk.injEq] at hc
      obtain ⟨-, rfl⟩ := hp
      obtain ⟨rfl, rfl⟩ := hc
      exact .tears hpc rfl
    | sigaction | «open» =>
      simp only [fail, hpc, Option.some.injEq] at hp
      obtain ⟨rfl, rfl⟩ : s.disk = d ∧ s.fd = fd := by simpa [call, hpc] using hc
      subst hp
      exact .ends (by simp [hpc, MainPc.phase]) rfl fun h => by simp [State.die, EXIT_FAILURE] at h
    | _ => simp [fail, hpc] at hp
  | run =>
    cases hf : s.program.ctx.frames with
    | cons f fs =>
      rw [call_eq_of_frames (by simp [hf]), Option.some.injEq, Prod.mk.injEq] at hc
      obtain ⟨rfl, rfl⟩ := hc
      simp only [Unlink.step, hf, Option.some.injEq] at hp
      have hmain : p.main = s.program.main := hp ▸ (handlerStep_frame _ _).1
      exact .stays (by rw [hmain]; exact ⟨rfl, rfl⟩) fun _ => hmain
    | nil =>
      simp only [Unlink.step, hf] at hp
      cases hpc : s.program.main with
      | «open» =>
        simp only [mainStep, hpc, Option.some.injEq] at hp
        subst hp
        simp only [call, hf, hpc] at hc
        split at hc
        · simp only [Option.ite_none_right_eq_some, Option.some.injEq, Prod.mk.injEq] at hc
          obtain ⟨hfree, rfl, rfl⟩ := hc
          exact .opens hpc rfl (by assumption) hfree
        · cases hc
      | write i =>
        simp only [mainStep, hpc, Option.some.injEq] at hp
        subst hp
        simp only [call, hf, hpc, Option.some.injEq, Prod.mk.injEq] at hc
        obtain ⟨rfl, rfl⟩ := hc
        by_cases hi : i = FILE_SIZE / BUFSIZ
        · simp only [hi, ne_eq, not_true, if_false]
          exact .stays (by simp [hpc, hi, MainPc.phase, MainPc.writes]) (by simp [MainPc.phase])
        · simp only [hi, ne_eq, not_false_iff, if_true]
          exact .writes hpc rfl
      | unlink =>
        simp only [mainStep, hpc, Option.some.injEq] at hp
        subst hp
        simp only [call, hf, hpc] at hc
        split at hc <;> simp only [Option.some.injEq, Prod.mk.injEq] at hc <;> obtain ⟨rfl, rfl⟩ := hc
        · exact .unlinks hpc rfl (by assumption)
        · exact .misses hpc rfl (by assumption)
      | argc =>
        obtain ⟨rfl, rfl⟩ : s.disk = d ∧ s.fd = fd := by simpa [call, hf, hpc] using hc
        simp only [mainStep, hpc, Option.some.injEq] at hp
        subst hp
        split
        · exact .ends (by simp [hpc, MainPc.phase]) rfl fun h => by simp [State.die, EXIT_FAILURE] at h
        · exact .stays (by simp [hpc, MainPc.phase, MainPc.writes]) (by simp [MainPc.phase])
      | paused stage woken =>
        obtain ⟨rfl, rfl⟩ : s.disk = d ∧ s.fd = fd := by simpa [call, hf, hpc] using hc
        simp only [mainStep, hpc, Option.ite_none_right_eq_some, Option.some.injEq] at hp
        obtain ⟨-, rfl⟩ := hp
        cases stage <;> exact .stays (by simp [hpc, MainPc.phase, MainPc.writes, Stage.next])
          (by simp [Stage.next, MainPc.phase])
      | pause stage =>
        obtain ⟨rfl, rfl⟩ : s.disk = d ∧ s.fd = fd := by simpa [call, hf, hpc] using hc
        simp only [mainStep, hpc, Option.some.injEq] at hp
        subst hp
        cases stage <;> exact .stays (by simp [hpc, MainPc.phase, MainPc.writes]) (by simp [MainPc.phase])
      | returning =>
        obtain ⟨rfl, rfl⟩ : s.disk = d ∧ s.fd = fd := by simpa [call, hf, hpc] using hc
        simp only [mainStep, hpc, Option.some.injEq] at hp
        subst hp
        exact .ends (by simp [hpc, MainPc.phase]) rfl fun _ => hpc
      | exited status | killed => simp [mainStep, hpc] at hp
      | sigaction | printOpen | printWrite | printUnlink | printExit =>
        obtain ⟨rfl, rfl⟩ : s.disk = d ∧ s.fd = fd := by simpa [call, hf, hpc] using hc
        simp only [mainStep, hpc, Option.some.injEq] at hp
        subst hp
        exact .stays (by simp [hpc, State.print, MainPc.phase, MainPc.writes]) (by simp [State.print, MainPc.phase])

def Solo (_ : State) : Action → Prop
  | .program _ k => k.refuses = false
  | .kill => True
  | .other _ => False

instance (s : State) (x : Action) : Decidable (Solo s x) :=
  match x with
  | .program _ k => inferInstanceAs (Decidable (k.refuses = false))
  | .kill => inferInstanceAs (Decidable True)
  | .other _ => inferInstanceAs (Decidable False)

lemma called_kill (hp : s.program.main.hasEnded = false) :
    Called argv buf s ⟨0, 0, false⟩ { s.program with main := .killed } s.disk s.fd := by
  refine .ends (fun h => ?_) rfl fun h => by simp at h
  rw [MainPc.hasEnded_iff.mpr h] at hp
  cases hp

lemma step_cases (h : step argv buf s x = some t) :
    (∃ k p d fd, Called argv buf s k p d fd ∧ t = settle p d fd ∧ (Solo s x → k.refuses = false)) ∨
    ∃ c, x = .other c ∧ s.Permits c ∧ (t = s ∨ ∃ d, c.run s.disk = .ok d ∧ t = { s with disk := d }) := by
  cases x with
  | program a k =>
    simp only [step, Option.bind_eq_bind, Option.bind_eq_some_iff, Prod.exists, Option.pure_def,
      Option.some.injEq] at h
    obtain ⟨p, hp, d, fd, hc, rfl⟩ := h
    exact .inl ⟨k, p, d, fd, called hp hc, rfl, id⟩
  | kill =>
    simp only [step, Option.ite_none_left_eq_some, Bool.not_eq_true, Option.some.injEq] at h
    obtain ⟨hp, rfl⟩ := h
    exact .inl ⟨_, _, _, _, called_kill hp, rfl, fun _ => rfl⟩
  | other c =>
    simp only [step, Option.ite_none_right_eq_some] at h
    refine .inr ⟨c, rfl, h.1, ?_⟩
    split at h
    · exact .inr ⟨_, by assumption, (Option.some.inj h.2).symm⟩
    · exact .inl (Option.some.inj h.2).symm

structure Inv (s : State) : Prop where
  consistent : s.disk.Consistent
  isOpen : s.fd.isSome = true ↔ s.program.main.phase = .named ∨ s.program.main.phase = .unnamed
  file : ∀ ino, s.fd = some ino → 0 < s.disk.opens ino ∧ ∃ data, s.disk.inodes ino = some (.file data)

lemma inv_write {offset : ℕ} {bytes : List Byte} (h : Inv s) :
    (write s.disk s.fd offset bytes).Consistent ∧ ∀ ino, s.fd = some ino →
      (write s.disk s.fd offset bytes).opens ino = s.disk.opens ino ∧
      ∃ old, s.disk.inodes ino = some (.file old) ∧
        (write s.disk s.fd offset bytes).inodes ino = some (.file (written old offset bytes)) := by
  unfold write
  cases hf : s.fd with
  | none => exact ⟨h.consistent, by simp⟩
  | some i =>
    obtain ⟨-, data, hd⟩ := h.file i hf
    simp only [hd, Option.some.injEq, forall_eq']
    exact ⟨h.consistent.store (by simp [hd]), rfl, data, rfl, by simp [Disk.store]⟩

lemma file_openTrunc {k ino : ℕ} {n : String} (h : d.openTrunc k n = .ok (ino, d₀)) :
    0 < d₀.opens ino ∧ d₀.inodes ino = some (.file []) := by
  rcases Disk.openTrunc_eq_ok h with ⟨-, rfl⟩ | ⟨m, -, rfl, rfl⟩
  · simp [Disk.openFile, Disk.store]
  · simp [Disk.openFile, Disk.create, Disk.addName, Disk.store]

lemma inv_called (h : Inv s) (hc : Called argv buf s k p d fd) : d.Consistent ∧
    (p.main.phase ≠ .over → (fd.isSome = true ↔ p.main.phase = .named ∨ p.main.phase = .unnamed)) ∧
    ∀ ino, fd = some ino → 0 < d.opens ino ∧ ∃ data, d.inodes ino = some (.file data) := by
  cases hc with
  | opens hpc hp ho hfree =>
    have hf := file_openTrunc ho
    refine ⟨h.consistent.openTrunc hfree ho, fun _ => by simp [hp, MainPc.phase], fun i hi => ?_⟩
    obtain rfl := Option.some.inj hi
    exact ⟨hf.1, [], hf.2⟩
  | writes hpc hp =>
    have hiff := h.isOpen
    rw [hpc] at hiff
    refine ⟨(inv_write h).1, fun _ => by simpa [hp, MainPc.phase] using hiff, fun i hi => ?_⟩
    obtain ⟨ho, old, -, hnew⟩ := (inv_write h).2 i hi
    exact ⟨ho ▸ (h.file i hi).1, _, hnew⟩
  | tears hpc hp =>
    refine ⟨(inv_write h).1, fun hne => (hne (by simp [hp, MainPc.phase])).elim, fun i hi => ?_⟩
    obtain ⟨ho, old, -, hnew⟩ := (inv_write h).2 i hi
    exact ⟨ho ▸ (h.file i hi).1, _, hnew⟩
  | @unlinks e hpc hp hd =>
    have hiff := h.isOpen
    rw [hpc] at hiff
    have hrun : (Disk.Call.unlink (arg argv 1)).run s.disk = .ok e := hd
    have ha : (Disk.Call.unlink (arg argv 1)).Allowed s.disk := trivial
    have hkept : ∀ i, s.fd = some i → 0 < e.opens i ∧ ∃ data, e.inodes i = some (.file data) := by
      intro i hi
      obtain ⟨ho, data, hfile⟩ := h.file i hi
      have ho' := ho.trans_le (Disk.opens_of_run hrun (by simp))
      exact ⟨ho', h.consistent.file_of_run ha hrun hfile ho'⟩
    refine ⟨?_, fun _ => by simpa [hp, MainPc.phase] using hiff, ?_⟩ <;> split
    · exact h.consistent
    · exact h.consistent.run ha hrun
    · exact h.file
    · exact hkept
  | stays hp hm => exact ⟨h.consistent, fun _ => hp.1 ▸ h.isOpen, h.file⟩
  | misses hpc hp hd =>
    have hiff := h.isOpen
    rw [hpc] at hiff
    exact ⟨h.consistent, fun _ => by simpa [hp, MainPc.phase] using hiff, h.file⟩
  | ends hpc hp hx => exact ⟨h.consistent, fun hne => (hne hp).elim, h.file⟩

lemma settle_of_ne (hp : p.main.phase ≠ .over) : settle p d fd = ⟨p, d, fd⟩ := by
  unfold settle
  cases fd <;> simp [MainPc.hasEnded_iff, hp]

lemma settle_of_over (hp : p.main.phase = .over) : settle p d fd = ⟨p, fd.elim d d.close, none⟩ := by
  unfold settle
  cases fd <;> simp [MainPc.hasEnded_iff, hp]

lemma inv_other {c : Disk.Call String} (h : Inv s) (hc : s.Permits c) (hr : c.run s.disk = .ok d) :
    Inv { s with disk := d } where
  consistent := h.consistent.run hc.1 hr
  isOpen := h.isOpen
  file i hi := by
    replace hi : s.fd = some i := hi
    obtain ⟨ho, data, hfile⟩ := h.file i hi
    have ho' : 0 < d.opens i := by
      by_cases hclose : c = .close i
      · subst hclose
        simp only [Disk.Call.run, Except.ok.injEq] at hr
        have hs : s.shared i := hc.2
        simp only [State.shared, hi, if_true] at hs
        simp only [← hr, Disk.close, Disk.release_opens, Function.update_self]
        omega
      · exact ho.trans_le (Disk.opens_of_run hr hclose)
    exact ⟨ho', h.consistent.file_of_run hc.1 hr hfile ho'⟩

lemma inv (hd : d₀.Consistent) : (machine argv buf inherited d₀).Invariant (fun _ _ => True) Inv where
  base s hs := hs ▸ ⟨hd, by simp [start, Unlink.start, MainPc.phase], by simp [start]⟩
  step s x t h _ hs := by
    rcases step_cases hs with ⟨k, p, d, fd, hc, rfl, -⟩ | ⟨c, -, hc, rfl | ⟨d, hr, rfl⟩⟩
    · obtain ⟨hcon, hiff, hfile⟩ := inv_called h hc
      by_cases hp : p.main.phase = .over
      · refine settle_of_over hp ▸ ⟨?_, by simp [hp], by simp⟩
        cases fd with
        | none => exact hcon
        | some ino => exact hcon.close (hfile ino rfl).1
      · exact settle_of_ne hp ▸ ⟨hcon, hiff hp, hfile⟩
    · exact h
    · exact inv_other h hc hr

lemma opens_called (h : Inv s) (hc : Called argv buf s k p d fd) (hp : p.main.phase = .over) :
    fd = s.fd ∧ ∀ i, s.fd = some i → d.opens i = s.disk.opens i := by
  cases hc with
  | tears hpc hp => exact ⟨rfl, fun i hi => ((inv_write h).2 i hi).1⟩
  | opens hpc hp' | writes hpc hp' | unlinks hpc hp' => simp [hp', MainPc.phase] at hp
  | stays | misses | ends => exact ⟨rfl, fun _ _ => rfl⟩

/-- When the program ends, by whatever cause, the contents of its file go if no name leads to it by then and no other
process has it open. -/
theorem emptied_iff (hd : d₀.Consistent) (hs : (machine argv buf inherited d₀).Reachable s)
    (ht : (machine argv buf inherited d₀).step s x = some t) (hf : s.fd = some ino)
    (hx : t.program.main.hasEnded = true) :
    t.disk.inodes ino = none ↔ (∀ n, t.disk.entries n ≠ some ino) ∧ s.disk.opens ino = 1 := by
  have h := (inv hd).holds hs
  have hc' := ((inv hd).step s _ t h trivial ht).consistent
  have hover := MainPc.hasEnded_iff.mp hx
  have hphase := h.isOpen.mp (by simp [hf])
  rcases step_cases ht with ⟨k, p, d, fd, hc, rfl, -⟩ | ⟨c, -, hc, rfl | ⟨d, hr, rfl⟩⟩
  · by_cases hp : p.main.phase = .over
    · obtain ⟨rfl, hopens⟩ := opens_called h hc hp
      have hpos := (h.file ino hf).1
      have hclosed : (settle p d s.fd).disk.opens ino = s.disk.opens ino - 1 := by
        rw [settle_of_over hp, hf]
        simp [Disk.close, hopens ino hf]
      rw [hc'.held, hc'.nlink_eq_zero, hclosed]
      refine and_congr_right fun _ => ?_
      omega
    · rw [settle_of_ne hp] at hover
      exact (hp hover).elim
  · simp [hover] at hphase
  · simp [show s.program.main.phase = .over from hover] at hphase

def runs (n : ℕ) : List Action := List.replicate n (.program .run ⟨1, 0, false⟩)

theorem emptied_iff_kill : ∃ s t,
    (machine ["unlink", "file"] (fun _ : Fin 8192 => NUL) ∅ (Disk.empty 40)).exec
      (start ∅ (Disk.empty 40)) (runs 5 ++ [.other (.unlink "file")]) = some s ∧
    (machine ["unlink", "file"] (fun _ : Fin 8192 => NUL) ∅ (Disk.empty 40)).step s .kill = some t ∧
    t.disk.inodes 1 = none ∧ (∀ n, t.disk.entries n ≠ some 1) ∧ s.disk.opens 1 = 1 := by
  obtain ⟨s, hs, hm⟩ := Option.bind_eq_some_iff.mp (show
    ((machine ["unlink", "file"] (fun _ : Fin 8192 => NUL) ∅ (Disk.empty 40)).exec
      (start ∅ (Disk.empty 40)) (runs 5 ++ [.other (.unlink "file")])).bind (fun s =>
        ((machine ["unlink", "file"] (fun _ : Fin 8192 => NUL) ∅ (Disk.empty 40)).step s .kill).map
          fun t => (s.fd, t.program.main.hasEnded, t.disk.inodes 1)) = some (some 1, true, none) by decide +kernel)
  obtain ⟨t, ht, hm⟩ := Option.map_eq_some_iff.mp hm
  simp only [Prod.mk.injEq] at hm
  obtain ⟨hf, hx, hnone⟩ := hm
  exact ⟨s, t, hs, ht, hnone,
    (emptied_iff Disk.Consistent.empty (reachable_of_exec rfl hs) ht hf hx).mp hnone⟩

def Untouched (s : State) : Action → Prop
  | .program _ _ | .kill => True
  | .other c => ∀ ino ∈ s.fd, ¬ c.Changes s.disk ino

instance (s : State) (x : Action) : Decidable (Untouched s x) :=
  match x with
  | .program _ _ | .kill => inferInstanceAs (Decidable True)
  | .other c => inferInstanceAs (Decidable (∀ ino ∈ s.fd, ¬ c.Changes s.disk ino))

def Filled (buf : Fin BUFSIZ → Byte) (s : State) : Prop :=
  ∀ ino, s.fd = some ino → s.disk.inodes ino =
    some (.file (List.replicate (s.program.main.writes BUFSIZ) (List.ofFn buf)).flatten)

lemma length_flatten (n : ℕ) : (List.replicate n (List.ofFn buf)).flatten.length = n * BUFSIZ := by
  simp [List.length_flatten]

lemma written_end {old bytes : List Byte} {offset : ℕ} (h : old.length = offset) :
    written old offset bytes = old ++ bytes := by
  simp only [written, ← h, List.takeD_eq_take _ le_rfl, List.take_length,
    List.drop_eq_nil_of_le (Nat.le_add_right _ _), List.append_nil]

lemma filled_called (h : Inv s) (hf : Filled buf s) (hc : Called argv buf s k p d fd) (hp : p.main.phase ≠ .over)
    (hi : fd = some ino) : d.inodes ino =
      some (.file (List.replicate (p.main.writes BUFSIZ) (List.ofFn buf)).flatten) := by
  cases hc with
  | opens hpc hp ho hfree =>
    obtain rfl := Option.some.inj hi
    simpa [hp, MainPc.writes] using (file_openTrunc ho).2
  | @writes i hpc hp =>
    have hold := hf ino hi
    obtain ⟨-, old, holds, hnew⟩ := (inv_write h).2 ino hi
    simp only [hpc, MainPc.writes] at hold
    obtain rfl : old = _ := by simpa using holds.symm.trans hold
    rw [hnew, written_end (length_flatten _), hp]
    simp [MainPc.writes, List.replicate_succ']
  | tears hpc hp' => simp [hp', MainPc.phase] at hp
  | ends hpc hp' => exact (hp hp').elim
  | @unlinks e hpc hp hd =>
    have hold := hf ino hi
    rw [hpc] at hold
    have hrun : (Disk.Call.unlink (arg argv 1)).run s.disk = .ok e := hd
    have ha : (Disk.Call.unlink (arg argv 1)).Allowed s.disk := trivial
    have ho := (h.file ino hi).1
    have hkept : e.inodes ino = s.disk.inodes ino :=
      h.consistent.inodes_of_run ha hrun (by simp [Disk.Call.Changes]) ho
        (ho.trans_le (Disk.opens_of_run hrun (by simp)))
    split <;> simpa [hp, MainPc.writes, hkept] using hold
  | stays hp hm => exact hp.2 ▸ hf ino hi
  | misses hpc hp hd =>
    have hold := hf ino hi
    rw [hpc] at hold
    simpa [hp, MainPc.writes] using hold

lemma inv_filled (hd : d₀.Consistent) : (machine argv buf inherited d₀).Invariant Untouched
    (fun s => Inv s ∧ Filled buf s) := by
  refine ((inv hd).mono fun _ _ _ => trivial).strengthen (fun s hs => hs ▸ by simp [Filled, start]) ?_
  intro s x t h ht hf ha hs ino hi
  rcases step_cases hs with ⟨k, p, d, fd, hc, rfl, -⟩ | ⟨c, rfl, hc, rfl | ⟨d, hr, rfl⟩⟩
  · by_cases hp : p.main.phase = .over
    · rw [settle_of_over hp] at hi
      cases hi
    · rw [settle_of_ne hp] at hi ⊢
      exact filled_called h hf hc hp hi
  · exact hf ino hi
  · replace hi : s.fd = some ino := hi
    have hun : ¬ c.Changes s.disk ino := ha ino hi
    exact (h.consistent.inodes_of_run hc.1 hr hun (h.file ino hi).1 (ht.file ino hi).1).trans (hf ino hi)

/-- From `open` to its end the program can get at what it has written, whatever happens to the names meanwhile. -/
theorem contents_kept (hd : d₀.Consistent) (hl : (machine argv buf inherited d₀).Along Untouched (start inherited d₀) as)
    (he : (machine argv buf inherited d₀).exec (start inherited d₀) as = some t)
    (hp : t.program.main.phase = .named ∨ t.program.main.phase = .unnamed) :
    ∃ ino, t.fd = some ino ∧ 0 < t.disk.opens ino ∧ t.disk.inodes ino =
      some (.file (List.replicate (t.program.main.writes BUFSIZ) (List.ofFn buf)).flatten) := by
  obtain ⟨h, hf⟩ := (inv_filled hd).exec rfl hl he
  obtain ⟨ino, hi⟩ := Option.isSome_iff_exists.mp (h.isOpen.mpr hp)
  exact ⟨ino, hi, (h.file ino hi).1, hf ino hi⟩

def namelessRun : List Action := runs 5 ++ [.other (.unlink "file")]

theorem contents_kept_namelessRun : ∃ t,
    (machine ["unlink", "file"] (fun _ : Fin 8192 => NUL) ∅ (Disk.empty 40)).exec
      (start ∅ (Disk.empty 40)) namelessRun = some t ∧
    ∃ ino, t.fd = some ino ∧ 0 < t.disk.opens ino ∧ t.disk.inodes ino =
      some (.file (List.replicate (t.program.main.writes 8192) (List.ofFn fun _ : Fin 8192 => NUL)).flatten) := by
  obtain ⟨t, he, hp⟩ := Option.map_eq_some_iff.mp (show
    ((machine ["unlink", "file"] (fun _ : Fin 8192 => NUL) ∅ (Disk.empty 40)).exec
      (start ∅ (Disk.empty 40)) namelessRun).map (·.program.main.phase) = some .named by decide +kernel)
  exact ⟨t, he, contents_kept Disk.Consistent.empty (by decide +kernel) he (.inl hp)⟩

def named (d₀ : Disk String) (n : String) (ino : ℕ) (data : List Byte) : Disk String :=
  (d₀.create n ino (.file data)).openFile ino

def unnamed (d₀ : Disk String) (ino : ℕ) (data : List Byte) : Disk String := (d₀.store ino (.file data)).openFile ino

lemma named_store {n : String} {data data' : List Byte} :
    (named d₀ n ino data).store ino (.file data') = named d₀ n ino data' := by
  simp [named, Disk.create, Disk.addName, Disk.store, Disk.openFile]

lemma named_unlink {n : String} {data : List Byte} (hn : d₀.entries n = none) :
    (named d₀ n ino data).unlink n = .ok (unnamed d₀ ino data) := by
  have hentry : (named d₀ n ino data).entries n = some ino := by
    simp [named, Disk.openFile, Disk.create, Disk.addName]
  rw [Disk.unlink, hentry]
  simp [Disk.dropName, Disk.release, named, unnamed, Disk.openFile, Disk.create, Disk.addName, Disk.store, ← hn]

lemma unnamed_close {data : List Byte} (hd : d₀.Consistent) (hi : d₀.inodes ino = none) :
    (unnamed d₀ ino data).close ino = d₀ := by
  obtain ⟨hl, ho⟩ := (hd.held ino).mp hi
  have hopens : Function.update d₀.opens ino 0 = d₀.opens := Function.update_eq_self_iff.mpr ho.symm
  simp [unnamed, Disk.close, Disk.release, Disk.openFile, Disk.store, hl, ho, ← hi, hopens]

lemma write_named {n : String} {offset : ℕ} {data bytes : List Byte} :
    write (named d₀ n ino data) (some ino) offset bytes = named d₀ n ino (written data offset bytes) := by
  have hi : (named d₀ n ino data).inodes ino = some (.file data) := by
    simp [named, Disk.openFile, Disk.create, Disk.addName, Disk.store]
  simp only [write, hi, named_store]

lemma openTrunc_named {n : String} {k : ℕ} (hn : d₀.entries n = none) (h : d₀.openTrunc k n = .ok (ino, d)) :
    ino = k ∧ d = named d₀ n k [] := by
  have hr : d₀.resolve n = .absent n := by
    rw [Disk.resolve, Disk.follow, hn]
  rcases Disk.openTrunc_eq_ok h with ⟨hf, -⟩ | ⟨m, hm, rfl, rfl⟩
  · simp [hr] at hf
  · obtain rfl : n = m := by simpa [hr] using hm
    exact ⟨rfl, rfl⟩

inductive Alone (d₀ : Disk String) (n : String) (s : State) : Prop
  | before (hp : s.program.main.phase = .before) (hd : s.disk = d₀) (hf : s.fd = none)
  | named (ino : ℕ) (data : List Byte) (hp : s.program.main.phase = .named) (hi : d₀.inodes ino = none)
      (hf : s.fd = some ino) (hd : s.disk = named d₀ n ino data)
  | unnamed (ino : ℕ) (data : List Byte) (hp : s.program.main.phase = .unnamed) (hi : d₀.inodes ino = none)
      (hf : s.fd = some ino) (hd : s.disk = unnamed d₀ ino data)
  | failed (hp : s.program.main.phase = .over) (hf : s.fd = none) (hx : s.program.main ≠ .exited 0)
  | done (hp : s.program.main.phase = .over) (hf : s.fd = none) (hd : s.disk = d₀)

lemma alone_settle (hd : d₀.Consistent) {n : String} (h : Alone d₀ n s) (hp : p.main.phase = .over)
    (hx : p.main = .exited 0 → s.program.main = .returning) : Alone d₀ n ⟨p, s.fd.elim s.disk s.disk.close, none⟩ := by
  by_cases hz : p.main = .exited 0
  · have hr := hx hz
    cases h with
    | unnamed ino data hpc hi hf hdisk =>
      exact .done hp rfl (by simp only [hf, hdisk, Option.elim_some, unnamed_close hd hi])
    | before hpc | named ino data hpc | failed hpc | done hpc => simp [hr, MainPc.phase] at hpc
  · exact .failed hp rfl hz

lemma alone (hd : d₀.Consistent) (hn : d₀.entries (arg argv 1) = none) :
    (machine argv buf inherited d₀).Invariant Solo (Alone d₀ (arg argv 1)) where
  base s hs := hs ▸ .before rfl rfl rfl
  step s x t h hsolo hs := by
    rcases step_cases hs with ⟨k, p, d, fd, hc, rfl, hk⟩ | ⟨c, rfl, -⟩
    · have hk := hk hsolo
      cases hc with
      | opens hpc hp ho hfree =>
        cases h with
        | before hp' hd' hf =>
          rw [hd'] at ho hfree
          obtain ⟨rfl, rfl⟩ := openTrunc_named hn ho
          rw [settle_of_ne (by simp [hp, MainPc.phase])]
          exact .named k.ino [] (by simp [hp, MainPc.phase]) hfree rfl rfl
        | named ino data hp' | unnamed ino data hp' | failed hp' | done hp' => simp [hpc, MainPc.phase] at hp'
      | writes hpc hp =>
        cases h with
        | named ino data hp' hi hf hd' =>
          rw [settle_of_ne (by simp [hp, MainPc.phase])]
          exact .named ino _ (by simp [hp, MainPc.phase]) hi hf (by rw [hd', hf, write_named])
        | before hp' | unnamed ino data hp' | failed hp' | done hp' => simp [hpc, MainPc.phase] at hp'
      | tears hpc hp =>
        rw [settle_of_over (by simp [hp, MainPc.phase])]
        exact .failed (by simp [hp, MainPc.phase]) rfl (by simp [hp, EXIT_FAILURE])
      | unlinks hpc hp he =>
        cases h with
        | named ino data hp' hi hf hd' =>
          rw [hd', named_unlink hn] at he
          obtain rfl := Except.ok.inj he
          rw [settle_of_ne (by simp [hp, MainPc.phase])]
          exact .unnamed ino data (by simp [hp, MainPc.phase]) hi hf (by simp [hk])
        | before hp' | unnamed ino data hp' | failed hp' | done hp' => simp [hpc, MainPc.phase] at hp'
      | misses hpc hp he =>
        cases h with
        | named ino data hp' hi hf hd' => simp [hd', named_unlink hn] at he
        | before hp' | unnamed ino data hp' | failed hp' | done hp' => simp [hpc, MainPc.phase] at hp'
      | stays hp hm =>
        by_cases ho : p.main.phase = .over
        · have hsame := hm ho
          rw [settle_of_over ho]
          cases h with
          | failed hp' hf hx => exact .failed ho rfl (hsame ▸ hx)
          | done hp' hf hd' => exact .done ho rfl (by simp [hf, hd'])
          | before hp' | named ino data hp' | unnamed ino data hp' => simp [← hp.1, ho] at hp'
        · rw [settle_of_ne ho]
          cases h with
          | before hp' hd' hf => exact .before (hp.1.trans hp') hd' hf
          | named ino data hp' hi hf hd' => exact .named ino data (hp.1.trans hp') hi hf hd'
          | unnamed ino data hp' hi hf hd' => exact .unnamed ino data (hp.1.trans hp') hi hf hd'
          | failed hp' | done hp' => exact (ho (hp.1.trans hp')).elim
      | ends hpc hp hx =>
        rw [settle_of_over hp]
        exact alone_settle hd h hp hx
    · exact hsolo.elim

theorem leaves_nothing (hd : d₀.Consistent) (hn : d₀.entries (arg argv 1) = none)
    (hl : (machine argv buf inherited d₀).Along Solo (start inherited d₀) as)
    (he : (machine argv buf inherited d₀).exec (start inherited d₀) as = some t)
    (hx : t.program.main = .exited 0) : t.disk = d₀ := by
  cases (alone hd hn).exec rfl hl he with
  | done hp hf hdisk => exact hdisk
  | failed hp hf hne => exact (hne hx).elim
  | before hp | named ino data hp | unnamed ino data hp => simp [hx, MainPc.phase] at hp

def wholeRun : List Action :=
  runs 8 ++ [.program .deliver ⟨1, 0, false⟩] ++ runs 6 ++ [.program .deliver ⟨1, 0, false⟩] ++ runs 5

theorem leaves_nothing_wholeRun : ∃ t,
    (machine ["unlink", "file"] (fun _ : Fin FILE_SIZE => NUL) ∅ (Disk.empty 40)).exec
      (start ∅ (Disk.empty 40)) wholeRun = some t ∧ t.disk = Disk.empty 40 := by
  obtain ⟨t, he, hx⟩ := Option.map_eq_some_iff.mp (show
    ((machine ["unlink", "file"] (fun _ : Fin FILE_SIZE => NUL) ∅ (Disk.empty 40)).exec
      (start ∅ (Disk.empty 40)) wholeRun).map (·.program.main) = some (.exited 0) by decide +kernel)
  exact ⟨t, he, leaves_nothing Disk.Consistent.empty rfl (by decide +kernel) he hx⟩

end Storage

end ApueCode.Unlink
