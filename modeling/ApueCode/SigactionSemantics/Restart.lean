import ApueCode.SigactionSemantics.Model

/-! What holds at every point of a section, whichever way the signal and the byte arrive. -/

namespace ApueCode.SigactionSemantics

open Posix Transition Machine

variable {sec : Section} {s t : State} {a : Action} {as : List Action}

def ParentPc.Setup (pc : ParentPc) : Prop := pc = .signal ∨ pc = .pipe ∨ pc = .fork

def ParentPc.Reading (pc : ParentPc) : Prop := pc = .closeWrite ∨ pc = .read ∨ pc = .blocked

def ChildPc.Quiet (pc : ChildPc) : Prop := pc = .unborn ∨ pc = .closeRead ∨ pc = .sleep ∨ pc = .kill

def ChildPc.Owing (pc : ChildPc) : Prop := pc.Quiet ∨ pc = .write

lemma owing_or (pc : ChildPc) : pc.Owing ∨ pc = .returning ∨ pc = .exited ∨ pc = .killed := by
  cases pc <;> simp [ChildPc.Owing, ChildPc.Quiet]

structure Inv (sec : Section) (s : State) : Prop where
  unborn : s.parent.Setup → s.child = .unborn
  created : s.parent = .fork → s.fd.data = [] ∧ .parent ∈ s.fd.readers ∧ .parent ∈ s.fd.writers
  handler : s.parent ≠ .signal → s.handler = some sec.sa_flags
  reader : s.parent.Reading → .parent ∈ s.fd.readers ∧ s.child ≠ .killed ∧ s.child ≠ .unborn
  quiet : s.child.Quiet → s.pending = false
  writer : s.child.Owing → s.child ≠ .unborn → .child ∈ s.fd.writers ∧ s.fd.data = []
  sent : s.parent.Reading → s.child = .returning ∨ s.child = .exited → s.fd.data ≠ []
  silent : s.parent.Setup ∨ s.parent.Reading ∨ (∃ r, s.parent = .test r) → s.stdout = []
  result : ∀ r, s.parent = .test r → r = .byte ∨ r = .error EINTR ∧ sec.restarts = false
  printed : s.parent = .closeRead ∨ s.parent = .finished →
    s.stdout = [sec.restart] ∨ s.stdout = [sec.notRestart] ∧ sec.restarts = false
  alive : s.parent.hasEnded = false

lemma inv_start : Inv sec start where
  unborn := fun _ => rfl
  created := by simp [start]
  handler := by simp [start]
  reader := by simp [start, ParentPc.Reading]
  quiet := fun _ => rfl
  writer := by simp [start]
  sent := by simp [start]
  silent := fun _ => rfl
  result := by simp [start]
  printed := by simp [start]
  alive := rfl

lemma readByte_cases (h : Inv sec s) (hr : s.parent = .read ∨ s.parent = .blocked) (hs : readByte s = some t) :
    (∃ c rest, s.fd.data = c :: rest ∧ t = { s with fd := { s.fd with data := rest }, parent := .test .byte }) ∨
    s.fd.data = [] ∧ s.parent = .read ∧ t = { s with parent := .blocked } := by
  have hreading : s.parent.Reading := .inr hr
  cases hd : s.fd.data with
  | cons c rest =>
    simp only [readByte, Pipe.read, hd, Option.some.injEq] at hs
    exact .inl ⟨c, rest, rfl, hs.symm⟩
  | nil =>
    obtain ⟨-, hk, hu⟩ := h.reader hreading
    have hw : s.fd.writers ≠ ∅ := by
      rcases owing_or s.child with ho | hc | hc | hc
      · exact Finset.ne_empty_of_mem (h.writer ho hu).1
      · exact (h.sent hreading (.inl hc) hd).elim
      · exact (h.sent hreading (.inr hc) hd).elim
      · exact (hk hc).elim
    have hb : s.fd.read = .blocked := Pipe.read_blocked.mpr ⟨hd, hw⟩
    simp only [readByte, hb, Option.ite_none_right_eq_some, Option.some.injEq] at hs
    exact .inr ⟨rfl, hs.1, hs.2.symm⟩

lemma inv_read (h : Inv sec s) (hr : s.parent = .read ∨ s.parent = .blocked) (hs : readByte s = some t) :
    Inv sec t := by
  have hreading : s.parent.Reading := .inr hr
  have hh : s.handler = some sec.sa_flags := h.handler (by rcases hr with hr | hr <;> simp [hr])
  have hout := h.silent (.inr (.inl hreading))
  rcases readByte_cases h hr hs with ⟨c, rest, hd, rfl⟩ | ⟨hd, hp, rfl⟩
  · exact {
      unborn := by simp [ParentPc.Setup]
      created := by simp
      handler := fun _ => hh
      reader := by simp [ParentPc.Reading]
      quiet := h.quiet
      writer := by
        intro ho hu
        have he := (h.writer ho hu).2
        rw [hd] at he
        cases he
      sent := by simp [ParentPc.Reading]
      silent := fun _ => hout
      result := by simp
      printed := by simp
      alive := rfl }
  · exact {
      unborn := by simp [ParentPc.Setup]
      created := by simp
      handler := fun _ => hh
      reader := fun _ => h.reader hreading
      quiet := h.quiet
      writer := h.writer
      sent := fun _ => h.sent hreading
      silent := fun _ => hout
      result := by simp
      printed := by simp
      alive := rfl }

lemma inv_parentStep (h : Inv sec s) (hs : parentStep sec s = some t) : Inv sec t := by
  cases hp : s.parent with
  | read => exact inv_read h (.inl hp) (by simpa [parentStep, hp] using hs)
  | blocked => exact inv_read h (.inr hp) (by simpa [parentStep, hp] using hs)
  | finished | exited _ | killed _ => simp [parentStep, hp] at hs
  | signal =>
    simp only [parentStep, hp, Option.some.injEq] at hs
    subst hs
    have hu := h.unborn (.inl hp)
    exact { h with
      unborn := fun _ => hu
      created := by simp
      handler := fun _ => rfl
      reader := by simp [ParentPc.Reading]
      sent := by simp [ParentPc.Reading]
      silent := fun _ => h.silent (.inl (.inl hp))
      result := by simp
      printed := by simp
      alive := rfl }
  | pipe =>
    simp only [parentStep, hp, Option.some.injEq] at hs
    subst hs
    have hu := h.unborn (.inr (.inl hp))
    exact { h with
      unborn := fun _ => hu
      created := fun _ => by simp [Pipe.create]
      handler := fun _ => h.handler (by simp [hp])
      reader := by simp [ParentPc.Reading]
      writer := fun _ hn => (hn hu).elim
      sent := by simp [ParentPc.Reading]
      silent := fun _ => h.silent (.inl (.inr (.inl hp)))
      result := by simp
      printed := by simp
      alive := rfl }
  | fork =>
    simp only [parentStep, hp, Option.some.injEq] at hs
    subst hs
    have hu := h.unborn (.inr (.inr hp))
    obtain ⟨hd, hr, hw⟩ := h.created hp
    exact {
      unborn := by simp [ParentPc.Setup]
      created := by simp
      handler := fun _ => h.handler (by simp [hp])
      reader := fun _ => ⟨by simp [Pipe.fork, hr], by simp, by simp⟩
      quiet := fun _ => h.quiet (.inl hu)
      writer := fun _ _ => ⟨(Pipe.mem_fork_writers hw).2, hd⟩
      sent := by simp
      silent := fun _ => h.silent (.inl (.inr (.inr hp)))
      result := by simp
      printed := by simp
      alive := rfl }
  | closeWrite =>
    simp only [parentStep, hp, Option.some.injEq] at hs
    subst hs
    have hreading : s.parent.Reading := .inl hp
    exact { h with
      unborn := by simp [ParentPc.Setup]
      created := by simp
      handler := fun _ => h.handler (by simp [hp])
      reader := fun _ => h.reader hreading
      writer := by
        intro ho hu
        obtain ⟨hw, hd⟩ := h.writer ho hu
        exact ⟨Finset.mem_erase.mpr ⟨by simp, hw⟩, hd⟩
      sent := fun _ => h.sent hreading
      silent := fun _ => h.silent (.inr (.inl hreading))
      result := by simp
      printed := by simp
      alive := rfl }
  | test r =>
    have hout := h.silent (.inr (.inr ⟨r, hp⟩))
    have hprint : ∀ line, line = sec.restart ∨ line = sec.notRestart ∧ sec.restarts = false →
        Inv sec (s.print line) := fun line hl => { h with
      unborn := by simp [State.print, ParentPc.Setup]
      created := by simp [State.print]
      handler := fun _ => h.handler (by simp [hp])
      reader := by simp [State.print, ParentPc.Reading]
      sent := by simp [State.print, ParentPc.Reading]
      silent := by simp [State.print, ParentPc.Setup, ParentPc.Reading]
      result := by simp [State.print]
      printed := fun _ => by simpa [State.print, hout] using hl
      alive := rfl }
    rcases h.result r hp with rfl | ⟨rfl, hr⟩ <;> simp only [parentStep, hp, if_true, Option.some.injEq] at hs <;>
      subst hs
    · exact hprint _ (.inl rfl)
    · exact hprint _ (.inr ⟨rfl, hr⟩)
  | closeRead =>
    simp only [parentStep, hp, Option.some.injEq] at hs
    subst hs
    exact { h with
      unborn := by simp [ParentPc.Setup]
      created := by simp
      handler := fun _ => h.handler (by simp [hp])
      reader := by simp [ParentPc.Reading]
      sent := by simp [ParentPc.Reading]
      silent := by simp [ParentPc.Setup, ParentPc.Reading]
      result := by simp
      printed := fun _ => h.printed (.inl hp)
      alive := rfl }

lemma inv_child (h : Inv sec s) (hu : s.child ≠ .unborn) {pc : ChildPc} {pending : Bool} {fd : Pipe Proc}
    (hborn : pc ≠ .unborn) (hreader : s.parent.Reading → .parent ∈ fd.readers ∧ pc ≠ .killed)
    (hquiet : pc.Quiet → pending = false) (hwriter : pc.Owing → .child ∈ fd.writers ∧ fd.data = [])
    (hsent : s.parent.Reading → pc = .returning ∨ pc = .exited → fd.data ≠ []) :
    Inv sec { s with child := pc, pending := pending, fd := fd } where
  unborn := fun hp => (hu (h.unborn hp)).elim
  created := fun hp => (hu (h.unborn (.inr (.inr hp)))).elim
  handler := h.handler
  reader := fun hp => ⟨(hreader hp).1, (hreader hp).2, hborn⟩
  quiet := hquiet
  writer := fun ho _ => hwriter ho
  sent := hsent
  silent := h.silent
  result := h.result
  printed := h.printed
  alive := h.alive

lemma inv_childStep (h : Inv sec s) (hs : childStep s = some t) : Inv sec t := by
  have hreader : s.parent.Reading → .parent ∈ s.fd.readers.erase .child := fun hp =>
    Finset.mem_erase.mpr ⟨by simp, (h.reader hp).1⟩
  cases hc : s.child with
  | unborn | exited | killed => simp [childStep, hc] at hs
  | closeRead =>
    have hu : s.child ≠ .unborn := by simp [hc]
    simp only [childStep, hc, Option.some.injEq] at hs
    subst hs
    exact inv_child h hu (by simp) (fun hp => ⟨hreader hp, by simp⟩) (fun _ => h.quiet (.inr (.inl hc)))
      (fun _ => h.writer (.inl (.inr (.inl hc))) hu) (by simp)
  | sleep =>
    have hu : s.child ≠ .unborn := by simp [hc]
    simp only [childStep, hc, Option.some.injEq] at hs
    subst hs
    exact inv_child h hu (by simp) (fun hp => ⟨(h.reader hp).1, by simp⟩) (fun _ => h.quiet (.inr (.inr (.inl hc))))
      (fun _ => h.writer (.inl (.inr (.inr (.inl hc)))) hu) (by simp)
  | kill =>
    have hu : s.child ≠ .unborn := by simp [hc]
    simp only [childStep, hc, Option.some.injEq] at hs
    subst hs
    exact inv_child h hu (by simp) (fun hp => ⟨(h.reader hp).1, by simp⟩) (by simp [ChildPc.Quiet])
      (fun _ => h.writer (.inl (.inr (.inr (.inr hc)))) hu) (by simp)
  | write =>
    have hu : s.child ≠ .unborn := by simp [hc]
    simp only [childStep, hc] at hs
    split at hs <;> simp only [Option.some.injEq] at hs <;> subst hs
    · rename_i hr
      have hno : ¬ s.parent.Reading := fun hp => by simpa [hr] using (h.reader hp).1
      exact inv_child h hu (by simp) (fun hp => (hno hp).elim) (by simp [ChildPc.Quiet])
        (by simp [ChildPc.Owing, ChildPc.Quiet]) (fun hp => (hno hp).elim)
    · exact inv_child h hu (by simp) (fun hp => ⟨(h.reader hp).1, by simp⟩) (by simp [ChildPc.Quiet])
        (by simp [ChildPc.Owing, ChildPc.Quiet]) (by simp [Pipe.put])
  | returning =>
    have hu : s.child ≠ .unborn := by simp [hc]
    simp only [childStep, hc, Option.some.injEq] at hs
    subst hs
    exact inv_child h hu (by simp) (fun hp => ⟨hreader hp, by simp⟩) (by simp [ChildPc.Quiet])
      (by simp [ChildPc.Owing, ChildPc.Quiet]) (fun hp _ => h.sent hp (.inl hc))

lemma not_quiet_of_pending (h : Inv sec s) (hp : s.pending = true) : ¬ s.child.Quiet := by
  intro hc
  rw [h.quiet hc] at hp
  cases hp

lemma deliver_cases (h : Inv sec s) (hp : s.pending = true) :
    s.parent = .blocked ∧ sec.restarts = false ∧
        deliver s sec.signo s.handler = { s with pending := false, parent := .test (.error EINTR) } ∨
      (s.parent ≠ .blocked ∨ sec.restarts = true) ∧ deliver s sec.signo s.handler = { s with pending := false } := by
  have hsig : s.parent ≠ .signal := fun hs => not_quiet_of_pending h hp (.inl (h.unborn (.inl hs)))
  simp only [deliver, h.handler hsig, Section.restarts, decide_eq_false_iff_not, decide_eq_true_eq, not_not]
  by_cases hb : s.parent = .blocked
  · by_cases hr : sec.sa_flags &&& SA_RESTART = 0
    · simp [hb, hr]
    · simp [hb, hr]
  · simp [hb]

lemma inv_deliver (h : Inv sec s) (hp : s.pending = true) : Inv sec (deliver s sec.signo s.handler) := by
  rcases deliver_cases h hp with ⟨hb, hr, heq⟩ | ⟨-, heq⟩ <;> rw [heq]
  · exact { h with
      unborn := by simp [ParentPc.Setup]
      created := by simp
      handler := fun _ => h.handler (by simp [hb])
      reader := by simp [ParentPc.Reading]
      quiet := fun _ => rfl
      sent := by simp [ParentPc.Reading]
      silent := fun _ => h.silent (.inr (.inl (.inr (.inr hb))))
      result := fun r hr' => .inr ⟨(ParentPc.test.inj hr').symm, hr⟩
      printed := by simp
      alive := rfl }
  · exact { h with quiet := fun _ => rfl }

theorem invariant : (machine sec).Invariant (fun _ _ => True) (Inv sec) where
  base := by
    rintro s rfl
    exact inv_start
  step s a t h _ hs := by
    cases a with
    | parent => exact inv_parentStep h hs
    | child => exact inv_childStep h hs
    | deliver =>
      simp only [machine, step, Option.ite_none_right_eq_some, Option.some.injEq] at hs
      obtain ⟨⟨hp, -⟩, rfl⟩ := hs
      exact inv_deliver h hp

end ApueCode.SigactionSemantics
