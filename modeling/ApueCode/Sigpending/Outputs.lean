import ApueCode.Sigpending.Model

/-! The few outputs that `sigpending` can have, whenever signals come. -/

namespace ApueCode.Sigpending

open Posix Transition Machine

variable {d : Discipline} {ignored : Bool} {m : Mask} {clean : Prop} {s t : State} {a : Action} {as : List Action}
  {h : Option HandlerPc}

def base (m : Mask) : Pc → Mask
  | .sleep | .sigpending | .test _ | .restore => insert .SIGQUIT m
  | _ => m

def told (h : Option HandlerPc) (s : State) : List Line :=
  s.stdout ++ if h = some .printf then [.caught] else []

def shapes : Pc → List (List Line)
  | .signal => [[]]
  | .block | .sleep | .sigpending | .test _ => [[], [.caught]]
  | .restore | .restoring true => [[], [.caught], [.pending], [.caught, .pending]]
  | .restoring false | .unblocked => [[], [.caught], [.pending, .caught]]
  | .sleepAgain | .return | .exited _ =>
    [[.unblocked], [.caught, .unblocked], [.pending, .caught, .unblocked], [.unblocked, .caught]]
  | .killed => []

def blockedShapes : Pc → List (List Line)
  | .signal | .block | .sleep | .sigpending | .test _ => [[]]
  | .restore | .restoring _ | .unblocked => [[], [.pending]]
  | .sleepAgain | .return | .exited _ => [[.unblocked], [.pending, .unblocked]]
  | .killed => []

def disposed (h : Option HandlerPc) (caught : Bool) (ignored : Bool) : Pc → Disposition
  | .signal => if ignored then .SIG_IGN else .SIG_DFL
  | _ => if caught ∧ (h = none ∨ h = some .ret) then .SIG_DFL else .sig_quit

lemma disposed_of_ne {pc : Pc} {caught : Bool} (hpc : pc ≠ .signal) :
    disposed h caught ignored pc = if caught ∧ (h = none ∨ h = some .ret) then .SIG_DFL else .sig_quit := by
  cases pc with
  | signal => exact (hpc rfl).elim
  | _ => rfl

structure Live (ignored : Bool) (m : Mask) (clean : Prop) (h : Option HandlerPc) (s : State) : Prop where
  frames : s.ctx.frames = (h.map fun pc => (⟨pc, base m s.pc⟩ : Frame HandlerPc)).toList
  mask : h = none → s.ctx.mask = base m s.pc
  inside : h ≠ none → .SIGQUIT ∈ s.ctx.mask ∧ .SIGQUIT ∉ base m s.pc ∧ .caught ∈ told h s
  shape : told h s ∈ if .SIGQUIT ∈ m then blockedShapes s.pc else shapes s.pc
  disposition : s.disposition = disposed h (.caught ∈ told h s) ignored s.pc
  oldmask : s.pc = .sleep ∨ s.pc = .sigpending ∨ (∃ b, s.pc = .test b) ∨ s.pc = .restore → s.oldmask = m
  member : s.pc = .test true ∨ s.pc = .restore ∧ .pending ∈ told h s → 0 < s.pending .SIGQUIT
  due : s.pc = .restoring true → 0 < s.pending .SIGQUIT ∧ .SIGQUIT ∉ m ∧ h = none
  count : s.pending .SIGQUIT + (if .caught ∈ told h s then 1 else 0) ≤ s.sent
  early : clean → s.pc = .signal → s.sent = 0
  status : ∀ status, s.pc = .exited status → status = 0 ∧ h = none

def Inv (ignored : Bool) (m : Mask) (clean : Prop) (s : State) : Prop :=
  s.pc = .killed ∧ (clean → 2 ≤ s.sent) ∨ ∃ h, Live ignored m clean h s

lemma inv_start : Inv ignored m clean (start ignored m) := by
  refine .inr ⟨none, rfl, fun _ => rfl, by simp, ?_, rfl, by simp [start], by simp [start], by simp [start],
    by simp [start, told], fun _ _ => rfl, by simp [start]⟩
  simp only [start, told, blockedShapes, shapes]
  split <;> simp

lemma told_none : told none s = s.stdout := by simp [told]

lemma Live.goto {pc : Pc} (hl : Live ignored m clean none s) (hb : base m pc = base m s.pc)
    (hs : s.pc ≠ .signal ∧ pc ≠ .signal) (hshape : shapes s.pc ⊆ shapes pc)
    (hblocked : blockedShapes s.pc ⊆ blockedShapes pc)
    (hold : pc = .sigpending ∨ (∃ b, pc = .test b) ∨ pc = .restore → s.oldmask = m)
    (hm : pc = .test true ∨ pc = .restore ∧ .pending ∈ s.stdout → 0 < s.pending .SIGQUIT)
    (hd : pc ≠ .sleep ∧ pc ≠ .restoring true) (hx : ∀ status, pc = .exited status → status = 0) :
    Live ignored m clean none { s with pc := pc } where
  frames := hl.frames
  mask _ := (hl.mask rfl).trans hb.symm
  inside := by simp
  shape := by
    have h := hl.shape
    by_cases hq : Signo.SIGQUIT ∈ m
    · rw [if_pos hq] at h ⊢
      exact hblocked h
    · rw [if_neg hq] at h ⊢
      exact hshape h
  disposition := by
    have h := hl.disposition
    rw [disposed_of_ne hs.1] at h
    rw [disposed_of_ne hs.2]
    exact h
  oldmask := by
    rintro (rfl | h)
    · exact (hd.1 rfl).elim
    · exact hold h
  member := by simpa only [told_none] using hm
  due h := (hd.2 h).elim
  count := hl.count
  early _ h := (hs.2 h).elim
  status status h := ⟨hx status h, rfl⟩

lemma live_mainStep (hl : Live ignored m clean none s) (hs : mainStep s = some t) :
    Live ignored m clean none t := by
  have hshape := hl.shape
  have hdisp := hl.disposition
  rw [told_none] at hshape hdisp
  cases hpc : s.pc with
  | signal =>
    simp only [mainStep, hpc, Option.some.injEq] at hs
    subst hs
    simp only [hpc, blockedShapes, shapes, ite_self, List.mem_singleton] at hshape
    exact { hl with
      mask := fun _ => by simpa [hpc, base] using hl.mask rfl
      frames := by simpa using hl.frames
      inside := by simp
      shape := by simp [told, hshape, blockedShapes, shapes]; split <;> simp
      disposition := by simp [disposed, told, hshape]
      oldmask := by simp
      member := by simp
      due := by simp
      early := by simp
      status := by simp }
  | block =>
    simp only [mainStep, hpc, Option.some.injEq] at hs
    subst hs
    simp only [hpc] at hshape hdisp
    have hm : s.ctx.mask = m := by simpa [hpc, base] using hl.mask rfl
    exact { hl with
      mask := fun _ => by simp [Context.setMask, hm, base]
      frames := by simpa using hl.frames
      inside := by simp
      shape := by simpa [told, blockedShapes, shapes] using hshape
      disposition := by simpa [disposed, told] using hdisp
      oldmask := fun _ => hm
      member := by simp
      due := by simp
      early := by simp
      status := by simp }
  | sleep =>
    simp only [mainStep, hpc, Option.some.injEq] at hs
    subst hs
    apply hl.goto <;> simp [hpc, base, shapes, blockedShapes, hl.oldmask]
  | sigpending =>
    simp only [mainStep, hpc, Option.some.injEq] at hs
    subst hs
    apply hl.goto <;> simp [hpc, base, shapes, blockedShapes, hl.oldmask]
  | test member =>
    simp only [mainStep, hpc, Option.some.injEq] at hs
    subst hs
    simp only [hpc] at hshape hdisp
    cases member with
    | false =>
      have hp : .pending ∉ s.stdout := by
        split at hshape <;> simp [blockedShapes, shapes] at hshape
        · simp [hshape]
        · rcases hshape with h | h <;> simp [h]
      apply hl.goto <;> simp [hpc, base, shapes, blockedShapes, hl.oldmask, hp]
    | true =>
      exact { hl with
        mask := fun _ => by simpa [hpc, base, State.print] using hl.mask rfl
        frames := by simpa [State.print] using hl.frames
        inside := by simp
        shape := by
          split at hshape
          · next hq =>
            simp only [blockedShapes, List.mem_singleton] at hshape
            simp [told, State.print, hshape, blockedShapes, hq]
          · next hq =>
            simp only [shapes, List.mem_cons, List.not_mem_nil, or_false] at hshape
            rcases hshape with h | h <;> simp [told, State.print, h, shapes, hq]
        disposition := by simpa [disposed, told, State.print] using hdisp
        oldmask := fun _ => hl.oldmask (by simp [hpc])
        member := fun _ => hl.member (.inl hpc)
        due := by simp [State.print]
        count := by simpa [told, State.print] using hl.count
        early := by simp [State.print]
        status := by simp [State.print] }
  | restore =>
    simp only [mainStep, hpc, Option.some.injEq] at hs
    subst hs
    simp only [hpc] at hshape hdisp
    have hold : s.oldmask = m := hl.oldmask (by simp [hpc])
    exact { hl with
      mask := fun _ => by simp [Context.setMask, hold, base]
      frames := by simpa using hl.frames
      inside := by simp
      shape := by
        simp only [told_none, hold]
        split at hshape
        · next hq => simpa [hq, blockedShapes] using hshape
        · next hq =>
          by_cases hp : 0 < s.pending .SIGQUIT
          · simpa [hq, hp, shapes] using hshape
          · have hn : .pending ∉ s.stdout := fun hm => hp (hl.member (.inr ⟨hpc, by rwa [told_none]⟩))
            simp only [shapes, List.mem_cons, List.not_mem_nil, or_false] at hshape
            rcases hshape with h | h | h | h <;> simp [h, hq, hp, shapes] at hn ⊢
      disposition := by simpa [disposed, told] using hdisp
      oldmask := by simp
      member := by simp
      due := by simp +contextual [hold]
      early := by simp
      status := by simp }
  | restoring due =>
    simp only [mainStep, hpc] at hs
    split at hs
    · cases hs
    · next hd =>
      obtain rfl := Option.some.inj hs
      simp only [Bool.not_eq_true] at hd
      subst hd
      apply hl.goto <;> simp [hpc, base, shapes, blockedShapes]
  | unblocked =>
    simp only [mainStep, hpc, Option.some.injEq] at hs
    subst hs
    simp only [hpc] at hshape hdisp
    exact { hl with
      mask := fun _ => by simpa [hpc, base, State.print] using hl.mask rfl
      frames := by simpa [State.print] using hl.frames
      inside := by simp
      shape := by
        split at hshape
        · next hq =>
          simp only [blockedShapes, List.mem_cons, List.not_mem_nil, or_false] at hshape
          rcases hshape with h | h <;> simp [told, State.print, h, blockedShapes, hq]
        · next hq =>
          simp only [shapes, List.mem_cons, List.not_mem_nil, or_false] at hshape
          rcases hshape with h | h | h <;> simp [told, State.print, h, shapes, hq]
      disposition := by simpa [disposed, told, State.print] using hdisp
      oldmask := by simp [State.print]
      member := by simp [State.print]
      due := by simp [State.print]
      count := by simpa [told, State.print] using hl.count
      early := by simp [State.print]
      status := by simp [State.print] }
  | sleepAgain | «return» =>
    simp only [mainStep, hpc, Option.some.injEq] at hs
    subst hs
    apply hl.goto <;> simp [hpc, base, shapes, blockedShapes]
  | exited status => simp [mainStep, hpc] at hs
  | killed => simp [mainStep, hpc] at hs

lemma live_handler {pc : HandlerPc} (hl : Live ignored m clean (some pc) s) (hs : sig_quit s = some t) :
    ∃ h, Live ignored m clean h t := by
  have hf : s.ctx.frames = [⟨pc, base m s.pc⟩] := hl.frames
  obtain ⟨hin, hout, hcaught⟩ := hl.inside (by simp)
  cases pc with
  | printf =>
    simp only [sig_quit, hf, Option.some.injEq] at hs
    subst hs
    have ht : told (some .signal) { s with stdout := s.stdout ++ [.caught], ctx := s.ctx.goto .signal } =
        told (some .printf) s := by simp [told]
    refine ⟨some .signal, { hl with
      frames := by rw [Context.goto_frames hf]; rfl
      mask := by simp
      inside := fun _ => ⟨hin, hout, by rwa [ht]⟩
      shape := by rw [ht]; exact hl.shape
      disposition := by rw [ht]; simpa [disposed] using hl.disposition
      member := by rw [ht]; exact hl.member
      due := fun h => by simpa using (hl.due h).2.2
      status := fun status h => by simpa using (hl.status status h).2
      count := by rw [ht]; exact hl.count }⟩
  | signal =>
    simp only [sig_quit, hf, Option.some.injEq] at hs
    subst hs
    have ht : told (some .ret) { s with disposition := .SIG_DFL, ctx := s.ctx.goto .ret } = told (some .signal) s := by
      simp [told]
    have hp : s.pc ≠ .signal := by
      intro hp
      have h := hl.shape
      simp only [hp, blockedShapes, shapes, ite_self, List.mem_singleton] at h
      simp [h] at hcaught
    refine ⟨some .ret, { hl with
      frames := by rw [Context.goto_frames hf]; rfl
      mask := by simp
      inside := fun _ => ⟨hin, hout, by rwa [ht]⟩
      shape := by rw [ht]; exact hl.shape
      disposition := by
        rw [ht, disposed_of_ne hp]
        simp [hcaught]
      member := by rw [ht]; exact hl.member
      due := fun h => by simpa using (hl.due h).2.2
      status := fun status h => by simpa using (hl.status status h).2
      count := by rw [ht]; exact hl.count }⟩
  | ret =>
    simp only [sig_quit, hf, Option.some.injEq] at hs
    subst hs
    have ht : told none { s with ctx := s.ctx.leave } = told (some .ret) s := by simp [told]
    refine ⟨none, { hl with
      frames := by rw [Context.leave_frames hf]; rfl
      mask := fun _ => by simp [Context.leave, hf]
      inside := by simp
      shape := by rw [ht]; exact hl.shape
      disposition := by rw [ht]; simpa [disposed] using hl.disposition
      member := by rw [ht]; exact hl.member
      due := fun h => by simpa using (hl.due h).2.2
      status := fun status h => by simpa using (hl.status status h).2
      count := by rw [ht]; exact hl.count }⟩

lemma live_quit (hl : Live ignored m clean h s) (hc : clean → s.pc ≠ .signal) :
    Live ignored m clean h { s with
      sent := s.sent + 1
      pending := if s.disposition = .SIG_IGN then s.pending else s.pending.post .SIGQUIT d } := by
  have ht : ∀ n p, told h { s with sent := n, pending := p } = told h s := fun _ _ => rfl
  have hpos : 0 < s.pending .SIGQUIT →
      0 < (if s.disposition = .SIG_IGN then s.pending else s.pending.post .SIGQUIT d) .SIGQUIT := by
    intro h
    split
    · exact h
    · exact Pending.post_pos d
  exact { hl with
    member := fun h => hpos (hl.member h)
    due := fun h => ⟨hpos (hl.due h).1, (hl.due h).2⟩
    count := by
      have hcount := hl.count
      have hpost : s.pending.post .SIGQUIT d .SIGQUIT ≤ s.pending .SIGQUIT + 1 := Pending.post_le d
      rw [ht]
      split <;> simp only <;> omega
    early := fun hcl hp => (hc hcl hp).elim }

@[simp] lemma base_delivered (pc : Pc) : base m pc.delivered = base m pc := by
  cases pc <;> rfl

lemma notMem_of_notMem_base {pc : Pc} (h : .SIGQUIT ∉ base m pc) : .SIGQUIT ∉ m := by
  intro hm
  cases pc <;> simp [base, hm] at h

lemma shape_caught {pc : Pc} {out : List Line} (hq : .SIGQUIT ∉ base m pc) (hx : pc.hasEnded = false)
    (hs : pc ≠ .signal) (h : out ∈ shapes pc) (hc : .caught ∉ out) : out ++ [.caught] ∈ shapes pc.delivered := by
  cases pc with
  | block | restoring b | unblocked | sleepAgain | «return» =>
    try cases b
    all_goals
      simp only [shapes, List.mem_cons, List.not_mem_nil, or_false] at h
      rcases h with rfl | rfl | rfl | rfl <;> simp [shapes, Pc.delivered] at hc ⊢
  | signal => exact (hs rfl).elim
  | sleep | sigpending | test _ | restore => simp [base] at hq
  | exited _ | killed => cases hx

lemma live_caught (hl : Live ignored m clean none s) (hp : 0 < s.pending .SIGQUIT) (hq : .SIGQUIT ∉ s.ctx.mask)
    (hx : s.pc.hasEnded = false) (hd : s.disposition = .sig_quit) :
    Live ignored m clean (some .printf)
      { s with pending := s.pending.take .SIGQUIT, ctx := s.ctx.enter .printf .SIGQUIT, pc := s.pc.delivered } := by
  have hm : s.ctx.mask = base m s.pc := hl.mask rfl
  have hbase : .SIGQUIT ∉ base m s.pc := hm ▸ hq
  have hout : .SIGQUIT ∉ m := notMem_of_notMem_base hbase
  have hdisp := hl.disposition
  rw [hd, told_none] at hdisp
  have hs : s.pc ≠ .signal := by
    intro hs
    rw [hs] at hdisp
    cases ignored <;> cases hdisp
  have hc : .caught ∉ s.stdout := by
    intro hc
    cases hpc : s.pc <;> simp [hpc, disposed, hc] at hdisp hs
  have hshape := hl.shape
  rw [told_none, if_neg hout] at hshape
  have hs' : s.pc.delivered ≠ .signal := by
    cases hpc : s.pc <;> simp [Pc.delivered, hpc] at hs ⊢
  have hb : s.pc.delivered ≠ .restoring true := by
    cases s.pc <;> simp [Pc.delivered]
  have hn : s.pc.delivered ≠ .test true ∧ s.pc.delivered ≠ .restore := by
    cases hpc : s.pc <;> simp only [hpc, base, Finset.mem_insert, true_or, not_true_eq_false] at hbase <;>
      simp [Pc.delivered]
  have hcount := hl.count
  exact {
    frames := by simpa [hm] using hl.frames
    mask := by simp
    inside := fun _ => ⟨by simp [Context.enter], by simpa using hbase, by simp [told]⟩
    shape := by
      rw [if_neg hout]
      exact shape_caught hbase hx hs hshape hc
    disposition := by simpa [disposed_of_ne hs'] using hd
    oldmask := fun h => hl.oldmask (by cases hpc : s.pc <;> simp [hpc, Pc.delivered] at h ⊢)
    member := fun h => h.elim (fun h => (hn.1 h).elim) fun h => (hn.2 h.1).elim
    due := fun h => (hb h).elim
    count := by
      simp only [told_none, hc, if_false] at hcount
      have ht : s.pending.take .SIGQUIT .SIGQUIT = s.pending .SIGQUIT - 1 := Pending.take_self
      simp only [told, if_true, List.mem_append, List.mem_singleton, or_true, ht]
      omega
    early := fun _ h => (hs' h).elim
    status := by
      intro status h
      cases hpc : s.pc <;> simp [hpc, Pc.delivered, Pc.hasEnded] at h hx }

lemma inv_deliver (hl : Live ignored m clean h s) (hp : 0 < s.pending .SIGQUIT) (hq : .SIGQUIT ∉ s.ctx.mask)
    (hx : s.pc.hasEnded = false) : Inv ignored m clean (deliver s) := by
  cases h with
  | some pc => exact (hq (hl.inside (by simp)).1).elim
  | none =>
    have hdisp := hl.disposition
    have hcount := hl.count
    rw [told_none] at hdisp hcount
    unfold deliver
    split
    · next hd => exact .inr ⟨some .printf, live_caught hl hp hq hx hd⟩
    · next hd =>
      rw [hd] at hdisp
      have hpc : s.pc = .signal := by
        cases hpc : s.pc <;> simp only [hpc, disposed] at hdisp <;> first | rfl | (split at hdisp <;> cases hdisp)
      have hle : s.pending.take .SIGQUIT .SIGQUIT ≤ s.pending .SIGQUIT := Pending.take_le
      refine .inr ⟨none, { hl with
        frames := by simpa using hl.frames
        mask := by simpa [hpc, Pc.delivered] using hl.mask
        inside := by simp
        shape := by simpa [hpc, Pc.delivered, told] using hl.shape
        disposition := by simpa [hpc, Pc.delivered, told, disposed, hd] using hdisp
        oldmask := by simp [hpc, Pc.delivered]
        member := by simp [hpc, Pc.delivered]
        due := by simp [hpc, Pc.delivered]
        count := by rw [told_none]; simp only; omega
        early := fun hcl _ => hl.early hcl hpc
        status := by simp [hpc, Pc.delivered] }⟩
    · next hd =>
      refine .inl ⟨rfl, fun hcl => ?_⟩
      rw [hd] at hdisp
      by_cases hpc : s.pc = .signal
      · have hz := hl.early hcl hpc
        omega
      · have hc : .caught ∈ s.stdout := by
          by_contra hc
          cases hpc' : s.pc <;> simp [hpc', disposed, hc] at hdisp hpc
        simp only [hc, if_true] at hcount
        simp only
        omega

lemma inv_step (hi : Inv ignored m clean s) (hc : clean → a = .quit → s.pc ≠ .signal) (hs : step d s a = some t) :
    Inv ignored m clean t := by
  unfold step at hs
  split at hs
  case isTrue => cases hs
  next hx =>
  rw [Bool.not_eq_true] at hx
  rcases hi with ⟨hpc, -⟩ | ⟨h, hl⟩
  · simp [hpc, Pc.hasEnded] at hx
  · cases a with
    | main =>
      simp only [Option.ite_none_right_eq_some] at hs
      cases h with
      | none => exact .inr ⟨none, live_mainStep hl hs.2⟩
      | some pc => simp [hl.frames] at hs
    | quit =>
      obtain rfl := Option.some.inj hs
      exact .inr ⟨h, live_quit hl fun hcl => hc hcl rfl⟩
    | deliver =>
      simp only [Option.ite_none_right_eq_some, Option.some.injEq] at hs
      obtain ⟨⟨hp, hq⟩, rfl⟩ := hs
      exact inv_deliver hl hp hq hx
    | handler =>
      cases h with
      | none =>
        have hf : s.ctx.frames = [] := hl.frames
        simp [sig_quit, hf] at hs
      | some pc => exact .inr (live_handler hl hs)

lemma inv : (machine d ignored m).Invariant (fun _ _ => True) (Inv ignored m False) where
  base _ hs := hs ▸ inv_start
  step _ _ _ hi _ hs := inv_step hi False.elim hs

lemma inv_clean : (machine d ignored m).Invariant (fun s a => a = .quit → s.pc ≠ .signal) (Inv ignored m True) where
  base _ hs := hs ▸ inv_start
  step _ _ _ hi ha hs := inv_step hi (fun _ => ha) hs

/-- The lines of a run to the end, when nobody else keeps `SIGQUIT` blocked and when somebody does; the mask is the
one that the program started with. -/
theorem outputs {status : ℕ} (hs : (machine d ignored m).Reachable s) (hx : s.pc = .exited status) :
    status = 0 ∧ s.ctx.mask = m ∧ s.stdout ∈
      if .SIGQUIT ∈ m then [[Line.unblocked], [.pending, .unblocked]]
      else [[.unblocked], [.caught, .unblocked], [.pending, .caught, .unblocked], [.unblocked, .caught]] := by
  rcases inv.holds hs with ⟨hpc, -⟩ | ⟨h, hl⟩
  · cases hx.symm.trans hpc
  · obtain ⟨rfl, rfl⟩ := hl.status status hx
    have hmask := hl.mask rfl
    have hshape := hl.shape
    rw [told_none, hx] at hshape
    rw [hx] at hmask
    exact ⟨rfl, hmask, hshape⟩

def caughtRun : List Action := [
  .main, .main, .quit, .main, .main, .main, .main, .deliver, .handler, .handler, .handler, .main, .main, .main, .main]

theorem outputs_caughtRun : ∃ t, (machine .single false ∅).exec (start false ∅) caughtRun = some t ∧
    0 = 0 ∧ t.ctx.mask = ∅ ∧ t.stdout ∈ if Signo.SIGQUIT ∈ (∅ : Mask) then [[Line.unblocked], [.pending, .unblocked]]
      else [[.unblocked], [.caught, .unblocked], [.pending, .caught, .unblocked], [.unblocked, .caught]] := by
  obtain ⟨t, he, ht⟩ := Option.map_eq_some_iff.mp (show
    ((machine .single false ∅).exec (start false ∅) caughtRun).map (·.pc) = some (.exited 0) by decide +kernel)
  exact ⟨t, he, outputs (reachable_of_exec rfl he) ht⟩

lemma sent_mainStep (hs : mainStep s = some t) : t.sent = s.sent := by
  cases hpc : s.pc with
  | restoring due =>
    simp only [mainStep, hpc] at hs
    split at hs
    · cases hs
    · exact Option.some.inj hs ▸ rfl
  | test member =>
    simp only [mainStep, hpc, Option.some.injEq] at hs
    subst hs
    cases member <;> rfl
  | exited _ | killed => simp [mainStep, hpc] at hs
  | _ =>
    simp only [mainStep, hpc, Option.some.injEq] at hs
    exact hs ▸ rfl

lemma sent_step (hs : step d s a = some t) : t.sent = s.sent + [a].count .quit := by
  unfold step at hs
  split at hs
  case isTrue => cases hs
  cases a with
  | main =>
    simp only [Option.ite_none_right_eq_some] at hs
    exact sent_mainStep hs.2
  | quit => exact Option.some.inj hs ▸ rfl
  | deliver =>
    simp only [Option.ite_none_right_eq_some, Option.some.injEq] at hs
    obtain ⟨-, rfl⟩ := hs
    unfold deliver
    split <;> rfl
  | handler =>
    simp only [sig_quit] at hs
    split at hs
    · exact Option.some.inj hs ▸ rfl
    · exact Option.some.inj hs ▸ rfl
    · exact Option.some.inj hs ▸ rfl
    · cases hs

lemma sent_exec (he : (machine d ignored m).exec s as = some t) : t.sent = s.sent + as.count .quit := by
  induction as generalizing s with
  | nil => simp [Option.some.inj he]
  | cons a as ih =>
    obtain ⟨u, hu, hr⟩ := exec_cons_iff.mp he
    rw [ih hr, sent_step hu, Nat.add_assoc, ← List.count_append]
    rfl

theorem killed_by_two (he : (machine d ignored m).exec (start ignored m) as = some t)
    (hq : (machine d ignored m).Along (fun s a => a = .quit → s.pc ≠ .signal) (start ignored m) as)
    (hx : t.pc = .killed) : 2 ≤ as.count .quit := by
  have hsent := sent_exec he
  rw [start, Nat.zero_add] at hsent
  rw [← hsent]
  rcases inv_clean.exec rfl hq he with ⟨-, hk⟩ | ⟨h, hl⟩
  · exact hk trivial
  · have hshape := hl.shape
    simp [hx, blockedShapes, shapes] at hshape

def killedRun : List Action := [.main, .quit, .deliver, .handler, .handler, .handler, .quit, .deliver]

theorem killed_by_two_killedRun : 2 ≤ killedRun.count .quit := by
  obtain ⟨t, he, ht⟩ := Option.map_eq_some_iff.mp (show
    ((machine .single false ∅).exec (start false ∅) killedRun).map (·.pc) = some .killed by decide +kernel)
  exact killed_by_two he (by decide +kernel) ht

end ApueCode.Sigpending
