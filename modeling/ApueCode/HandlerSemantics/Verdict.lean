import ApueCode.HandlerSemantics.Model

/-! What the two sections print: the first answer is right unless `SIGUSR1` is blocked, the second one depends on where
in the handler its signal comes again. -/

namespace ApueCode.HandlerSemantics

open Posix Transition Machine

variable {sa_flags : ℕ} {kept : Bool} {m : Mask} {s t : State} {a : Action} {as : List Action} {P : Prop}
  {f : Frame HandlerPc} {fs : List (Frame HandlerPc)} {pc : HandlerPc} {r : Bool × ℕ} {left n : ℕ} {x : Signo}

def settle (pc : HandlerPc) (r : Bool × ℕ) : Bool × ℕ :=
  match pc with
  | .signal | .testNeed => if r.1 then (false, 0) else r
  | .clearNeed => (false, 0)
  | .sleep | .sleeping _ => (r.1, 0)
  | .store left => (r.1, left)
  | .sig_usr1 | .return => r

def finish (fs : List (Frame HandlerPc)) (r : Bool × ℕ) : Bool × ℕ := fs.foldl (fun r f => settle f.pc r) r

def State.result (s : State) : Bool × ℕ := finish s.ctx.frames (s.need_sleep, s.left_to_sleep)

@[simp] lemma finish_nil : finish [] r = r := rfl

@[simp] lemma finish_cons : finish (f :: fs) r = finish fs (settle f.pc r) := rfl

inductive Handled (sa_flags : ℕ) (s t : State) (f : Frame HandlerPc) (fs : List (Frame HandlerPc)) : Prop
  | goes (pc : HandlerPc) (hc : t.ctx = ⟨s.ctx.mask, ⟨pc, f.saved⟩ :: fs⟩) (hf : f.pc ≠ .sig_usr1)
      (hpc : pc ≠ .sig_usr1 ∧ pc ≠ .signal ∧ ∀ left, pc = .store left → left = 0)
      (hh : t.handlers = if f.pc = .signal then Function.update s.handlers .SIGUSR2 (some sa_flags) else s.handlers)
  | returns (hc : t.ctx = ⟨f.saved, fs⟩) (hf : f.pc ≠ .signal) (hh : t.handlers = s.handlers)

lemma handlerStep_cases (hs : handlerStep sa_flags s = some t) : ∃ f fs, s.ctx.frames = f :: fs ∧
    t.main = s.main ∧ t.pending = s.pending ∧ t.child = s.child ∧ t.stdout = s.stdout ∧ t.result = s.result ∧
    Handled sa_flags s t f fs := by
  unfold handlerStep at hs
  split at hs
  · cases hs
  · rename_i f fs hf
    refine ⟨f, fs, hf, ?_⟩
    obtain ⟨fpc, saved⟩ := f
    have hgoto : ∀ pc, s.ctx.goto pc = ⟨s.ctx.mask, ⟨pc, saved⟩ :: fs⟩ := fun pc => by simp [Context.goto, hf]
    cases fpc with
    | sig_usr1 | «return» =>
      obtain rfl := Option.some.inj hs
      refine ⟨rfl, rfl, rfl, rfl, ?_, .returns (by simp [Context.leave, hf]) (by simp) rfl⟩
      simp [State.result, Context.leave, hf, settle]
    | testNeed =>
      obtain rfl := Option.some.inj hs
      refine ⟨rfl, rfl, rfl, rfl, ?_, .goes _ (hgoto _) (by simp) ?_ (by simp)⟩
      · cases hn : s.need_sleep <;> simp [State.result, hgoto, hf, settle, hn]
      · cases hn : s.need_sleep <;> simp
    | signal | clearNeed | sleep | sleeping n | store left =>
      obtain rfl := Option.some.inj hs
      refine ⟨rfl, rfl, rfl, rfl, ?_, .goes _ (hgoto _) (by simp) (by simp) (by simp)⟩
      simp [State.result, hgoto, hf, settle]

lemma deliver_eq (h : s.handlers x = some sa_flags) : deliver s x left = { s with
    pending := s.pending.erase x
    handlers := if resets sa_flags then Function.update s.handlers x none else s.handlers
    ctx := enter s.ctx (entry x) x left sa_flags } := by
  rw [deliver, h]

def Layered (sa_flags : ℕ) (base : Mask) : Mask → List (Frame HandlerPc) → Prop
  | mask, [] => mask = base
  | mask, f :: fs => f.saved ⊆ mask ∧ (defers sa_flags = true → .SIGUSR2 ∈ mask) ∧ Layered sa_flags base f.saved fs

lemma Layered.base {mask : Mask} (h : Layered sa_flags m mask fs) : m ⊆ mask := by
  induction fs generalizing mask with
  | nil => exact (show mask = m from h).ge
  | cons f fs ih => exact (ih h.2.2).trans h.1

def NoRest (fs : List (Frame HandlerPc)) : Prop := ∀ f ∈ fs, ∀ left, f.pc = .store left → left = 0

lemma finish_zero (h : NoRest fs) : finish fs (false, 0) = (false, 0) := by
  induction fs with
  | nil => rfl
  | cons f fs ih =>
    have hf : settle f.pc (false, 0) = (false, 0) := by
      cases hpc : f.pc with
      | store left => simp [settle, h f (by simp) left hpc]
      | _ => rfl
    rw [finish_cons, hf]
    exact ih fun g hg => h g (by simp [hg])

def CutShort (s : State) : Action → Prop
  | .deliver _ left => ∃ f ∈ s.ctx.frames.head?, ∃ n, f.pc = .sleeping n ∧ min left n ≠ 0
  | _ => False

instance (pc : HandlerPc) (left : ℕ) : Decidable (∃ n, pc = .sleeping n ∧ min left n ≠ 0) :=
  match pc with
  | .sleeping seconds => decidable_of_iff (min left seconds ≠ 0) (by simp)
  | .sig_usr1 | .signal | .testNeed | .clearNeed | .sleep | .store _ | .return => isFalse (by simp)

instance (s : State) (a : Action) : Decidable (CutShort s a) :=
  match a with
  | .deliver _ left =>
    inferInstanceAs (Decidable (∃ f ∈ s.ctx.frames.head?, ∃ n, f.pc = .sleeping n ∧ min left n ≠ 0))
  | .main | .forkFails | .child | .handler => isFalse id

inductive Progress (m : Mask) (P : Prop) (s : State) : Prop
  | fresh (hf : s.ctx.frames = []) (hn : s.need_sleep = true) (hl : s.left_to_sleep = 5)
      (hc : s.child ≠ .kill → .SIGUSR2 ∈ s.pending)
  | started (hm : .SIGUSR2 ∉ m) (hr : P → s.result = (false, 0) ∧ NoRest s.ctx.frames) (hk : s.child ≠ .kill)
      (hp : s.child = .sleep ∨ s.child = .killAgain → .SIGUSR2 ∉ s.pending)
      (hl : s.child = .sleep ∨ s.child = .killAgain ∨ .SIGUSR2 ∈ s.pending → s.ctx.frames.length ≤ 1)

structure Waiting (sa_flags : ℕ) (m : Mask) (P : Prop) (s : State) : Prop where
  layered : Layered sa_flags m s.ctx.mask s.ctx.frames
  caught : s.handlers .SIGUSR2 = some sa_flags ∨
    s.handlers .SIGUSR2 = none ∧ resets sa_flags = true ∧ ∃ f ∈ s.ctx.frames.head?, f.pc = .signal
  known : s.pending ⊆ {.SIGUSR1, .SIGUSR2}
  usr1 : .SIGUSR1 ∈ s.pending → .SIGUSR1 ∈ m
  born : s.child ≠ .unborn
  unsent : s.child = .kill → .SIGUSR2 ∉ s.pending
  progress : Progress m P s

lemma Layered.modifyHead {mask : Mask} (h : Layered sa_flags m mask fs) :
    Layered sa_flags m mask (fs.modifyHead fun f => { f with pc := wake left f.pc }) := by
  cases fs with
  | nil => exact h
  | cons f fs => exact h

lemma finish_modifyHead (h : ¬ CutShort s (.deliver x left)) (hn : NoRest s.ctx.frames) :
    NoRest (s.ctx.frames.modifyHead fun f => { f with pc := wake left f.pc }) ∧
      finish (s.ctx.frames.modifyHead fun f => { f with pc := wake left f.pc }) r = finish s.ctx.frames r := by
  cases hf : s.ctx.frames with
  | nil => exact ⟨by simp [NoRest], rfl⟩
  | cons f fs =>
    rw [hf] at hn
    have htail : NoRest fs := fun g hg => hn g (by simp [hg])
    have hhead : (∀ v, wake left f.pc = .store v → v = 0) ∧ settle (wake left f.pc) r = settle f.pc r := by
      cases hpc : f.pc with
      | sleeping n =>
        have hz : min left n = 0 := by
          by_contra hne
          exact h ⟨f, by simp [hf], n, hpc, hne⟩
        simp [wake, settle, hz]
      | store v => simp [wake, hn f (by simp) v hpc]
      | _ => simp [wake]
    refine ⟨?_, by simp [hhead.2]⟩
    intro g hg
    rcases List.mem_cons.mp hg with rfl | hg
    · exact hhead.1
    · exact htail g hg

namespace Waiting

lemma child (h : Waiting sa_flags m P s) (hs : childStep kept s = some t) : Waiting sa_flags m P t := by
  obtain ⟨hlayer, hcaught, hknown, husr1, hborn, hunsent, hprog⟩ := h
  have hinsert : ∀ y, y ∈ insert Signo.SIGUSR2 s.pending → y = .SIGUSR2 ∨ y ∈ s.pending := by simp
  unfold childStep at hs
  split at hs <;> simp only [reduceCtorEq, Option.some.injEq] at hs <;> subst hs <;> rename_i hc
  · refine ⟨hlayer, hcaught, ?_, by simpa using husr1, by simp, by simp, ?_⟩
    · exact Finset.insert_subset (by simp) hknown
    · cases hprog with
      | fresh hf hn hl hp => exact .fresh hf hn hl (by simp)
      | started hm hr hk => exact (hk hc).elim
  · refine ⟨hlayer, hcaught, hknown, husr1, by simp, by simp, ?_⟩
    cases hprog with
    | fresh hf hn hl hp => exact .fresh hf hn hl fun _ => hp (by simp [hc])
    | started hm hr hk hp hl => exact .started hm hr (by simp) (fun _ => hp (.inl hc)) fun _ => hl (.inl hc)
  · refine ⟨hlayer, hcaught, ?_, by simpa using husr1, by simp, by simp, ?_⟩
    · exact Finset.insert_subset (by simp) hknown
    · cases hprog with
      | fresh hf hn hl hp => exact .fresh hf hn hl (by simp)
      | started hm hr hk hp hl => exact .started hm hr (by simp) (by simp) fun _ => hl (.inr (.inl hc))
  · refine ⟨hlayer, hcaught, hknown, husr1, by cases kept <;> simp, by cases kept <;> simp, ?_⟩
    cases hprog with
    | fresh hf hn hl hp => exact .fresh hf hn hl fun _ => hp (by simp [hc])
    | started hm hr hk hp hl =>
      refine .started hm hr (by cases kept <;> simp) (by cases kept <;> simp) fun h => hl ?_
      rcases h with h | h | h
      · cases kept <;> simp at h
      · cases kept <;> simp at h
      · exact .inr (.inr h)

lemma handler (h : Waiting sa_flags m P s) (hs : handlerStep sa_flags s = some t) : Waiting sa_flags m P t := by
  obtain ⟨f, fs, hf, -, hp, hc, -, hr, hh⟩ := handlerStep_cases hs
  obtain ⟨hlayer, hcaught, hknown, husr1, hborn, hunsent, hprog⟩ := h
  rw [hf] at hlayer
  have hset : f.pc ≠ .signal → s.handlers .SIGUSR2 = some sa_flags := by
    intro hne
    refine hcaught.resolve_right fun h => ?_
    obtain ⟨g, hg, hsig⟩ := h.2.2
    obtain rfl : f = g := by simpa [hf] using hg
    exact hne hsig
  cases hprog with
  | fresh hnil => simp [hf] at hnil
  | started hm hres hk hpend hl =>
    rw [hf] at hl hres
    cases hh with
    | goes pc htc hne hpc hhand =>
      refine ⟨by rw [htc]; exact hlayer, ?_, by rw [hp]; exact hknown, by rw [hp]; exact husr1, by rw [hc]; exact hborn,
        by rw [hp, hc]; exact hunsent, .started hm ?_ (by rw [hc]; exact hk) (by rw [hp, hc]; exact hpend) ?_⟩
      · by_cases hsig : f.pc = .signal
        · exact .inl (by simp [hhand, hsig])
        · exact .inl (by rw [hhand, if_neg hsig]; exact hset hsig)
      · intro hP
        refine ⟨hr.trans (hres hP).1, ?_⟩
        rw [htc]
        intro g hg
        rcases List.mem_cons.mp hg with rfl | hg
        · exact hpc.2.2
        · exact (hres hP).2 g (by simp [hg])
      · rw [hp, hc, htc]
        exact hl
    | returns htc hne hhand =>
      refine ⟨by rw [htc]; exact hlayer.2.2, .inl (by rw [hhand]; exact hset hne), by rw [hp]; exact hknown,
        by rw [hp]; exact husr1, by rw [hc]; exact hborn, by rw [hp, hc]; exact hunsent,
        .started hm ?_ (by rw [hc]; exact hk) (by rw [hp, hc]; exact hpend) ?_⟩
      · intro hP
        refine ⟨hr.trans (hres hP).1, ?_⟩
        rw [htc]
        exact fun g hg => (hres hP).2 g (by simp [hg])
      · rw [hp, hc, htc]
        exact fun h => Nat.le_of_succ_le (hl h)

lemma deliver (h : Waiting sa_flags m P s) (left : ℕ) (hx : x ∈ s.pending) (hmask : x ∉ s.ctx.mask) :
    x = .SIGUSR2 ∧ (s.handlers x = none ∧ resets sa_flags = true ∧ defers sa_flags = false ∧
          (∃ f ∈ s.ctx.frames.head?, f.pc = .signal) ∨
        s.handlers x = some sa_flags ∧
          ((P → ¬ CutShort s (.deliver x left)) → Waiting sa_flags m P (deliver s x left))) := by
  obtain ⟨hlayer, hcaught, hknown, husr1, hborn, hunsent, hprog⟩ := h
  have hbase : x ∉ m := fun hm => hmask (hlayer.base hm)
  obtain rfl : x = .SIGUSR2 := by
    rcases Finset.mem_insert.mp (hknown hx) with rfl | hx'
    · exact (hbase (husr1 hx)).elim
    · exact Finset.mem_singleton.mp hx'
  refine ⟨rfl, ?_⟩
  rcases hcaught with hset | ⟨hnone, hres, f, hf, hsig⟩
  · refine .inr ⟨hset, fun hcut => ?_⟩
    have hk : s.child ≠ .kill := fun hc => hunsent hc hx
    rw [deliver_eq hset]
    refine ⟨⟨?_, ?_, hlayer.modifyHead⟩, ?_, (Finset.erase_subset _ _).trans hknown,
      fun h => husr1 (Finset.mem_of_mem_erase h), hborn, fun hc => (hk hc).elim, ?_⟩
    · simp only [enter]
      split
      · exact Finset.subset_insert _ _
      · exact subset_rfl
    · intro hdef
      simp [enter, hdef]
    · cases hr : resets sa_flags with
      | false => exact .inl hset
      | true => exact .inr ⟨by simp, rfl, _, rfl, rfl⟩
    · cases hprog with
      | fresh hf hn hl hp =>
        refine .started hbase (fun _ => ⟨?_, ?_⟩) hk (by simp) (by simp [enter, hf])
        · simp [State.result, enter, entry, hf, settle, hn]
        · simp [NoRest, enter, entry, hf]
      | started hm hr hk hp hl =>
        refine .started hm (fun hP => ?_) hk (by simp) fun h => ?_
        · obtain ⟨hres, hrest⟩ := hr hP
          have hfin := fun r => (finish_modifyHead (r := r) (hcut hP) hrest).2
          refine ⟨?_, ?_⟩
          · cases hn : s.need_sleep with
            | true => simp [State.result, enter, entry, settle, hfin, finish_zero hrest]
            | false => simpa [State.result, enter, entry, settle, hn, hfin] using hres
          · intro g hg
            rcases List.mem_cons.mp hg with rfl | hg
            · simp [entry]
            · exact (finish_modifyHead (r := (false, 0)) (hcut hP) hrest).1 g hg
        · rcases h with h | h | h
          · exact (hp (.inl h) hx).elim
          · exact (hp (.inr h) hx).elim
          · simp at h
  · refine .inl ⟨hnone, hres, ?_, f, hf, hsig⟩
    obtain ⟨fs, hfs⟩ := List.head?_eq_some_iff.mp hf
    rw [hfs] at hlayer
    by_contra hdef
    exact hmask (hlayer.2.1 (by simpa using hdef))

end Waiting

def firstLine (sa_flags : ℕ) (m : Mask) : String :=
  if resets sa_flags = true ∧ .SIGUSR1 ∉ m then resetLine else notResetLine

structure Idle (m : Mask) (s : State) : Prop where
  ctx : s.ctx = ⟨m, []⟩
  need : s.need_sleep = true
  left : s.left_to_sleep = 5
  child : s.child = .unborn

structure Known (m : Mask) (P : Prop) (s : State) : Prop where
  ctx : s.ctx = ⟨m, []⟩
  child : s.child = .gone
  pending : s.pending ⊆ m
  blocked : .SIGUSR2 ∈ m → s.left_to_sleep = 5
  slept : .SIGUSR2 ∉ m → P → s.left_to_sleep = 0

inductive Inv (sa_flags : ℕ) (m : Mask) (P : Prop) (s : State) : Prop
  | signalUsr1 (hpc : s.main = .signalUsr1) (hi : Idle m s) (hp : s.pending = ∅) (ho : s.stdout = [])
  | kill (hpc : s.main = .kill) (hi : Idle m s) (hp : s.pending = ∅) (ho : s.stdout = [])
      (hh : s.handlers .SIGUSR1 = some sa_flags)
  | sent (hpc : s.main = .query) (hi : Idle m s) (hp : s.pending = {.SIGUSR1}) (ho : s.stdout = [])
      (hh : s.handlers .SIGUSR1 = some sa_flags)
  | handling (hpc : s.main = .query) (mask : Mask) (hctx : s.ctx = ⟨mask, [⟨.sig_usr1, m⟩]⟩)
      (hi : Idle m { s with ctx := ⟨m, []⟩ }) (hp : s.pending = ∅) (ho : s.stdout = []) (hm : .SIGUSR1 ∉ m)
      (hh : s.handlers .SIGUSR1 = none ↔ resets sa_flags = true)
  | handled (hpc : s.main = .query) (hi : Idle m s) (hp : s.pending = ∅) (ho : s.stdout = []) (hm : .SIGUSR1 ∉ m)
      (hh : s.handlers .SIGUSR1 = none ↔ resets sa_flags = true)
  | signalUsr2 (hpc : s.main = .signalUsr2) (hi : Idle m s) (hp : s.pending ⊆ {.SIGUSR1})
      (hm : .SIGUSR1 ∈ s.pending → .SIGUSR1 ∈ m) (ho : s.stdout = [firstLine sa_flags m])
  | fork (hpc : s.main = .fork) (hi : Idle m s) (hp : s.pending ⊆ {.SIGUSR1})
      (hm : .SIGUSR1 ∈ s.pending → .SIGUSR1 ∈ m) (ho : s.stdout = [firstLine sa_flags m])
      (hh : s.handlers .SIGUSR2 = some sa_flags)
  | waitpid (hpc : s.main = .waitpid) (h : Waiting sa_flags m P s) (ho : s.stdout = [firstLine sa_flags m])
  | test (hpc : s.main = .test) (hk : Known m P s) (ho : s.stdout = [firstLine sa_flags m])
  | finished (hpc : s.main = .finished) (hk : Known m P s) (ho : s.stdout =
      [firstLine sa_flags m, if s.left_to_sleep ≠ 0 then notPreventLine else preventLine])
  | exited (hpc : s.main = .exited EXIT_FAILURE)
  | killed (hpc : s.main = .killed) (hr : resets sa_flags = true) (hd : defers sa_flags = false)
      (hf : ∃ f ∈ s.ctx.frames.head?, f.pc = .signal)

lemma inv_main (h : Inv sa_flags m P s) (hf : s.ctx.frames = []) (hs : mainStep sa_flags s = some t) :
    Inv sa_flags m P t := by
  cases h with
  | signalUsr1 hpc hi hp ho =>
    simp only [mainStep, hpc, Option.some.injEq] at hs
    subst hs
    exact .kill rfl ⟨hi.ctx, hi.need, hi.left, hi.child⟩ hp ho (by simp)
  | kill hpc hi hp ho hh =>
    simp only [mainStep, hpc, Option.some.injEq] at hs
    subst hs
    exact .sent rfl ⟨hi.ctx, hi.need, hi.left, hi.child⟩ (by simp [hp]) ho hh
  | sent hpc hi hp ho hh =>
    simp only [mainStep, hpc, Option.ite_none_left_eq_some, Option.some.injEq] at hs
    obtain ⟨hint, rfl⟩ := hs
    have hm : .SIGUSR1 ∈ m := by
      by_contra hm
      exact hint ⟨.SIGUSR1, by simp [hp], by simpa [hi.ctx] using hm⟩
    exact .signalUsr2 rfl ⟨hi.ctx, hi.need, hi.left, hi.child⟩ (by simp [hp]) (fun _ => hm)
      (by simp [ho, hh, firstLine, hm])
  | handling hpc mask hctx => simp [hctx] at hf
  | handled hpc hi hp ho hm hh =>
    simp only [mainStep, hpc, Option.ite_none_left_eq_some, Option.some.injEq] at hs
    obtain ⟨hint, rfl⟩ := hs
    exact .signalUsr2 rfl ⟨hi.ctx, hi.need, hi.left, hi.child⟩ (by simp [hp]) (by simp [hp])
      (by simp [ho, hh, firstLine, hm])
  | signalUsr2 hpc hi hp hm ho =>
    simp only [mainStep, hpc, Option.some.injEq] at hs
    subst hs
    exact .fork rfl ⟨hi.ctx, hi.need, hi.left, hi.child⟩ hp hm ho (by simp)
  | fork hpc hi hp hm ho hh =>
    simp only [mainStep, hpc, Option.some.injEq] at hs
    subst hs
    refine .waitpid rfl ⟨by simp [hi.ctx, Layered], .inl hh, hp.trans (by simp), hm, by simp, fun _ hx => ?_,
      .fresh hf hi.need hi.left (by simp)⟩ ho
    simpa using hp hx
  | waitpid hpc h ho =>
    simp only [mainStep, hpc, Option.ite_none_left_eq_some] at hs
    obtain ⟨hint, hs⟩ := hs
    have hlayer := h.layered
    rw [hf] at hlayer
    have hmask : s.ctx.mask = m := hlayer
    have hsub : s.pending ⊆ m := by
      intro x hx
      by_contra hm
      exact hint ⟨x, hx, by rwa [hmask]⟩
    split at hs <;> simp only [reduceCtorEq, Option.some.injEq] at hs <;> subst hs <;> rename_i hc
    · refine .test rfl ⟨?_, rfl, hsub, fun hm => ?_, fun hm hP => ?_⟩ ho
      · exact congrArg₂ Context.mk hmask hf
      · cases h.progress with
        | fresh _ hn hl => exact hl
        | started hm' => exact (hm' hm).elim
      · cases h.progress with
        | fresh _ hn hl hp => exact (hm (hsub (hp (by simp [hc])))).elim
        | started _ hr =>
          have hres := (hr hP).1
          rw [State.result, hf] at hres
          exact (Prod.mk.inj hres).2
    · exact .exited rfl
  | test hpc hk ho =>
    simp only [mainStep, hpc, Option.some.injEq] at hs
    subst hs
    exact .finished rfl ⟨hk.ctx, hk.child, hk.pending, hk.blocked, hk.slept⟩ (by simp [ho])
  | finished hpc | exited hpc | killed hpc => simp [mainStep, hpc] at hs

lemma inv_child (h : Inv sa_flags m P s) (hs : childStep kept s = some t) : Inv sa_flags m P t := by
  have hun : s.child ≠ .unborn := by
    intro hc
    simp [childStep, hc] at hs
  have hgone : s.child ≠ .gone := by
    intro hc
    simp [childStep, hc] at hs
  have hsame : t.main = s.main ∧ t.stdout = s.stdout ∧ t.ctx = s.ctx := by
    unfold childStep at hs
    split at hs <;> simp only [reduceCtorEq, Option.some.injEq] at hs <;> subst hs <;> exact ⟨rfl, rfl, rfl⟩
  obtain ⟨hmain, hout, hctx⟩ := hsame
  cases h with
  | waitpid hpc h ho => exact .waitpid (hmain.trans hpc) (h.child hs) (hout.trans ho)
  | test hpc hk | finished hpc hk => exact (hgone hk.child).elim
  | exited hpc => exact .exited (hmain.trans hpc)
  | killed hpc hr hd hf => exact .killed (hmain.trans hpc) hr hd (hctx ▸ hf)
  | handling hpc mask hx hi => exact (hun hi.child).elim
  | signalUsr1 hpc hi | kill hpc hi | sent hpc hi | handled hpc hi | signalUsr2 hpc hi | fork hpc hi =>
    exact (hun hi.child).elim

lemma inv_handler (h : Inv sa_flags m P s) (hend : s.main.hasEnded = false) (hs : handlerStep sa_flags s = some t) :
    Inv sa_flags m P t := by
  have hne : s.ctx.frames ≠ [] := by
    intro hf
    simp [handlerStep, hf] at hs
  cases h with
  | handling hpc mask hx hi hp ho hm hh =>
    have ht : t = { s with ctx := ⟨m, []⟩ } := by
      simp only [handlerStep, hx, Context.leave, Option.some.injEq] at hs
      exact hs.symm
    exact ht ▸ .handled hpc hi hp ho hm hh
  | waitpid hpc h ho =>
    obtain ⟨f, fs, -, hmain, -, -, hout, -⟩ := handlerStep_cases hs
    exact .waitpid (hmain.trans hpc) (h.handler hs) (hout.trans ho)
  | test hpc hk | finished hpc hk => simp [hk.ctx] at hne
  | exited hpc | killed hpc => simp [hpc, Pc.hasEnded] at hend
  | signalUsr1 hpc hi | kill hpc hi | sent hpc hi | handled hpc hi | signalUsr2 hpc hi | fork hpc hi =>
    simp [hi.ctx] at hne

lemma inv_deliver (h : Inv sa_flags m P s) (hx : x ∈ s.pending) (hmask : x ∉ s.ctx.mask)
    (hend : s.main.hasEnded = false) (hcut : P → ¬ CutShort s (.deliver x left)) :
    Inv sa_flags m P (deliver s x left) := by
  cases h with
  | sent hpc hi hp ho hh =>
    obtain rfl : x = .SIGUSR1 := by simpa [hp] using hx
    have hm : .SIGUSR1 ∉ m := by simpa [hi.ctx] using hmask
    rw [deliver_eq hh]
    refine .handling hpc (enter s.ctx .sig_usr1 .SIGUSR1 left sa_flags).mask ?_ ⟨rfl, hi.need, hi.left, hi.child⟩
      (by simp [hp]) ho hm ?_
    · simp [enter, entry, hi.ctx]
    · cases hr : resets sa_flags with
      | true => simp
      | false => simp [hh]
  | waitpid hpc h ho =>
    obtain ⟨rfl, ⟨hnone, hr, hd, hf⟩ | ⟨hset, hw⟩⟩ := h.deliver left hx hmask
    · simp only [deliver, hnone]
      exact .killed rfl hr hd hf
    · have hsame : (deliver s .SIGUSR2 left).main = s.main ∧ (deliver s .SIGUSR2 left).stdout = s.stdout := by
        simp [deliver, hset]
      exact .waitpid (hsame.1.trans hpc) (hw hcut) (hsame.2.trans ho)
  | signalUsr2 hpc hi hp hm | fork hpc hi hp hm =>
    obtain rfl : x = .SIGUSR1 := by simpa using hp hx
    exact (hmask (by simpa [hi.ctx] using hm hx)).elim
  | test hpc hk | finished hpc hk => exact (hmask (by simpa [hk.ctx] using hk.pending hx)).elim
  | signalUsr1 hpc hi hp | kill hpc hi hp | handled hpc hi hp => simp [hp] at hx
  | handling hpc mask hctx hi hp => simp [hp] at hx
  | exited hpc | killed hpc => simp [hpc, Pc.hasEnded] at hend

lemma inv_step (h : Inv sa_flags m P s) (hcut : P → ¬ CutShort s a) (hs : step sa_flags kept s a = some t) :
    Inv sa_flags m P t := by
  cases a with
  | main =>
    simp only [step, Option.ite_none_right_eq_some] at hs
    exact inv_main h hs.1 hs.2
  | forkFails =>
    simp only [step, Option.ite_none_right_eq_some, Option.some.injEq] at hs
    exact hs.2 ▸ .exited rfl
  | child => exact inv_child h hs
  | handler =>
    simp only [step, Option.ite_none_right_eq_some] at hs
    exact inv_handler h hs.1 hs.2
  | deliver x left =>
    simp only [step, Option.ite_none_right_eq_some, Option.some.injEq] at hs
    obtain ⟨⟨hx, hm, hend⟩, rfl⟩ := hs
    exact inv_deliver h hx hm hend hcut

lemma inv : (machine sa_flags kept m).Invariant (fun s a => P → ¬ CutShort s a) (Inv sa_flags m P) where
  base _ hs := hs ▸ .signalUsr1 rfl ⟨rfl, rfl, rfl, rfl⟩ rfl rfl
  step _ _ _ h hcut hs := inv_step h hcut hs

structure Rested (sa_flags : ℕ) (m : Mask) (s : State) : Prop where
  inv : Inv sa_flags m False s
  spent : .SIGUSR2 ∉ s.pending
  child : s.child = .return ∨ s.child = .zombie ∨ s.child = .gone
  result : s.result.2 ≠ 0

lemma Rested.born (h : Rested sa_flags m s) : s.child ≠ .unborn := by
  rcases h.child with hc | hc | hc <;> simp [hc]

lemma Rested.quiet (h : Rested sa_flags m s) (hx : x ∈ s.pending) (hend : s.main.hasEnded = false) :
    x ∈ s.ctx.mask := by
  by_contra hmask
  cases h.inv with
  | waitpid hpc hw ho =>
    obtain ⟨rfl, -⟩ := hw.deliver 0 hx hmask
    exact h.spent hx
  | test hpc hk | finished hpc hk => exact hmask (by simpa [hk.ctx] using hk.pending hx)
  | exited hpc | killed hpc => simp [hpc, Pc.hasEnded] at hend
  | handling hpc mask hctx hi => exact h.born hi.child
  | signalUsr1 hpc hi | kill hpc hi | sent hpc hi | handled hpc hi | signalUsr2 hpc hi | fork hpc hi =>
    exact h.born hi.child

lemma mainStep_of_born (hb : s.child ≠ .unborn) (h : Inv sa_flags m P s) (hs : mainStep sa_flags s = some t) :
    t.ctx = s.ctx ∧ t.need_sleep = s.need_sleep ∧ t.left_to_sleep = s.left_to_sleep ∧ t.pending = s.pending ∧
      (t.child = s.child ∨ t.child = .gone) := by
  cases h with
  | waitpid hpc h ho =>
    simp only [mainStep, hpc, Option.ite_none_left_eq_some] at hs
    obtain ⟨-, hs⟩ := hs
    split at hs <;> simp only [reduceCtorEq, Option.some.injEq] at hs <;> subst hs
    · exact ⟨rfl, rfl, rfl, rfl, .inr rfl⟩
    · exact ⟨rfl, rfl, rfl, rfl, .inl rfl⟩
  | test hpc hk ho =>
    simp only [mainStep, hpc, Option.some.injEq] at hs
    subst hs
    exact ⟨rfl, rfl, rfl, rfl, .inl rfl⟩
  | finished hpc | exited hpc | killed hpc => simp [mainStep, hpc] at hs
  | handling hpc mask hctx hi => exact (hb hi.child).elim
  | signalUsr1 hpc hi | kill hpc hi | sent hpc hi | handled hpc hi | signalUsr2 hpc hi | fork hpc hi =>
    exact (hb hi.child).elim

lemma rested_stable : (machine sa_flags kept m).Stable (fun _ _ => True) (Rested sa_flags m) := by
  intro s a t h _ hs
  have hinv : Inv sa_flags m False t := inv_step h.inv (fun hf => hf.elim) hs
  cases a with
  | main =>
    simp only [machine, step, Option.ite_none_right_eq_some] at hs
    obtain ⟨hctx, hn, hl, hp, hc⟩ := mainStep_of_born h.born h.inv hs.2
    refine ⟨hinv, hp ▸ h.spent, ?_, ?_⟩
    · rcases hc with hc | hc
      · exact hc ▸ h.child
      · exact .inr (.inr hc)
    · rw [State.result, hctx, hn, hl]
      exact h.result
  | forkFails =>
    simp only [machine, step, Option.ite_none_right_eq_some, Option.some.injEq] at hs
    obtain ⟨-, rfl⟩ := hs
    exact ⟨hinv, h.spent, h.child, h.result⟩
  | child =>
    simp only [machine, step, childStep] at hs
    rcases h.child with hc | hc | hc <;> simp only [hc, reduceCtorEq, Option.some.injEq] at hs
    subst hs
    exact ⟨hinv, h.spent, by cases kept <;> simp, h.result⟩
  | handler =>
    simp only [machine, step, Option.ite_none_right_eq_some] at hs
    obtain ⟨f, fs, -, -, hp, hc, -, hr, -⟩ := handlerStep_cases hs.2
    exact ⟨hinv, hp ▸ h.spent, hc ▸ h.child, hr ▸ h.result⟩
  | deliver x left =>
    simp only [machine, step, Option.ite_none_right_eq_some, Option.some.injEq] at hs
    exact (hs.1.2.1 (h.quiet hs.1.1 hs.1.2.2)).elim

lemma rested_of_cutShort (h : Inv sa_flags m False s) (hcut : CutShort s a) (hs : step sa_flags kept s a = some t) :
    Rested sa_flags m t := by
  have hinv : Inv sa_flags m False t := inv_step h (fun hf => hf.elim) hs
  cases a with
  | deliver x left =>
    simp only [step, Option.ite_none_right_eq_some, Option.some.injEq] at hs
    obtain ⟨⟨hx, hmask, hend⟩, rfl⟩ := hs
    obtain ⟨f, hf, n, hpc, hne⟩ := hcut
    obtain ⟨fs, hfs⟩ := List.head?_eq_some_iff.mp hf
    cases h with
    | waitpid hmain hw ho =>
      obtain ⟨rfl, ⟨-, -, -, g, hg, hsig⟩ | ⟨hset, -⟩⟩ := hw.deliver left hx hmask
      · obtain rfl : f = g := by simpa [hfs] using hg
        cases hpc.symm.trans hsig
      · cases hw.progress with
        | fresh hnil => simp [hnil] at hfs
        | started hm hr hk hp hl =>
          have hlen := hl (.inr (.inr hx))
          obtain rfl : fs = [] := by simpa [hfs] using hlen
          refine ⟨hinv, ?_, ?_, ?_⟩
          · simp [deliver_eq hset]
          · have hborn := hw.born
            have hsent := fun hc => hp hc hx
            rw [deliver_eq hset]
            cases hc : s.child <;> simp_all
          · have hz : left ≠ 0 ∧ n ≠ 0 := by omega
            simp [deliver_eq hset, State.result, enter, entry, hfs, wake, hpc, settle, hz.1, hz.2]
    | test _ hk | finished _ hk => simp [hk.ctx] at hfs
    | exited hpc | killed hpc => simp [hpc, Pc.hasEnded] at hend
    | handling _ mask hctx hi => simp_all
    | signalUsr1 _ hi | kill _ hi | sent _ hi | handled _ hi | signalUsr2 _ hi | fork _ hi => simp [hi.ctx] at hfs
  | _ => exact hcut.elim

end ApueCode.HandlerSemantics
