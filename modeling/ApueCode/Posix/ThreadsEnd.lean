import ApueCode.Posix.Threads

/-! A main thread that joins only threads that end, or that it has cancelled, comes to its own end. -/

namespace ApueCode.Posix.Threads

open Transition

variable {ι β : Type}

def Op.weight : Op β → ℕ
  | .push h => h.length + 2
  | .finish _ => 0
  | _ => 1

def Thread.weight (t : Thread β) : ℕ :=
  (t.code.map Op.weight).sum + (t.handlers.map fun h => h.length + 1).sum

def Op.ends : Op β → Bool
  | .pause | .exit _ | .return _ | .finish _ => true
  | _ => false

section
variable {onReturn : Bool} {t u : Thread β} {xs : List β} {hs : List (List β)} {value : ℤ}

lemma weight_cleanups : ((xs.map Op.cleanup).map Op.weight).sum = xs.length := by
  induction xs with
  | nil => rfl
  | cons x xs ih =>
    simp only [List.map_cons, List.sum_cons, List.length_cons, Op.weight, ih]
    omega

lemma weight_unwind : ((unwind hs value).map Op.weight).sum = hs.flatten.length := by
  rw [unwind, List.map_append, List.sum_append, weight_cleanups]
  rfl

lemma length_flatten_le (hs : List (List β)) : hs.flatten.length ≤ (hs.map fun h => h.length + 1).sum := by
  induction hs with
  | nil => exact Nat.le_refl _
  | cons h hs ih =>
    simp only [List.flatten_cons, List.length_append, List.map_cons, List.sum_cons]
    omega

lemma weight_step (h : t.step onReturn = some (u, xs)) : u.weight < t.weight := by
  have hle := length_flatten_le t.handlers
  unfold Thread.step at h
  split at h
  case h_1 x r hcode | h_2 x r hcode =>
    obtain ⟨rfl, -⟩ := Prod.mk.inj (Option.some.inj h)
    simp [Thread.weight, hcode, Op.weight]
  case h_3 h' r hcode =>
    obtain ⟨rfl, -⟩ := Prod.mk.inj (Option.some.inj h)
    simp only [Thread.weight, hcode, List.map_cons, List.sum_cons, Op.weight]
    omega
  case h_4 run r hcode =>
    obtain ⟨rfl, -⟩ := Prod.mk.inj (Option.some.inj h)
    simp only [Thread.weight, hcode, List.map_append, List.sum_append, weight_cleanups, List.map_cons, List.sum_cons,
      Op.weight]
    cases t.handlers <;> cases run <;> simp <;> omega
  case h_5 value r hcode =>
    obtain ⟨rfl, -⟩ := Prod.mk.inj (Option.some.inj h)
    simp only [Thread.weight, hcode, weight_unwind, List.map_cons, List.sum_cons, Op.weight, List.map_nil,
      List.sum_nil]
    omega
  case h_6 value r hcode =>
    obtain ⟨rfl, -⟩ := Prod.mk.inj (Option.some.inj h)
    simp only [Thread.weight, hcode, weight_unwind, List.map_cons, List.sum_cons, Op.weight, List.map_nil,
      List.sum_nil]
    cases onReturn with
    | false => simp
    | true =>
      simp only [if_true]
      omega
  all_goals cases h

lemma weight_act (h : t.code.head?.any Op.cancels = true) : t.act.weight < t.weight := by
  have hle := length_flatten_le t.handlers
  cases hcode : t.code with
  | nil => simp [hcode] at h
  | cons op r =>
    cases op <;> simp only [hcode, List.head?_cons, Option.any_some, Op.cancels, Bool.false_eq_true] at h
    all_goals
      simp only [Thread.act, Thread.weight, hcode, weight_unwind, List.map_cons, List.sum_cons, Op.weight,
        List.map_nil, List.sum_nil]
      omega

lemma ends_unwind : (unwind hs value).any Op.ends = true := by
  simp [unwind, Op.ends]

lemma ends_step (h : t.step onReturn = some (u, xs)) (he : t.code.any Op.ends = true) : u.code.any Op.ends = true := by
  unfold Thread.step at h
  split at h
  case h_1 hcode | h_2 hcode | h_3 hcode =>
    obtain ⟨rfl, -⟩ := Prod.mk.inj (Option.some.inj h)
    rwa [hcode, List.any_cons] at he
  case h_4 hcode =>
    obtain ⟨rfl, -⟩ := Prod.mk.inj (Option.some.inj h)
    rw [hcode, List.any_cons] at he
    rw [List.any_append, Bool.or_eq_true]
    exact .inr he
  case h_5 | h_6 =>
    obtain ⟨rfl, -⟩ := Prod.mk.inj (Option.some.inj h)
    exact ends_unwind
  all_goals cases h

end

namespace Process

variable [DecidableEq ι] (P : Program ι β) {s t : Process ι β} {a : Action ι} {i j : ι} {u : Thread β}

def load (s : Process ι β) (i : ι) : ℕ :=
  match s.thread i with
  | none => ((P.routine i).map Op.weight).sum
  | some t => t.weight

def total [Fintype ι] (s : Process ι β) : ℕ := ∑ i, load P s i

def going (s : Process ι β) : ℕ := if s.status = none then 1 else 0

def rank [Fintype ι] (s : Process ι β) : ℕ := s.main.length + going s + total P s

variable {P}

lemma load_setThread_self : load P (s.setThread i u) i = u.weight := by
  simp [load, setThread]

lemma load_setThread_ne (h : j ≠ i) : load P (s.setThread i u) j = load P s j := by
  simp [load, setThread, h]

lemma total_lt [Fintype ι] (h : u.weight < load P s i) : total P (s.setThread i u) < total P s := by
  apply Finset.sum_lt_sum
  · intro j _
    by_cases hj : j = i
    · rw [hj, load_setThread_self]
      exact h.le
    · rw [load_setThread_ne hj]
  · exact ⟨i, Finset.mem_univ i, by rwa [load_setThread_self]⟩

lemma total_eq [Fintype ι] (h : u.weight = load P s i) : total P (s.setThread i u) = total P s := by
  apply Finset.sum_congr rfl
  intro j _
  by_cases hj : j = i
  · rw [hj, load_setThread_self, h]
  · rw [load_setThread_ne hj]

omit [DecidableEq ι] in
lemma rank_of_goesOn [Fintype ι] (hm : t.main.length < s.main.length) (hg : going t = going s)
    (ht : total P t = total P s) : rank P t < rank P s := by
  unfold rank
  omega

omit [DecidableEq ι] in
lemma rank_of_ends [Fintype ι] (h : s.status = none) (hm : t.main = s.main) (ht : t.status ≠ none)
    (hl : total P t = total P s) : rank P t < rank P s := by
  rw [rank, rank, hm, hl, going, going, if_pos h, if_neg ht]
  omega

lemma rank_mainStep [Fintype ι] (h : s.status = none) (hs : mainStep P s = some t) : rank P t < rank P s := by
  unfold mainStep at hs
  split at hs
  case h_1 hmain => exact Option.some.inj hs ▸ rank_of_ends h rfl nofun rfl
  case h_2 i detached r hmain =>
    split at hs
    case h_2 => cases hs
    next hnone =>
    obtain rfl := Option.some.inj hs
    exact rank_of_goesOn (by simp [hmain]) rfl (total_eq (by simp [load, hnone, Thread.weight]))
  case h_3 i r hmain =>
    split at hs
    case h_2 => cases hs
    next u hu =>
    obtain rfl := Option.some.inj hs
    exact rank_of_goesOn (by simp [hmain]) rfl (total_eq (by simp [load, hu, Thread.weight]))
  case h_4 i r hmain =>
    split at hs
    case h_2 => cases hs
    next u hu =>
    split at hs
    · exact Option.some.inj hs ▸ rank_of_ends h rfl nofun rfl
    · split at hs
      case h_2 => cases hs
      next value r' hcode =>
      obtain rfl := Option.some.inj hs
      exact rank_of_goesOn (by simp [hmain]) rfl rfl

lemma rank_step [Fintype ι] (hs : step P s a = some t) : rank P t < rank P s := by
  unfold step at hs
  split at hs
  case isTrue => cases hs
  next hstatus =>
  rw [not_not] at hstatus
  cases a with
  | main => exact rank_mainStep hstatus hs
  | createFails =>
    simp only at hs
    split at hs
    case h_2 => cases hs
    next i detached r hmain => exact Option.some.inj hs ▸ rank_of_ends hstatus rfl nofun rfl
  | run i =>
    simp only [runStep] at hs
    split at hs
    case h_2 => cases hs
    next u hu =>
    obtain ⟨⟨v, xs⟩, hstep, rfl⟩ := Option.map_eq_some_iff.mp hs
    have ht : total P (s.setThread i v) < total P s := total_lt (by simpa [load, hu] using weight_step hstep)
    exact Nat.add_lt_add_left ht (s.main.length + going s)
  | cancel i =>
    simp only [cancelStep] at hs
    split at hs
    case h_2 => cases hs
    next u hu =>
    simp only [Bool.and_eq_true, Option.ite_none_right_eq_some, Option.some.injEq] at hs
    obtain ⟨⟨-, hhead⟩, rfl⟩ := hs
    have ht : total P (s.setThread i u.act) < total P s := total_lt (by simpa [load, hu] using weight_act hhead)
    exact Nat.add_lt_add_left ht (s.main.length + going s)

def ready (P : Program ι β) (before : List (MainOp ι)) : MainOp ι → Bool
  | .create i _ => !before.contains (.create i true) && !before.contains (.create i false)
  | .cancel i => before.contains (.create i true) || before.contains (.create i false)
  | .join i =>
    before.contains (.create i true) || before.contains (.create i false) &&
      (before.contains (.cancel i) || !(outcomes false P.onReturn (P.routine i) []).isEmpty)

def orderly (P : Program ι β) : List (MainOp ι) → List (MainOp ι) → Bool
  | _, [] => true
  | before, c :: r => ready P before c && orderly P (before ++ [c]) r

structure Known (P : Program ι β) (before : List (MainOp ι)) (i : ι) (t : Thread β) : Prop where
  detached : .create i t.detached ∈ before ∧ .create i (!t.detached) ∉ before
  canceled : .cancel i ∈ before → t.canceled = true
  ends : t.code.any Op.ends = true
  alive : outcomes false P.onReturn (P.routine i) [] ≠ [] → outcomes false P.onReturn t.code t.handlers ≠ []

structure Live (P : Program ι β) (s : Process ι β) (before : List (MainOp ι)) : Prop where
  main : P.main = before ++ s.main
  orderly : orderly P before s.main = true
  created : ∀ i d, .create i d ∈ before → s.thread i ≠ none
  canceled : ∀ i, .cancel i ∈ before → s.thread i ≠ none
  known : ∀ i t, s.thread i = some t → Known P before i t

variable {before : List (MainOp ι)} {v : Thread β}

lemma live_start (h : Process.orderly P [] P.main = true) : Live P P.start [] where
  main := rfl
  orderly := h
  created i d hm := by cases hm
  canceled i hm := by cases hm
  known i t ht := by cases ht

lemma Live.go (h : Live P s before) (hu : s.thread i = some u) (hk : Known P before i v) :
    Live P (s.setThread i v) before where
  main := h.main
  orderly := h.orderly
  created j d hm := by
    by_cases hj : j = i
    · simp [setThread, hj]
    · simpa [setThread, hj] using h.created j d hm
  canceled j hm := by
    by_cases hj : j = i
    · simp [setThread, hj]
    · simpa [setThread, hj] using h.canceled j hm
  known j w hw := by
    rcases thread_setThread hw with ⟨rfl, rfl⟩ | ⟨-, hw⟩
    · exact hk
    · exact h.known j w hw

lemma live_mainStep (hE : ∀ i, (P.routine i).any Op.ends = true) (h : Live P s before)
    (hs : mainStep P s = some t) : ∃ before, Live P t before := by
  have ho := h.orderly
  unfold mainStep at hs
  split at hs
  case h_1 hmain => exact ⟨before, Option.some.inj hs ▸ { h with }⟩
  case h_2 i detached r hmain =>
    split at hs
    case h_2 => cases hs
    next hnone =>
    obtain rfl := Option.some.inj hs
    rw [hmain, Process.orderly, Bool.and_eq_true] at ho
    have hnew : ∀ d, .create i d ∉ before := fun d hm => h.created i d hm hnone
    refine ⟨before ++ [.create i detached], by simp [h.main, hmain], ho.2, fun j d hm => ?_, fun j hm => ?_, fun j w hw => ?_⟩
    · by_cases hj : j = i
      · simp [setThread, hj]
      · simpa [setThread, hj] using h.created j d (by simpa [hj] using hm)
    · by_cases hj : j = i
      · simp [setThread, hj]
      · simpa [setThread, hj] using h.canceled j (by simpa using hm)
    · rcases thread_setThread hw with ⟨rfl, rfl⟩ | ⟨hj, hw⟩
      · refine ⟨⟨by simp, by simp [hnew]⟩, fun hm => ?_, hE j, id⟩
        exact (h.canceled j (by simpa using hm) hnone).elim
      · have hk := h.known j w hw
        exact ⟨⟨by simp [hk.detached.1], by simp [hk.detached.2, hj]⟩, fun hm => hk.canceled (by simpa using hm), hk.ends,
          hk.alive⟩
  case h_3 i r hmain =>
    split at hs
    case h_2 => cases hs
    next u hu =>
    obtain rfl := Option.some.inj hs
    rw [hmain, Process.orderly, Bool.and_eq_true] at ho
    refine ⟨before ++ [.cancel i], by simp [h.main, hmain], ho.2, fun j d hm => ?_, fun j hm => ?_, fun j w hw => ?_⟩
    · by_cases hj : j = i
      · simp [setThread, hj]
      · simpa [setThread, hj] using h.created j d (by simpa using hm)
    · by_cases hj : j = i
      · simp [setThread, hj]
      · simpa [setThread, hj] using h.canceled j (by simpa [hj] using hm)
    · rcases thread_setThread hw with ⟨rfl, rfl⟩ | ⟨hj, hw⟩
      · have hk := h.known j u hu
        exact ⟨⟨by simp [hk.detached.1], by simp [hk.detached.2]⟩, fun _ => rfl, hk.ends, hk.alive⟩
      · have hk := h.known j w hw
        exact ⟨⟨by simp [hk.detached.1], by simp [hk.detached.2]⟩, fun hm => hk.canceled (by simpa [hj] using hm), hk.ends,
          hk.alive⟩
  case h_4 i r hmain =>
    split at hs
    case h_2 => cases hs
    next u hu =>
    split at hs
    · exact ⟨before, Option.some.inj hs ▸ { h with }⟩
    · split at hs
      case h_2 => cases hs
      next value r' hcode =>
      obtain rfl := Option.some.inj hs
      rw [hmain, Process.orderly, Bool.and_eq_true] at ho
      refine ⟨before ++ [.join i], by simp [h.main, hmain], ho.2, fun j d hm => h.created j d (by simpa using hm),
        fun j hm => h.canceled j (by simpa using hm), fun j w hw => ?_⟩
      have hk := h.known j w hw
      exact ⟨⟨by simp [hk.detached.1], by simp [hk.detached.2]⟩, fun hm => hk.canceled (by simpa using hm), hk.ends,
        hk.alive⟩

lemma live_run (h : Live P s before) (hs : runStep P s i = some t) : Live P t before := by
  unfold runStep at hs
  split at hs
  case h_2 => cases hs
  next u hu =>
  obtain ⟨⟨v, xs⟩, hstep, rfl⟩ := Option.map_eq_some_iff.mp hs
  obtain ⟨early, he, hnil⟩ := outcomes_step (c := false) hstep
  obtain ⟨hc, hd⟩ := flags_step hstep
  have hk := h.known i u hu
  refine { h.go hu (v := v) ⟨hd ▸ hk.detached, hc ▸ hk.canceled, ends_step hstep hk.ends, fun ha hn => ?_⟩ with }
  have := hk.alive ha
  simp [he, hnil rfl, hn] at this

lemma live_cancel (h : Live P s before) (hs : cancelStep s i = some t) : Live P t before := by
  unfold cancelStep at hs
  split at hs
  case h_2 => cases hs
  next u hu =>
  simp only [Option.ite_none_right_eq_some, Option.some.injEq] at hs
  obtain ⟨-, rfl⟩ := hs
  have hk := h.known i u hu
  exact h.go hu ⟨hk.detached, hk.canceled, ends_unwind, fun _ => by simp [Thread.act, outcomes_unwind]⟩

lemma live_step (hE : ∀ i, (P.routine i).any Op.ends = true) (h : Live P s before)
    (hs : step P s a = some t) : ∃ before, Live P t before := by
  unfold step at hs
  split at hs
  · cases hs
  · cases a with
    | main => exact live_mainStep hE h hs
    | run i => exact ⟨before, live_run h hs⟩
    | cancel i => exact ⟨before, live_cancel h hs⟩
    | createFails =>
      simp only at hs
      split at hs
      · exact ⟨before, Option.some.inj hs ▸ { h with }⟩
      · cases hs

lemma live (hE : ∀ i, (P.routine i).any Op.ends = true) (ho : orderly P [] P.main = true) :
    P.machine.Invariant (fun _ _ => True) fun s => ∃ before, Live P s before where
  base _ hs := hs ▸ ⟨[], live_start ho⟩
  step _ _ _ h _ hs := by
    obtain ⟨before, h⟩ := h
    exact live_step hE h hs

lemma runs_or_waits (u : Thread β) (onReturn : Bool) (he : u.code.any Op.ends = true) :
    (∃ r, u.step onReturn = some r) ∨ (∃ r, u.code = .pause :: r) ∨ ∃ value r, u.code = .finish value :: r := by
  cases hcode : u.code with
  | nil => simp [hcode] at he
  | cons op r =>
    cases op with
    | pause => exact .inr (.inl ⟨r, rfl⟩)
    | finish value => exact .inr (.inr ⟨value, r, rfl⟩)
    | _ => exact .inl (by simp [Thread.step, hcode])

theorem progress (hE : ∀ i, (P.routine i).any Op.ends = true) (ho : orderly P [] P.main = true)
    (hs : P.machine.Reachable s) (hrun : s.status = none) : ∃ a t, step P s a = some t := by
  obtain ⟨before, h⟩ := (live hE ho).holds hs
  have hord := h.orderly
  have hmain : ∀ t, mainStep P s = some t → ∃ a t, step P s a = some t :=
    fun t ht => ⟨.main, t, by simp [step, hrun, ht]⟩
  cases hm : s.main with
  | nil => exact hmain _ (by simp only [mainStep, hm]; rfl)
  | cons c r =>
    rw [hm, orderly, Bool.and_eq_true] at hord
    have hready := hord.1
    cases c with
    | create i d =>
      cases ht : s.thread i with
      | none => exact hmain _ (by simp only [mainStep, hm, ht]; rfl)
      | some u =>
        have hk := (h.known i u ht).detached.1
        simp only [ready, Bool.and_eq_true, Bool.not_eq_true', List.contains_eq_mem, decide_eq_false_iff_not] at hready
        cases hd : u.detached <;> rw [hd] at hk
        · exact (hready.2 hk).elim
        · exact (hready.1 hk).elim
    | cancel i =>
      cases ht : s.thread i with
      | some u => exact hmain _ (by simp only [mainStep, hm, ht]; rfl)
      | none =>
        simp only [ready, Bool.or_eq_true, List.contains_eq_mem, decide_eq_true_eq] at hready
        exact (hready.elim (h.created i true) (h.created i false) ht).elim
    | join i =>
      simp only [ready, Bool.or_eq_true, Bool.and_eq_true, List.contains_eq_mem, decide_eq_true_eq] at hready
      cases ht : s.thread i with
      | none => exact (hready.elim (h.created i true) (fun hr => h.created i false hr.1) ht).elim
      | some u =>
        have hk := h.known i u ht
        cases hd : u.detached with
        | true => exact hmain _ (by simp only [mainStep, hm, ht, hd, if_true]; rfl)
        | false =>
          rcases runs_or_waits u P.onReturn hk.ends with ⟨⟨v, xs⟩, hv⟩ | ⟨r', hcode⟩ | ⟨value, r', hcode⟩
          · exact ⟨.run i, _, by simp only [step, hrun, ne_eq, not_true_eq_false, if_false, runStep, ht, hv]; rfl⟩
          · have hc : u.canceled = true := by
              rcases hready with hready | ⟨-, hready | hready⟩
              · have hn := hk.detached.2
                rw [hd] at hn
                exact (hn hready).elim
              · exact hk.canceled hready
              · have hne : outcomes false P.onReturn (P.routine i) [] ≠ [] := by
                  intro hnil
                  simp [hnil] at hready
                have := hk.alive hne
                simp [hcode, outcomes] at this
            exact ⟨.cancel i, _, by simp only [step, hrun, cancelStep, ht, hc, hcode]; rfl⟩
          · exact hmain _ (by simp only [mainStep, hm, ht, hd, hcode]; rfl)

lemma not_created {d d' : Bool} {rest : List (MainOp ι)} (ho : orderly P before rest = true)
    (hm : .create i d ∈ rest) : .create i d' ∉ before := by
  induction rest generalizing before with
  | nil => cases hm
  | cons c r ih =>
    rw [orderly, Bool.and_eq_true] at ho
    rcases List.mem_cons.mp hm with rfl | hm
    · have hr := ho.1
      simp only [ready, Bool.and_eq_true, Bool.not_eq_true', List.contains_eq_mem, decide_eq_false_iff_not] at hr
      cases d'
      · exact hr.2
      · exact hr.1
    · exact fun hb => ih ho.2 hm (List.mem_append_left _ hb)

lemma detached_of_create (h : Live P s before) (hu : s.thread i = some u) (hc : .create i true ∈ P.main) :
    u.detached = true := by
  have hk := (h.known i u hu).detached
  by_contra hd
  rw [Bool.not_eq_true] at hd
  rw [hd] at hk
  rw [h.main, List.mem_append] at hc
  rcases hc with hc | hc
  · exact hk.2 hc
  · exact not_created h.orderly hc hk.1

lemma fails_of_detached (hE : ∀ i, (P.routine i).any Op.ends = true) (ho : orderly P [] P.main = true)
    (hc : .create i true ∈ P.main) (hj : .join i ∈ P.main) :
    P.machine.Invariant (fun _ _ => True)
      fun s => (∃ before, Live P s before) ∧ .join i ∈ s.main ∧ s.status ≠ some 0 := by
  refine (live hE ho).strengthen (fun s hs => hs ▸ ⟨hj, by simp [Program.start]⟩) fun s a t hl _ hs _ hst => ?_
  obtain ⟨before, h⟩ := hl
  obtain ⟨hm, hz⟩ := hs
  unfold Program.machine step at hst
  simp only at hst
  split at hst
  case isTrue => cases hst
  cases a with
  | run k =>
    simp only [runStep] at hst
    split at hst
    · obtain ⟨r, -, rfl⟩ := Option.map_eq_some_iff.mp hst
      exact ⟨hm, hz⟩
    · cases hst
  | cancel k =>
    simp only [cancelStep] at hst
    split at hst
    · simp only [Option.ite_none_right_eq_some, Option.some.injEq] at hst
      exact hst.2 ▸ ⟨hm, hz⟩
    · cases hst
  | createFails =>
    simp only at hst
    split at hst
    · exact Option.some.inj hst ▸ ⟨hm, by simp [fail]⟩
    · cases hst
  | main =>
    simp only [mainStep] at hst
    split at hst
    case h_1 hmain => simp [hmain] at hm
    case h_2 k d r hmain =>
      split at hst
      · obtain rfl := Option.some.inj hst
        exact ⟨by simpa [hmain] using hm, hz⟩
      · cases hst
    case h_3 k r hmain =>
      split at hst
      · obtain rfl := Option.some.inj hst
        exact ⟨by simpa [hmain] using hm, hz⟩
      · cases hst
    case h_4 k r hmain =>
      split at hst
      case h_2 => cases hst
      next u hu =>
      split at hst
      · exact Option.some.inj hst ▸ ⟨hm, by simp [fail]⟩
      · next hd =>
        split at hst
        case h_2 => cases hst
        next value r' hcode =>
        obtain rfl := Option.some.inj hst
        rw [hmain] at hm
        rcases List.mem_cons.mp hm with hk | hm
        · obtain rfl := MainOp.join.inj hk
          exact (hd (detached_of_create h hu hc)).elim
        · exact ⟨hm, hz⟩

end Process

end ApueCode.Posix.Threads
