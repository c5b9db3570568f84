import ApueCode.Transition.Machine

/-! Threads that print, push and pop cleanup handlers, and end; and a main thread that creates, cancels and joins them.
`cleanup` is a line of a handler that runs, and `report` the line that main prints of a thread it has joined. -/

namespace ApueCode.Posix.Threads

open Transition

inductive Op (β : Type)
  | print (x : β) | push (handler : List β) | pop (run : Bool) | pause
  | exit (value : ℤ) | return (value : ℤ) | cleanup (x : β) | finish (value : ℤ)
  deriving DecidableEq

structure Thread (β : Type) where
  code : List (Op β)
  handlers : List (List β)
  canceled : Bool
  detached : Bool

inductive MainOp (ι : Type)
  | create (i : ι) (detached : Bool) | cancel (i : ι) | join (i : ι)
  deriving DecidableEq

structure Program (ι β : Type) where
  main : List (MainOp ι)
  routine : ι → List (Op β)
  report : ι → ℤ → β
  onReturn : Bool

inductive Speaker (ι : Type)
  | thread (i : ι) | join (i : ι)
  deriving DecidableEq

structure Process (ι β : Type) where
  main : List (MainOp ι)
  thread : ι → Option (Thread β)
  out : List (Speaker ι × β)
  status : Option ℕ
  failed : Option (MainOp ι)

inductive Action (ι : Type)
  | main | createFails | run (i : ι) | cancel (i : ι)
  deriving DecidableEq

def PTHREAD_CANCELED : ℤ := -1

variable {ι β : Type}

def unwind (handlers : List (List β)) (value : ℤ) : List (Op β) := handlers.flatten.map .cleanup ++ [.finish value]

def Thread.step (onReturn : Bool) (t : Thread β) : Option (Thread β × List β) :=
  match t.code with
  | .print x :: r | .cleanup x :: r => some ({ t with code := r }, [x])
  | .push h :: r => some ({ t with code := r, handlers := h :: t.handlers }, [])
  | .pop run :: r =>
    some ({ t with
      code := (if run then t.handlers.headD [] else []).map .cleanup ++ r
      handlers := t.handlers.tail }, [])
  | .exit value :: _ => some ({ t with code := unwind t.handlers value, handlers := [] }, [])
  | .return value :: _ =>
    some ({ t with code := unwind (if onReturn then t.handlers else []) value, handlers := [] }, [])
  | .pause :: _ | .finish _ :: _ | [] => none

def Op.cancels : Op β → Bool
  | .pause | .print _ => true
  | _ => false

def Thread.act (t : Thread β) : Thread β := { t with code := unwind t.handlers PTHREAD_CANCELED, handlers := [] }

namespace Process

variable [DecidableEq ι] (P : Program ι β) (s : Process ι β)

def setThread (i : ι) (t : Thread β) : Process ι β := { s with thread := Function.update s.thread i (some t) }

def fail (c : MainOp ι) : Process ι β := { s with status := some 1, failed := some c }

def mainStep : Option (Process ι β) :=
  match s.main with
  | [] => some { s with status := some 0 }
  | .create i detached :: r =>
    match s.thread i with
    | none => some { s.setThread i ⟨P.routine i, [], false, detached⟩ with main := r }
    | some _ => none
  | .cancel i :: r =>
    match s.thread i with
    | some t => some { s.setThread i { t with canceled := true } with main := r }
    | none => none
  | .join i :: r =>
    match s.thread i with
    | some t =>
      if t.detached then some (s.fail (.join i))
      else match t.code with
        | .finish value :: _ => some { s with main := r, out := s.out ++ [(.join i, P.report i value)] }
        | _ => none
    | none => none

def runStep (i : ι) : Option (Process ι β) :=
  match s.thread i with
  | some t =>
    (t.step P.onReturn).map fun r => { s.setThread i r.1 with out := s.out ++ r.2.map fun x => (.thread i, x) }
  | none => none

def cancelStep (i : ι) : Option (Process ι β) :=
  match s.thread i with
  | some t => if t.canceled && t.code.head?.any Op.cancels then some (s.setThread i t.act) else none
  | none => none

def step (a : Action ι) : Option (Process ι β) :=
  if s.status ≠ none then none
  else match a with
  | .main => mainStep P s
  | .createFails =>
    match s.main with
    | .create i detached :: _ => some (s.fail (.create i detached))
    | _ => none
  | .run i => runStep P s i
  | .cancel i => cancelStep s i

end Process

def Program.start (P : Program ι β) : Process ι β := ⟨P.main, fun _ => none, [], none, none⟩

def Program.machine [DecidableEq ι] (P : Program ι β) : Machine (Process ι β) (Action ι) where
  init s := s = P.start
  step := Process.step P

def outcomes (c onReturn : Bool) : List (Op β) → List (List β) → List (List β × ℤ)
  | [], _ => []
  | .print x :: r, hs =>
    (if c then [(hs.flatten, PTHREAD_CANCELED)] else []) ++
      (outcomes c onReturn r hs).map fun o => (x :: o.1, o.2)
  | .cleanup x :: r, hs => (outcomes c onReturn r hs).map fun o => (x :: o.1, o.2)
  | .push h :: r, hs => outcomes c onReturn r (h :: hs)
  | .pop run :: r, hs =>
    (outcomes c onReturn r hs.tail).map fun o => ((if run then hs.headD [] else []) ++ o.1, o.2)
  | .pause :: _, hs => if c then [(hs.flatten, PTHREAD_CANCELED)] else []
  | .exit value :: _, hs => [(hs.flatten, value)]
  | .return value :: _, hs => [((if onReturn then hs else []).flatten, value)]
  | .finish value :: _, _ => [([], value)]

section
variable {c onReturn : Bool} {t u : Thread β} {xs : List β} {hs : List (List β)} {r : List (Op β)} {value : ℤ}

lemma outcomes_cleanups :
    outcomes c onReturn (xs.map .cleanup ++ r) hs = (outcomes c onReturn r hs).map fun o => (xs ++ o.1, o.2) := by
  induction xs with
  | nil => simp
  | cons x xs ih => simp [outcomes, ih, Function.comp_def]

lemma outcomes_unwind : outcomes c onReturn (unwind hs value) [] = [(hs.flatten, value)] := by
  rw [unwind, outcomes_cleanups]
  simp [outcomes]

lemma flags_step (h : t.step onReturn = some (u, xs)) : u.canceled = t.canceled ∧ u.detached = t.detached := by
  unfold Thread.step at h
  split at h
  case h_7 | h_8 | h_9 => cases h
  all_goals
    obtain ⟨rfl, rfl⟩ := Prod.mk.inj (Option.some.inj h)
    exact ⟨rfl, rfl⟩

lemma outcomes_step (h : t.step onReturn = some (u, xs)) :
    ∃ early, outcomes c onReturn t.code t.handlers =
        early ++ (outcomes c onReturn u.code u.handlers).map (fun o => (xs ++ o.1, o.2)) ∧
      (c = false → early = []) := by
  unfold Thread.step at h
  split at h
  case h_1 x r hcode =>
    obtain ⟨rfl, rfl⟩ := Prod.mk.inj (Option.some.inj h)
    exact ⟨if c then [(t.handlers.flatten, PTHREAD_CANCELED)] else [], by simp [hcode, outcomes], by simp +contextual⟩
  case h_2 x r hcode =>
    obtain ⟨rfl, rfl⟩ := Prod.mk.inj (Option.some.inj h)
    exact ⟨[], by simp [hcode, outcomes], fun _ => rfl⟩
  case h_3 h' r hcode =>
    obtain ⟨rfl, rfl⟩ := Prod.mk.inj (Option.some.inj h)
    exact ⟨[], by simp [hcode, outcomes], fun _ => rfl⟩
  case h_4 run r hcode =>
    obtain ⟨rfl, rfl⟩ := Prod.mk.inj (Option.some.inj h)
    exact ⟨[], by simp [hcode, outcomes, outcomes_cleanups], fun _ => rfl⟩
  case h_5 value r hcode =>
    obtain ⟨rfl, rfl⟩ := Prod.mk.inj (Option.some.inj h)
    exact ⟨[], by simp [hcode, outcomes, outcomes_unwind], fun _ => rfl⟩
  case h_6 value r hcode =>
    obtain ⟨rfl, rfl⟩ := Prod.mk.inj (Option.some.inj h)
    exact ⟨[], by simp [hcode, outcomes, outcomes_unwind], fun _ => rfl⟩
  all_goals cases h

lemma outcomes_act (h : t.code.head?.any Op.cancels = true) :
    outcomes true onReturn t.act.code t.act.handlers ⊆ outcomes true onReturn t.code t.handlers := by
  intro o ho
  simp only [Thread.act, outcomes_unwind, List.mem_singleton] at ho
  subst ho
  cases hcode : t.code with
  | nil => simp [hcode] at h
  | cons op r => cases op <;> simp [hcode, Op.cancels, outcomes] at h ⊢

end

def linesOf [DecidableEq ι] (i : ι) (out : List (Speaker ι × β)) : List β :=
  (out.filter fun e => e.1 = .thread i).map Prod.snd

def joined (out : List (Speaker ι × β)) : List ι :=
  out.filterMap fun e => match e.1 with
    | .join i => some i
    | .thread _ => none

lemma joined_append {out : List (Speaker ι × β)} {xs : List β} {j : ι} :
    joined (out ++ xs.map fun y => (Speaker.thread j, y)) = joined out := by
  simp [joined, List.filterMap_map]

lemma joined_join {out : List (Speaker ι × β)} {x : β} {j : ι} : joined (out ++ [(.join j, x)]) = joined out ++ [j] := by
  simp [joined]

def MainOp.joins : MainOp ι → Option ι
  | .join i => some i
  | _ => none

def InOrder (a b : Speaker ι × β) : Prop := ∀ i, a.1 = .join i → b.1 ≠ .thread i

namespace Process

variable [DecidableEq ι] {P : Program ι β} {s t : Process ι β} {a : Action ι} {as : List (Action ι)} {i j : ι}

def mayCancel (P : Program ι β) (i : ι) : Bool := .cancel i ∈ P.main

def Faithful (P : Program ι β) (i : ι) (printed : List β) (t : Thread β) : Prop :=
  ∀ o ∈ outcomes (mayCancel P i) P.onReturn t.code t.handlers,
    (printed ++ o.1, o.2) ∈ outcomes (mayCancel P i) P.onReturn (P.routine i) []

inductive Ended (s : Process ι β) : Prop
  | running (hs : s.status = none) (hf : s.failed = none)
  | returned (hs : s.status = some 0) (hf : s.failed = none) (hm : s.main = [])
  | create (i : ι) (d : Bool) (r : List (MainOp ι)) (hs : s.status = some 1) (hf : s.failed = some (.create i d))
    (hm : s.main = .create i d :: r)
  | join (i : ι) (t : Thread β) (r : List (MainOp ι)) (hs : s.status = some 1) (hf : s.failed = some (.join i))
    (hm : s.main = .join i :: r) (ht : s.thread i = some t) (hd : t.detached = true)

structure Inv (P : Program ι β) (s : Process ι β) : Prop where
  done : ∃ done, P.main = done ++ s.main ∧ joined s.out = done.filterMap MainOp.joins
  silent : ∀ i, s.thread i = none → linesOf i s.out = []
  faithful : ∀ i t, s.thread i = some t → Faithful P i (linesOf i s.out) t
  canceled : ∀ i t, s.thread i = some t → t.canceled = true → mayCancel P i = true
  finished : ∀ i x, (.join i, x) ∈ s.out → ∃ t value r, s.thread i = some t ∧ t.code = .finish value :: r ∧
    x = P.report i value
  order : s.out.Pairwise InOrder

lemma inv_start : Inv P P.start where
  done := ⟨[], rfl, rfl⟩
  silent _ _ := rfl
  faithful i t h := by cases h
  canceled i t h := by cases h
  finished i x h := by cases h
  order := List.Pairwise.nil

variable {out : List (Speaker ι × β)} {xs : List β} {x : β} {u v : Thread β}

lemma linesOf_append : linesOf i (out ++ xs.map fun y => (.thread j, y)) =
    linesOf i out ++ if j = i then xs else [] := by
  by_cases h : j = i <;> simp [linesOf, h, List.filter_map, Function.comp_def]

lemma linesOf_join : linesOf i (out ++ [(.join j, x)]) = linesOf i out := by
  simp [linesOf]

@[simp] lemma setThread_out : (s.setThread i u).out = s.out := rfl

@[simp] lemma setThread_main : (s.setThread i u).main = s.main := rfl

lemma thread_setThread (h : (s.setThread i u).thread j = some v) : (j = i ∧ v = u) ∨ (j ≠ i ∧ s.thread j = some v) := by
  by_cases hj : j = i
  · subst hj
    exact .inl ⟨rfl, by simpa [setThread] using h.symm⟩
  · exact .inr ⟨hj, by simpa [setThread, hj] using h⟩

lemma Inv.go (h : Inv P s) (ht : s.thread i = some u) (hf : Faithful P i (linesOf i s.out ++ xs) v)
    (hc : v.canceled = true → mayCancel P i = true) (hu : ∀ value r, u.code ≠ .finish value :: r) :
    Inv P { s.setThread i v with out := s.out ++ xs.map fun y => (.thread i, y) } := by
  have hjoin : ∀ y, (.join i, y) ∉ s.out := by
    intro y hy
    obtain ⟨w, value, r, hw, hcode, -⟩ := h.finished i y hy
    obtain rfl : u = w := Option.some.inj (ht.symm.trans hw)
    exact hu value r hcode
  refine ⟨?_, fun j hj => ?_, fun j w hj => ?_, fun j w hj => ?_, fun j y hj => ?_, ?_⟩
  · obtain ⟨done, hd, he⟩ := h.done
    exact ⟨done, hd, joined_append.trans he⟩
  · have hne : j ≠ i := by
      rintro rfl
      simp [setThread] at hj
    rw [linesOf_append, if_neg hne.symm, List.append_nil]
    exact h.silent j (by simpa [setThread, hne] using hj)
  · rw [linesOf_append]
    rcases thread_setThread hj with ⟨rfl, rfl⟩ | ⟨hne, hj⟩
    · rwa [if_pos rfl]
    · rw [if_neg hne.symm, List.append_nil]
      exact h.faithful j w hj
  · rcases thread_setThread hj with ⟨rfl, rfl⟩ | ⟨hne, hj⟩
    · exact hc
    · exact h.canceled j w hj
  · have hm : (.join j, y) ∈ s.out := by simpa using hj
    obtain ⟨w, value, r, hw, hcode, hy⟩ := h.finished j y hm
    have hne : j ≠ i := by
      rintro rfl
      exact hjoin y hm
    exact ⟨w, value, r, by simpa [setThread, hne] using hw, hcode, hy⟩
  · refine List.pairwise_append.mpr ⟨h.order, ?_, fun e he f hf k hk => ?_⟩
    · rw [List.pairwise_map]
      exact List.pairwise_of_forall fun _ _ k hk => by cases hk
    · obtain ⟨y, -, rfl⟩ := List.mem_map.mp hf
      intro hki
      obtain rfl := Speaker.thread.inj hki
      exact hjoin e.2 (by rw [← hk]; exact he)

lemma inv_run (h : Inv P s) (hs : runStep P s i = some t) : Inv P t := by
  unfold runStep at hs
  split at hs
  case h_2 => cases hs
  next u hu =>
  obtain ⟨⟨v, xs⟩, hstep, rfl⟩ := Option.map_eq_some_iff.mp hs
  obtain ⟨early, ho, -⟩ := outcomes_step (c := mayCancel P i) hstep
  have hcanceled : v.canceled = u.canceled := (flags_step hstep).1
  refine h.go hu (fun o hm => ?_) (fun hc => h.canceled i u hu (hcanceled ▸ hc)) (fun value r hcode => ?_)
  · have hf := h.faithful i u hu (xs ++ o.1, o.2)
    rw [ho] at hf
    simpa using hf (List.mem_append_right _ (List.mem_map.mpr ⟨o, hm, rfl⟩))
  · simp [Thread.step, hcode] at hstep

lemma inv_cancel (h : Inv P s) (hs : cancelStep s i = some t) : Inv P t := by
  unfold cancelStep at hs
  split at hs
  case h_2 => cases hs
  next u hu =>
  simp only [Bool.and_eq_true, Option.ite_none_right_eq_some, Option.some.injEq] at hs
  obtain ⟨⟨hc, hhead⟩, rfl⟩ := hs
  have hmay := h.canceled i u hu hc
  have hf : Faithful P i (linesOf i s.out ++ []) u.act := by
    intro o hm
    rw [List.append_nil]
    refine h.faithful i u hu o ?_
    rw [hmay] at hm ⊢
    exact outcomes_act hhead hm
  have hgo := h.go hu hf (fun _ => hmay) fun value r hcode => by simp [hcode, Op.cancels] at hhead
  rwa [List.map_nil, List.append_nil] at hgo

lemma inv_mainStep (h : Inv P s) (hs : mainStep P s = some t) : Inv P t := by
  obtain ⟨done, hd, hj⟩ := h.done
  unfold mainStep at hs
  split at hs
  case h_1 hmain => exact Option.some.inj hs ▸ { h with }
  case h_2 i detached r hmain =>
    split at hs
    case h_2 => cases hs
    next hnone =>
    obtain rfl := Option.some.inj hs
    refine ⟨⟨done ++ [.create i detached], by simp [hd, hmain], by simp [hj, MainOp.joins]⟩, fun j hn => ?_,
      fun j w hw => ?_, fun j w hw => ?_, fun j y hy => ?_, h.order⟩
    · refine h.silent j ?_
      by_cases he : j = i
      · exact he ▸ hnone
      · simpa [setThread, he] using hn
    · rcases thread_setThread hw with ⟨rfl, rfl⟩ | ⟨-, hw⟩
      · simp [Faithful, h.silent j hnone]
      · exact h.faithful j w hw
    · rcases thread_setThread hw with ⟨rfl, rfl⟩ | ⟨-, hw⟩
      · simp
      · exact h.canceled j w hw
    · obtain ⟨w, value, r, hw, hcode, hy⟩ := h.finished j y hy
      have hne : j ≠ i := by
        rintro rfl
        simp [hnone] at hw
      exact ⟨w, value, r, by simpa [setThread, hne] using hw, hcode, hy⟩
  case h_3 i r hmain =>
    split at hs
    case h_2 => cases hs
    next u hu =>
    obtain rfl := Option.some.inj hs
    have hmay : mayCancel P i = true := by simp [mayCancel, hd, hmain]
    refine ⟨⟨done ++ [.cancel i], by simp [hd, hmain], by simp [hj, MainOp.joins]⟩, fun j hn => ?_,
      fun j w hw => ?_, fun j w hw => ?_, fun j y hy => ?_, h.order⟩
    · refine h.silent j ?_
      by_cases he : j = i
      · simp [setThread, he] at hn
      · simpa [setThread, he] using hn
    · rcases thread_setThread hw with ⟨rfl, rfl⟩ | ⟨-, hw⟩
      · exact h.faithful j u hu
      · exact h.faithful j w hw
    · rcases thread_setThread hw with ⟨rfl, rfl⟩ | ⟨-, hw⟩
      · exact fun _ => hmay
      · exact h.canceled j w hw
    · obtain ⟨w, value, r, hw, hcode, hreport⟩ := h.finished j y hy
      by_cases he : j = i
      · subst he
        obtain rfl : u = w := Option.some.inj (hu.symm.trans hw)
        exact ⟨{ u with canceled := true }, value, r, by simp [setThread], hcode, hreport⟩
      · exact ⟨w, value, r, by simpa [setThread, he] using hw, hcode, hreport⟩
  case h_4 i r hmain =>
    split at hs
    case h_2 => cases hs
    next u hu =>
    split at hs
    · exact Option.some.inj hs ▸ { h with }
    · split at hs
      case h_2 => cases hs
      next value r' hcode =>
      obtain rfl := Option.some.inj hs
      refine ⟨⟨done ++ [.join i], by simp [hd, hmain], ?_⟩, fun j hn => ?_, fun j w hw => ?_, h.canceled,
        fun j y hy => ?_, ?_⟩
      · simp [joined_join, hj, MainOp.joins]
      · rw [linesOf_join]
        exact h.silent j hn
      · rw [linesOf_join]
        exact h.faithful j w hw
      · rcases List.mem_append.mp hy with hy | hy
        · exact h.finished j y hy
        · obtain ⟨hij, rfl⟩ := Prod.mk.inj (List.mem_singleton.mp hy)
          obtain rfl := Speaker.join.inj hij
          exact ⟨u, value, r', hu, hcode, rfl⟩
      · refine List.pairwise_append.mpr ⟨h.order, List.pairwise_singleton _ _, fun e _ f hf k _ => ?_⟩
        rw [List.mem_singleton.mp hf]
        exact nofun

lemma inv_step (h : Inv P s) (hs : step P s a = some t) : Inv P t := by
  unfold step at hs
  split at hs
  · cases hs
  · cases a with
    | main => exact inv_mainStep h hs
    | run i => exact inv_run h hs
    | cancel i => exact inv_cancel h hs
    | createFails =>
      simp only at hs
      split at hs
      · exact Option.some.inj hs ▸ { h with }
      · cases hs

lemma inv : P.machine.Invariant (fun _ _ => True) (Inv P) where
  base _ hs := hs ▸ inv_start
  step _ _ _ h _ hs := inv_step h hs

lemma ended_mainStep (hst : s.status = none) (hf : s.failed = none) (hs : mainStep P s = some t) : Ended t := by
  unfold mainStep at hs
  split at hs
  case h_1 hmain => exact Option.some.inj hs ▸ .returned rfl hf hmain
  case h_2 | h_3 =>
    split at hs
    · exact Option.some.inj hs ▸ .running hst hf
    · cases hs
  case h_4 i r hmain =>
    split at hs
    case h_2 => cases hs
    next u hu =>
    split at hs
    · next hd => exact Option.some.inj hs ▸ .join i u r rfl rfl hmain hu hd
    · split at hs
      · exact Option.some.inj hs ▸ .running hst hf
      · cases hs

lemma ended : P.machine.Invariant (fun _ _ => True) Ended where
  base _ hs := hs ▸ .running rfl rfl
  step s a t h _ hs := by
    simp only [Program.machine, step] at hs
    split at hs
    case isTrue => cases hs
    next hst =>
    rw [not_not] at hst
    have hf : s.failed = none := by
      cases h with
      | running _ hf | returned _ hf => exact hf
      | create i d r hs | join i u r hs => simp [hst] at hs
    cases a with
    | main => exact ended_mainStep hst hf hs
    | createFails =>
      simp only at hs
      split at hs
      · next i d r hmain => exact Option.some.inj hs ▸ .create i d r rfl rfl hmain
      · cases hs
    | run i =>
      simp only [runStep] at hs
      split at hs
      · obtain ⟨r, -, rfl⟩ := Option.map_eq_some_iff.mp hs
        exact .running hst hf
      · cases hs
    | cancel i =>
      simp only [cancelStep] at hs
      split at hs
      · simp only [Option.ite_none_right_eq_some, Option.some.injEq] at hs
        exact hs.2 ▸ .running hst hf
      · cases hs

theorem joined_outcome (hs : P.machine.Reachable s) (hx : (.join i, x) ∈ s.out) :
    ∃ value, x = P.report i value ∧
      (linesOf i s.out, value) ∈ outcomes (mayCancel P i) P.onReturn (P.routine i) [] := by
  have h := inv.holds hs
  obtain ⟨t, value, r, ht, hcode, hx⟩ := h.finished i x hx
  have hf := h.faithful i t ht ([], value) (by simp [hcode, outcomes])
  exact ⟨value, hx, by simpa using hf⟩

theorem in_order (hs : P.machine.Reachable s) : s.out.Pairwise InOrder := (inv.holds hs).order

end Process

end ApueCode.Posix.Threads
