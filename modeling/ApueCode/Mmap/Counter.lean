import ApueCode.Mmap.Model
import ApueCode.Posix.Semaphore
import ApueCode.Transition.Dispenser
import ApueCode.Transition.Simulation

/-! The two processes together behave as one atomic dispenser of the values they print. -/

namespace ApueCode.Mmap

open Posix Transition

variable {nloop : ℤ} {s t : State} {p q : Side} {l : Local} {a : Action}

def Counting (ptr : ℤ) (n : ℕ) (l : Local) : Prop :=
  match l.pc with
  | .read | .post => ptr = n
  | .write => ptr = n ∧ l.value = n
  | .print => ptr = n + 1 ∧ l.value = n
  | .test | .wait | .returned | .failed | .overflow => True

structure Looping (nloop : ℤ) (l : Local) (n : ℕ) : Prop where
  nonneg : 0 ≤ l.i
  le : l.i ≤ max nloop 0
  lt : l.pc.inside = true ∨ l.pc = .wait → l.i < nloop
  done : l.pc = .returned → nloop ≤ l.i
  printed : (n : ℤ) = l.i + if l.pc = .post then 1 else 0
  defined : l.pc ≠ .overflow

structure Inv (nloop : ℤ) (s : State) : Prop where
  permits : Permits 1 s.mutex s.inside
  idle : s.inside = ∅ → s.ptr = s.stdout.length
  counting : ∀ p, Counting s.ptr s.stdout.length (s.proc p)
  looping : ∀ p, Looping nloop (s.proc p) (s.printedBy p)

lemma counting_outside (h : l.pc.inside = false) (ptr : ℤ) (n : ℕ) : Counting ptr n l := by
  cases hp : l.pc <;> simp [hp, Pc.inside, Counting] at h ⊢

lemma inside_set_of_inside (hp : l.pc.inside = true) : (s.set p l).inside = insert p s.inside := by
  ext q
  by_cases h : q = p
  · simp [h, hp]
  · simp [h]

lemma inside_set_of_outside (hp : l.pc.inside = false) : (s.set p l).inside = s.inside.erase p := by
  ext q
  by_cases h : q = p
  · simp [h, hp]
  · simp [h]

lemma counting_set (hp : Counting s.ptr s.stdout.length l)
    (ho : ∀ q ≠ p, Counting s.ptr s.stdout.length (s.proc q)) (q : Side) :
    Counting (s.set p l).ptr (s.set p l).stdout.length ((s.set p l).proc q) := by
  by_cases hq : q = p
  · subst hq
    simpa using hp
  · simpa [hq] using ho q hq

lemma looping_set (hp : Looping nloop l (s.printedBy p))
    (ho : ∀ q ≠ p, Looping nloop (s.proc q) (s.printedBy q)) (q : Side) :
    Looping nloop ((s.set p l).proc q) ((s.set p l).printedBy q) := by
  by_cases hq : q = p
  · subst hq
    simpa [State.printedBy] using hp
  · simpa [hq, State.printedBy] using ho q hq

lemma printedBy_append (x : ℤ) :
    { s with stdout := s.stdout ++ [(p, x)] }.printedBy q = s.printedBy q + if q = p then 1 else 0 := by
  by_cases h : q = p
  · simp [State.printedBy, h]
  · simp [State.printedBy, h, Ne.symm h]

lemma stdout_length (s : State) : s.stdout.length = s.printedBy .parent + s.printedBy .child := by
  have hsplit : ∀ out : List (Side × ℤ), out.length =
      out.countP (fun e => e.1 = .parent) + out.countP (fun e => e.1 = .child) := by
    intro out
    induction out with
    | nil => rfl
    | cons e out ih =>
      obtain ⟨q, x⟩ := e
      cases q <;> simp [ih] <;> omega
  exact hsplit s.stdout

lemma inv_outside (h : Inv nloop s) (hp : (s.proc p).pc.inside = false) (hl : l.pc.inside = false)
    (hloop : Looping nloop l (s.printedBy p)) : Inv nloop (s.set p l) := by
  have hin : (s.set p l).inside = s.inside := by
    rw [inside_set_of_outside hl, Finset.erase_eq_of_notMem (by simp [hp])]
  exact ⟨by rw [hin]; exact h.permits, by rw [hin]; exact h.idle,
    counting_set (counting_outside hl _ _) fun q _ => h.counting q,
    looping_set hloop fun q _ => h.looping q⟩

lemma others_outside (h : Inv nloop s) (hp : (s.proc p).pc.inside = true) (hq : q ≠ p) :
    (s.proc q).pc.inside = false := by
  by_contra hc
  exact hq (h.permits.unique (mem_inside.mpr (by simpa using hc)) (mem_inside.mpr hp))

lemma inv_inside {ptr : ℤ} {out : List (Side × ℤ)} (h : Inv nloop s)
    (hp : (s.proc p).pc.inside = true) (hl : l.pc.inside = true)
    (hc : Counting ptr out.length l)
    (hloop : Looping nloop l ({ s with stdout := out }.printedBy p))
    (hout : ∀ q ≠ p, { s with stdout := out }.printedBy q = s.printedBy q) :
    Inv nloop ({ s with ptr := ptr, stdout := out }.set p l) := by
  have hin : ({ s with ptr := ptr, stdout := out }.set p l).inside = s.inside := by
    rw [inside_set_of_inside hl]
    exact Finset.insert_eq_of_mem (mem_inside.mpr hp)
  refine ⟨by rw [hin]; exact h.permits, ?_,
    counting_set hc fun q hq => counting_outside (others_outside h hp hq) _ _,
    looping_set hloop fun q hq => ?_⟩
  · rw [hin]
    intro he
    have hm := mem_inside.mpr hp
    simp [he] at hm
  · have hold := h.looping q
    rw [← hout q hq] at hold
    exact hold

lemma inv_wait (h : Inv nloop s) (hpc : (s.proc p).pc = .wait) (hm : 0 < s.mutex) :
    Inv nloop ({ s with mutex := s.mutex - 1 }.goto p .read) := by
  have hempty := h.permits.holders_eq_empty hm
  have hl := h.looping p
  have hin : ({ s with mutex := s.mutex - 1 }.goto p .read).inside = insert p s.inside :=
    inside_set_of_inside rfl
  refine ⟨?_, by simp [hin], counting_set (h.idle hempty) fun q _ => ?_,
    looping_set ⟨hl.nonneg, hl.le, fun _ => hl.lt (.inr hpc), by simp, ?_, by simp⟩
      fun q _ => h.looping q⟩
  · rw [hin]
    exact h.permits.wait hm (by simp [hempty])
  · have hq : q ∉ s.inside := by simp [hempty]
    exact counting_outside (by simpa using hq) _ _
  · simpa [hpc, State.printedBy] using hl.printed

lemma inv_post (h : Inv nloop s) (hpc : (s.proc p).pc = .post) :
    Inv nloop ({ s with mutex := s.mutex + 1 }.set p
      { s.proc p with pc := .test, i := (s.proc p).i + 1 }) := by
  have hp : (s.proc p).pc.inside = true := by simp [hpc, Pc.inside]
  have hl := h.looping p
  have hc := h.counting p
  simp only [Counting, hpc] at hc
  have hin : ({ s with mutex := s.mutex + 1 }.set p
      { s.proc p with pc := .test, i := (s.proc p).i + 1 }).inside = s.inside.erase p :=
    inside_set_of_outside rfl
  have hlt := hl.lt (.inl hp)
  have hn := hl.nonneg
  have hpr := hl.printed
  rw [hpc, if_pos rfl] at hpr
  have hle : (s.proc p).i + 1 ≤ max nloop 0 := by omega
  refine ⟨?_, fun _ => hc, counting_set trivial fun q hq => ?_,
    looping_set ⟨by simp only; omega, hle, by simp [Pc.inside], by simp, by simpa [State.printedBy] using hpr,
      by simp⟩ fun q _ => h.looping q⟩
  · rw [hin]
    exact h.permits.post (mem_inside.mpr hp)
  · exact counting_outside (others_outside h hp hq) _ _

lemma value_lt (h : Inv nloop s) (hmax : 2 * nloop ≤ INT_MAX) (hpc : (s.proc p).pc = .write) :
    (s.proc p).value < INT_MAX := by
  have hp : (s.proc p).pc.inside = true := by simp [hpc, Pc.inside]
  have hc := h.counting p
  simp only [Counting, hpc] at hc
  have hlt := (h.looping p).lt (.inl hp)
  have hn := (h.looping p).nonneg
  have hcount : ∀ q, (s.printedBy q : ℤ) ≤ nloop ∧ (q = p → (s.printedBy q : ℤ) < nloop) := by
    intro q
    have hl := h.looping q
    have hpr := hl.printed
    by_cases hq : q = p
    · subst hq
      rw [if_neg (by simp [hpc])] at hpr
      omega
    · have hout := others_outside h hp hq
      have hne : (s.proc q).pc ≠ .post := fun he => by simp [he, Pc.inside] at hout
      rw [if_neg hne] at hpr
      have hle := hl.le
      simp only [hq, false_implies, and_true]
      omega
  have hlen := stdout_length s
  have h₁ := hcount .parent
  have h₂ := hcount .child
  rw [hc.2, hlen]
  cases p with
  | parent =>
    have h₃ := h₁.2 rfl
    push_cast
    omega
  | child =>
    have h₃ := h₂.2 rfl
    push_cast
    omega

lemma inv_run (h : Inv nloop s) (hmax : 2 * nloop ≤ INT_MAX) (hs : step nloop s (.run p) = some t) :
    Inv nloop t := by
  have hl := h.looping p
  have hc := h.counting p
  cases hpc : (s.proc p).pc with
  | test =>
    simp only [step, hpc, Option.some.injEq] at hs
    subst hs
    have hpr := hl.printed
    rw [if_neg (by simp [hpc])] at hpr
    by_cases hi : (s.proc p).i < nloop
    · rw [if_pos hi]
      exact inv_outside h (by simp [hpc, Pc.inside]) rfl
        ⟨hl.nonneg, hl.le, fun _ => hi, by simp, by simpa using hpr, by simp⟩
    · rw [if_neg hi]
      exact inv_outside h (by simp [hpc, Pc.inside]) rfl
        ⟨hl.nonneg, hl.le, by simp [Pc.inside], fun _ => not_lt.mp hi, by simpa using hpr, by simp⟩
  | wait =>
    simp only [step, hpc, Option.ite_none_right_eq_some, Option.some.injEq] at hs
    obtain ⟨hm, rfl⟩ := hs
    exact inv_wait h hpc hm
  | read =>
    simp only [step, hpc, Option.some.injEq] at hs
    subst hs
    have hp : (s.proc p).pc.inside = true := by simp [hpc, Pc.inside]
    simp only [Counting, hpc] at hc
    have hpr := hl.printed
    rw [if_neg (by simp [hpc])] at hpr
    exact inv_inside h hp rfl ⟨hc, hc⟩
      ⟨hl.nonneg, hl.le, fun _ => hl.lt (.inl hp), by simp, by simpa using hpr, by simp⟩ fun _ _ => rfl
  | write =>
    have hv := value_lt h hmax hpc
    simp only [step, hpc, if_neg hv.ne, Option.some.injEq] at hs
    subst hs
    have hp : (s.proc p).pc.inside = true := by simp [hpc, Pc.inside]
    simp only [Counting, hpc] at hc
    have hpr := hl.printed
    rw [if_neg (by simp [hpc])] at hpr
    exact inv_inside h hp rfl ⟨by rw [hc.2], hc.2⟩
      ⟨hl.nonneg, hl.le, fun _ => hl.lt (.inl hp), by simp, by simpa using hpr, by simp⟩ fun _ _ => rfl
  | print =>
    simp only [step, hpc, Option.some.injEq] at hs
    subst hs
    have hp : (s.proc p).pc.inside = true := by simp [hpc, Pc.inside]
    simp only [Counting, hpc] at hc
    have hpr := hl.printed
    rw [if_neg (by simp [hpc])] at hpr
    refine inv_inside h hp rfl (by simpa [Counting] using hc.1)
      ⟨hl.nonneg, hl.le, fun _ => hl.lt (.inl hp), by simp, ?_, by simp⟩ fun q hq => ?_
    · rw [printedBy_append]
      simpa using hpr
    · rw [printedBy_append, if_neg hq, Nat.add_zero]
  | post =>
    simp only [step, hpc, Option.some.injEq] at hs
    subst hs
    exact inv_post h hpc
  | returned | failed | overflow => simp [step, hpc] at hs

lemma inv_waitFail (h : Inv nloop s) (hs : step nloop s (.waitFail p) = some t) : Inv nloop t := by
  simp only [step, Option.ite_none_right_eq_some, Option.some.injEq] at hs
  obtain ⟨hpc, rfl⟩ := hs
  have hl := h.looping p
  have hpr := hl.printed
  rw [if_neg (by simp [hpc])] at hpr
  exact inv_outside h (by simp [hpc, Pc.inside]) rfl
    ⟨hl.nonneg, hl.le, by simp [Pc.inside], by simp, by simpa using hpr, by simp⟩

lemma inv_start : Inv nloop start where
  permits := by
    have hin : start.inside = ∅ := by decide
    rw [hin]
    rfl
  idle := fun _ => rfl
  counting := fun _ => trivial
  looping := fun _ => ⟨le_rfl, le_max_right _ _, by simp [start, Pc.inside], by simp [start], rfl, by simp [start]⟩

lemma inv_invariant (hmax : 2 * nloop ≤ INT_MAX) :
    (machine nloop).Invariant (fun _ _ => True) (Inv nloop) where
  base := by
    rintro _ rfl
    exact inv_start
  step s a t h _ hs := by
    cases a with
    | run p => exact inv_run h hmax hs
    | waitFail p => exact inv_waitFail h hs

lemma stdout_eq (hp : ∀ p, a = .run p → (s.proc p).pc ≠ .print) (hs : step nloop s a = some t) :
    t.stdout = s.stdout := by
  cases a with
  | waitFail p =>
    obtain ⟨-, rfl⟩ := by simpa [step] using hs
    rfl
  | run p =>
    have hne := hp p rfl
    cases hpc : (s.proc p).pc <;> simp only [step, hpc] at hs
    case print => exact (hne hpc).elim
    case wait =>
      obtain ⟨-, rfl⟩ := by simpa using hs
      rfl
    case write =>
      split at hs
      · obtain rfl := Option.some.inj hs
        rfl
      · obtain rfl := Option.some.inj hs
        rfl
    case test | read | post =>
      obtain rfl := Option.some.inj hs
      exact set_stdout _ _ _
    case returned | failed | overflow => cases hs

def tickets (issued : List (Side × ℕ)) : List (Side × ℤ) := issued.map fun e => (e.1, (e.2 : ℤ))

lemma refines_dispenser (hmax : 2 * nloop ≤ INT_MAX) :
    Simulation (machine nloop) (dispenser Side) (fun _ _ => True)
      (fun s issued => Inv nloop s ∧ s.stdout = tickets issued) where
  base := by
    rintro _ rfl
    exact ⟨[], rfl, inv_start, rfl⟩
  step := by
    rintro s a t issued ⟨h, hout⟩ - hs
    have ht := (inv_invariant hmax).step s a t h trivial hs
    by_cases hp : ∃ p, a = .run p ∧ (s.proc p).pc = .print
    · obtain ⟨p, rfl, hpc⟩ := hp
      have hc := h.counting p
      simp only [Counting, hpc] at hc
      obtain rfl : _ = t := Option.some.inj (by simpa only [machine, step, hpc] using hs)
      refine ⟨[p], issued ++ [(p, issued.length)], rfl, ht, ?_⟩
      have hlen : s.stdout.length = issued.length := by simp [hout, tickets]
      simp [State.goto, hout, hc.2, tickets]
    · have hsame : t.stdout = s.stdout :=
        stdout_eq (fun p ha hpc => hp ⟨p, ha, hpc⟩) hs
      exact ⟨[], issued, rfl, ht, hsame.trans hout⟩

lemma not_stuck (h : Inv nloop s) (hp : ¬ s.finished p) : ∃ q, (step nloop s (.run q)).isSome := by
  have hrun : ∀ q, (s.proc q).pc.inside = true → (step nloop s (.run q)).isSome := by
    intro q hq
    have hdef := (h.looping q).defined
    cases hpc : (s.proc q).pc <;> simp [hpc, Pc.inside, step] at hq hdef ⊢
    split <;> rfl
  by_cases hm : 0 < s.mutex
  · refine ⟨p, ?_⟩
    have hdef := (h.looping p).defined
    cases hpc : (s.proc p).pc <;> simp [hpc, State.finished, step, hm] at hp hdef ⊢
    split <;> rfl
  · obtain ⟨q, hq⟩ := h.permits.exists_holder one_pos (by omega)
    exact ⟨q, hrun q (mem_inside.mp hq)⟩

lemma counts_of_returned (h : Inv nloop s) (hret : ∀ p, (s.proc p).pc = .returned) :
    (∀ p, s.printedBy p = nloop.toNat) ∧ s.ptr = s.stdout.length := by
  constructor
  · intro p
    have hl := h.looping p
    have hpr := hl.printed
    have hdone := hl.done (hret p)
    have hle := hl.le
    have hn := hl.nonneg
    rw [if_neg (by simp [hret p])] at hpr
    omega
  · refine h.idle (Finset.eq_empty_of_forall_notMem fun p hp => ?_)
    simp [hret p, Pc.inside] at hp

/-- Mutual exclusion, the values printed, freedom from deadlock, and the final count. -/
theorem shared_counter (nloop : ℤ) (hmax : 2 * nloop ≤ INT_MAX) (s : State)
    (hs : (machine nloop).Reachable s) :
    s.mutex + s.inside.card = 1 ∧
      s.stdout.map Prod.snd = (List.range s.stdout.length).map (fun k : ℕ => (k : ℤ)) ∧
      ((∃ p, ¬ s.finished p) → ∃ p, (step nloop s (.run p)).isSome) ∧
      ((∀ p, (s.proc p).pc = .returned) → s.stdout.length = 2 * nloop.toNat ∧
        (∀ p, s.printedBy p = nloop.toNat) ∧ s.ptr = 2 * nloop.toNat) := by
  obtain ⟨issued, hissued, h, hout⟩ := (refines_dispenser hmax).transfer dispenser_invariant hs
  refine ⟨h.permits, ?_, fun ⟨p, hp⟩ => not_stuck h hp, fun hret => ?_⟩
  · rw [hout, tickets, List.length_map, ← hissued, List.map_map, List.map_map]
    rfl
  · obtain ⟨hcount, hptr⟩ := counts_of_returned h hret
    have hlen := stdout_length s
    rw [hcount, hcount] at hlen
    exact ⟨by omega, hcount, by omega⟩

def threeEach : List Action :=
  Machine.rounds (fun _ => [.run .parent, .run .child] ++ List.replicate 5 (.run .parent) ++
    List.replicate 5 (.run .child)) 3 ++ [.run .parent, .run .child]

theorem shared_counter_three : ∃ s, (machine 3).exec start threeEach = some s ∧
    (∀ p, (s.proc p).pc = .returned) ∧ s.mutex + s.inside.card = 1 ∧
    s.stdout.map Prod.snd = (List.range 6).map (fun k : ℕ => (k : ℤ)) ∧
    (∀ p, s.printedBy p = 3) ∧ s.ptr = 6 := by
  have hx : ((machine 3).exec start threeEach).map (fun s => [(s.proc .parent).pc, (s.proc .child).pc]) =
      some [.returned, .returned] := by decide +kernel
  obtain ⟨s, hs, hpc⟩ := Option.map_eq_some_iff.mp hx
  simp only [List.cons.injEq, and_true] at hpc
  have hret : ∀ p, (s.proc p).pc = .returned := by
    rintro (_ | _)
    exacts [hpc.1, hpc.2]
  obtain ⟨hmutex, hout, -, hend⟩ := shared_counter 3 (by decide) s (Machine.reachable_of_exec rfl hs)
  obtain ⟨hlen, hcount, hptr⟩ := hend hret
  rw [hlen] at hout
  exact ⟨s, hs, hret, hmutex, hout, hcount, hptr⟩

end ApueCode.Mmap
