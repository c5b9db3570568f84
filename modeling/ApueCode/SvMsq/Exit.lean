import ApueCode.SvMsq.Delivery

/-! The exit status of the process, and that every run ends. -/

namespace ApueCode.SvMsq

open Posix Transition Machine

variable {P : Platform} {qbytes : ℕ} {input : List Byte}
variable {s t : State P} {a : Action} {as : List Action}

def MainPc.weight : MainPc → ℕ
  | .fgets => 4
  | .msgsnd => 8
  | .msgctl => 3
  | .join => 2
  | .returned => 1

def ThrPc.weight : ThrPc → ℕ
  | .malloc => 8
  | .msgrcv => 6
  | .blocked => 5
  | .printf => 7
  | .failed _ => 4
  | .rcvOver => 3
  | .ended => 2

def State.rank (s : State P) : ℕ :=
  5 * s.stdin.length + s.main.weight + 3 * s.queue.msgs.length + s.thr.weight +
    if s.status = .running then 1 else 0

lemma rank_receives {gone : Errno} (h : s.thr = .msgrcv ∨ s.thr = .blocked)
    (hb : s.thr = .blocked → s.queue.removed = true ∨ s.queue.msgs ≠ [])
    (ht : Receives s gone t) : t.rank < s.rank := by
  have hw : 5 ≤ s.thr.weight := by rcases h with h | h <;> simp [h, ThrPc.weight]
  cases ht with
  | blocked hr hm =>
    have hn : s.thr = .msgrcv := by
      rcases h with h | h
      · exact h
      · simpa [hr, hm] using hb h
    simp only [State.rank, hn, ThrPc.weight]
    omega
  | gone _ | tooBig _ _ _ =>
    simp only [State.rank]
    generalize s.thr.weight = w at hw
    simp only [ThrPc.weight]
    omega
  | message _ _ hm _ _ =>
    simp only [State.rank, hm, List.length_cons]
    generalize s.thr.weight = w at hw
    simp only [ThrPc.weight]
    omega

lemma rank_step (hs : step s a = some t) : t.rank < s.rank := by
  obtain ⟨hrun, hs⟩ := step_cases hs
  cases hs with
  | @line line rest text tail hm hl hne hb =>
    have hlen := congrArg List.length hl
    have hpos := List.length_pos_iff.mpr hne
    simp only [List.length_append] at hlen
    simp only [State.rank, hm, MainPc.weight]
    omega
  | send hm hc hf =>
    simp only [State.rank, hm, MainPc.weight, MsgQueue.push_msgs, List.length_append, List.length_singleton]
    omega
  | remove hm =>
    simp only [State.rank, hm, MainPc.weight, MsgQueue.rmid_msgs, List.length_nil]
    omega
  | msgrcv ht hr => exact rank_receives (.inl ht) (by simp [ht]) hr
  | wake ht hq hr => exact rank_receives (.inr ht) (fun _ => hq) hr
  | receiveFail ht hr =>
    rcases ht with ht | ht <;> simp [State.rank, ht, ThrPc.weight]
  | eof hm _ | join hm _ =>
    simp only [State.rank, hm, MainPc.weight, hrun]
    simp
  | malloc ht | print ht _ | rcvOver ht | exit ht =>
    simp only [State.rank, ht, ThrPc.weight]
    omega
  | sendUnterminated _ _ | sendFail _ | removeFail _ | mallocFail _ | printUnterminated _ _
  | error _ _ => simp [State.rank, State.perror, hrun]

lemma rank_start {text rtext : Buffer P.MSGMAXSZ} :
    (start qbytes input text rtext).rank = 5 * input.length + 13 := by
  simp [State.rank, start, MainPc.weight, ThrPc.weight]

lemma run_length_le (hi : (machine P qbytes input).init s) (he : (machine P qbytes input).exec s as = some t) :
    as.length ≤ 5 * input.length + 13 := by
  have hlen := exec_length_le State.rank (fun _ _ _ hs => rank_step hs) he
  obtain ⟨text, rtext, rfl⟩ := hi
  rw [rank_start] at hlen
  omega

lemma qbytes_step (h : s.queue.qbytes = qbytes) (hs : step s a = some t) :
    t.queue.qbytes = qbytes := by
  obtain ⟨-, hs⟩ := step_cases hs
  cases hs with
  | msgrcv _ hr | wake _ _ hr => cases hr <;> simp_all
  | _ => simpa [State.perror] using h

lemma run_qbytes (hi : (machine P qbytes input).init s) (he : (machine P qbytes input).exec s as = some t) :
    t.queue.qbytes = qbytes := by
  have hst : (machine P qbytes input).Stable (fun _ _ => True) (fun s => s.queue.qbytes = qbytes) :=
    fun _ _ _ hc _ hs => qbytes_step hc hs
  apply hst.run he
  obtain ⟨text, rtext, rfl⟩ := hi
  rfl

lemma thr_moves (hrun : s.status = .running) (he : s.thr ≠ .ended)
    (hb : s.thr = .blocked → s.queue.removed = true ∨ s.queue.msgs ≠ []) :
    ∃ a, Clean a ∧ (step s a).isSome := by
  cases ht : s.thr with
  | malloc => exact ⟨.thr .malloc, trivial, by simp [step, hrun, thrStep, ht]⟩
  | msgrcv => exact ⟨.thr .msgrcv, trivial, by simp [step, hrun, thrStep, ht]⟩
  | blocked => exact ⟨.thr .wake, trivial, by simp [step, hrun, thrStep, ht, hb ht]⟩
  | printf => exact ⟨.thr .printf, trivial, by simp [step, hrun, thrStep, ht]⟩
  | failed e => exact ⟨.thr .errno, trivial, by cases e <;> simp [step, hrun, thrStep, ht]⟩
  | rcvOver => exact ⟨.thr .exit, trivial, by simp [step, hrun, thrStep, ht]⟩
  | ended => exact (he ht).elim

lemma not_stuck (h : Safe s) (hp : s.queue.removed = false → Receiving s.thr)
    (hq : P.MSGMAXSZ ≤ s.queue.qbytes) (hrun : s.status = .running) :
    ∃ a, Clean a ∧ (step s a).isSome := by
  cases hm : s.main with
  | fgets => exact ⟨.main .fgets, trivial, by simp [step, hrun, mainStep, hm]⟩
  | msgctl => exact ⟨.main .msgctl, trivial, by simp [step, hrun, mainStep, hm]⟩
  | msgsnd =>
    obtain ⟨x, hx⟩ := h.text hm
    have hr : s.queue.removed = false := by simpa [hm] using h.removed
    by_cases hf : s.queue.fits ⟨1, s.text.bytes.take (x.length + 1)⟩ = true
    · exact ⟨.main .msgsnd, trivial, by simp [step, hrun, mainStep, hm, sendText, hx, hf]⟩
    · have hne : s.queue.msgs ≠ [] := fun hn => hf (MsgQueue.fits_of_empty hn (by
        have hlen := s.text.size
        simp only [List.length_take]
        omega))
      refine thr_moves hrun (fun he => ?_) fun _ => .inr hne
      have hc := hp hr
      simp [Receiving, he] at hc
  | join =>
    have hr := h.removed.mpr (.inl hm)
    by_cases he : s.thr = .ended
    · exact ⟨.main .join, trivial, by simp [step, hrun, mainStep, hm, he]⟩
    · exact thr_moves hrun he fun _ => .inl hr
  | returned =>
    have hc := h.returned hm
    simp [hrun] at hc

def Orderly (s : State P) : Action → Prop
  | .main .msgctl => s.thr = .blocked
  | .main .msgctlFail | .thr .mallocFail => False
  | _ => True

instance (s : State P) : DecidablePred (Orderly s)
  | .main .msgctl => inferInstanceAs (Decidable (s.thr = .blocked))
  | .main .msgctlFail | .thr .mallocFail => isFalse id
  | .main .fgets | .main .msgsnd | .main .msgsndFail | .main .join | .thr .malloc | .thr .msgrcv
  | .thr (.msgrcvFail _) | .thr .wake | .thr .printf | .thr .errno | .thr .exit => isTrue trivial

def Doomed (s : State P) : Prop :=
  s.status ≠ .mainReturned ∧ s.queue.removed = true ∧
    (s.thr = .malloc ∨ s.thr = .msgrcv ∨ s.thr = .printf ∨ s.thr = .failed .EINVAL)

lemma doomed_step (h : Doomed s) (hs : step s a = some t) : Doomed t := by
  obtain ⟨hst, hr, ht⟩ := h
  obtain ⟨-, hs⟩ := step_cases hs
  cases hs with
  | eof _ _ | line _ _ _ _ | send _ _ _ => exact ⟨hst, hr, ht⟩
  | remove _ => exact ⟨hst, rfl, ht⟩
  | sendUnterminated _ _ | printUnterminated _ _ | sendFail _ | removeFail _ | mallocFail _
  | error _ _ => exact ⟨by simp [State.perror], hr, ht⟩
  | malloc _ | print _ _ => exact ⟨hst, hr, by simp⟩
  | msgrcv _ hrcv =>
    cases hrcv with
    | gone _ => exact ⟨hst, hr, by simp⟩
    | blocked hr' _ | tooBig hr' _ _ | message hr' _ _ _ _ => simp [hr] at hr'
  | receiveFail _ hr' => simp [hr] at hr'
  | join _ he | wake he _ _ | rcvOver he | exit he => simp [he] at ht

lemma doomed_stable : (machine P qbytes input).Stable (fun _ _ => True) Doomed :=
  fun _ _ _ hd _ hs => doomed_step hd hs

structure Closing (s : State P) : Prop where
  status : s.status = .running ∨ s.status = .mainReturned
  thr : s.queue.removed = true →
    s.thr = .blocked ∨ s.thr = .failed .EIDRM ∨ s.thr = .rcvOver ∨ s.thr = .ended
  stderr : s.stderr = if s.thr = .rcvOver ∨ s.thr = .ended then ["msgrcv over\n"] else []
  joined : s.status = .mainReturned → s.thr = .ended

lemma closing_receives {gone : Errno} (h : Safe s) (hc : Closing s)
    (hrun : s.status = .running) (hp : s.thr = .msgrcv ∨ s.thr = .blocked)
    (hg : s.queue.removed = true → gone = .EIDRM) (ht : Receives s gone t) : Closing t := by
  have herr : s.stderr = [] := by
    have hc := hc.stderr
    rcases hp with hp | hp <;> simpa [hp] using hc
  cases ht with
  | blocked hr _ => exact ⟨hc.status, by simp, by simpa using herr, by simp [hrun]⟩
  | gone hr => exact ⟨hc.status, by simp [hg hr], by simpa using herr, by simp [hrun]⟩
  | tooBig _ hm hl =>
    have hle := (h.msgs _ hm).2.1
    omega
  | message _ hr _ _ _ => exact ⟨hc.status, by simp [hr], by simpa using herr, by simp [hrun]⟩

lemma closing_step (h : Safe s) (hp : s.queue.removed = false → Receiving s.thr)
    (hc : Closing s) (ha : Clean a) (ho : Orderly s a) (hs : step s a = some t) : Closing t := by
  obtain ⟨hrun, hs⟩ := step_cases hs
  have hpresent : s.thr = .malloc ∨ s.thr = .msgrcv ∨ s.thr = .printf → s.queue.removed = false := by
    intro hthr
    by_contra hr
    have hcl := hc.thr (by simpa using hr)
    rcases hthr with hthr | hthr | hthr <;> simp [hthr] at hcl
  cases hs with
  | eof _ _ | line _ _ _ _ => exact ⟨hc.status, hc.thr, hc.stderr, by simp [hrun]⟩
  | send _ _ _ => exact ⟨hc.status, hc.thr, hc.stderr, by simp [hrun]⟩
  | sendUnterminated hm hn =>
    obtain ⟨x, hx⟩ := h.text hm
    simp [hx] at hn
  | printUnterminated ht hn =>
    obtain ⟨x, hx⟩ := h.rtext ht
    simp [hx] at hn
  | sendFail _ | receiveFail _ _ => exact ha.elim
  | removeFail _ | mallocFail _ => exact ho.elim
  | remove _ =>
    have hb : s.thr = .blocked := ho
    exact ⟨hc.status, by simp [hb], hc.stderr, by simp [hrun]⟩
  | join _ he => exact ⟨by simp, hc.thr, hc.stderr, fun _ => he⟩
  | malloc ht =>
    have hr := hpresent (.inl ht)
    exact ⟨hc.status, by simp [hr], by simpa [ht] using hc.stderr, by simp [hrun]⟩
  | print ht _ =>
    have hr := hpresent (.inr (.inr ht))
    exact ⟨hc.status, by simp [hr], by simpa [ht] using hc.stderr, by simp [hrun]⟩
  | msgrcv ht hrcv =>
    have hr := hpresent (.inr (.inl ht))
    exact closing_receives h hc hrun (.inl ht) (by simp [hr]) hrcv
  | wake ht _ hrcv => exact closing_receives h hc hrun (.inr ht) (fun _ => rfl) hrcv
  | rcvOver ht =>
    have he := hc.stderr
    simp only [ht] at he
    exact ⟨hc.status, by simp, by simp [he], by simp [hrun]⟩
  | error ht hne =>
    have hr : s.queue.removed = true := by
      by_contra hr
      have hcl := hp (by simpa using hr)
      simp [Receiving, ht] at hcl
    have hcl := hc.thr hr
    simp [ht, hne] at hcl
  | exit ht => exact ⟨hc.status, by simp, by simpa [ht] using hc.stderr, by simp [hrun]⟩

lemma closing_invariant (P : Platform) (qbytes : ℕ) (input : List Byte) :
    (machine P qbytes input).Invariant (fun s a => Clean a ∧ Orderly s a)
      (fun s => (Safe s ∧ (s.queue.removed = false → Receiving s.thr)) ∧ Closing s) := by
  have hI := receiving_invariant P qbytes input
  apply (hI.mono fun _ _ => And.left).strengthen
  · rintro s ⟨text, rtext, rfl⟩
    exact ⟨by simp [start], by simp [start], by simp [start], by simp [start]⟩
  · rintro s a t ⟨h, hp⟩ - hc ha hs
    exact closing_step h hp hc ha.1 ha.2 hs

lemma doomed_of_break {u v : State P} (hp : u.queue.removed = false → Receiving u.thr)
    (h : Safe u) (hb : u.thr ≠ .blocked) (hv : step u (.main .msgctl) = some v) :
    Doomed v := by
  obtain ⟨hrun, hs⟩ := step_cases hv
  cases hs with
  | remove hm =>
    have hr : u.queue.removed = false := by simpa [hm] using h.removed
    refine ⟨by simp [hrun], rfl, ?_⟩
    rcases hp hr with ht | ht | ht | ht
    · exact .inl ht
    · exact .inr (.inl ht)
    · exact (hb ht).elim
    · exact .inr (.inr (.inl ht))

lemma exitCode_zero {x : Status} : x.exitCode = some 0 ↔ x = .mainReturned := by
  cases x <;> simp [Status.exitCode]

lemma exitCode_ne_zero {u v : State P} (hp : u.queue.removed = false → Receiving u.thr)
    (h : Safe u) (ha : Clean a) (ho : ¬ Orderly u a) (hv : step u a = some v)
    (he : (machine P qbytes input).exec v as = some t) : t.status ≠ .mainReturned := by
  rcases a with a | a <;> cases a <;> simp only [Orderly, not_true_eq_false, not_false_eq_true] at ho
  · exact (doomed_stable.run he (doomed_of_break hp h ho hv)).1
  · obtain ⟨-, hs⟩ := step_cases hv
    cases hs with
    | removeFail _ =>
      obtain ⟨-, rfl⟩ := exec_stopped (by simp [State.perror]) he
      simp [State.perror]
  · obtain ⟨-, hs⟩ := step_cases hv
    cases hs with
    | mallocFail _ =>
      obtain ⟨-, rfl⟩ := exec_stopped (by simp [State.perror]) he
      simp [State.perror]

/-- Every run is finite and none gets stuck, and one that has ended has exit status 0, with only
`msgrcv over` reported, if and only if the removal found the receiver blocked in `msgrcv`. -/
theorem exits_zero_iff (P : Platform) (qbytes : ℕ) (input : List Byte)
    (s t : State P) (as : List Action) (hi : (machine P qbytes input).init s)
    (ha : (machine P qbytes input).Along (fun _ a => Clean a) s as)
    (he : (machine P qbytes input).exec s as = some t) :
    as.length ≤ 5 * input.length + 13 ∧
      (P.MSGMAXSZ ≤ qbytes → t.status = .running → ∃ a, Clean a ∧ (step t a).isSome) ∧
      (t.status ≠ .running → (t.status.exitCode = some 0 ∧ t.stderr = ["msgrcv over\n"] ↔
        (machine P qbytes input).Along Orderly s as)) := by
  have hI := receiving_invariant P qbytes input
  have hr := (Reach.init hi).exec ha he
  obtain ⟨h, hp⟩ := hI.holds hr
  refine ⟨run_length_le hi he, ?_, fun hend => ⟨?_, ?_⟩⟩
  · intro hq hrun
    have hcap := run_qbytes hi he
    exact not_stuck h hp (hcap ▸ hq) hrun
  · rintro ⟨hz, -⟩
    by_contra ho
    obtain ⟨bs, a, cs, u, v, rfl, hu, -, hb, hv, hc⟩ := exists_first_break he ho
    obtain ⟨h, hp⟩ := hI.exec hi ha.left hu
    have hca : Clean a := (ha.append hu).1
    exact exitCode_ne_zero hp h hca hb hv hc (exitCode_zero.mp hz)
  · intro ho
    obtain ⟨-, hcl⟩ := (closing_invariant P qbytes input).exec hi (ha.and ho) he
    have hret := hcl.status.resolve_left hend
    have herr := hcl.stderr
    rw [if_pos (.inr (hcl.joined hret))] at herr
    exact ⟨exitCode_zero.mpr hret, herr⟩

theorem exits_zero_orderly : ∃ t, (machineOn hiLine).exec (startOn hiLine) orderlyRun = some t ∧
    t.status.exitCode = some 0 ∧ t.stderr = ["msgrcv over\n"] := by
  have hx : ((machineOn hiLine).exec (startOn hiLine) orderlyRun).map (fun s => s.status) = some .mainReturned := by
    decide +kernel
  obtain ⟨t, ht, hs⟩ := Option.map_eq_some_iff.mp hx
  have hmeets : (machineOn hiLine).Along Orderly (startOn hiLine) orderlyRun := by decide +kernel
  exact ⟨t, ht, ((exits_zero_iff glibc 16384 hiLine (startOn hiLine) t orderlyRun (init_startOn hiLine)
    (along_of_forall (by decide)) ht).2.2 (by simp [hs])).mpr hmeets⟩

def lateReceive : List Action := [
  .main .fgets, .main .msgsnd, .thr .malloc, .thr .msgrcv, .main .fgets, .main .msgctl, .thr .printf, .thr .msgrcv,
  .thr .errno]

theorem exit_one : ∃ t, (machineOn hiLine).init (startOn hiLine) ∧
    (machineOn hiLine).Along (fun _ a => Clean a) (startOn hiLine) lateReceive ∧
    (machineOn hiLine).exec (startOn hiLine) lateReceive = some t ∧
    t.status.exitCode = some 1 ∧ t.stderr = ["msgrcv error"] := by
  have hx : ((machineOn hiLine).exec (startOn hiLine) lateReceive).map (fun s => (s.status.exitCode, s.stderr)) =
      some (some 1, ["msgrcv error"]) := by decide +kernel
  obtain ⟨t, ht, hs⟩ := Option.map_eq_some_iff.mp hx
  simp only [Prod.mk.injEq] at hs
  exact ⟨t, init_startOn hiLine, along_of_forall (by decide), ht, hs.1, hs.2⟩

end ApueCode.SvMsq
