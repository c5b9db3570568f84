import ApueCode.SvMsq.Conservation
import ApueCode.Transition.Backlog

/-! When everything that was sent has been printed at the end of the process. -/

namespace ApueCode.SvMsq

open Posix Transition Machine

variable {P : Platform} {qbytes : ℕ} {input : List Byte} {lost : List (List Byte)}
variable {s t : State P} {a : Action} {as : List Action}

def Clean : Action → Prop
  | .main .msgsndFail | .thr (.msgrcvFail _) => False
  | _ => True

instance : DecidablePred Clean
  | .main .msgsndFail | .thr (.msgrcvFail _) => isFalse id
  | .main .fgets | .main .msgsnd | .main .msgctl | .main .msgctlFail | .main .join | .thr .malloc
  | .thr .mallocFail | .thr .msgrcv | .thr .wake | .thr .printf | .thr .errno | .thr .exit => isTrue trivial

def Receiving (pc : ThrPc) : Prop := pc = .malloc ∨ pc = .msgrcv ∨ pc = .blocked ∨ pc = .printf

def Ended (s : State P) : Prop := s.status = .mainReturned ∨ s.status = .thrExited

def Action.isSend (a : Action) : Bool := a = .main .msgsnd

def Action.isReceive (a : Action) : Bool := a = .thr .msgrcv ∨ a = .thr .wake

/-- Wherever the schedule throws the queue away, the receiver has kept up: from each point before it on there are as many
steps of `msgrcv` as calls of `msgsnd`. -/
def KeepsUp (as : List Action) : Prop :=
  ∀ k < as.length, as[k]? = some (.main .msgctl) ∨ as[k]? = some (.thr .mallocFail) →
    CaughtUp Action.isSend Action.isReceive (as.take k)

instance (as : List Action) : Decidable (KeepsUp as) :=
  inferInstanceAs (Decidable (∀ k < as.length, _ → CaughtUp Action.isSend Action.isReceive (as.take k)))

def Drained (s : State P) (a : Action) : Prop :=
  a = .main .msgctl ∨ a = .thr .mallocFail → s.queue.msgs = []

lemma receiving_receives {gone : Errno} (h : Safe s) (ht : Receives s gone t) : t.queue.removed = false → Receiving t.thr := by
  intro hr
  cases ht with
  | blocked _ _ => simp [Receiving]
  | gone hr' => simp [hr'] at hr
  | tooBig _ hm hl =>
    have hle := (h.msgs _ hm).2.1
    omega
  | message _ _ _ _ _ => simp [Receiving]

lemma receiving_step (h : Safe s) (hp : s.queue.removed = false → Receiving s.thr)
    (ha : Clean a) (hs : step s a = some t) : t.queue.removed = false → Receiving t.thr := by
  obtain ⟨-, hs⟩ := step_cases hs
  cases hs with
  | eof _ _ | line _ _ _ _ | send _ _ _ | sendUnterminated _ _ | removeFail _ | join _ _
  | mallocFail _ | printUnterminated _ _ | error _ _ => exact hp
  | sendFail _ => exact ha.elim
  | remove _ => simp
  | receiveFail _ _ => exact ha.elim
  | malloc _ | print _ _ => simp [Receiving]
  | msgrcv _ hr => exact receiving_receives h hr
  | wake _ _ hr => exact receiving_receives h hr
  | rcvOver ht | exit ht =>
    intro hr
    have hc := hp hr
    simp [Receiving, ht] at hc

lemma receiving_invariant (P : Platform) (qbytes : ℕ) (input : List Byte) :
    (machine P qbytes input).Invariant (fun _ a => Clean a)
      (fun s => Safe s ∧ (s.queue.removed = false → Receiving s.thr)) := by
  refine Invariant.strengthen ((safe_invariant P qbytes input).mono fun _ _ _ => trivial) ?_ ?_
  · rintro s ⟨text, rtext, rfl⟩
    simp [start, Receiving]
  · intro s a t h _ hp ha hs
    exact receiving_step h hp ha hs

def Settled (s : State P) : Prop := Ended s → s.thr ≠ .printf ∧ s.queue.msgs = []

lemma settled_step (h : Safe s) (hp : s.queue.removed = false → Receiving s.thr)
    (hd : Drained s a) (hs : step s a = some t) : Settled t := by
  intro he
  obtain ⟨hrun, hs⟩ := step_cases hs
  cases hs with
  | mallocFail ht => exact ⟨by simp [State.perror, ht], hd (.inr rfl)⟩
  | join hm ht => exact ⟨by simp [ht], h.gone (h.removed.mpr (.inl hm))⟩
  | error ht _ =>
    have hr : s.queue.removed = true := by
      by_contra hr
      have hc := hp (by simpa using hr)
      simp [Receiving, ht] at hc
    exact ⟨by simp [State.perror, ht], h.gone hr⟩
  | msgrcv _ hr | wake _ _ hr => cases hr <;> simp [Ended, hrun] at he
  | _ => simp [Ended, State.perror, hrun] at he

lemma settled_invariant (P : Platform) (qbytes : ℕ) (hn : NUL ∉ input) :
    (machine P qbytes input).Invariant (fun s a => Clean a ∧ Drained s a)
      (fun s => ((Sound input [] s) ∧ (s.queue.removed = false → Receiving s.thr)) ∧ Settled s) where
  base := by
    rintro s ⟨text, rtext, rfl⟩
    exact ⟨⟨sound_start hn text rtext, by simp [start, Receiving]⟩, by simp [Settled, Ended, start]⟩
  step s a t h ha hs := by
    obtain ⟨⟨h, hp⟩, -⟩ := h
    refine ⟨⟨?_, receiving_step h.toSafe hp ha.1 hs⟩, settled_step h.toSafe hp ha.2 hs⟩
    by_cases hm : a = .main .msgctl
    · subst hm
      have ht := (sound_remove h hs).2
      have hq : s.queued = [] := by simp [State.queued, ha.2 (.inl rfl)]
      rwa [hq] at ht
    · exact sound_step h hm hs

lemma sound_stable (hl : lost ≠ []) :
    (machine P qbytes input).Stable (fun _ _ => True) (Sound input lost) := by
  intro s a t h _ hs
  by_cases ha : a = .main .msgctl
  · subst ha
    exact (hl (sound_remove h hs).1).elim
  · exact sound_step h ha hs

lemma stdout_ne_sent (h : Sound input lost s) (hl : s.queued ++ lost ≠ []) : s.stdout ≠ s.sent := by
  intro he
  have hc := congrArg List.length h.carried
  have hpos := List.length_pos_iff.mpr hl
  rw [he] at hc
  simp only [List.length_append] at hc hpos
  omega

lemma queued_ne_nil (hq : s.queue.msgs ≠ []) : s.queued ≠ [] := by
  simpa [State.queued] using hq

lemma printed_iff_drained {s t : State P} (hn : NUL ∉ input) (hi : (machine P qbytes input).init s)
    (ha : (machine P qbytes input).Along (fun _ a => Clean a) s as)
    (he : (machine P qbytes input).exec s as = some t) (ht : Ended t) :
    t.stdout = t.sent ↔ (machine P qbytes input).Along Drained s as := by
  constructor
  · intro hout
    by_contra hd
    obtain ⟨bs, a, cs, u, v, rfl, hu, -, hb, hv, hc⟩ := exists_first_break he hd
    obtain ⟨lost, h⟩ := (sound_invariant P qbytes hn).holds (reachable_of_exec hi hu)
    simp only [Drained, not_forall] at hb
    obtain ⟨hact, hq⟩ := hb
    rcases hact with rfl | rfl
    · have hv' := (sound_remove h hv).2
      have hne := queued_ne_nil hq
      have ht' := (sound_stable hne).exec (along_true v cs) hc hv'
      exact stdout_ne_sent ht' (by simp [hne]) hout
    · obtain ⟨-, hs⟩ := step_cases (s := u) (a := .thr .mallocFail) (t := v) hv
      cases hs with
      | mallocFail _ =>
        obtain ⟨-, rfl⟩ := exec_stopped (by simp [State.perror]) hc
        exact stdout_ne_sent h (by simp [queued_ne_nil hq]) hout
  · intro hd
    have hr := (Reach.init hi).exec (ha.and hd) he
    obtain ⟨⟨h, -⟩, hset⟩ := (settled_invariant P qbytes hn).holds hr
    obtain ⟨hp, hq⟩ := hset ht
    simpa [State.held, State.queued, hp, hq] using h.carried

lemma length_receives {gone : Errno} (h : Safe s) (ht : Receives s gone t) :
    t.queue.msgs.length = s.queue.msgs.length - 1 := by
  cases ht with
  | blocked _ hm => simp [hm]
  | gone hr => simp [h.gone hr]
  | tooBig _ hm hl =>
    have hle := (h.msgs _ hm).2.1
    omega
  | message _ _ hm _ _ => simp [hm]

lemma length_step (h : Safe s) (hd : Drained s a) (hs : step s a = some t) :
    t.queue.msgs.length = count Action.isSend Action.isReceive a s.queue.msgs.length := by
  have hsafe := safe_step h hs
  obtain ⟨-, hs⟩ := step_cases hs
  cases hs with
  | send _ _ _ => simp [count, Action.isSend]
  | sendUnterminated _ _ => exact (hsafe.status rfl).elim
  | remove _ =>
    have hq := hd (.inl rfl)
    simp [count, Action.isSend, Action.isReceive, hq]
  | msgrcv _ hr | wake _ _ hr => exact length_receives h hr
  | _ => rfl

lemma length_exec {s t : State P} (h : Safe s) (hd : (machine P qbytes input).Along Drained s as)
    (he : (machine P qbytes input).exec s as = some t) :
    t.queue.msgs.length = backlog Action.isSend Action.isReceive as s.queue.msgs.length := by
  induction as generalizing s with
  | nil =>
    obtain rfl := Option.some.inj he
    rfl
  | cons a as ih =>
    obtain ⟨u, hu, hr⟩ := exec_cons_iff.mp he
    rw [backlog_cons, ← length_step h hd.1 hu]
    exact ih (safe_step h hu) (hd.2 u hu) hr

lemma caughtUp_iff {s t : State P} (hi : (machine P qbytes input).init s)
    (hd : (machine P qbytes input).Along Drained s as) (he : (machine P qbytes input).exec s as = some t) :
    CaughtUp Action.isSend Action.isReceive as ↔ t.queue.msgs = [] := by
  have hsafe := (safe_invariant P qbytes input).base s hi
  have hlen := length_exec hsafe hd he
  have hstart : s.queue.msgs.length = 0 := by
    obtain ⟨text, rtext, rfl⟩ := hi
    rfl
  rw [hstart] at hlen
  rw [← backlog_eq_zero (by rintro a ha; simp_all [Action.isSend, Action.isReceive]), ← hlen, List.length_eq_zero_iff]

lemma drained_iff_keepsUp {s t : State P} (hi : (machine P qbytes input).init s)
    (he : (machine P qbytes input).exec s as = some t) :
    (machine P qbytes input).Along Drained s as ↔ KeepsUp as := by
  constructor
  · intro hd k _ hact
    have hget : ∃ a, as[k]? = some a ∧ (a = .main .msgctl ∨ a = .thr .mallocFail) := by
      rcases hact with hact | hact
      · exact ⟨_, hact, .inl rfl⟩
      · exact ⟨_, hact, .inr rfl⟩
    obtain ⟨a, hk, ha⟩ := hget
    obtain ⟨u, hu, hdu, hq⟩ := hd.get he hk
    exact (caughtUp_iff hi hdu hu).mpr (hq ha)
  · intro hkeep
    by_contra hd
    obtain ⟨bs, a, cs, u, v, rfl, hu, hl, hb, hv, hc⟩ := exists_first_break he hd
    simp only [Drained, not_forall] at hb
    obtain ⟨hact, hq⟩ := hb
    have hup := hkeep bs.length (by simp) (by simpa using hact)
    rw [List.take_left] at hup
    exact hq ((caughtUp_iff hi hl hu).mp hup)

/-- Everything sent has been printed when the process has ended, and nothing is in the queue at the removal, if and
only if the receiver has kept up with `main`. -/
theorem delivery_complete_iff (P : Platform) (qbytes : ℕ) (input : List Byte) (hn : NUL ∉ input)
    (s t : State P) (as : List Action) (hi : (machine P qbytes input).init s)
    (ha : (machine P qbytes input).Along (fun _ a => Clean a) s as)
    (he : (machine P qbytes input).exec s as = some t) (ht : Ended t) :
    (t.stdout = t.sent ↔ KeepsUp as) ∧
      (t.stdout = t.sent ∧ (machine P qbytes input).Along (fun u a => a = .main .msgctl → u.queue.msgs = []) s as ↔
        KeepsUp as) := by
  have hprinted := printed_iff_drained hn hi ha he ht
  have hkeep := drained_iff_keepsUp hi he
  have hempty : (machine P qbytes input).Along Drained s as →
      (machine P qbytes input).Along (fun u a => a = .main .msgctl → u.queue.msgs = []) s as :=
    fun hd => hd.mono fun _ _ hq hact => hq (.inl hact)
  refine ⟨hprinted.trans hkeep, fun h => hkeep.mp (hprinted.mp h.1), fun hk => ?_⟩
  have hd := hkeep.mpr hk
  exact ⟨hprinted.mpr hd, hempty hd⟩

def hiLine : List Byte := [104, 105, 10]

def orderlyRun : List Action := [
  .main .fgets, .main .msgsnd, .thr .malloc, .thr .msgrcv, .thr .printf, .main .fgets, .thr .msgrcv, .main .msgctl,
  .thr .wake, .thr .errno, .thr .exit, .main .join]

theorem delivery_complete_orderly : ∃ t, (machineOn hiLine).exec (startOn hiLine) orderlyRun = some t ∧ Ended t ∧
    t.sent = [[104, 105, 10]] ∧ t.stdout = t.sent ∧
    (machineOn hiLine).Along (fun u a => a = .main .msgctl → u.queue.msgs = []) (startOn hiLine) orderlyRun := by
  have hx : ((machineOn hiLine).exec (startOn hiLine) orderlyRun).map (fun s => (s.status, s.sent)) =
      some (.mainReturned, [[104, 105, 10]]) := by decide +kernel
  obtain ⟨t, ht, hs⟩ := Option.map_eq_some_iff.mp hx
  simp only [Prod.mk.injEq] at hs
  have hend : Ended t := .inl hs.1
  exact ⟨t, ht, hend, hs.2, (delivery_complete_iff glibc 16384 hiLine (by decide) (startOn hiLine) t orderlyRun
    (init_startOn hiLine) (along_of_forall (by decide)) ht hend).2.mpr (by decide)⟩

def earlyRemoval : List Action := [
  .main .fgets, .main .msgsnd, .main .fgets, .main .msgctl, .thr .malloc, .thr .msgrcv, .thr .errno]

theorem delivery_incomplete : ∃ t, (machineOn hiLine).init (startOn hiLine) ∧
    (machineOn hiLine).Along (fun _ a => Clean a) (startOn hiLine) earlyRemoval ∧
    (machineOn hiLine).exec (startOn hiLine) earlyRemoval = some t ∧ Ended t ∧ t.sent = [[104, 105, 10]] ∧ t.stdout = [] := by
  have hx : ((machineOn hiLine).exec (startOn hiLine) earlyRemoval).map (fun s => (s.status, s.sent, s.stdout)) =
      some (.thrExited, [[104, 105, 10]], []) := by decide +kernel
  obtain ⟨t, ht, hs⟩ := Option.map_eq_some_iff.mp hx
  simp only [Prod.mk.injEq] at hs
  exact ⟨t, init_startOn hiLine, along_of_forall (by decide), ht, .inr hs.1, hs.2.1, hs.2.2⟩

end ApueCode.SvMsq
