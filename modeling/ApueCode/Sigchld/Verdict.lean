import ApueCode.Sigchld.Model

/-! The two answers that `sigchld` prints are right, unless a signal comes later than it is due. -/

namespace ApueCode.Sigchld

open Posix Transition Machine

variable {k : Kernel} {s t : State} {a : Action} {as : List Action} {pid : ℕ} {e : Termination}
  {prompt clean : Prop}

def firstLine (k : Kernel) : String := if k.keepsIgnored then equivalentLine else throwAwayLine

structure Quiet (s : State) : Prop where
  handler : s.handler = none
  pending : s.pending = false
  stderr : s.stderr = []

structure Ignoring (k : Kernel) (n : ℕ) (s : State) : Prop extends Quiet s where
  disposition : s.disposition = .SIG_IGN
  stdout : s.stdout = []
  kept : k.keepsIgnored = true → s.count + s.children.pids.card = n
  discarded : k.keepsIgnored = false → s.children.zombies = ∅ ∧ s.count = 0

structure Between (k : Kernel) (own : Finset ℕ) (s : State) : Prop extends Quiet s where
  stdout : s.stdout = [firstLine k]
  pids : s.children.pids = own

structure Ready (k : Kernel) (pid : ℕ) (e : Termination) (s : State) : Prop where
  pc : s.pc = .wait
  stdout : s.stdout = [firstLine k]
  pids : s.children.pids = {pid}
  zombie : (pid, e) ∈ s.children.zombies

def Raised (k : Kernel) : Prop := k.raises = true ∧ k.blocked = false

def OnTime (k : Kernel) (prompt : Prop) : Prop := prompt → ¬ Raised k

inductive Inv (k : Kernel) (prompt clean : Prop) (s : State) : Prop
  | ignore (hpc : s.pc = .ignore) (hq : Quiet s) (hs : s.stdout = [] ∧ s.count = 0 ∧ s.children = .none)
  | forking (i : ℕ) (hpc : s.pc = .fork i) (hi : i < nchild) (h : Ignoring k i s) (hc : s.count = 0)
  | counting (hpc : s.pc = .count) (h : Ignoring k nchild s)
  | default (hpc : s.pc = .default) (h : Between k ∅ s)
  | forkLast (hpc : s.pc = .forkLast) (h : Between k ∅ s) (hd : s.disposition = .SIG_DFL)
  | waiting (pid : ℕ) (hpc : s.pc = .waitid pid) (h : Between k {pid} s) (hd : s.disposition = .SIG_DFL)
  | establish (pid : ℕ) (e : Termination) (hpc : s.pc = .establish) (h : Between k {pid} s)
    (hz : (pid, e) ∈ s.children.zombies)
  | ready (pid : ℕ) (e : Termination) (h : Ready k pid e s) (hh : s.handler = none) (hp : s.pending = k.raises)
    (he : s.stderr = [])
  | catching (pid : ℕ) (e : Termination) (h : Ready k pid e s) (hp : s.pending = false) (hk : Raised k)
    (hh : s.handler = some .psignal ∧ s.stderr = [] ∨ s.handler = some .wait ∧ s.stderr = ["catch signal"])
  | caught (hpc : s.pc = .wait) (hh : s.handler = none) (hp : s.pending = false) (hk : Raised k)
    (hc : s.children.pids = ∅) (ho : s.stdout = [firstLine k]) (he : s.stderr = ["catch signal"])
  | immediately (hpc : s.pc = .return ∨ s.pc = .exited 0) (hh : s.handler = none) (hp : s.pending = false)
    (hk : Raised k) (hc : s.children.pids = ∅) (ho : s.stdout = [firstLine k, immediatelyLine])
    (he : s.stderr = ["catch signal"])
  | notImmediately (hpc : s.pc = .return ∨ s.pc = .exited 0) (hh : s.handler = none) (hp : s.pending = true → k.raises = true)
    (hk : OnTime k prompt) (hc : s.children.pids = ∅) (ho : s.stdout = [firstLine k, notImmediatelyLine])
    (he : s.stderr = [])
  | late (hpc : s.pc = .return) (hk : ¬ prompt) (hc : s.children.pids = ∅) (hh : s.handler ≠ none)
    (hp : s.pending = false)
  | failed (hpc : s.pc = .exited EXIT_FAILURE) (hk : prompt → ¬ clean) (hh : s.handler = none)

lemma inv_start : Inv k prompt clean start := .ignore rfl ⟨rfl, rfl, rfl⟩ ⟨rfl, rfl, rfl⟩

lemma zombies_of_pids (h : s.children.pids = ∅) : s.children.zombies = ∅ := by
  by_contra hne
  obtain ⟨z, hz⟩ := Finset.nonempty_iff_ne_empty.mpr hne
  have hm : z.1 ∈ s.children.pids := Children.mem_pids.mpr (.inr ⟨z.2, hz⟩)
  simp [h] at hm

lemma running_of_pids (h : s.children.pids = ∅) : pid ∉ s.children.running := by
  intro hr
  have hm : pid ∈ s.children.pids := Children.mem_pids.mpr (.inl hr)
  simp [h] at hm

lemma inv_mainStep (h : Inv k prompt clean s) (hh : s.handler = none) (hs : mainStep k s = some t) : Inv k prompt clean t := by
  cases h with
  | ignore hpc hq hs' =>
    simp only [mainStep, hpc, Option.some.injEq] at hs
    subst hs
    refine .forking 0 rfl (by decide) ⟨⟨hq.handler, hq.pending, hq.stderr⟩, rfl, hs'.1, ?_, ?_⟩ hs'.2.1
    · simp [hs'.2.1, hs'.2.2]
    · simp [hs'.2.1, hs'.2.2, Children.none]
  | forking i hpc hi h hc => simp [mainStep, hpc] at hs
  | counting hpc h =>
    simp only [mainStep, hpc, Option.ite_none_right_eq_some, Option.some.injEq] at hs
    obtain ⟨he, rfl⟩ := hs
    refine .default rfl ⟨⟨h.handler, h.pending, h.stderr⟩, ?_, he⟩
    cases hk : k.keepsIgnored with
    | true =>
      have hcount := h.kept hk
      rw [he] at hcount
      have hne : s.count ≠ 0 := by
        simp only [Finset.card_empty, nchild] at hcount
        omega
      simp [h.stdout, firstLine, hk, hne]
    | false => simp [h.stdout, firstLine, hk, (h.discarded hk).2]
  | default hpc h =>
    simp only [mainStep, hpc, Option.some.injEq] at hs
    subst hs
    exact .forkLast rfl ⟨⟨h.handler, rfl, h.stderr⟩, h.stdout, h.pids⟩ rfl
  | forkLast hpc h hd => simp [mainStep, hpc] at hs
  | waiting pid hpc h hd =>
    simp only [mainStep, hpc] at hs
    split at hs
    · next hz =>
      obtain rfl := Option.some.inj hs
      obtain ⟨⟨p, e⟩, hz', rfl⟩ := Finset.mem_image.mp hz
      exact .establish p e rfl ⟨⟨h.handler, h.pending, h.stderr⟩, h.stdout, h.pids⟩ hz'
    · simp [h.pids] at hs
  | establish pid e hpc h hz =>
    simp only [mainStep, hpc, Option.some.injEq] at hs
    subst hs
    have hne : s.children.zombies ≠ ∅ := Finset.ne_empty_of_mem hz
    exact .ready pid e ⟨rfl, h.stdout, h.pids, hz⟩ h.handler (by simp [hne]) h.stderr
  | ready pid e h hh hp he => simp [mainStep, h.pc, h.pids] at hs
  | catching pid e h hp hk hh' => simp [hh] at hh'
  | caught hpc hh hp hk hc ho he =>
    simp only [mainStep, hpc, hc, if_true, Option.some.injEq] at hs
    subst hs
    exact .immediately (.inl rfl) hh hp hk hc (by simp [ho]) he
  | immediately hpc hh hp hk hc ho he =>
    rcases hpc with hpc | hpc
    · simp only [mainStep, hpc, Option.some.injEq] at hs
      subst hs
      exact .immediately (.inr rfl) hh hp hk hc ho he
    · simp [mainStep, hpc] at hs
  | notImmediately hpc hh hp hk hc ho he =>
    rcases hpc with hpc | hpc
    · simp only [mainStep, hpc, Option.some.injEq] at hs
      subst hs
      exact .notImmediately (.inr rfl) hh hp hk hc ho he
    · simp [mainStep, hpc] at hs
  | late hpc hk hc hh' hp => exact (hh' hh).elim
  | failed hpc hk hh => simp [mainStep, hpc] at hs

lemma Ignoring.fork {i : ℕ} (h : Ignoring k i s) (hc : s.count = 0) (hp : pid ∉ s.children.pids) (pc : Pc) :
    Ignoring k (i + 1) { s with children := s.children.fork pid hp, pc := pc } := by
  refine ⟨⟨h.handler, h.pending, h.stderr⟩, h.disposition, h.stdout, fun hk => ?_, fun hk => h.discarded hk⟩
  have hi := h.kept hk
  simp only [Children.pids_fork, Finset.card_insert_of_notMem hp, hc] at hi ⊢
  omega

lemma inv_forkStep (h : Inv k prompt clean s) (hs : forkStep s pid = some t) : Inv k prompt clean t := by
  unfold forkStep at hs
  split at hs
  case isFalse => cases hs
  next hp =>
  cases h with
  | forking i hpc hi h hc =>
    simp only [hpc, Option.some.injEq] at hs
    subst hs
    by_cases hlt : i + 1 < nchild
    · rw [if_pos hlt]
      exact .forking (i + 1) rfl hlt (h.fork hc hp _) hc
    · rw [if_neg hlt]
      have he : i + 1 = nchild := by omega
      exact .counting rfl (he ▸ h.fork hc hp _)
  | forkLast hpc h hd =>
    simp only [hpc, Option.some.injEq] at hs
    subst hs
    exact .waiting pid rfl ⟨⟨h.handler, h.pending, h.stderr⟩, h.stdout, by simp [h.pids]⟩ hd
  | ready _ _ h | catching _ _ h => simp [h.pc] at hs
  | immediately hpc | notImmediately hpc => rcases hpc with hpc | hpc <;> simp [hpc] at hs
  | _ => simp_all

lemma inv_forkFails (hc : ¬ clean) (hs : forkFails s = some t) : Inv k prompt clean t := by
  unfold forkFails at hs
  split at hs
  · exact Option.some.inj hs ▸ .failed rfl (fun _ => hc) rfl
  · exact Option.some.inj hs ▸ .failed rfl (fun _ => hc) rfl
  · cases hs

lemma inv_reapStep (h : Inv k prompt clean s) (hh : s.handler = none) (hok : prompt → Prompt k s (.reap pid e))
    (hs : reapStep s pid e = some t) : Inv k prompt clean t := by
  simp only [reapStep, Option.ite_none_right_eq_some] at hs
  obtain ⟨hz, hs⟩ := hs
  have hcard : (s.children.reap pid e).pids.card + 1 = s.children.pids.card := by
    rw [Children.pids_reap hz]
    exact Finset.card_erase_add_one (Children.mem_pids.mpr (.inr ⟨e, hz⟩))
  cases h with
  | counting hpc h =>
    simp only [hpc, Option.some.injEq] at hs
    subst hs
    refine .counting rfl ⟨⟨h.handler, h.pending, h.stderr⟩, h.disposition, h.stdout, fun hk => ?_, fun hk => ?_⟩
    · have hkept := h.kept hk
      simp only
      omega
    · rw [(h.discarded hk).1] at hz
      cases hz
  | ready pid' e' h hh' hp he =>
    simp only [h.pc, Option.some.injEq] at hs
    subst hs
    refine .notImmediately (.inl rfl) hh' (by simp [hp]) (fun hpr hk => ?_) ?_ (by simp [h.stdout]) he
    · cases hok hpr (hp.trans hk.1) hk.2 hh
    · rw [h.pids, Finset.card_singleton] at hcard
      exact Finset.card_eq_zero.mp (by simpa using hcard)
  | catching pid' e' h hp hk hh' => simp [hh] at hh'
  | caught hpc hh hp hk hc ho he => simp [zombies_of_pids hc] at hz
  | immediately hpc | notImmediately hpc => rcases hpc with hpc | hpc <;> simp [hpc] at hs
  | _ => simp_all

lemma inv_handler (h : Inv k prompt clean s) (hs : sig_chld s = some t) : Inv k prompt clean t := by
  cases h with
  | catching pid e h hp hk hh =>
    rcases hh with ⟨hh, he⟩ | ⟨hh, he⟩
    · simp only [sig_chld, hh, Option.some.injEq] at hs
      subst hs
      exact .catching pid e ⟨h.pc, h.stdout, h.pids, h.zombie⟩ hp hk (.inr ⟨rfl, by simp [he]⟩)
    · simp [sig_chld, hh, h.pids] at hs
  | late hpc hk hc hh hp =>
    unfold sig_chld at hs
    split at hs
    · obtain rfl := Option.some.inj hs
      exact .late hpc hk hc nofun hp
    · simp only [Option.ite_none_right_eq_some, Option.some.injEq] at hs
      exact hs.2 ▸ .failed rfl (fun hpr => (hk hpr).elim) rfl
    · cases hs
  | ignore hpc h | forking _ hpc _ h | counting hpc h | default hpc h | forkLast hpc h | waiting _ hpc h
    | establish _ _ hpc h => simp [sig_chld, h.handler] at hs
  | _ => simp_all [sig_chld]

lemma inv_handlerReap (h : Inv k prompt clean s) (hs : step k s (.handlerReap pid e) = some t) :
    Inv k prompt clean t := by
  simp only [step, Option.ite_none_right_eq_some, Option.some.injEq] at hs
  obtain ⟨⟨hh, hz⟩, rfl⟩ := hs
  cases h with
  | catching pid' e' h hp hk hh' =>
    have hpids := h.pids
    have hm : pid ∈ s.children.pids := Children.mem_pids.mpr (.inr ⟨e, hz⟩)
    obtain rfl : pid = pid' := by rwa [hpids, Finset.mem_singleton] at hm
    refine .caught h.pc rfl hp hk ?_ h.stdout ?_
    · simp [Children.pids_reap hz, hpids]
    · simpa [hh] using hh'
  | late hpc hk hc hh' hp => simp [zombies_of_pids hc] at hz
  | ignore hpc h | forking _ hpc _ h | counting hpc h | default hpc h | forkLast hpc h | waiting _ hpc h
    | establish _ _ hpc h => simp [h.handler] at hh
  | _ => simp_all

lemma inv_deliver (h : Inv k prompt clean s) (hs : step k s .deliver = some t) : Inv k prompt clean t := by
  simp only [step, Option.ite_none_right_eq_some, Option.some.injEq] at hs
  obtain ⟨⟨hp, hb, hh, hx⟩, rfl⟩ := hs
  cases h with
  | ready pid e h hh' hp' he =>
    exact .catching pid e ⟨h.pc, h.stdout, h.pids, h.zombie⟩ rfl ⟨hp'.symm.trans hp, hb⟩ (.inl ⟨rfl, he⟩)
  | notImmediately hpc hh' hp' hk hc ho he =>
    rcases hpc with hpc | hpc
    · exact .late hpc (fun hpr => hk hpr ⟨hp' hp, hb⟩) hc nofun rfl
    · simp [hpc, hasEnded] at hx
  | ignore hpc h | forking _ hpc _ h | counting hpc h | default hpc h | forkLast hpc h | waiting _ hpc h
    | establish _ _ hpc h => simp [h.pending] at hp
  | failed hpc => simp [hpc, hasEnded] at hx
  | _ => simp_all

lemma Ignoring.childEnds {n : ℕ} (h : Ignoring k n s) (hs : childEnds k s pid e = some t) :
    Ignoring k n t ∧ t.pc = s.pc ∧ t.count = s.count := by
  unfold Sigchld.childEnds at hs
  split at hs
  case isFalse => cases hs
  next hr =>
  obtain rfl := Option.some.inj hs
  refine ⟨⟨⟨h.handler, ?_, h.stderr⟩, h.disposition, h.stdout, fun hk => ?_, fun hk => ?_⟩, rfl, rfl⟩
  · simp [h.pending, h.disposition]
  · simp only [hk, Bool.or_true, Children.pids_keep]
    exact h.kept hk
  · simp only [hk, h.disposition, ne_eq, not_true_eq_false, decide_false, Bool.or_false, Children.finish,
      Bool.false_eq_true, if_false]
    exact h.discarded hk

lemma not_running {p : ℕ} (hp : s.children.pids = {p}) (hz : (p, e) ∈ s.children.zombies) :
    pid ∉ s.children.running := by
  intro hr
  have hm : pid ∈ s.children.pids := Children.mem_pids.mpr (.inl hr)
  rw [hp, Finset.mem_singleton] at hm
  exact s.children.apart p e hz (hm ▸ hr)

lemma childEnds_eq_none (h : pid ∉ s.children.running) : childEnds k s pid e = none := dif_neg h

lemma inv_childEnds (h : Inv k prompt clean s) (hs : childEnds k s pid e = some t) : Inv k prompt clean t := by
  cases h with
  | ignore hpc hq hi =>
    have hp : s.children.pids = ∅ := by simp [hi.2.2]
    rw [childEnds_eq_none (running_of_pids hp)] at hs
    cases hs
  | forking i hpc hi h hc =>
    obtain ⟨h', hpc', hc'⟩ := h.childEnds hs
    exact .forking i (hpc'.trans hpc) hi h' (hc'.trans hc)
  | counting hpc h =>
    obtain ⟨h', hpc', -⟩ := h.childEnds hs
    exact .counting (hpc'.trans hpc) h'
  | waiting p hpc h hd =>
    unfold childEnds at hs
    split at hs
    case isFalse => cases hs
    next hr =>
    obtain rfl := Option.some.inj hs
    refine .waiting p hpc ⟨⟨h.handler, ?_, h.stderr⟩, h.stdout, ?_⟩ hd
    · simp [h.pending, hd]
    · simp [hd, Children.pids_keep, h.pids]
  | default _ h | forkLast _ h =>
    rw [childEnds_eq_none (running_of_pids h.pids)] at hs
    cases hs
  | establish p e' hpc h hz => simp [childEnds_eq_none (not_running h.pids hz)] at hs
  | ready p e' h | catching p e' h => simp [childEnds_eq_none (not_running h.pids h.zombie)] at hs
  | caught _ _ _ _ hc | immediately _ _ _ _ hc | notImmediately _ _ _ _ hc | late _ _ hc =>
    rw [childEnds_eq_none (running_of_pids hc)] at hs
    cases hs
  | failed hpc hk hh =>
    unfold childEnds at hs
    split at hs
    · exact Option.some.inj hs ▸ .failed hpc hk hh
    · cases hs

lemma inv_step (h : Inv k prompt clean s) (hok : prompt → Prompt k s a) (hc : clean → a ≠ .forkFails)
    (hs : step k s a = some t) : Inv k prompt clean t := by
  cases a with
  | childEnds pid e => exact inv_childEnds h hs
  | deliver => exact inv_deliver h hs
  | handler => exact inv_handler h hs
  | handlerReap pid e => exact inv_handlerReap h hs
  | main =>
    simp only [step, Option.ite_none_right_eq_some] at hs
    exact inv_mainStep h hs.1 hs.2
  | fork pid =>
    simp only [step, Option.ite_none_right_eq_some] at hs
    exact inv_forkStep h hs.2
  | reap pid e =>
    simp only [step, Option.ite_none_right_eq_some] at hs
    exact inv_reapStep h hs.1 hok hs.2
  | forkFails =>
    simp only [step, Option.ite_none_right_eq_some] at hs
    exact inv_forkFails (fun hcl => hc hcl rfl) hs.2

lemma inv : (machine k).Invariant (fun _ _ => True) (Inv k False False) where
  base _ hs := hs ▸ inv_start
  step _ _ _ h _ hs := inv_step h False.elim False.elim hs

def silentRun : List Action := [
  .main, .fork 1, .fork 2, .childEnds 1 (.exited 0), .fork 3, .childEnds 3 (.exited 0), .childEnds 2 (.exited 0),
  .main, .main, .fork 4, .childEnds 4 (.exited 0), .main, .main, .reap 4 (.exited 0), .main]

theorem verdict_of_handler (hs : (machine k).Reachable s) (hx : s.pc = .exited 0) :
    s.stdout = [firstLine k, if s.stderr = [] then notImmediatelyLine else immediatelyLine] ∧
      s.children.pids = ∅ := by
  cases inv.holds hs with
  | immediately hpc hh hp hk hc ho he => simp_all
  | notImmediately hpc hh hp hk hc ho he => simp_all
  | failed hpc => simp [hpc, EXIT_FAILURE] at hx
  | ready _ _ h | catching _ _ h => simp [h.pc] at hx
  | _ => simp_all

def raisingKernel : Kernel := ⟨true, true, false⟩

def caughtRun : List Action := [
  .main, .fork 1, .fork 2, .childEnds 1 (.exited 0), .fork 3, .childEnds 3 (.exited 0), .reap 3 (.exited 0),
  .reap 1 (.exited 0), .childEnds 2 (.exited 0), .reap 2 (.exited 0), .main, .main, .fork 4, .childEnds 4 (.exited 0),
  .main, .main, .deliver, .handler, .handlerReap 4 (.exited 0), .main, .main]

theorem verdict_of_handler_caughtRun : ∃ t, (machine raisingKernel).exec start caughtRun = some t ∧
    t.stderr = ["catch signal"] ∧ t.stdout = [equivalentLine, immediatelyLine] ∧ t.children.pids = ∅ := by
  obtain ⟨t, he, ht⟩ := Option.map_eq_some_iff.mp (show
    ((machine raisingKernel).exec start caughtRun).map (fun t => (t.pc, t.stderr)) =
      some (.exited 0, ["catch signal"]) by decide +kernel)
  obtain ⟨hpc, herr⟩ := Prod.mk.inj ht
  obtain ⟨hout, hpids⟩ := verdict_of_handler (reachable_of_exec rfl he) hpc
  rw [if_neg (by simp [herr])] at hout
  exact ⟨t, he, herr, hout, hpids⟩

end ApueCode.Sigchld
