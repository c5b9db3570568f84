import ApueCode.SvMsq.Steps

/-! Where every byte of the input is while the two loops run. -/

namespace ApueCode.SvMsq

open Posix Transition

variable {P : Platform} {qbytes : ℕ} {input : List Byte} {s t : State P} {a : Action}

def State.unsent (s : State P) : List Byte :=
  if s.main = .msgsnd then (cstr s.text.bytes).getD [] else []

def State.held (s : State P) : List (List Byte) :=
  if s.thr = .printf then (cstr s.rtext.bytes).toList else []

def State.queued (s : State P) : List (List Byte) :=
  s.queue.msgs.map fun m => (cstr m.text).getD []

def LineMsg (P : Platform) (m : Msg) : Prop :=
  m.type = 1 ∧ m.text.length ≤ P.MSGMAXSZ ∧ ∃ t, NUL ∉ t ∧ m.text = t ++ [NUL]

structure Safe (s : State P) : Prop where
  text : s.main = .msgsnd → ∃ t, cstr s.text.bytes = some t
  msgs : ∀ m ∈ s.queue.msgs, LineMsg P m
  rtext : s.thr = .printf → ∃ t, cstr s.rtext.bytes = some t
  errno : s.thr ≠ .failed .E2BIG
  status : s.status ≠ .undefined
  removed : s.queue.removed = true ↔ s.main = .join ∨ s.main = .returned
  gone : s.queue.removed = true → s.queue.msgs = []
  returned : s.main = .returned → s.status = .mainReturned

structure Sound (input : List Byte) (lost : List (List Byte)) (s : State P) : Prop extends Safe s where
  stdin : NUL ∉ s.stdin
  kept : s.queue.removed = false → lost = []
  taken : s.sent.flatten ++ s.unsent ++ s.stdin = input
  carried : s.stdout ++ s.held ++ s.queued ++ lost = s.sent

variable {lost : List (List Byte)}

lemma cstr_message {x : List Byte} (h : NUL ∉ x) : cstr (x ++ [NUL]) = some x := cstr_terminated h []

lemma cstr_received {x : List Byte} {m : Msg} {rtext : Buffer P.MSGMAXSZ} {old : List Byte} (hx : NUL ∉ x)
    (hm : m.text = x ++ [NUL]) (hb : rtext.bytes = m.text ++ old) : cstr rtext.bytes = some x := by
  rw [hb, hm, List.append_assoc]
  exact cstr_terminated hx _

lemma safe_start (text rtext : Buffer P.MSGMAXSZ) : Safe (start qbytes input text rtext) where
  text := by simp [start]
  msgs := by simp [start]
  rtext := by simp [start]
  errno := by simp [start]
  status := by simp [start]
  removed := by simp [start]
  gone := by simp [start]
  returned := by simp [start]

lemma safe_thr {pc : ThrPc} (h : Safe s) (hp : pc ≠ .printf) (he : pc ≠ .failed .E2BIG) (err : List String) :
    Safe { s with thr := pc, stderr := err } :=
  { h with
    rtext := fun hr => (hp hr).elim
    errno := he }

lemma safe_receives {gone : Errno} (h : Safe s) (hg : gone ≠ .E2BIG) (ht : Receives s gone t) : Safe t := by
  cases ht with
  | blocked hr hm => exact safe_thr h (by simp) (by simp) s.stderr
  | gone hr => exact safe_thr h (by simp) (by simpa using hg) s.stderr
  | tooBig hr hm hl =>
    have hle := (h.msgs _ hm).2.1
    omega
  | @message m rest rtext hr hr' hm hq hb =>
    obtain ⟨-, -, x, hx, hmx⟩ := h.msgs m (by simp [hm])
    exact { h with
      msgs := fun m' hm' => h.msgs m' (by simp [hm, hm'])
      rtext := fun _ => ⟨x, cstr_received hx hmx hb⟩
      errno := by simp
      removed := by simpa [hr, hr'] using h.removed
      gone := by simp [hr'] }

lemma safe_line {line rest tail : List Byte} {text : Buffer P.MSGMAXSZ} (h : Safe s) (hm : s.main = .fgets)
    (hb : text.bytes = line ++ NUL :: tail) : Safe { s with stdin := rest, text := text, main := .msgsnd } :=
  { h with
    text := fun _ => cstr_of_mem (by simp [hb])
    removed := by simpa [hm] using h.removed
    returned := by simp }

lemma safe_send {x : List Byte} (h : Safe s) (hm : s.main = .msgsnd) (hc : cstr s.text.bytes = some x) :
    Safe { s with queue := s.queue.push ⟨1, x ++ [NUL]⟩, sent := s.sent ++ [x], main := .fgets } := by
  have hx : NUL ∉ x := (cstr_eq_some.mp hc).1
  have hlen : x.length + 1 ≤ P.MSGMAXSZ := s.text.size ▸ (cstr_take hc).2
  have hr : s.queue.removed = false := by simpa [hm] using h.removed
  refine { h with
    text := by simp
    msgs := fun m hm' => ?_
    removed := by simp [hr]
    gone := by simp [hr]
    returned := by simp }
  rcases List.mem_append.mp hm' with hm' | hm'
  · exact h.msgs m hm'
  · obtain rfl := List.mem_singleton.mp hm'
    exact ⟨rfl, by simpa using hlen, x, hx, rfl⟩

lemma safe_step (h : Safe s) (hs : step s a = some t) : Safe t := by
  obtain ⟨hrun, hs⟩ := step_cases hs
  cases hs with
  | eof hm he =>
    exact { h with
      text := by simp
      removed := by simpa [hm] using h.removed
      returned := by simp }
  | line hm hl hne hb => exact safe_line h hm hb
  | send hm hc hf => exact safe_send h hm hc
  | sendUnterminated hm hc =>
    obtain ⟨x, hx⟩ := h.text hm
    rw [hx] at hc
    cases hc
  | sendFail hm | removeFail hm | mallocFail hm | error hm he =>
    exact { h with
      status := by simp [State.perror]
      returned := fun hr => by simp [h.returned hr] at hrun hr }
  | remove hm =>
    exact { h with
      text := by simp
      msgs := by simp
      removed := by simp
      gone := by simp
      returned := by simp }
  | join hm ht =>
    exact { h with
      text := by simp
      status := by simp
      removed := by simpa [hm] using h.removed
      returned := by simp }
  | malloc ht => exact safe_thr h (by simp) (by simp) s.stderr
  | receiveFail ht hr => exact safe_thr h (by simp) (by simp) s.stderr
  | rcvOver ht => exact safe_thr h (by simp) (by simp) _
  | exit ht => exact safe_thr h (by simp) (by simp) s.stderr
  | msgrcv ht hr | wake ht _ hr => exact safe_receives h (by simp) hr
  | print ht hc => exact { h with rtext := by simp, errno := by simp }
  | printUnterminated ht hc =>
    obtain ⟨x, hx⟩ := h.rtext ht
    rw [hx] at hc
    cases hc

theorem safe_invariant (P : Platform) (qbytes : ℕ) (input : List Byte) :
    (machine P qbytes input).Invariant (fun _ _ => True) (fun s => Safe s) where
  base := by
    rintro s ⟨text, rtext, rfl⟩
    exact safe_start text rtext
  step _ _ _ h _ hs := safe_step h hs

lemma sound_start (hn : NUL ∉ input) (text rtext : Buffer P.MSGMAXSZ) :
    Sound input [] (start qbytes input text rtext) where
  toSafe := safe_start text rtext
  stdin := hn
  kept := by simp
  taken := by simp [start, State.unsent]
  carried := by simp [start, State.held, State.queued]

lemma sound_receives {gone : Errno} (h : Sound input lost s) (hs : s.thr ≠ .printf) (hsafe : Safe t)
    (ht : Receives s gone t) : Sound input lost t := by
  cases ht with
  | blocked hr hm | gone hr =>
    exact { h with toSafe := hsafe, carried := by simpa [State.held, State.queued, hs] using h.carried }
  | tooBig hr hm hl =>
    have hle := (h.msgs _ hm).2.1
    omega
  | @message m rest rtext hr hr' hm hq hb =>
    obtain ⟨-, -, x, hx, hmx⟩ := h.msgs m (by simp [hm])
    refine { h with
      toSafe := hsafe
      kept := fun _ => h.kept hr
      carried := ?_ }
    rw [← h.carried]
    simp [State.held, State.queued, hs, cstr_received hx hmx hb, hm, hmx, cstr_message hx]

lemma sound_line {line rest tail : List Byte} {text : Buffer P.MSGMAXSZ} (h : Sound input lost s)
    (hm : s.main = .fgets) (hl : line ++ rest = s.stdin) (hb : text.bytes = line ++ NUL :: tail) :
    Sound input lost { s with stdin := rest, text := text, main := .msgsnd } := by
  have hline : NUL ∉ line := fun hc => h.stdin (hl ▸ List.mem_append_left rest hc)
  have hc : cstr text.bytes = some line := hb ▸ cstr_terminated hline tail
  have hold := h.taken
  rw [← hl] at hold
  exact { h with
    toSafe := safe_line h.toSafe hm hb
    stdin := fun hc => h.stdin (hl ▸ List.mem_append_right line hc)
    taken := by simpa [State.unsent, hm, hc] using hold }

lemma sound_send {x : List Byte} (h : Sound input lost s) (hm : s.main = .msgsnd) (hc : cstr s.text.bytes = some x) :
    Sound input lost { s with queue := s.queue.push ⟨1, x ++ [NUL]⟩, sent := s.sent ++ [x], main := .fgets } := by
  have hx : NUL ∉ x := (cstr_eq_some.mp hc).1
  have hr : s.queue.removed = false := by simpa [hm] using h.removed
  have hlost := h.kept hr
  have hold := h.taken
  refine { h with
    toSafe := safe_send h.toSafe hm hc
    taken := by simpa [State.unsent, hm, hc] using hold
    carried := ?_ }
  rw [← h.carried]
  simp [State.held, State.queued, cstr_message hx, hlost]

lemma sound_step (h : Sound input lost s) (ha : a ≠ .main .msgctl) (hs : step s a = some t) :
    Sound input lost t := by
  have hsafe := safe_step h.toSafe hs
  obtain ⟨hrun, hs⟩ := step_cases hs
  cases hs with
  | eof hm he => exact { h with toSafe := hsafe, taken := by simpa [State.unsent, hm] using h.taken }
  | line hm hl hne hb => exact sound_line h hm hl hb
  | send hm hc hf => exact sound_send h hm hc
  | sendUnterminated hm hc | printUnterminated hm hc => exact (hsafe.status rfl).elim
  | sendFail hm | removeFail hm | mallocFail hm | error hm he => exact { h with toSafe := hsafe }
  | remove hm => exact (ha rfl).elim
  | join hm ht => exact { h with toSafe := hsafe, taken := by simpa [State.unsent, hm] using h.taken }
  | malloc ht | rcvOver ht | exit ht =>
    exact { h with toSafe := hsafe, carried := by simpa [State.held, State.queued, ht] using h.carried }
  | receiveFail ht hr =>
    have hp : s.thr ≠ .printf := by rcases ht with ht | ht <;> simp [ht]
    exact { h with toSafe := hsafe, carried := by simpa [State.held, State.queued, hp] using h.carried }
  | msgrcv ht hr => exact sound_receives h (by simp [ht]) hsafe hr
  | wake ht hq hr => exact sound_receives h (by simp [ht]) hsafe hr
  | print ht hc =>
    refine { h with toSafe := hsafe, carried := ?_ }
    rw [← h.carried]
    simp [State.held, State.queued, ht, hc]

lemma sound_remove (h : Sound input lost s) (hs : step s (.main .msgctl) = some t) :
    lost = [] ∧ Sound input s.queued t := by
  have hsafe := safe_step h.toSafe hs
  obtain ⟨-, hs⟩ := step_cases hs
  cases hs with
  | remove hm =>
    have hr : s.queue.removed = false := by simpa [hm] using h.removed
    obtain rfl := h.kept hr
    exact ⟨rfl, { h with
      toSafe := hsafe
      kept := by simp
      taken := by simpa [State.unsent, hm] using h.taken
      carried := by simpa [State.held, State.queued] using h.carried }⟩

lemma sound_invariant (P : Platform) (qbytes : ℕ) (hn : NUL ∉ input) :
    (machine P qbytes input).Invariant (fun _ _ => True) (fun s => ∃ lost, Sound input lost s) where
  base := by
    rintro s ⟨text, rtext, rfl⟩
    exact ⟨[], sound_start hn text rtext⟩
  step s a t h _ hs := by
    obtain ⟨lost, h⟩ := h
    by_cases ha : a = .main .msgctl
    · subst ha
      exact ⟨s.queued, (sound_remove h hs).2⟩
    · exact ⟨lost, sound_step h ha hs⟩

/-- Until the queue is removed, the input is what was printed, what is on its way in the order it
was read, and what is still unread; no queued message is too long for the receiver. -/
theorem transfer_conserves (P : Platform) (qbytes : ℕ) (input : List Byte) (hn : NUL ∉ input)
    (s : State P) (hs : (machine P qbytes input).Reachable s) (hr : s.queue.removed = false) :
    (s.stdout ++ s.held).flatten ++ s.queued.flatten ++ s.unsent ++ s.stdin = input ∧
      (∀ m ∈ s.queue.msgs, LineMsg P m) ∧ s.thr ≠ .failed .E2BIG ∧ s.status ≠ .undefined := by
  obtain ⟨lost, h⟩ := (sound_invariant P qbytes hn).holds hs
  refine ⟨?_, h.msgs, h.errno, h.status⟩
  have hc := h.carried
  rw [h.kept hr, List.append_nil] at hc
  rw [← List.flatten_append, hc]
  exact h.taken

def startOn (input : List Byte) : State glibc := start 16384 input (.zero _) (.zero _)

def machineOn (input : List Byte) : Machine (State glibc) Action := machine glibc 16384 input

lemma init_startOn (input : List Byte) : (machineOn input).init (startOn input) := ⟨_, _, rfl⟩

def fiveLines : List Byte := [97, 10, 98, 10, 99, 10, 100, 10, 101, 10]

def spreadRun : List Action := [
  .main .fgets, .main .msgsnd, .main .fgets, .main .msgsnd, .thr .malloc, .thr .msgrcv, .thr .printf,
  .thr .msgrcv, .main .fgets, .main .msgsnd, .main .fgets]

theorem transfer_conserves_spread : ∃ s, (machineOn fiveLines).exec (startOn fiveLines) spreadRun = some s ∧
    s.stdout = [[97, 10]] ∧ s.held = [[98, 10]] ∧ s.queued = [[99, 10]] ∧ s.unsent = [100, 10] ∧ s.stdin = [101, 10] ∧
    (s.stdout ++ s.held).flatten ++ s.queued.flatten ++ s.unsent ++ s.stdin = fiveLines ∧
    (∀ m ∈ s.queue.msgs, LineMsg glibc m) ∧ s.thr ≠ .failed .E2BIG ∧ s.status ≠ .undefined := by
  have hx : ((machineOn fiveLines).exec (startOn fiveLines) spreadRun).map (fun s =>
      (s.queue.removed, [s.stdout, s.held, s.queued], [s.unsent, s.stdin])) =
      some (false, [[[97, 10]], [[98, 10]], [[99, 10]]], [[100, 10], [101, 10]]) := by decide +kernel
  obtain ⟨s, hs, hx⟩ := Option.map_eq_some_iff.mp hx
  simp only [Prod.mk.injEq, List.cons.injEq, and_true] at hx
  obtain ⟨hr, ⟨hout, hheld, hq⟩, hun, hin⟩ := hx
  exact ⟨s, hs, hout, hheld, hq, hun, hin, transfer_conserves glibc 16384 fiveLines (by decide) s
    (Machine.reachable_of_exec (init_startOn fiveLines) hs) hr⟩

end ApueCode.SvMsq
