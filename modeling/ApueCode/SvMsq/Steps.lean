import ApueCode.SvMsq.Model

/-! What one step of either thread can do. -/

namespace ApueCode.SvMsq

open Posix Transition

variable {P : Platform} {s t : State P} {a : Action}

lemma two_le_msgmaxsz (P : Platform) : 2 ≤ P.MSGMAXSZ := by
  have h := P.room
  rw [Platform.MSGMAXSZ]
  omega

inductive Receives (s : State P) (gone : Errno) : State P → Prop
  | blocked : s.queue.removed = false → s.queue.msgs = [] → Receives s gone { s with thr := .blocked }
  | gone : s.queue.removed = true → Receives s gone { s with thr := .failed gone }
  | tooBig {m} : s.queue.removed = false → m ∈ s.queue.msgs → P.MSGMAXSZ < m.text.length →
      Receives s gone { s with thr := .failed .E2BIG }
  | message {m rest rtext} : s.queue.removed = false → rest.removed = false →
      s.queue.msgs = m :: rest.msgs → rest.qbytes = s.queue.qbytes →
      rtext.bytes = m.text ++ s.rtext.bytes.drop m.text.length →
      Receives s gone { s with queue := rest, rtext := rtext, thr := .printf }

inductive Step (s : State P) : Action → State P → Prop
  | eof : s.main = .fgets → s.stdin = [] → Step s (.main .fgets) { s with main := .msgctl }
  | line {line rest text tail} : s.main = .fgets → line ++ rest = s.stdin → line ≠ [] →
      text.bytes = line ++ NUL :: tail →
      Step s (.main .fgets) { s with stdin := rest, text := text, main := .msgsnd }
  | send {t : List Byte} : s.main = .msgsnd → cstr s.text.bytes = some t → s.queue.fits ⟨1, t ++ [NUL]⟩ = true →
      Step s (.main .msgsnd)
        { s with queue := s.queue.push ⟨1, t ++ [NUL]⟩, sent := s.sent ++ [t], main := .fgets }
  | sendUnterminated : s.main = .msgsnd → cstr s.text.bytes = none →
      Step s (.main .msgsnd) { s with status := .undefined }
  | sendFail : s.main = .msgsnd → Step s (.main .msgsndFail) (s.perror "msgsnd error" .mainExited)
  | remove : s.main = .msgctl →
      Step s (.main .msgctl) { s with queue := s.queue.rmid, main := .join }
  | removeFail : s.main = .msgctl →
      Step s (.main .msgctlFail) (s.perror "msgctl(IPC_RMID) error" .mainExited)
  | join : s.main = .join → s.thr = .ended →
      Step s (.main .join) { s with main := .returned, status := .mainReturned }
  | malloc : s.thr = .malloc → Step s (.thr .malloc) { s with thr := .msgrcv }
  | mallocFail : s.thr = .malloc → Step s (.thr .mallocFail) (s.perror "msgptr error" .thrExited)
  | msgrcv {t : State P} : s.thr = .msgrcv → Receives s .EINVAL t → Step s (.thr .msgrcv) t
  | wake {t : State P} : s.thr = .blocked → s.queue.removed = true ∨ s.queue.msgs ≠ [] →
      Receives s .EIDRM t → Step s (.thr .wake) t
  | receiveFail {code} : s.thr = .msgrcv ∨ s.thr = .blocked → s.queue.removed = false →
      Step s (.thr (.msgrcvFail code)) { s with thr := .failed (.other code) }
  | print {t : List Byte} : s.thr = .printf → cstr s.rtext.bytes = some t →
      Step s (.thr .printf) { s with stdout := s.stdout ++ [t], thr := .msgrcv }
  | printUnterminated : s.thr = .printf → cstr s.rtext.bytes = none →
      Step s (.thr .printf) { s with status := .undefined }
  | rcvOver : s.thr = .failed .EIDRM →
      Step s (.thr .errno) { s with stderr := s.stderr ++ ["msgrcv over\n"], thr := .rcvOver }
  | error {e} : s.thr = .failed e → e ≠ .EIDRM →
      Step s (.thr .errno) (s.perror "msgrcv error" .thrExited)
  | exit : s.thr = .rcvOver → Step s (.thr .exit) { s with thr := .ended }

lemma receive_cases (s : State P) (gone : Errno) : Receives s gone (receive s gone) := by
  rw [receive]
  cases h : s.queue.msgrcv P.MSGMAXSZ gone with
  | blocked =>
    obtain ⟨hr, hm⟩ := MsgQueue.msgrcv_blocked.mp h
    exact .blocked hr hm
  | error e =>
    rcases MsgQueue.msgrcv_error h with ⟨hr, rfl⟩ | ⟨hr, rfl, m, hm, hl⟩
    · exact .gone hr
    · exact .tooBig hr hm hl
  | message m rest =>
    obtain ⟨hr, hm, hl, hr', hq⟩ := MsgQueue.msgrcv_message h
    obtain ⟨rtext, hw, hb⟩ := s.rtext.write_isSome hl
    simp only [hw]
    exact .message hr hr' hm hq hb

lemma readLine_cases (hm : s.main = .fgets) : Step s (.main .fgets) (readLine s) := by
  rw [readLine]
  cases h : Posix.fgets P.MSGMAXSZ s.stdin with
  | none => exact .eof hm (fgets_eq_none.mp h)
  | some p =>
    obtain ⟨line, rest⟩ := p
    obtain ⟨hs, hne, hl⟩ := fgets_split (two_le_msgmaxsz P) h
    have hlen : (line ++ [NUL]).length ≤ P.MSGMAXSZ := by simpa using hl
    obtain ⟨text, hw, hb⟩ := s.text.write_isSome hlen
    simp only [hw]
    exact .line hm hs hne (by rw [hb, List.append_assoc]; rfl)

lemma sendText_cases (hm : s.main = .msgsnd) (h : sendText s = some t) :
    Step s (.main .msgsnd) t := by
  rw [sendText] at h
  cases hc : cstr s.text.bytes with
  | none =>
    simp only [hc, Option.some.injEq] at h
    exact h ▸ .sendUnterminated hm hc
  | some x =>
    simp only [hc, (cstr_take hc).1] at h
    split at h
    · rename_i hf
      exact Option.some.inj h ▸ .send hm hc hf
    · cases h

lemma mainStep_cases {a : MainAction} (h : mainStep s a = some t) : Step s (.main a) t := by
  cases a with
  | fgets =>
    obtain ⟨hm, rfl⟩ := by simpa [mainStep] using h
    exact readLine_cases hm
  | msgsnd =>
    obtain ⟨hm, h⟩ := by simpa [mainStep] using h
    exact sendText_cases hm h
  | msgsndFail =>
    obtain ⟨hm, rfl⟩ := by simpa [mainStep] using h
    exact .sendFail hm
  | msgctl =>
    obtain ⟨hm, rfl⟩ := by simpa [mainStep] using h
    exact .remove hm
  | msgctlFail =>
    obtain ⟨hm, rfl⟩ := by simpa [mainStep] using h
    exact .removeFail hm
  | join =>
    obtain ⟨⟨hm, ht⟩, rfl⟩ := by simpa [mainStep] using h
    exact .join hm ht

lemma thrStep_cases {a : ThrAction} (h : thrStep s a = some t) : Step s (.thr a) t := by
  cases a with
  | malloc =>
    obtain ⟨ht, rfl⟩ := by simpa [thrStep] using h
    exact .malloc ht
  | mallocFail =>
    obtain ⟨ht, rfl⟩ := by simpa [thrStep] using h
    exact .mallocFail ht
  | msgrcv =>
    obtain ⟨ht, rfl⟩ := by simpa [thrStep] using h
    exact .msgrcv ht (receive_cases s _)
  | msgrcvFail code =>
    obtain ⟨⟨ht, hr⟩, rfl⟩ := by simpa [thrStep] using h
    exact .receiveFail ht hr
  | wake =>
    obtain ⟨⟨ht, hq⟩, rfl⟩ := by simpa only [thrStep, Option.ite_none_right_eq_some, Option.some.injEq] using h
    exact .wake ht hq (receive_cases s _)
  | printf =>
    obtain ⟨ht, rfl⟩ := by simpa [thrStep] using h
    rw [printText]
    cases hc : cstr s.rtext.bytes with
    | none => exact .printUnterminated ht hc
    | some x => exact .print ht hc
  | errno =>
    cases ht : s.thr with
    | failed e =>
      cases e <;> simp only [thrStep, ht, Option.some.injEq] at h <;> subst h
      · exact .rcvOver ht
      all_goals exact .error ht (by simp)
    | _ => simp [thrStep, ht] at h
  | exit =>
    obtain ⟨ht, rfl⟩ := by simpa [thrStep] using h
    exact .exit ht

lemma step_cases (h : step s a = some t) : s.status = .running ∧ Step s a t := by
  simp only [step, Option.ite_none_right_eq_some] at h
  obtain ⟨hs, h⟩ := h
  cases a with
  | main a => exact ⟨hs, mainStep_cases h⟩
  | thr a => exact ⟨hs, thrStep_cases h⟩

lemma exec_stopped {qbytes : ℕ} {input : List Byte} {as : List Action} (hs : s.status ≠ .running)
    (he : (machine P qbytes input).exec s as = some t) : as = [] ∧ t = s := by
  cases as with
  | nil => exact ⟨rfl, (Option.some.inj he).symm⟩
  | cons a as =>
    obtain ⟨u, hu, -⟩ := Machine.exec_cons_iff.mp he
    exact (hs (step_cases (s := s) (t := u) hu).1).elim

end ApueCode.SvMsq
