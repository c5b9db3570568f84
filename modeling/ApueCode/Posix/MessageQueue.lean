import ApueCode.Posix.CString

/-! A System V message queue: messages in arrival order, a byte limit, and removal. -/

namespace ApueCode.Posix

inductive Errno
  | EIDRM | EINVAL | E2BIG
  | other (code : ℕ)
  deriving DecidableEq

structure Msg where
  type : ℤ
  text : List Byte
  deriving DecidableEq

structure MsgQueue where
  qbytes : ℕ
  msgs : List Msg
  removed : Bool
  deriving DecidableEq

inductive Received
  | message (m : Msg) (rest : MsgQueue)
  | blocked
  | error (e : Errno)

namespace MsgQueue

def empty (qbytes : ℕ) : MsgQueue := ⟨qbytes, [], false⟩

def cbytes (q : MsgQueue) : ℕ := (q.msgs.map fun m => m.text.length).sum

def fits (q : MsgQueue) (m : Msg) : Bool := q.cbytes + m.text.length ≤ q.qbytes

def push (q : MsgQueue) (m : Msg) : MsgQueue := { q with msgs := q.msgs ++ [m] }

def rmid (q : MsgQueue) : MsgQueue := { q with msgs := [], removed := true }

/-- `msgrcv` of at most `msgsz` bytes with type 0 and no flags. A removed queue is reported by
`gone`: `EINVAL` to a new call and `EIDRM` to a call that was blocked when the queue went. -/
def msgrcv (q : MsgQueue) (msgsz : ℕ) (gone : Errno) : Received :=
  if q.removed then .error gone
  else match q.msgs with
    | [] => .blocked
    | m :: ms => if m.text.length ≤ msgsz then .message m { q with msgs := ms } else .error .E2BIG

@[simp] lemma empty_msgs (n : ℕ) : (empty n).msgs = [] := rfl
@[simp] lemma empty_removed (n : ℕ) : (empty n).removed = false := rfl
@[simp] lemma push_msgs (q : MsgQueue) (m : Msg) : (q.push m).msgs = q.msgs ++ [m] := rfl
@[simp] lemma push_removed (q : MsgQueue) (m : Msg) : (q.push m).removed = q.removed := rfl
@[simp] lemma push_qbytes (q : MsgQueue) (m : Msg) : (q.push m).qbytes = q.qbytes := rfl
@[simp] lemma rmid_msgs (q : MsgQueue) : q.rmid.msgs = [] := rfl
@[simp] lemma rmid_removed (q : MsgQueue) : q.rmid.removed = true := rfl
@[simp] lemma rmid_qbytes (q : MsgQueue) : q.rmid.qbytes = q.qbytes := rfl

variable {q rest : MsgQueue} {m : Msg} {msgsz : ℕ} {gone e : Errno}

lemma msgrcv_message (h : q.msgrcv msgsz gone = .message m rest) :
    q.removed = false ∧ q.msgs = m :: rest.msgs ∧ m.text.length ≤ msgsz ∧
      rest.removed = false ∧ rest.qbytes = q.qbytes := by
  rw [msgrcv] at h
  cases hr : q.removed with
  | true => simp [hr] at h
  | false =>
    cases hm : q.msgs with
    | nil => simp [hr, hm] at h
    | cons x xs =>
      by_cases hx : x.text.length ≤ msgsz
      · simp only [hr, hm, hx, Bool.false_eq_true, if_false, if_true, Received.message.injEq] at h
        obtain ⟨rfl, rfl⟩ := h
        exact ⟨rfl, rfl, hx, rfl, rfl⟩
      · simp [hr, hm, hx] at h

lemma msgrcv_blocked : q.msgrcv msgsz gone = .blocked ↔ q.removed = false ∧ q.msgs = [] := by
  rw [msgrcv]
  cases q.removed with
  | true => simp
  | false =>
    cases q.msgs with
    | nil => simp
    | cons x xs => by_cases hx : x.text.length ≤ msgsz <;> simp [hx]

lemma msgrcv_error (h : q.msgrcv msgsz gone = .error e) :
    q.removed = true ∧ e = gone ∨
      q.removed = false ∧ e = .E2BIG ∧ ∃ m ∈ q.msgs, msgsz < m.text.length := by
  rw [msgrcv] at h
  cases hr : q.removed with
  | true =>
    simp only [hr, if_true, Received.error.injEq] at h
    exact .inl ⟨rfl, h.symm⟩
  | false =>
    cases hm : q.msgs with
    | nil => simp [hr, hm] at h
    | cons x xs =>
      by_cases hx : x.text.length ≤ msgsz
      · simp [hr, hm, hx] at h
      · simp only [hr, hm, hx, Bool.false_eq_true, if_false, Received.error.injEq] at h
        exact .inr ⟨rfl, h.symm, x, by simp, by omega⟩

lemma fits_of_empty (hq : q.msgs = []) (hm : m.text.length ≤ q.qbytes) : q.fits m = true := by
  simpa [fits, cbytes, hq] using hm

end MsgQueue

end ApueCode.Posix
