import Mathlib.Tactic

/-! Character arrays of fixed size, the strings stored in them, and reading a stream by lines. `none` is a store
beyond the end of an array, or a string without a terminator. -/

namespace ApueCode.Posix

abbrev Byte := UInt8

def NUL : Byte := 0

def newline : Byte := 10

structure Buffer (n : ℕ) where
  bytes : List Byte
  size : bytes.length = n

namespace Buffer

variable {n : ℕ}

def write (b : Buffer n) (data : List Byte) : Option (Buffer n) :=
  if h : data.length ≤ n then some ⟨data ++ b.bytes.drop data.length, by simp [b.size]; omega⟩ else none

def zero (n : ℕ) : Buffer n := ⟨List.replicate n NUL, List.length_replicate⟩

lemma write_isSome (b : Buffer n) {data : List Byte} (h : data.length ≤ n) :
    ∃ c, b.write data = some c ∧ c.bytes = data ++ b.bytes.drop data.length := by
  simp [write, h]

end Buffer

def cstr : List Byte → Option (List Byte)
  | [] => none
  | c :: cs => if c = NUL then some [] else (cstr cs).map (c :: ·)

lemma cstr_terminated {text : List Byte} (h : NUL ∉ text) (rest : List Byte) :
    cstr (text ++ NUL :: rest) = some text := by
  induction text with
  | nil => simp [cstr]
  | cons c cs ih =>
    have hc : c ≠ NUL := fun hc => h (hc ▸ List.mem_cons_self)
    have ht := ih fun hm => h (List.mem_cons_of_mem c hm)
    simp [cstr, hc, ht]

lemma cstr_eq_some {bytes text : List Byte} :
    cstr bytes = some text ↔ NUL ∉ text ∧ ∃ rest, bytes = text ++ NUL :: rest := by
  constructor
  · intro h
    induction bytes generalizing text with
    | nil => simp [cstr] at h
    | cons c cs ih =>
      by_cases hc : c = NUL
      · simp only [cstr, hc, if_true, Option.some.injEq] at h
        subst h hc
        exact ⟨List.not_mem_nil, cs, rfl⟩
      · simp only [cstr, hc, if_false, Option.map_eq_some_iff] at h
        obtain ⟨t, ht, rfl⟩ := h
        obtain ⟨hn, rest, rfl⟩ := ih ht
        exact ⟨by simpa [hn] using Ne.symm hc, rest, rfl⟩
  · rintro ⟨hn, rest, rfl⟩
    exact cstr_terminated hn rest

lemma cstr_of_mem {bytes : List Byte} (h : NUL ∈ bytes) : ∃ text, cstr bytes = some text := by
  induction bytes with
  | nil => simp at h
  | cons c cs ih =>
    by_cases hc : c = NUL
    · exact ⟨[], by simp [cstr, hc]⟩
    · obtain ⟨text, ht⟩ := ih ((List.mem_cons.mp h).resolve_left (Ne.symm hc))
      exact ⟨c :: text, by simp [cstr, hc, ht]⟩

lemma cstr_take {bytes text : List Byte} (h : cstr bytes = some text) :
    bytes.take (text.length + 1) = text ++ [NUL] ∧ text.length + 1 ≤ bytes.length := by
  obtain ⟨-, rest, rfl⟩ := cstr_eq_some.mp h
  constructor
  · rw [List.take_append, List.take_of_length_le (by omega)]
    simp
  · simp

def takeLine : ℕ → List Byte → List Byte
  | 0, _ => []
  | _ + 1, [] => []
  | k + 1, c :: cs => if c = newline then [c] else c :: takeLine k cs

def fgets (n : ℕ) (stream : List Byte) : Option (List Byte × List Byte) :=
  if stream = [] then none
  else some (takeLine (n - 1) stream, stream.drop (takeLine (n - 1) stream).length)

lemma takeLine_length_le (k : ℕ) (stream : List Byte) : (takeLine k stream).length ≤ k := by
  induction k generalizing stream with
  | zero => simp [takeLine]
  | succ k ih =>
    cases stream with
    | nil => simp [takeLine]
    | cons c cs =>
      rw [takeLine]
      split
      · simp
      · simpa using ih cs

lemma takeLine_append_drop (k : ℕ) (stream : List Byte) :
    takeLine k stream ++ stream.drop (takeLine k stream).length = stream := by
  induction k generalizing stream with
  | zero => simp [takeLine]
  | succ k ih =>
    cases stream with
    | nil => simp [takeLine]
    | cons c cs =>
      rw [takeLine]
      split
      · simp
      · simp [ih cs]

lemma takeLine_ne_nil {k : ℕ} {stream : List Byte} (hk : 0 < k) (h : stream ≠ []) :
    takeLine k stream ≠ [] := by
  cases k with
  | zero => omega
  | succ k =>
    cases stream with
    | nil => exact (h rfl).elim
    | cons c cs =>
      rw [takeLine]
      split <;> simp

lemma fgets_split {n : ℕ} {stream line rest : List Byte} (hn : 2 ≤ n)
    (h : fgets n stream = some (line, rest)) :
    line ++ rest = stream ∧ line ≠ [] ∧ line.length + 1 ≤ n := by
  rw [fgets] at h
  split at h
  · cases h
  · rename_i hs
    obtain ⟨rfl, rfl⟩ := Prod.mk.inj (Option.some.inj h)
    have hl := takeLine_length_le (n - 1) stream
    exact ⟨takeLine_append_drop _ _, takeLine_ne_nil (by omega) hs, by omega⟩

@[simp] lemma fgets_eq_none {n : ℕ} {stream : List Byte} : fgets n stream = none ↔ stream = [] := by
  simp [fgets]

end ApueCode.Posix
