import ApueCode.Posix.Printf

/-! What became of a child, the status word that tells its parent, and the macros that take the word apart. -/

namespace ApueCode.Posix

abbrev TermSig := {n : BitVec 7 // n ≠ 0 ∧ n ≠ 0x7f}

inductive Termination
  | exited (status : BitVec 8)
  | signaled (signo : TermSig) (core : Bool)
  | stopped (signo : BitVec 8)
  deriving DecidableEq

abbrev Status := BitVec 32

namespace Status

variable (s t : Status)

def WTERMSIG : Status := s &&& 0x7f

def WEXITSTATUS : Status := (s &&& 0xff00) >>> 8

def WSTOPSIG : Status := WEXITSTATUS s

def WIFEXITED : Bool := WTERMSIG s = 0

def WIFSIGNALED : Bool := (0 : BitVec 8).slt ((((s &&& 0x7f) + 1).setWidth 8).sshiftRight 1)

def WIFSTOPPED : Bool := s &&& 0xff = 0x7f

def WCOREDUMP : Bool := s &&& 0x80 ≠ 0

def encode : Termination → Status
  | .exited status => status.setWidth 32 <<< 8
  | .signaled signo core => signo.1.setWidth 32 ||| if core then 0x80 else 0
  | .stopped signo => signo.setWidth 32 <<< 8 ||| 0x7f

def decode : Option Termination :=
  if hz : BitVec.ofNat 7 s.toNat = 0 then some (.exited (BitVec.ofNat 8 (s.toNat / 256)))
  else if hs : BitVec.ofNat 7 s.toNat = 0x7f then
    if s.toNat % 256 = 127 then some (.stopped (BitVec.ofNat 8 (s.toNat / 256))) else none
  else some (.signaled ⟨BitVec.ofNat 7 s.toNat, hz, hs⟩ (s.toNat / 128 % 2 = 1))

variable {s t}

lemma toNat_WTERMSIG : (WTERMSIG s).toNat = s.toNat % 128 := by
  rw [WTERMSIG, BitVec.toNat_and]
  exact Nat.and_two_pow_sub_one_eq_mod s.toNat 7

lemma toNat_low : (s &&& 0xff).toNat = s.toNat % 256 := by
  rw [BitVec.toNat_and]
  exact Nat.and_two_pow_sub_one_eq_mod s.toNat 8

lemma toNat_WEXITSTATUS : (WEXITSTATUS s).toNat = s.toNat / 256 % 256 := by
  rw [WEXITSTATUS, BitVec.toNat_ushiftRight, BitVec.toNat_and, Nat.shiftRight_and_distrib, Nat.shiftRight_eq_div_pow]
  exact Nat.and_two_pow_sub_one_eq_mod (s.toNat / 256) 8

lemma WIFEXITED_iff : WIFEXITED s = true ↔ s.toNat % 128 = 0 := by
  rw [WIFEXITED, decide_eq_true_eq, ← BitVec.toNat_inj, toNat_WTERMSIG]
  rfl

lemma WIFSTOPPED_iff : WIFSTOPPED s = true ↔ s.toNat % 256 = 127 := by
  rw [WIFSTOPPED, decide_eq_true_eq, ← BitVec.toNat_inj, toNat_low]
  rfl

lemma WCOREDUMP_iff : WCOREDUMP s = true ↔ s.toNat / 128 % 2 = 1 := by
  have hbit : s &&& 0x80 = if s.getLsbD 7 then BitVec.twoPow 32 7 else 0 := BitVec.and_twoPow s 7
  have hget : s.getLsbD 7 = decide (s.toNat / 128 % 2 = 1) := Nat.testBit_eq_decide_div_mod_eq
  rw [WCOREDUMP, decide_eq_true_eq, hbit, hget]
  by_cases h : s.toNat / 128 % 2 = 1
  · simp [h]
    decide
  · simp [h]

lemma WIFSIGNALED_iff : WIFSIGNALED s = true ↔ s.toNat % 128 ≠ 0 ∧ s.toNat % 128 ≠ 127 := by
  have hsmall : ∀ k < 128, (0 : BitVec 8).slt ((BitVec.ofNat 8 (k + 1)).sshiftRight 1) = true ↔ k ≠ 0 ∧ k ≠ 127 := by
    decide
  have hcut : ((s &&& 0x7f) + 1).setWidth 8 = BitVec.ofNat 8 (s.toNat % 128 + 1) := by
    apply BitVec.eq_of_toNat_eq
    rw [BitVec.toNat_setWidth, BitVec.toNat_add, ← WTERMSIG, toNat_WTERMSIG, BitVec.toNat_ofNat,
      show (1 : BitVec 32).toNat = 1 from rfl]
    omega
  rw [WIFSIGNALED, hcut]
  exact hsmall _ (Nat.mod_lt _ (by decide))

lemma ofNat_seven_eq_zero : BitVec.ofNat 7 s.toNat = 0 ↔ s.toNat % 128 = 0 := by
  rw [← BitVec.toNat_inj]
  rfl

lemma ofNat_seven_eq_127 : BitVec.ofNat 7 s.toNat = 0x7f ↔ s.toNat % 128 = 127 := by
  rw [← BitVec.toNat_inj]
  rfl

theorem decode_encode (e : Termination) : decode (encode e) = some e := by
  cases e with
  | exited status => exact (show ∀ n : BitVec 8, decode (encode (.exited n)) = some (.exited n) by decide +kernel) status
  | stopped signo => exact (show ∀ n : BitVec 8, decode (encode (.stopped n)) = some (.stopped n) by decide +kernel) signo
  | signaled signo core =>
    obtain ⟨n, hn⟩ := signo
    exact (show ∀ (n : BitVec 7) (hn : n ≠ 0 ∧ n ≠ 0x7f) (core : Bool),
      decode (encode (.signaled ⟨n, hn⟩ core)) = some (.signaled ⟨n, hn⟩ core) by decide +kernel) n hn core

lemma decode_eq_none : decode s = none ↔ s.toNat % 256 = 255 := by
  have hz := ofNat_seven_eq_zero (s := s)
  have hs := ofNat_seven_eq_127 (s := s)
  unfold decode
  split
  · next h =>
    have := hz.mp h
    simp
    omega
  · next h =>
    have := mt hz.mpr h
    split
    · next h' =>
      have := hs.mp h'
      simp
      omega
    · next h' =>
      have := mt hs.mpr h'
      simp
      omega

end Status

end ApueCode.Posix
