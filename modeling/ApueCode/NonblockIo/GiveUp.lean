import ApueCode.NonblockIo.Output

/-! When the loop ends although `write` has begun to fail for good. -/

namespace ApueCode.NonblockIo

open Posix Transition Machine Finset

variable {s t : State} {data : List Byte} {w : ℕ → Nwrite} {n k K : ℕ}

def total (w : ℕ → Nwrite) (k : ℕ) : ℕ := ∑ i ∈ range k, (w i).accepted

def Valid (w : ℕ → Nwrite) (n : ℕ) : Prop := ∀ i, total w i < n → total w i + (w i).accepted ≤ n

def Permanent (w : ℕ → Nwrite) (K : ℕ) : Prop :=
  ∃ e, e ≠ EAGAIN ∧ e ≠ EINTR ∧ ∀ i, K ≤ i → w i = .error e

def iterations (w : ℕ → Nwrite) : ℕ → List Action := rounds fun i => [.test, .write (w i)]

def Ends (w : ℕ → Nwrite) (data : List Byte) : Prop :=
  ∃ k s, machine.exec start ([.read (some data), .fcntl true] ++ iterations w k ++ [.test]) = some s ∧ s.pc = .exited 0

lemma iterations_succ (w : ℕ → Nwrite) (k : ℕ) : iterations w (k + 1) = iterations w k ++ [.test, .write (w k)] :=
  rounds_succ ..

lemma total_succ (w : ℕ → Nwrite) (k : ℕ) : total w (k + 1) = total w k + (w k).accepted := sum_range_succ ..

lemma total_mono (w : ℕ → Nwrite) : Monotone (total w) :=
  monotone_nat_of_le_succ fun k => by rw [total_succ]; exact Nat.le_add_right _ _

lemma total_permanent (h : Permanent w K) (hk : K ≤ k) : total w k = total w K := by
  obtain ⟨e, -, -, he⟩ := h
  induction k, hk using Nat.le_induction with
  | base => rfl
  | succ k hk ih => rw [total_succ, ih, he k hk, Nwrite.accepted, add_zero]

lemma exec_iteration (hp : s.pc = .test) (r : Nwrite) : machine.exec s [.test, .write r] =
    if 0 < s.ntowrite ∧ r.accepted ≤ s.ntowrite then some (afterWrite { s with pc := .write } r) else none := by
  by_cases hn : 0 < s.ntowrite
  · by_cases hr : r.accepted ≤ s.ntowrite <;> simp [machine, step, hp, hn, hr]
  · simp [machine, step, hp, hn]

lemma of_exec_iterations (hp : s.pc = .test) (he : machine.exec s (iterations w k) = some t) :
    t.pc = .test ∧ t.ntowrite = s.ntowrite - total w k := by
  induction k generalizing t with
  | zero =>
    obtain rfl : s = t := Option.some.inj he
    exact ⟨hp, by simp [total]⟩
  | succ k ih =>
    rw [iterations_succ, exec_append, Option.bind_eq_some_iff] at he
    obtain ⟨u, hu, he⟩ := he
    obtain ⟨hpc, hn⟩ := ih hu
    rw [exec_iteration hpc, Option.ite_none_right_eq_some, Option.some.injEq] at he
    obtain ⟨-, rfl⟩ := he
    obtain ⟨-, hw, -, hpc', -⟩ := afterWrite_spec { u with pc := .write } (w k)
    refine ⟨hpc', ?_⟩
    rw [hw, total_succ, Nat.cast_add, ← sub_sub, ← hn]

lemma exists_exec_iterations (hv : Valid w n) (hp : s.pc = .test) (hn : s.ntowrite = n)
    (hk : ∀ i < k, total w i < n) : ∃ t, machine.exec s (iterations w k) = some t := by
  induction k with
  | zero => exact ⟨s, rfl⟩
  | succ k ih =>
    obtain ⟨t, ht⟩ := ih fun i hi => hk i (Nat.lt_succ_of_lt hi)
    obtain ⟨hpc, hle⟩ := of_exec_iterations hp ht
    have hlt := hk k (Nat.lt_succ_self k)
    have hacc := hv k hlt
    refine ⟨afterWrite { t with pc := .write } (w k), ?_⟩
    rw [iterations_succ, exec_append, ht, Option.bind_some, exec_iteration hpc, if_pos]
    omega

lemma exec_input (hl : data.length ≤ sizeofBuf) : ∃ s, machine.exec start [.read (some data), .fcntl true] = some s ∧
    s.pc = .test ∧ s.ntowrite = data.length := by
  obtain ⟨c, hc, -⟩ := Buffer.write_isSome (Buffer.zero sizeofBuf) hl
  simp only [machine, exec_cons, exec_nil, step, start, readInput, hc, Option.map_some, Option.bind_some, State.print]
  exact ⟨_, rfl, rfl, rfl⟩

lemma total_of_ends (h : Ends w data) : ∃ k, total w k = data.length := by
  obtain ⟨k, t, he, hp⟩ := h
  rw [List.append_assoc, exec_append, Option.bind_eq_some_iff] at he
  obtain ⟨s, hs, hr⟩ := he
  obtain ⟨v, hv, hf⟩ := exec_cons_iff.mp hs
  obtain ⟨hpv, hiv, hl⟩ := inv_read hv
  have hz : t.ntowrite = 0 := (inv_stable.run hr (inv_stable.run hf ⟨hpv, hiv⟩)).2.2.2 hp
  obtain ⟨s', hs', hpc, hn⟩ := exec_input (hl data rfl)
  obtain rfl : s' = s := Option.some.inj (hs'.symm.trans hs)
  rw [exec_append, Option.bind_eq_some_iff] at hr
  obtain ⟨u, hu, hlast⟩ := hr
  obtain ⟨hpu, hnu⟩ := of_exec_iterations hpc hu
  have hlast' : t.ntowrite = u.ntowrite := by
    simp only [machine, exec_cons, exec_nil, step, hpu, Option.bind_some, Option.some.injEq] at hlast
    rw [← hlast]
  exact ⟨k, by omega⟩

lemma ends_of_total (hl : data.length ≤ sizeofBuf) (hv : Valid w data.length) (hk : total w k = data.length) :
    Ends w data := by
  obtain ⟨k, hk, hmin⟩ : ∃ k, total w k = data.length ∧ ∀ i < k, total w i < data.length := by
    have hex : ∃ k, total w k = data.length := ⟨k, hk⟩
    refine ⟨Nat.find hex, Nat.find_spec hex, fun i hi => ?_⟩
    have hle := total_mono w hi.le
    rw [Nat.find_spec hex] at hle
    exact lt_of_le_of_ne hle (Nat.find_min hex hi)
  obtain ⟨s, hs, hpc, hn⟩ := exec_input hl
  obtain ⟨t, ht⟩ := exists_exec_iterations hv hpc hn hmin
  obtain ⟨hpt, hnt⟩ := of_exec_iterations hpc ht
  have hz : ¬ 0 < t.ntowrite := by omega
  have hlast : machine.exec t [.test] = some { t with pc := .exited 0 } := by simp [machine, step, hpt, hz]
  refine ⟨k, { t with pc := .exited 0 }, ?_, rfl⟩
  rw [List.append_assoc, exec_append, hs, Option.bind_some, exec_append, ht, Option.bind_some, hlast]

/-- Against a permanent error the loop ends only if all the bytes are out before it. -/
theorem ends_iff (hl : data.length ≤ sizeofBuf) (hv : Valid w data.length) (hp : Permanent w K) :
    Ends w data ↔ ∃ k ≤ K, total w k = data.length := by
  constructor
  · intro h
    obtain ⟨k, hk⟩ := total_of_ends h
    rcases le_total k K with hle | hle
    · exact ⟨k, hle, hk⟩
    · exact ⟨K, le_rfl, (total_permanent hp hle).symm.trans hk⟩
  · rintro ⟨k, -, hk⟩
    exact ends_of_total hl hv hk

def untilFull (i : ℕ) : Nwrite := if i = 0 then .count 2 else .error ENOSPC

theorem ends_iff_untilFull : Ends untilFull [104, 105] := by
  have hp : Permanent untilFull 1 :=
    ⟨ENOSPC, by decide, by decide, fun i hi => if_neg (Nat.one_le_iff_ne_zero.mp hi)⟩
  have hone : total untilFull 1 = 2 := by decide
  refine (ends_iff (K := 1) (by decide) (fun i hi => ?_) hp).mpr ⟨1, le_rfl, hone⟩
  cases i with
  | zero => decide
  | succ i =>
    rw [total_permanent hp (Nat.succ_le_succ (Nat.zero_le i)), hone] at hi
    exact absurd hi (by decide)

theorem never_gives_up : ¬ ∀ (data : List Byte) (w : ℕ → Nwrite) (K : ℕ), data ≠ [] → data.length ≤ sizeofBuf →
    Valid w data.length → Permanent w K → Ends w data := by
  intro h
  have hp : Permanent (fun _ => .error ENOSPC) 0 := ⟨ENOSPC, by decide, by decide, fun _ _ => rfl⟩
  have hz : ∀ k, total (fun _ => .error ENOSPC) k = 0 := fun k => total_permanent hp (Nat.zero_le k)
  obtain ⟨k, hk⟩ := total_of_ends (h [104] _ 0 (by simp) (by decide) (fun i _ => by simp [hz, Nwrite.accepted]) hp)
  simp [hz] at hk

end ApueCode.NonblockIo
