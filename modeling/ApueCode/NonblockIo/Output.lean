import ApueCode.NonblockIo.Model
import ApueCode.Transition.Relay

/-! Nothing is lost and nothing is written twice, whatever the calls of `write` return. -/

namespace ApueCode.NonblockIo

open Posix Transition Machine

variable {s t : State} {a : Action} {as : List Action} {data : List Byte} {input : Option (List Byte)} {r : Nwrite}

structure Sent (data : List Byte) (s : State) : Prop where
  nonneg : 0 ≤ s.ntowrite
  bound : s.ptr + s.ntowrite = data.length
  whole : s.stdout ++ (s.buf.bytes.drop s.ptr).take s.ntowrite.toNat = data

def Inv (input : Option (List Byte)) (s : State) : Prop :=
  match input with
  | some data => Sent data s ∧ (s.pc = .fcntl → s.ptr = 0) ∧ (s.pc = .exited 0 → s.ntowrite = 0)
  | none => s.ntowrite < 0 ∧ s.stdout = [] ∧ s.pc ≠ .write

lemma afterWrite_spec (s : State) (r : Nwrite) :
    (afterWrite s r).ptr = s.ptr + r.accepted ∧ (afterWrite s r).ntowrite = s.ntowrite - r.accepted ∧
    (afterWrite s r).buf = s.buf ∧ (afterWrite s r).pc = .test ∧
    (afterWrite s r).stdout = s.stdout ++ (s.buf.bytes.drop s.ptr).take r.accepted := by
  cases r with
  | error e => simp [afterWrite, State.print, Nwrite.value, Nwrite.accepted]
  | count n =>
    by_cases hn : n = 0
    · simp [afterWrite, State.print, Nwrite.value, Nwrite.accepted, hn]
    · simp [afterWrite, State.print, Nwrite.value, Nwrite.accepted, Nat.pos_of_ne_zero hn]

def State.relay (s : State) : Relay Byte := ⟨s.stdout, (s.buf.bytes.drop s.ptr).take s.ntowrite.toNat, []⟩

lemma whole_relay (s : State) : s.relay.whole = s.stdout ++ (s.buf.bytes.drop s.ptr).take s.ntowrite.toNat :=
  List.append_nil _

lemma relay_afterWrite (hr : r.accepted ≤ s.ntowrite) : (afterWrite s r).relay = s.relay.pass r.accepted := by
  obtain ⟨hp, hn, hb, -, ho⟩ := afterWrite_spec s r
  have hle : r.accepted ≤ s.ntowrite.toNat := by omega
  have hleft : (s.ntowrite - r.accepted).toNat = s.ntowrite.toNat - r.accepted := by omega
  rw [State.relay, State.relay, Relay.pass, ho, hb, hp, hn, hleft, List.take_take, Nat.min_eq_left hle,
    List.drop_take, List.drop_drop]

lemma sent_write (h : Sent data s) (hr : r.accepted ≤ s.ntowrite) : Sent data (afterWrite s r) := by
  obtain ⟨hp, hn, -, -, -⟩ := afterWrite_spec s r
  have hbound := h.bound
  refine ⟨by omega, by omega, ?_⟩
  rw [← whole_relay, relay_afterWrite hr, Relay.whole_pass, whole_relay, h.whole]

lemma inv_fcntl (h : Inv input s) (hp : s.pc = .fcntl) {ok : Bool} (hs : step s (.fcntl ok) = some t) :
    Inv input t := by
  cases ok with
  | true =>
    simp only [step, hp, Option.some.injEq] at hs
    subst hs
    cases input with
    | none => exact ⟨h.1, h.2.1, by simp⟩
    | some data =>
      obtain ⟨hsent, hz, -⟩ := h
      exact ⟨{ hsent with bound := hz hp ▸ hsent.bound, whole := hz hp ▸ hsent.whole }, by simp, by simp⟩
  | false =>
    simp only [step, hp, Option.some.injEq] at hs
    subst hs
    cases input with
    | none => exact ⟨h.1, h.2.1, by simp⟩
    | some data => exact ⟨{ h.1 with }, by simp, by simp [EXIT_FAILURE]⟩

lemma inv_test (h : Inv input s) (hp : s.pc = .test) (hs : step s .test = some t) : Inv input t := by
  simp only [step, hp, Option.some.injEq] at hs
  subst hs
  cases input with
  | none =>
    have hn : ¬ 0 < s.ntowrite := not_lt.mpr h.1.le
    exact ⟨h.1, h.2.1, by simp [hn]⟩
  | some data =>
    have hnonneg := h.1.nonneg
    by_cases hn : 0 < s.ntowrite
    · exact ⟨{ h.1 with }, by simp [hn], by simp [hn]⟩
    · exact ⟨{ h.1 with }, by simp [hn], fun _ => le_antisymm (not_lt.mp hn) hnonneg⟩

lemma inv_write (h : Inv input s) (hp : s.pc = .write) (hs : step s (.write r) = some t) : Inv input t := by
  simp only [step, hp, Option.ite_none_right_eq_some, Option.some.injEq] at hs
  obtain ⟨hr, rfl⟩ := hs
  cases input with
  | none => exact (h.2.2 hp).elim
  | some data =>
    have hpc : (afterWrite s r).pc = .test := (afterWrite_spec s r).2.2.2.1
    exact ⟨sent_write h.1 hr, by simp [hpc], by simp [hpc]⟩

lemma inv_stable : machine.Stable (fun _ _ => True) (fun s => s.pc ≠ .read ∧ Inv input s) := by
  rintro s a t ⟨hr, h⟩ - hs
  cases hp : s.pc with
  | read => exact (hr hp).elim
  | exited status => cases a <;> simp [machine, step, hp] at hs
  | fcntl =>
    cases a with
    | fcntl ok =>
      have hi := inv_fcntl h hp hs
      cases ok <;> simp only [machine, step, hp, Option.some.injEq] at hs <;> subst hs <;> exact ⟨by simp, hi⟩
    | _ => simp [machine, step, hp] at hs
  | test =>
    cases a with
    | test =>
      have hi := inv_test h hp hs
      simp only [machine, step, hp, Option.some.injEq] at hs
      subst hs
      refine ⟨?_, hi⟩
      simp only
      split <;> simp
    | _ => simp [machine, step, hp] at hs
  | write =>
    cases a with
    | write r =>
      have hi := inv_write h hp hs
      simp only [machine, step, hp, Option.ite_none_right_eq_some, Option.some.injEq] at hs
      obtain ⟨-, rfl⟩ := hs
      exact ⟨by simp [(afterWrite_spec s r).2.2.2.1], hi⟩
    | _ => simp [machine, step, hp] at hs

lemma inv_read (hs : machine.step start (.read input) = some t) :
    t.pc ≠ .read ∧ Inv input t ∧ ∀ data, input = some data → data.length ≤ sizeofBuf := by
  cases input with
  | none =>
    simp only [machine, step, start, readInput, Option.some.injEq] at hs
    subst hs
    exact ⟨by simp [State.print], ⟨by simp [State.print], rfl, by simp [State.print]⟩, by simp⟩
  | some data =>
    simp only [machine, step, start, readInput, Option.map_eq_some_iff] at hs
    obtain ⟨buf, hb, rfl⟩ := hs
    have hl : data.length ≤ sizeofBuf := by
      by_contra hn
      simp [Buffer.write, hn] at hb
    obtain ⟨c, hc, hbytes⟩ := Buffer.write_isSome (Buffer.zero sizeofBuf) hl
    obtain rfl : c = buf := Option.some.inj (hc.symm.trans hb)
    refine ⟨by simp [State.print], ⟨⟨by simp [State.print], by simp [State.print], ?_⟩, fun _ => rfl, ?_⟩, ?_⟩
    · simp [State.print, hbytes]
    · simp [State.print]
    · rintro _ ⟨⟩
      exact hl

/-- At every point of every run: nothing outside the bytes read is named, what is out and what is still to
go make up what was read, and the loop ends with all of it out. A failed `read` is not followed by a write. -/
theorem output_exact (he : machine.exec start (.read input :: as) = some s) :
    (∀ data, input = some data → data.length ≤ sizeofBuf ∧ Sent data s ∧ (s.pc = .exited 0 → s.stdout = data)) ∧
      (input = none → s.stdout = [] ∧ s.pc ≠ .write) := by
  obtain ⟨u, hu, hr⟩ := exec_cons_iff.mp he
  obtain ⟨hpc, hi, hl⟩ := inv_read hu
  obtain ⟨-, h⟩ := inv_stable.run hr ⟨hpc, hi⟩
  refine ⟨?_, ?_⟩
  · rintro data rfl
    refine ⟨hl data rfl, h.1, fun hp => ?_⟩
    have hw := h.1.whole
    rw [h.2.2 hp] at hw
    simpa using hw
  · rintro rfl
    exact h.2

theorem output_exact_partial : ∃ s, machine.exec start [.read (some [104, 105]), .fcntl true, .test, .write (.count 1),
    .test, .write (.error EAGAIN), .test, .write (.count 1), .test] = some s ∧ s.stdout = [104, 105] := by
  have hd : (machine.exec start [.read (some [104, 105]), .fcntl true, .test, .write (.count 1),
      .test, .write (.error EAGAIN), .test, .write (.count 1), .test]).map (fun s => s.pc) = some (.exited 0) := by
    decide +kernel
  obtain ⟨s, hs, hp⟩ := Option.map_eq_some_iff.mp hd
  exact ⟨s, hs, ((output_exact hs).1 _ rfl).2.2 hp⟩

end ApueCode.NonblockIo
