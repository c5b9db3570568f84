import Mathlib.Data.List.Count
import Mathlib.Data.List.TakeDrop
import Mathlib.Tactic

/-! Standard output of a process that forks: each child starts with a copy of what its parent has not yet
written. -/

namespace ApueCode.Posix

inductive Buffering
  | line | full
  deriving DecidableEq

structure Stdout (β : Type) where
  file : List β
  buffer : List β
  children : List (List β)

namespace Stdout

variable {β : Type} (o : Stdout β)

def empty : Stdout β := ⟨[], [], []⟩

def print (b : Buffering) (x : β) : Stdout β :=
  match b with
  | .line => { o with file := o.file ++ [x] }
  | .full => { o with buffer := o.buffer ++ [x] }

def fork : Stdout β := { o with children := o.children ++ [o.buffer] }

def exit : Stdout β := { o with file := o.file ++ o.buffer, buffer := [] }

def childExit (i : ℕ) : Stdout β :=
  { o with file := o.file ++ o.children.getD i [], children := o.children.eraseIdx i }

def childDrop (i : ℕ) : Stdout β := { o with children := o.children.eraseIdx i }

structure Split (o : Stdout β) (printed : List β) (ended live : List ℕ) : Prop where
  file : o.file = ended.flatMap printed.take
  children : o.children = live.map printed.take
  le : ∀ k ∈ ended ++ live, k ≤ printed.length

structure Alone (o : Stdout β) (b : Buffering) (printed : List β) : Prop where
  lines : o.file ++ o.buffer = printed
  direct : b = .line → o.buffer = []

variable {o} {b : Buffering} {printed : List β} {ended live : List ℕ} {x : β} {i : ℕ}

lemma Alone.empty : Alone (empty : Stdout β) b [] := ⟨rfl, fun _ => rfl⟩

lemma Alone.print (h : Alone o b printed) : Alone (o.print b x) b (printed ++ [x]) := by
  cases b with
  | line =>
    have hb := h.direct rfl
    have hl := h.lines
    rw [hb, List.append_nil] at hl
    exact ⟨by simp [Stdout.print, hb, hl], fun _ => hb⟩
  | full => exact ⟨by simp [Stdout.print, ← h.lines], nofun⟩

lemma Alone.fork (h : Alone o b printed) : Alone o.fork b printed := ⟨h.lines, h.direct⟩

lemma Alone.childDrop (h : Alone o b printed) : Alone (o.childDrop i) b printed := ⟨h.lines, h.direct⟩

lemma Alone.exit (h : Alone o b printed) : o.exit.file = printed := h.lines

lemma Split.empty : Split (empty : Stdout β) [] [] [] := ⟨rfl, rfl, by simp⟩

lemma Split.print (h : Split o printed ended live) :
    Split (o.print .full x) (printed ++ [x]) ended live where
  file := by
    rw [Stdout.print, h.file]
    exact List.flatMap_congr fun k hk => (List.take_append_of_le_length (h.le k (List.mem_append_left _ hk))).symm
  children := by
    rw [Stdout.print, h.children]
    exact List.map_congr_left fun k hk => (List.take_append_of_le_length (h.le k (List.mem_append_right _ hk))).symm
  le k hk := (h.le k hk).trans (by simp)

lemma Split.fork (h : Split o printed ended live) (hb : o.buffer = printed) :
    Split o.fork printed ended (live ++ [printed.length]) where
  file := h.file
  children := by simp [Stdout.fork, h.children, hb]
  le k hk := by
    simp only [List.mem_append, List.mem_singleton, ← or_assoc] at hk
    rcases hk with hk | rfl
    · exact h.le k (List.mem_append.mpr hk)
    · rfl

lemma Split.exit (h : Split o printed ended live) (hb : o.buffer = printed) :
    Split o.exit printed (ended ++ [printed.length]) live where
  file := by simp [Stdout.exit, h.file, hb]
  children := h.children
  le k hk := by
    rcases List.mem_append.mp hk with hk | hk
    · rcases List.mem_append.mp hk with hk | hk
      · exact h.le k (List.mem_append_left _ hk)
      · exact (List.mem_singleton.mp hk).le
    · exact h.le k (List.mem_append_right _ hk)

lemma Split.childDrop (h : Split o printed ended live) :
    Split (o.childDrop i) printed ended (live.eraseIdx i) where
  file := h.file
  children := by simp [Stdout.childDrop, h.children, List.eraseIdx_map]
  le k hk := by
    rcases List.mem_append.mp hk with hk | hk
    · exact h.le k (List.mem_append_left _ hk)
    · exact h.le k (List.mem_append_right _ (List.mem_of_mem_eraseIdx hk))

lemma Split.childExit (h : Split o printed ended live) (hi : i < live.length) :
    Split (o.childExit i) printed (ended ++ [live[i]]) (live.eraseIdx i) where
  file := by simp [Stdout.childExit, h.file, h.children, hi]
  children := (h.childDrop (i := i)).children
  le k hk := by
    rw [List.append_assoc, List.mem_append] at hk
    rcases hk with hk | hk
    · exact h.le k (List.mem_append_left _ hk)
    · refine h.le k (List.mem_append_right _ ?_)
      rcases List.mem_append.mp hk with hk | hk
      · exact List.mem_singleton.mp hk ▸ List.getElem_mem hi
      · exact List.mem_of_mem_eraseIdx hk

lemma count_take [DecidableEq β] (hn : printed.Nodup) {k n : ℕ} (hk : k < printed.length) :
    (printed.take n).count printed[k] = if k < n then 1 else 0 := by
  split
  · apply List.count_eq_one_of_mem (hn.sublist (List.take_sublist n printed))
    rw [List.mem_take_iff_getElem]
    exact ⟨k, by omega, rfl⟩
  · apply List.count_eq_zero_of_not_mem
    intro hm
    obtain ⟨j, hj, he⟩ := List.mem_take_iff_getElem.mp hm
    have := (hn.getElem_inj_iff).mp he
    omega

lemma Split.count [DecidableEq β] (h : Split o printed ended live) (hn : printed.Nodup) {k : ℕ}
    (hk : k < printed.length) : o.file.count printed[k] = ended.countP (k < ·) := by
  rw [h.file]
  clear h
  induction ended with
  | nil => rfl
  | cons n ns ih =>
    rw [List.flatMap_cons, List.count_append, ih, count_take hn hk, List.countP_cons, add_comm]
    simp

end Stdout

end ApueCode.Posix
