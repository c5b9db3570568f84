import Mathlib.Data.Finset.Insert
import Mathlib.Tactic

/-! Signals of one process: those pending, the mask, and the handlers stacked over the main program. -/

namespace ApueCode.Posix

inductive Signo
  | SIGQUIT | SIGALRM | SIGUSR1 | SIGUSR2 | other (n : ℕ)
  deriving DecidableEq

abbrev Mask := Finset Signo

inductive Discipline
  | single | queued
  deriving DecidableEq

abbrev Pending := Signo → ℕ

namespace Pending

variable (p : Pending) (x y : Signo)

def post (d : Discipline) : Pending :=
  Function.update p x (match d with
    | .single => 1
    | .queued => p x + 1)

def take : Pending := Function.update p x (p x - 1)

variable {p x y}

lemma post_pos (d : Discipline) : 0 < p.post x d x := by
  cases d <;> simp [post]

lemma post_other (d : Discipline) (h : y ≠ x) : p.post x d y = p y := by
  simp [post, h]

lemma post_queued : p.post x .queued x = p x + 1 := by
  simp [post]

lemma post_single_le (h : p y ≤ 1) : p.post x .single y ≤ 1 := by
  by_cases hy : y = x
  · simp [post, hy]
  · simpa [post, hy] using h

lemma post_le (d : Discipline) : p.post x d x ≤ p x + 1 := by
  cases d <;> simp [post]

lemma take_self : p.take x x = p x - 1 := by
  simp [take]

lemma take_other (h : y ≠ x) : p.take x y = p y := by
  simp [take, h]

lemma take_le : p.take x y ≤ p y := by
  by_cases hy : y = x
  · simp [take, hy]
  · simp [take, hy]

end Pending

structure Frame (κ : Type) where
  pc : κ
  saved : Mask

structure Context (κ : Type) where
  mask : Mask
  frames : List (Frame κ)

namespace Context

variable {κ : Type} (c : Context κ) (pc : κ) (x : Signo) (m : Mask)

def enter : Context κ := ⟨insert x c.mask, ⟨pc, c.mask⟩ :: c.frames⟩

def leave : Context κ :=
  match c.frames with
  | [] => c
  | f :: fs => ⟨f.saved, fs⟩

def goto : Context κ := { c with frames := c.frames.modifyHead fun f => { f with pc := pc } }

def setMask : Context κ := { c with mask := m }

variable {c pc x m} {f : Frame κ} {fs : List (Frame κ)}

@[simp] lemma enter_frames : (c.enter pc x).frames = ⟨pc, c.mask⟩ :: c.frames := rfl
@[simp] lemma setMask_frames : (c.setMask m).frames = c.frames := rfl

lemma goto_frames (h : c.frames = f :: fs) : (c.goto pc).frames = ⟨pc, f.saved⟩ :: fs := by
  simp [goto, h]

lemma leave_frames (h : c.frames = f :: fs) : c.leave.frames = fs := by
  simp [leave, h]

end Context

def Stacked {κ : Type} (ok : κ → Prop) (base : Mask) : Mask → List (Frame κ) → Prop
  | m, [] => m = base
  | _, f :: fs => ok f.pc ∧ Stacked ok base f.saved fs

namespace Stacked

variable {κ : Type} {ok : κ → Prop} {base m m' : Mask} {pc : κ} {f : Frame κ} {fs : List (Frame κ)}

lemma enter (h : Stacked ok base m fs) (hpc : ok pc) : Stacked ok base m' (⟨pc, m⟩ :: fs) := ⟨hpc, h⟩

lemma leave (h : Stacked ok base m (f :: fs)) : Stacked ok base f.saved fs := h.2

lemma goto (h : Stacked ok base m (f :: fs)) (hpc : ok pc) : Stacked ok base m (⟨pc, f.saved⟩ :: fs) :=
  ⟨hpc, h.2⟩

lemma forall_ok (h : Stacked ok base m fs) : ∀ f ∈ fs, ok f.pc := by
  induction fs generalizing m with
  | nil => simp
  | cons f fs ih =>
    intro g hg
    rcases List.mem_cons.mp hg with rfl | hg
    · exact h.1
    · exact ih h.2 g hg

end Stacked

end ApueCode.Posix
