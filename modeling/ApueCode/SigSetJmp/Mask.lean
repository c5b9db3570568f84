import ApueCode.SigSetJmp.Jump

/-! The signal mask that `siglongjmp` leaves to main: the saved one, or that of the handler that jumped. -/

namespace ApueCode.SigSetJmp

open Posix Transition Machine

variable {option : ℕ} {inherited b m : Mask} {s t : State} {x : Signo} {a : Action}
variable {f : Frame HandlerPc} {fs : List (Frame HandlerPc)} {pc : HandlerPc}

def HandlerPc.signo : HandlerPc → Signo
  | .prAlrm | .ret => .SIGALRM
  | _ => .SIGUSR1

lemma mainStep_frame (hs : mainStep option s = some t) :
    s.main.hasEnded = false ∧ t.ctx.mask = s.ctx.mask ∧ (s.ctx.frames = [] → t.ctx.frames = []) ∧
      t.jumps = s.jumps := by
  cases hp : s.main <;> simp only [mainStep, hp, Option.some.injEq, reduceCtorEq] at hs
  all_goals
    subst hs
    simp [MainPc.hasEnded, State.catch, State.prMask, State.finish]

def Late (s : State) (a : Action) : Prop := a = .deliver .SIGUSR1 → s.armed = true ∧ s.main ≠ .returned

instance : Decidable (Late s a) := inferInstanceAs (Decidable (_ → _))

end ApueCode.SigSetJmp
