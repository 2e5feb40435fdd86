import RecordPrivacy.Entropy

/-! Stateful computations applied to a state. Drawing and sessions are both functions from a state
to an answer and the next state; these equations let a proof follow one from step to step. -/
namespace RecordPrivacy.State
variable {σ α β : Type}

theorem bind_apply (x : StateM σ α) (f : α → StateM σ β) (s : σ) :
    (x >>= f) s = f (x s).1 (x s).2 := rfl

theorem pure_apply (a : α) (s : σ) : (pure a : StateM σ α) s = (a, s) := rfl

theorem modify_apply (f : σ → σ) (s : σ) : (modify f : StateM σ Unit) s = ((), f s) := rfl

end RecordPrivacy.State
