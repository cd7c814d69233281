import Triage.Script.Capability

/-! How computations end: where they leave the machine, and what they return. -/

namespace Triage.Script

variable {σ α β : Type}

theorem Eval.bind_apply (x : Eval σ α) (f : α → Eval σ β) (m : Machine σ) : (x >>= f) m = match x m with
    | .done a m' => f a m'
    | .raised v m' => .raised v m'
    | .exhausted => .exhausted := rfl

theorem Eval.bind_of_done {x : Eval σ α} {f : α → Eval σ β} {m m' : Machine σ} {a : α} (h : x m = .done a m') :
    (x >>= f) m = f a m' := by
  simp only [Eval.bind_apply, h]

theorem Eval.bind_eq_done {x : Eval σ α} {f : α → Eval σ β} {m m' : Machine σ} {b : β} :
    (x >>= f) m = .done b m' ↔ ∃ a m₁, x m = .done a m₁ ∧ f a m₁ = .done b m' := by
  rw [Eval.bind_apply]
  cases x m <;> simp [and_assoc]

namespace Outcome

/-- A property of where a computation leaves the machine, with a result or by raising. -/
def StopsIn (P : Machine σ → Prop) : Outcome σ α → Prop
  | .done _ m => P m
  | .raised _ m => P m
  | .exhausted => True

theorem StopsIn.mono {P Q : Machine σ → Prop} {o : Outcome σ α} (ho : o.StopsIn P) (hpq : ∀ m, P m → Q m) :
    o.StopsIn Q := by
  cases o with
  | done a m => exact hpq m ho
  | raised v m => exact hpq m ho
  | exhausted => trivial

theorem StopsIn.bind {P Q : Machine σ → Prop} {x : Eval σ α} {f : α → Eval σ β} {m : Machine σ} (hx : (x m).StopsIn P)
    (hraised : ∀ m', P m' → Q m') (hf : ∀ a m', P m' → (f a m').StopsIn Q) : ((x >>= f) m).StopsIn Q := by
  rw [Eval.bind_apply]
  cases hm : x m with
  | done a m' =>
    rw [hm] at hx
    exact hf a m' hx
  | raised v m' =>
    rw [hm] at hx
    exact hraised m' hx
  | exhausted => trivial

theorem StopsIn.attempt {P : Machine σ → Prop} {x : Eval σ α} {m : Machine σ} (hx : (x m).StopsIn P) :
    (Eval.attempt x m).StopsIn P := by
  unfold Eval.attempt
  cases hm : x m with
  | done a m' =>
    rw [hm] at hx
    exact hx
  | raised v m' =>
    rw [hm] at hx
    exact hx
  | exhausted => trivial

/-- Nothing is raised, and without enough fuel something else is known. -/
def Returns (starved : Prop) (P : α → Machine σ → Prop) : Outcome σ α → Prop
  | .done a m => P a m
  | .raised .. => False
  | .exhausted => starved

theorem Returns.imp {starved starved' : Prop} {P Q : α → Machine σ → Prop} {o : Outcome σ α} (ho : o.Returns starved P)
    (hs : starved → starved') (hpq : ∀ a m, P a m → Q a m) : o.Returns starved' Q := by
  cases o with
  | done a m => exact hpq a m ho
  | raised v m => exact ho
  | exhausted => exact hs ho

theorem Returns.bind {starved : Prop} {P : α → Machine σ → Prop} {Q : β → Machine σ → Prop} {x : Eval σ α}
    {f : α → Eval σ β} {m : Machine σ} (hx : (x m).Returns starved P)
    (hf : ∀ a m', P a m' → (f a m').Returns starved Q) : ((x >>= f) m).Returns starved Q := by
  rw [Eval.bind_apply]
  cases hm : x m with
  | done a m' =>
    rw [hm] at hx
    exact hf a m' hx
  | raised v m' =>
    rw [hm] at hx
    exact hx.elim
  | exhausted =>
    rw [hm] at hx
    exact hx

theorem Returns.self {starved : Prop} {P : α → Machine σ → Prop} {o : Outcome σ α} (ho : o.Returns starved P) :
    o.Returns (o = .exhausted) fun a m => o = .done a m := by
  cases o with
  | done a m => rfl
  | raised v m => exact ho.elim
  | exhausted => rfl

theorem StopsIn.returns {starved : Prop} {P : Machine σ → Prop} {o : Outcome σ α} (ho : o.StopsIn P)
    (hr : o.Returns starved fun _ _ => True) : o.Returns starved fun _ m => P m := by
  cases o with
  | done a m => exact ho
  | raised v m => exact hr
  | exhausted => exact hr

theorem attempt_returns (x : Eval σ α) (m : Machine σ) : (Eval.attempt x m).Returns True fun _ _ => True := by
  unfold Eval.attempt
  cases x m <;> trivial

end Outcome

theorem Capability.guarded_returns {self : Recur σ} (x : Eval σ α) (callers : Callers) (m : Machine σ) :
    (guarded self x callers m).Returns True fun _ _ => True := by
  have hdescribe (v : Value) (m : Machine σ) : (describe self v callers m).Returns True fun _ _ => True := by
    unfold describe
    refine (Outcome.attempt_returns _ _).bind fun r m' _ => ?_
    cases r with
    | ok t => trivial
    | error inner =>
      refine (Outcome.attempt_returns _ _).bind fun r m' _ => ?_
      cases r <;> trivial
  unfold guarded
  refine (Outcome.attempt_returns _ _).bind fun r m' _ => ?_
  cases r with
  | ok a => trivial
  | error v => exact (hdescribe v m').bind fun _ _ _ => trivial

end Triage.Script
