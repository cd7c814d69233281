import Triage.Proofs.Driven

/-! The journal has no influence. From a machine without its journal, everything a script does and every entry call
ends alike, save for the journal. -/

namespace Triage

namespace Script

variable {σ α β : Type}

def Machine.erase (m : Machine σ) : Machine σ := { m with session := m.session.erase }

def Outcome.erase : Outcome σ α → Outcome σ α
  | .done a m => .done a m.erase
  | .raised v m => .raised v m.erase
  | .exhausted => .exhausted

theorem Outcome.erase_eq_cases {o o' : Outcome σ α} (h : o.erase = o'.erase) :
    (∃ a m m', o = .done a m ∧ o' = .done a m' ∧ m.erase = m'.erase) ∨
      (∃ v m m', o = .raised v m ∧ o' = .raised v m' ∧ m.erase = m'.erase) ∨ o = .exhausted ∧ o' = .exhausted := by
  cases o with
  | done a m =>
    cases o' with
    | done b m' =>
      obtain ⟨rfl, hm⟩ := Outcome.done.inj h
      exact .inl ⟨a, m, m', rfl, rfl, hm⟩
    | raised | exhausted => cases h
  | raised v m =>
    cases o' with
    | raised w m' =>
      obtain ⟨rfl, hm⟩ := Outcome.raised.inj h
      exact .inr (.inl ⟨v, m, m', rfl, rfl, hm⟩)
    | done | exhausted => cases h
  | exhausted =>
    cases o' with
    | exhausted => exact .inr (.inr ⟨rfl, rfl⟩)
    | done | raised => cases h

def Eval.Blind (x : Eval σ α) : Prop := ∀ m, (x m.erase).erase = (x m).erase

namespace Eval.Blind

theorem pure (a : α) : (pure a : Eval σ α).Blind := fun _ => rfl

theorem bind {x : Eval σ α} {f : α → Eval σ β} (hx : x.Blind) (hf : ∀ a, (f a).Blind) : (x >>= f).Blind := by
  intro m
  rw [Eval.bind_apply, Eval.bind_apply]
  rcases Outcome.erase_eq_cases (hx m) with ⟨a, m₁, m₂, h₁, h₂, hm⟩ | ⟨v, m₁, m₂, h₁, h₂, hm⟩ | ⟨h₁, h₂⟩
  · rw [h₁, h₂]
    calc (f a m₁).erase = (f a m₁.erase).erase := (hf a m₁).symm
      _ = (f a m₂.erase).erase := by rw [hm]
      _ = (f a m₂).erase := hf a m₂
  · rw [h₁, h₂]
    exact congrArg (Outcome.raised v) hm
  · rw [h₁, h₂]

theorem attempt {x : Eval σ α} (hx : x.Blind) : (Eval.attempt x).Blind := by
  intro m
  unfold Eval.attempt
  rcases Outcome.erase_eq_cases (hx m) with ⟨a, m₁, m₂, h₁, h₂, hm⟩ | ⟨v, m₁, m₂, h₁, h₂, hm⟩ | ⟨h₁, h₂⟩
  · rw [h₁, h₂]
    exact congrArg (Outcome.done (Except.ok a)) hm
  · rw [h₁, h₂]
    exact congrArg (Outcome.done (Except.error v)) hm
  · rw [h₁, h₂]

theorem onSession {f : Session → α × Session} (hf : Session.Blind f) : (Eval.onSession f : Eval σ α).Blind := by
  intro m
  obtain ⟨hresult, hsession⟩ := hf m.session
  change Outcome.done (f m.session.erase).1 { m with session := (f m.session.erase).2.erase } =
    Outcome.done (f m.session).1 { m with session := (f m.session).2.erase }
  rw [hresult, hsession]

end Eval.Blind

section Scripts

variable [Host σ]

theorem registerOffer_blind (h : Handle) (offer : Offer Nat) :
    (Capability.registerOffer h offer : Eval σ Unit).Blind := by
  unfold Capability.registerOffer
  refine .bind (.onSession fun s => ?_) fun refused => ?_
  · cases offer <;> exact ⟨rfl, rfl⟩
  · cases refused <;> exact fun _ => rfl

theorem Confined.blind {x : Eval σ α} (hx : Confined x) : x.Blind := by
  induction hx with
  | bind _ _ ihx ihf => exact ihx.bind ihf
  | attempt _ ih => exact ih.attempt
  | newPrompt o =>
    refine .bind (.onSession fun s => ?_) fun h => fun _ => rfl
    unfold Session.mintInput
    cases o.callback <;> exact ⟨rfl, rfl⟩
  | launch argv timeoutMillis _ ih =>
    refine .bind (.onSession fun _ => ⟨rfl, rfl⟩) fun h => ih.bind fun answer => ?_
    cases answer with
    | error e => exact .pure _
    | ok callback => exact (registerOffer_blind h _).bind fun _ => .onSession fun _ => ⟨rfl, rfl⟩
  | _ => exact fun _ => rfl

theorem Driven.blind {x : Eval σ α} (hx : Driven x) : x.Blind := by
  induction hx with
  | script hx => exact hx.blind
  | session hf => exact .onSession hf
  | bind _ _ ihx ihf => exact ihx.bind ihf

end Scripts
end Script

namespace Dispatch

open Script

variable {σ : Type} [Host σ] {self : Recur σ}

/-- Every entry call ends alike without the journal. -/
theorem Entry.commands_blind (hs : self.IsConfined) (e : Entry) : (e.commands self).Blind :=
  (e.commands_driven hs).blind

end Dispatch
end Triage
