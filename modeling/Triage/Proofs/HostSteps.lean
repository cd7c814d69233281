import Mathlib.Logic.Relation
import Triage.Proofs.Driven
import Triage.Proofs.Runs

/-! What scripts do to their host: one operation of it after another, and nothing else. -/

namespace Triage

/-- One operation by which scripts, or failures of theirs, change a host. -/
inductive Host.Step {σ : Type} [Host σ] (host : σ) : σ → Prop
  | tag (ids : List MessageId) (operations : List String) : Step host (Host.tag host ids operations).2
  | setTheme (theme : Theme) : Step host (Host.setTheme host theme)
  | log (level message : String) : Step host (Host.log host level message)
  | report (e : Error) : Step host (Host.report host e)

abbrev Host.Reaches {σ : Type} [Host σ] : σ → σ → Prop := Relation.ReflTransGen Host.Step

namespace Script

variable {σ α : Type} [Host σ]

theorem registerOffer_reaches (h : Handle) (offer : Offer Nat) (m : Machine σ) :
    (Capability.registerOffer h offer m).StopsIn fun m' => Host.Reaches m.host m'.host := by
  rcases Session.register_cases m.session h offer with ⟨f, hr⟩ | hr | ⟨e, hr⟩
  · rw [registerOffer_of_ok hr]
    exact .refl
  · rw [registerOffer_of_ok hr]
    exact .refl
  · rw [registerOffer_of_error hr]
    exact .single (.report e)

theorem Confined.reaches {x : Eval σ α} (hx : Confined x) (m : Machine σ) :
    (x m).StopsIn fun m' => Host.Reaches m.host m'.host := by
  induction hx generalizing m with
  | pure | raise | readHeap | onHeap | newValue | readHost | newPrompt => exact .refl
  | exhausted => trivial
  | bind _ _ ihx ihf => exact (ihx m).bind (fun _ h => h) fun a m' h => (ihf a m').mono fun _ => h.trans
  | attempt _ ih => exact (ih m).attempt
  | tag ids operations => exact .single (.tag ids operations)
  | setTheme theme => exact .single (.setTheme theme)
  | log level message => exact .single (.log level message)
  | report e => exact .single (.report e)
  | @launch argv timeoutMillis offered _ ih =>
    -- The handle is minted and the request accepted in the session alone, so that only what is between can matter.
    unfold Capability.launch
    change Outcome.StopsIn _ ((offered >>= _) { m with session := m.session.mintSpawn.2 })
    refine (ih _).bind (fun _ h => h) fun answer m' h => ?_
    cases answer with
    | error e => exact h
    | ok callback => exact ((registerOffer_reaches _ _ m').mono fun _ => h.trans).bind (fun _ h => h) fun _ _ h => h

theorem Driven.reaches {x : Eval σ α} (hx : Driven x) (m : Machine σ) :
    (x m).StopsIn fun m' => Host.Reaches m.host m'.host := by
  induction hx generalizing m with
  | script hx => exact hx.reaches m
  | session => exact .refl
  | bind _ _ ihx ihf => exact (ihx m).bind (fun _ h => h) fun a m' h => (ihf a m').mono fun _ => h.trans

end Script

namespace Dispatch

open Script

variable {σ α : Type} [Host σ] {m m' : Machine σ} {entry : Recur σ → Eval σ α} {a : α}

theorem enter_eq_some_iff : enter m entry = some (a, m') ↔ entry (evaluate fuel) m = .done a m' := by
  unfold enter
  cases entry (evaluate fuel) m <;> simp

theorem enter_reaches (h : enter m entry = some (a, m')) (hd : Driven (entry (evaluate fuel))) :
    Host.Reaches m.host m'.host := by
  have hstops := hd.reaches m
  rw [enter_eq_some_iff.mp h] at hstops
  exact hstops

theorem load_reaches {host : σ} {s : Source} {r : Except Error Unit} (h : load host s = some (r, m)) :
    Host.Reaches host m.host := by
  have hstops : (start (evaluate fuel) s { host }).StopsIn fun m' => Host.Reaches host m'.host := by
    unfold start
    cases parse? (Text.Utf8.encode s.text) with
    | none => exact .refl
    | some body =>
      have hcode := Evaluate.closureCall_confined (evaluate_confined (σ := σ) fuel) (.mk [] true body) [] [] {}
      have hrun := (Capability.guarded_confined (evaluate_confined fuel) hcode {}).reaches
        { heap := Globals.heapFor s.name, host }
      refine hrun.bind (fun _ h => h) fun r m' h => ?_
      cases r <;> exact h
  rw [enter_eq_some_iff.mp h] at hstops
  exact hstops

end Dispatch
end Triage
