import Triage.Proofs.ConfinedEvaluation
import Triage.Proofs.Entries

/-! What the application makes of scripts: it runs them, and changes the session on its own account, without looking at
the journal. What entry calls can do follows by induction over `Driven`, and they are gone through only once. -/

namespace Triage

def Session.erase (s : Session) : Session := { s with journal := [] }

def Session.Blind {α : Type} (f : Session → α × Session) : Prop :=
  ∀ s : Session, (f s.erase).1 = (f s).1 ∧ (f s.erase).2.erase = (f s).2.erase

theorem Session.take_blind (h : Handle) : Blind (·.take h) := by
  intro s
  change (s.erase.take h).1 = (s.take h).1 ∧ (s.erase.take h).2.erase = (s.take h).2.erase
  have hget : s.erase.callbacks.get? h = s.callbacks.get? h := rfl
  cases hf : s.callbacks.get? h with
  | none =>
    rw [take_of_none hf, take_of_none (hget.trans hf)]
    exact ⟨rfl, rfl⟩
  | some f =>
    rw [take_of_some hf, take_of_some (hget.trans hf)]
    exact ⟨rfl, rfl⟩

namespace Script

variable {σ : Type} [Host σ]

inductive Driven : {α : Type} → Eval σ α → Prop
  | script {α : Type} {x : Eval σ α} : Confined x → Driven x
  | session {α : Type} {f : Session → α × Session} : Session.Blind f → Driven (Eval.onSession f : Eval σ α)
  | bind {α β : Type} {x : Eval σ α} {f : α → Eval σ β} : Driven x → (∀ a, Driven (f a)) → Driven (x >>= f)

theorem Driven.pure {α : Type} (a : α) : Driven (pure a : Eval σ α) := .script (.pure a)

end Script

namespace Dispatch

open Script

variable {σ : Type} [Host σ] {self : Recur σ}

theorem report_driven (e : Error) : Driven (report e : Eval σ Unit) := .script (.report e)

theorem present_driven (c : Command) : Driven (present c : Eval σ Command) := by
  cases c with
  | openInput => exact .bind (.session fun _ => ⟨rfl, rfl⟩) fun _ => .pure _
  | _ => exact .pure _

theorem finish_driven (c : Option Command) : Driven (finish c : Eval σ (List Command)) := .session fun _ => ⟨rfl, rfl⟩

theorem collect_driven {unwrap : Value → Eval σ (Option Command)} (hu : ∀ v, Driven (unwrap v)) (vs : List Value) :
    Driven (collect unwrap vs) := by
  induction vs with
  | nil => exact .pure _
  | cons v vs ih => exact .bind (hu v) fun _ => .bind ih fun _ => .pure _

theorem call?_driven (hs : self.IsConfined) (f : Nat) (args : List Value) : Driven (call? self f args) := by
  unfold call?
  refine .bind (.script (Capability.guarded_confined hs (hs.call _ _ _) _)) fun r => ?_
  cases r with
  | ok vs => exact .pure _
  | error cause => exact .bind (report_driven _) fun _ => .pure _

theorem unwrap_driven (hs : self.IsConfined) (levels : Nat) (v : Value) : Driven (unwrap self levels v) := by
  induction levels generalizing v with
  | zero => exact .bind (report_driven _) fun _ => .pure _
  | succ levels ih =>
    cases v with
    | function f =>
      refine .bind (call?_driven hs f []) fun vs? => ?_
      cases vs? with
      | some vs => exact .bind (collect_driven ih vs) fun _ => .pure _
      | none => exact .pure _
    | table r => exact .bind (.script (.readHeap _)) fun vs => .bind (collect_driven ih vs) fun _ => .pure _
    | object r =>
      refine .bind (.script (.readHeap _)) fun o => ?_
      split
      · exact .bind (present_driven _) fun _ => .pure _
      · exact .pure _
    | _ => exact .pure _

theorem invoke_driven (hs : self.IsConfined) (f : Nat) (args : List Value) : Driven (invoke self f args) := by
  refine .bind (call?_driven hs f args) fun vs? => ?_
  cases vs? with
  | some vs => exact .bind (collect_driven (unwrap_driven hs unwrapLimit) vs) fun _ => finish_driven _
  | none => exact finish_driven _

theorem resolve_driven (hs : self.IsConfined) (h : Handle) (args : List Value) : Driven (resolve self h args) := by
  refine .bind (.session (Session.take_blind h)) fun f? => ?_
  cases f? with
  | some f => exact invoke_driven hs f args
  | none => exact .pure _

theorem spawnPayload_driven (r : SpawnResult) : Driven (spawnPayload r : Eval σ Value) :=
  .script (.bind (newList_confined _) fun _ => .onHeap fun _ => rfl)

theorem onStartup_driven (hs : self.IsConfined) : Driven (onStartup self) := by
  refine .bind (.script (.readHeap _)) fun globals =>
    .bind (.script (lookup_confined hs globals "on_startup")) fun r => ?_
  split
  · exact .bind (unwrap_driven hs unwrapLimit _) finish_driven
  · exact finish_driven none
  · exact .bind (report_driven _) fun _ => finish_driven none

theorem onKey_driven (hs : self.IsConfined) (name : String) : Driven (onKey self name) := by
  refine .bind (.script (binding_confined hs name)) fun r => ?_
  split
  · exact .pure _
  · exact .bind (unwrap_driven hs unwrapLimit _) fun c => .bind (finish_driven c) fun _ => .pure _
  · exact .bind (report_driven _) fun _ => .pure _

theorem submitInput_driven (hs : self.IsConfined) (text : String) : Driven (submitInput self text) := by
  refine .bind (.session fun _ => ⟨rfl, rfl⟩) fun p? => ?_
  cases p? with
  | some p => exact resolve_driven hs p.handle _
  | none => exact .pure _

theorem cancelInput_driven : Driven (cancelInput : Eval σ (Option Prompt)) := by
  refine .bind (.session fun _ => ⟨rfl, rfl⟩) fun p? => ?_
  cases p? with
  | some p => exact .bind (.session fun _ => ⟨rfl, rfl⟩) fun _ => .pure _
  | none => exact .pure _

theorem onSpawnResult_driven (hs : self.IsConfined) (r : SpawnResult) : Driven (onSpawnResult self r) := by
  refine .bind (.session (Session.take_blind r.handle)) fun f? => ?_
  cases f? with
  | some f => exact .bind (spawnPayload_driven r) fun payload => invoke_driven hs f [payload]
  | none => exact .pure _

theorem Entry.commands_driven (hs : self.IsConfined) (e : Entry) : Driven (e.commands self) := by
  cases e with
  | startup => exact onStartup_driven hs
  | key name => exact .bind (onKey_driven hs name) fun _ => .pure _
  | submit text => exact submitInput_driven hs text
  | cancel => exact .bind cancelInput_driven fun _ => .pure _
  | resolve h args => exact resolve_driven hs h args
  | finished r => exact onSpawnResult_driven hs r

end Dispatch
end Triage
