import Triage.Proofs.ConfinedEvaluation
import Triage.Proofs.Footprint
import Triage.Proofs.Unwrapping

/-! What is left behind when a script is asked for commands: each prompt among them is open, no spawn is among them,
and the requests made meanwhile are in the outbox until they are handed over. -/

namespace Triage.Script

open Session

variable {σ : Type}

/-- Where serving commands leads from a machine: they are leaves, and their prompts were opened in turn. -/
structure Machine.Serves (m : Machine σ) (cs : List Command) (m' : Machine σ) : Prop where
  sound : m'.Sound
  leaves : ∀ c ∈ cs, c.IsLeaf ∧ c.spawn? = none
  prompts : m'.session.prompts.stack = (cs.filterMap Command.prompt?).reverse ++ m.session.prompts.stack
  records : Records m.session m'.session

theorem Machine.Extends.serves {m m' : Machine σ} (h : m.Extends m') : m.Serves [] m' :=
  ⟨h.sound, by simp, by simp [h.grows.prompts], h.grows.records⟩

theorem Machine.Serves.trans {m₁ m₂ m₃ : Machine σ} {cs ds : List Command} (h₁ : m₁.Serves cs m₂)
    (h₂ : m₂.Serves ds m₃) : m₁.Serves (cs ++ ds) m₃ := by
  refine ⟨h₂.sound, fun c hc => ?_, ?_, h₁.records.trans h₂.records⟩
  · exact (List.mem_append.mp hc).elim (h₁.leaves c) (h₂.leaves c)
  · rw [h₂.prompts, h₁.prompts, List.filterMap_append, List.reverse_append, List.append_assoc]

theorem Machine.Sound.serves_command {m : Machine σ} (hm : m.Sound) {c : Command} (hc : .command c ∈ m.heap.objects) :
    m.Serves [c] (Dispatch.Walk.present ⟨[], m, []⟩ c).machine := by
  have hheld := hm.objects _ hc
  cases c with
  | openInput label placeholder h =>
    have hasked : ⟨label, placeholder, h⟩ ∈ asked m.session.journal := hm.prompts ▸ Heap.mem_prompts.mpr hc
    refine ⟨⟨hm.session.openPrompt hasked, hm.settled, hm.objects, hm.prompts⟩, ?_, rfl, .refl m.session⟩
    simp [Command.IsLeaf, Command.spawn?]
  | batch | spawn => exact hheld.elim
  | _ => exact ⟨hm, by simp [Command.IsLeaf, Command.spawn?], rfl, .refl _⟩

end Triage.Script

namespace Triage.Dispatch

open Script Session Command

variable {σ : Type} [Host σ] {self : Recur σ}

theorem called_extends (hs : self.IsConfined) (f : Nat) {m : Machine σ} (hm : m.Sound) :
    (called self f m).StopsIn m.Extends :=
  (Capability.guarded_confined hs (hs.call _ _ _) _).extends m hm

theorem Walk.Leads.serves (hs : self.IsConfined) {w w' : Walk σ} (hw : w.Leads self w') (hm : w.machine.Sound) :
    ∃ new, w'.met = w.met ++ new ∧ w.machine.Serves (commands new) w'.machine := by
  have hrelates := hw.relates (R := fun m met m' => m.Sound → m.Serves (commands met) m')
    (fun _ hm => hm.extends.serves) ?_ ?_
  · obtain ⟨new, hmet, hserves⟩ := hrelates
    exact ⟨new, hmet, hserves hm⟩
  · intro m₁ m₂ m₃ met met' h₁ h₂ hm
    rw [commands_append]
    exact (h₁ hm).trans (h₂ (h₁ hm).sound)
  · intro w w' hmove
    have hcall {f r m'} (hm : w.machine.Sound) (hc : called self f w.machine = .done r m') : w.machine.Extends m' := by
      have hext := called_extends hs f hm
      rwa [hc] at hext
    cases hmove with
    | past => exact ⟨[], (List.append_nil _).symm, fun hm => hm.extends.serves⟩
    | returned _ hc => exact ⟨[], (List.append_nil _).symm, fun hm => (hcall hm hc).serves⟩
    | raised _ hc =>
      exact ⟨[.failure _], rfl, fun hm => ((hcall hm hc).trans ((hcall hm hc).sound.withHost _)).serves⟩
    | deep => exact ⟨[.failure _], rfl, fun hm => (hm.withHost _).serves⟩
    | met _ hc => exact ⟨[.command _], rfl, fun hm => hm.serves_command hc⟩

theorem Follows.serves {α : Type} {front : List (Nat × Value)} {x : Eval σ α} {yields : α → List Command}
    (hx : Follows self front x yields) (hs : self.IsConfined) {m : Machine σ} (hm : m.Sound) :
    (x m).Returns True fun a m' => m.Serves (leavesOf (yields a)) m' := by
  refine (hx [] m []).imp (fun _ => trivial) fun a m' ⟨met, hleads, hleaves, _⟩ => ?_
  obtain ⟨new, hmet, hserves⟩ := hleads.serves hs hm
  obtain rfl : met = new := by simpa using hmet
  rw [hleaves, leavesOf_eq_self fun c hc => (hserves.leaves c hc).1]
  exact hserves

end Triage.Dispatch
