import Triage.Proofs.Commands
import Triage.Proofs.Confined
import Triage.Proofs.Outcomes
import Triage.Proofs.Sessions

/-! What running scripts leave behind: they mint, register and make requests, but no callback is called, no prompt is
opened or closed, and whatever command they hold is a leaf that no other part of the machine has to answer for. -/

namespace Triage.Script

open Session

variable {σ α : Type}

def HostObject.IsHeld : HostObject → Prop
  | .command (.batch _) => False
  | .command (.spawn _) => False
  | _ => True

def HostObject.prompt? : HostObject → Option Prompt
  | .command c => c.prompt?
  | .message _ => none

def Heap.prompts (h : Heap) : List Prompt := h.objects.toList.filterMap HostObject.prompt?

theorem Heap.prompts_newObject (h : Heap) (o : HostObject) :
    (h.newObject o).2.prompts = h.prompts ++ o.prompt?.toList := by
  rw [prompts, newObject, Array.toList_push, List.filterMap_append]
  cases ho : o.prompt? with
  | none => rw [List.filterMap_cons_none ho]; rfl
  | some p => rw [List.filterMap_cons_some ho]; rfl

theorem Heap.mem_prompts {h : Heap} {p : Prompt} :
    p ∈ h.prompts ↔ .command (.openInput p.label p.placeholder p.handle) ∈ h.objects := by
  rw [prompts, List.mem_filterMap]
  constructor
  · rintro ⟨o, ho, hp⟩
    cases o with
    | message => cases hp
    | command c =>
      cases c with
      | openInput =>
        obtain rfl := Option.some.inj hp
        exact Array.mem_toList_iff.mp ho
      | _ => cases hp
  · exact fun hc => ⟨_, Array.mem_toList_iff.mpr hc, rfl⟩

theorem HostObject.IsPlain.isHeld {o : HostObject} (ho : o.IsPlain) : o.IsHeld := by
  cases o with
  | message => trivial
  | command c => cases c <;> trivial

theorem HostObject.IsPlain.prompt?_eq_none {o : HostObject} (ho : o.IsPlain) : o.prompt? = none := by
  cases o with
  | message => rfl
  | command c =>
    cases c with
    | openInput => exact ho.elim
    | _ => rfl

/-- The prompts that scripts hold commands of are those that they asked for. -/
structure Machine.Sound (m : Machine σ) : Prop where
  session : m.session.Sound
  settled : Settled m.session.journal
  objects : ∀ o ∈ m.heap.objects, o.IsHeld
  prompts : m.heap.prompts = asked m.session.journal

structure Machine.Extends (m m' : Machine σ) : Prop where
  sound : m'.Sound
  grows : Grows m.session m'.session

theorem Machine.Sound.extends {m : Machine σ} (hm : m.Sound) : m.Extends m := ⟨hm, .refl _⟩

theorem Machine.Extends.trans {m₁ m₂ m₃ : Machine σ} (h₁ : m₁.Extends m₂) (h₂ : m₂.Extends m₃) : m₁.Extends m₃ :=
  ⟨h₂.sound, h₁.grows.trans h₂.grows⟩

theorem Machine.Sound.withSession {m : Machine σ} (hm : m.Sound) {s : Session} (hs : s.Sound)
    (hq : m.session.GoesOn s) : Sound { m with session := s } :=
  ⟨hs, hq.settled hm.settled, hm.objects, hm.prompts.trans hq.asked_eq.symm⟩

theorem Machine.Sound.withHeap {m : Machine σ} (hm : m.Sound) {h : Heap} (hh : h.objects = m.heap.objects) :
    m.Extends { m with heap := h } := by
  refine ⟨⟨hm.session, hm.settled, fun o ho => hm.objects o (hh ▸ ho), ?_⟩, .refl _⟩
  rw [Heap.prompts, hh]
  exact hm.prompts

theorem Machine.Sound.withHost {m : Machine σ} (hm : m.Sound) (host : σ) : m.Extends { m with host } :=
  ⟨⟨hm.session, hm.settled, hm.objects, hm.prompts⟩, .refl _⟩

theorem Machine.Sound.isHeld_newObject {m : Machine σ} (hm : m.Sound) {o : HostObject} (ho : o.IsHeld) :
    ∀ p ∈ (m.heap.newObject o).2.objects, p.IsHeld := by
  intro p hp
  rcases Array.mem_push.mp hp with hp | rfl
  · exact hm.objects p hp
  · exact ho

theorem Machine.Sound.newObject {m : Machine σ} (hm : m.Sound) {o : HostObject} (ho : o.IsPlain) :
    m.Extends { m with heap := (m.heap.newObject o).2 } := by
  refine ⟨⟨hm.session, hm.settled, hm.isHeld_newObject ho.isHeld, ?_⟩, .refl _⟩
  rw [Heap.prompts_newObject, ho.prompt?_eq_none]
  exact (List.append_nil _).trans hm.prompts

theorem Machine.Extends.accept {m₀ m : Machine σ} (h : m₀.Extends m) (r : SpawnRequest) :
    m₀.Extends { m with session := m.session.accept r } :=
  ⟨h.sound.withSession (h.sound.session.accept r) (goesOn_of_event rfl rfl), h.grows.accept r⟩

section Steps

variable {m : Machine σ}

def Machine.prompted (m : Machine σ) (o : PromptOptions) : Machine σ where
  heap := (m.heap.newObject (.command (.openInput o.label o.placeholder (m.session.mintInput o).1))).2
  session := (m.session.mintInput o).2
  host := m.host

theorem Machine.Sound.prompted (hm : m.Sound) (o : PromptOptions) : m.Extends (m.prompted o) := by
  obtain ⟨hs, hg⟩ := hm.session.mintInput o
  refine ⟨⟨hs, hm.settled.mintInput o, hm.isHeld_newObject trivial, ?_⟩, hg⟩
  rw [Machine.prompted, Heap.prompts_newObject, asked_mintInput, hm.prompts, Session.fst_mintInput]
  rfl

variable [Host σ]

theorem registerOffer_of_ok {h : Handle} {offer : Offer Nat} {s : Session} (hr : m.session.register h offer = .ok s) :
    Capability.registerOffer h offer m = .done () { m with session := s } := by
  rw [Capability.registerOffer, Eval.bind_apply, Eval.onSession, hr]
  rfl

theorem registerOffer_of_error {h : Handle} {offer : Offer Nat} {e : Error}
    (hr : m.session.register h offer = .error e) :
    Capability.registerOffer h offer m = .done () { m with host := Host.report m.host e } := by
  rw [Capability.registerOffer, Eval.bind_apply, Eval.onSession, hr]
  rfl

theorem registerOffer_extends {m₀ : Machine σ} {h : Handle} (hm : m₀.Extends m)
    (hfresh : phase h m₀.session.journal = .unknown) (hminted : phase h m.session.journal = .minted .program)
    (offer : Offer Nat) : (Capability.registerOffer h offer m).StopsIn m₀.Extends := by
  rcases register_cases m.session h offer with ⟨f, hr⟩ | hr | ⟨e, hr⟩
  · have hsound := hm.sound.withSession (hm.sound.session.hold hminted (f := f) trivial) (goesOn_of_event rfl rfl)
    rw [registerOffer_of_ok hr]
    exact ⟨hsound, hm.grows.hold hfresh f⟩
  · rw [registerOffer_of_ok hr]
    exact hm
  · rw [registerOffer_of_error hr]
    exact hm.trans (hm.sound.withHost _)

/-- The handle is known to nobody before, and whatever is offered for it, the request comes last. -/
theorem launch_extends (hm : m.Sound) (argv : List String) (timeoutMillis : Option Nat)
    {offered : Eval σ (Except Error Value)} (ho : ∀ m' : Machine σ, m'.Sound → (offered m').StopsIn m'.Extends) :
    (Capability.launch argv timeoutMillis offered m).StopsIn m.Extends := by
  have hmint := hm.session.mintSpawn
  have hstart : m.Extends { m with session := m.session.mintSpawn.2 } :=
    ⟨hm.withSession hmint.sound (goesOn_of_event rfl rfl), hmint.grows⟩
  -- Reading the option runs the script, which knows nothing of the handle yet and so leaves it as it is.
  have hminted (m' : Machine σ) (h : Machine.Extends { m with session := m.session.mintSpawn.2 } m') :
      phase m.session.mintSpawn.1 m'.session.journal = .minted .program := by
    rw [h.grows.known _ (by simp [hmint.minted])]
    exact hmint.minted
  unfold Capability.launch
  change Outcome.StopsIn m.Extends ((offered >>= _) { m with session := m.session.mintSpawn.2 })
  refine (ho _ hstart.sound).bind (fun _ h => hstart.trans h) fun answer m' h => ?_
  cases answer with
  | error e => exact hstart.trans h
  | ok callback =>
    have hregister := registerOffer_extends (hstart.trans h) hmint.fresh (hminted m' h) (Capability.offerOf callback)
    exact hregister.bind (fun _ h => h) fun _ _ h => h.accept _

theorem Confined.extends {x : Eval σ α} (hx : Confined x) : ∀ m : Machine σ, m.Sound → (x m).StopsIn m.Extends := by
  induction hx with
  | pure | raise | readHeap | readHost => exact fun m hm => hm.extends
  | exhausted => exact fun _ _ => trivial
  | bind _ _ ihx ihf =>
    intro m hm
    exact (ihx m hm).bind (fun _ h => h) fun a m' h => (ihf a m' h.sound).mono fun _ => h.trans
  | attempt _ ih => exact fun m hm => (ih m hm).attempt
  | onHeap hf => exact fun m hm => hm.withHeap (hf m.heap)
  | newValue ho => exact fun m hm => hm.newObject ho
  | tag | setTheme | log | report => exact fun m hm => hm.withHost _
  | newPrompt o => exact fun m hm => hm.prompted o
  | launch argv timeoutMillis _ ih => exact fun m hm => launch_extends hm argv timeoutMillis ih

end Steps
end Triage.Script
