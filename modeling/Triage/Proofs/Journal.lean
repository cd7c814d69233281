import Mathlib.Data.List.Nodup
import Mathlib.Data.List.Pairwise
import Triage.Session

/-! The journal of a session as the lives of its handles. A callback is minted, registered, and then either called or
dropped; an orderly journal has no event out of this order, and so no callback is called twice. -/

namespace Triage

def PromptOptions.prompt (o : PromptOptions) (h : Handle) : Prompt := ⟨o.label, o.placeholder, h⟩

namespace Session

inductive Phase where
  | unknown
  | minted (purpose : Purpose)
  | waiting (callback : Nat)
  | over
  deriving DecidableEq

def Phase.callback? : Phase → Option Nat
  | .waiting f => some f
  | _ => none

def phase (h : Handle) : List Event → Phase
  | [] => .unknown
  | .minted k purpose :: past => if k = h then .minted purpose else phase h past
  | .registered k f :: past => if k = h then .waiting f else phase h past
  | .accepted _ :: past => phase h past
  | .invoked k _ :: past => if k = h then .over else phase h past
  | .cancelled p :: past => if p.handle = h then .over else phase h past

/-- A prompt has the callback it was asked for with, and a program whatever is offered for it. -/
def Purpose.Takes : Purpose → Nat → Prop
  | .prompt o, f => o.callback = some f
  | .program, _ => True

namespace Event

def handle? : Event → Option Handle
  | .minted h _ => some h
  | .registered h _ => some h
  | .accepted _ => none
  | .invoked h _ => some h
  | .cancelled p => some p.handle

def minted? : Event → Option Handle
  | .minted h _ => some h
  | _ => none

def prompt? : Event → Option Prompt
  | .minted h (.prompt o) => some (o.prompt h)
  | _ => none

def registered? : Event → Option Handle
  | .registered h _ => some h
  | _ => none

def invoked? : Event → Option Handle
  | .invoked h _ => some h
  | _ => none

def IsOfScript : Event → Prop
  | .invoked .. => False
  | .cancelled _ => False
  | _ => True

def MayFollow (past : List Event) : Event → Prop
  | .minted h _ => phase h past = .unknown
  | .registered h f => ∃ purpose, phase h past = .minted purpose ∧ purpose.Takes f
  | .accepted _ => True
  | .invoked h f => phase h past = .waiting f
  | .cancelled p => phase p.handle past ≠ .unknown

end Event

def Orderly : List Event → Prop
  | [] => True
  | e :: past => e.MayFollow past ∧ Orderly past

def accepted : List Event → List SpawnRequest
  | [] => []
  | .accepted r :: past => accepted past ++ [r]
  | _ :: past => accepted past

theorem accepted_append (es past : List Event) : accepted (es ++ past) = accepted past ++ accepted es := by
  induction es with
  | nil => simp [accepted]
  | cons e es ih => cases e <;> simp [accepted, ih]

/-- The prompts that calls asked for, in the order of these calls. -/
def asked (js : List Event) : List Prompt := (js.filterMap Event.prompt?).reverse

theorem mem_asked {js : List Event} {p : Prompt} :
    p ∈ asked js ↔ ∃ o, .minted p.handle (.prompt o) ∈ js ∧ p = o.prompt p.handle := by
  rw [asked, List.mem_reverse, List.mem_filterMap]
  constructor
  · rintro ⟨e, he, hp⟩
    cases e with
    | minted h purpose =>
      cases purpose with
      | prompt o =>
        obtain rfl := Option.some.inj hp
        exact ⟨o, he, rfl⟩
      | program => cases hp
    | _ => cases hp
  · rintro ⟨o, ho, hp⟩
    exact ⟨_, ho, congrArg some hp.symm⟩

theorem asked_cons (h : Handle) (o : PromptOptions) (past : List Event) :
    asked (.minted h (.prompt o) :: past) = asked past ++ [o.prompt h] := List.reverse_cons

theorem asked_append {later : List Event} (hl : ∀ e ∈ later, e.prompt? = none) (earlier : List Event) :
    asked (later ++ earlier) = asked earlier := by
  rw [asked, List.filterMap_append, List.filterMap_eq_nil_iff.mpr hl, List.nil_append]
  rfl

theorem phase_cons_of_ne {h : Handle} {e : Event} (past : List Event) (hne : e.handle? ≠ some h) :
    phase h (e :: past) = phase h past := by
  cases e <;> simp_all [phase, Event.handle?]

theorem phase_over_of_append {h : Handle} {later earlier : List Event} (hs : ∀ e ∈ later, e.IsOfScript)
    (hover : phase h (later ++ earlier) = .over) : phase h earlier = .over := by
  induction later with
  | nil => exact hover
  | cons e later ih =>
    have he : phase h (later ++ earlier) = .over := by
      cases e with
      | invoked | cancelled => exact (hs _ List.mem_cons_self).elim
      | minted k | registered k f =>
        simp only [List.cons_append, phase] at hover
        split at hover
        · cases hover
        · exact hover
      | accepted r => exact hover
    exact ih (fun d hd => hs d (List.mem_cons_of_mem e hd)) he

theorem exists_of_phase_over {h : Handle} {js : List Event} (hp : phase h js = .over) :
    (∃ f, .invoked h f ∈ js) ∨ ∃ p, .cancelled p ∈ js ∧ p.handle = h := by
  induction js with
  | nil => cases hp
  | cons e past ih =>
    by_cases he : e.handle? = some h
    · cases e with
      | invoked k f =>
        obtain rfl : k = h := Option.some.inj he
        exact .inl ⟨f, List.mem_cons_self⟩
      | cancelled p => exact .inr ⟨p, List.mem_cons_self, Option.some.inj he⟩
      | minted | registered => simp_all [phase, Event.handle?]
      | accepted => cases he
    · rw [phase_cons_of_ne past he] at hp
      rcases ih hp with ⟨f, hf⟩ | ⟨p, hp, hh⟩
      · exact .inl ⟨f, List.mem_cons_of_mem _ hf⟩
      · exact .inr ⟨p, List.mem_cons_of_mem _ hp, hh⟩

namespace Orderly

variable {js : List Event} {h : Handle}

theorem of_append {later earlier : List Event} (ho : Orderly (later ++ earlier)) : Orderly earlier := by
  induction later with
  | nil => exact ho
  | cons e later ih => exact ih ho.2

theorem mayFollow {later earlier : List Event} {e : Event} (ho : Orderly (later ++ e :: earlier)) :
    e.MayFollow earlier := (of_append ho).1

theorem of_unknown (ho : Orderly js) (hp : phase h js = .unknown) {e : Event} (he : e ∈ js) : e.handle? ≠ some h := by
  induction js with
  | nil => simp at he
  | cons d past ih =>
    have hd : d.handle? ≠ some h := by
      cases d <;> simp_all [phase, Event.handle?] <;> split at hp <;> simp_all
    rw [phase_cons_of_ne past hd] at hp
    rcases List.mem_cons.mp he with rfl | he
    · exact hd
    · exact ih ho.2 hp he

theorem of_minted {purpose : Purpose} (ho : Orderly js) (hp : phase h js = .minted purpose) {e : Event} (he : e ∈ js)
    (hh : e.handle? = some h) : e = .minted h purpose := by
  induction js with
  | nil => simp at he
  | cons d past ih =>
    by_cases hd : d.handle? = some h
    · have hmint : d = .minted h purpose := by
        cases d <;> simp_all [phase, Event.handle?]
      subst hmint
      rcases List.mem_cons.mp he with rfl | he
      · rfl
      · exact absurd hh (of_unknown ho.2 ho.1 he)
    · rw [phase_cons_of_ne past hd] at hp
      rcases List.mem_cons.mp he with rfl | he
      · exact absurd hh hd
      · exact ih ho.2 hp he

theorem mem_of_minted {purpose : Purpose} (hp : phase h js = .minted purpose) : .minted h purpose ∈ js := by
  induction js with
  | nil => simp [phase] at hp
  | cons d past ih =>
    by_cases hd : d.handle? = some h
    · cases d <;> simp_all [phase, Event.handle?]
    · rw [phase_cons_of_ne past hd] at hp
      exact List.mem_cons_of_mem _ (ih hp)

theorem of_waiting {f : Nat} (ho : Orderly js) (hp : phase h js = .waiting f) :
    ∃ purpose : Purpose, purpose.Takes f ∧ .minted h purpose ∈ js ∧ .registered h f ∈ js ∧
      ∀ e ∈ js, e.handle? = some h → e = .minted h purpose ∨ e = .registered h f := by
  induction js with
  | nil => simp [phase] at hp
  | cons d past ih =>
    by_cases hd : d.handle? = some h
    · have hreg : d = .registered h f := by
        cases d <;> simp_all [phase, Event.handle?]
      subst hreg
      obtain ⟨purpose, hminted, htakes⟩ := ho.1
      refine ⟨purpose, htakes, List.mem_cons_of_mem _ (mem_of_minted hminted), List.mem_cons_self, fun e he hh => ?_⟩
      rcases List.mem_cons.mp he with rfl | he
      · exact .inr rfl
      · exact .inl (of_minted ho.2 hminted he hh)
    · rw [phase_cons_of_ne past hd] at hp
      obtain ⟨purpose, htakes, hminted, hregistered, hall⟩ := ih ho.2 hp
      refine ⟨purpose, htakes, List.mem_cons_of_mem _ hminted, List.mem_cons_of_mem _ hregistered, fun e he hh => ?_⟩
      rcases List.mem_cons.mp he with rfl | he
      · exact absurd hh hd
      · exact hall e he hh

theorem mem_minted (ho : Orderly js) (hk : phase h js ≠ .unknown) : ∃ purpose, .minted h purpose ∈ js := by
  induction js with
  | nil => exact absurd rfl hk
  | cons d past ih =>
    by_cases hd : d.handle? = some h
    · cases d with
      | minted k purpose =>
        obtain rfl : k = h := Option.some.inj hd
        exact ⟨purpose, List.mem_cons_self⟩
      | registered k f =>
        obtain rfl : k = h := Option.some.inj hd
        obtain ⟨purpose, hminted, -⟩ := ho.1
        exact ⟨purpose, List.mem_cons_of_mem _ (mem_of_minted hminted)⟩
      | accepted r => cases hd
      | invoked k f =>
        obtain rfl : k = h := Option.some.inj hd
        obtain ⟨purpose, -, hminted, -⟩ := of_waiting ho.2 ho.1
        exact ⟨purpose, List.mem_cons_of_mem _ hminted⟩
      | cancelled p =>
        obtain rfl : p.handle = h := Option.some.inj hd
        obtain ⟨purpose, hminted⟩ := ih ho.2 ho.1
        exact ⟨purpose, List.mem_cons_of_mem _ hminted⟩
    · rw [phase_cons_of_ne past hd] at hk
      obtain ⟨purpose, hminted⟩ := ih ho.2 hk
      exact ⟨purpose, List.mem_cons_of_mem _ hminted⟩

theorem known_of_minted {purpose : Purpose} (ho : Orderly js) (hm : .minted h purpose ∈ js) : phase h js ≠ .unknown :=
  fun hp => of_unknown ho hp hm rfl

theorem known_of_asked {p : Prompt} (ho : Orderly js) (hp : p ∈ asked js) : phase p.handle js ≠ .unknown := by
  obtain ⟨o, hm, -⟩ := mem_asked.mp hp
  exact ho.known_of_minted hm

theorem phase_append_of_waiting {later earlier : List Event} {f : Nat} (ho : Orderly (later ++ earlier))
    (hs : ∀ e ∈ later, e.IsOfScript) (hw : phase h earlier = .waiting f) :
    phase h (later ++ earlier) = .waiting f := by
  induction later with
  | nil => exact hw
  | cons e later ih =>
    have hrest := ih ho.2 fun d hd => hs d (List.mem_cons_of_mem e hd)
    have hne : e.handle? ≠ some h := by
      intro he
      -- A handle is minted when nothing is known of it, and takes a callback when it was just minted.
      cases e with
      | minted k =>
        obtain rfl : k = h := Option.some.inj he
        cases hrest.symm.trans ho.1
      | registered k g =>
        obtain rfl : k = h := Option.some.inj he
        obtain ⟨purpose, hminted, -⟩ := ho.1
        cases hrest.symm.trans hminted
      | accepted r => cases he
      | invoked | cancelled => exact hs _ List.mem_cons_self
    rw [List.cons_append, phase_cons_of_ne _ hne]
    exact hrest

theorem nodup_filterMap {handle : Event → Option Handle} (ho : Orderly js)
    (hfirst : ∀ past e k, Orderly past → e.MayFollow past → handle e = some k → ∀ d ∈ past, handle d ≠ some k) :
    (js.filterMap handle).Nodup := by
  induction js with
  | nil => exact .nil
  | cons e past ih =>
    cases he : handle e with
    | none =>
      rw [List.filterMap_cons_none he]
      exact ih ho.2
    | some k =>
      rw [List.filterMap_cons_some he, List.nodup_cons]
      refine ⟨fun hk => ?_, ih ho.2⟩
      obtain ⟨d, hd, hdk⟩ := List.mem_filterMap.mp hk
      exact hfirst past e k ho.2 ho.1 he d hd hdk

theorem minted_nodup (ho : Orderly js) : (js.filterMap Event.minted?).Nodup := by
  refine ho.nodup_filterMap fun past e k hpast hnext he d hd hdk => ?_
  cases e with
  | minted l =>
    obtain rfl : l = k := Option.some.inj he
    -- The handle was unknown until then, so that no event at all is about it.
    have hne := of_unknown hpast hnext hd
    cases d <;> simp_all [Event.minted?, Event.handle?]
  | registered | accepted | invoked | cancelled => cases he

theorem registered_nodup (ho : Orderly js) : (js.filterMap Event.registered?).Nodup := by
  refine ho.nodup_filterMap fun past e k hpast hnext he d hd hdk => ?_
  cases e with
  | registered l f =>
    obtain rfl : l = k := Option.some.inj he
    obtain ⟨purpose, hminted, -⟩ := hnext
    have honly := of_minted hpast hminted hd
    cases d <;> simp_all [Event.registered?, Event.handle?]
  | minted | accepted | invoked | cancelled => cases he

theorem invoked_nodup (ho : Orderly js) : (js.filterMap Event.invoked?).Nodup := by
  refine ho.nodup_filterMap fun past e k hpast hnext he d hd hdk => ?_
  cases e with
  | invoked l f =>
    obtain rfl : l = k := Option.some.inj he
    -- Its callback was waiting until then, and a handle whose callback waits has no call among its events.
    obtain ⟨purpose, -, -, -, hlast⟩ := of_waiting hpast hnext
    have hlast := hlast d hd
    cases d <;> simp_all [Event.invoked?, Event.handle?]
  | minted | registered | accepted | cancelled => cases he

theorem eq_of_handle_eq {handle : Event → Option Handle} (hnodup : (js.filterMap handle).Nodup) {d e : Event}
    (hd : d ∈ js) (he : e ∈ js) (hdh : handle d = some h) (heh : handle e = some h) : d = e := by
  have hsymmetric : Std.Symm fun d e => ∀ k, handle d = some k → ∀ l, handle e = some l → k ≠ l :=
    ⟨fun _ _ hkl k hk l hl => (hkl l hl k hk).symm⟩
  by_contra hne
  exact (List.pairwise_filterMap.mp hnodup).forall hd he hne h hdh h heh rfl

theorem of_registered {f g : Nat} (ho : Orderly js) (hf : .registered h f ∈ js) (hg : .registered h g ∈ js) : f = g :=
  (Event.registered.inj (eq_of_handle_eq ho.registered_nodup hf hg rfl rfl)).2

theorem of_invoked {f g : Nat} (ho : Orderly js) (hf : .registered h f ∈ js) (hg : .invoked h g ∈ js) : f = g := by
  obtain ⟨later, earlier, rfl⟩ := List.append_of_mem hg
  obtain ⟨-, -, -, hregistered, -⟩ := (of_append ho).2.of_waiting ho.mayFollow
  exact ho.of_registered hf (List.mem_append_right later (List.mem_cons_of_mem _ hregistered))

theorem purpose_unique {purpose purpose' : Purpose} (ho : Orderly js) (hm : .minted h purpose ∈ js)
    (hm' : .minted h purpose' ∈ js) : purpose = purpose' :=
  (Event.minted.inj (eq_of_handle_eq ho.minted_nodup hm hm' rfl rfl)).2

end Orderly

/-- Every prompt that was asked for with a function has had it registered. -/
def Settled (js : List Event) : Prop :=
  ∀ h o f, .minted h (.prompt o) ∈ js → o.callback = some f → .registered h f ∈ js

theorem Settled.append {later earlier : List Event} (hs : Settled earlier) (hl : ∀ e ∈ later, e.prompt? = none) :
    Settled (later ++ earlier) := by
  intro h o f hm hf
  rcases List.mem_append.mp hm with hm | hm
  · cases hl _ hm
  · exact List.mem_append_right later (hs h o f hm hf)

end Session
end Triage
