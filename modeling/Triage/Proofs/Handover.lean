import Triage.Proofs.HostSteps

/-! When the outbox is left empty. Whatever runs a binding or a callback ends by handing the requests over. A key that
is not handled does not, although scripts run while it is looked up: what they request then stays behind. -/

namespace Triage.Dispatch

open Script Session Command

variable {σ : Type} [Host σ] {self : Recur σ} {m m' : Machine σ} {cs : List Command}

omit [Host σ] in
theorem finish_outbox {c : Option Command} (h : finish c m = .done cs m') : m'.session.outbox = [] := by
  obtain ⟨-, rfl⟩ := Outcome.done.inj h
  rfl

theorem invoke_outbox {f : Nat} {args : List Value} (h : invoke self f args m = .done cs m') :
    m'.session.outbox = [] := by
  obtain ⟨vs?, m₁, -, h⟩ := Eval.bind_eq_done.mp h
  cases vs? with
  | none => exact finish_outbox h
  | some vs =>
    obtain ⟨ds, m₂, -, h⟩ := Eval.bind_eq_done.mp h
    exact finish_outbox h

theorem onStartup_outbox (h : onStartup self m = .done cs m') : m'.session.outbox = [] := by
  obtain ⟨globals, m₁, -, h⟩ := Eval.bind_eq_done.mp h
  obtain ⟨r, m₂, -, h⟩ := Eval.bind_eq_done.mp h
  split at h
  · obtain ⟨c, m₃, -, h⟩ := Eval.bind_eq_done.mp h
    exact finish_outbox h
  · exact finish_outbox h
  · obtain ⟨-, m₃, -, h⟩ := Eval.bind_eq_done.mp h
    exact finish_outbox h

theorem onKey_outbox {name : String} (h : onKey self name m = .done (.handled cs) m') : m'.session.outbox = [] := by
  obtain ⟨r, m₁, -, h⟩ := Eval.bind_eq_done.mp h
  split at h
  · cases h
  · obtain ⟨c, m₂, -, h⟩ := Eval.bind_eq_done.mp h
    obtain ⟨ds, m₃, hfinish, h⟩ := Eval.bind_eq_done.mp h
    obtain ⟨-, rfl⟩ := Outcome.done.inj h
    exact finish_outbox hfinish
  · obtain ⟨-, m₂, -, h⟩ := Eval.bind_eq_done.mp h
    cases h

/-- A key is not handled, though requests were made while it was looked up. -/
def Strands (m : Machine σ) (e : Entry) (m' : Machine σ) : Prop :=
  ∃ name, e = .key name ∧ enter m (fun self => onKey self name) = some (.unhandled, m') ∧
    accepted m'.session.journal ≠ accepted m.session.journal

def Rests (m m' : Machine σ) : Prop :=
  m'.session.outbox = m.session.outbox ∧ accepted m'.session.journal = accepted m.session.journal

omit [Host σ] in
theorem rests_prepare (e : Entry) (m : Machine σ) : Rests m { m with session := e.prepare m.session } := by
  obtain ⟨houtbox, -, first, hjournal, hnone, -⟩ := e.prepare_prepares m.session
  refine ⟨houtbox, ?_⟩
  change accepted (e.prepare m.session).journal = _
  rw [hjournal, accepted_append, hnone, List.append_nil]

theorem unhandled_outbox (hm : m.Sound) {name : String}
    (h : enter m (fun self => onKey self name) = some (.unhandled, m')) :
    ∃ stranded, m'.session.outbox = m.session.outbox ++ stranded ∧
      accepted m'.session.journal = accepted m.session.journal ++ stranded := by
  obtain ⟨-, hanswers⟩ := enter_eq_some h (onKey_answers (evaluate_confined fuel) name hm)
  obtain ⟨new, hjournal, -, hrequests⟩ := hanswers.events
  exact ⟨accepted new, hrequests.symm, by rw [hjournal, accepted_append]⟩

theorem Entry.strands_or_hands_over (hm : m.Sound) {e : Entry}
    (h : enter m (fun self => e.commands self) = some (cs, m')) :
    Strands m e m' ∨ m'.session.outbox = [] ∨ Rests m m' := by
  rw [enter_eq_some_iff] at h
  cases he : e.handle? m.session with
  | some k =>
    rw [Entry.commands_of_handle he] at h
    cases hk : m.session.callbacks.get? k with
    | some f =>
      rw [hk] at h
      obtain ⟨args, m₁, -, h⟩ := Eval.bind_eq_done.mp h
      exact .inr (.inl (invoke_outbox h))
    | none =>
      rw [hk] at h
      obtain ⟨-, rfl⟩ := Outcome.done.inj h
      exact .inr (.inr (rests_prepare e m))
  | none =>
    cases e with
    | startup => exact .inr (.inl (onStartup_outbox h))
    | key name =>
      obtain ⟨answer, m₁, hkey, h⟩ := Eval.bind_eq_done.mp h
      obtain ⟨-, rfl⟩ := Outcome.done.inj h
      cases answer with
      | handled ds => exact .inr (.inl (onKey_outbox hkey))
      | unhandled =>
        have hunhandled : enter m (fun self => onKey self name) = some (.unhandled, m₁) := enter_eq_some_iff.mpr hkey
        obtain ⟨stranded, houtbox, haccepted⟩ := unhandled_outbox hm hunhandled
        cases stranded with
        | nil => exact .inr (.inr ⟨houtbox.trans (List.append_nil _), haccepted.trans (List.append_nil _)⟩)
        | cons r rs => exact .inl ⟨name, rfl, hunhandled, by simp [haccepted]⟩
    | submit text =>
      rw [Entry.commands_submit_of_none text (Option.map_eq_none_iff.mp he)] at h
      obtain ⟨-, rfl⟩ := Outcome.done.inj h
      exact .inr (.inr ⟨rfl, rfl⟩)
    | cancel =>
      rw [Entry.commands_cancel] at h
      obtain ⟨-, rfl⟩ := Outcome.done.inj h
      exact .inr (.inr (rests_prepare .cancel m))
    | resolve | finished => simp [Entry.handle?] at he

theorem Entry.outbox_eq_nil_iff (hm : m.Sound) (hempty : m.session.outbox = []) {e : Entry}
    (h : enter m (fun self => e.commands self) = some (cs, m')) : m'.session.outbox = [] ↔ ¬ Strands m e m' := by
  constructor
  · rintro hdrained ⟨name, rfl, hunhandled, hmade⟩
    obtain ⟨stranded, houtbox, haccepted⟩ := unhandled_outbox hm hunhandled
    obtain ⟨-, rfl⟩ := List.append_eq_nil_iff.mp (houtbox.symm.trans hdrained)
    exact hmade (haccepted.trans (List.append_nil _))
  · intro hnot
    rcases Entry.strands_or_hands_over hm h with hstrands | hdrained | hrests
    · exact absurd hstrands hnot
    · exact hdrained
    · exact hrests.1.trans hempty

def Throughout (P : Machine σ → Entry → Machine σ → Prop) (m : Machine σ) : List Entry → Prop
  | [] => True
  | e :: es => ∀ cs m', enter m (fun self => e.commands self) = some (cs, m') → P m e m' ∧ Throughout P m' es

theorem Throughout.last {P : Machine σ → Prop} {es : List Entry} {css : List (List Command)} {e : Entry}
    (h : Throughout (fun _ _ m' => P m') m (e :: es)) (hrun : enterAll m (e :: es) = some (css, m')) : P m' := by
  induction es generalizing m css e with
  | nil =>
    obtain ⟨⟨cs, m₁⟩, hfirst, hrest⟩ := Option.bind_eq_some_iff.mp hrun
    obtain ⟨-, rfl⟩ := Prod.mk.inj (Option.some.inj hrest)
    exact (h cs m₁ hfirst).1
  | cons next es ih =>
    obtain ⟨⟨cs, m₁⟩, hfirst, hrest⟩ := Option.bind_eq_some_iff.mp hrun
    obtain ⟨⟨css₁, m₂⟩, hafter, hend⟩ := Option.bind_eq_some_iff.mp hrest
    obtain ⟨-, rfl⟩ := Prod.mk.inj (Option.some.inj hend)
    exact ih (h cs m₁ hfirst).2 hafter

def Drains (_ : Machine σ) (_ : Entry) (m' : Machine σ) : Prop := m'.session.outbox = []

theorem throughout_of_step {P : Machine σ → Entry → Machine σ → Prop}
    (hstep : ∀ m e cs m', m.Sound → enter m (fun self => Entry.commands self e) = some (cs, m') → P m e m')
    (hm : m.Sound) (es : List Entry) : Throughout P m es := by
  induction es generalizing m with
  | nil => trivial
  | cons e es ih =>
    intro cs m' hfirst
    exact ⟨hstep m e cs m' hm hfirst, ih (enter_eq_some hfirst (Entry.answers (evaluate_confined fuel) e hm)).1⟩

theorem throughout_drains_iff (hm : m.Sound) (hempty : m.session.outbox = []) (es : List Entry) :
    Throughout Drains m es ↔ Throughout (fun m e m' => ¬ Strands m e m') m es := by
  induction es generalizing m with
  | nil => exact Iff.rfl
  | cons e es ih =>
    refine forall_congr' fun cs => forall_congr' fun m' => forall_congr' fun hfirst => ?_
    have hsound : m'.Sound := (enter_eq_some hfirst (Entry.answers (evaluate_confined fuel) e hm)).1
    have hstep := Entry.outbox_eq_nil_iff hm hempty hfirst
    constructor
    · rintro ⟨hdrained, hrest⟩
      exact ⟨hstep.mp hdrained, (ih hsound hdrained).mp hrest⟩
    · rintro ⟨hnot, hrest⟩
      have hdrained := hstep.mpr hnot
      exact ⟨hdrained, (ih hsound hdrained).mpr hrest⟩

variable {host : σ} {s : Source}

/-- From the startup hook on, every entry call leaves the outbox empty if and only if no key is looked up in vain while
requests are made. Any other entry call hands all requests over, or makes none. -/
theorem run_drains_iff (hload : load host s = some (.ok (), m)) (es : List Entry) :
    (Throughout Drains m (.startup :: es) ↔ Throughout (fun m e m' => ¬ Strands m e m') m (.startup :: es)) ∧
      Throughout (fun m e m' => Strands m e m' ∨ Drains m e m' ∨ Rests m m') m (.startup :: es) := by
  have hm := (reached_of_load hload).sound
  refine ⟨?_, throughout_of_step (fun _ _ _ _ hm h => Entry.strands_or_hands_over hm h) hm _⟩
  -- What the script requested while it was loaded is handed over by the startup hook.
  refine forall_congr' fun cs => forall_congr' fun m' => forall_congr' fun hfirst => ?_
  have hsound : m'.Sound := (enter_eq_some hfirst (Entry.answers (evaluate_confined fuel) .startup hm)).1
  have hdrained : m'.session.outbox = [] := onStartup_outbox (enter_eq_some_iff.mp hfirst)
  have hnot : ¬ Strands m .startup m' := by
    rintro ⟨name, hkey, -⟩
    cases hkey
  rw [throughout_drains_iff hsound hdrained es]
  exact and_congr_left fun _ => iff_of_true hdrained hnot

def stranding : Source where
  name := "strand.lua"
  text := "local sync, found = table.pack('true'), table.pack()
    found.__index = function() glance.spawn(sync) end
    setmetatable(key, found)"

theorem run_stranding :
    ∃ m css m', load ({} : MemoryHost) stranding = some (.ok (), m) ∧
      enterAll m [.startup, .key "x"] = some (css, m') ∧ m'.session.outbox ≠ [] := by
  have houtbox : (run ({} : MemoryHost) stranding [.startup, .key "x"]).map (·.2.session.outbox.length) = some 1 := by
    decide +kernel
  obtain ⟨⟨css, m'⟩, hrun, hlength⟩ := Option.map_eq_some_iff.mp houtbox
  obtain ⟨m, hload, hall⟩ := load_of_run hrun
  exact ⟨m, css, m', hload, hall, List.ne_nil_of_length_eq_add_one hlength⟩

theorem run_drains_iff_stranding :
    ∃ m, load ({} : MemoryHost) stranding = some (.ok (), m) ∧
      ¬ Throughout (fun m e m' => ¬ Strands m e m') m [.startup, .key "x"] := by
  obtain ⟨m, css, m', hload, hall, hleft⟩ := run_stranding
  exact ⟨m, hload, fun hnone => hleft (((run_drains_iff hload [.key "x"]).1.mpr hnone).last hall)⟩

/-- The request is made by a key that is not handled, and is still there after it. -/
theorem stranding_not_drains :
    ∃ m, load ({} : MemoryHost) stranding = some (.ok (), m) ∧ ¬ Throughout Drains m [.startup, .key "x"] := by
  obtain ⟨m, css, m', hload, hall, hleft⟩ := run_stranding
  exact ⟨m, hload, fun hdrains => hleft (hdrains.last hall)⟩

end Triage.Dispatch
