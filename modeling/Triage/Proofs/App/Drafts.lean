import Triage.Proofs.App.Reactions
import Triage.Proofs.Recall

/-! Recalled entries. The draft is the entry under the history cursor of the prompt that is shown: it goes when a
prompt is opened or closed, and nothing else changes the shown prompt or moves a cursor without it. -/

namespace Triage.App

open Dispatch
open Script (Machine)

/-- The draft, the history and the prompt that is shown agree. -/
structure InStep (app : App) : Prop where
  history : app.state.history.Sound
  draft : ∀ e, app.state.draft = some e →
    ∃ p, app.prompt? = some p ∧ (app.state.history.recallOf p.label).get? = some e

namespace InStep

variable {app app' : App}

theorem congr (h : app.InStep) (hscript : app.SameScript app') (hhistory : app'.state.history = app.state.history)
    (hdraft : app'.state.draft = app.state.draft) : app'.InStep where
  history := hhistory ▸ h.history
  draft e he := by
    obtain ⟨p, hp, hentry⟩ := h.draft e (hdraft ▸ he)
    exact ⟨p, (congrArg (·.prompts.top?) hscript.2).trans hp, hhistory ▸ hentry⟩

theorem draft_of_none (h : app.InStep) (hp : app.prompt? = none) : app.state.draft = none := by
  cases hdraft : app.state.draft with
  | none => rfl
  | some e =>
    obtain ⟨p, hsome, -⟩ := h.draft e hdraft
    rw [hp] at hsome
    cases hsome

theorem of_none (hhistory : app.state.history.Sound) (hdraft : app.state.draft = none) : app.InStep where
  history := hhistory
  draft e he := by
    rw [hdraft] at he
    cases he

end InStep

theorem execute_history_sound (app : App) (cs : List Command) (h : app.state.history.Sound) :
    (app.execute cs).state.history.Sound := by
  refine execute_relates (R := fun app app' => app.state.history.Sound → app'.state.history.Sound) (fun _ h => h)
    (fun h₁ h₂ h => h₂ (h₁ h)) (fun app c h => ?_) app cs h
  cases c with
  | openInput label => exact h.reset label
  | _ => exact h

theorem execute_draft {app : App} {cs : List Command} {e : String} (h : (app.execute cs).state.draft = some e) :
    (Command.leavesOf cs).filterMap Command.prompt? = [] ∧ app.state.draft = some e ∧
      (app.execute cs).state.history = app.state.history := by
  unfold execute at h ⊢
  generalize Command.leavesOf cs = leaves at h ⊢
  induction leaves generalizing app with
  | nil => exact ⟨rfl, h, rfl⟩
  | cons c rest ih =>
    obtain ⟨hrest, hdraft, hhistory⟩ := ih h
    have hleaf : c.prompt? = none ∧ app.state.draft = some e ∧
        (app.executeLeaf c).state.history = app.state.history := by
      cases c with
      | openInput => cases hdraft
      | _ => exact ⟨rfl, hdraft, rfl⟩
    exact ⟨(List.filterMap_cons_none hleaf.1).trans hrest, hleaf.2.1, hhistory.trans hleaf.2.2⟩

theorem InStep.executed {app : App} {e : Dispatch.Entry} {cs : List Command} {m : Machine Desk} (h : app.InStep)
    (hserved : Served app e cs m)
    (hleft : app.state.draft = none ∨
      e.leftOpen app.machine.session.prompts.stack = app.machine.session.prompts.stack) :
    (execute { app with machine := m } cs).InStep where
  history := execute_history_sound { app with machine := m } cs (hserved.serves.history ▸ h.history)
  draft text htext := by
    obtain ⟨hnone, hkept, hhistory⟩ := execute_draft htext
    have hdraft : app.state.draft = some text := hserved.serves.draft.symm.trans hkept
    obtain ⟨p, hp, hentry⟩ := h.draft text hdraft
    have hopen : e.leftOpen app.machine.session.prompts.stack = app.machine.session.prompts.stack :=
      hleft.resolve_left fun hno => by rw [hno] at hdraft; cases hdraft
    have hstack : m.session.prompts.stack = app.machine.session.prompts.stack := by
      rw [hserved.answers.prompts, hnone, (e.prepare_prepares app.machine.session).prompts, hopen, List.reverse_nil,
        List.nil_append]
    have hshown : (execute { app with machine := m } cs).prompt? = app.prompt? :=
      (congrArg (·.prompts.top?) (execute_sameScript { app with machine := m } cs).2).trans
        (congrArg List.head? hstack)
    refine ⟨p, hshown.trans hp, ?_⟩
    rw [hhistory]
    exact (congrArg (fun h : History => (h.recallOf p.label).get?) hserved.serves.history).trans hentry

theorem InStep.recordInput {app : App} (h : app.InStep) (text : String) :
    (app.recordInput text).InStep ∧ (app.recordInput text).state.draft = none := by
  unfold App.recordInput
  cases hp : app.prompt? with
  | some p => exact ⟨.of_none (h.history.add p.label text) rfl, rfl⟩
  | none => exact ⟨h, h.draft_of_none hp⟩

theorem InStep.closeInput {app : App} (h : app.InStep) : app.closeInput.InStep := by
  unfold App.closeInput
  cases hp : app.prompt? with
  | some p => exact .of_none (h.history.reset p.label) rfl
  | none => exact .of_none h.history (h.draft_of_none hp)

theorem InStep.historyPrevious {app : App} (h : app.InStep) : app.historyPrevious.InStep := by
  unfold App.historyPrevious
  cases hp : app.prompt? with
  | none => exact h
  | some p =>
    refine ⟨h.history.previous p.label, fun e he => ⟨p, hp, ?_⟩⟩
    have hdraft (e : String) (he : app.state.draft = some e) : (app.state.history.recallOf p.label).get? = some e := by
      obtain ⟨p', hp', hentry⟩ := h.draft e he
      obtain rfl : p = p' := Option.some.inj (hp.symm.trans hp')
      exact hentry
    have hmoved := Recall.get?_previous hdraft he
    exact (congrArg Recall.get? (History.recallOf_setRecall_self ..)).trans hmoved

theorem InStep.historyNext {app : App} (h : app.InStep) : app.historyNext.InStep := by
  unfold App.historyNext
  cases hp : app.prompt? with
  | none => exact h
  | some p =>
    refine ⟨h.history.next p.label, fun e he => ⟨p, hp, ?_⟩⟩
    exact (congrArg Recall.get? (History.recallOf_setRecall_self ..)).trans he

theorem defaultKey_keeps (app : App) (name : String) :
    (app.defaultKey name).state.history = app.state.history ∧ (app.defaultKey name).state.draft = app.state.draft := by
  unfold defaultKey
  split <;> exact ⟨rfl, rfl⟩

theorem Follows.inStep {app app' : App} {s : Stimulus} (hf : app.Follows s app') (h : app.InStep) : app'.InStep := by
  cases hf with
  | started hserved => exact (h.executed hserved (.inr rfl)).congr ⟨rfl, rfl⟩ rfl rfl
  | handled hserved | spawnFinished hserved => exact h.executed hserved (.inr rfl)
  | @unhandled name m hserved =>
    obtain ⟨hhistory, hdraft⟩ := defaultKey_keeps { app with machine := m } name
    exact (h.executed hserved (.inr rfl)).congr (defaultKey_sameScript _ name) hhistory hdraft
  | @submitted text cs m hserved =>
    obtain ⟨hrecorded, hnone⟩ := h.recordInput text
    exact hrecorded.executed hserved (.inl hnone)
  | cancelled => exact h.closeInput
  | wentBack => exact h.historyPrevious
  | wentForward => exact h.historyNext
  | inputClosed => exact h.congr ⟨rfl, rfl⟩ rfl rfl
  | searchFinished query result row =>
    unfold App.searchFinished
    split
    · cases result <;> exact h.congr ⟨rfl, rfl⟩ rfl rfl
    · exact h

theorem run_inStep {app app' : App} {told : List (Moment × Stimulus)} (hm : app.machine.Sound) (h : app.InStep)
    (hrun : app.run told = some app') : app'.InStep := by
  have hkept := run_keeps (P := fun app => app.machine.Sound ∧ app.InStep) ?_ ⟨hm, h⟩ hrun
  · exact hkept.2
  · rintro app m s app' ⟨hm, h⟩ hreact
    have hduring := during_sound hm m
    have hfollows := follows_of_react hduring hreact
    exact ⟨hfollows.sound hduring, hfollows.inStep (h.congr ⟨rfl, rfl⟩ rfl rfl)⟩

variable {queries : List SearchQuery} {index : Index.Client} {script : Script.Source} {now : Instant} {clock : Clock}
    {created app : App}
  {told : List (Moment × Stimulus)}

/-- A draft is the entry under the cursor of the shown prompt, and there is none without a prompt. So an empty line
cancels the shown prompt or submits an entry of its own history. -/
theorem run_draft (hcreate : create queries index script now clock = some (.ok created))
    (hrun : created.run told = some app) :
    (∀ e, app.state.draft = some e → ∃ p, app.prompt? = some p ∧ e ≠ "" ∧
      (app.state.history.recallOf p.label).get? = some e) ∧
    (app.prompt? = none → app.state.draft = none) ∧
    ∀ p, app.prompt? = some p → app.lineEvent "" = .cancel ∨
      ∃ e, app.lineEvent "" = .submit e ∧ e ≠ "" ∧ (app.state.history.recallOf p.label).get? = some e := by
  obtain ⟨hsound, hcreated, -⟩ := served_of_create hcreate
  have hstep : app.InStep := by
    refine run_inStep hsound (.of_none ?_ hcreated.draft) hrun
    exact hcreated.history ▸ History.sound_default
  have hfits (e : String) (he : app.state.draft = some e) : ∃ p, app.prompt? = some p ∧ e ≠ "" ∧
      (app.state.history.recallOf p.label).get? = some e := by
    obtain ⟨p, hp, hentry⟩ := hstep.draft e he
    exact ⟨p, hp, (hstep.history p.label).ne_empty hentry, hentry⟩
  refine ⟨hfits, hstep.draft_of_none, fun p hp => ?_⟩
  have hline : app.lineEvent "" = app.state.draft.elim .cancel .submit := by
    rw [lineEvent, hp]
    rfl
  cases hdraft : app.state.draft with
  | none => exact .inl (by rw [hline, hdraft]; rfl)
  | some e =>
    obtain ⟨p', hp', hentry⟩ := hfits e hdraft
    obtain rfl : p = p' := Option.some.inj (hp.symm.trans hp')
    exact .inr ⟨e, by rw [hline, hdraft]; rfl, hentry⟩

def prompting : Script.Source where
  name := "prompt.lua"
  text := "key.t = function() local tag = table.pack() tag.prompt = 'Tag' return glance.input(tag) end"

def recalling : List (Moment × Stimulus) :=
  [.start, .event (.key "t"), .event (.submit "old"), .event (.key "t"), .event .historyPrevious].map (quiet, ·)

theorem run_draft_prompting :
    ∃ created app, create [] quiet.index prompting 0 = some (.ok created) ∧ created.run recalling = some app ∧
      app.state.draft = some "old" ∧
      ∃ p, app.prompt? = some p ∧ "old" ≠ "" ∧ (app.state.history.recallOf p.label).get? = some "old" := by
  have hrecalled : ((create [] quiet.index prompting 0).bind fun made => made.toOption.bind fun created =>
      (created.run recalling).map (·.state.draft)) = some (some "old") := by
    decide +kernel
  obtain ⟨created, hcreate, hrun⟩ := created_of_bind hrecalled
  obtain ⟨app, hrun, hdraft⟩ := Option.map_eq_some_iff.mp hrun
  exact ⟨created, app, hcreate, hrun, hdraft, (run_draft hcreate hrun).1 "old" hdraft⟩

end Triage.App
