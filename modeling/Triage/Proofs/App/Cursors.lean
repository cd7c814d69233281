import Mathlib.Data.List.Induction
import Triage.Proofs.App.Drafts

/-! Where the history cursors stand. A prompt that is shown without a draft begins at the newest entry of its label,
unless an entry was recalled for the label before and then given up without the cursor being moved. -/

namespace Triage.App

open Dispatch
open Script (Machine)

abbrev recallOf (app : App) (label : String) : Recall := app.state.history.recallOf label

def Recalls (app : App) (label : String) : Prop :=
  app.state.draft ≠ none ∧ ∃ p, app.prompt? = some p ∧ p.label = label

/-- A recalled entry is given up and the cursor stays at it: the prompt is answered with an empty text, or others are
opened above it. -/
structure Abandons (app : App) (s : Stimulus) (app' : App) (label : String) : Prop where
  recalled : app.Recalls label
  kept : app'.recallOf label = app.recallOf label
  cause : s = .event (.submit "") ∨
    ∃ opened, opened ≠ [] ∧ app'.machine.session.prompts.stack = opened ++ app.machine.session.prompts.stack

/-- Where the cursor of a label is left by a stimulus. -/
inductive Places (app : App) (s : Stimulus) (app' : App) (label : String) : Prop
  | atEnd : (app'.recallOf label).AtEnd → Places app s app' label
  | recalled : app'.Recalls label → Places app s app' label
  | kept : app'.recallOf label = app.recallOf label → (app.Recalls label → app.Abandons s app' label) →
    Places app s app' label

variable {app app' app'' : App} {s : Stimulus} {label : String}

theorem Recalls.congr (h : app.Recalls label) (hprompt : app'.prompt? = app.prompt?)
    (hdraft : app'.state.draft = app.state.draft) : app'.Recalls label := by
  obtain ⟨hsome, p, hp, hlabel⟩ := h
  exact ⟨hdraft ▸ hsome, p, hprompt.trans hp, hlabel⟩

theorem Recalls.eq_label (h : app.Recalls label) {p : Prompt} (hp : app.prompt? = some p) : p.label = label := by
  obtain ⟨-, p', hp', hlabel⟩ := h
  obtain rfl := Option.some.inj (hp.symm.trans hp')
  exact hlabel

theorem not_recalls_of_none (hp : app.prompt? = none) : ¬ app.Recalls label := by
  rintro ⟨-, p, hp', -⟩
  rw [hp] at hp'
  cases hp'

theorem Recalls.lt_length (h : app.Recalls label) (hi : app.InStep) :
    (app.recallOf label).cursor < (app.recallOf label).entries.length := by
  obtain ⟨e, he⟩ := Option.ne_none_iff_exists'.mp h.1
  obtain ⟨p, hp, hentry⟩ := hi.draft e he
  obtain rfl := h.eq_label hp
  exact Recall.lt_length_of_get? hentry

theorem Places.of_eq (hrecall : app'.recallOf label = app.recallOf label) (hprompt : app'.prompt? = app.prompt?)
    (hdraft : app'.state.draft = app.state.draft) : app.Places s app' label := by
  by_cases h : app.Recalls label
  · exact .recalled (h.congr hprompt hdraft)
  · exact .kept hrecall fun hr => absurd hr h

theorem Places.congr (h : app.Places s app' label) (hscript : app'.SameScript app'')
    (hhistory : app''.state.history = app'.state.history) (hdraft : app''.state.draft = app'.state.draft) :
    app.Places s app'' label := by
  have hrecall : app''.recallOf label = app'.recallOf label := congrArg (History.recallOf · label) hhistory
  cases h with
  | atEnd hend => exact .atEnd (hrecall ▸ hend)
  | recalled hr => exact .recalled (hr.congr (congrArg (·.prompts.top?) hscript.2) hdraft)
  | kept hkept habandons =>
    refine .kept (hrecall.trans hkept) fun hr => ⟨hr, hrecall.trans hkept, ?_⟩
    rw [hscript.2]
    exact (habandons hr).cause

theorem execute_recallOf (app : App) (cs : List Command) (label : String) :
    ((app.execute cs).recallOf label).AtEnd ∨ (app.execute cs).recallOf label = app.recallOf label := by
  refine execute_relates (R := fun app app' => (app'.recallOf label).AtEnd ∨ app'.recallOf label = app.recallOf label)
    (fun _ => .inr rfl) (fun h₁ h₂ => ?_) (fun app c => ?_) app cs
  · rcases h₂ with hend | hkept
    · exact .inl hend
    · rw [hkept]
      exact h₁
  · cases c with
    | openInput opened =>
      by_cases hlabel : label = opened
      · subst hlabel
        refine .inl ?_
        change ((app.state.history.reset label).recallOf label).AtEnd
        rw [History.reset, History.recallOf_setRecall_self]
        exact Recall.atEnd_reset _
      · exact .inr (History.recallOf_setRecall_of_ne _ hlabel _)
    | _ => exact .inr rfl

theorem execute_draft_of_no_prompt {cs : List Command} (h : (Command.leavesOf cs).filterMap Command.prompt? = []) :
    (app.execute cs).state.draft = app.state.draft := by
  unfold execute
  generalize Command.leavesOf cs = leaves at h ⊢
  induction leaves generalizing app with
  | nil => rfl
  | cons c rest ih =>
    cases c with
    | openInput => cases h
    | _ => exact ih h

theorem Served.places {e : Dispatch.Entry} {cs : List Command} {m : Machine Desk} (h : Served app e cs m)
    (hopen : e.leftOpen app.machine.session.prompts.stack = app.machine.session.prompts.stack) :
    app.Places s (execute { app with machine := m } cs) label := by
  rcases execute_recallOf { app with machine := m } cs label with hend | hkept
  · exact .atEnd hend
  have hrecall : (execute { app with machine := m } cs).recallOf label = app.recallOf label :=
    hkept.trans (congrArg (History.recallOf · label) h.serves.history)
  have hstack : (execute { app with machine := m } cs).machine.session.prompts.stack =
      ((Command.leavesOf cs).filterMap Command.prompt?).reverse ++ app.machine.session.prompts.stack := by
    rw [(execute_sameScript _ cs).2, h.answers.prompts, (e.prepare_prepares _).prompts, hopen]
  cases hopened : (Command.leavesOf cs).filterMap Command.prompt? with
  | nil =>
    rw [hopened] at hstack
    refine .of_eq hrecall (congrArg List.head? hstack) ?_
    exact (execute_draft_of_no_prompt hopened).trans h.serves.draft
  | cons p ps =>
    refine .kept hrecall fun hr => ⟨hr, hrecall, .inr ⟨_, ?_, hstack⟩⟩
    rw [hopened]
    simp

theorem recordInput_recallOf (app : App) (text label : String) :
    ((app.recordInput text).recallOf label).AtEnd ∨
      (app.recordInput text).recallOf label = app.recallOf label ∧ (app.Recalls label → text = "") := by
  unfold recordInput
  cases hp : app.prompt? with
  | none => exact .inr ⟨rfl, fun h => absurd h (not_recalls_of_none hp)⟩
  | some p =>
    change ((app.state.history.add p.label text).recallOf label).AtEnd ∨
      (app.state.history.add p.label text).recallOf label = _ ∧ _
    rw [History.add, History.recallOf_setRecall]
    by_cases hlabel : label = p.label
    · subst hlabel
      rw [if_pos rfl]
      by_cases htext : text = ""
      · subst htext
        exact .inr ⟨Recall.add_empty _, fun _ => rfl⟩
      · exact .inl (Recall.atEnd_add htext)
    · rw [if_neg hlabel]
      exact .inr ⟨rfl, fun h => absurd (h.eq_label hp).symm hlabel⟩

theorem closeInput_places : app.Places s app.closeInput label := by
  unfold closeInput
  cases hp : app.prompt? with
  | none => exact .kept rfl fun h => absurd h (not_recalls_of_none hp)
  | some p =>
    by_cases hlabel : label = p.label
    · subst hlabel
      refine .atEnd ?_
      change ((app.state.history.reset p.label).recallOf p.label).AtEnd
      rw [History.reset, History.recallOf_setRecall_self]
      exact Recall.atEnd_reset _
    · exact .kept (History.recallOf_setRecall_of_ne _ hlabel _) fun h => absurd (h.eq_label hp).symm hlabel

theorem historyPrevious_places (hle : (app.recallOf label).cursor ≤ (app.recallOf label).entries.length) :
    app.Places s app.historyPrevious label := by
  unfold historyPrevious
  cases hp : app.prompt? with
  | none => exact .of_eq rfl rfl rfl
  | some p =>
    by_cases hlabel : label = p.label
    · subst hlabel
      rcases Recall.previous_of_le hle with hstuck | ⟨e, he⟩
      · -- At the oldest entry neither the cursor nor the draft changes.
        refine .of_eq ?_ rfl ?_
        · exact (History.recallOf_setRecall_self ..).trans (congrArg Prod.snd hstuck)
        · exact congrArg (Option.or · app.state.draft) (congrArg Prod.fst hstuck)
      · refine .recalled ⟨?_, p, hp, rfl⟩
        change (app.recallOf p.label).previous.1.or app.state.draft ≠ none
        rw [he, Option.some_or]
        exact Option.some_ne_none e
    · exact .kept (History.recallOf_setRecall_of_ne _ hlabel _) fun h => absurd (h.eq_label hp).symm hlabel

theorem historyNext_places : app.Places s app.historyNext label := by
  unfold historyNext
  cases hp : app.prompt? with
  | none => exact .of_eq rfl rfl rfl
  | some p =>
    by_cases hlabel : label = p.label
    · subst hlabel
      rcases (app.recallOf p.label).next_cases with hend | ⟨e, he⟩
      · refine .atEnd ?_
        change ((app.state.history.next p.label).2.recallOf p.label).AtEnd
        rw [History.next, History.recallOf_setRecall_self]
        exact hend
      · refine .recalled ⟨?_, p, hp, rfl⟩
        change (app.recallOf p.label).next.1 ≠ none
        rw [he]
        exact Option.some_ne_none e
    · exact .kept (History.recallOf_setRecall_of_ne _ hlabel _) fun h => absurd (h.eq_label hp).symm hlabel

theorem Served.submitted_places {text : String} {cs : List Command} {m : Machine Desk}
    (h : Served (app.recordInput text) (.submit text) cs m) :
    app.Places (.event (.submit text)) (execute { app.recordInput text with machine := m } cs) label := by
  rcases execute_recallOf { app.recordInput text with machine := m } cs label with hend | hkept
  · exact .atEnd hend
  have hrecall : (execute { app.recordInput text with machine := m } cs).recallOf label =
      (app.recordInput text).recallOf label := hkept.trans (congrArg (History.recallOf · label) h.serves.history)
  rcases app.recordInput_recallOf text label with hend | ⟨hsame, htext⟩
  · exact .atEnd (hrecall ▸ hend)
  · refine .kept (hrecall.trans hsame) fun hr => ⟨hr, hrecall.trans hsame, .inl ?_⟩
    rw [htext hr]

theorem Follows.places (hf : app.Follows s app')
    (hle : (app.recallOf label).cursor ≤ (app.recallOf label).entries.length) : app.Places s app' label := by
  cases hf with
  | started hserved => exact (hserved.places rfl).congr ⟨rfl, rfl⟩ rfl rfl
  | handled hserved | spawnFinished hserved => exact hserved.places rfl
  | @unhandled name m hserved =>
    obtain ⟨hhistory, hdraft⟩ := defaultKey_keeps { app with machine := m } name
    exact (hserved.places rfl).congr (defaultKey_sameScript _ name) hhistory hdraft
  | submitted hserved => exact hserved.submitted_places
  | cancelled => exact closeInput_places
  | wentBack => exact historyPrevious_places hle
  | wentForward => exact historyNext_places
  | inputClosed => exact .of_eq rfl rfl rfl
  | searchFinished query result row =>
    unfold App.searchFinished
    split
    · cases result <;> exact .of_eq rfl rfl rfl
    · exact .of_eq rfl rfl rfl

/-- An entry that was recalled for a label was given up, and its cursor has not moved since. -/
def LeftBehind (created : App) (told : List (Moment × Stimulus)) (app : App) (label : String) : Prop :=
  ∃ before m s after a b, told = before ++ (m, s) :: after ∧ created.run before = some a ∧
    (a.during m).react s = some b ∧ (a.during m).Abandons s b label ∧ app.recallOf label = b.recallOf label

variable {created : App} {told : List (Moment × Stimulus)}

theorem LeftBehind.mono (h : LeftBehind created told app label) (hkept : app'.recallOf label = app.recallOf label)
    (more : List (Moment × Stimulus)) : LeftBehind created (told ++ more) app' label := by
  obtain ⟨before, m, s, after, a, b, rfl, hrun, hreact, habandons, hrecall⟩ := h
  exact ⟨before, m, s, after ++ more, a, b, by simp, hrun, hreact, habandons, hkept.trans hrecall⟩

theorem LeftBehind.lt_length (h : LeftBehind created told app label) (hm : created.machine.Sound)
    (hi : created.InStep) : (app.recallOf label).cursor < (app.recallOf label).entries.length := by
  obtain ⟨before, m, s, after, a, b, -, hrun, -, habandons, hrecall⟩ := h
  have hstep : (a.during m).InStep := (run_inStep hm hi hrun).congr ⟨rfl, rfl⟩ rfl rfl
  rw [hrecall, habandons.kept]
  exact habandons.recalled.lt_length hstep

theorem run_cursor (hm : created.machine.Sound) (hi : created.InStep) (hend : ∀ label, (created.recallOf label).AtEnd)
    (hrun : created.run told = some app) (label : String) :
    (app.recallOf label).AtEnd ∨ app.Recalls label ∨ LeftBehind created told app label := by
  induction told using List.reverseRecOn generalizing app with
  | nil =>
    obtain rfl := Option.some.inj hrun
    exact .inl (hend label)
  | append_singleton told last ih =>
    obtain ⟨m, s⟩ := last
    rw [run_append] at hrun
    obtain ⟨a, ha, hrun⟩ := Option.bind_eq_some_iff.mp hrun
    obtain ⟨b, hreact, hb⟩ := Option.bind_eq_some_iff.mp hrun
    obtain rfl := Option.some.inj hb
    have hle : (a.recallOf label).cursor ≤ (a.recallOf label).entries.length := by
      rcases ih ha with hend | hrecalls | hleft
      · exact Nat.le_of_eq hend
      · exact Nat.le_of_lt (hrecalls.lt_length (run_inStep hm hi ha))
      · exact Nat.le_of_lt (hleft.lt_length hm hi)
    have hduring := during_sound (run_sound hm ha) m
    have hplaces : (a.during m).Places s b label := (follows_of_react hduring hreact).places hle
    cases hplaces with
    | atEnd hend => exact .inl hend
    | recalled hrecalls => exact .inr (.inl hrecalls)
    | kept hkept habandons =>
      rcases ih ha with hend | hrecalls | hleft
      · exact .inl (hkept ▸ hend)
      · have habandoned := habandons (hrecalls.congr rfl rfl)
        exact .inr (.inr ⟨told, m, s, [], a, b, rfl, ha, hreact, habandoned, rfl⟩)
      · exact .inr (.inr (hleft.mono hkept _))

def submitted? (app : App) (label : String) : Stimulus → Option String
  | .event (.submit text) => app.prompt?.bind fun p => if p.label = label ∧ text ≠ "" then some text else none
  | _ => none

def lastSubmitted (app : App) (label : String) (last : Option String) : List (Moment × Stimulus) → Option String
  | [] => last
  | (m, s) :: rest =>
    match (app.during m).react s with
    | some app' => lastSubmitted app' label ((app.submitted? label s).or last) rest
    | none => last

theorem execute_last? (app : App) (cs : List Command) (label : String) :
    ((app.execute cs).recallOf label).last? = (app.recallOf label).last? := by
  refine execute_relates (R := fun app app' => (app'.recallOf label).last? = (app.recallOf label).last?)
    (fun _ => rfl) (fun h₁ h₂ => h₂.trans h₁) (fun app c => ?_) app cs
  cases c with
  | openInput opened => exact History.last?_setRecall (Recall.last?_reset (app.recallOf opened)) label
  | _ => rfl

theorem Served.last? {e : Dispatch.Entry} {cs : List Command} {m : Machine Desk} (h : Served app e cs m)
    (label : String) : ((execute { app with machine := m } cs).recallOf label).last? = (app.recallOf label).last? :=
  (execute_last? _ cs label).trans (congrArg (fun h => (History.recallOf h label).last?) h.serves.history)

theorem recordInput_last? (app : App) (text label : String) :
    ((app.recordInput text).recallOf label).last? =
      (app.submitted? label (.event (.submit text))).or (app.recallOf label).last? := by
  unfold recordInput submitted?
  cases app.prompt? with
  | none => rfl
  | some p =>
    change ((app.state.history.add p.label text).recallOf label).last? =
      Option.or (if p.label = label ∧ text ≠ "" then some text else none) _
    rw [History.add, History.recallOf_setRecall]
    by_cases hlabel : label = p.label
    · subst hlabel
      rw [if_pos rfl, Recall.last?_add]
      by_cases htext : text = "" <;> simp [htext]
    · rw [if_neg hlabel, if_neg fun h => hlabel h.1.symm]
      rfl

theorem Follows.last? (hf : app.Follows s app') (label : String) :
    (app'.recallOf label).last? = (app.submitted? label s).or (app.recallOf label).last? := by
  cases hf with
  | started hserved | handled hserved | spawnFinished hserved => exact hserved.last? label
  | @unhandled name m hserved =>
    obtain ⟨hhistory, -⟩ := defaultKey_keeps { app with machine := m } name
    exact (congrArg (fun h => (History.recallOf h label).last?) hhistory).trans (hserved.last? label)
  | submitted hserved => exact (hserved.last? label).trans (app.recordInput_last? _ label)
  | cancelled =>
    unfold closeInput
    cases app.prompt? with
    | none => rfl
    | some p => exact History.last?_setRecall (Recall.last?_reset (app.recallOf p.label)) label
  | wentBack =>
    unfold historyPrevious
    cases app.prompt? with
    | none => rfl
    | some p => exact History.last?_setRecall (Recall.last?_previous (app.recallOf p.label)) label
  | wentForward =>
    unfold historyNext
    cases app.prompt? with
    | none => rfl
    | some p => exact History.last?_setRecall (Recall.last?_next (app.recallOf p.label)) label
  | inputClosed => rfl
  | searchFinished query result row =>
    unfold App.searchFinished
    split
    · cases result <;> rfl
    · rfl

theorem run_last? (hm : app.machine.Sound) (hrun : app.run told = some app') (label : String) :
    (app'.recallOf label).last? = app.lastSubmitted label (app.recallOf label).last? told := by
  induction told generalizing app with
  | nil =>
    obtain rfl := Option.some.inj hrun
    rfl
  | cons first rest ih =>
    obtain ⟨m, s⟩ := first
    obtain ⟨next, hnext, hrest⟩ := Option.bind_eq_some_iff.mp hrun
    have hduring := during_sound hm m
    have hfollows := follows_of_react hduring hnext
    have hlast : (next.recallOf label).last? = (app.submitted? label s).or (app.recallOf label).last? :=
      hfollows.last? label
    rw [lastSubmitted, hnext, ih (hfollows.sound hduring) hrest, hlast]

theorem historyPrevious_draft {p : Prompt} (hp : app.prompt? = some p) (hdraft : app.state.draft = none)
    (hend : (app.recallOf p.label).AtEnd) : app.historyPrevious.state.draft = (app.recallOf p.label).last? := by
  unfold historyPrevious
  rw [hp]
  change (app.recallOf p.label).previous.1.or app.state.draft = _
  rw [hdraft, Option.or_none, hend.previous]

variable {queries : List SearchQuery} {index : Index.Client} {script : Script.Source} {now : Instant} {clock : Clock}

/-- While a prompt is shown without a draft, the cursor of its label is past the newest entry if and only if no entry
was recalled for the label and then given up with the cursor at it. Going back from past the newest entry recalls the
text that was submitted last. -/
theorem run_recallsNewest_iff (hcreate : create queries index script now clock = some (.ok created))
    (hrun : created.run told = some app) {p : Prompt} (hp : app.prompt? = some p) (hdraft : app.state.draft = none) :
    ((app.recallOf p.label).AtEnd ↔ ¬ LeftBehind created told app p.label) ∧
      ((app.recallOf p.label).AtEnd → app.historyPrevious.state.draft = created.lastSubmitted p.label none told) := by
  obtain ⟨hsound, hcreated, -⟩ := served_of_create hcreate
  have hnone (label : String) : created.recallOf label = {} := congrArg (History.recallOf · label) hcreated.history
  have hstep : created.InStep := .of_none (hcreated.history ▸ History.sound_default) hcreated.draft
  refine ⟨⟨fun hend hleft => ?_, fun hnot => ?_⟩, fun hend => ?_⟩
  · exact absurd hend (Nat.ne_of_lt (hleft.lt_length hsound hstep))
  · have hstart (label : String) : (created.recallOf label).AtEnd := by
      rw [hnone]
      rfl
    rcases run_cursor hsound hstep hstart hrun p.label with hend | hrecalls | hleft
    · exact hend
    · exact absurd hdraft hrecalls.1
    · exact absurd hleft hnot
  · rw [historyPrevious_draft hp hdraft hend, run_last? hsound hrun, hnone]
    rfl

def covering : Script.Source where
  name := "cover.lua"
  text := "local one, two, sync = table.pack(), table.pack(), table.pack('true')
    one.prompt, two.prompt = 'One', 'Two'
    sync.next = function() return glance.input(two) end
    key.a, key.s = function() return glance.input(one) end, function() glance.spawn(sync) end"

/-- The newest entry is recalled into a prompt, which is then covered by that of a finished program for a while. -/
def covered : List (Moment × Stimulus) :=
  [.start, .event (.key "a"), .event (.submit "old"), .event (.key "a"), .event (.submit "new"), .event (.key "s"),
    .event (.key "a"), .event .historyPrevious,
    .event (.spawnFinished ⟨⟨"glance.spawn_callback_1"⟩, ["true"], "", "", .completed 0⟩),
    .event .cancel].map (quiet, ·)

theorem run_covered :
    ∃ created app p, create [] quiet.index covering 0 = some (.ok created) ∧ created.run covered = some app ∧
      app.prompt? = some p ∧ app.state.draft = none ∧ ¬ (app.recallOf p.label).AtEnd ∧
      app.historyPrevious.state.draft = some "old" ∧ created.lastSubmitted p.label none covered = some "new" := by
  have hseen : ((create [] quiet.index covering 0).bind fun made => made.toOption.bind fun created =>
      (created.run covered).map fun app =>
        (app.prompt?.map (·.label), app.state.draft, app.recallOf "One", app.historyPrevious.state.draft,
          created.lastSubmitted "One" none covered)) =
      some (some "One", none, ⟨["old", "new"], 1⟩, some "old", some "new") := by
    decide +kernel
  obtain ⟨created, hcreate, hrun⟩ := created_of_bind hseen
  obtain ⟨app, hrun, happ⟩ := Option.map_eq_some_iff.mp hrun
  obtain ⟨hlabel, hdraft, hrecall, hprevious, hlast⟩ := by simpa only [Prod.mk.injEq] using happ
  obtain ⟨p, hp, hlabel⟩ := Option.map_eq_some_iff.mp hlabel
  refine ⟨created, app, p, hcreate, hrun, hp, hdraft, ?_, hprevious, hlabel ▸ hlast⟩
  rw [hlabel, hrecall]
  change ¬ 1 = 2
  decide

theorem run_recallsNewest_iff_covered :
    ∃ created app p, create [] quiet.index covering 0 = some (.ok created) ∧ created.run covered = some app ∧
      app.prompt? = some p ∧ app.state.draft = none ∧ LeftBehind created covered app p.label := by
  obtain ⟨created, app, p, hcreate, hrun, hp, hdraft, hnot, -⟩ := run_covered
  have hleft : ¬ ¬ LeftBehind created covered app p.label :=
    mt (run_recallsNewest_iff hcreate hrun hp hdraft).1.mpr hnot
  exact ⟨created, app, p, hcreate, hrun, hp, hdraft, Classical.not_not.mp hleft⟩

theorem covered_not_atEnd :
    ∃ created app p, create [] quiet.index covering 0 = some (.ok created) ∧ created.run covered = some app ∧
      app.prompt? = some p ∧ app.state.draft = none ∧ ¬ (app.recallOf p.label).AtEnd ∧
      app.historyPrevious.state.draft ≠ created.lastSubmitted p.label none covered := by
  obtain ⟨created, app, p, hcreate, hrun, hp, hdraft, hnot, hprevious, hlast⟩ := run_covered
  refine ⟨created, app, p, hcreate, hrun, hp, hdraft, hnot, ?_⟩
  rw [hprevious, hlast]
  decide

end Triage.App
