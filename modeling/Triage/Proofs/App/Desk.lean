import Triage.App.State
import Triage.Proofs.HostSteps

/-! What scripts do to the desk: they may change the tags of listed messages, by calls of the index that are noted, and
leave the queries and the history alone. -/

namespace Triage

structure TagCall where
  ids : List MessageId
  operations : List String

def TagCall.arguments (c : TagCall) : List String := Index.tagArguments c.ids c.operations

namespace Listing

def retag (l : Listing) (calls : List TagCall) : Listing := calls.foldl (fun l c => l.applyTags c.ids c.operations) l

theorem retag_append (l : Listing) (calls more : List TagCall) :
    l.retag (calls ++ more) = (l.retag calls).retag more := List.foldl_append

theorem threads_retag_congr {l l' : Listing} (h : l.threads = l'.threads) (calls : List TagCall) :
    (l.retag calls).threads = (l'.retag calls).threads := by
  induction calls generalizing l l' with
  | nil => exact h
  | cons c calls ih =>
    have hfirst : (l.applyTags c.ids c.operations).threads = (l'.applyTags c.ids c.operations).threads :=
      congrArg (List.map (Thread.applyTags · c.ids c.operations)) h
    exact ih hfirst

end Listing

namespace App.Desk

/-- The listing shows some threads, save for tag calls that were made since the runs of the index before. -/
def Shows (d : Desk) (threads : List Thread) (past : List (List String)) : Prop :=
  ∃ (calls : List TagCall) (runs : List (List String)), d.tagRuns = past ++ runs ∧
    (calls.map TagCall.arguments).Sublist runs ∧
      d.state.messages.threads = ((Listing.ofThreads threads).retag calls).threads

theorem shows_self (d : Desk) : d.Shows d.state.messages.threads d.tagRuns :=
  ⟨[], [], (List.append_nil _).symm, .slnil, rfl⟩

theorem Shows.goes_on {d d' : Desk} {threads : List Thread} {past : List (List String)} (h : d.Shows threads past)
    (h' : d'.Shows d.state.messages.threads d.tagRuns) : d'.Shows threads past := by
  obtain ⟨calls, runs, hruns, hcalls, hthreads⟩ := h
  obtain ⟨calls', runs', hruns', hcalls', hthreads'⟩ := h'
  refine ⟨calls ++ calls', runs ++ runs', ?_, ?_, ?_⟩
  · rw [hruns', hruns, List.append_assoc]
  · rw [List.map_append]
    exact hcalls.append hcalls'
  · rw [hthreads', Listing.retag_append]
    exact Listing.threads_retag_congr (l := .ofThreads d.state.messages.threads) hthreads calls'

structure Serves (d d' : Desk) : Prop where
  queries : d'.state.queries = d.state.queries
  history : d'.state.history = d.state.history
  draft : d'.state.draft = d.state.draft
  shows : d'.Shows d.state.messages.threads d.tagRuns

theorem Serves.refl (d : Desk) : d.Serves d := ⟨rfl, rfl, rfl, d.shows_self⟩

theorem Serves.trans {d₁ d₂ d₃ : Desk} (h₁ : d₁.Serves d₂) (h₂ : d₂.Serves d₃) : d₁.Serves d₃ where
  queries := h₂.queries.trans h₁.queries
  history := h₂.history.trans h₁.history
  draft := h₂.draft.trans h₁.draft
  shows := h₁.shows.goes_on h₂.shows

theorem noteRun_eq (d : Desk) (arguments : List String) :
    ∃ runs, d.noteRun arguments = { d with tagRuns := d.tagRuns ++ runs } ∧
      ∀ output, d.index.call arguments = .ok output → runs = [arguments] := by
  unfold noteRun Index.Client.call
  cases d.index.start arguments with
  | ok reply => exact ⟨[arguments], rfl, fun _ _ => rfl⟩
  | error cause => exact ⟨[], by simp, fun _ h => by cases h⟩

theorem serves_tag (d : Desk) (ids : List MessageId) (operations : List String) :
    d.Serves (d.tag ids operations).2 := by
  obtain ⟨runs, hnoted, hruns⟩ := d.noteRun_eq (Index.tagArguments ids operations)
  unfold tag
  rw [hnoted]
  split
  · next htag =>
    cases hcall : d.index.call (Index.tagArguments ids operations) with
    | error e =>
      rw [Index.Client.tag, hcall] at htag
      cases htag
    | ok output =>
      refine ⟨rfl, rfl, rfl, [⟨ids, operations⟩], runs, rfl, ?_, rfl⟩
      rw [hruns output hcall]
      exact .refl _
  · exact ⟨rfl, rfl, rfl, [], runs, rfl, List.nil_sublist _, rfl⟩

theorem serves_of_reaches {d d' : Desk} (h : Host.Reaches d d') : d.Serves d' := by
  induction h with
  | refl => exact .refl d
  | tail _ hstep ih =>
    refine ih.trans ?_
    cases hstep with
    | tag ids operations => exact serves_tag _ ids operations
    | setTheme | log | report => exact ⟨rfl, rfl, rfl, shows_self _⟩

end App.Desk
end Triage
