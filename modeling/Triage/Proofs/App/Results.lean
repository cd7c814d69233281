import Triage.Proofs.App.Reactions
import Triage.Proofs.Rows

/-! Where the listing comes from. A result counts if its query is the current one when it comes, and then it is all
that is listed, save for later tag calls. A command that changes the current query starts a search for it, so that the
search started last is always one for the current query. -/

namespace Triage

namespace App

open Dispatch
open Script (Machine)

/-- What happens while no result counts. -/
structure Proceeds (app app' : App) : Prop where
  shows : app'.machine.host.Shows app.state.messages.threads app.machine.host.tagRuns
  searches : ∃ started, app'.searches = app.searches ++ started ∧
    (started = [] → app'.state.queries = app.state.queries) ∧
    ∀ s ∈ started.getLast?, s.query = app'.state.queries.current.text

namespace Proceeds

variable {app app' : App}

theorem trans {a₁ a₂ a₃ : App} (h₁ : a₁.Proceeds a₂) (h₂ : a₂.Proceeds a₃) : a₁.Proceeds a₃ := by
  obtain ⟨started, hstarted, hkept, hlast⟩ := h₁.searches
  obtain ⟨started', hstarted', hkept', hlast'⟩ := h₂.searches
  refine ⟨h₁.shows.goes_on h₂.shows, started ++ started', ?_, fun hnone => ?_, fun s hs => ?_⟩
  · rw [hstarted', hstarted, List.append_assoc]
  · obtain ⟨hnone₁, hnone₂⟩ := List.append_eq_nil_iff.mp hnone
    rw [hkept' hnone₂, hkept hnone₁]
  · cases hcases : started'.getLast? with
    | some s' =>
      rw [List.getLast?_append, hcases] at hs
      exact hlast' s (hcases ▸ hs)
    | none =>
      -- Nothing was started later, so that the query did not change since the earlier searches.
      rw [List.getLast?_append, hcases, Option.none_or] at hs
      rw [hkept' (List.getLast?_eq_none_iff.mp hcases)]
      exact hlast s hs

theorem of_eq (hthreads : app'.state.messages.threads = app.state.messages.threads)
    (hruns : app'.machine.host.tagRuns = app.machine.host.tagRuns) (hsearches : app'.searches = app.searches)
    (hqueries : app'.state.queries = app.state.queries) : app.Proceeds app' := by
  refine ⟨?_, [], by rw [hsearches, List.append_nil], fun _ => hqueries, by simp⟩
  rw [← hthreads, ← hruns]
  exact app'.machine.host.shows_self

theorem refl (app : App) : app.Proceeds app := of_eq rfl rfl rfl rfl

theorem of_search {row : Nat} (hthreads : app'.state.messages.threads = app.state.messages.threads)
    (hruns : app'.machine.host.tagRuns = app.machine.host.tagRuns)
    (hsearches : app'.searches = app.searches ++ [⟨app'.state.queries.current.text, row⟩]) : app.Proceeds app' := by
  refine ⟨?_, _, hsearches, fun hnone => by simp at hnone, fun s hs => ?_⟩
  · rw [← hthreads, ← hruns]
    exact app'.machine.host.shows_self
  · obtain rfl : _ = s := Option.some.inj hs
    rfl

theorem of_served {e : Dispatch.Entry} {cs : List Command} {m : Machine Desk} (h : Served app e cs m) :
    app.Proceeds { app with machine := m } :=
  ⟨h.serves.shows, [], (List.append_nil _).symm, fun _ => h.serves.queries, by simp⟩

end Proceeds

theorem executeLeaf_proceeds (app : App) (c : Command) : app.Proceeds (app.executeLeaf c) := by
  cases c with
  | refresh | newQuery | nextQuery | previousQuery => exact .of_search rfl rfl rfl
  | toggleMarks => exact .of_eq (Listing.threads_toggle ..) rfl rfl rfl
  | quit | invertMarks | clearMarks | openInput | setStatus | batch | spawn => exact .of_eq rfl rfl rfl rfl

theorem execute_proceeds (app : App) (cs : List Command) : app.Proceeds (app.execute cs) :=
  execute_relates Proceeds.refl .trans executeLeaf_proceeds app cs

theorem defaultKey_proceeds (app : App) (name : String) : app.Proceeds (app.defaultKey name) := by
  unfold defaultKey
  split
  · exact .of_eq (Listing.threads_move ..) rfl rfl rfl
  · exact .of_eq (Listing.threads_move ..) rfl rfl rfl
  · exact .of_eq (Listing.threads_move ..) rfl rfl rfl
  · exact .of_eq (Listing.threads_move ..) rfl rfl rfl
  · exact .of_eq (Listing.threads_select ..) rfl rfl rfl
  · exact .of_eq (Listing.threads_select ..) rfl rfl rfl
  · exact .of_eq (Listing.threads_select ..) rfl rfl rfl
  · exact .of_eq (Listing.threads_select ..) rfl rfl rfl
  · exact .of_eq rfl rfl rfl rfl
  · exact .refl app

structure Load where
  threads : List Thread := []
  past : List (List String) := []

def load? (app : App) : Stimulus → Option Load
  | .event (.searchFinished query (.ok threads) _) =>
    if app.state.queries.current.text = query then some ⟨threads, app.machine.host.tagRuns⟩ else none
  | _ => none

/-- The last result of a run that counts, or what was listed before it. -/
def lastLoad (app : App) (loaded : Load) : List (Moment × Stimulus) → Load
  | [] => loaded
  | (m, s) :: rest =>
    match (app.during m).react s with
    | some app' => lastLoad app' ((app.load? s).getD loaded) rest
    | none => loaded

theorem load_eq (l : Listing) (threads : List Thread) (row : Nat) :
    load l threads row = { threads, selected := min row (Listing.count { threads } - 1), marked := [] } := by
  have hcount : (l.setThreads threads).count = Listing.count { threads } := rfl
  change ((l.setThreads threads).select (min row ((l.setThreads threads).count - 1))).2 = _
  rw [hcount, Listing.select, hcount]
  split
  · rfl
  · -- Only an empty listing has no row to select, and then the first row is meant either way.
    next hrow =>
    have hempty : Listing.count { threads } = 0 := by omega
    have hselected : (l.setThreads threads).selected = min row (Listing.count { threads } - 1) := by
      change min l.selected (Listing.count { threads } - 1) = _
      rw [hempty]
      simp
    rw [← hselected]
    rfl

theorem searchFinished_of_ne (app : App) {query : String} (h : app.state.queries.current.text ≠ query)
    (result : Except String (List Thread)) (row : Nat) : app.searchFinished query result row = app := if_neg h

theorem searchFinished_ok (app : App) (threads : List Thread) (row : Nat) :
    app.searchFinished app.state.queries.current.text (.ok threads) row =
      app.withMessages { threads, selected := min row (Listing.count { threads } - 1), marked := [] } := by
  rw [searchFinished, if_pos rfl, ← load_eq app.state.messages]

theorem searchFinished_error (app : App) (message : String) (row : Nat) :
    ∃ notifications, app.searchFinished app.state.queries.current.text (.error message) row =
      app.withState { app.state with status := { app.state.status with notifications } } :=
  ⟨_, if_pos rfl⟩

theorem searchFinished_keeps (app : App) (query : String) (result : Except String (List Thread)) (row : Nat) :
    (app.searchFinished query result row).searches = app.searches ∧
      (app.searchFinished query result row).state.queries = app.state.queries := by
  unfold searchFinished
  split
  · cases result <;> exact ⟨rfl, rfl⟩
  · exact ⟨rfl, rfl⟩

theorem Served.proceeds {app : App} {e : Dispatch.Entry} {cs : List Command} {m : Machine Desk}
    (h : Served app e cs m) : app.Proceeds (execute { app with machine := m } cs) :=
  (Proceeds.of_served h).trans (execute_proceeds _ cs)

theorem Follows.proceeds {app app' : App} {s : Stimulus} (h : app.Follows s app') (hs : app.load? s = none) :
    app.Proceeds app' := by
  cases h with
  | started hserved => exact hserved.proceeds.trans (.of_search rfl rfl rfl)
  | handled hserved | spawnFinished hserved => exact hserved.proceeds
  | @submitted text cs m hserved =>
    have hrecorded : app.Proceeds (app.recordInput text) := by
      unfold recordInput
      split <;> exact .of_eq rfl rfl rfl rfl
    exact hrecorded.trans hserved.proceeds
  | unhandled hserved => exact (Proceeds.of_served hserved).trans (defaultKey_proceeds _ _)
  | cancelled =>
    unfold closeInput
    cases app.prompt? <;> exact .of_eq rfl rfl rfl rfl
  | wentBack =>
    unfold historyPrevious
    split <;> exact .of_eq rfl rfl rfl rfl
  | wentForward =>
    unfold historyNext
    split <;> exact .of_eq rfl rfl rfl rfl
  | inputClosed => exact .of_eq rfl rfl rfl rfl
  | searchFinished query result row =>
    by_cases hquery : app.state.queries.current.text = query
    · subst hquery
      cases result with
      | ok threads => simp [load?] at hs
      | error message =>
        obtain ⟨notifications, hfailed⟩ := app.searchFinished_error message row
        rw [hfailed]
        exact .of_eq rfl rfl rfl rfl
    · rw [app.searchFinished_of_ne hquery]
      exact .refl app

theorem Follows.loads {app app' : App} {s : Stimulus} {loaded : Load} (h : app.Follows s app')
    (hs : app.load? s = some loaded) :
    app'.machine.host.Shows loaded.threads loaded.past ∧ app'.searches = app.searches ∧
      app'.state.queries = app.state.queries := by
  cases h with
  | searchFinished query result row =>
    cases result with
    | error message => simp [load?] at hs
    | ok threads =>
      by_cases hquery : app.state.queries.current.text = query
      · subst hquery
        obtain rfl : _ = loaded := Option.some.inj ((if_pos rfl).symm.trans hs)
        refine ⟨?_, app.searchFinished_keeps ..⟩
        rw [searchFinished_ok]
        exact Desk.shows_self _
      · rw [load?, if_neg hquery] at hs
        cases hs
  | _ => simp [load?] at hs

structure Stands (app : App) (loaded : Load) : Prop where
  sound : app.machine.Sound
  shows : app.machine.host.Shows loaded.threads loaded.past
  searching : ∀ s ∈ app.searches.getLast?, s.query = app.state.queries.current.text

theorem Stands.proceeds {app app' : App} {loaded : Load} (h : app.Stands loaded) (hm : app'.machine.Sound)
    (hp : app.Proceeds app') : app'.Stands loaded := by
  refine ⟨hm, h.shows.goes_on hp.shows, fun s hs => ?_⟩
  obtain ⟨started, hstarted, hkept, hlast⟩ := hp.searches
  rw [hstarted, List.getLast?_append] at hs
  cases hcases : started.getLast? with
  | some s' =>
    rw [hcases] at hs
    exact hlast s (hcases ▸ hs)
  | none =>
    rw [hcases, Option.none_or] at hs
    rw [hkept (List.getLast?_eq_none_iff.mp hcases)]
    exact h.searching s hs

theorem Stands.during {app : App} {loaded : Load} (h : app.Stands loaded) (m : Moment) :
    (app.during m).Stands loaded :=
  h.proceeds (during_sound h.sound m) (.of_eq rfl rfl rfl rfl)

theorem Stands.react {app app' : App} {loaded : Load} {s : Stimulus} (h : app.Stands loaded)
    (hr : app.react s = some app') : app'.Stands ((app.load? s).getD loaded) := by
  have hfollows := follows_of_react h.sound hr
  have hsound := hfollows.sound h.sound
  cases hs : app.load? s with
  | none => exact h.proceeds hsound (hfollows.proceeds hs)
  | some listed =>
    obtain ⟨hshows, hsearches, hqueries⟩ := hfollows.loads hs
    refine ⟨hsound, hshows, ?_⟩
    rw [hsearches, hqueries]
    exact h.searching

theorem Stands.run {app app' : App} {loaded : Load} {told : List (Moment × Stimulus)} (h : app.Stands loaded)
    (hr : app.run told = some app') : app'.Stands (app.lastLoad loaded told) := by
  induction told generalizing app loaded with
  | nil =>
    obtain rfl := Option.some.inj hr
    exact h
  | cons first rest ih =>
    obtain ⟨m, s⟩ := first
    obtain ⟨next, hnext, hrest⟩ := Option.bind_eq_some_iff.mp hr
    rw [lastLoad, hnext]
    exact ih ((h.during m).react hnext) hrest

theorem created_stands {queries : List SearchQuery} {index : Index.Client} {script : Script.Source} {now : Instant}
    {clock : Clock} {app : App} (h : create queries index script now clock = some (.ok app)) : app.Stands {} := by
  obtain ⟨hsound, hserves, hnone⟩ := served_of_create h
  exact ⟨hsound, hserves.shows, by simp [hnone]⟩

variable {queries : List SearchQuery} {index : Index.Client} {script : Script.Source} {now : Instant} {clock : Clock}
    {created app : App}
  {told : List (Moment × Stimulus)}

/-- The listing is the last result that counts, save for tag calls since. Another result changes nothing if its query
is not the current one, and only notifies if it is a failure. A command that changes the query starts a search for it.
-/
theorem run_listing (hcreate : create queries index script now clock = some (.ok created))
    (hrun : created.run told = some app) :
    app.machine.host.Shows (created.lastLoad {} told).threads (created.lastLoad {} told).past ∧
      (∀ s ∈ app.searches.getLast?, s.query = app.state.queries.current.text) ∧
      (∀ m query result row, app.state.queries.current.text ≠ query →
        (app.during m).react (.event (.searchFinished query result row)) = some (app.during m)) ∧
      (∀ m threads row,
        (app.during m).react (.event (.searchFinished app.state.queries.current.text (.ok threads) row)) =
          some ((app.during m).withMessages
            { threads, selected := min row (Listing.count { threads } - 1), marked := [] })) ∧
      (∀ m message row, ∃ notifications,
        (app.during m).react (.event (.searchFinished app.state.queries.current.text (.error message) row)) =
          some ((app.during m).withState { app.state with status := { app.state.status with notifications } })) ∧
      ∀ (a : App) (c : Command), (a.executeLeaf c).state.queries = a.state.queries ∨
        (a.executeLeaf c).searches = a.searches ++ [⟨(a.executeLeaf c).state.queries.current.text, 0⟩] := by
  have hstands := (created_stands hcreate).run hrun
  refine ⟨hstands.shows, hstands.searching, fun m query result row hquery => ?_, fun m threads row => ?_,
    fun m message row => ?_, fun a c => ?_⟩
  · exact congrArg some ((app.during m).searchFinished_of_ne hquery result row)
  · exact congrArg some ((app.during m).searchFinished_ok threads row)
  · obtain ⟨notifications, hfailed⟩ := (app.during m).searchFinished_error message row
    exact ⟨notifications, congrArg some hfailed⟩
  · cases c with
    | newQuery | nextQuery | previousQuery => exact .inr rfl
    | _ => exact .inl rfl

def switching : Script.Source where
  name := "switch.lua"
  text := "key.n, key.p = glance.query.next, glance.query.prev
    key.d = function() glance.tag(glance.messages.all(), '+done') end"

def twoQueries : List SearchQuery := [⟨"inbox", "tag:inbox"⟩, ⟨"todo", "tag:todo"⟩]

def switched : List (Moment × Stimulus) :=
  [.start, .event (.key "n"), .event (.searchFinished "tag:inbox" (.ok [{ messages := [{ id := "x" }] }]) 0),
    .event (.searchFinished "tag:todo" (.ok [{ messages := [{ id := "a" }, { id := "b" }] }]) 7), .event (.key "d"),
    .event (.searchFinished "tag:todo" (.error "busy") 0)].map (quiet, ·)

theorem run_listing_switching :
    ∃ created app, create twoQueries quiet.index switching 0 = some (.ok created) ∧ created.run switched = some app ∧
      app.state.messages.rows.map (fun m => (m.id, m.tags)) = [("b", ["done"]), ("a", ["done"])] ∧
      app.machine.host.Shows (created.lastLoad {} switched).threads (created.lastLoad {} switched).past := by
  have hrows : ((create twoQueries quiet.index switching 0).bind fun made => made.toOption.bind fun created =>
      (created.run switched).map fun app => app.state.messages.rows.map fun m => (m.id, m.tags)) =
        some [("b", ["done"]), ("a", ["done"])] := by
    decide +kernel
  obtain ⟨created, hcreate, hrun⟩ := created_of_bind hrows
  obtain ⟨app, hrun, htags⟩ := Option.map_eq_some_iff.mp hrun
  exact ⟨created, app, hcreate, hrun, htags, (run_listing hcreate hrun).1⟩

end App
end Triage
