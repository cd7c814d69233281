import Triage.Proofs.App.Results

/-! Which row a refresh selects: the one that was selected when it was asked for, wherever the selection was moved
while the search was under way. -/

namespace Triage

namespace Listing

def rowAfter (count row : Nat) (name : String) : Nat :=
  if count = 0 then row
  else match name with
    | "j" | "down" => min (row + 1) (count - 1)
    | "k" | "up" => min (row - 1) (count - 1)
    | "g" | "home" => 0
    | "G" | "end" => count - 1
    | _ => row

variable (l : Listing)

theorem selected_forward :
    (l.move 1).selected = if l.count = 0 then l.selected else min (l.selected + 1) (l.count - 1) := by
  unfold move
  split <;> rfl

theorem selected_back :
    (l.move (-1)).selected = if l.count = 0 then l.selected else min (l.selected - 1) (l.count - 1) := by
  have hback : (l.selected + (-1) : Int).toNat = l.selected - 1 := by omega
  unfold move
  rw [hback]
  split <;> rfl

theorem selected_first : (l.select 0).2.selected = if l.count = 0 then l.selected else 0 := by
  unfold select
  split <;> split <;> first | rfl | omega

theorem selected_last : (l.select (l.count - 1)).2.selected = if l.count = 0 then l.selected else l.count - 1 := by
  unfold select
  split <;> split <;> first | rfl | omega

theorem count_retag (calls : List TagCall) : (l.retag calls).count = l.count := by
  induction calls generalizing l with
  | nil => rfl
  | cons c calls ih => exact (ih (l.applyTags c.ids c.operations)).trans (l.count_applyTags ..)

end Listing

namespace App

open Dispatch
open Listing (rowAfter)
open Script (Machine)

namespace Desk

theorem Shows.count_eq {d : Desk} {threads : List Thread} {past : List (List String)} (h : d.Shows threads past) :
    d.state.messages.count = Listing.count { threads } := by
  obtain ⟨calls, -, -, -, hthreads⟩ := h
  exact (Listing.count_congr hthreads).trans (Listing.count_retag _ calls)

theorem Serves.count_eq {d d' : Desk} (h : d.Serves d') : d'.state.messages.count = d.state.messages.count :=
  h.shows.count_eq.trans (Listing.count_congr rfl)

theorem selected_tag (d : Desk) (ids : List MessageId) (operations : List String) :
    (d.tag ids operations).2.state.messages.selected = d.state.messages.selected := by
  obtain ⟨runs, hnoted, -⟩ := d.noteRun_eq (Index.tagArguments ids operations)
  unfold tag
  rw [hnoted]
  split <;> rfl

theorem selected_of_reaches {d d' : Desk} (h : Host.Reaches d d') :
    d'.state.messages.selected = d.state.messages.selected := by
  induction h with
  | refl => rfl
  | tail _ hstep ih =>
    refine Eq.trans ?_ ih
    cases hstep with
    | tag ids operations => exact selected_tag _ ids operations
    | setTheme | log | report => rfl

end Desk

structure SameRows (app app' : App) : Prop where
  selected : app'.state.messages.selected = app.state.messages.selected
  count : app'.state.messages.count = app.state.messages.count

theorem SameRows.refl (app : App) : app.SameRows app := ⟨rfl, rfl⟩

theorem SameRows.trans {a₁ a₂ a₃ : App} (h₁ : a₁.SameRows a₂) (h₂ : a₂.SameRows a₃) : a₁.SameRows a₃ :=
  ⟨h₂.selected.trans h₁.selected, h₂.count.trans h₁.count⟩

theorem executeLeaf_sameRows (app : App) (c : Command) : app.SameRows (app.executeLeaf c) := by
  cases c with
  | toggleMarks => exact ⟨Listing.selected_toggle .., Listing.count_congr (Listing.threads_toggle ..)⟩
  | _ => exact ⟨rfl, rfl⟩

theorem foldl_sameRows (app : App) (leaves : List Command) : app.SameRows (leaves.foldl executeLeaf app) :=
  foldl_relates .refl .trans executeLeaf_sameRows app leaves

theorem foldl_searches (app : App) (leaves : List Command) :
    app.searches <+: (leaves.foldl executeLeaf app).searches := by
  refine foldl_relates (R := fun app app' => app.searches <+: app'.searches) (fun _ => List.prefix_rfl)
    List.IsPrefix.trans (fun app c => ?_) app leaves
  obtain ⟨started, hstarted, -⟩ := (app.executeLeaf_proceeds c).searches
  exact ⟨started, hstarted.symm⟩

def Refreshes (app : App) (cs : List Command) (query : String) : Prop :=
  ∃ before after, Command.leavesOf cs = before ++ .refresh :: after ∧
    (before.foldl executeLeaf app).state.queries.current.text = query ∧
    (app.execute cs).state.queries.current.text = query

theorem Refreshes.mem_searches {app : App} {cs : List Command} {query : String} (h : app.Refreshes cs query) :
    ⟨query, app.state.messages.selected⟩ ∈ (app.execute cs).searches.drop app.searches.length := by
  obtain ⟨before, after, hcs, hquery, -⟩ := h
  obtain ⟨first, hfirst⟩ := foldl_searches app before
  obtain ⟨rest, hrest⟩ := foldl_searches ((before.foldl executeLeaf app).executeLeaf .refresh) after
  have hrefreshed : ((before.foldl executeLeaf app).executeLeaf .refresh).searches =
      (before.foldl executeLeaf app).searches ++ [⟨query, app.state.messages.selected⟩] := by
    rw [← hquery, ← (foldl_sameRows app before).selected]
    rfl
  rw [execute, hcs, List.foldl_append, List.foldl_cons, ← hrest, hrefreshed, ← hfirst, List.append_assoc,
    List.append_assoc, List.drop_left]
  exact List.mem_append_right first List.mem_cons_self

def unboundKey (app : App) (m : Moment) (name : String) : Option App :=
  match enter (app.during m).machine (onKey · name) with
  | some (.unhandled, machine) => some ({ app with machine }.defaultKey name)
  | _ => none

def browse (app : App) : List (Moment × String) → Option App
  | [] => some app
  | (m, name) :: rest => (app.unboundKey m name).bind (browse · rest)

theorem unboundKey_eq_some {app app' : App} {m : Moment} {name : String} (h : app.unboundKey m name = some app') :
    ∃ machine, enter (app.during m).machine (onKey · name) = some (.unhandled, machine) ∧
      app' = { app with machine }.defaultKey name := by
  unfold unboundKey at h
  split at h
  · next machine henter => exact ⟨machine, henter, (Option.some.inj h).symm⟩
  · cases h

def pressing (keys : List (Moment × String)) : List (Moment × Stimulus) :=
  keys.map fun (m, name) => (m, .event (.key name))

theorem run_of_browse {app app' : App} {keys : List (Moment × String)} (h : app.browse keys = some app') :
    app.run (pressing keys) = some app' := by
  induction keys generalizing app with
  | nil => exact h
  | cons first rest ih =>
    obtain ⟨m, name⟩ := first
    obtain ⟨next, hnext, hrest⟩ := Option.bind_eq_some_iff.mp h
    obtain ⟨machine, henter, rfl⟩ := unboundKey_eq_some hnext
    have hkey : (app.during m).key name = some ({ app with machine }.defaultKey name) :=
      Option.map_eq_some_iff.mpr ⟨_, henter, rfl⟩
    exact Option.bind_eq_some_iff.mpr ⟨_, hkey, ih hrest⟩

theorem defaultKey_row (app : App) (name : String) :
    (app.defaultKey name).state.messages.selected =
      rowAfter app.state.messages.count app.state.messages.selected name := by
  unfold defaultKey
  split
  · exact Listing.selected_forward _
  · exact Listing.selected_forward _
  · exact Listing.selected_back _
  · exact Listing.selected_back _
  · exact Listing.selected_first _
  · exact Listing.selected_first _
  · exact Listing.selected_last _
  · exact Listing.selected_last _
  · exact (ite_self _).symm
  · simp_all [rowAfter]

theorem defaultKey_count (app : App) (name : String) :
    (app.defaultKey name).state.messages.count = app.state.messages.count :=
  (app.defaultKey_proceeds name).shows.count_eq.trans (Listing.count_congr rfl)

theorem defaultKey_searches (app : App) (name : String) :
    (app.defaultKey name).searches = app.searches ∧ (app.defaultKey name).state.queries = app.state.queries := by
  unfold defaultKey
  split <;> exact ⟨rfl, rfl⟩

structure MovesTo (app : App) (row : Nat) (app' : App) : Prop where
  row : app'.state.messages.selected = row
  count : app'.state.messages.count = app.state.messages.count
  queries : app'.state.queries = app.state.queries
  searches : app'.searches = app.searches

theorem unboundKey_movesTo {app app' : App} {m : Moment} {name : String} (h : app.unboundKey m name = some app') :
    app.MovesTo (rowAfter app.state.messages.count app.state.messages.selected name) app' := by
  obtain ⟨machine, henter, rfl⟩ := unboundKey_eq_some h
  have hreaches : Host.Reaches (app.during m).machine.host machine.host :=
    enter_reaches henter (onKey_driven (Script.evaluate_confined fuel) name)
  have hserves := Desk.serves_of_reaches hreaches
  have hselected := Desk.selected_of_reaches hreaches
  obtain ⟨hsearches, hqueries⟩ := defaultKey_searches { app with machine } name
  refine ⟨?_, ?_, hqueries.trans hserves.queries, hsearches⟩
  · rw [defaultKey_row]
    change rowAfter machine.host.state.messages.count machine.host.state.messages.selected name = _
    rw [hselected, hserves.count_eq]
    rfl
  · exact (defaultKey_count _ name).trans hserves.count_eq

theorem browse_movesTo {app browsed : App} {keys : List (Moment × String)} (h : app.browse keys = some browsed) :
    app.MovesTo ((keys.map (·.2)).foldl (rowAfter app.state.messages.count) app.state.messages.selected) browsed := by
  induction keys generalizing app with
  | nil =>
    obtain rfl := Option.some.inj h
    exact ⟨rfl, rfl, rfl, rfl⟩
  | cons first rest ih =>
    obtain ⟨m, name⟩ := first
    obtain ⟨next, hnext, hrest⟩ := Option.bind_eq_some_iff.mp h
    have hfirst := unboundKey_movesTo hnext
    have hrest := ih hrest
    refine ⟨?_, hrest.count.trans hfirst.count, hrest.queries.trans hfirst.queries,
      hrest.searches.trans hfirst.searches⟩
    rw [hrest.row, hfirst.row, hfirst.count]
    rfl

/-- The selected row stays, as far as the rows that are loaded allow. -/
def KeepsRow (app loaded : App) : Prop :=
  loaded.state.messages.selected = min app.state.messages.selected (loaded.state.messages.count - 1)

instance (app loaded : App) : Decidable (app.KeepsRow loaded) := inferInstanceAs (Decidable (_ = _))

/-- A refresh selects the row that was selected when it was asked for. The row that is selected when its result comes
is kept if and only if the keys in between do not matter to the new rows. -/
theorem refresh_keepsRow_iff {app browsed : App} {cs : List Command} {query : String} {keys : List (Moment × String)}
    (hrefresh : app.Refreshes cs query) (hbrowse : (app.execute cs).browse keys = some browsed) (arrival : Moment)
    (threads : List Thread) :
    ⟨query, app.state.messages.selected⟩ ∈ browsed.searches.drop app.searches.length ∧
      ∃ loaded,
        (app.execute cs).run (pressing keys ++
          [(arrival, .event (.searchFinished query (.ok threads) app.state.messages.selected))]) = some loaded ∧
        loaded.state.messages =
          { threads, selected := min app.state.messages.selected (Listing.count { threads } - 1), marked := [] } ∧
        (browsed.KeepsRow loaded ↔
          min app.state.messages.selected (Listing.count { threads } - 1) =
            min ((keys.map (·.2)).foldl (rowAfter app.state.messages.count) app.state.messages.selected)
              (Listing.count { threads } - 1)) := by
  have hsame : app.SameRows (app.execute cs) := foldl_sameRows app _
  have hmoved := browse_movesTo hbrowse
  have hstarted := hrefresh.mem_searches
  obtain ⟨-, -, -, -, hcurrent⟩ := hrefresh
  have hquery : query = (browsed.during arrival).state.queries.current.text := by
    rw [← hcurrent, ← hmoved.queries]
    rfl
  subst hquery
  refine ⟨hmoved.searches ▸ hstarted, (browsed.during arrival).withMessages
    { threads, selected := min app.state.messages.selected (Listing.count { threads } - 1), marked := [] },
    ?_, rfl, ?_⟩
  · rw [run_append, run_of_browse hbrowse]
    exact congrArg some ((browsed.during arrival).searchFinished_ok threads _)
  · rw [← hsame.selected, ← hsame.count, ← hmoved.row]
    rfl

def refreshing : Script.Source where
  name := "refresh.lua"
  text := "key.r = glance.refresh"

def three : List Thread := [{ messages := [{ id := "a" }, { id := "b" }, { id := "c" }] }]

def listed : List (Moment × Stimulus) := [.start, .event (.searchFinished "tag:inbox" (.ok three) 0)].map (quiet, ·)

theorem refresh_keepsRow_iff_moved :
    ∃ created app browsed loaded, create twoQueries quiet.index refreshing 0 = some (.ok created) ∧
      created.run listed = some app ∧ app.Refreshes [.refresh] "tag:inbox" ∧
      (app.execute [.refresh]).browse [(quiet, "j")] = some browsed ∧
      (app.execute [.refresh]).run
        [(quiet, .event (.key "j")), (quiet, .event (.searchFinished "tag:inbox" (.ok three) 0))] = some loaded ∧
      ¬ browsed.KeepsRow loaded := by
  have hseen : ((create twoQueries quiet.index refreshing 0).bind fun made => made.toOption.bind fun created =>
      (created.run listed).bind fun app => ((app.execute [.refresh]).browse [(quiet, "j")]).map fun browsed =>
        (app.state.queries.current.text, app.state.messages.count, app.state.messages.selected)) =
      some ("tag:inbox", 3, 0) := by
    decide +kernel
  obtain ⟨created, hcreate, hrun⟩ := created_of_bind hseen
  obtain ⟨app, hrun, hbrowse⟩ := Option.bind_eq_some_iff.mp hrun
  obtain ⟨browsed, hbrowse, hrows⟩ := Option.map_eq_some_iff.mp hbrowse
  obtain ⟨hquery, hcount, hselected⟩ := by simpa only [Prod.mk.injEq] using hrows
  have hrefresh : app.Refreshes [.refresh] "tag:inbox" := ⟨[], [], rfl, hquery, hquery⟩
  obtain ⟨-, loaded, hloaded, -, hiff⟩ := refresh_keepsRow_iff hrefresh hbrowse quiet three
  rw [hselected] at hloaded
  refine ⟨created, app, browsed, loaded, hcreate, hrun, hrefresh, hbrowse, hloaded, ?_⟩
  rw [hiff, hselected, hcount]
  decide

/-- The selection is moved down once while the search of a refresh is under way, and is back at the first row after it.
-/
theorem moved_not_keepsRow :
    ∃ created moved loaded, create twoQueries quiet.index refreshing 0 = some (.ok created) ∧
      created.run (listed ++ [(quiet, .event (.key "r")), (quiet, .event (.key "j"))]) = some moved ∧
      moved.searches.getLast? = some ⟨"tag:inbox", 0⟩ ∧
      moved.react (.event (.searchFinished "tag:inbox" (.ok three) 0)) = some loaded ∧
      moved.state.messages.selected = 1 ∧ ¬ moved.KeepsRow loaded := by
  have hseen : ((create twoQueries quiet.index refreshing 0).bind fun made => made.toOption.bind fun created =>
      (created.run (listed ++ [(quiet, .event (.key "r")), (quiet, .event (.key "j"))])).bind fun moved =>
        (moved.react (.event (.searchFinished "tag:inbox" (.ok three) 0))).map fun loaded =>
          (moved.searches.getLast?, moved.state.messages.selected, decide (moved.KeepsRow loaded))) =
      some (some ⟨"tag:inbox", 0⟩, 1, false) := by
    decide +kernel
  obtain ⟨created, hcreate, hrun⟩ := created_of_bind hseen
  obtain ⟨moved, hrun, hreact⟩ := Option.bind_eq_some_iff.mp hrun
  obtain ⟨loaded, hreact, hrows⟩ := Option.map_eq_some_iff.mp hreact
  obtain ⟨hsearch, hselected, hlost⟩ := by simpa only [Prod.mk.injEq] using hrows
  exact ⟨created, moved, loaded, hcreate, hrun, hsearch, hreact, hselected, of_decide_eq_false hlost⟩

end App
end Triage
