import Triage.Proofs.App.Reactions
import Triage.Proofs.Regrouping

/-! Commands as the application executes them: one leaf after another, whatever batches they are in, and also after the
one that ends it. -/

namespace Triage.App

open Command (leavesOf)

mutual

/-- A command is executed as it is: a batch by its items in order, and a batch among these in the same way. -/
def perform (app : App) : Command → App
  | .batch items => app.performAll items
  | c => app.executeLeaf c

def performAll (app : App) : List Command → App
  | [] => app
  | c :: rest => (app.perform c).performAll rest

end

theorem perform_of_isLeaf (app : App) {c : Command} (hc : c.IsLeaf) : app.perform c = app.executeLeaf c := by
  cases c with
  | batch => exact hc.elim
  | _ => rfl

theorem execute_append (app : App) (cs ds : List Command) : app.execute (cs ++ ds) = (app.execute cs).execute ds := by
  unfold execute
  rw [Command.leavesOf_append, List.foldl_append]

theorem execute_of_isLeaf (app : App) {c : Command} (hc : c.IsLeaf) : app.execute [c] = app.executeLeaf c := by
  have hleaves : leavesOf [c] = [c] := Command.leavesOf_eq_self fun d hd => List.mem_singleton.mp hd ▸ hc
  rw [execute, hleaves]
  rfl

theorem performAll_eq_execute (app : App) (cs : List Command) : app.performAll cs = app.execute cs := by
  refine Command.nestedList_induction (P := fun c => ∀ app : App, app.perform c = app.execute [c])
    (Q := fun cs => ∀ app : App, app.performAll cs = app.execute cs) (fun c hc app => ?_) (fun items hitems app => ?_)
    (fun _ => rfl) (fun c rest hc hrest app => ?_) cs app
  · rw [perform_of_isLeaf app hc, execute_of_isLeaf app hc]
  · have hleaves : leavesOf [.batch items] = leavesOf items := List.append_nil _
    rw [execute, hleaves]
    exact hitems app
  · rw [performAll, hc, hrest, ← execute_append, List.singleton_append]

theorem execute_eq_foldl (app : App) (cs : List Command) :
    app.execute cs = (leavesOf cs).foldl (fun app c => app.execute [c]) app := by
  have hone (app : App) : ∀ c ∈ leavesOf cs, app.executeLeaf c = app.execute [c] := fun c hc =>
    (app.execute_of_isLeaf (Command.isLeaf_of_mem_leavesOf cs c hc)).symm
  exact List.foldl_ext _ _ app hone

theorem execute_spawns (app : App) (cs : List Command) :
    (app.execute cs).spawns = app.spawns ++ (leavesOf cs).filterMap Command.spawn? := by
  unfold execute
  generalize leavesOf cs = leaves
  induction leaves generalizing app with
  | nil => exact (List.append_nil _).symm
  | cons c rest ih =>
    rw [List.foldl_cons, ih]
    cases c with
    | spawn r => simp [executeLeaf, Command.spawn?]
    | _ => rfl

def stopped (app : App) : App := { app with isRunning := false }

theorem executeLeaf_stopped (app : App) (c : Command) : app.stopped.executeLeaf c = (app.executeLeaf c).stopped := by
  cases c <;> rfl

theorem execute_stopped (app : App) (cs : List Command) : app.stopped.execute cs = (app.execute cs).stopped := by
  unfold execute
  generalize leavesOf cs = leaves
  induction leaves generalizing app with
  | nil => rfl
  | cons c rest ih => rw [List.foldl_cons, List.foldl_cons, executeLeaf_stopped, ih]

theorem execute_quit (app : App) {cs before after : List Command} (h : leavesOf cs = before ++ .quit :: after) :
    app.execute cs = (app.execute (before ++ after)).stopped := by
  have hmem := Command.isLeaf_of_mem_leavesOf cs
  rw [h] at hmem
  have hbefore : leavesOf before = before := Command.leavesOf_eq_self fun c hc => hmem c (List.mem_append_left _ hc)
  have hafter : leavesOf after = after :=
    Command.leavesOf_eq_self fun c hc => hmem c (List.mem_append_right _ (List.mem_cons_of_mem _ hc))
  have hregrouped : leavesOf cs = leavesOf (before ++ .quit :: after) := by
    rw [Command.leavesOf_append, Command.leavesOf_cons, hbefore, hafter, h]
    rfl
  calc app.execute cs
      = app.execute (before ++ .quit :: after) := congrArg (List.foldl executeLeaf app) hregrouped
    _ = (app.execute before).stopped.execute after := by rw [execute_append]; rfl
    _ = (app.execute (before ++ after)).stopped := by rw [execute_stopped, execute_append]

/-- Batches only group. Of the commands in them the leaves are listed, each once and in its turn, and lists of commands
have the same leaves if and only if they differ in their batches alone. What is executed, one after another and to the
last one, are the leaves. -/
theorem execute_leaves (app : App) (cs : List Command) :
    (∀ c ∈ leavesOf cs, c.IsLeaf) ∧ (Command.batch cs).Lists (Command.batch cs).leafPlaces (leavesOf cs) ∧
      (∀ ds, leavesOf (cs ++ ds) = leavesOf cs ++ leavesOf ds) ∧
      (∀ ds, Command.Regroups cs ds ↔ leavesOf cs = leavesOf ds) ∧
      app.execute cs = app.performAll cs ∧ app.execute cs = (leavesOf cs).foldl (fun app c => app.execute [c]) app ∧
      (∀ ds, Command.Regroups cs ds → app.execute ds = app.execute cs) ∧
      (app.execute cs).spawns = app.spawns ++ (leavesOf cs).filterMap Command.spawn? ∧
      ∀ before after, leavesOf cs = before ++ .quit :: after →
        app.execute cs = (app.execute (before ++ after)).stopped := by
  refine ⟨Command.isLeaf_of_mem_leavesOf cs, Command.lists_leaves (.batch cs), Command.leavesOf_append cs,
    fun _ => Command.regroups_iff, (app.performAll_eq_execute cs).symm, app.execute_eq_foldl cs, ?_,
    app.execute_spawns cs, fun _ _ => app.execute_quit⟩
  intro ds hregroups
  have hleaves : leavesOf ds = leavesOf cs := hregroups.leavesOf_eq.symm
  exact congrArg (List.foldl executeLeaf app) hleaves

theorem execute_leaves_ending :
    let app : App := { machine := { host := { state := {}, index := quiet.index } } }
    let cs : List Command := [.batch [.newQuery "tag:todo", .batch [.quit, .refresh]], .nextQuery]
    let ds : List Command := [.batch [.newQuery "tag:todo", .quit, .refresh], .nextQuery]
    Command.Regroups cs ds ∧ app.execute ds = app.execute cs ∧
      leavesOf cs = [.newQuery "tag:todo"] ++ .quit :: [.refresh, .nextQuery] ∧
      app.execute cs = (app.execute [.newQuery "tag:todo", .refresh, .nextQuery]).stopped ∧
      (app.execute cs).searches = [⟨"tag:todo", 0⟩, ⟨"tag:todo", 0⟩, ⟨"query:INBOX", 0⟩] := by
  intro app cs ds
  have hunwraps : Command.Unwraps cs ds := .within [] [.nextQuery] (.here [.newQuery "tag:todo"] [.quit, .refresh] [])
  have hregroups : Command.Regroups cs ds := .rel _ _ hunwraps
  have hquit : leavesOf cs = [.newQuery "tag:todo"] ++ .quit :: [.refresh, .nextQuery] := rfl
  have hsearches : (app.execute cs).searches = [⟨"tag:todo", 0⟩, ⟨"tag:todo", 0⟩, ⟨"query:INBOX", 0⟩] := by
    decide +kernel +zetaReduce
  obtain ⟨-, -, -, -, -, -, hregrouped, -, hended⟩ := app.execute_leaves cs
  exact ⟨hregroups, hregrouped ds hregroups, hquit, hended _ _ hquit, hsearches⟩

end Triage.App
