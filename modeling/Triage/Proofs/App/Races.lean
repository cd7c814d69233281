import Triage.Proofs.App.Results

/-! Searches that race. Every search that was started ends once, in any order. A result is taken to be stale if its
query is not the current one, so that a search overtaken by a newer one for the same query counts all the same. -/

namespace Triage

theorem App.Desk.Shows.eq {d : App.Desk} {threads : List Thread} (h : d.Shows threads d.tagRuns) :
    d.state.messages.threads = threads := by
  obtain ⟨calls, runs, hruns, hcalls, hthreads⟩ := h
  obtain rfl : runs = [] := List.self_eq_append_right.mp hruns
  obtain rfl : calls = [] := List.map_eq_nil_iff.mp (List.sublist_nil.mp hcalls)
  exact hthreads

namespace App

open Script (Machine)

structure Delivery where
  number : Nat
  result : Except String (List Thread)
  past : List (List String)
  deriving DecidableEq

def loadOf? (app : App) (d : Delivery) : Option Load :=
  match app.searches[d.number]?, d.result with
  | some s, .ok threads => if app.state.queries.current.text = s.query then some ⟨threads, d.past⟩ else none
  | _, _ => none

/-- An application together with the searches that ended, the latest first. -/
structure Race where
  app : App
  delivered : List Delivery := []

inductive Turn where
  | told (m : Moment) (s : Stimulus)
  | delivers (m : Moment) (number : Nat) (result : Except String (List Thread))

def Stimulus.isResult : Stimulus → Bool
  | .event (.searchFinished ..) => true
  | _ => false

namespace Race

def turn (r : Race) : Turn → Option Race
  | .told m s => if s.isResult then none else ((r.app.during m).react s).map ({ r with app := · })
  | .delivers m number result =>
    if r.delivered.any (·.number == number) then none
    else r.app.searches[number]?.bind fun s =>
      ((r.app.during m).react (.event (.searchFinished s.query result s.row))).map
        (⟨·, ⟨number, result, r.app.machine.host.tagRuns⟩ :: r.delivered⟩)

def run (r : Race) : List Turn → Option Race
  | [] => some r
  | t :: rest => (r.turn t).bind (run · rest)

def IsOver (r : Race) : Prop := ∀ number < r.app.searches.length, ∃ d ∈ r.delivered, d.number = number

def IsNewest (r : Race) (d : Delivery) : Prop := d.number + 1 = r.app.searches.length

/-- If the search started last succeeded, then its threads are listed, save for later tag calls. -/
def NewestWins (r : Race) : Prop :=
  ∀ d ∈ r.delivered, r.IsNewest d → ∀ threads, d.result = .ok threads → r.app.machine.host.Shows threads d.past

/-- Another search for the same query succeeded after the one started last had ended. -/
def Overtaken (r : Race) : Prop :=
  ∃ later d earlier, r.delivered = later ++ d :: earlier ∧ r.IsNewest d ∧ ∃ d' ∈ later, (r.app.loadOf? d').isSome

structure Keeps (r : Race) (loaded : Load) : Prop where
  stands : r.app.Stands loaded
  started : ∀ d ∈ r.delivered, d.number < r.app.searches.length
  latest : ∀ d ∈ r.delivered, r.IsNewest d → ∀ threads, d.result = .ok threads →
    r.delivered.findSome? r.app.loadOf? = some loaded

variable {r r' : Race} {loaded : Load}

theorem loadOf?_congr {app app' : App} (hsearches : app'.searches = app.searches)
    (hqueries : app'.state.queries = app.state.queries) : app'.loadOf? = app.loadOf? := by
  funext d
  rw [loadOf?, loadOf?, hsearches, hqueries]

theorem loadOf?_newest (h : r.app.Stands loaded) {d : Delivery} (hnewest : r.IsNewest d) {threads : List Thread}
    (hok : d.result = .ok threads) : r.app.loadOf? d = some ⟨threads, d.past⟩ := by
  have hnumber : d.number = r.app.searches.length - 1 := Nat.eq_sub_of_add_eq hnewest
  have hlt : d.number < r.app.searches.length := Nat.lt_of_succ_le (Nat.le_of_eq hnewest)
  have hlast : r.app.searches.getLast? = some r.app.searches[d.number] := by
    rw [List.getLast?_eq_getElem?, ← hnumber, List.getElem?_eq_getElem hlt]
  rw [loadOf?, List.getElem?_eq_getElem hlt, hok]
  exact if_pos (h.searching _ hlast).symm

theorem loadOf?_of_load? {app : App} {number : Nat} {s : Search} (hs : app.searches[number]? = some s)
    (result : Except String (List Thread)) :
    app.loadOf? ⟨number, result, app.machine.host.tagRuns⟩ =
      app.load? (.event (.searchFinished s.query result s.row)) := by
  rw [loadOf?, hs]
  cases result <;> rfl

theorem Keeps.told {m : Moment} {s : Stimulus} {app : App} (h : r.Keeps loaded) (hs : s.isResult = false)
    (hreact : (r.app.during m).react s = some app) : Keeps { r with app } loaded := by
  have hduring := h.stands.during m
  have hnone : (r.app.during m).load? s = none := by
    cases s with
    | start => rfl
    | event e =>
      cases e with
      | searchFinished => cases hs
      | _ => rfl
  have hstands := hduring.react hreact
  rw [hnone] at hstands
  obtain ⟨started, hstarted, hkept, -⟩ := ((follows_of_react hduring.sound hreact).proceeds hnone).searches
  have hsearches : app.searches = r.app.searches ++ started := hstarted
  refine ⟨hstands, fun d hd => ?_, fun d hd hnewest threads hok => ?_⟩
  · have hlt := h.started d hd
    rw [hsearches, List.length_append]
    omega
  · -- A search started since would be newer than every one that has ended.
    have hlt := h.started d hd
    have hlast : d.number + 1 = app.searches.length := hnewest
    rw [hsearches, List.length_append] at hlast
    obtain rfl : started = [] := List.length_eq_zero_iff.mp (by omega)
    rw [List.append_nil] at hsearches
    have hnewest' : r.IsNewest d := hnewest.trans (congrArg List.length hsearches)
    rw [loadOf?_congr hsearches (hkept rfl)]
    exact h.latest d hd hnewest' threads hok

theorem Keeps.delivers {m : Moment} {number : Nat} {s : Search} {result : Except String (List Thread)} {app : App}
    (h : r.Keeps loaded) (hs : r.app.searches[number]? = some s)
    (hreact : (r.app.during m).react (.event (.searchFinished s.query result s.row)) = some app) :
    ∃ loaded, Keeps ⟨app, ⟨number, result, r.app.machine.host.tagRuns⟩ :: r.delivered⟩ loaded := by
  have hstands : app.Stands ((r.app.load? (.event (.searchFinished s.query result s.row))).getD loaded) :=
    (h.stands.during m).react hreact
  obtain rfl := Option.some.inj hreact
  obtain ⟨hsearches, hqueries⟩ := (r.app.during m).searchFinished_keeps s.query result s.row
  have hsame : ((r.app.during m).searchFinished s.query result s.row).loadOf? = r.app.loadOf? :=
    loadOf?_congr hsearches hqueries
  have hended := loadOf?_of_load? hs result
  have hstarted : ∀ d ∈ (⟨number, result, r.app.machine.host.tagRuns⟩ : Delivery) :: r.delivered,
      d.number < ((r.app.during m).searchFinished s.query result s.row).searches.length := by
    rw [hsearches]
    exact List.forall_mem_cons.mpr ⟨(List.getElem?_eq_some_iff.mp hs).1, h.started⟩
  cases hload : r.app.load? (.event (.searchFinished s.query result s.row)) with
  | some found =>
    rw [hload] at hstands
    refine ⟨found, hstands, hstarted, fun d _ _ threads _ => ?_⟩
    rw [hsame, List.findSome?_cons, hended, hload]
  | none =>
    rw [hload] at hstands
    refine ⟨loaded, hstands, hstarted, fun d hd hnewest threads hok => ?_⟩
    have hnewest : r.IsNewest d := hnewest.trans (congrArg List.length hsearches)
    rw [hsame, List.findSome?_cons, hended, hload]
    rcases List.mem_cons.mp hd with rfl | hd
    · -- The search started last counts if it succeeds.
      have hcounts := loadOf?_newest h.stands hnewest hok
      rw [hended, hload] at hcounts
      cases hcounts
    · exact h.latest d hd hnewest threads hok

theorem Keeps.turn {t : Turn} (h : r.Keeps loaded) (hturn : r.turn t = some r') : ∃ loaded, r'.Keeps loaded := by
  cases t with
  | told m s =>
    obtain ⟨hs, hturn⟩ := Option.ite_none_left_eq_some.mp hturn
    obtain ⟨app, hreact, rfl⟩ := Option.map_eq_some_iff.mp hturn
    exact ⟨loaded, h.told (Bool.eq_false_iff.mpr hs) hreact⟩
  | delivers m number result =>
    obtain ⟨-, hturn⟩ := Option.ite_none_left_eq_some.mp hturn
    obtain ⟨s, hs, hturn⟩ := Option.bind_eq_some_iff.mp hturn
    obtain ⟨app, hreact, rfl⟩ := Option.map_eq_some_iff.mp hturn
    exact h.delivers hs hreact

theorem Keeps.run {turns : List Turn} (h : r.Keeps loaded) (hrun : r.run turns = some r') :
    ∃ loaded, r'.Keeps loaded := by
  induction turns generalizing r loaded with
  | nil =>
    obtain rfl := Option.some.inj hrun
    exact ⟨loaded, h⟩
  | cons t rest ih =>
    obtain ⟨next, hnext, hrest⟩ := Option.bind_eq_some_iff.mp hrun
    obtain ⟨loaded, hkeeps⟩ := h.turn hnext
    exact ih hkeeps hrest

theorem Keeps.newest (h : r.Keeps loaded) {d : Delivery} (hd : d ∈ r.delivered) (hnewest : r.IsNewest d)
    {threads : List Thread} (hok : d.result = .ok threads) (hnot : ¬ r.Overtaken) : loaded = ⟨threads, d.past⟩ := by
  obtain ⟨later, earlier, hsplit⟩ := List.append_of_mem hd
  have hlater : later.findSome? r.app.loadOf? = none := by
    refine List.findSome?_eq_none_iff.mpr fun d' hd' => Option.not_isSome_iff_eq_none.mp fun hcounts => ?_
    exact hnot ⟨later, d, earlier, hsplit, hnewest, d', hd', hcounts⟩
  have hlatest := h.latest d hd hnewest threads hok
  rw [hsplit, List.findSome?_append, hlater, Option.none_or, List.findSome?_cons,
    loadOf?_newest h.stands hnewest hok] at hlatest
  exact (Option.some.inj hlatest).symm

variable {queries : List SearchQuery} {index : Index.Client} {script : Script.Source} {now : Instant} {clock : Clock}
    {created : App}
  {turns : List Turn}

/-- Once the search started last has succeeded, the listing is the latest success of all searches for its query. That
is its own success, unless an older search for the same query succeeded after it. -/
theorem run_newest (hcreate : create queries index script now clock = some (.ok created))
    (hrun : run { app := created } turns = some r) :
    (∀ d ∈ r.delivered, r.IsNewest d → ∀ threads, d.result = .ok threads →
      ∃ loaded, r.delivered.findSome? r.app.loadOf? = some loaded ∧
        r.app.machine.host.Shows loaded.threads loaded.past) ∧
      (¬ r.Overtaken → r.NewestWins) := by
  have hcreated : Keeps { app := created } {} := ⟨created_stands hcreate, by simp, by simp⟩
  obtain ⟨loaded, hkeeps⟩ := hcreated.run hrun
  refine ⟨fun d hd hnewest threads hok => ⟨loaded, hkeeps.latest d hd hnewest threads hok, hkeeps.stands.shows⟩, ?_⟩
  intro hnot d hd hnewest threads hok
  obtain rfl := hkeeps.newest hd hnewest hok hnot
  exact hkeeps.stands.shows

def crossing : List Turn :=
  [.told quiet .start, .told quiet (.event (.key "n")), .told quiet (.event (.key "p")),
    .delivers quiet 2 (.ok [{ messages := [{ id := "a" }, { id := "b" }] }]),
    .delivers quiet 1 (.ok [{ messages := [{ id := "x" }] }]),
    .delivers quiet 0 (.ok [{ messages := [{ id := "a" }] }])]

theorem run_crossing :
    ∃ created r, create twoQueries quiet.index switching 0 = some (.ok created) ∧
      run { app := created } crossing = some r ∧
      r.app.searches.length = 3 ∧ r.app.machine.host.tagRuns = [] ∧
      r.app.state.messages.threads = [{ messages := [{ id := "a" }] }] ∧
      r.delivered = [⟨0, .ok [{ messages := [{ id := "a" }] }], []⟩, ⟨1, .ok [{ messages := [{ id := "x" }] }], []⟩,
        ⟨2, .ok [{ messages := [{ id := "a" }, { id := "b" }] }], []⟩] := by
  have hseen : ((create twoQueries quiet.index switching 0).bind fun made => made.toOption.bind fun created =>
      (run { app := created } crossing).map fun r =>
        (r.app.searches.length, r.app.machine.host.tagRuns, r.app.state.messages.threads, r.delivered)) =
      some (3, [], [{ messages := [{ id := "a" }] }],
        [⟨0, .ok [{ messages := [{ id := "a" }] }], []⟩, ⟨1, .ok [{ messages := [{ id := "x" }] }], []⟩,
          ⟨2, .ok [{ messages := [{ id := "a" }, { id := "b" }] }], []⟩]) := by
    decide +kernel
  obtain ⟨created, hcreate, hrun⟩ := created_of_bind hseen
  obtain ⟨r, hrun, hr⟩ := Option.map_eq_some_iff.mp hrun
  obtain ⟨hsearches, htags, hthreads, hdelivered⟩ := by simpa only [Prod.mk.injEq] using hr
  exact ⟨created, r, hcreate, hrun, hsearches, htags, hthreads, hdelivered⟩

theorem run_newest_crossing :
    ∃ created r, create twoQueries quiet.index switching 0 = some (.ok created) ∧
      run { app := created } crossing = some r ∧
      ∃ loaded, r.delivered.findSome? r.app.loadOf? = some loaded ∧
        r.app.machine.host.Shows loaded.threads loaded.past := by
  obtain ⟨created, r, hcreate, hrun, hsearches, -, -, hdelivered⟩ := run_crossing
  refine ⟨created, r, hcreate, hrun, ?_⟩
  exact (run_newest hcreate hrun).1 ⟨2, .ok [{ messages := [{ id := "a" }, { id := "b" }] }], []⟩
    (by rw [hdelivered]; decide) hsearches.symm _ rfl

/-- The older search ends last, and what it found replaces what the newer one found. -/
theorem crossing_not_newestWins :
    ∃ created r, create twoQueries quiet.index switching 0 = some (.ok created) ∧
      run { app := created } crossing = some r ∧ r.IsOver ∧ ¬ r.NewestWins := by
  obtain ⟨created, r, hcreate, hrun, hsearches, htags, hthreads, hdelivered⟩ := run_crossing
  refine ⟨created, r, hcreate, hrun, ?_, fun hwins => ?_⟩
  · rw [IsOver, hsearches, hdelivered]
    decide
  · have hnewest := hwins ⟨2, .ok [{ messages := [{ id := "a" }, { id := "b" }] }], []⟩
      (by rw [hdelivered]; decide) hsearches.symm _ rfl
    have hlisted := Desk.Shows.eq (htags ▸ hnewest)
    exact absurd (hthreads.symm.trans hlisted) (by decide)

end Race
end App
end Triage
