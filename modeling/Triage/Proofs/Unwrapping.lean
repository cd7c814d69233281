import Mathlib.Logic.Relation
import Triage.Dispatch
import Triage.Proofs.Commands
import Triage.Proofs.Outcomes

/-! What unwrapping means. A walk goes over values that are still ahead, each at some depth, and meets commands and
failures one after another; what a value yields are the commands that its walk meets. -/

namespace Triage.Dispatch

open Script Command

variable {σ : Type} [Host σ]

inductive Sighting where
  | command (c : Command)
  | failure (cause : ScriptError)

def Sighting.command? : Sighting → Option Command
  | .command c => some c
  | .failure _ => none

def Sighting.failure? : Sighting → Option ScriptError
  | .command _ => none
  | .failure cause => some cause

def commands (met : List Sighting) : List Command := met.filterMap Sighting.command?

def failures (met : List Sighting) : List ScriptError := met.filterMap Sighting.failure?

theorem commands_append (met met' : List Sighting) : commands (met ++ met') = commands met ++ commands met' :=
  List.filterMap_append

theorem failures_append (met met' : List Sighting) : failures (met ++ met') = failures met ++ failures met' :=
  List.filterMap_append

def tooDeep : ScriptError := .raised ("command nested deeper than " ++ toString unwrapLimit ++ " levels")

/-- The values still ahead are met from the first to the last. -/
structure Walk (σ : Type) where
  ahead : List (Nat × Value)
  machine : Machine σ
  met : List Sighting := []

namespace Walk

def fail (w : Walk σ) (cause : ScriptError) : Walk σ where
  ahead := w.ahead
  machine := { w.machine with host := Host.report w.machine.host (.script cause) }
  met := w.met ++ [.failure cause]

def present (w : Walk σ) (c : Command) : Walk σ where
  ahead := w.ahead
  machine := match c with
    | .openInput label placeholder handle =>
      { w.machine with session := w.machine.session.openPrompt ⟨label, placeholder, handle⟩ }
    | _ => w.machine
  met := w.met ++ [.command c]

def enter (w : Walk σ) (depth : Nat) (vs : List Value) : Walk σ := { w with ahead := vs.map (depth + 1, ·) ++ w.ahead }

end Walk

variable (self : Recur σ)

def called (f : Nat) : Eval σ (Except ScriptError (List Value)) :=
  Capability.guarded self (self.call (.function f) [] {}) {}

def Walk.step (w : Walk σ) : Option (Walk σ) :=
  match w.ahead with
  | [] => none
  | (depth, v) :: ahead =>
    let w := { w with ahead }
    if unwrapLimit ≤ depth then some (w.fail tooDeep)
    else match v with
      | .function f =>
        match called self f w.machine with
        | .done (.ok vs) machine => some ({ w with machine }.enter depth vs)
        | .done (.error cause) machine => some ({ w with machine }.fail cause)
        | _ => none
      | .table r => some (w.enter depth (w.machine.heap.table r).sequence)
      | .object r =>
        match w.machine.heap.objects[r]? with
        | some (HostObject.command c) => some (w.present c)
        | _ => some w
      | _ => some w

abbrev Walk.Leads (w w' : Walk σ) : Prop := Relation.ReflTransGen (fun w w' => w.step self = some w') w w'

def Walk.Starves (w : Walk σ) : Prop :=
  ∃ w' depth f ahead, w.Leads self w' ∧ w'.ahead = (depth, .function f) :: ahead ∧
    called self f w'.machine = .exhausted

variable {self}

theorem Walk.Starves.of_leads {w w' : Walk σ} (hw : w.Leads self w') (hs : w'.Starves self) : w.Starves self := by
  obtain ⟨w'', depth, f, ahead, hw'', hcall⟩ := hs
  exact ⟨w'', depth, f, ahead, hw.trans hw'', hcall⟩

omit [Host σ] in
theorem called_returns (f : Nat) (m : Machine σ) :
    (called self f m).Returns (called self f m = .exhausted) fun r m' => called self f m = .done r m' :=
  (Capability.guarded_returns _ _ _).self

/-- How a computation ends that goes along a walk up to what is behind, and yields the commands met on the way. -/
def Walk.Yields {α : Type} (self : Recur σ) (w : Walk σ) (behind : List (Nat × Value)) (yields : α → List Command) :
    Outcome σ α → Prop :=
  Outcome.Returns (w.Starves self) fun a m =>
    ∃ new, w.Leads self ⟨behind, m, w.met ++ new⟩ ∧ leavesOf (yields a) = leavesOf (commands new) ∧
      (areNormal (commands new) → areNormal (yields a))

theorem Walk.Yields.of_step {α : Type} {w w' : Walk σ} {behind : List (Nat × Value)} {yields : α → List Command}
    {o : Outcome σ α} (hstep : w.step self = some w') (hmet : w'.met = w.met) (ho : w'.Yields self behind yields o) :
    w.Yields self behind yields o := by
  have hleads : w.Leads self w' := .single hstep
  refine Outcome.Returns.imp ho (.of_leads hleads) fun a m ⟨new, hnew, hyields⟩ => ⟨new, ?_, hyields⟩
  rw [← hmet]
  exact hleads.trans hnew

/-- A computation goes along a walk over some values, whatever is behind them. -/
def Follows {α : Type} (self : Recur σ) (front : List (Nat × Value)) (x : Eval σ α)
    (yields : α → List Command) : Prop :=
  ∀ behind m met, Walk.Yields self ⟨front ++ behind, m, met⟩ behind yields (x m)

theorem collect_follows {unwrap : Value → Eval σ (Option Command)} {depth : Nat}
    (hu : ∀ v, Follows self [(depth, v)] (unwrap v) Option.toList) (vs : List Value) :
    Follows self (vs.map (depth, ·)) (collect unwrap vs) id := by
  induction vs with
  | nil => exact fun behind m met => ⟨[], by simpa using .refl, rfl, id⟩
  | cons v vs ih =>
    intro behind m met
    -- The other values of the list are behind the first one, and nothing that it yields can change that.
    refine Outcome.Returns.bind (hu v (vs.map (depth, ·) ++ behind) m met) fun c m' ⟨new, hnew, hleaves, hnormal⟩ => ?_
    refine Outcome.Returns.bind (Outcome.Returns.imp (ih behind m' (met ++ new)) (.of_leads hnew) fun _ _ h => h) ?_
    rintro cs m'' ⟨new', hnew', hleaves', hnormal'⟩
    refine ⟨new ++ new', ?_, ?_, ?_⟩
    · rw [← List.append_assoc]
      exact hnew.trans hnew'
    · rw [id] at hleaves' ⊢
      rw [commands_append, leavesOf_append, leavesOf_append, hleaves, hleaves']
    · intro h
      rw [commands_append, areNormal_append, Bool.and_eq_true] at h
      rw [id, areNormal_append, Bool.and_eq_true]
      exact ⟨hnormal h.1, hnormal' h.2⟩

theorem Follows.ofList {front : List (Nat × Value)} {x : Eval σ (List Command)} (hx : Follows self front x id) :
    Follows self front (x >>= fun cs => pure (Command.ofList cs)) Option.toList := by
  intro behind m met
  refine Outcome.Returns.bind (hx behind m met) fun cs m' ⟨new, hnew, hleaves, hnormal⟩ => ?_
  refine ⟨new, hnew, ?_, fun h => areNormal_ofList (hnormal h)⟩
  rw [leavesOf_ofList]
  exact hleaves

theorem call_follows {depth f : Nat} {deeper : List Value → Eval σ (List Command)} (hdepth : depth < unwrapLimit)
    (hd : ∀ vs : List Value, Follows self (vs.map (depth + 1, ·)) (deeper vs) id) :
    Follows self [(depth, .function f)] (do
      match ← call? self f [] with
      | some vs => return Command.ofList (← deeper vs)
      | none => pure none) Option.toList := by
  intro behind m met
  have hstep : Walk.step self ⟨(depth, .function f) :: behind, m, met⟩ = match called self f m with
      | .done (.ok vs) m' => some (Walk.enter ⟨behind, m', met⟩ depth vs)
      | .done (.error cause) m' => some (Walk.fail ⟨behind, m', met⟩ cause)
      | _ => none := by
    simp [Walk.step, Nat.not_le.mpr hdepth]
  -- The walk has taken its step by the time the call is over, with what it returned ahead or a failure behind.
  refine Outcome.Returns.bind (P := fun vs? m' => match vs? with
    | some vs => Walk.step self ⟨(depth, .function f) :: behind, m, met⟩ = some (Walk.enter ⟨behind, m', met⟩ depth vs)
    | none => ∃ cause,
        Walk.Leads self ⟨(depth, .function f) :: behind, m, met⟩ ⟨behind, m', met ++ [.failure cause]⟩) ?_ ?_
  · have hstarves (hcall : called self f m = .exhausted) :
        Walk.Starves self ⟨(depth, .function f) :: behind, m, met⟩ :=
      ⟨_, depth, f, behind, .refl, rfl, hcall⟩
    refine Outcome.Returns.bind ((called_returns f m).imp hstarves fun _ _ h => h) fun r m' hr => ?_
    rw [hr] at hstep
    cases r with
    | ok vs => exact hstep
    | error cause => exact ⟨cause, .single hstep⟩
  · intro vs? m' hvs
    cases vs? with
    | some vs => exact Walk.Yields.of_step hvs rfl ((hd vs).ofList behind m' met)
    | none =>
      obtain ⟨cause, hleads⟩ := hvs
      exact ⟨[.failure cause], hleads, rfl, id⟩

theorem object_follows {depth r : Nat} (hdepth : depth < unwrapLimit) (levels : Nat) :
    Follows self [(depth, .object r)] (unwrap self (levels + 1) (.object r)) Option.toList := by
  intro behind m met
  have hstep : Walk.step self ⟨(depth, .object r) :: behind, m, met⟩ = match m.heap.objects[r]? with
      | some (HostObject.command c) => some (Walk.present ⟨behind, m, met⟩ c)
      | _ => some ⟨behind, m, met⟩ := by
    simp [Walk.step, Nat.not_le.mpr hdepth]
  have hrun : unwrap self (levels + 1) (.object r) m = match m.heap.objects[r]? with
      | some (HostObject.command c) => .done (some c) (Walk.present ⟨behind, m, met⟩ c).machine
      | _ => .done none m := by
    rw [unwrap, Eval.bind_apply, Eval.readHeap]
    cases m.heap.objects[r]? with
    | none => rfl
    | some o =>
      cases o with
      | message => rfl
      | command c => cases c <;> rfl
  rw [hrun]
  cases ho : m.heap.objects[r]? with
  | none =>
    rw [ho] at hstep
    exact ⟨[], .single (by simpa using hstep), rfl, id⟩
  | some o =>
    rw [ho] at hstep
    cases o with
    | message => exact ⟨[], .single (by simpa using hstep), rfl, id⟩
    | command c => exact ⟨[.command c], .single hstep, rfl, id⟩

theorem unwrap_follows {levels depth : Nat} (hdepth : unwrapLimit - depth = levels) (v : Value) :
    Follows self [(depth, v)] (unwrap self levels v) Option.toList := by
  -- Values may contain themselves, so that only the levels left can carry the induction.
  induction levels generalizing depth v with
  | zero =>
    intro behind m met
    have hstep : Walk.step self ⟨(depth, v) :: behind, m, met⟩ = some (Walk.fail ⟨behind, m, met⟩ tooDeep) := by
      simp [Walk.step, show unwrapLimit ≤ depth by omega]
    exact ⟨[.failure tooDeep], .single hstep, rfl, id⟩
  | succ levels ih =>
    have hlt : ¬ unwrapLimit ≤ depth := by omega
    have hdeeper (vs : List Value) : Follows self (vs.map (depth + 1, ·)) (collect (unwrap self levels) vs) id :=
      collect_follows (fun w => ih (by omega) w) vs
    cases v with
    | function f => exact call_follows (Nat.lt_of_not_le hlt) hdeeper
    | table r =>
      intro behind m met
      have hstep : Walk.step self ⟨(depth, .table r) :: behind, m, met⟩ =
          some (Walk.enter ⟨behind, m, met⟩ depth (m.heap.table r).sequence) := by
        simp [Walk.step, hlt]
      exact .of_step hstep rfl ((hdeeper _).ofList behind m met)
    | object r => exact object_follows (Nat.lt_of_not_le hlt) levels
    | nil | bool | int | float | text =>
      refine fun behind m met => ⟨[], .single ?_, rfl, id⟩
      simp [Walk.step, hlt]

theorem unwrap_follows_top (v : Value) : Follows self [(0, v)] (unwrap self unwrapLimit v) Option.toList :=
  unwrap_follows rfl v

theorem Walk.Leads.end_unique {w w' w'' : Walk σ} (h' : w.Leads self w') (h'' : w.Leads self w'') (hw' : w'.ahead = [])
    (hw'' : w''.ahead = []) : w' = w'' := by
  have hdone {v v' : Walk σ} (hv : v.ahead = []) (hleads : v.Leads self v') : v = v' := by
    rcases hleads.cases_head with heq | ⟨u, hu, -⟩
    · exact heq
    · simp [Walk.step, hv] at hu
  have hunique : Relator.RightUnique fun w w' : Walk σ => w.step self = some w' := fun w u u' hu hu' =>
    Option.some.inj (hu.symm.trans hu')
  rcases h'.total_of_right_unique hunique h'' with hleads | hleads
  · exact hdone hw' hleads
  · exact (hdone hw'' hleads).symm

inductive Walk.Moves (self : Recur σ) (w : Walk σ) : Walk σ → Prop
  | past (ahead) : Moves self w { w with ahead }
  | returned {f vs machine} (ahead) :
    called self f w.machine = .done (.ok vs) machine → Moves self w { w with ahead, machine }
  | raised {f cause machine} (ahead) :
    called self f w.machine = .done (.error cause) machine → Moves self w ({ w with ahead, machine }.fail cause)
  | deep (ahead) : Moves self w ({ w with ahead }.fail tooDeep)
  | met {c} (ahead) : .command c ∈ w.machine.heap.objects → Moves self w ({ w with ahead }.present c)

theorem Walk.moves_of_step {w w' : Walk σ} (hstep : w.step self = some w') : w.Moves self w' := by
  obtain ⟨ahead, machine, met⟩ := w
  cases ahead with
  | nil => simp [Walk.step] at hstep
  | cons front ahead =>
    obtain ⟨depth, v⟩ := front
    by_cases hdeep : unwrapLimit ≤ depth
    · obtain rfl : Walk.fail ⟨ahead, machine, met⟩ tooDeep = w' := by simpa [Walk.step, hdeep] using hstep
      exact .deep ahead
    · cases v with
      | function f =>
        simp only [Walk.step, hdeep, if_false] at hstep
        cases hcall : called self f machine with
        | done r m =>
          rw [hcall] at hstep
          cases r with
          | ok vs =>
            obtain rfl := Option.some.inj hstep
            exact .returned _ hcall
          | error cause =>
            obtain rfl := Option.some.inj hstep
            exact .raised _ hcall
        | raised | exhausted => simp [hcall] at hstep
      | table r =>
        obtain rfl : Walk.enter ⟨ahead, machine, met⟩ depth (machine.heap.table r).sequence = w' := by
          simpa [Walk.step, hdeep] using hstep
        exact .past _
      | object r =>
        simp only [Walk.step, hdeep, if_false] at hstep
        split at hstep
        · next c hc =>
          obtain rfl := Option.some.inj hstep
          exact .met _ (Array.mem_of_getElem? hc)
        · obtain rfl := Option.some.inj hstep
          exact .past _
      | nil | bool | int | float | text =>
        obtain rfl : Walk.mk ahead machine met = w' := by simpa [Walk.step, hdeep] using hstep
        exact .past ahead

theorem Walk.Leads.relates {R : Machine σ → List Sighting → Machine σ → Prop} (hrefl : ∀ m, R m [] m)
    (htrans : ∀ {m₁ m₂ m₃ met met'}, R m₁ met m₂ → R m₂ met' m₃ → R m₁ (met ++ met') m₃)
    (hmove : ∀ {w w' : Walk σ}, w.Moves self w' → ∃ new, w'.met = w.met ++ new ∧ R w.machine new w'.machine)
    {w w' : Walk σ} (hw : w.Leads self w') : ∃ new, w'.met = w.met ++ new ∧ R w.machine new w'.machine := by
  induction hw with
  | refl => exact ⟨[], (List.append_nil _).symm, hrefl _⟩
  | tail _ hstep ih =>
    obtain ⟨new, hmet, hrel⟩ := ih
    obtain ⟨new', hmet', hrel'⟩ := hmove (Walk.moves_of_step hstep)
    exact ⟨new ++ new', by rw [hmet', hmet, List.append_assoc], htrans hrel hrel'⟩

def reportAll (host : σ) (causes : List ScriptError) : σ :=
  causes.foldl (fun host cause => Host.report host (.script cause)) host

theorem reportAll_failures_append (host : σ) (met met' : List Sighting) :
    reportAll host (failures (met ++ met')) = reportAll (reportAll host (failures met)) (failures met') := by
  rw [failures_append]
  exact List.foldl_append

theorem Walk.Leads.host_eq (hquiet : ∀ f m r m', called self f m = .done r m' → m'.host = m.host) {w w' : Walk σ}
    (hw : w.Leads self w') :
    ∃ new, w'.met = w.met ++ new ∧ w'.machine.host = reportAll w.machine.host (failures new) := by
  refine hw.relates (R := fun m met m' => m'.host = reportAll m.host (failures met)) (fun _ => rfl) ?_ ?_
  · intro m₁ m₂ m₃ met met' h₁ h₂
    rw [h₂, h₁, reportAll_failures_append]
  · intro w w' hmove
    cases hmove with
    | past => exact ⟨[], (List.append_nil _).symm, rfl⟩
    | returned _ hcall => exact ⟨[], (List.append_nil _).symm, hquiet _ _ _ _ hcall⟩
    | raised _ hcall => exact ⟨[.failure _], rfl, congrArg (Host.report · _) (hquiet _ _ _ _ hcall)⟩
    | deep => exact ⟨[.failure _], rfl, rfl⟩
    | @met c => exact ⟨[.command c], rfl, by cases c <;> rfl⟩

/-- Unwrapping a value at some depth ends if all calls end. Its walk then has one end, at the machine that is left, and
what is yielded are the commands met on the way. The failures met are reported, and nothing else is. -/
theorem unwrap_meets (self : Recur σ) (depth : Nat) (v : Value) (m : Machine σ) :
    ((∀ f m', called self f m' ≠ .exhausted) → ∃ c m', unwrap self (unwrapLimit - depth) v m = .done c m') ∧
      (unwrap self (unwrapLimit - depth) v m).Returns (Walk.Starves self ⟨[(depth, v)], m, []⟩) fun c m' =>
        ∃ met, (∀ w, w.ahead = [] → (Walk.Leads self ⟨[(depth, v)], m, []⟩ w ↔ w = ⟨[], m', met⟩)) ∧
          ((∀ k ∈ commands met, k.IsLeaf) → leavesOf c.toList = commands met ∧ areNormal c.toList) ∧
          ((∀ f m r m', called self f m = .done r m' → m'.host = m.host) →
            m'.host = reportAll m.host (failures met)) := by
  have hfollows : Walk.Yields self ⟨[(depth, v)], m, []⟩ [] Option.toList (unwrap self (unwrapLimit - depth) v m) :=
    unwrap_follows rfl v [] m []
  refine ⟨fun hends => ?_, Outcome.Returns.imp hfollows id fun c m' ⟨met, hleads, hleaves, hnormal⟩ => ?_⟩
  · cases hrun : unwrap self (unwrapLimit - depth) v m with
    | done c m' => exact ⟨c, m', rfl⟩
    | raised w m' =>
      rw [hrun] at hfollows
      exact hfollows.elim
    | exhausted =>
      rw [hrun] at hfollows
      obtain ⟨w, depth, f, ahead, -, -, hcall⟩ := hfollows
      exact absurd hcall (hends f w.machine)
  · refine ⟨met, fun w hw => ⟨fun hw' => hw'.end_unique hleads hw rfl, ?_⟩, fun hleaf => ?_, fun hquiet => ?_⟩
    · rintro rfl
      exact hleads
    · exact ⟨hleaves.trans (leavesOf_eq_self hleaf), hnormal (areNormal_of_isLeaf hleaf)⟩
    · obtain ⟨new, hmet, hhost⟩ := hleads.host_eq hquiet
      obtain rfl : met = new := by simpa using hmet
      exact hhost

example : (unwrap (fun _ => Eval.raise .nil) unwrapLimit (.table 0)
    ({ heap := { tables := #[.ofList [.table 0] 0] }, host := {} } : Machine MemoryHost)).Returns False
      fun c m => c.isNone ∧ m.host.errors.length = 1 := by
  exact ⟨rfl, rfl⟩

end Triage.Dispatch
