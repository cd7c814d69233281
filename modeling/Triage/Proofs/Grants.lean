import Triage.Proofs.Footprint

/-! What a call of `glance.input` or `glance.spawn` leaves behind when it is granted: a prompt and a request take a
handle each, and nobody else has it. -/

namespace Triage.Script

open Session Capability

variable {σ : Type} {self : Recur σ} {callers : Callers} {args : List Value} {v : Value} {m m' : Machine σ}

namespace Capability

def Reads (self : Recur σ) (callers : Callers) (v : Value) (m : Machine σ) (o : PromptOptions)
    (seen : Machine σ) : Prop :=
  ∃ r m₁ m₂ offered, v = .table r ∧ textOption self r "prompt" callers m = .done (.ok o.label) m₁ ∧
    textOption self r "placeholder" callers m₁ = .done (.ok o.placeholder) m₂ ∧
    option self r "with_input" callers m₂ = .done (.ok offered) seen ∧
    match o.callback with
    | some f => offered = .function f
    | none => offered = .nil

theorem reads_of_promptOptions {o : PromptOptions} {seen : Machine σ}
    (h : promptOptions self v callers m = .done (.ok o) seen) : Reads self callers v m o seen := by
  unfold promptOptions at h
  split at h
  · next r =>
    obtain ⟨label, m₁, hlabel, h⟩ := Eval.bind_eq_done.mp h
    cases label with
    | error e => cases h
    | ok label =>
      obtain ⟨placeholder, m₂, hplaceholder, h⟩ := Eval.bind_eq_done.mp h
      cases placeholder with
      | error e => cases h
      | ok placeholder =>
        obtain ⟨offered, m₃, hoffered, h⟩ := Eval.bind_eq_done.mp h
        cases offered with
        | error e => cases h
        | ok offered => cases offered <;> cases h <;> exact ⟨r, m₁, m₂, _, rfl, hlabel, hplaceholder, hoffered, rfl⟩
  · cases h

/-- A prompt was asked for. It has the next handle, and its function, if it has one, waits under that. -/
structure Asks (o : PromptOptions) (m m' : Machine σ) : Prop where
  handles : m'.session.inputHandles = m.session.inputHandles.next.2
  objects : m'.heap.objects =
    m.heap.objects.push (.command (.openInput o.label o.placeholder m.session.inputHandles.next.1))
  noted : .minted m.session.inputHandles.next.1 (.prompt o) ∈ m'.session.journal
  asked : asked m'.session.journal = asked m.session.journal ++ [o.prompt m.session.inputHandles.next.1]
  callback : ∀ f, o.callback = some f → m'.session.callbacks.get? m.session.inputHandles.next.1 = some f
  others : ∀ k, k ≠ m.session.inputHandles.next.1 ∨ o.callback = none →
    m'.session.callbacks.get? k = m.session.callbacks.get? k
  stack : m'.session.prompts = m.session.prompts

theorem asks_prompted (o : PromptOptions) (m : Machine σ) : Asks o m (m.prompted o) := by
  obtain ⟨label, placeholder, callback⟩ := o
  have hinsert (f : Nat) : (m.prompted ⟨label, placeholder, some f⟩).session.callbacks =
      m.session.callbacks.insert m.session.inputHandles.next.1 f := rfl
  refine ⟨?_, ?_, ?_, asked_mintInput _ _, fun f hf => ?_, fun k hk => ?_, ?_⟩
  · cases callback <;> rfl
  · rw [Machine.prompted, fst_mintInput]
    rfl
  · cases callback with
    | none => exact List.mem_cons_self
    | some f => exact List.mem_cons_of_mem _ List.mem_cons_self
  · obtain rfl : callback = some f := hf
    rw [hinsert, Callbacks.get?_insert, if_pos rfl]
  · cases callback with
    | none => rfl
    | some f =>
      have hne := hk.resolve_right (Option.some_ne_none f)
      rw [hinsert, Callbacks.get?_insert, if_neg hne]
  · cases callback <;> rfl

end Capability

variable [Host σ]

def Machine.reported (m : Machine σ) (e : Error) : Machine σ := { m with host := Host.report m.host e }

def Machine.handed (m : Machine σ) (o : HostObject) : Machine σ := { m with heap := (m.heap.newObject o).2 }

def Machine.queued (m : Machine σ) (request : SpawnRequest) : Value → Machine σ
  | .nil => { m with session := m.session.accept request }
  | .function f => { m with session := (m.session.hold request.handle f).accept request }
  | _ => { m.reported (.invalidClosure request.handle) with session := m.session.accept request }

namespace Capability

theorem inputCall_of_checked {o : PromptOptions} {seen : Machine σ}
    (h : promptOptions self (args.headD .nil) callers m = .done (.ok o) seen) :
    inputCall self args callers m = .done [.object seen.heap.objects.size] (seen.prompted o) := Eval.bind_of_done h

/-- A call that returns was rejected for an error, or asked for the one prompt whose command it returns. -/
def AskedOrRefused (self : Recur σ) (callers : Callers) (v : Value) (m : Machine σ) (answer : List Value)
    (m' : Machine σ) : Prop :=
  (∃ e seen, promptOptions self v callers m = .done (.error e) seen ∧ answer = [.nil] ∧ m' = seen.reported e) ∨
    ∃ o seen, Reads self callers v m o seen ∧ answer = [.object seen.heap.objects.size] ∧ Asks o seen m'

theorem inputCall_asks {answer : List Value} (h : inputCall self args callers m = .done answer m') :
    AskedOrRefused self callers (args.headD .nil) m answer m' := by
  obtain ⟨checked, seen, hcheck, hrest⟩ := Eval.bind_eq_done.mp h
  cases checked with
  | error e =>
    obtain ⟨rfl, rfl⟩ := Outcome.done.inj hrest
    exact .inl ⟨e, seen, hcheck, rfl, rfl⟩
  | ok o =>
    obtain ⟨rfl, rfl⟩ := Outcome.done.inj ((inputCall_of_checked hcheck).symm.trans h)
    exact .inr ⟨o, seen, reads_of_promptOptions hcheck, rfl, asks_prompted o seen⟩

theorem launch_eq (argv : List String) (timeoutMillis : Option Nat) (offered : Eval σ (Except Error Value)) :
    launch argv timeoutMillis offered m = match offered { m with session := m.session.mintSpawn.2 } with
      | .done (.ok v) seen => .done (.ok ()) (seen.queued ⟨argv, timeoutMillis, m.session.mintSpawn.1⟩ v)
      | .done (.error e) seen => .done (.error e) seen
      | .raised w seen => .raised w seen
      | .exhausted => .exhausted := by
  unfold launch
  change (offered >>= _) { m with session := m.session.mintSpawn.2 } = _
  rw [Eval.bind_apply]
  cases offered { m with session := m.session.mintSpawn.2 } with
  | done checked seen =>
    cases checked with
    | error e => rfl
    | ok v => cases v <;> rfl
  | raised | exhausted => rfl

theorem spawnCall_of_checked {o : SpawnOptions} {seen : Machine σ}
    (hcheck : spawnOptions self (args.headD .nil) callers m = .done (.ok o) seen) :
    spawnCall self args callers m = (do
      match ← launch o.argv o.timeoutMillis (option self o.table "next" callers) with
      | .ok () => pure []
      | .error e => reject e []) seen := Eval.bind_of_done hcheck

theorem spawnCall_of_offered {o : SpawnOptions} {offered : Value} {seen seen' : Machine σ}
    (hcheck : spawnOptions self (args.headD .nil) callers m = .done (.ok o) seen)
    (hoffer : option self o.table "next" callers { seen with session := seen.session.mintSpawn.2 } =
      .done (.ok offered) seen') :
    spawnCall self args callers m =
      .done [] (seen'.queued ⟨o.argv, o.timeoutMillis, seen.session.mintSpawn.1⟩ offered) := by
  rw [spawnCall_of_checked hcheck, Eval.bind_apply, launch_eq, hoffer]
  rfl

/-- A request was made, and nothing else was. -/
structure Requests (r : SpawnRequest) (m m' : Machine σ) : Prop where
  outbox : m'.session.outbox = m.session.outbox ++ [r]
  accepted : accepted m'.session.journal = accepted m.session.journal ++ [r]

theorem requests_queued (r : SpawnRequest) (offered : Value) (m : Machine σ) : Requests r m (m.queued r offered) := by
  cases offered <;> exact ⟨rfl, rfl⟩

def RequestedOrRefused (self : Recur σ) (callers : Callers) (v : Value) (m m' : Machine σ) : Prop :=
  (∃ e seen, spawnOptions self v callers m = .done (.error e) seen ∧ m' = seen.reported e) ∨
    ∃ o checked, spawnOptions self v callers m = .done (.ok o) checked ∧
      ((∃ e seen, option self o.table "next" callers { checked with session := checked.session.mintSpawn.2 } =
          .done (.error e) seen ∧ m' = seen.reported e) ∨
        ∃ offered seen, option self o.table "next" callers { checked with session := checked.session.mintSpawn.2 } =
          .done (.ok offered) seen ∧ Requests ⟨o.argv, o.timeoutMillis, checked.session.spawnHandles.next.1⟩ seen m')

theorem spawnCall_requests {answer : List Value} (h : spawnCall self args callers m = .done answer m') :
    RequestedOrRefused self callers (args.headD .nil) m m' := by
  obtain ⟨checks, checked, hcheck, hrest⟩ := Eval.bind_eq_done.mp h
  cases checks with
  | error e =>
    obtain ⟨-, rfl⟩ := Outcome.done.inj hrest
    exact .inl ⟨e, checked, hcheck, rfl⟩
  | ok o =>
    refine .inr ⟨o, checked, hcheck, ?_⟩
    rw [spawnCall_of_checked hcheck, Eval.bind_apply, launch_eq] at h
    cases hoffer : option self o.table "next" callers { checked with session := checked.session.mintSpawn.2 } with
    | done offers seen =>
      rw [hoffer] at h
      cases offers with
      | error e =>
        obtain ⟨-, rfl⟩ := Outcome.done.inj h
        exact .inl ⟨e, seen, rfl, rfl⟩
      | ok offered =>
        obtain ⟨-, rfl⟩ := Outcome.done.inj h
        exact .inr ⟨offered, seen, rfl, requests_queued _ offered seen⟩
    | raised w seen =>
      rw [hoffer] at h
      cases h
    | exhausted =>
      rw [hoffer] at h
      cases h

end Capability
end Triage.Script
