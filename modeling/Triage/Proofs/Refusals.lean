import Triage.Proofs.App.Hosts
import Triage.Proofs.Grants
import Triage.Proofs.Outcomes

/-! Calls that are rejected. Whatever a script hands to a capability, the call returns. A call that is rejected reports
the one cause of it, and leaves all that the application holds as it was, but for what metamethods of the argument did
while it was looked into. -/

namespace Triage

/-- A host whose listing and theme change neither by a report nor by a tag call that fails. -/
class Host.Steady (σ : Type) [Host σ] where
  /-- The theme that was set last. -/
  theme : σ → Option Theme
  theme_setTheme (host : σ) (t : Theme) : theme (Host.setTheme host t) = some t
  allMessages_report (host : σ) (e : Error) : Host.allMessages (Host.report host e) = Host.allMessages host
  theme_report (host : σ) (e : Error) : theme (Host.report host e) = theme host
  allMessages_tag {host host' : σ} {ids : List MessageId} {operations : List String} {e : Error} :
    Host.tag host ids operations = (.error e, host') → Host.allMessages host' = Host.allMessages host
  theme_tag {host host' : σ} {ids : List MessageId} {operations : List String} {e : Error} :
    Host.tag host ids operations = (.error e, host') → theme host' = theme host

instance : Host.Steady MemoryHost where
  theme := (·.theme)
  theme_setTheme _ _ := rfl
  allMessages_report _ _ := rfl
  theme_report _ _ := rfl
  allMessages_tag h := nomatch (Prod.mk.inj h).1
  theme_tag h := nomatch (Prod.mk.inj h).1

namespace App

theorem Desk.state_of_tag {d d' : Desk} {ids : List MessageId} {operations : List String} {e : Error}
    (h : Host.tag d ids operations = (.error e, d')) : d'.state = d.state := by
  cases hindex : d.index.tag ids operations with
  | ok =>
    obtain ⟨_, hok, -⟩ := Desk.tag_of_ok (c := ⟨ids, operations⟩) hindex
    rw [hok] at h
    exact nomatch (Prod.mk.inj h).1
  | error e' =>
    obtain ⟨_, herror, hstate⟩ := Desk.tag_of_error hindex
    rw [herror] at h
    obtain rfl := (Prod.mk.inj h).2
    exact hstate

instance : Host.Steady Desk where
  theme d := some d.state.theme
  theme_setTheme _ _ := rfl
  allMessages_report _ _ := rfl
  theme_report _ _ := rfl
  allMessages_tag h := congrArg (·.messages.rows) (Desk.state_of_tag h)
  theme_tag h := congrArg (some ·.theme) (Desk.state_of_tag h)

end App

namespace Script

open Capability

variable {σ α β : Type} [Host σ]

structure Machine.Keeps [Host.Steady σ] (m m' : Machine σ) : Prop where
  outbox : m'.session.outbox = m.session.outbox
  callbacks : m'.session.callbacks = m.session.callbacks
  prompts : m'.session.prompts = m.session.prompts
  messages : Host.allMessages m'.host = Host.allMessages m.host
  theme : Host.Steady.theme m'.host = Host.Steady.theme m.host

namespace Machine.Keeps

variable [Host.Steady σ] {m m' m'' : Machine σ}

theorem refl (m : Machine σ) : m.Keeps m := ⟨rfl, rfl, rfl, rfl, rfl⟩

theorem trans (h : m.Keeps m') (h' : m'.Keeps m'') : m.Keeps m'' where
  outbox := h'.outbox.trans h.outbox
  callbacks := h'.callbacks.trans h.callbacks
  prompts := h'.prompts.trans h.prompts
  messages := h'.messages.trans h.messages
  theme := h'.theme.trans h.theme

theorem reported (m : Machine σ) (e : Error) : m.Keeps (m.reported e) :=
  ⟨rfl, rfl, rfl, Host.Steady.allMessages_report _ e, Host.Steady.theme_report _ e⟩

end Machine.Keeps

namespace Capability

def nothing : Capability → List Value
  | .input => [.nil]
  | .newQuery => [.nil]
  | .logIndex => [.nil]
  | _ => []

def Shows : Capability → Prop
  | .setStatus => True
  | .logLine _ => True
  | _ => False

section Terms

variable (self : Recur σ) (callers : Callers)

/-- One thing that a call does before it is rejected: it reads a field of its argument, metamethods and all, uses up a
handle, or asks the host for a change of tags that fails. -/
inductive Trial (v : Value) (m : Machine σ) : Machine σ → Prop
  | read {r : Nat} {field : String} {x : Except Error Value} {m' : Machine σ} :
    v = .table r → option self r field callers m = .done x m' → Trial v m m'
  | minted : Trial v m { m with session := m.session.mintSpawn.2 }
  | tagFailed {ids : List MessageId} {operations : List String} {e : Error} {host : σ} :
    Host.tag m.host ids operations = (.error e, host) → Trial v m { m with host }

abbrev Trials (v : Value) : Machine σ → Machine σ → Prop := Relation.ReflTransGen (Trial self callers v)

def Stuck (v : Value) (m : Machine σ) : Prop :=
  ∃ r field seen, v = .table r ∧ Trials self callers v m seen ∧ option self r field callers seen = .exhausted

/-- What the call needs of its argument does not end. -/
def Starves (c : Capability) (args : List Value) (m : Machine σ) : Prop :=
  match c with
  | .input => Stuck self callers (args.headD .nil) m
  | .spawn => Stuck self callers (args.headD .nil) m
  | .setTheme => Stuck self callers (args.headD .nil) m
  | .setStatus => displayText self (args.headD .nil) (callers.push none) m = .exhausted
  | .logLine _ => displayText self (args.headD .nil) (callers.push none) m = .exhausted
  | _ => False

def failure? : Outcome σ (Except Error α) → Option (Error × Machine σ)
  | .done (.error e) m => some (e, m)
  | _ => none

def refusal? (c : Capability) (args : List Value) (m : Machine σ) : Option (Error × Machine σ) :=
  let v := args.headD .nil
  match c with
  | .tag => failure? (tagWith v ((args.drop 1).filterMap (·.plainText?.map lossy)) m)
  | .input => failure? (promptOptions self v callers m)
  | .spawn =>
    match spawnOptions self v callers m with
    | .done (.ok o) seen =>
      failure? (option self o.table "next" callers { seen with session := seen.session.mintSpawn.2 })
    | checked => failure? checked
  | .setTheme =>
    match v with
    | .table r => failure? (readColors self r callers Theme.colors {} m)
    | v => some (.invalidArguments (.theme v.kind), m)
  | .newQuery =>
    match v with
    | .text _ => none
    | v => some (.invalidArguments (.queryText v.kind), m)
  | .logIndex =>
    match args.getD 1 .nil with
    | .text _ => none
    | _ => some (.invalidArguments .logLevel, m)
  | _ => none

def Granted (c : Capability) (args : List Value) (m : Machine σ) (answer : List Value) (m' : Machine σ) : Prop :=
  let v := args.headD .nil
  match c with
  | .tag => ∃ ids operations host,
    Host.tag m.host ids operations = (.ok (), host) ∧ answer = [] ∧ m' = { m with host }
  | .input => ∃ o seen,
    promptOptions self v callers m = .done (.ok o) seen ∧ answer = [.object seen.heap.objects.size] ∧
      m' = seen.prompted o
  | .spawn => ∃ o seen offered seen',
    spawnOptions self v callers m = .done (.ok o) seen ∧
      option self o.table "next" callers { seen with session := seen.session.mintSpawn.2 } =
        .done (.ok offered) seen' ∧
      answer = [] ∧ m' = seen'.queued ⟨o.argv, o.timeoutMillis, seen.session.mintSpawn.1⟩ offered
  | .setTheme => ∃ r theme seen,
    v = .table r ∧ readColors self r callers Theme.colors {} m = .done (.ok theme) seen ∧ answer = [] ∧
      m' = { seen with host := Host.setTheme seen.host theme }
  | .logLine level => ∃ text seen,
    displayText self v (callers.push none) m = .done text seen ∧ answer = [] ∧
      m' = { seen with host := Host.log seen.host level text }
  | .setStatus => ∃ text seen,
    (v = .nil ∧ text = "" ∧ seen = m ∨ v ≠ .nil ∧ displayText self v (callers.push none) m = .done text seen) ∧
      answer = [.object seen.heap.objects.size] ∧ m' = seen.handed (.command (.setStatus text))
  | .newQuery => ∃ text,
    v = .text text ∧ answer = [.object m.heap.objects.size] ∧ m' = m.handed (.command (.newQuery (lossy text)))
  | .act a => answer = [.object m.heap.objects.size] ∧ m' = m.handed (.command a.command)
  | .getStatus => answer = [textValue (Host.status m.host)] ∧ m' = m
  | .selectedMessage =>
    match Host.selectedMessage? m.host with
    | some message => answer = [.object m.heap.objects.size] ∧ m' = m.handed (.message message)
    | none => answer = [.nil] ∧ m' = m
  | _ => ∃ shown heap, answer = [shown] ∧ m' = { m with heap }

/-- A call gives nothing and reports why, if it is rejected, and else does what it is for. -/
def Answers (c : Capability) (args : List Value) (m : Machine σ) (answer : List Value) (m' : Machine σ) : Prop :=
  match refusal? self callers c args m with
  | some (e, seen) => Trials self callers (args.headD .nil) m seen ∧ answer = c.nothing ∧ m' = seen.reported e
  | none => Granted self callers c args m answer m'

end Terms

section Checks

variable {self : Recur σ} {callers : Callers} {v : Value}

theorem Stuck.of_trials {m m' : Machine σ} (h : Trials self callers v m m') (hs : Stuck self callers v m') :
    Stuck self callers v m := by
  obtain ⟨r, field, seen, hv, htrials, hstuck⟩ := hs
  exact ⟨r, field, seen, hv, h.trans htrials, hstuck⟩

variable (self callers v) in
def Checks (x : Eval σ α) (P : α → Prop) : Prop :=
  ∀ m, (x m).Returns (Stuck self callers v m) fun a m' => P a ∧ Trials self callers v m m'

theorem Checks.pure {P : α → Prop} {a : α} (ha : P a) : Checks self callers v (pure a : Eval σ α) P :=
  fun _ => ⟨ha, .refl⟩

theorem Checks.bind {x : Eval σ α} {f : α → Eval σ β} {P : β → Prop} (hx : Checks self callers v x fun _ => True)
    (hf : ∀ a, Checks self callers v (f a) P) : Checks self callers v (x >>= f) P := fun m =>
  (hx m).bind fun a m' ⟨_, h⟩ => (hf a m').imp (.of_trials h) fun _ _ ⟨hb, h'⟩ => ⟨hb, h.trans h'⟩

theorem Checks.option (r : Nat) (field : String) :
    Checks self callers (.table r) (option self r field callers) fun _ => True := by
  intro m
  have hreturns : (Capability.option self r field callers m).Returns True fun _ _ => True :=
    (guarded_returns _ _ _).bind fun _ _ _ => trivial
  exact hreturns.self.imp (fun h => ⟨r, field, m, rfl, .refl, h⟩) fun _ _ h => ⟨trivial, .single (.read rfl h)⟩

theorem Checks.textOption (r : Nat) (field : String) :
    Checks self callers (.table r) (textOption self r field callers) fun _ => True := by
  unfold Capability.textOption
  refine (Checks.option r field).bind fun x => ?_
  split <;> exact .pure trivial

theorem Checks.promptOptions : Checks self callers v (promptOptions self v callers) fun _ => True := by
  unfold Capability.promptOptions
  split
  · next r =>
    refine (Checks.textOption r _).bind fun label => ?_
    split
    · exact .pure trivial
    · refine (Checks.textOption r _).bind fun placeholder => ?_
      split
      · exact .pure trivial
      · refine (Checks.option r _).bind fun callback => ?_
        split
        · exact .pure trivial
        · split <;> exact .pure trivial
  · exact .pure trivial

theorem Checks.argvTable (r : Nat) : Checks self callers (.table r) (argvTable self r callers) fun _ => True := by
  unfold Capability.argvTable
  refine (Checks.option r _).bind fun x => ?_
  split <;> exact .pure trivial

theorem Checks.spawnOptions :
    Checks self callers v (spawnOptions self v callers) fun checked => ∀ o, checked = .ok o → v = .table o.table := by
  unfold Capability.spawnOptions
  split
  · next r =>
    refine (Checks.argvTable r).bind fun list => ?_
    split
    · exact .pure nofun
    · refine Checks.bind (fun _ => ⟨trivial, .refl⟩) fun values => ?_
      split
      · exact .pure nofun
      · refine (Checks.option r _).bind fun timeout => ?_
        split
        · exact .pure nofun
        · split
          · exact .pure nofun
          · refine .pure fun o ho => ?_
            cases ho
            rfl
  · exact .pure nofun

theorem Checks.readColors (r : Nat) (colors : List Theme.Color) (theme : Theme) :
    Checks self callers (.table r) (readColors self r callers colors theme) fun _ => True := by
  induction colors generalizing theme with
  | nil => exact .pure trivial
  | cons color rest ih =>
    unfold Capability.readColors
    refine (Checks.option r _).bind fun x => ?_
    split
    · exact .pure trivial
    · exact ih _

theorem Checks.cases {x : Eval σ (Except Error α)} {P : Except Error α → Prop} (hx : Checks self callers v x P)
    (m : Machine σ) :
    (∃ e seen, x m = .done (.error e) seen ∧ Trials self callers v m seen) ∨
      (∃ a seen, x m = .done (.ok a) seen ∧ Trials self callers v m seen ∧ P (.ok a)) ∨
      x m = .exhausted ∧ Stuck self callers v m := by
  have hreturns := hx m
  cases hrun : x m with
  | done r seen =>
    rw [hrun] at hreturns
    cases r with
    | error e => exact .inl ⟨e, seen, rfl, hreturns.2⟩
    | ok a => exact .inr (.inl ⟨a, seen, rfl, hreturns.2, hreturns.1⟩)
  | raised w seen =>
    rw [hrun] at hreturns
    exact hreturns.elim
  | exhausted =>
    rw [hrun] at hreturns
    exact .inr (.inr ⟨rfl, hreturns⟩)

end Checks

section Calls

variable {self : Recur σ} {callers : Callers} {args : List Value} {m : Machine σ}

theorem answers_refused {c : Capability} {e : Error} {seen : Machine σ}
    (hrefusal : refusal? self callers c args m = some (e, seen))
    (htrials : Trials self callers (args.headD .nil) m seen) :
    Answers self callers c args m c.nothing (seen.reported e) := by
  unfold Answers
  rw [hrefusal]
  exact ⟨htrials, rfl, rfl⟩

theorem answers_granted {c : Capability} {answer : List Value} {m' : Machine σ}
    (hrefusal : refusal? self callers c args m = none) (hgranted : Granted self callers c args m answer m') :
    Answers self callers c args m answer m' := by
  unfold Answers
  rw [hrefusal]
  exact hgranted

theorem tagWith_cases (target : Value) (operations : List String) (m : Machine σ) :
    (∃ e, tagWith target operations m = .done (.error e) m) ∨
      ∃ ids r host, Host.tag m.host ids operations = (r, host) ∧
        tagWith target operations m = .done r { m with host } := by
  unfold tagWith
  rw [Eval.bind_apply, Eval.readHeap]
  cases targetIds m.heap target with
  | error cause => exact .inl ⟨_, rfl⟩
  | ok ids =>
    by_cases hids : ids.isEmpty
    · exact .inl ⟨.invalidArguments .noMessages, by simp [hids]; rfl⟩
    · by_cases hoperations : operations.isEmpty
      · exact .inl ⟨.invalidArguments .noTags, by simp [hids, hoperations]; rfl⟩
      · exact .inr ⟨ids, _, _, rfl, by simp [hids, hoperations]; rfl⟩

theorem tagCall_answers : (tagCall args m).Returns False (Answers self callers .tag args m) := by
  unfold tagCall
  rw [Eval.bind_apply]
  rcases tagWith_cases (args.headD .nil) ((args.drop 1).filterMap (·.plainText?.map lossy)) m with
    ⟨e, hcheck⟩ | ⟨ids, r, host, htag, hcheck⟩
  · have hrefusal : refusal? self callers .tag args m = some (e, m) := by simp only [refusal?, hcheck, failure?]
    rw [hcheck]
    exact answers_refused hrefusal .refl
  · rw [hcheck]
    cases r with
    | error e =>
      have hrefusal : refusal? self callers .tag args m = some (e, { m with host }) := by
        simp only [refusal?, hcheck, failure?]
      exact answers_refused hrefusal (.single (.tagFailed htag))
    | ok =>
      have hrefusal : refusal? self callers .tag args m = none := by simp only [refusal?, hcheck, failure?]
      exact answers_granted hrefusal ⟨ids, _, host, htag, rfl, rfl⟩

theorem inputCall_answers :
    (inputCall self args callers m).Returns (Stuck self callers (args.headD .nil) m)
      (Answers self callers .input args m) := by
  have hchecks : Checks self callers (args.headD .nil) (promptOptions self (args.headD .nil) callers) fun _ => True :=
    .promptOptions
  unfold inputCall
  rw [Eval.bind_apply]
  rcases hchecks.cases m with ⟨e, seen, hcheck, htrials⟩ | ⟨o, seen, hcheck, -⟩ | ⟨hcheck, hstuck⟩
  · have hrefusal : refusal? self callers .input args m = some (e, seen) := by simp only [refusal?, hcheck, failure?]
    rw [hcheck]
    exact answers_refused hrefusal htrials
  · have hrefusal : refusal? self callers .input args m = none := by simp only [refusal?, hcheck, failure?]
    rw [hcheck]
    exact answers_granted hrefusal ⟨o, seen, hcheck, rfl, rfl⟩
  · rw [hcheck]
    exact hstuck

theorem spawnCall_answers :
    (spawnCall self args callers m).Returns (Stuck self callers (args.headD .nil) m)
      (Answers self callers .spawn args m) := by
  have hchecks : Checks self callers (args.headD .nil) (spawnOptions self (args.headD .nil) callers)
      fun checked => ∀ o, checked = .ok o → args.headD .nil = .table o.table := .spawnOptions
  rcases hchecks.cases m with ⟨e, seen, hcheck, htrials⟩ | ⟨o, seen, hcheck, htrials, htable⟩ | ⟨hcheck, hstuck⟩
  · have hrefusal : refusal? self callers .spawn args m = some (e, seen) := by simp only [refusal?, hcheck, failure?]
    unfold spawnCall
    rw [Eval.bind_apply, hcheck]
    exact answers_refused hrefusal htrials
  · have hoffered : Checks self callers (args.headD .nil) (option self o.table "next" callers) fun _ => True :=
      htable o rfl ▸ .option _ _
    have hminted := htrials.tail .minted
    rcases hoffered.cases { seen with session := seen.session.mintSpawn.2 } with
      ⟨e, seen', hoffer, htrials'⟩ | ⟨v, seen', hoffer, -⟩ | ⟨hoffer, hstuck⟩
    · have hrefusal : refusal? self callers .spawn args m = some (e, seen') := by
        simp only [refusal?, hcheck, hoffer, failure?]
      rw [spawnCall_of_checked hcheck, Eval.bind_apply, launch_eq, hoffer]
      exact answers_refused hrefusal (hminted.trans htrials')
    · have hrefusal : refusal? self callers .spawn args m = none := by
        simp only [refusal?, hcheck, hoffer, failure?]
      rw [spawnCall_of_offered hcheck hoffer]
      exact answers_granted hrefusal ⟨o, seen, v, seen', hcheck, hoffer, rfl, rfl⟩
    · rw [spawnCall_of_checked hcheck, Eval.bind_apply, launch_eq, hoffer]
      exact hstuck.of_trials hminted
  · unfold spawnCall
    rw [Eval.bind_apply, hcheck]
    exact hstuck

theorem setThemeCall_answers :
    (setThemeCall self args callers m).Returns (Stuck self callers (args.headD .nil) m)
      (Answers self callers .setTheme args m) := by
  unfold setThemeCall
  cases hv : args.headD .nil with
  | table r =>
    have hchecks : Checks self callers (.table r) (readColors self r callers Theme.colors {}) fun _ => True :=
      .readColors _ _ _
    dsimp only
    rw [Eval.bind_apply]
    rcases hchecks.cases m with ⟨e, seen, hcheck, htrials⟩ | ⟨theme, seen, hcheck, -⟩ | ⟨hcheck, hstuck⟩
    · have hrefusal : refusal? self callers .setTheme args m = some (e, seen) := by
        simp only [refusal?, hv, hcheck, failure?]
      rw [hcheck]
      exact answers_refused hrefusal (hv ▸ htrials)
    · have hrefusal : refusal? self callers .setTheme args m = none := by simp only [refusal?, hv, hcheck, failure?]
      rw [hcheck]
      exact answers_granted hrefusal ⟨r, theme, seen, hv, hcheck, rfl, rfl⟩
    · rw [hcheck]
      exact hstuck
  | nil | bool | int | float | text | function | object =>
    have hrefusal : refusal? self callers .setTheme args m =
        some (.invalidArguments (.theme (args.headD .nil).kind), m) := by
      simp only [refusal?, hv]
    rw [hv] at hrefusal
    exact answers_refused hrefusal .refl

theorem newQueryCall_answers : (newQueryCall args m).Returns False (Answers self callers .newQuery args m) := by
  unfold newQueryCall
  cases hv : args.headD .nil with
  | text b =>
    have hrefusal : refusal? self callers .newQuery args m = none := by simp only [refusal?, hv]
    exact answers_granted hrefusal ⟨b, hv, rfl, rfl⟩
  | nil | bool | int | float | table | function | object =>
    have hrefusal : refusal? self callers .newQuery args m =
        some (.invalidArguments (.queryText (args.headD .nil).kind), m) := by
      simp only [refusal?, hv]
    rw [hv] at hrefusal
    exact answers_refused hrefusal .refl

theorem logIndexCall_answers : (logIndexCall args m).Returns False (Answers self callers .logIndex args m) := by
  unfold logIndexCall
  cases hv : args.getD 1 .nil with
  | text b =>
    have hrefusal : refusal? self callers .logIndex args m = none := by simp only [refusal?, hv]
    exact answers_granted hrefusal ⟨_, _, rfl, rfl⟩
  | nil | bool | int | float | table | function | object =>
    have hrefusal : refusal? self callers .logIndex args m = some (.invalidArguments .logLevel, m) := by
      simp only [refusal?, hv]
    exact answers_refused hrefusal .refl

omit [Host σ] in
theorem displayText_returns (v : Value) (callers : Callers) (m : Machine σ) :
    (displayText self v callers m).Returns True fun _ _ => True := by
  unfold displayText
  split
  · trivial
  · rw [Eval.bind_apply, Eval.readHeap]
    refine (guarded_returns _ _ _).bind fun shown m' _ => ?_
    split <;> trivial

theorem setStatusCall_answers :
    (setStatusCall self args callers m).Returns (displayText self (args.headD .nil) (callers.push none) m = .exhausted)
      (Answers self callers .setStatus args m) := by
  have hrefusal : refusal? self callers .setStatus args m = none := rfl
  have hshown (hne : args.headD .nil ≠ .nil) :
      (displayText self (args.headD .nil) (callers.push none) >>= fun text => do
        return [← HostObject.newValue (.command (.setStatus text))]) m |>.Returns
          (displayText self (args.headD .nil) (callers.push none) m = .exhausted)
          (Answers self callers .setStatus args m) := by
    refine (displayText_returns _ _ _).self.bind fun text seen h => ?_
    exact answers_granted hrefusal ⟨text, seen, .inr ⟨hne, h⟩, rfl, rfl⟩
  unfold setStatusCall
  cases hv : args.headD .nil with
  | nil => exact answers_granted hrefusal ⟨"", m, .inl ⟨hv, rfl, rfl⟩, rfl, rfl⟩
  | bool | int | float | text | table | function | object =>
    rw [hv] at hshown
    exact hshown nofun

theorem logLineCall_answers (level : String) :
    (logLineCall self level args callers m).Returns
      (displayText self (args.headD .nil) (callers.push none) m = .exhausted)
      (Answers self callers (.logLine level) args m) := by
  unfold logLineCall
  refine (displayText_returns _ _ _).self.bind fun text seen h => ?_
  have hrefusal : refusal? self callers (.logLine level) args m = none := rfl
  exact answers_granted hrefusal ⟨text, seen, h, rfl, rfl⟩

omit [Host σ] in
theorem messageValues_eq (messages : List Message) (m : Machine σ) :
    ∃ vs heap, messageValues messages m = .done vs { m with heap } := by
  induction messages generalizing m with
  | nil => exact ⟨[], m.heap, rfl⟩
  | cons message rest ih =>
    let object := m.heap.newObject (.message message)
    obtain ⟨vs, heap, hrest⟩ := ih { m with heap := object.2 }
    refine ⟨.object object.1 :: vs, heap, ?_⟩
    unfold messageValues
    change (messageValues rest >>= _) { m with heap := object.2 } = _
    rw [Eval.bind_apply, hrest]
    rfl

theorem listMessages_answers {get : σ → List Message} {c : Capability}
    (hrefusal : refusal? self callers c args m = none)
    (hgranted : ∀ shown heap, Granted self callers c args m [shown] { m with heap }) :
    (listMessages get m).Returns False (Answers self callers c args m) := by
  obtain ⟨vs, heap, hvalues⟩ := messageValues_eq (get m.host) m
  unfold listMessages
  change ((messageValues (get m.host) >>= _) m).Returns _ _
  rw [Eval.bind_apply, hvalues]
  exact answers_granted hrefusal (hgranted _ _)

theorem selectedMessageCall_answers :
    ((selectedMessageCall : Eval σ _) m).Returns False (Answers self callers .selectedMessage args m) := by
  have hrefusal : refusal? self callers .selectedMessage args m = none := rfl
  unfold selectedMessageCall
  rw [Eval.bind_apply, Eval.readHost]
  cases hs : Host.selectedMessage? m.host with
  | none =>
    refine answers_granted hrefusal ?_
    unfold Granted
    dsimp only
    rw [hs]
    exact ⟨rfl, rfl⟩
  | some message =>
    refine answers_granted hrefusal ?_
    unfold Granted
    dsimp only
    rw [hs]
    exact ⟨rfl, rfl⟩

theorem run_answers (self : Recur σ) (c : Capability) (args : List Value) (callers : Callers) (m : Machine σ) :
    (run self c args callers m).Returns (Starves self callers c args m) (Answers self callers c args m) := by
  cases c with
  | tag => exact tagCall_answers
  | input => exact inputCall_answers
  | spawn => exact spawnCall_answers
  | setTheme => exact setThemeCall_answers
  | newQuery => exact newQueryCall_answers
  | logIndex => exact logIndexCall_answers
  | setStatus => exact setStatusCall_answers
  | logLine level => exact logLineCall_answers level
  | allMessages => exact listMessages_answers rfl fun shown heap => ⟨shown, heap, rfl, rfl⟩
  | markedMessages => exact listMessages_answers rfl fun shown heap => ⟨shown, heap, rfl, rfl⟩
  | selectedMessage => exact selectedMessageCall_answers
  | getStatus =>
    change Answers self callers .getStatus args m [_] m
    exact answers_granted rfl ⟨rfl, rfl⟩
  | act a =>
    change Answers self callers (.act a) args m [_] (m.handed _)
    exact answers_granted rfl ⟨rfl, rfl⟩

theorem call_capability {fuel f : Nat} {c : Capability}
    (hf : m.heap.functions[f]? = some (.capability c)) (hdepth : callers.depth < depthLimit)
    (hhidden : callers.hidden < hiddenLimit) :
    evaluate (fuel + 1) (.call (.function f) args callers) m = run (evaluate fuel) c args callers m := by
  change Evaluate.call (evaluate fuel) (.function f) args callers m = _
  simp only [Evaluate.call, Nat.not_le.mpr hdepth, Nat.not_le.mpr hhidden, if_false]
  rw [Eval.bind_apply, Eval.readHeap, hf]

end Calls

section Bare

variable {fuel : Nat} {callers : Callers} {v : Value} {m : Machine σ}

def IsBare (h : Heap) (v : Value) : Prop := ∀ r, v = .table r → (h.table r).metatable = none

omit [Host σ] in
theorem get_bare (self : Recur σ) (key : Value) (levels : Nat) {r : Nat} (hbare : (m.heap.table r).metatable = none) :
    ∃ own, Access.get self key callers (levels + 1) (.table r) m = .done own m := by
  have hmeta : m.heap.metafield (.table r) "__index" = .nil := by simp [Heap.metafield, Heap.metatable?, hbare]
  unfold Access.get
  rw [Eval.bind_apply, Eval.readHeap]
  by_cases hown : (((Key.of? key).map (m.heap.table r).get).getD .nil).isNil
  · refine ⟨.nil, ?_⟩
    simp only [hown, Bool.not_true, Bool.false_eq_true, if_false]
    change ((Eval.readHeap (·.metafield (.table r) "__index") >>= _) m : Outcome σ Value) = _
    rw [Eval.bind_apply, Eval.readHeap, hmeta]
    rfl
  · exact ⟨_, by simp only [hown, Bool.not_false, if_true]; rfl⟩

theorem option_bare (fuel : Nat) (field : String) {r : Nat} (hbare : (m.heap.table r).metatable = none) :
    ∃ x, option (evaluate (fuel + 1)) r field callers m = .done x m := by
  obtain ⟨own, hown⟩ := get_bare (evaluate fuel) (ascii field) 1999 hbare
  have hindex : (evaluate (fuel + 1)).index (.table r) (ascii field) (callers.push none) m = .done own m := hown
  have hattempt : Eval.attempt ((evaluate (fuel + 1)).index (.table r) (ascii field) (callers.push none)) m =
      .done (.ok own) m := by
    unfold Eval.attempt
    rw [hindex]
  refine ⟨.ok own, ?_⟩
  unfold option guarded
  rw [Eval.bind_apply, Eval.bind_apply, hattempt]
  rfl

theorem eq_of_option_bare {r : Nat} {field : String} {x : Except Error Value} {m' : Machine σ}
    (hbare : (m.heap.table r).metatable = none) (h : option (evaluate fuel) r field callers m = .done x m') :
    m' = m := by
  cases fuel with
  | zero => cases h
  | succ fuel =>
    obtain ⟨own, hown⟩ := option_bare fuel field hbare
    exact (Outcome.done.inj (h.symm.trans hown)).2

theorem Trials.heap_eq {seen : Machine σ} (h : Trials (evaluate fuel) callers v m seen) (hbare : IsBare m.heap v) :
    seen.heap = m.heap := by
  induction h with
  | refl => rfl
  | tail _ htrial ih =>
    cases htrial with
    | read hv hread => rw [eq_of_option_bare (ih ▸ hbare _ hv) hread, ih]
    | minted => exact ih
    | tagFailed => exact ih

theorem not_stuck_of_bare (hfuel : 0 < fuel) (hbare : IsBare m.heap v) : ¬ Stuck (evaluate fuel) callers v m := by
  rintro ⟨r, field, seen, hv, htrials, hstuck⟩
  obtain ⟨fuel, rfl⟩ := Nat.exists_eq_add_of_lt hfuel
  rw [Nat.zero_add] at hstuck htrials
  obtain ⟨x, hread⟩ := option_bare fuel field (htrials.heap_eq hbare ▸ hbare r hv)
  rw [hread] at hstuck
  cases hstuck

end Bare

section Keeps

variable [Host.Steady σ] {self : Recur σ} {callers : Callers} {v : Value} {m seen : Machine σ}

variable (self callers v m) in
def IsQuiet : Prop :=
  ∀ r field before x after, v = .table r → Trials self callers v m before →
    option self r field callers before = .done x after → before.Keeps after

theorem Trials.keeps (h : Trials self callers v m seen) (hquiet : IsQuiet self callers v m) : m.Keeps seen := by
  induction h with
  | refl => exact .refl m
  | tail htrials htrial ih =>
    refine ih.trans ?_
    cases htrial with
    | read hv hread => exact hquiet _ _ _ _ _ hv htrials hread
    | minted => exact ⟨rfl, rfl, rfl, rfl, rfl⟩
    | tagFailed htag => exact ⟨rfl, rfl, rfl, Host.Steady.allMessages_tag htag, Host.Steady.theme_tag htag⟩

theorem isQuiet_of_bare {fuel : Nat} (hbare : IsBare m.heap v) : IsQuiet (evaluate fuel) callers v m := by
  intro r field before x after hv htrials hread
  have hmeta : (before.heap.table r).metatable = none := htrials.heap_eq hbare ▸ hbare r hv
  rw [eq_of_option_bare hmeta hread]
  exact .refl before

/-- What becomes of a call that is rejected: it came as far as some machine, gives nothing, and reports the cause. What
the application holds is kept, if what the metamethods of the argument do keeps it, and if there are none. -/
structure Refused (self : Recur σ) (callers : Callers) (c : Capability) (args : List Value) (m : Machine σ) (e : Error)
    (seen : Machine σ) (answer : List Value) (m' : Machine σ) : Prop where
  trials : Trials self callers (args.headD .nil) m seen
  answer : answer = c.nothing
  reported : m' = seen.reported e
  keeps : IsQuiet self callers (args.headD .nil) m → m.Keeps m'
  bare : IsBare m.heap (args.headD .nil) → m.Keeps m'

/-- A call of a capability returns, unless a field of its argument or its text takes for ever. If it is rejected, it
gives nothing, one error is reported, and all else is as it was. If it is not, nothing is reported, except that a
program is run without a callback if what was offered as one is no function: that is reported once. -/
theorem run_refusals (fuel : Nat) (c : Capability) (args : List Value) (callers : Callers) (m : Machine σ) :
    (∀ f, m.heap.functions[f]? = some (.capability c) → callers.depth < depthLimit → callers.hidden < hiddenLimit →
      evaluate (fuel + 1) (.call (.function f) args callers) m = run (evaluate fuel) c args callers m) ∧
    ((run (evaluate fuel) c args callers m).Returns (Starves (evaluate fuel) callers c args m) fun answer m' =>
      match refusal? (evaluate fuel) callers c args m with
      | some (e, seen) => Refused (evaluate fuel) callers c args m e seen answer m'
      | none => Granted (evaluate fuel) callers c args m answer m') ∧
    (0 < fuel → IsBare m.heap (args.headD .nil) → ¬ c.Shows →
      ∃ answer m', run (evaluate fuel) c args callers m = .done answer m') ∧
    ∀ o seen offered seen', spawnOptions (evaluate fuel) (args.headD .nil) callers m = .done (.ok o) seen →
      option (evaluate fuel) o.table "next" callers { seen with session := seen.session.mintSpawn.2 } =
        .done (.ok offered) seen' → offered ≠ .nil → (∀ f, offered ≠ .function f) →
      ∃ m', run (evaluate fuel) .spawn args callers m = .done [] m' ∧
        m'.session.outbox = seen'.session.outbox ++ [⟨o.argv, o.timeoutMillis, seen.session.mintSpawn.1⟩] ∧
        m'.session.callbacks = seen'.session.callbacks ∧
        m'.host = Host.report seen'.host (.invalidClosure seen.session.mintSpawn.1) := by
  refine ⟨fun f hf hdepth hhidden => call_capability hf hdepth hhidden, ?_, fun hfuel hbare hshows => ?_, ?_⟩
  · refine (run_answers (evaluate fuel) c args callers m).imp id fun answer m' h => ?_
    unfold Answers at h
    cases hrefusal : refusal? (evaluate fuel) callers c args m with
    | none =>
      rw [hrefusal] at h
      exact h
    | some refusal =>
      rw [hrefusal] at h
      obtain ⟨htrials, hanswer, rfl⟩ := h
      have hkeeps (hquiet : IsQuiet (evaluate fuel) callers (args.headD .nil) m) :
          m.Keeps (refusal.2.reported refusal.1) :=
        (htrials.keeps hquiet).trans (.reported _ _)
      exact ⟨htrials, hanswer, rfl, hkeeps, fun hbare => hkeeps (isQuiet_of_bare hbare)⟩
  · have hanswers := run_answers (evaluate fuel) c args callers m
    cases hrun : run (evaluate fuel) c args callers m with
    | done answer m' => exact ⟨answer, m', rfl⟩
    | raised w m' =>
      rw [hrun] at hanswers
      exact hanswers.elim
    | exhausted =>
      rw [hrun] at hanswers
      cases c with
      | input | spawn | setTheme => exact (not_stuck_of_bare hfuel hbare hanswers).elim
      | setStatus | logLine => exact (hshows trivial).elim
      | _ => exact hanswers.elim
  · intro o seen offered seen' hcheck hoffer hnil hfunction
    refine ⟨_, spawnCall_of_offered hcheck hoffer, ?_⟩
    cases offered with
    | nil => exact absurd rfl hnil
    | function f => exact absurd rfl (hfunction f)
    | bool | int | float | text | table | object => exact ⟨rfl, rfl, rfl⟩

end Keeps

def clerk : Machine MemoryHost where
  heap.tables := #[(Table.ofList [textValue "true"] 0).set (.text "timeout".toUTF8) (textValue "soon"),
    (Table.ofList [textValue "true"] 0).set (.text "next".toUTF8) (.int 5)]
  heap.functions := #[.capability .spawn]
  host := {}

theorem run_refusals_spawn :
    (∃ m', evaluate 2 (.call (.function 0) [.table 0] {}) clerk = .done [] m' ∧ clerk.Keeps m' ∧
      m'.host.errors = [.invalidArguments (.spawnTimeout .string)]) ∧
    ∃ m', run (evaluate 1) .spawn [.table 1] {} clerk = .done [] m' ∧
      m'.session.outbox = [⟨["true"], none, ⟨"glance.spawn_callback_1"⟩⟩] ∧ m'.session.callbacks.entries = [] ∧
      m'.host.errors = [.invalidClosure ⟨"glance.spawn_callback_1"⟩] := by
  constructor
  · have hrefusal : refusal? (evaluate 1) {} .spawn [.table 0] clerk =
        some (.invalidArguments (.spawnTimeout .string), clerk) := by
      with_unfolding_all rfl
    have hbare : IsBare clerk.heap (.table 0) := by
      rintro r hr
      cases hr
      decide +kernel
    obtain ⟨hcall, hreturns, hends, -⟩ := run_refusals 1 .spawn [.table 0] {} clerk
    obtain ⟨answer, m', hrun⟩ := hends (by decide) hbare (by simp [Shows])
    rw [hrun, hrefusal] at hreturns
    obtain ⟨-, hanswer, hreported, -, hkeeps⟩ := hreturns
    refine ⟨m', ?_, hkeeps hbare, ?_⟩
    · rw [hcall 0 rfl (by decide) (by decide), hrun, hanswer]
      rfl
    · rw [hreported]
      rfl
  · obtain ⟨-, -, -, hlenient⟩ := run_refusals 1 .spawn [.table 1] {} clerk
    have hcheck : spawnOptions (evaluate 1) (.table 1) {} clerk = .done (.ok ⟨["true"], none, 1⟩) clerk := by
      with_unfolding_all rfl
    have hoffer : option (evaluate 1) 1 "next" {} { clerk with session := clerk.session.mintSpawn.2 } =
        .done (.ok (.int 5)) { clerk with session := clerk.session.mintSpawn.2 } := by
      with_unfolding_all rfl
    obtain ⟨m', hrun, houtbox, hcallbacks, hhost⟩ := hlenient _ _ _ _ hcheck hoffer nofun nofun
    refine ⟨m', hrun, ?_, ?_, ?_⟩
    · rw [houtbox]
      with_unfolding_all rfl
    · rw [hcallbacks]
      rfl
    · rw [hhost]
      with_unfolding_all rfl

end Capability
end Script
end Triage
