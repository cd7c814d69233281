import Triage.Proofs.Serving

/-! The entry calls of a loaded script. Each begins with what it does to the session itself, and then at most serves
what the script yields and hands the requests over. -/

namespace Triage.Dispatch

open Script Session Command

variable {σ : Type}

/-- What an entry call makes of a session: requests come first, and then one command at most, in which there are none.
Of the requests in the outbox and those made meanwhile, all that are not returned stay in the outbox. -/
structure Answers (s : Session) (cs : List Command) (s' : Session) : Prop where
  shape : ∃ (rs : List SpawnRequest) (c : Option Command), cs = rs.map .spawn ++ c.toList ∧
    ∀ k ∈ leavesOf c.toList, k.spawn? = none
  prompts : s'.prompts.stack = ((leavesOf cs).filterMap Command.prompt?).reverse ++ s.prompts.stack
  events : ∃ new, s'.journal = new ++ s.journal ∧ (∀ e ∈ new, e.IsOfScript) ∧
    s.outbox ++ accepted new = (leavesOf cs).filterMap Command.spawn? ++ s'.outbox

theorem Answers.of_extends {m m' : Machine σ} (h : m.Extends m') : Answers m.session [] m'.session where
  shape := ⟨[], none, rfl, by simp [leavesOf]⟩
  prompts := by rw [h.grows.prompts]; rfl
  events := by
    obtain ⟨new, hjournal, hout, hscript⟩ := h.grows.records
    exact ⟨new, hjournal, hscript, by rw [hout]; rfl⟩

theorem finish_answers {m m' : Machine σ} {c : Option Command} (hserves : m.Serves (leavesOf c.toList) m') :
    (finish c m').Returns True fun cs m'' => m''.Sound ∧ Answers m.session cs m''.session := by
  obtain ⟨new, hjournal, hout, hscript⟩ := hserves.records
  have hplain (k : Command) (hk : k ∈ leavesOf c.toList) : k.spawn? = none := (hserves.leaves k hk).2
  have hleaves : leavesOf (m'.session.outbox.map .spawn ++ c.toList) =
      m'.session.outbox.map .spawn ++ leavesOf c.toList := by
    rw [leavesOf_append, leavesOf_spawns]
  -- Spawns open no prompt, and what was served has no spawns, so each part of the answer counts for one field alone.
  refine ⟨⟨hserves.sound.session.drain, hserves.sound.settled, hserves.sound.objects, hserves.sound.prompts⟩,
    ⟨_, c, rfl, hplain⟩, ?_, new, hjournal, hscript, ?_⟩
  · change m'.session.prompts.stack = ((leavesOf (m'.session.outbox.map .spawn ++ c.toList)).filterMap _).reverse ++ _
    rw [hleaves, List.filterMap_append, filterMap_prompt?_spawns, List.nil_append, hserves.prompts]
  · change _ = (leavesOf (m'.session.outbox.map .spawn ++ c.toList)).filterMap _ ++ []
    have hnone : (leavesOf c.toList).filterMap spawn? = [] := List.filterMap_eq_nil_iff.mpr hplain
    rw [hleaves, List.filterMap_append, filterMap_spawn?_spawns, hnone, List.append_nil, List.append_nil, hout]

theorem finish_none_answers {m m' : Machine σ} (h : m.Extends m') :
    (finish none m').Returns True fun cs m'' => m''.Sound ∧ Answers m.session cs m''.session :=
  finish_answers h.serves

inductive Entry where
  | startup
  | key (name : String)
  | submit (text : String)
  | cancel
  | resolve (h : Handle) (args : List Value)
  | finished (r : SpawnResult)

namespace Entry

def handle? (s : Session) : Entry → Option Handle
  | .startup => none
  | .key _ => none
  | .submit _ => s.prompts.top?.map (·.handle)
  | .cancel => none
  | .resolve h _ => some h
  | .finished r => some r.handle

def arguments : Entry → Eval σ (List Value)
  | .submit text => pure [Capability.textValue text]
  | .resolve _ args => pure args
  | .finished r => do return [← spawnPayload r]
  | _ => pure []

def closing (s : Session) : Entry → Session
  | .submit _ => s.closePrompt.2
  | .cancel =>
    match s.closePrompt with
    | (some p, s) => s.cancel p
    | (none, s) => s
  | _ => s

def prepare (s : Session) (e : Entry) : Session :=
  match e.handle? s with
  | some h => ((e.closing s).take h).2
  | none => e.closing s

def leftOpen (ps : List Prompt) : Entry → List Prompt
  | .submit _ => ps.tail
  | .cancel => ps.tail
  | _ => ps

/-- Before any script runs, an entry call closes its prompt and takes the callback of its handle. -/
structure Prepares (e : Entry) (s s' : Session) : Prop where
  outbox : s'.outbox = s.outbox
  prompts : s'.prompts.stack = e.leftOpen s.prompts.stack
  events : ∃ first, s'.journal = first ++ s.journal ∧ accepted first = [] ∧
    ∀ h f, .invoked h f ∈ first → e.handle? s = some h ∧ s.callbacks.get? h = some f

theorem prepares_take {e : Entry} {s s' : Session} {h : Handle} (he : e.handle? s = some h)
    (hs : s' = { s with prompts := s'.prompts }) (hprompts : s'.prompts.stack = e.leftOpen s.prompts.stack) :
    e.Prepares s (s'.take h).2 := by
  have hcallbacks : s'.callbacks = s.callbacks := by rw [hs]
  cases hf : s.callbacks.get? h with
  | none =>
    rw [take_of_none (hcallbacks ▸ hf)]
    exact ⟨by rw [hs], hprompts, [], by rw [hs]; rfl, rfl, by simp⟩
  | some f =>
    rw [take_of_some (hcallbacks ▸ hf)]
    refine ⟨by rw [hs]; rfl, hprompts, [.invoked h f], by rw [hs]; rfl, rfl, fun k g hk => ?_⟩
    obtain ⟨rfl, rfl⟩ := Session.Event.invoked.inj (List.mem_singleton.mp hk)
    exact ⟨he, hf⟩

theorem prepare_prepares (e : Entry) (s : Session) : e.Prepares s (e.prepare s) := by
  unfold prepare
  cases he : e.handle? s with
  | some h =>
    cases e with
    | startup | key | cancel => simp [handle?] at he
    | submit | resolve | finished => exact prepares_take he rfl rfl
  | none =>
    cases e with
    | cancel =>
      have hclose : s.closePrompt = (s.prompts.top?, s.closePrompt.2) := rfl
      simp only [closing]
      rw [hclose]
      cases s.prompts.top? with
      | none => exact ⟨rfl, rfl, [], rfl, rfl, by simp⟩
      | some p => exact ⟨rfl, rfl, [.cancelled p], rfl, rfl, by simp⟩
    | _ => exact ⟨rfl, rfl, [], rfl, rfl, by simp⟩

theorem closing_sound (e : Entry) {m : Machine σ} (hm : m.Sound) :
    Machine.Sound { m with session := e.closing m.session } := by
  cases e with
  | submit text => exact hm.withSession hm.session.closePrompt (goesOn_of_eq rfl)
  | cancel =>
    have hclosed := hm.withSession hm.session.closePrompt (goesOn_of_eq rfl)
    have hclose : m.session.closePrompt = (m.session.prompts.top?, m.session.closePrompt.2) := rfl
    simp only [closing]
    rw [hclose]
    cases hp : m.session.prompts.top? with
    | none => exact hclosed
    | some p =>
      have hknown := hm.session.known (List.mem_of_head? hp)
      exact hclosed.withSession (hclosed.session.cancel hknown) (goesOn_of_event rfl rfl)
  | _ => exact hm

theorem prepare_sound (e : Entry) {m : Machine σ} (hm : m.Sound) :
    Machine.Sound { m with session := e.prepare m.session } := by
  have hclosing := e.closing_sound hm
  unfold prepare
  split
  · exact hclosing.withSession hclosing.session.take goesOn_take
  · exact hclosing

theorem arguments_extends (e : Entry) {m : Machine σ} (hm : m.Sound) :
    (e.arguments m : Outcome σ (List Value)).Returns True fun _ m' => m.Extends m' := by
  cases e with
  | finished r =>
    have hlist : m.Extends _ :=
      hm.withHeap (h := (m.heap.newTable (.ofList (r.argv.map Capability.textValue) 0)).2) rfl
    exact hlist.trans (hlist.sound.withHeap rfl)
  | _ => exact hm.extends

end Entry

variable [Host σ]

def KeyAnswer.commands : KeyAnswer → List Command
  | .handled cs => cs
  | .unhandled => []

def Entry.commands (self : Recur σ) : Entry → Eval σ (List Command)
  | .startup => onStartup self
  | .key name => return (← onKey self name).commands
  | .submit text => submitInput self text
  | .cancel => do
    let _ ← cancelInput
    pure []
  | .resolve h args => Dispatch.resolve self h args
  | .finished r => onSpawnResult self r

section Calls

variable {self : Recur σ} {m m' : Machine σ}

theorem lookup_confined (hs : self.IsConfined) (owner : Nat) (name : String) : Confined (lookup self owner name) := by
  unfold lookup
  exact .bind (Capability.guarded_confined hs (hs.index _ _ _) _) fun _ => .pure _

omit [Host σ] in
theorem lookup_returns (owner : Nat) (name : String) (m : Machine σ) :
    (lookup self owner name m).Returns True fun _ _ => True := by
  unfold lookup
  exact (Capability.guarded_returns _ _ _).bind fun _ _ _ => trivial

theorem lookup_extends (hs : self.IsConfined) (owner : Nat) (name : String) (h : m.Extends m') :
    (lookup self owner name m').Returns True fun _ m'' => m.Extends m'' :=
  (((lookup_confined hs owner name).extends m' h.sound).mono fun _ => h.trans).returns (lookup_returns owner name m')

theorem binding_confined (hs : self.IsConfined) (key : String) : Confined (binding self key) := by
  unfold binding
  refine .bind (.readHeap _) fun globals => .bind (lookup_confined hs globals "key") fun r => ?_
  split
  · exact lookup_confined hs _ _
  · exact .pure _
  · exact .pure _
  · exact .pure _

omit [Host σ] in
theorem binding_returns (key : String) (m : Machine σ) : (binding self key m).Returns True fun _ _ => True := by
  unfold binding
  change Outcome.Returns True _ ((lookup self m.heap.globals "key" >>= _) m)
  refine (lookup_returns _ _ _).bind fun r m' _ => ?_
  split
  · exact lookup_returns _ _ _
  · trivial
  · trivial
  · trivial

theorem binding_extends (hs : self.IsConfined) (key : String) (hm : m.Sound) :
    (binding self key m).Returns True fun _ m' => m.Extends m' :=
  ((binding_confined hs key).extends m hm).returns (binding_returns key m)

theorem call?_extends (hs : self.IsConfined) (f : Nat) (args : List Value) (h : m.Extends m') :
    (call? self f args m').Returns True fun _ m'' => m.Extends m'' := by
  have hcall := (Capability.guarded_confined hs (hs.call (.function f) args {}) {}).extends m' h.sound
  unfold call?
  refine ((hcall.mono fun _ => h.trans).returns (Capability.guarded_returns _ _ _)).bind fun r m'' h => ?_
  cases r with
  | ok vs => exact h
  | error cause => exact h.trans (h.sound.withHost _)

theorem unwrap_answers (hs : self.IsConfined) (v : Value) (h : m.Extends m') :
    ((unwrap self unwrapLimit v >>= finish) m').Returns True fun cs m'' => m''.Sound ∧
      Answers m.session cs m''.session := by
  refine ((unwrap_follows_top v).serves hs h.sound).bind fun c m'' hserves => ?_
  exact finish_answers (h.serves.trans hserves)

theorem invoke_answers (hs : self.IsConfined) (f : Nat) (args : List Value) (h : m.Extends m') :
    (invoke self f args m').Returns True fun cs m'' => m''.Sound ∧ Answers m.session cs m''.session := by
  unfold invoke
  refine (call?_extends hs f args h).bind fun vs? m'' h => ?_
  cases vs? with
  | none => exact finish_none_answers h
  | some vs =>
    have hcollect : Follows self (vs.map (0, ·)) (collect (unwrap self unwrapLimit) vs) id :=
      collect_follows unwrap_follows_top vs
    refine (hcollect.serves hs h.sound).bind fun cs after hserves => finish_answers ?_
    rw [leavesOf_ofList]
    exact h.serves.trans hserves

theorem onStartup_answers (hs : self.IsConfined) (hm : m.Sound) :
    (onStartup self m).Returns True fun cs m' => m'.Sound ∧ Answers m.session cs m'.session := by
  unfold onStartup
  change Outcome.Returns True _ ((lookup self m.heap.globals "on_startup" >>= _) m)
  refine (lookup_extends hs _ _ hm.extends).bind fun r m' h => ?_
  split
  · exact unwrap_answers hs _ h
  · exact finish_none_answers h
  · exact finish_none_answers (h.trans (h.sound.withHost _))

theorem onKey_answers (hs : self.IsConfined) (name : String) (hm : m.Sound) :
    (onKey self name m).Returns True fun answer m' => m'.Sound ∧ Answers m.session answer.commands m'.session := by
  unfold onKey
  refine (binding_extends hs name hm).bind fun r m' h => ?_
  split
  · exact ⟨h.sound, .of_extends h⟩
  · next v _ =>
    refine (unwrap_follows_top v).serves hs h.sound |>.bind fun c m'' hserves => ?_
    exact (finish_answers (h.serves.trans hserves)).bind fun _ _ h => h
  · exact ⟨(h.sound.withHost _).sound, .of_extends (h.trans (h.sound.withHost _))⟩

/-- An entry call for a handle calls what is registered under it, and does no more than close a prompt otherwise. -/
theorem Entry.commands_of_handle {e : Entry} {h : Handle} (he : e.handle? m.session = some h) :
    e.commands self m = match m.session.callbacks.get? h with
      | some f => (e.arguments >>= invoke self f) { m with session := e.prepare m.session }
      | none => .done [] { m with session := e.prepare m.session } := by
  -- A submission takes the callback after its prompt is closed, in a session with the same callbacks.
  have htake (s : Session) (hs : s.callbacks = m.session.callbacks) (k : Option Nat → Eval σ (List Command)) :
      (Eval.onSession (·.take h) >>= k) { m with session := s } = match m.session.callbacks.get? h with
        | some f => k (some f) { m with session := (s.take h).2 }
        | none => k none { m with session := (s.take h).2 } := by
    change k (s.take h).1 { m with session := (s.take h).2 } = _
    cases hf : m.session.callbacks.get? h with
    | none => rw [take_of_none (hs ▸ hf)]
    | some f => rw [take_of_some (hs ▸ hf)]
  unfold Entry.prepare
  rw [he]
  cases e with
  | startup | key | cancel => simp [Entry.handle?] at he
  | submit text =>
    obtain ⟨p, hp, rfl⟩ := Option.map_eq_some_iff.mp he
    have hclose : m.session.closePrompt = (some p, m.session.closePrompt.2) := Prod.ext hp rfl
    have hsubmit : submitInput self text m =
        Dispatch.resolve self p.handle [Capability.textValue text] { m with session := m.session.closePrompt.2 } := by
      rw [submitInput, Eval.bind_apply, Eval.onSession, hclose]
    exact hsubmit.trans (htake m.session.closePrompt.2 rfl _)
  | resolve h' args =>
    obtain rfl : h' = h := Option.some.inj he
    exact htake m.session rfl _
  | finished r =>
    obtain rfl : r.handle = h := Option.some.inj he
    exact htake m.session rfl _

theorem Entry.commands_submit_of_none (text : String) (hp : m.session.prompts.top? = none) :
    Entry.commands self (.submit text) m = .done [] { m with session := m.session.closePrompt.2 } := by
  have hclose : m.session.closePrompt = (none, m.session.closePrompt.2) := Prod.ext hp rfl
  change submitInput self text m = _
  rw [submitInput, Eval.bind_apply, Eval.onSession, hclose]
  rfl

omit [Host σ] in
theorem cancelInput_eq :
    cancelInput m = .done m.session.prompts.top? { m with session := Entry.closing m.session .cancel } := by
  have hclose : m.session.closePrompt = (m.session.prompts.top?, m.session.closePrompt.2) := rfl
  unfold cancelInput Entry.closing
  rw [Eval.bind_apply, Eval.onSession, hclose]
  cases m.session.prompts.top? <;> rfl

theorem Entry.commands_cancel :
    Entry.commands self .cancel m = .done [] { m with session := Entry.closing m.session .cancel } := by
  rw [Entry.commands, Eval.bind_apply, cancelInput_eq]
  rfl

theorem Entry.answers (hs : self.IsConfined) (e : Entry) (hm : m.Sound) :
    (e.commands self m).Returns True fun cs m' => m'.Sound ∧ Answers (e.prepare m.session) cs m'.session := by
  have hprepared := e.prepare_sound hm
  cases he : e.handle? m.session with
  | some h =>
    rw [Entry.commands_of_handle he]
    cases m.session.callbacks.get? h with
    | some f => exact (e.arguments_extends hprepared).bind fun args m' hext => invoke_answers hs f args hext
    | none => exact ⟨hprepared, .of_extends hprepared.extends⟩
  | none =>
    cases e with
    | startup => exact onStartup_answers hs hm
    | key name => exact (onKey_answers hs name hm).bind fun _ _ h => h
    | submit text =>
      have hnone := Option.map_eq_none_iff.mp he
      rw [Entry.prepare, he] at hprepared ⊢
      rw [Entry.commands_submit_of_none text hnone]
      exact ⟨hprepared, .of_extends hprepared.extends⟩
    | cancel =>
      rw [Entry.commands_cancel]
      exact ⟨hprepared, .of_extends hprepared.extends⟩
    | resolve | finished => simp [Entry.handle?] at he

end Calls

end Triage.Dispatch
