import Triage.Proofs.Entries
import Triage.Proofs.Grants

/-! Whole runs: a script is loaded, and then entered again and again, in any order. What one entry call keeps holds
after every run. -/

namespace Triage.Dispatch

open Script Session Command

variable {σ : Type} [Host σ]

def enterAll (m : Machine σ) : List Entry → Option (List (List Command) × Machine σ)
  | [] => some ([], m)
  | e :: es => do
    let (cs, m) ← enter m fun self => e.commands self
    let (css, m) ← enterAll m es
    return (cs :: css, m)

def run (host : σ) (s : Source) (es : List Entry) : Option (List (List Command) × Machine σ) :=
  match load host s with
  | some (.ok (), m) => enterAll m es
  | _ => none

theorem enter_eq_some {α : Type} {m m' : Machine σ} {entry : Recur σ → Eval σ α} {a : α} {P : α → Machine σ → Prop}
    (h : enter m entry = some (a, m')) (hr : (entry (evaluate fuel) m).Returns True P) : P a m' := by
  unfold enter at h
  cases ho : entry (evaluate fuel) m with
  | done b m'' =>
    rw [ho] at h hr
    obtain ⟨rfl, rfl⟩ := Prod.mk.inj (Option.some.inj h)
    exact hr
  | raised | exhausted => simp [ho] at h

omit [Host σ] in
theorem sound_of_no_objects {heap : Heap} (hobjects : heap.objects = #[]) (host : σ) :
    Machine.Sound { heap, host } := by
  refine ⟨sound_default, fun _ _ _ hm => absurd hm List.not_mem_nil, fun o ho => ?_, ?_⟩
  · rw [hobjects] at ho
    exact absurd ho (Array.not_mem_empty o)
  · rw [Heap.prompts, hobjects]
    rfl

theorem load_extends {host : σ} {s : Source} {r : Except Error Unit} {m : Machine σ} (h : load host s = some (r, m)) :
    m.Sound ∧ Grows {} m.session := by
  refine enter_eq_some (P := fun _ m => m.Sound ∧ Grows {} m.session) h ?_
  unfold start
  cases parse? (Text.Utf8.encode s.text) with
  | none => exact ⟨sound_of_no_objects rfl host, .refl _⟩
  | some body =>
    have hfresh : Machine.Sound { heap := Globals.heapFor s.name, host } := sound_of_no_objects rfl host
    have hcode := Evaluate.closureCall_confined (evaluate_confined (σ := σ) fuel) (.mk [] true body) [] [] {}
    have hrun := (Capability.guarded_confined (evaluate_confined fuel) hcode {}).extends _ hfresh
    refine (hrun.returns (Capability.guarded_returns _ _ _)).bind fun r m hext => ?_
    cases r <;> exact ⟨hext.sound, hext.grows⟩

theorem enterAll_keeps {P : List Entry → List (List Command) → Machine σ → Prop}
    (hstep : ∀ past css m e cs m', P past css m → enter m (fun self => Entry.commands self e) = some (cs, m') →
      P (past ++ [e]) (css ++ [cs]) m')
    (past : List Entry) {es : List Entry} {css css' : List (List Command)} {m m' : Machine σ} (hP : P past css m)
    (h : enterAll m es = some (css', m')) : P (past ++ es) (css ++ css') m' := by
  induction es generalizing past css m css' with
  | nil =>
    obtain ⟨rfl, rfl⟩ := Prod.mk.inj (Option.some.inj h)
    rwa [List.append_nil, List.append_nil]
  | cons e es ih =>
    obtain ⟨⟨cs, m₁⟩, hfirst, hrest⟩ := Option.bind_eq_some_iff.mp h
    obtain ⟨⟨css₁, m₂⟩, hafter, hend⟩ := Option.bind_eq_some_iff.mp hrest
    obtain ⟨rfl, rfl⟩ := Prod.mk.inj (Option.some.inj hend)
    have hnext := ih (past ++ [e]) (hstep past css m e cs m₁ hP hfirst) hafter
    rwa [List.append_assoc, List.append_assoc, List.singleton_append, List.singleton_append] at hnext

/-- What holds after every run. -/
structure Reached (css : List (List Command)) (m : Machine σ) : Prop where
  sound : m.Sound
  requests : (leavesOf css.flatten).filterMap Command.spawn? ++ m.session.outbox = accepted m.session.journal
  shapes : ∀ cs ∈ css, ∃ (rs : List SpawnRequest) (c : Option Command), cs = rs.map .spawn ++ c.toList ∧
    ∀ k ∈ leavesOf c.toList, k.spawn? = none

theorem Reached.entry {css : List (List Command)} {m m' : Machine σ} {e : Entry} {cs : List Command}
    (hm : Reached css m) (h : enter m (fun self => Entry.commands self e) = some (cs, m')) :
    Reached (css ++ [cs]) m' := by
  obtain ⟨hsound, hanswers⟩ := enter_eq_some h (Entry.answers (evaluate_confined fuel) e hm.sound)
  have hprepares := e.prepare_prepares m.session
  obtain ⟨first, hfirst, hnone, -⟩ := hprepares.events
  obtain ⟨new, hnew, -, hrequests⟩ := hanswers.events
  refine ⟨hsound, ?_, fun ds hds => ?_⟩
  · -- The outbox before the call and the requests made in it are what the call returns and the outbox after it.
    have hflat : (css ++ [cs]).flatten = css.flatten ++ cs := by simp
    rw [hflat, leavesOf_append, List.filterMap_append, List.append_assoc, ← hrequests, hprepares.outbox,
      ← List.append_assoc, hm.requests, hnew, hfirst, accepted_append, accepted_append, hnone, List.append_nil]
  · rcases List.mem_append.mp hds with hds | hds
    · exact hm.shapes ds hds
    · obtain rfl := List.mem_singleton.mp hds
      exact hanswers.shape

variable {host : σ} {s : Source} {es : List Entry} {css : List (List Command)} {m : Machine σ}

theorem load_of_run (h : run host s es = some (css, m)) :
    ∃ m₀, load host s = some (.ok (), m₀) ∧ enterAll m₀ es = some (css, m) := by
  unfold run at h
  split at h
  · next m₀ hload => exact ⟨m₀, hload, h⟩
  · cases h

theorem reached_of_load (h : load host s = some (.ok (), m)) : Reached [] m := by
  obtain ⟨hsound, hgrows⟩ := load_extends h
  obtain ⟨new, hnew, hout, -⟩ := hgrows.records
  refine ⟨hsound, ?_, by simp⟩
  rw [hnew, hout]
  simp [leavesOf]

theorem run_reached (h : run host s es = some (css, m)) : Reached css m := by
  obtain ⟨m₀, hload, hall⟩ := load_of_run h
  exact enterAll_keeps (P := fun _ => Reached) (fun _ _ _ _ _ _ hm => hm.entry) [] (reached_of_load hload) hall

/-- No request is lost, made twice or moved: those that were returned, and then those in the outbox, are the accepted
ones in their order. In every answer they come first, and what follows is one command at most, without any. A request
is accepted by each call that is granted, and by no call that is refused. -/
theorem run_requests (h : run host s es = some (css, m)) :
    (leavesOf css.flatten).filterMap Command.spawn? ++ m.session.outbox = accepted m.session.journal ∧
      (∀ cs ∈ css, ∃ (rs : List SpawnRequest) (c : Option Command), cs = rs.map .spawn ++ c.toList ∧
        ∀ k ∈ leavesOf c.toList, k.spawn? = none) ∧
      ∀ (self : Recur σ) args callers (before after : Machine σ) answer,
        Capability.run self .spawn args callers before = .done answer after →
          Capability.RequestedOrRefused self callers (args.headD .nil) before after :=
  ⟨(run_reached h).requests, (run_reached h).shapes, fun _ _ _ _ _ _ => Capability.spawnCall_requests⟩

def respawning : Source where
  name := "respawn.lua"
  text := "key.s = function()
    local first, second = table.pack('true'), table.pack('false')
    first.next = function() glance.spawn(second) error('late') end
    glance.spawn(first)
    return glance.refresh()
  end"

theorem run_requests_respawning :
    ∃ css m, run ({} : MemoryHost) respawning
        [.key "s", .finished ⟨⟨"glance.spawn_callback_1"⟩, ["true"], "", "", .completed 0⟩] = some (css, m) ∧
      (leavesOf css.flatten).filterMap Command.spawn? ++ m.session.outbox = accepted m.session.journal ∧
      (accepted m.session.journal).map (·.argv) = [["true"], ["false"]] := by
  have haccepted : (run ({} : MemoryHost) respawning
      [.key "s", .finished ⟨⟨"glance.spawn_callback_1"⟩, ["true"], "", "", .completed 0⟩]).map
        (fun r => (accepted r.2.session.journal).map (·.argv)) = some [["true"], ["false"]] := by
    decide +kernel
  obtain ⟨⟨css, m⟩, hrun, hargv⟩ := Option.map_eq_some_iff.mp haccepted
  exact ⟨css, m, hrun, (run_requests hrun).1, hargv⟩

/-- The prompts opened by an entry call are those that its commands tell of, on top of those that it leaves open. -/
theorem run_prompts (h : run host s es = some (css, m)) (e : Entry) :
    (e.commands (evaluate fuel) m).Returns True fun cs m' =>
      m'.session.prompts.stack = ((leavesOf cs).filterMap Command.prompt?).reverse ++
        e.leftOpen m.session.prompts.stack ∧
        ∀ p, ((leavesOf cs).filterMap Command.prompt?).getLast? = some p → m'.session.prompts.top? = some p := by
  refine (Entry.answers (evaluate_confined fuel) e (run_reached h).sound).imp id fun cs m' ⟨_, hanswers⟩ => ?_
  have hstack := hanswers.prompts
  rw [(e.prepare_prepares m.session).prompts] at hstack
  refine ⟨hstack, fun p hp => ?_⟩
  rw [Prompts.top?, hstack, List.head?_append, List.head?_reverse, hp, Option.some_or]

def asking : Source where
  name := "ask.lua"
  text := "key.t = function()
    local first, second = table.pack(), table.pack()
    first.prompt, first.with_input, second.prompt = 'Tag', glance.quit, 'Again'
    return glance.input(first), 1, table.pack(glance.input(second))
  end"

theorem run_prompts_asking :
    ∃ css m, run ({} : MemoryHost) asking [.key "t"] = some (css, m) ∧
      m.session.prompts.stack.map (·.label) = ["Again", "Tag"] ∧
      (Entry.commands (evaluate fuel) (.submit "") m).Returns True fun cs m' =>
        m'.session.prompts.stack =
          ((leavesOf cs).filterMap Command.prompt?).reverse ++ m.session.prompts.stack.tail := by
  have hlabels : (run ({} : MemoryHost) asking [.key "t"]).map (fun r => r.2.session.prompts.stack.map (·.label)) =
      some ["Again", "Tag"] := by
    decide +kernel
  obtain ⟨⟨css, m⟩, hrun, hstack⟩ := Option.map_eq_some_iff.mp hlabels
  exact ⟨css, m, hrun, hstack, (run_prompts hrun (.submit "")).imp id fun _ _ h => h.1⟩

theorem prepare_of_none {e : Entry} {s : Session} {h : Handle} (he : e.handle? s = some h)
    (hn : s.callbacks.get? h = none) : e.prepare s = e.closing s := by
  have hclosing : (e.closing s).callbacks = s.callbacks := by
    cases e with
    | startup | key | cancel => simp [Entry.handle?] at he
    | submit | resolve | finished => rfl
  rw [Entry.prepare, he]
  exact congrArg Prod.snd (take_of_none (hclosing ▸ hn))

theorem prepare_of_some {e : Entry} {s : Session} {h : Handle} {f : Nat} (he : e.handle? s = some h)
    (hf : s.callbacks.get? h = some f) :
    (e.prepare s).journal = .invoked h f :: s.journal ∧ (e.prepare s).callbacks = s.callbacks.discard h := by
  have hclosing : (e.closing s).callbacks = s.callbacks ∧ (e.closing s).journal = s.journal := by
    cases e with
    | startup | key | cancel => simp [Entry.handle?] at he
    | submit | resolve | finished => exact ⟨rfl, rfl⟩
  rw [Entry.prepare, he]
  dsimp only
  rw [take_of_some (hclosing.1 ▸ hf)]
  exact ⟨congrArg _ hclosing.2, congrArg (·.discard h) hclosing.1⟩

theorem closing_cancel {s : Session} {p : Prompt} (hp : s.prompts.top? = some p) :
    Entry.closing s .cancel = s.closePrompt.2.cancel p := by
  have hclose : s.closePrompt = (some p, s.closePrompt.2) := Prod.ext hp rfl
  rw [Entry.closing, hclose]

omit [Host σ] in
theorem Reached.of_invoked (hm : Reached css m) {later earlier : List Session.Event} {h : Handle} {f : Nat}
    (hsplit : m.session.journal = later ++ .invoked h f :: earlier) :
    ∃ purpose : Purpose, purpose.Takes f ∧ .minted h purpose ∈ earlier ∧ .registered h f ∈ earlier ∧
      ∀ d ∈ earlier, d.handle? = some h → d = .minted h purpose ∨ d = .registered h f := by
  have horderly : Orderly (later ++ .invoked h f :: earlier) := hsplit ▸ hm.sound.session.orderly
  exact (Orderly.of_append horderly).2.of_waiting horderly.mayFollow

theorem Reached.invokes (hm : Reached css m) (e : Entry) :
    (e.commands (evaluate fuel) m).Returns True fun _ m' => ∃ new, m'.session.journal = new ++ m.session.journal ∧
      ∀ h f, .invoked h f ∈ new → e.handle? m.session = some h ∧
        e.commands (evaluate fuel) m = (e.arguments >>= invoke (evaluate fuel) f)
          { m with session := e.prepare m.session } := by
  refine (Entry.answers (evaluate_confined fuel) e hm.sound).imp id fun cs m' ⟨_, hanswers⟩ => ?_
  obtain ⟨first, hfirst, -, hinvoked⟩ := (e.prepare_prepares m.session).events
  obtain ⟨new, hnew, hscript, -⟩ := hanswers.events
  refine ⟨new ++ first, by rw [hnew, hfirst, List.append_assoc], fun h f hf => ?_⟩
  rcases List.mem_append.mp hf with hf | hf
  · -- Scripts call no callback, so that only the entry call itself can have noted it.
    exact (hscript _ hf).elim
  · obtain ⟨he, hget⟩ := hinvoked h f hf
    refine ⟨he, ?_⟩
    rw [Entry.commands_of_handle he, hget]

/-- Every callback is called once at most, by an entry call for the handle that was minted for it, and never after it
was called or its prompt was cancelled. An entry call for a handle with a callback calls it, and that is noted. Without
a callback, a handle is resolved to nothing and nothing changes. -/
theorem run_callbacks (h : run host s es = some (css, m)) :
    (m.session.journal.filterMap Session.Event.minted?).Nodup ∧
      (m.session.journal.filterMap Session.Event.invoked?).Nodup ∧
      (∀ later k f earlier, m.session.journal = later ++ .invoked k f :: earlier →
        ∃ purpose : Purpose, purpose.Takes f ∧ .minted k purpose ∈ earlier ∧ .registered k f ∈ earlier ∧
          ∀ d ∈ earlier, d.handle? = some k → d = .minted k purpose ∨ d = .registered k f) ∧
      (∀ e : Entry, (e.commands (evaluate fuel) m).Returns True fun _ m' =>
        ∃ new, m'.session.journal = new ++ m.session.journal ∧ ∀ k f, .invoked k f ∈ new →
          e.handle? m.session = some k ∧ e.commands (evaluate fuel) m =
            (e.arguments >>= invoke (evaluate fuel) f) { m with session := e.prepare m.session }) ∧
      (∀ (e : Entry) k f, e.handle? m.session = some k → m.session.callbacks.get? k = some f →
        (e.prepare m.session).journal = .invoked k f :: m.session.journal ∧
          (e.prepare m.session).callbacks = m.session.callbacks.discard k ∧
          e.commands (evaluate fuel) m =
            (e.arguments >>= invoke (evaluate fuel) f) { m with session := e.prepare m.session }) ∧
      (∀ p, m.session.prompts.top? = some p → Entry.commands (evaluate fuel) .cancel m =
        .done [] { m with session := m.session.closePrompt.2.cancel p }) ∧
      ∀ k, m.session.callbacks.get? k = none →
        (∀ args, Dispatch.resolve (evaluate fuel) k args m = .done [] m) ∧
          ∀ r : SpawnResult, r.handle = k → onSpawnResult (evaluate fuel) r m = .done [] m := by
  have hm := run_reached h
  have hnothing (e : Entry) (k : Handle) (he : e.handle? m.session = some k) (hn : m.session.callbacks.get? k = none) :
      e.commands (evaluate fuel) m = .done [] { m with session := e.closing m.session } := by
    rw [Entry.commands_of_handle he, hn, prepare_of_none he hn]
  refine ⟨hm.sound.session.orderly.minted_nodup, hm.sound.session.orderly.invoked_nodup, ?_, hm.invokes, ?_, ?_, ?_⟩
  · exact fun later k f earlier hsplit => hm.of_invoked hsplit
  · intro e k f he hf
    obtain ⟨hjournal, hcallbacks⟩ := prepare_of_some he hf
    refine ⟨hjournal, hcallbacks, ?_⟩
    rw [Entry.commands_of_handle he, hf]
  · intro p hp
    rw [Entry.commands_cancel, closing_cancel hp]
  · intro k hn
    refine ⟨fun args => hnothing (.resolve k args) k rfl hn, ?_⟩
    rintro r rfl
    exact hnothing (.finished r) r.handle rfl hn

theorem run_callbacks_asking :
    ∃ css m, run ({} : MemoryHost) asking [.key "t", .submit "", .submit "", .resolve ⟨"glance.input_callback_1"⟩ []] =
        some (css, m) ∧
      m.session.journal.filterMap Session.Event.invoked? = [⟨"glance.input_callback_1"⟩] ∧
      (m.session.journal.filterMap Session.Event.invoked?).Nodup := by
  have hinvoked : (run ({} : MemoryHost) asking
      [.key "t", .submit "", .submit "", .resolve ⟨"glance.input_callback_1"⟩ []]).map
        (fun r => r.2.session.journal.filterMap Session.Event.invoked?) = some [⟨"glance.input_callback_1"⟩] := by
    decide +kernel
  obtain ⟨⟨css, m⟩, hrun, hjournal⟩ := Option.map_eq_some_iff.mp hinvoked
  exact ⟨css, m, hrun, hjournal, (run_callbacks hrun).2.1⟩

end Triage.Dispatch
