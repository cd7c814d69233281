import Triage.Proofs.Grants
import Triage.Proofs.HostSteps

/-! Open prompts and their callbacks. Each call of `glance.input` mints a handle, registers its function under it and
returns the command that opens the prompt. A script may open that again and again, and the first of these prompts to be
closed uses the callback up. Apart from that the callback of a prompt waits as long as the prompt is open. -/

namespace Triage

namespace Session

def timesOpen (s : Session) (h : Handle) : Nat := (s.prompts.stack.map (·.handle)).count h

/-- The function that the prompt was asked for with waits, if there was one. -/
def Armed (s : Session) (p : Prompt) : Prop :=
  ∀ o, .minted p.handle (.prompt o) ∈ s.journal → s.callbacks.get? p.handle = o.callback

theorem Sound.armed_or_over {s : Session} (hs : s.Sound) (hsettled : Settled s.journal) (p : Prompt) :
    s.Armed p ∨ phase p.handle s.journal = .over := by
  have hregistry := hs.registry p.handle
  rcases hphase : phase p.handle s.journal with _ | purpose | g | _
  · exact .inl fun o ho => absurd rfl (hs.orderly.of_unknown hphase ho)
  · refine .inl fun o ho => ?_
    rw [hregistry, hphase]
    cases hf : o.callback with
    | none => rfl
    | some f => cases hs.orderly.of_minted hphase (hsettled p.handle o f ho hf) rfl
  · refine .inl fun o ho => ?_
    obtain ⟨purpose, htakes, -, -, honly⟩ := hs.orderly.of_waiting hphase
    rcases honly _ ho rfl with hminted | hregistered
    · obtain ⟨-, rfl⟩ := Event.minted.inj hminted
      rw [hregistry, hphase]
      exact htakes.symm
    · cases hregistered
  · exact .inr rfl

end Session

namespace Dispatch

open Script Session Command

variable {σ : Type} [Host σ] {m m' : Machine σ} {e : Entry} {cs : List Command} {css : List (List Command)}
  {es : List Entry}

namespace Entry

def spent? (s : Session) : Entry → Option Handle
  | .cancel => s.prompts.top?.map (·.handle)
  | e => e.handle? s

def named? : Entry → Option Handle
  | .resolve h _ => some h
  | .finished r => some r.handle
  | _ => none

theorem phase_prepare {s : Session} {k : Handle} (hk : e.spent? s ≠ some k) :
    phase k (e.prepare s).journal = phase k s.journal := by
  have htake (s' : Session) {h : Handle} (he : e.handle? s = some h) (hspent : e.spent? s = e.handle? s) :
      phase k (s'.take h).2.journal = phase k s'.journal := by
    have hne : h ≠ k := fun heq => hk (by rw [hspent, he, heq])
    cases hf : s'.callbacks.get? h with
    | none => rw [take_of_none hf]
    | some f =>
      rw [take_of_some hf]
      exact phase_cons_of_ne s'.journal fun heq => hne (Option.some.inj heq)
  unfold prepare
  cases he : e.handle? s with
  | some h =>
    cases e with
    | startup | key | cancel => simp [handle?] at he
    | submit | resolve | finished => exact htake _ he rfl
  | none =>
    cases e with
    | cancel =>
      have hclose : s.closePrompt = (s.prompts.top?, s.closePrompt.2) := rfl
      simp only [closing]
      rw [hclose]
      cases hp : s.prompts.top? with
      | none => rfl
      | some p =>
        have hne : p.handle ≠ k := fun heq => hk (by simp [spent?, hp, heq])
        exact phase_cons_of_ne s.journal fun heq => hne (Option.some.inj heq)
    | _ => rfl

theorem stack_of_spent? {s : Session} {k : Handle} (hk : e.spent? s = some k) (hn : e.named? ≠ some k) :
    ∃ p, s.prompts.stack = p :: e.leftOpen s.prompts.stack ∧ p.handle = k := by
  have htop (hk : s.prompts.top?.map (·.handle) = some k) :
      ∃ p, s.prompts.stack = p :: s.prompts.stack.tail ∧ p.handle = k := by
    obtain ⟨p, hp, rfl⟩ := Option.map_eq_some_iff.mp hk
    exact ⟨p, (List.cons_head?_tail hp).symm, rfl⟩
  cases e with
  | startup | key => cases hk
  | submit | cancel => exact htop hk
  | resolve | finished => exact absurd hk hn

end Entry

def timesTold (css : List (List Command)) (h : Handle) : Nat :=
  (((leavesOf css.flatten).filterMap Command.prompt?).map (·.handle)).count h

theorem timesTold_append (css : List (List Command)) (cs : List Command) (h : Handle) :
    timesTold (css ++ [cs]) h = timesTold css h + timesTold [cs] h := by
  simp [timesTold, leavesOf_append]

/-- A prompt is open no more often than it was opened. If its callback is over, then one of its prompts was closed, or
its handle was named. -/
structure Paired (es : List Entry) (css : List (List Command)) (m : Machine σ) : Prop where
  reached : Reached css m
  opened : ∀ h, m.session.timesOpen h ≤ timesTold css h
  closed : ∀ h, phase h m.session.journal = .over →
    m.session.timesOpen h < timesTold css h ∨ ∃ e ∈ es, e.named? = some h

theorem Answers.timesOpen {s s' : Session} (h : Answers s cs s') (k : Handle) :
    s'.timesOpen k = timesTold [cs] k + s.timesOpen k := by
  unfold Session.timesOpen timesTold
  rw [h.prompts, List.map_append, List.count_append, List.map_reverse, List.count_reverse, List.flatten_singleton]

theorem Paired.entry (h : Paired es css m) (henter : enter m (fun self => e.commands self) = some (cs, m')) :
    Paired (es ++ [e]) (css ++ [cs]) m' := by
  obtain ⟨-, hanswers⟩ := enter_eq_some henter (Entry.answers (evaluate_confined fuel) e h.reached.sound)
  have hprompts := (e.prepare_prepares m.session).prompts
  have hleft (k : Handle) : (e.prepare m.session).timesOpen k ≤ m.session.timesOpen k := by
    unfold Session.timesOpen
    rw [hprompts]
    have hsub : (e.leftOpen m.session.prompts.stack).Sublist m.session.prompts.stack := by
      cases e with
      | submit | cancel => exact List.tail_sublist _
      | _ => exact .refl _
    exact (hsub.map _).count_le k
  refine ⟨h.reached.entry henter, fun k => ?_, fun k hover => ?_⟩
  · have hopened := h.opened k
    have hless := hleft k
    rw [hanswers.timesOpen, timesTold_append]
    omega
  · obtain ⟨new, hnew, hscript, -⟩ := hanswers.events
    have hprepared : phase k (e.prepare m.session).journal = .over := phase_over_of_append hscript (hnew ▸ hover)
    rw [hanswers.timesOpen, timesTold_append]
    by_cases hspent : e.spent? m.session = some k
    · by_cases hnamed : e.named? = some k
      · exact .inr ⟨e, List.mem_append_right es List.mem_cons_self, hnamed⟩
      · -- One of the prompts with this handle was open until now and is open no longer.
        obtain ⟨p, hstack, rfl⟩ := Entry.stack_of_spent? hspent hnamed
        have hone : m.session.timesOpen p.handle = (e.prepare m.session).timesOpen p.handle + 1 := by
          unfold Session.timesOpen
          rw [hprompts]
          exact (congrArg (fun ps => (ps.map (·.handle)).count p.handle) hstack).trans List.count_cons_self
        have hopened := h.opened p.handle
        exact .inl (by omega)
    · rw [Entry.phase_prepare hspent] at hprepared
      rcases h.closed k hprepared with hless | ⟨d, hd, hnamed⟩
      · have hle := hleft k
        exact .inl (by omega)
      · exact .inr ⟨d, List.mem_append_left [e] hd, hnamed⟩

variable {host : σ} {s : Source}

theorem run_paired (h : run host s es = some (css, m)) : Paired es css m := by
  obtain ⟨m₀, hload, hall⟩ := load_of_run h
  have hnone : m₀.session.prompts.stack = [] := congrArg (·.stack) (load_extends hload).2.prompts
  refine enterAll_keeps (P := Paired) (fun _ _ _ _ _ _ h => h.entry) []
    ⟨reached_of_load hload, fun k => ?_, fun k hover => ?_⟩ hall
  · simp [Session.timesOpen, hnone]
  · -- Loading calls no callback and closes no prompt.
    obtain ⟨new, hnew, -, hscript⟩ := (load_extends hload).2.records
    cases phase_over_of_append hscript (hnew ▸ hover)

/-- A call that is granted registers its function under the handle of the command that it returns, and the commands of
all calls have handles of their own. An open prompt is that of one of these commands. If its function does not wait,
then it is one of several prompts of this command, of which one was closed, or its handle was named. A function that
waits is called when its prompt is submitted, and any entry call that does not spend its handle leaves it waiting. -/
theorem run_armed (h : run host s es = some (css, m)) :
    (m.session.journal.filterMap Session.Event.minted?).Nodup ∧
      (∀ (self : Recur σ) args callers (before after : Machine σ) answer,
        Capability.run self .input args callers before = .done answer after →
          Capability.AskedOrRefused self callers (args.headD .nil) before answer after) ∧
      (m.heap.prompts = asked m.session.journal ∧ (m.heap.prompts.map (·.handle)).Nodup ∧
        m.heap.prompts.map (·.handle) =
          HandleGenerator.calls { stem := "glance.input_callback" } m.session.inputHandles.count) ∧
      (∀ k, m.session.timesOpen k ≤ timesTold css k) ∧
      (∀ p ∈ m.session.prompts.stack, p ∈ m.heap.prompts ∧
        (∃ o, .minted p.handle (.prompt o) ∈ m.session.journal ∧ p = o.prompt p.handle) ∧
        (m.session.Armed p ∨ m.session.timesOpen p.handle < timesTold css p.handle ∨
          ∃ e ∈ es, e.named? = some p.handle)) ∧
      (∀ p f text, m.session.prompts.top? = some p → m.session.callbacks.get? p.handle = some f →
        Entry.commands (evaluate fuel) (.submit text) m =
          invoke (evaluate fuel) f [Capability.textValue text]
            { m with session := Entry.prepare m.session (.submit text) }) ∧
      ∀ (e : Entry) k f, m.session.callbacks.get? k = some f → e.spent? m.session ≠ some k →
        (e.commands (evaluate fuel) m).Returns True fun _ m' => m'.session.callbacks.get? k = some f := by
  have hpaired := run_paired h
  have hsession := hpaired.reached.sound.session
  have hprompts := hpaired.reached.sound.prompts
  have hhandles : m.heap.prompts.map (·.handle) =
      HandleGenerator.calls { stem := "glance.input_callback" } m.session.inputHandles.count := by
    rw [hprompts]
    exact hsession.numbered
  refine ⟨hsession.orderly.minted_nodup, fun _ _ _ _ _ _ => Capability.inputCall_asks, ⟨hprompts, ?_, hhandles⟩,
    hpaired.opened, fun p hp => ?_, fun p f text hp hf => ?_, fun e k f hf hspent => ?_⟩
  · rw [hhandles]
    exact HandleGenerator.nodup_calls _ _
  · have hasked := hsession.prompted p hp
    refine ⟨hprompts ▸ hasked, mem_asked.mp hasked, ?_⟩
    exact (hsession.armed_or_over hpaired.reached.sound.settled p).imp_right (hpaired.closed p.handle)
  · have hhandle : Entry.handle? m.session (.submit text) = some p.handle := congrArg (Option.map _) hp
    rw [Entry.commands_of_handle hhandle, hf]
    rfl
  · refine (Entry.answers (evaluate_confined fuel) e hpaired.reached.sound).imp id fun cs m' ⟨hsound, hanswers⟩ => ?_
    obtain ⟨new, hnew, hscript, -⟩ := hanswers.events
    have hwaiting : phase k (e.prepare m.session).journal = .waiting f := by
      rw [Entry.phase_prepare hspent]
      exact hsession.waiting_of_get? hf
    have horderly : Orderly (new ++ (e.prepare m.session).journal) := hnew ▸ hsound.session.orderly
    rw [hsound.session.registry k, hnew, horderly.phase_append_of_waiting hscript hwaiting]
    rfl

theorem run_armed_asking :
    ∃ css m, run ({} : MemoryHost) asking [.key "t", .submit ""] = some (css, m) ∧
      m.session.prompts.stack.map (·.label) = ["Tag"] ∧ ∀ p ∈ m.session.prompts.stack, m.session.Armed p := by
  have hseen : (run ({} : MemoryHost) asking [.key "t", .submit ""]).map (fun r =>
      (r.2.session.prompts.stack.map (·.label), r.2.session.prompts.stack.map (·.handle),
        timesTold r.1 ⟨"glance.input_callback_1"⟩)) =
      some (["Tag"], [⟨"glance.input_callback_1"⟩], 1) := by
    decide +kernel
  obtain ⟨⟨css, m⟩, hrun, hr⟩ := Option.map_eq_some_iff.mp hseen
  obtain ⟨hlabels, hhandles, htold⟩ := by simpa only [Prod.mk.injEq] using hr
  refine ⟨css, m, hrun, hlabels, fun p hp => ?_⟩
  have hhandle : p.handle = ⟨"glance.input_callback_1"⟩ := by
    have hmem := List.mem_map_of_mem (f := Prompt.handle) hp
    rw [hhandles] at hmem
    exact List.mem_singleton.mp hmem
  have hopen : m.session.timesOpen p.handle = 1 := by
    rw [Session.timesOpen, hhandles, hhandle]
    rfl
  obtain ⟨-, -, -, -, hopened, -⟩ := run_armed hrun
  rcases (hopened p hp).2.2 with harmed | hless | ⟨e, he, hnamed⟩
  · exact harmed
  · rw [hopen, hhandle, htold] at hless
    omega
  · rcases List.mem_pair.mp he with rfl | rfl <;> cases hnamed

omit [Host σ] in
theorem Reached.not_armed (hm : Reached css m) {p : Prompt} (hp : p ∈ m.session.prompts.stack)
    (hcalled : p.handle ∈ m.session.journal.filterMap Session.Event.invoked?) : ¬ m.session.Armed p := by
  intro harmed
  obtain ⟨e, he, hhandle⟩ := List.mem_filterMap.mp hcalled
  cases e with
  | invoked k f =>
    obtain rfl : k = p.handle := Option.some.inj hhandle
    obtain ⟨later, earlier, hsplit⟩ := List.append_of_mem he
    obtain ⟨purpose, htakes, hminted, -⟩ := hm.of_invoked hsplit
    have hminted : .minted p.handle purpose ∈ m.session.journal :=
      hsplit ▸ List.mem_append_right later (List.mem_cons_of_mem _ hminted)
    -- The handle is that of an open prompt, and of nothing else.
    obtain ⟨o, ho, -⟩ := mem_asked.mp (hm.sound.session.prompted p hp)
    obtain rfl : purpose = .prompt o := hm.sound.session.orderly.purpose_unique hminted ho
    have hwaiting := hm.sound.session.waiting_of_get? ((harmed o ho).trans htakes)
    -- A callback that waits has not been called.
    obtain ⟨_, -, -, -, honly⟩ := hm.sound.session.orderly.of_waiting hwaiting
    rcases honly _ he rfl with hminted | hregistered
    · cases hminted
    · cases hregistered
  | minted | registered | accepted | cancelled => cases hhandle

def reopening : Source where
  name := "reopen.lua"
  text := "local tag = table.pack()
    tag.prompt, tag.with_input = 'Tag', glance.quit
    key.t = glance.input(tag)"

theorem not_armed_of_run {h : Handle} (hseen : (run host s es).map (fun r =>
      (r.2.session.prompts.stack.map (·.handle), r.2.session.journal.filterMap Session.Event.invoked?)) =
        some ([h], [h])) :
    ∃ css m, run host s es = some (css, m) ∧ ∃ p ∈ m.session.prompts.stack, ¬ m.session.Armed p := by
  obtain ⟨⟨css, m⟩, hrun, hr⟩ := Option.map_eq_some_iff.mp hseen
  obtain ⟨hhandles, hinvoked⟩ := Prod.mk.inj hr
  obtain ⟨p, hp, hhandle⟩ : ∃ p ∈ m.session.prompts.stack, p.handle = h := by
    refine List.mem_map.mp ?_
    rw [hhandles]
    exact List.mem_singleton_self h
  refine ⟨css, m, hrun, p, hp, (run_reached hrun).not_armed hp ?_⟩
  rw [hinvoked, hhandle]
  exact List.mem_singleton_self h

/-- A prompt that is opened again finds its callback used up, and so does one whose handle is resolved while it is
open. -/
theorem reopening_not_armed :
    (∃ css m, run ({} : MemoryHost) reopening [.key "t", .submit "one", .key "t"] = some (css, m) ∧
      ∃ p ∈ m.session.prompts.stack, ¬ m.session.Armed p) ∧
    ∃ css m, run ({} : MemoryHost) reopening [.key "t", .resolve ⟨"glance.input_callback_1"⟩ []] = some (css, m) ∧
      ∃ p ∈ m.session.prompts.stack, ¬ m.session.Armed p := by
  constructor
  · exact not_armed_of_run (h := ⟨"glance.input_callback_1"⟩) (by decide +kernel)
  · exact not_armed_of_run (h := ⟨"glance.input_callback_1"⟩) (by decide +kernel)

end Dispatch
end Triage
