import Triage.Proofs.Handles
import Triage.Proofs.Journal

/-! What every operation on a session keeps: the registry agrees with the journal, and no handle is minted twice. -/

namespace Triage

namespace HandleGenerator

variable {g g' : HandleGenerator} {h : Handle}

def Minted (g : HandleGenerator) (h : Handle) : Prop := ∃ n ≤ g.count, h = handle g.stem n

def Reaches (g g' : HandleGenerator) : Prop := g'.stem = g.stem ∧ g.count ≤ g'.count

theorem Reaches.refl (g : HandleGenerator) : g.Reaches g := ⟨rfl, Nat.le_refl _⟩

theorem reaches_next (g : HandleGenerator) : g.Reaches g.next.2 := ⟨rfl, Nat.le_succ _⟩

theorem Minted.mono (hm : g.Minted h) (hr : g.Reaches g') : g'.Minted h := by
  obtain ⟨n, hn, rfl⟩ := hm
  exact ⟨n, Nat.le_trans hn hr.2, by rw [hr.1]⟩

theorem minted_next (g : HandleGenerator) : g.next.2.Minted g.next.1 := ⟨g.count + 1, Nat.le_refl _, rfl⟩

theorem not_minted_next (g : HandleGenerator) : ¬ g.Minted g.next.1 := by
  rintro ⟨n, hn, heq⟩
  have hcount : g.count + 1 = n := (handle_inj heq).2
  omega

theorem not_minted_of_stem_ne (hne : g.stem ≠ g'.stem) : ¬ g'.Minted g.next.1 := by
  rintro ⟨n, -, heq⟩
  exact hne (handle_inj heq).1

end HandleGenerator

namespace Session

variable {s s' : Session} {h : Handle}

def generator (s : Session) : Purpose → HandleGenerator
  | .prompt _ => s.inputHandles
  | .program => s.spawnHandles

structure Sound (s : Session) : Prop where
  inputStem : s.inputHandles.stem = "glance.input_callback"
  spawnStem : s.spawnHandles.stem = "glance.spawn_callback"
  orderly : Orderly s.journal
  registry : ∀ h, s.callbacks.get? h = (phase h s.journal).callback?
  counted : ∀ h purpose, .minted h purpose ∈ s.journal → (s.generator purpose).Minted h
  numbered : (asked s.journal).map (·.handle) =
    HandleGenerator.calls { stem := "glance.input_callback" } s.inputHandles.count
  prompted : ∀ p ∈ s.prompts.stack, p ∈ asked s.journal

theorem sound_default : Sound {} :=
  ⟨rfl, rfl, trivial, fun _ => rfl, fun _ _ hm => absurd hm List.not_mem_nil, rfl,
    fun _ hp => absurd hp List.not_mem_nil⟩

theorem Sound.stems (hs : s.Sound) : s.inputHandles.stem ≠ s.spawnHandles.stem := by
  rw [hs.inputStem, hs.spawnStem]
  decide

def GoesOn (s s' : Session) : Prop := ∃ new, s'.journal = new ++ s.journal ∧ ∀ e ∈ new, e.prompt? = none

theorem GoesOn.asked_eq (h : s.GoesOn s') : asked s'.journal = asked s.journal := by
  obtain ⟨new, hjournal, hnone⟩ := h
  rw [hjournal, asked_append hnone]

theorem GoesOn.settled (h : s.GoesOn s') (hs : Settled s.journal) : Settled s'.journal := by
  obtain ⟨new, hjournal, hnone⟩ := h
  rw [hjournal]
  exact hs.append hnone

theorem goesOn_of_eq (hjournal : s'.journal = s.journal) : s.GoesOn s' := ⟨[], hjournal, nofun⟩

theorem goesOn_of_event {e : Event} (hjournal : s'.journal = e :: s.journal) (he : e.prompt? = none) : s.GoesOn s' :=
  ⟨[e], hjournal, fun _ hd => List.mem_singleton.mp hd ▸ he⟩

theorem Sound.after (hs : s.Sound) {e : Event} (hnext : e.MayFollow s.journal) (hnone : e.minted? = none)
    (hjournal : s'.journal = e :: s.journal)
    (hregistry : ∀ k, s'.callbacks.get? k =
      if e.handle? = some k then (phase k s'.journal).callback? else s.callbacks.get? k)
    (hinput : s'.inputHandles = s.inputHandles) (hspawn : s'.spawnHandles = s.spawnHandles)
    (hprompts : s'.prompts = s.prompts) : s'.Sound := by
  have hasked : asked s'.journal = asked s.journal := by
    refine (goesOn_of_event hjournal ?_).asked_eq
    cases e with
    | minted => cases hnone
    | _ => rfl
  refine ⟨hinput ▸ hs.inputStem, hspawn ▸ hs.spawnStem, ?_, fun k => ?_, fun k purpose hk => ?_, ?_, fun p hp => ?_⟩
  · rw [hjournal]
    exact ⟨hnext, hs.orderly⟩
  · rw [hregistry k]
    split
    · rfl
    · next hne => rw [hs.registry k, hjournal, phase_cons_of_ne _ hne]
  · have hgenerator : s'.generator purpose = s.generator purpose := by
      cases purpose with
      | prompt => exact hinput
      | program => exact hspawn
    rw [hjournal] at hk
    rcases List.mem_cons.mp hk with rfl | hk
    · cases hnone
    · exact hgenerator ▸ hs.counted k purpose hk
  · rw [hasked, hinput]
    exact hs.numbered
  · rw [hasked]
    exact hs.prompted p (hprompts ▸ hp)

theorem Sound.known (hs : s.Sound) {p : Prompt} (hp : p ∈ s.prompts.stack) : phase p.handle s.journal ≠ .unknown :=
  hs.orderly.known_of_asked (hs.prompted p hp)

def Records (s s' : Session) : Prop :=
  ∃ new, s'.journal = new ++ s.journal ∧ s'.outbox = s.outbox ++ accepted new ∧ ∀ e ∈ new, e.IsOfScript

theorem Records.refl (s : Session) : Records s s := ⟨[], rfl, (List.append_nil _).symm, by simp⟩

theorem Records.trans {s₁ s₂ s₃ : Session} (h₁ : Records s₁ s₂) (h₂ : Records s₂ s₃) : Records s₁ s₃ := by
  obtain ⟨es, hes, hout, hscript⟩ := h₁
  obtain ⟨fs, hfs, hout', hscript'⟩ := h₂
  refine ⟨fs ++ es, ?_, ?_, fun e he => ?_⟩
  · rw [hfs, hes, List.append_assoc]
  · rw [hout', hout, accepted_append, List.append_assoc]
  · exact (List.mem_append.mp he).elim (hscript' e) (hscript e)

/-- What running scripts may do to a session: what is known of a handle stays as it is. -/
structure Grows (s s' : Session) : Prop where
  prompts : s'.prompts = s.prompts
  known : ∀ h, phase h s.journal ≠ .unknown → phase h s'.journal = phase h s.journal
  records : Records s s'

theorem Grows.refl (s : Session) : Grows s s := ⟨rfl, fun _ _ => rfl, .refl s⟩

theorem Grows.trans {s₁ s₂ s₃ : Session} (h₁ : Grows s₁ s₂) (h₂ : Grows s₂ s₃) : Grows s₁ s₃ := by
  refine ⟨h₂.prompts.trans h₁.prompts, fun h hk => ?_, h₁.records.trans h₂.records⟩
  have hkept := h₁.known h hk
  rw [h₂.known h (hkept ▸ hk), hkept]

theorem Grows.after (hg : Grows s s') {e : Event} {t : Session} (hjournal : t.journal = e :: s'.journal)
    (he : e.IsOfScript) (hfresh : ∀ k, e.handle? = some k → phase k s.journal = .unknown)
    (hout : t.outbox = s'.outbox ++ accepted [e]) (hprompts : t.prompts = s'.prompts) : Grows s t := by
  refine ⟨hprompts.trans hg.prompts, fun h hk => ?_, hg.records.trans ⟨[e], hjournal, hout, by simpa using he⟩⟩
  have hne : e.handle? ≠ some h := fun heq => hk (hfresh h heq)
  rw [hjournal, phase_cons_of_ne _ hne, hg.known h hk]

theorem Sound.hold (hs : s.Sound) {purpose : Purpose} (hminted : phase h s.journal = .minted purpose) {f : Nat}
    (htakes : purpose.Takes f) : (s.hold h f).Sound := by
  refine hs.after (e := .registered h f) ⟨purpose, hminted, htakes⟩ rfl rfl (fun k => ?_) rfl rfl rfl
  by_cases hk : k = h
  · subst hk
    simp [Session.hold, note, phase, Phase.callback?, Event.handle?]
  · simp [Session.hold, note, Event.handle?, hk, Ne.symm hk]

theorem Grows.hold (hg : Grows s s') (hfresh : phase h s.journal = .unknown) (f : Nat) : Grows s (s'.hold h f) := by
  refine hg.after (e := .registered h f) rfl trivial (fun k hk => ?_) (List.append_nil _).symm rfl
  obtain rfl : h = k := Option.some.inj hk
  exact hfresh

/-- What holds after a handle was minted, as scripts go on with it. -/
structure Mints (s : Session) (h : Handle) (purpose : Purpose) (s' : Session) : Prop where
  sound : s'.Sound
  grows : Grows s s'
  fresh : phase h s.journal = .unknown
  minted : phase h s'.journal = .minted purpose

theorem Sound.mints {g g' : HandleGenerator} {purpose : Purpose} (hs : s.Sound) (hfresh : phase h s.journal = .unknown)
    (hinput : s.inputHandles.Reaches g) (hspawn : s.spawnHandles.Reaches g')
    (hcounted : ({ s with inputHandles := g, spawnHandles := g' }.generator purpose).Minted h)
    (hnumbered : (asked (.minted h purpose :: s.journal)).map (·.handle) =
      HandleGenerator.calls { stem := "glance.input_callback" } g.count) :
    Mints s h purpose ({ s with inputHandles := g, spawnHandles := g' }.note (.minted h purpose)) := by
  refine ⟨⟨hinput.1.trans hs.inputStem, hspawn.1.trans hs.spawnStem, ⟨hfresh, hs.orderly⟩, fun k => ?_,
    fun k purpose' hk => ?_, hnumbered, fun p hp => ?_⟩, ?_, hfresh, ?_⟩
  · by_cases hk : h = k
    · subst hk
      simp [note, phase, Phase.callback?, hs.registry h, hfresh]
    · simp [note, phase, hk, hs.registry k]
  · rcases List.mem_cons.mp hk with heq | hk
    · obtain ⟨rfl, rfl⟩ := Event.minted.inj heq
      cases purpose' <;> exact hcounted
    · have hold := hs.counted k purpose' hk
      cases purpose' with
      | prompt => exact hold.mono hinput
      | program => exact hold.mono hspawn
  · obtain ⟨o, ho, heq⟩ := mem_asked.mp (hs.prompted p hp)
    exact mem_asked.mpr ⟨o, List.mem_cons_of_mem _ ho, heq⟩
  · refine (Grows.refl s).after (e := .minted h purpose) rfl trivial (fun k hk => ?_) (List.append_nil _).symm rfl
    obtain rfl : h = k := Option.some.inj hk
    exact hfresh
  · simp [note, phase]

theorem Sound.minted_of_known (hs : s.Sound) (hk : phase h s.journal ≠ .unknown) :
    s.inputHandles.Minted h ∨ s.spawnHandles.Minted h := by
  obtain ⟨purpose, hm⟩ := hs.orderly.mem_minted hk
  have hcounted := hs.counted h purpose hm
  cases purpose with
  | prompt => exact .inl hcounted
  | program => exact .inr hcounted

theorem Sound.unknown (hs : s.Sound) (hi : ¬ s.inputHandles.Minted h) (hp : ¬ s.spawnHandles.Minted h) :
    phase h s.journal = .unknown := by
  by_contra hk
  exact (hs.minted_of_known hk).elim hi hp

theorem Sound.unknown_input (hs : s.Sound) : phase s.inputHandles.next.1 s.journal = .unknown :=
  hs.unknown (HandleGenerator.not_minted_next _) (HandleGenerator.not_minted_of_stem_ne hs.stems)

theorem Sound.unknown_spawn (hs : s.Sound) : phase s.spawnHandles.next.1 s.journal = .unknown :=
  hs.unknown (HandleGenerator.not_minted_of_stem_ne hs.stems.symm) (HandleGenerator.not_minted_next _)

theorem Sound.mintSpawn (hs : s.Sound) : Mints s s.mintSpawn.1 .program s.mintSpawn.2 :=
  hs.mints hs.unknown_spawn (.refl _) (HandleGenerator.reaches_next _) (HandleGenerator.minted_next _) hs.numbered

theorem fst_mintInput (s : Session) (o : PromptOptions) : (s.mintInput o).1 = s.inputHandles.next.1 := by
  rw [Session.mintInput]
  cases o.callback <;> rfl

theorem asked_mintInput (s : Session) (o : PromptOptions) :
    asked (s.mintInput o).2.journal = asked s.journal ++ [o.prompt s.inputHandles.next.1] := by
  rw [← asked_cons, Session.mintInput]
  cases o.callback <;> rfl

theorem Settled.mintInput (hs : Settled s.journal) (o : PromptOptions) : Settled (s.mintInput o).2.journal := by
  intro h o' f hm hf
  rw [Session.mintInput] at hm ⊢
  cases ho : o.callback with
  | none =>
    rw [ho] at hm
    rcases List.mem_cons.mp hm with heq | hm
    · obtain ⟨-, hpurpose⟩ := Event.minted.inj heq
      obtain rfl := Purpose.prompt.inj hpurpose
      rw [ho] at hf
      cases hf
    · exact List.mem_cons_of_mem _ (hs h o' f hm hf)
  | some g =>
    rw [ho] at hm
    rcases List.mem_cons.mp hm with heq | hm
    · cases heq
    rcases List.mem_cons.mp hm with heq | hm
    · obtain ⟨rfl, hpurpose⟩ := Event.minted.inj heq
      obtain rfl := Purpose.prompt.inj hpurpose
      obtain rfl := Option.some.inj (ho.symm.trans hf)
      exact List.mem_cons_self
    · exact List.mem_cons_of_mem _ (List.mem_cons_of_mem _ (hs h o' f hm hf))

theorem Sound.mintInput (hs : s.Sound) (o : PromptOptions) : (s.mintInput o).2.Sound ∧ Grows s (s.mintInput o).2 := by
  have hnumbered : (asked (.minted s.inputHandles.next.1 (.prompt o) :: s.journal)).map (·.handle) =
      HandleGenerator.calls { stem := "glance.input_callback" } (s.inputHandles.count + 1) := by
    rw [asked_cons, HandleGenerator.calls_succ, ← hs.numbered, List.map_append, Nat.zero_add, ← hs.inputStem]
    rfl
  have hm : Mints s s.inputHandles.next.1 (.prompt o) _ :=
    hs.mints hs.unknown_input (HandleGenerator.reaches_next _) (.refl _) (HandleGenerator.minted_next _) hnumbered
  rw [Session.mintInput]
  cases ho : o.callback with
  | none => exact ⟨hm.sound, hm.grows⟩
  | some f => exact ⟨hm.sound.hold hm.minted ho, hm.grows.hold hm.fresh f⟩

theorem Sound.accept (hs : s.Sound) (r : SpawnRequest) : (s.accept r).Sound :=
  hs.after (e := .accepted r) trivial rfl rfl (fun _ => by simp [Session.accept, note, Event.handle?]) rfl rfl rfl

theorem Grows.accept (hg : Grows s s') (r : SpawnRequest) : Grows s (s'.accept r) :=
  hg.after (e := .accepted r) rfl trivial (fun _ hk => by simp [Event.handle?] at hk) rfl rfl

theorem register_cases (s : Session) (h : Handle) (offer : Offer Nat) :
    (∃ f, s.register h offer = .ok (s.hold h f)) ∨ s.register h offer = .ok s ∨
      ∃ e, s.register h offer = .error e := by
  cases offer with
  | nothing => exact .inr (.inl rfl)
  | function f => exact .inl ⟨f, rfl⟩
  | other => exact .inr (.inr ⟨_, rfl⟩)

theorem Sound.drain (hs : s.Sound) : s.drain.2.Sound :=
  ⟨hs.inputStem, hs.spawnStem, hs.orderly, hs.registry, hs.counted, hs.numbered, hs.prompted⟩

theorem Sound.openPrompt (hs : s.Sound) {p : Prompt} (hp : p ∈ asked s.journal) : (s.openPrompt p).Sound := by
  refine ⟨hs.inputStem, hs.spawnStem, hs.orderly, hs.registry, hs.counted, hs.numbered, fun q hq => ?_⟩
  rcases List.mem_cons.mp hq with rfl | hq
  · exact hp
  · exact hs.prompted q hq

theorem Sound.closePrompt (hs : s.Sound) : s.closePrompt.2.Sound :=
  ⟨hs.inputStem, hs.spawnStem, hs.orderly, hs.registry, hs.counted, hs.numbered,
    fun p hp => hs.prompted p (List.mem_of_mem_tail hp)⟩

theorem Sound.cancel (hs : s.Sound) {p : Prompt} (hp : phase p.handle s.journal ≠ .unknown) : (s.cancel p).Sound := by
  refine hs.after (e := .cancelled p) hp rfl rfl (fun k => ?_) rfl rfl rfl
  by_cases hk : k = p.handle
  · subst hk
    simp [Session.cancel, note, phase, Phase.callback?, Event.handle?]
  · simp [Session.cancel, note, Event.handle?, hk, Ne.symm hk]

theorem take_of_none (hn : s.callbacks.get? h = none) : s.take h = (none, s) := by simp [take, Callbacks.take, hn]

theorem take_of_some {f : Nat} (hf : s.callbacks.get? h = some f) :
    s.take h = (some f, { s with callbacks := s.callbacks.discard h }.note (.invoked h f)) := by
  simp [take, Callbacks.take, hf]

theorem goesOn_take : s.GoesOn (s.take h).2 := by
  cases hf : s.callbacks.get? h with
  | none =>
    rw [take_of_none hf]
    exact goesOn_of_eq rfl
  | some f =>
    rw [take_of_some hf]
    exact goesOn_of_event rfl rfl

theorem Sound.waiting_of_get? (hs : s.Sound) {f : Nat} (hf : s.callbacks.get? h = some f) :
    phase h s.journal = .waiting f := by
  rw [hs.registry h] at hf
  cases hphase : phase h s.journal <;> simp_all [Phase.callback?]

theorem Sound.take (hs : s.Sound) : (s.take h).2.Sound := by
  cases hf : s.callbacks.get? h with
  | none => rwa [take_of_none hf]
  | some f =>
    have hwaiting := hs.waiting_of_get? hf
    rw [take_of_some hf]
    refine hs.after (e := .invoked h f) hwaiting rfl rfl (fun k => ?_) rfl rfl rfl
    by_cases hk : k = h
    · subst hk
      simp [note, phase, Phase.callback?, Event.handle?]
    · simp [note, Event.handle?, hk, Ne.symm hk]

end Session
end Triage
