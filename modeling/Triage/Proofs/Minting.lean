import Triage.Proofs.Runs

/-! Handles of any number of calls. Two generators never give the same one, and so a callback shares its handle with no
other: it is not replaced, and it waits until its own handle is used. -/

namespace Triage

namespace HandleGenerator

def callsOfWord (stem : String) (counter : UInt64) : Nat → List Handle
  | 0 => []
  | n + 1 => handle stem (counter + 1).toNat :: callsOfWord stem (counter + 1) n

theorem callsOfWord_eq (stem : String) {counter : UInt64} {n : Nat} (h : counter.toNat + n < 0x10000000000000000) :
    callsOfWord stem counter n = calls ⟨stem, counter.toNat⟩ n := by
  induction n generalizing counter with
  | zero => rfl
  | succ n ih =>
    have hnext : (counter + 1).toNat = counter.toNat + 1 := by
      rw [UInt64.toNat_add]
      exact Nat.mod_eq_of_lt (by change counter.toNat + 1 < _; omega)
    rw [callsOfWord, ih (by omega), hnext]
    rfl

theorem text_calls_inj {a b : String} {m n i j : Nat} (hi : i < m) (hj : j < n) :
    (calls { stem := a } m)[i]?.map Handle.text = (calls { stem := b } n)[j]?.map Handle.text ↔ a = b ∧ i = j := by
  rw [getElem?_calls _ hi, getElem?_calls _ hj]
  constructor
  · intro h
    have hhandle : handle a (0 + 1 + i) = handle b (0 + 1 + j) := congrArg Handle.mk (Option.some.inj h)
    obtain ⟨hstem, hnumber⟩ := handle_inj hhandle
    exact ⟨hstem, Nat.add_left_cancel hnumber⟩
  · rintro ⟨rfl, rfl⟩
    rfl

end HandleGenerator

namespace Session

/-- Every handle is of one generator alone, the next ones are new, and a callback has its handle to itself: it is the
only one registered or called under it, and waits there until its call or until its prompt is cancelled. -/
structure KeepsApart (s : Session) : Prop where
  kinds : ∀ h, s.inputHandles.Minted h → ¬ s.spawnHandles.Minted h
  minted : ∀ e ∈ s.journal, ∀ h, e.handle? = some h → s.inputHandles.Minted h ∨ s.spawnHandles.Minted h
  purposes : ∀ h purpose, .minted h purpose ∈ s.journal → (s.generator purpose).Minted h
  unused : ∀ e ∈ s.journal, e.handle? ≠ some s.inputHandles.next.1 ∧ e.handle? ≠ some s.spawnHandles.next.1
  once : (s.journal.filterMap Event.registered?).Nodup
  called : ∀ h f g, .registered h f ∈ s.journal → .invoked h g ∈ s.journal → f = g
  waits : ∀ h f, .registered h f ∈ s.journal → s.callbacks.get? h = some f ∨ .invoked h f ∈ s.journal ∨
    ∃ p, .cancelled p ∈ s.journal ∧ p.handle = h
  input : ∀ h f o, s.callbacks.get? h = some f → (s.mintInput o).2.callbacks.get? h = some f
  spawn : ∀ h f offer s', s.callbacks.get? h = some f → s.mintSpawn.2.register s.mintSpawn.1 offer = .ok s' →
    s'.callbacks.get? h = some f
  take : ∀ h f k, s.callbacks.get? h = some f → h ≠ k → (s.take k).2.callbacks.get? h = some f

section

variable {s : Session} {h k : Handle} {f : Nat}

theorem get?_take_of_ne (hf : s.callbacks.get? h = some f) (hne : h ≠ k) : (s.take k).2.callbacks.get? h = some f := by
  cases hk : s.callbacks.get? k with
  | none => rwa [take_of_none hk]
  | some g =>
    rw [take_of_some hk]
    exact (Callbacks.get?_discard s.callbacks k h).trans (by rwa [if_neg hne])

theorem get?_hold_of_ne (hf : s.callbacks.get? h = some f) (hne : h ≠ k) (g : Nat) :
    (s.hold k g).callbacks.get? h = some f :=
  (Callbacks.get?_insert s.callbacks k h g).trans (by rwa [if_neg hne])

theorem get?_register_of_ne {s' : Session} {offer : Offer Nat} (hf : s.callbacks.get? h = some f) (hne : h ≠ k)
    (hr : s.register k offer = .ok s') : s'.callbacks.get? h = some f := by
  rcases register_cases s k offer with ⟨g, hg⟩ | hnone | ⟨e, herror⟩
  · obtain rfl := Except.ok.inj (hg.symm.trans hr)
    exact get?_hold_of_ne hf hne g
  · obtain rfl := Except.ok.inj (hnone.symm.trans hr)
    exact hf
  · cases herror.symm.trans hr

theorem Sound.ne_of_unknown (hs : s.Sound) (hf : s.callbacks.get? h = some f) (hk : phase k s.journal = .unknown) :
    h ≠ k := by
  rintro rfl
  have hwaiting := hs.waiting_of_get? hf
  rw [hk] at hwaiting
  cases hwaiting

theorem Sound.waits (hs : s.Sound) (hf : .registered h f ∈ s.journal) : s.callbacks.get? h = some f ∨
    .invoked h f ∈ s.journal ∨ ∃ p, .cancelled p ∈ s.journal ∧ p.handle = h := by
  rcases hphase : phase h s.journal with _ | _ | g | _
  · exact absurd rfl (hs.orderly.of_unknown hphase hf)
  · cases hs.orderly.of_minted hphase hf rfl
  · obtain ⟨-, -, -, hg, -⟩ := hs.orderly.of_waiting hphase
    rw [hs.registry h, hphase, hs.orderly.of_registered hf hg]
    exact .inl rfl
  · rcases exists_of_phase_over hphase with ⟨g, hg⟩ | hcancelled
    · exact .inr (.inl (hs.orderly.of_invoked hf hg ▸ hg))
    · exact .inr (.inr hcancelled)

theorem Sound.keepsApart (hs : s.Sound) : s.KeepsApart where
  kinds h hinput hspawn := by
    obtain ⟨i, -, hi⟩ := hinput
    obtain ⟨j, -, hj⟩ := hspawn
    exact hs.stems (HandleGenerator.handle_inj (hi.symm.trans hj)).1
  minted e he h hh := hs.minted_of_known fun hunknown => hs.orderly.of_unknown hunknown he hh
  purposes := hs.counted
  unused e he := ⟨hs.orderly.of_unknown hs.unknown_input he, hs.orderly.of_unknown hs.unknown_spawn he⟩
  once := hs.orderly.registered_nodup
  called _ _ _ := hs.orderly.of_invoked
  waits _ _ := hs.waits
  input h f o hf := by
    have hne := hs.ne_of_unknown hf hs.unknown_input
    rw [Session.mintInput]
    cases o.callback with
    | none => exact hf
    | some g => exact get?_hold_of_ne (s := { s with inputHandles := _ }.note _) hf hne g
  spawn h f offer s' hf hr := by
    have hminted : s.mintSpawn.2.callbacks.get? h = some f := hf
    exact get?_register_of_ne hminted (hs.ne_of_unknown hf hs.unknown_spawn) hr
  take _ _ _ := get?_take_of_ne

end

end Session

open HandleGenerator Script

/-- Handles of fewer calls than a word of 64 bits counts differ in their texts if their stems or their numbers do,
whatever the stems are. In every run callbacks are kept apart by them. -/
theorem Dispatch.run_keepsApart :
    (∀ (a b : String) (m n i j : Nat), i < m → j < n → m < 0x10000000000000000 → n < 0x10000000000000000 →
        ((callsOfWord a 0 m)[i]?.map Handle.text = (callsOfWord b 0 n)[j]?.map Handle.text ↔ a = b ∧ i = j)) ∧
      (∀ (stem : String) (n : Nat), n < 0x10000000000000000 →
        callsOfWord stem 0 n = calls { stem } n ∧ (callsOfWord stem 0 n).length = n) ∧
      ∀ {σ : Type} [Host σ] {host : σ} {s : Source} {es : List Dispatch.Entry} {css : List (List Command)}
        {m : Machine σ}, Dispatch.run host s es = some (css, m) → m.session.KeepsApart := by
  have hcalls (stem : String) {n : Nat} (hn : n < 0x10000000000000000) : callsOfWord stem 0 n = calls { stem } n :=
    callsOfWord_eq stem (by rwa [UInt64.toNat_zero, Nat.zero_add])
  refine ⟨fun a b m n i j hi hj hm hn => ?_, fun stem n hn => ⟨hcalls stem hn, ?_⟩, fun h => ?_⟩
  · rw [hcalls a hm, hcalls b hn]
    exact text_calls_inj hi hj
  · rw [hcalls stem hn, length_calls]
  · exact (Dispatch.run_reached h).sound.session.keepsApart

theorem Dispatch.run_keepsApart_extending :
    ((callsOfWord "h" 0 10)[9]?.map Handle.text ≠ (callsOfWord "h_1" 0 1)[0]?.map Handle.text ∧
        callsOfWord "h_1" 0 10 = calls { stem := "h_1" } 10) ∧
      ∃ css m f, Dispatch.run ({} : MemoryHost) asking [.key "t", .submit ""] = some (css, m) ∧
        m.session.callbacks.get? ⟨"glance.input_callback_1"⟩ = some f ∧
        (m.session.take ⟨"glance.spawn_callback_1"⟩).2.callbacks.get? ⟨"glance.input_callback_1"⟩ = some f := by
  have hwaits : (Dispatch.run ({} : MemoryHost) asking [.key "t", .submit ""]).map
      (fun r => (r.2.session.callbacks.get? ⟨"glance.input_callback_1"⟩).isSome) = some true := by
    decide +kernel
  obtain ⟨⟨css, m⟩, hrun, hwaiting⟩ := Option.map_eq_some_iff.mp hwaits
  obtain ⟨f, hf⟩ := Option.isSome_iff_exists.mp hwaiting
  refine ⟨⟨fun heq => ?_, ?_⟩, css, m, f, hrun, hf, ?_⟩
  · have hplaces := Dispatch.run_keepsApart.1 "h" "h_1" 10 1 9 0 (by decide) (by decide) (by decide) (by decide)
    exact absurd (hplaces.mp heq).1 (by decide)
  · exact (Dispatch.run_keepsApart.2.1 "h_1" 10 (by decide)).1
  · exact (Dispatch.run_keepsApart.2.2 hrun).take _ _ _ hf (by decide)

end Triage
