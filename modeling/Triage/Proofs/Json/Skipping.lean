import Triage.Proofs.Json.Numbers

/-! Any value is passed over as a whole, however deep it nests. -/

namespace Triage.Json

inductive Starts : Bytes → Prop where
  | mk {b : UInt8} {tail : Bytes} : isSpace b = false → b ≠ 0x5D → Starts (b :: tail)

theorem IsString.starts {bytes : Bytes} (h : IsString bytes) : Starts bytes := by
  cases h
  exact .mk rfl (by decide)

theorem starts_of_digit {b : UInt8} (h : (b == 0x2D || isDigit b) = true) (tail : Bytes) : Starts (b :: tail) := by
  refine .mk (isSpace_of_number h) ?_
  rintro rfl
  cases h

theorem literalBytes_starts {name : String} (h : name ∈ ["null", "true", "false"]) : Starts (literalBytes name) := by
  simp only [List.mem_cons, List.not_mem_nil, or_false] at h
  rcases h with rfl | rfl | rfl <;> exact .mk rfl (by decide)

theorem IsValue.starts {bytes : Bytes} (h : IsValue bytes) : Starts bytes := by
  cases h with
  | literal hname => exact literalBytes_starts hname
  | string hstring => exact hstring.starts
  | number hnumber =>
    obtain ⟨b, tail, rfl, hb⟩ := hnumber.exists_head
    exact starts_of_digit hb tail
  | list => exact .mk rfl (by decide)
  | object => exact .mk rfl (by decide)

def Frame.close : Frame → UInt8
  | .list => 0x5D
  | .object => 0x7D

theorem follows_blanks {gap : Bytes} (h : Blanks gap) {b : UInt8} (hb : b ∈ [0x2C, 0x5D, 0x7D]) (rest : Bytes) :
    Follows (gap ++ b :: rest) := by
  intro b' hb'
  cases gap with
  | nil =>
    obtain rfl := Option.some.inj hb'
    exact .inr hb
  | cons g gap =>
    obtain rfl := Option.some.inj hb'
    exact .inl (h g List.mem_cons_self)

theorem Joined.follows {close : UInt8} (hclose : close ∈ [0x5D, 0x7D]) {items : List Bytes} {body : Bytes}
    (h : Joined close false items body) (rest : Bytes) : Follows (body ++ rest) := by
  cases h with
  | done hgap =>
    rw [List.append_assoc]
    exact follows_blanks hgap (List.mem_cons_of_mem _ hclose) rest
  | next hbefore _ _ =>
    rw [List.append_assoc]
    exact follows_blanks hbefore List.mem_cons_self _

def enter (frame : Frame) : Reader Unit := if frame = .object then skipKey else pure ()

section

variable {frame : Frame} {gap : Bytes} (hgap : Blanks gap)

include hgap

theorem skipNext_done (isFirst : Bool) (rest : Bytes) :
    skipNext frame isFirst (gap ++ frame.close :: rest) = .ok (false, rest) := by
  unfold skipNext
  cases frame <;> (rw [bind_peek? hgap rfl]; rfl)

theorem skipNext_first {b : UInt8} (hb : isSpace b = false) (hclose : b ≠ frame.close) (tail : Bytes) :
    skipNext frame true (gap ++ b :: tail) = (enter frame >>= fun _ => pure true) (b :: tail) := by
  unfold skipNext enter
  rw [bind_peek? hgap hb]
  cases frame <;> simp [Frame.close] at hclose <;> simp [hclose]

theorem skipNext_comma (tail : Bytes) :
    skipNext frame false (gap ++ 0x2C :: tail) = (enter frame >>= fun _ => pure true) tail := by
  unfold skipNext enter
  cases frame <;> (rw [bind_peek? hgap rfl]; rfl)

end

def skipOn (isFirst : Bool) (fuel : Nat) (stack : List Frame) : Reader Unit := do
  let stack ← skipClose stack isFirst
  if stack.isEmpty then pure () else skipValues fuel stack

/-- A value that costs no more fuel than it has bytes. -/
def Skips (value : Bytes) : Prop :=
  ∃ cost ≤ value.length, ∀ fuel stack gap rest, Blanks gap → Follows rest →
    skipValues (fuel + cost) stack (gap ++ (value ++ rest)) = skipOn false fuel stack rest

structure Enters (frame : Frame) (item value : Bytes) : Prop where
  starts : ∃ b tail, item = b :: tail ∧ isSpace b = false ∧ b ≠ frame.close
  length_le : value.length ≤ item.length
  enter : ∀ gap rest, Blanks gap → ∃ gap', Blanks gap' ∧
    enter frame (gap ++ (item ++ rest)) = .ok ((), gap' ++ (value ++ rest))

theorem skipValues_scalar {value : Bytes} (hne : value ≠ [])
    (h : ∀ gap rest, Blanks gap → Follows rest → skipStart (gap ++ (value ++ rest)) = .ok (none, rest)) :
    Skips value := by
  refine ⟨1, List.length_pos_iff.mpr hne, fun fuel stack gap rest hgap hrest => ?_⟩
  rw [skipValues, bind_of_ok (h gap rest hgap hrest)]
  rfl

theorem skipValues_open (frame : Frame) {b : UInt8} {body : Bytes}
    (hopen : ∀ gap rest, Blanks gap → skipStart (gap ++ (b :: body ++ rest)) = .ok (some frame, body ++ rest))
    (h : ∃ cost ≤ body.length, ∀ fuel stack rest, Follows rest →
      skipOn true (fuel + cost) (frame :: stack) (body ++ rest) = skipOn false fuel stack rest) :
    Skips (b :: body) := by
  obtain ⟨cost, hcost, h⟩ := h
  refine ⟨cost + 1, Nat.succ_le_succ hcost, fun fuel stack gap rest hgap hrest => ?_⟩
  rw [← Nat.add_assoc, skipValues, bind_of_ok (hopen gap rest hgap)]
  exact h fuel stack rest hrest

theorem skipOn_close {frame : Frame} {isFirst : Bool} {fuel : Nat} {stack : List Frame} {input rest : Bytes}
    (h : skipNext frame isFirst input = .ok (false, rest)) :
    skipOn isFirst fuel (frame :: stack) input = skipOn false fuel stack rest := by
  have hclose : skipClose (frame :: stack) isFirst input = skipClose stack false rest := by
    rw [skipClose, bind_of_ok h]
    rfl
  unfold skipOn
  show (skipClose (frame :: stack) isFirst input >>= _) = (skipClose stack false rest >>= _)
  rw [hclose]

theorem skipOn_item {frame : Frame} {isFirst : Bool} {fuel : Nat} {stack : List Frame} {input rest : Bytes}
    (h : skipNext frame isFirst input = .ok (true, rest)) :
    skipOn isFirst fuel (frame :: stack) input = skipValues fuel (frame :: stack) rest := by
  have hclose : skipClose (frame :: stack) isFirst input = .ok (frame :: stack, rest) := by
    rw [skipClose, bind_of_ok h]
    rfl
  unfold skipOn
  rw [bind_of_ok hclose]
  rfl

theorem Joined.skipNext {frame : Frame} {isFirst : Bool} {item value : Bytes} {items : List Bytes} {body : Bytes}
    (h : Joined frame.close isFirst (item :: items) body) (hitem : Enters frame item value) :
    ∃ body', Joined frame.close false items body' ∧ value.length + body'.length ≤ body.length ∧
      ∀ rest, ∃ gap, Blanks gap ∧
        skipNext frame isFirst (body ++ rest) = .ok (true, gap ++ (value ++ (body' ++ rest))) := by
  have hlength := hitem.length_le
  cases h with
  | @first gap _ body' _ hgap hbody =>
    refine ⟨body', hbody, by simp only [List.length_append]; omega, fun rest => ?_⟩
    obtain ⟨gap', hgap', henter⟩ := hitem.enter [] (body' ++ rest) blanks_nil
    obtain ⟨b, tail, rfl, hb, hne⟩ := hitem.starts
    refine ⟨gap', hgap', ?_⟩
    rw [List.nil_append, List.cons_append] at henter
    rw [List.append_assoc, List.append_assoc, List.cons_append, skipNext_first hgap hb hne, bind_of_ok henter]
    rfl
  | @next before after _ body' _ hbefore hafter hbody =>
    refine ⟨body', hbody, by simp only [List.length_append, List.length_cons]; omega, fun rest => ?_⟩
    obtain ⟨gap', hgap', henter⟩ := hitem.enter after (body' ++ rest) hafter
    refine ⟨gap', hgap', ?_⟩
    rw [List.append_assoc, List.cons_append, List.append_assoc, List.append_assoc, skipNext_comma hbefore,
      bind_of_ok henter]
    rfl

theorem Joined.skips (frame : Frame) {isFirst : Bool} {items : List Bytes} {body : Bytes}
    (h : Joined frame.close isFirst items body)
    (hitems : ∀ item ∈ items, ∃ value, Enters frame item value ∧ Skips value) :
    ∃ cost ≤ body.length, ∀ fuel stack rest, Follows rest →
      skipOn isFirst (fuel + cost) (frame :: stack) (body ++ rest) = skipOn false fuel stack rest := by
  induction items generalizing isFirst body with
  | nil =>
    cases h with
    | done hgap =>
      refine ⟨0, Nat.zero_le _, fun fuel stack rest _ => skipOn_close ?_⟩
      rw [List.append_assoc]
      exact skipNext_done hgap isFirst rest
  -- One item costs what its value costs; the items after it have the rest of the fuel.
  | cons item items ih =>
    obtain ⟨value, hvalue, cost, hcost, hskips⟩ := hitems item List.mem_cons_self
    obtain ⟨body', hbody', hlength, hnext⟩ := h.skipNext hvalue
    obtain ⟨cost', hcost', hrest'⟩ := ih hbody' fun item hitem => hitems item (List.mem_cons_of_mem _ hitem)
    have hclose : frame.close ∈ [0x5D, 0x7D] := by cases frame <;> decide
    refine ⟨cost' + cost, by omega, fun fuel stack rest hrest => ?_⟩
    obtain ⟨gap, hgap, hnext⟩ := hnext rest
    calc skipOn isFirst (fuel + (cost' + cost)) (frame :: stack) (body ++ rest)
      _ = skipValues (fuel + cost' + cost) (frame :: stack) (gap ++ (value ++ (body' ++ rest))) := by
        rw [skipOn_item hnext, Nat.add_assoc]
      _ = skipOn false (fuel + cost') (frame :: stack) (body' ++ rest) :=
        hskips _ _ _ _ hgap (hbody'.follows hclose rest)
      _ = skipOn false fuel stack rest := hrest' fuel stack rest hrest

theorem IsValue.enters {value : Bytes} (h : IsValue value) : Enters .list value value := by
  refine ⟨?_, Nat.le_refl _, fun gap rest hgap => ⟨gap, hgap, rfl⟩⟩
  cases h.starts with
  | mk hspace hclose => exact ⟨_, _, rfl, hspace, hclose⟩

theorem NamedText.enters {m : NamedText} (hname : IsString m.name) (hspaced : m.IsSpaced) :
    Enters .object m.bytes m.value := by
  obtain ⟨name, before, after, value⟩ := m
  refine ⟨?_, ?_, fun gap rest hgap => ⟨after, hspaced.after, ?_⟩⟩
  · cases hname
    exact ⟨0x22, _, rfl, rfl, by decide⟩
  · simp only [NamedText.bytes, List.length_append, List.length_cons]
    omega
  · have hskip := skipString_append hname (before ++ 0x3A :: (after ++ (value ++ rest)))
    have hbytes : NamedText.bytes ⟨name, before, after, value⟩ ++ rest =
        name ++ (before ++ 0x3A :: (after ++ (value ++ rest))) := by
      simp [NamedText.bytes]
    rw [hbytes]
    cases hname with
    | mk =>
      show skipKey _ = _
      unfold skipKey
      rw [List.cons_append, bind_peek? hgap rfl]
      dsimp only
      rw [if_pos (beq_self_eq_true _), ← List.cons_append, bind_of_ok hskip, bind_peek? hspaced.before rfl]
      rfl

theorem skipStart_literal {name : String} (h : name ∈ ["null", "true", "false"]) {gap : Bytes} (hgap : Blanks gap)
    (rest : Bytes) : skipStart (gap ++ (literalBytes name ++ rest)) = .ok (none, rest) := by
  have hread := readLiteral_append name rest
  unfold skipStart
  simp only [List.mem_cons, List.not_mem_nil, or_false] at h
  rcases h with rfl | rfl | rfl
  · have hbytes : literalBytes "null" ++ rest = 0x6E :: (literalBytes "ull" ++ rest) := rfl
    rw [hbytes] at hread ⊢
    rw [bind_peek? hgap rfl]
    exact bind_of_ok hread _
  · have hbytes : literalBytes "true" ++ rest = 0x74 :: (literalBytes "rue" ++ rest) := rfl
    rw [hbytes] at hread ⊢
    rw [bind_peek? hgap rfl]
    exact bind_of_ok hread _
  · have hbytes : literalBytes "false" ++ rest = 0x66 :: (literalBytes "alse" ++ rest) := rfl
    rw [hbytes] at hread ⊢
    rw [bind_peek? hgap rfl]
    exact bind_of_ok hread _

theorem skipStart_string {bytes : Bytes} (h : IsString bytes) {gap : Bytes} (hgap : Blanks gap) (rest : Bytes) :
    skipStart (gap ++ (bytes ++ rest)) = .ok (none, rest) := by
  have hskip := skipString_append h rest
  cases h with
  | mk =>
    unfold skipStart
    rw [List.cons_append, bind_peek? hgap rfl]
    exact bind_of_ok hskip _

theorem skipStart_number {bytes : Bytes} (h : IsNumber bytes) {gap rest : Bytes} (hgap : Blanks gap)
    (hrest : Follows rest) : skipStart (gap ++ (bytes ++ rest)) = .ok (none, rest) := by
  have hskip := skipNumber_append h hrest
  obtain ⟨b, tail, rfl, hb⟩ := h.exists_head
  have hnone : ∀ c ∈ [0x6E, 0x74, 0x66, 0x22], (c == 0x2D || isDigit c) = false := by decide +kernel
  have hother : ∀ c ∈ [0x6E, 0x74, 0x66, 0x22], (b == c) = false := by
    intro c hc
    refine beq_eq_false_iff_ne.mpr ?_
    rintro rfl
    rw [hnone b hc] at hb
    cases hb
  unfold skipStart
  rw [List.cons_append, bind_peek? hgap (isSpace_of_number hb)]
  dsimp only
  rw [hother _ (by decide), hother _ (by decide), hother _ (by decide), hother _ (by decide), if_pos hb]
  exact bind_of_ok hskip _

theorem IsValue.skips {value : Bytes} (h : IsValue value) : Skips value := by
  have hne (value : Bytes) (h : IsValue value) : value ≠ [] := by
    cases h.starts
    exact List.cons_ne_nil _ _
  induction h with
  | literal hname =>
    exact skipValues_scalar (hne _ (.literal hname)) fun _ rest hgap _ => skipStart_literal hname hgap rest
  | string hstring =>
    exact skipValues_scalar (hne _ (.string hstring)) fun _ rest hgap _ => skipStart_string hstring hgap rest
  | number hnumber =>
    exact skipValues_scalar (hne _ (.number hnumber)) fun _ _ hgap hrest => skipStart_number hnumber hgap hrest
  | list hbody hitems ih =>
    refine skipValues_open .list (fun gap rest hgap => ?_)
      (Joined.skips .list hbody fun item hitem => ⟨item, (hitems item hitem).enters, ih item hitem⟩)
    unfold skipStart
    rw [List.cons_append, bind_peek? hgap rfl]
    rfl
  | object hbody hspaced hnamed _ ih =>
    refine skipValues_open .object (fun gap rest hgap => ?_)
      (Joined.skips .object hbody fun item hitem => ?_)
    · unfold skipStart
      rw [List.cons_append, bind_peek? hgap rfl]
      rfl
    · obtain ⟨m, hm, rfl⟩ := List.mem_map.mp hitem
      exact ⟨m.value, NamedText.enters (hnamed m hm) (hspaced m hm), ih m hm⟩

theorem reads_skipValue {value : Bytes} (h : IsValue value) : Reads skipValue value (.ok ()) := by
  intro gap rest hgap hrest
  obtain ⟨cost, hcost, hskips⟩ := h.skips
  -- There is a unit of fuel for each byte of the input, which is enough for the value.
  obtain ⟨fuel, hfuel⟩ : ∃ fuel, (gap ++ (value ++ rest)).length + 1 = fuel + cost :=
    ⟨(gap ++ (value ++ rest)).length + 1 - cost, by simp only [List.length_append]; omega⟩
  unfold skipValue
  rw [hfuel, hskips fuel [] gap rest hgap hrest]
  rfl

end Triage.Json
