import Mathlib.Tactic.Tauto
import Triage.Json.Value
import Triage.Proofs.Json.Skipping

/-! Lists and objects are read by reading their items, in whatever layout they are written. -/

namespace Triage.Json

section

variable {α β : Type} {read : Reader α} {bytes : Bytes}

theorem Reads.bind_pure {outcome : Except JsonFault α} (h : Reads read bytes outcome) (f : α → β) :
    Reads (do return f (← read)) bytes (outcome.map f) := by
  intro gap rest hgap hrest
  have hread := h gap rest hgap hrest
  cases outcome with
  | error => exact bind_of_error hread _
  | ok => exact bind_of_ok hread _

theorem Reads.congr {outcome outcome' : Except JsonFault α} (h : Reads read bytes outcome) (heq : outcome = outcome') :
    Reads read bytes outcome' := heq ▸ h

theorem Reads.at_start {outcome : Except JsonFault α} (h : Reads read bytes outcome) {rest : Bytes}
    (hrest : Follows rest) : read (bytes ++ rest) = outcome.map (·, rest) :=
  h [] rest blanks_nil hrest

end

theorem hasElement_done {gap : Bytes} (hgap : Blanks gap) (isFirst : Bool) (rest : Bytes) :
    hasElement isFirst (gap ++ 0x5D :: rest) = .ok (false, 0x5D :: rest) := by
  unfold hasElement
  rw [bind_peek? hgap rfl]
  rfl

theorem hasElement_first {gap item : Bytes} (hgap : Blanks gap) (hitem : Starts item) (rest : Bytes) :
    hasElement true (gap ++ (item ++ rest)) = .ok (true, item ++ rest) := by
  cases hitem with
  | mk hspace hclose =>
    unfold hasElement
    rw [List.cons_append, bind_peek? hgap hspace]
    simp [hclose]
    rfl

theorem hasElement_comma {before after item : Bytes} (hbefore : Blanks before) (hafter : Blanks after)
    (hitem : Starts item) (rest : Bytes) :
    hasElement false (before ++ 0x2C :: (after ++ (item ++ rest))) = .ok (true, item ++ rest) := by
  cases hitem with
  | mk hspace hclose =>
    unfold hasElement
    have hdrop (input : Bytes) : drop 1 (0x2C :: input) = .ok ((), input) := rfl
    rw [List.cons_append, bind_peek? hbefore rfl]
    show (drop 1 >>= _) _ = _
    rw [bind_of_ok (hdrop _), bind_peek? hafter hspace]
    simp [hclose]
    rfl

theorem closeList_done {gap : Bytes} (hgap : Blanks gap) (rest : Bytes) :
    closeList (gap ++ 0x5D :: rest) = .ok ((), rest) := by
  unfold closeList
  rw [bind_peek? hgap rfl]
  rfl

theorem Joined.length_le {close : UInt8} {isFirst : Bool} {items : List Bytes} {body : Bytes}
    (h : Joined close isFirst items body) : items.length + (if isFirst then 0 else 1) ≤ body.length := by
  induction h with
  | done =>
    simp only [List.length_append, List.length_cons, List.length_nil]
    split <;> omega
  | first _ _ ih =>
    simp only [List.length_append, List.length_cons, Bool.false_eq_true, if_false, if_true] at ih ⊢
    omega
  | next _ _ _ ih =>
    simp only [List.length_append, List.length_cons, Bool.false_eq_true, if_false] at ih ⊢
    omega

theorem Joined.hasElement {isFirst : Bool} {item : Bytes} {items : List Bytes} {body : Bytes}
    (h : Joined 0x5D isFirst (item :: items) body) (hitem : Starts item) :
    ∃ body', Joined 0x5D false items body' ∧
      ∀ rest, hasElement isFirst (body ++ rest) = .ok (true, item ++ (body' ++ rest)) := by
  cases h with
  | @first gap _ body' _ hgap hbody =>
    refine ⟨body', hbody, fun rest => ?_⟩
    rw [List.append_assoc, List.append_assoc]
    exact hasElement_first hgap hitem _
  | @next before after _ body' _ hbefore hafter hbody =>
    refine ⟨body', hbody, fun rest => ?_⟩
    rw [List.append_assoc, List.cons_append, List.append_assoc, List.append_assoc]
    exact hasElement_comma hbefore hafter hitem _

theorem elements_append {α : Type} {element : Reader α} {outcome : α → Except JsonFault α} {as : List α}
    {items : List Bytes} (hitems : List.Forall₂ (fun a item => Starts item ∧ Reads element item (outcome a)) as items)
    {body : Bytes} (acc : List α) (hbody : Joined 0x5D acc.isEmpty items body) {fuel : Nat}
    (hfuel : items.length < fuel) (rest : Bytes) :
    elements element fuel acc (body ++ rest) = (as.mapM outcome).map fun as => (acc.reverse ++ as, rest) := by
  induction hitems generalizing body acc fuel with
  | nil =>
    obtain ⟨fuel, rfl⟩ := Nat.exists_eq_add_one_of_ne_zero (Nat.ne_of_gt hfuel)
    generalize hfirst : acc.isEmpty = isFirst at hbody
    cases hbody with
    | done hgap =>
      rw [elements, List.append_assoc, List.singleton_append, hfirst, bind_of_ok (hasElement_done hgap isFirst rest)]
      have hclose := closeList_done blanks_nil rest
      rw [if_neg Bool.false_ne_true, ← List.nil_append (0x5D :: rest), bind_of_ok hclose, List.mapM_nil]
      show Except.ok (acc.reverse, rest) = .ok (acc.reverse ++ [], rest)
      rw [List.append_nil]
  -- The first item that is refused ends the reading, whatever comes after it.
  | @cons a item as items hitem _ ih =>
    obtain ⟨fuel, rfl⟩ := Nat.exists_eq_add_one_of_ne_zero (Nat.ne_of_gt (Nat.zero_lt_of_lt hfuel))
    obtain ⟨hstarts, hreads⟩ := hitem
    obtain ⟨body', hbody', hnext⟩ := hbody.hasElement hstarts
    have hread := hreads.at_start (hbody'.follows (by decide) rest)
    rw [elements, bind_of_ok (hnext rest), if_pos rfl, List.mapM_cons]
    cases ha : outcome a with
    | error fault =>
      rw [ha] at hread
      exact bind_of_error hread _
    | ok value =>
      rw [ha] at hread
      have hrest := ih (value :: acc) hbody' (Nat.lt_of_succ_lt_succ hfuel)
      rw [bind_of_ok hread, hrest]
      show _ = Except.map _ (as.mapM outcome >>= fun as => pure (value :: as))
      cases as.mapM outcome with
      | error => rfl
      | ok => simp [Except.map, pure, Except.pure, bind, Except.bind]

theorem reads_list {α : Type} {element : Nat → Reader α} {outcome : α → Except JsonFault α} {depth : Nat} {as : List α}
    {items : List Bytes} {body : Bytes} (hbody : Joined 0x5D true items body)
    (hitems : List.Forall₂ (fun a item => Starts item ∧ Reads (element depth) item (outcome a)) as items) :
    Reads (list element (depth + 1)) (0x5B :: body) (as.mapM outcome) := by
  intro gap rest hgap hrest
  have hlength : items.length ≤ body.length := hbody.length_le
  unfold list
  rw [List.cons_append, bind_peek? hgap rfl, if_pos (beq_self_eq_true _)]
  have hfuel : items.length < (body ++ rest).length + 1 := by
    rw [List.length_append]
    omega
  exact elements_append hitems [] hbody hfuel rest

theorem IsList.starts {α : Type} {IsItem : α → Bytes → Prop} {as : List α} {bytes : Bytes}
    (h : IsList IsItem as bytes) : Starts bytes := by
  cases h
  exact .mk rfl (by decide)

theorem mapM_ok {α : Type} (as : List α) : as.mapM (Except.ok : α → Except JsonFault α) = .ok as := by
  have hpure := List.mapM_pure (m := Except JsonFault) (l := as) (f := id)
  rwa [List.map_id] at hpure

theorem reads_list_ok {α : Type} {element : Nat → Reader α} {depth : Nat} {IsItem : α → Bytes → Prop} {as : List α}
    {bytes : Bytes} (h : IsList IsItem as bytes)
    (hitem : ∀ a item, IsItem a item → Starts item ∧ Reads (element depth) item (.ok a)) :
    Reads (list element (depth + 1)) bytes (.ok as) := by
  cases h with
  | mk hbody hitems =>
    rw [← mapM_ok as]
    exact reads_list hbody (hitems.imp fun a item h => hitem a item h)

theorem reads_pair {α β : Type} {first : Nat → Reader α} {second : Nat → Reader β} {depth : Nat} {x y body : Bytes}
    {a : Except JsonFault α} {b : Except JsonFault β} (hbody : Joined 0x5D true [x, y] body) (hx : Starts x)
    (hy : Starts y) (hfirst : Reads (first depth) x a) (hsecond : Reads (second depth) y b) :
    Reads (pair first second (depth + 1)) (0x5B :: body) (do return (← a, ← b)) := by
  intro gap rest hgap hrest
  obtain ⟨body', hbody', hnext⟩ := hbody.hasElement hx
  obtain ⟨body'', hbody'', hnext'⟩ := hbody'.hasElement hy
  have hread := hfirst.at_start (hbody'.follows (by decide) rest)
  have hread' := hsecond.at_start (hbody''.follows (by decide) rest)
  have hopen (input : Bytes) : openContainer (depth + 1) (0x5B :: input) = .ok (depth, input) := rfl
  unfold pair
  rw [List.cons_append, bind_peek? hgap rfl, if_pos (beq_self_eq_true _), bind_of_ok (hopen _),
    bind_of_ok (hnext rest), if_pos rfl]
  cases a with
  | error => exact bind_of_error hread _
  | ok a =>
    rw [bind_of_ok hread, bind_of_ok (hnext' rest), if_pos rfl]
    cases b with
    | error => exact bind_of_error hread' _
    | ok b =>
      cases hbody'' with
      | done hgap' =>
        rw [bind_of_ok hread', List.append_assoc, List.singleton_append, bind_of_ok (closeList_done hgap' rest)]
        rfl

theorem reads_none {α : Type} (read : Reader α) : Reads (optional read) (literalBytes "null") (.ok none) := by
  intro gap rest hgap _
  have hbytes : literalBytes "null" ++ rest = 0x6E :: (literalBytes "ull" ++ rest) := rfl
  have hread := readLiteral_append "null" rest
  unfold optional
  rw [hbytes] at hread ⊢
  rw [bind_peek? hgap rfl, if_pos (beq_self_eq_true _), bind_of_ok hread]
  rfl

theorem reads_some {α : Type} {read : Reader α} {b : UInt8} {tail : Bytes} {outcome : Except JsonFault α}
    (hspace : isSpace b = false) (hb : b ≠ 0x6E) (h : Reads read (b :: tail) outcome) :
    Reads (optional read) (b :: tail) (outcome.map some) := by
  intro gap rest hgap hrest
  have hread := h.at_start hrest
  unfold optional
  rw [List.cons_append, bind_peek? hgap hspace, if_neg (by simp [hb]), ← List.cons_append]
  cases outcome with
  | error => exact map_of_error hread some
  | ok a => exact map_of_ok hread some

theorem IsText.starts {s : String} {bytes : Bytes} (h : IsText s bytes) : Starts bytes := by
  cases h
  exact .mk rfl (by decide)

theorem reads_value_text {s : String} {bytes : Bytes} (h : IsText s bytes) (depth : Nat) :
    Reads (value depth) bytes (.ok (.text s)) := by
  intro gap rest hgap _
  have hread := readString_append h rest
  cases h with
  | mk =>
    unfold value
    rw [List.cons_append, bind_peek? hgap rfl]
    exact map_of_ok hread Value.text

theorem reads_value_texts {ss : List String} {bytes : Bytes} (h : IsList IsText ss bytes) (depth : Nat) :
    Reads (value (depth + 1)) bytes (.ok (.list (ss.map .text))) := by
  cases h with
  | @mk items body hbody hitems =>
    intro gap rest hgap _
    have hlength : items.length ≤ body.length := hbody.length_le
    have hfuel : items.length < (body ++ rest).length + 1 := by
      rw [List.length_append]
      omega
    have hopen (input : Bytes) : drop 1 (0x5B :: input) = .ok ((), input) := rfl
    have htexts : List.Forall₂ (fun v item => Starts item ∧ Reads (value depth) item (.ok v)) (ss.map .text) items :=
      List.forall₂_map_left_iff.mpr (hitems.imp fun s item h => ⟨h.starts, reads_value_text h depth⟩)
    have hread := elements_append htexts [] hbody hfuel rest
    rw [mapM_ok] at hread
    unfold value
    rw [List.cons_append, bind_peek? hgap rfl]
    show (drop 1 >>= fun _ => Value.list <$> fun input => elements (value depth) (input.length + 1) [] input) _ = _
    rw [bind_of_ok (hopen _)]
    exact map_of_ok hread Value.list

theorem hasMember_done {gap : Bytes} (hgap : Blanks gap) (isFirst : Bool) (rest : Bytes) :
    hasMember isFirst (gap ++ 0x7D :: rest) = .ok (false, 0x7D :: rest) := by
  unfold hasMember
  rw [bind_peek? hgap rfl]
  rfl

theorem Joined.hasMember {isFirst : Bool} {tail : Bytes} {items : List Bytes} {body : Bytes}
    (h : Joined 0x7D isFirst ((0x22 :: tail) :: items) body) :
    ∃ body', Joined 0x7D false items body' ∧
      ∀ rest, hasMember isFirst (body ++ rest) = .ok (true, 0x22 :: tail ++ (body' ++ rest)) := by
  cases h with
  | @first gap _ body' _ hgap hbody =>
    refine ⟨body', hbody, fun rest => ?_⟩
    unfold Json.hasMember
    rw [List.append_assoc, List.append_assoc, List.cons_append, bind_peek? hgap rfl]
    rfl
  | @next before after _ body' _ hbefore hafter hbody =>
    refine ⟨body', hbody, fun rest => ?_⟩
    have hdrop (input : Bytes) : drop 1 (0x2C :: input) = .ok ((), input) := rfl
    unfold Json.hasMember
    rw [List.append_assoc, List.cons_append, List.append_assoc, List.append_assoc, bind_peek? hbefore rfl]
    show (drop 1 >>= _) _ = _
    rw [bind_of_ok (hdrop _), List.cons_append, bind_peek? hafter rfl]
    rfl

theorem IsText.exists_quote {s : String} {bytes : Bytes} (h : IsText s bytes) : ∃ tail, bytes = 0x22 :: tail := by
  cases h
  exact ⟨_, rfl⟩

theorem colon_spaced {gap : Bytes} (hgap : Blanks gap) (rest : Bytes) :
    colon (gap ++ 0x3A :: rest) = .ok ((), rest) := by
  unfold colon
  rw [bind_peek? hgap rfl]
  rfl

/-- The members of a record are those of a description. The record is under way as a function of the names that were
read, in whatever order. -/
structure Describes {σ : Type} (depth : Nat) (partway : List String → σ) (m : Member σ) (f : Field) : Prop where
  name : m.name = f.name
  isRequired : m.isRequired = true → ¬ f.MayBeOmitted
  isGiven : ∀ seen, m.isGiven (partway seen) = decide (f.name ∈ seen)
  read : ∀ seen value, f.IsValue value → Reads (m.read depth (partway seen)) value (.ok (partway (f.name :: seen)))

section

variable {σ : Type} {depth : Nat} {partway : List String → σ} {members : List (Member σ)} {fields : List Field}
  (hdescribes : List.Forall₂ (Describes depth partway) members fields)
  (hignores : ∀ name, (∀ f ∈ fields, f.name ≠ name) → ∀ seen, partway (name :: seen) = partway seen)

include hdescribes

theorem find?_member (name : String) :
    (∃ m f, members.find? (·.name == name) = some m ∧ f ∈ fields ∧ f.name = name ∧ Describes depth partway m f) ∨
      members.find? (·.name == name) = none ∧ ∀ f ∈ fields, f.name ≠ name := by
  induction hdescribes with
  | nil => exact .inr ⟨rfl, fun f hf => absurd hf List.not_mem_nil⟩
  | @cons m f members fields hm _ ih =>
    by_cases hname : f.name = name
    · refine .inl ⟨m, f, ?_, List.mem_cons_self, hname, hm⟩
      exact List.find?_cons_of_pos (by simp [hm.name, hname])
    · have hfind : (m :: members).find? (·.name == name) = members.find? (·.name == name) :=
        List.find?_cons_of_neg (by simp [hm.name, hname])
      rw [hfind]
      rcases ih with ⟨m', f', hfound, hf', h⟩ | ⟨hnone, hother⟩
      · exact .inl ⟨m', f', hfound, List.mem_cons_of_mem _ hf', h⟩
      · refine .inr ⟨hnone, fun f' hf' => ?_⟩
        rcases List.mem_cons.mp hf' with rfl | hf'
        · exact hname
        · exact hother f' hf'

theorem anyMissing_eq_false {seen : List String} (hgiven : ∀ f ∈ fields, f.MayBeOmitted ∨ f.name ∈ seen) :
    (members.any fun m => m.isRequired && !m.isGiven (partway seen)) = false := by
  induction hdescribes with
  | nil => rfl
  | @cons m f members fields hm _ ih =>
    have hone : (m.isRequired && !m.isGiven (partway seen)) = false := by
      rcases hgiven f List.mem_cons_self with homitted | hseen
      · rw [Bool.and_eq_false_iff]
        exact .inl (Bool.eq_false_iff.mpr fun h => hm.isRequired h homitted)
      · rw [hm.isGiven, decide_eq_true hseen]
        exact Bool.and_false _
    rw [List.any_cons, hone, Bool.false_or]
    exact ih fun f hf => hgiven f (List.mem_cons_of_mem _ hf)

include hignores

theorem readMember_append {name : String} {m : NamedText} {seen : List String} (hname : IsText name m.name)
    (hspaced : m.IsSpaced) (hknown : ∀ f ∈ fields, f.name = name → f.IsValue m.value)
    (hunknown : (∀ f ∈ fields, f.name ≠ name) → IsValue m.value) (hnew : ∀ f ∈ fields, f.name = name → name ∉ seen)
    {rest : Bytes} (hrest : Follows rest) :
    readMember members depth (partway seen) (m.bytes ++ rest) = .ok (partway (name :: seen), rest) := by
  have hbytes : m.bytes ++ rest = m.name ++ (m.before ++ 0x3A :: (m.after ++ (m.value ++ rest))) := by
    simp [NamedText.bytes]
  have hcolon := colon_spaced hspaced.before (m.after ++ (m.value ++ rest))
  unfold readMember
  rw [hbytes, bind_of_ok (readString_append hname _)]
  rcases find?_member hdescribes name with ⟨member, f, hfound, hf, rfl, hmember⟩ | ⟨hnone, hother⟩
  · have hgiven : member.isGiven (partway seen) = false := by
      rw [hmember.isGiven]
      exact decide_eq_false (hnew f hf rfl)
    rw [hfound]
    dsimp only
    rw [hgiven, if_neg Bool.false_ne_true, bind_of_ok hcolon]
    exact hmember.read seen m.value (hknown f hf rfl) _ rest hspaced.after hrest
  · rw [hnone, hignores name hother]
    dsimp only
    rw [bind_of_ok hcolon, bind_of_ok (reads_skipValue (hunknown hother) _ rest hspaced.after hrest)]
    rfl

theorem objectMembers_append {written : List (String × NamedText)} {isFirst : Bool} {body : Bytes} (seen : List String)
    (hbody : Joined 0x7D isFirst (written.map (·.2.bytes)) body) (hspaced : ∀ w ∈ written, w.2.IsSpaced)
    (hnamed : ∀ w ∈ written, IsText w.1 w.2.name)
    (hknown : ∀ w ∈ written, ∀ f ∈ fields, f.name = w.1 → f.IsValue w.2.value)
    (hunknown : ∀ w ∈ written, (∀ f ∈ fields, f.name ≠ w.1) → IsValue w.2.value)
    (honce : ∀ f ∈ fields, (seen ++ written.map (·.1)).count f.name ≤ 1)
    (hgiven : ∀ f ∈ fields, f.MayBeOmitted ∨ f.name ∈ seen ++ written.map (·.1)) {fuel : Nat}
    (hfuel : written.length < fuel) (rest : Bytes) :
    objectMembers members depth fuel isFirst (partway seen) (body ++ rest) =
      .ok (partway ((written.map (·.1)).reverse ++ seen), rest) := by
  induction written generalizing isFirst body seen fuel with
  | nil =>
    obtain ⟨fuel, rfl⟩ := Nat.exists_eq_add_one_of_ne_zero (Nat.ne_of_gt hfuel)
    have hcomplete := anyMissing_eq_false hdescribes fun f hf => by simpa using hgiven f hf
    cases hbody with
    | done hgap =>
      rw [objectMembers, List.append_assoc, List.singleton_append, bind_of_ok (hasMember_done hgap isFirst rest),
        if_neg Bool.false_ne_true, hcomplete]
      rfl
  | cons w written ih =>
    obtain ⟨fuel, rfl⟩ := Nat.exists_eq_add_one_of_ne_zero (Nat.ne_of_gt (Nat.zero_lt_of_lt hfuel))
    obtain ⟨name, m⟩ := w
    have hname := hnamed _ List.mem_cons_self
    obtain ⟨tail, htail⟩ : ∃ tail, m.bytes = 0x22 :: tail := by
      obtain ⟨tail, htail⟩ := hname.exists_quote
      dsimp only at htail
      exact ⟨_, by rw [NamedText.bytes, htail]; rfl⟩
    rw [List.map_cons] at hbody
    dsimp only at hbody
    rw [htail] at hbody
    obtain ⟨body', hbody', hnext⟩ := hbody.hasMember
    -- A name that was read already would be there twice.
    have hnew : ∀ f ∈ fields, f.name = name → name ∉ seen := by
      rintro f hf rfl hseen
      have hcount := honce f hf
      have hpos := List.count_pos_iff.mpr hseen
      rw [List.count_append, List.map_cons, List.count_cons_self] at hcount
      omega
    have hread := readMember_append hdescribes hignores hname (hspaced _ List.mem_cons_self)
      (hknown _ List.mem_cons_self) (hunknown _ List.mem_cons_self) hnew (hbody'.follows (by decide) rest)
    have hrest := ih (name :: seen) hbody' (fun w hw => hspaced w (List.mem_cons_of_mem _ hw))
      (fun w hw => hnamed w (List.mem_cons_of_mem _ hw)) (fun w hw => hknown w (List.mem_cons_of_mem _ hw))
      (fun w hw => hunknown w (List.mem_cons_of_mem _ hw)) ?_ ?_ (Nat.lt_of_succ_lt_succ hfuel)
    · rw [objectMembers, bind_of_ok (hnext rest), if_pos rfl, ← htail, bind_of_ok hread, hrest]
      simp
    · intro f hf
      have hcount := honce f hf
      rw [List.count_append, List.map_cons, List.count_cons] at hcount
      dsimp only at hcount
      rw [List.cons_append, List.count_cons, List.count_append]
      omega
    · intro f hf
      have hmem := hgiven f hf
      simp only [List.map_cons, List.mem_append, List.mem_cons, List.cons_append] at hmem ⊢
      tauto

theorem reads_record {bytes : Bytes} (h : IsRecord fields bytes) :
    ∃ seen, (∀ f ∈ fields, f.MayBeOmitted ∨ f.name ∈ seen) ∧
      Reads (record members (partway []) (depth + 1)) bytes (.ok (partway seen)) := by
  cases h with
  | @mk written body hbody hspaced hnamed hknown hunknown honce hgiven =>
    refine ⟨(written.map (·.1)).reverse, by simpa using hgiven, fun gap rest hgap _ => ?_⟩
    have hlength : written.length ≤ body.length := by
      have hle := hbody.length_le
      rw [List.length_map] at hle
      exact hle
    have hfuel : written.length < (body ++ rest).length + 1 := by
      rw [List.length_append]
      omega
    have hobject := objectMembers_append hdescribes hignores [] hbody hspaced hnamed hknown hunknown honce
      hgiven hfuel rest
    have hopen (input : Bytes) : openContainer (depth + 1) (0x7B :: input) = .ok (depth, input) := rfl
    unfold record
    rw [List.cons_append, bind_peek? hgap rfl, if_pos (beq_self_eq_true _), bind_of_ok (hopen _)]
    rw [List.append_nil] at hobject
    exact hobject

end

end Triage.Json
