import Mathlib.Data.List.Induction
import Mathlib.Data.List.Pairwise
import Triage.Status

/-! Notifications over time. What is shown at a time is told by the operations alone: for each severity the
notification that was raised last counts, until its time is over or it was removed. The clock may run in any order. -/

namespace Triage

theorem Severity.rank_injective {s s' : Severity} (h : s.rank = s'.rank) : s = s' := by
  cases s <;> cases s' <;> simp_all [rank]

namespace Status

def Ordered (ns : List Notification) : Prop := ns.Pairwise fun m n => n.severity.rank < m.severity.rank

theorem mem_insert {n x : Notification} {ns : List Notification} : x ∈ insert n ns ↔ x = n ∨ x ∈ ns := by
  induction ns with
  | nil => simp [insert]
  | cons m rest ih =>
    unfold insert
    split
    · exact List.mem_cons
    · rw [List.mem_cons, ih, List.mem_cons]
      exact or_left_comm

theorem Ordered.insert {n : Notification} {ns : List Notification} (h : Ordered ns)
    (hnew : ∀ m ∈ ns, m.severity ≠ n.severity) : Ordered (insert n ns) := by
  induction ns with
  | nil => exact List.pairwise_singleton _ _
  | cons m rest ih =>
    obtain ⟨hm, hrest⟩ := List.pairwise_cons.mp h
    obtain ⟨hne, hnew⟩ := List.forall_mem_cons.mp hnew
    unfold Status.insert
    split
    · next hlt =>
      refine List.pairwise_cons.mpr ⟨fun x hx => ?_, h⟩
      rcases List.mem_cons.mp hx with rfl | hx
      · exact hlt
      · exact Nat.lt_trans (hm x hx) hlt
    · next hge =>
      have hlt : n.severity.rank < m.severity.rank :=
        Nat.lt_of_le_of_ne (Nat.le_of_not_lt hge) fun heq => hne (Severity.rank_injective heq.symm)
      refine List.pairwise_cons.mpr ⟨fun x hx => ?_, ih hrest hnew⟩
      rcases mem_insert.mp hx with rfl | hx
      · exact hlt
      · exact hm x hx

theorem Ordered.find?_eq_some_iff {ns : List Notification} (h : Ordered ns) {p : Notification → Bool}
    {n : Notification} :
    ns.find? p = some n ↔ (n ∈ ns ∧ p n) ∧ ∀ m ∈ ns, p m → m.severity.rank ≤ n.severity.rank := by
  rw [List.find?_eq_some_iff_append]
  constructor
  · rintro ⟨hp, before, after, rfl, hbefore⟩
    obtain ⟨-, hafter, -⟩ := List.pairwise_append.mp h
    refine ⟨⟨by simp, hp⟩, fun m hm hpm => ?_⟩
    rcases List.mem_append.mp hm with hm | hm
    · have hnot : ¬ p m := by simpa using hbefore m hm
      exact absurd hpm hnot
    · rcases List.mem_cons.mp hm with rfl | hm
      · exact Nat.le_refl _
      · exact Nat.le_of_lt (List.rel_of_pairwise_cons hafter hm)
  · rintro ⟨⟨hmem, hp⟩, hmax⟩
    obtain ⟨before, after, rfl⟩ := List.append_of_mem hmem
    obtain ⟨-, -, hbefore⟩ := List.pairwise_append.mp h
    refine ⟨hp, before, after, rfl, fun m hm => ?_⟩
    have hlt : n.severity.rank < m.severity.rank := hbefore m hm n List.mem_cons_self
    by_contra hpm
    exact absurd (hmax m (List.mem_append_left _ hm) (by simpa using hpm)) (Nat.not_le.mpr hlt)

inductive Operation where
  | set (text : String)
  | clear
  | notify (severity : Severity) (message : String) (now : Instant)
  | expire (now : Instant)
  deriving DecidableEq

namespace Operation

def text? : Operation → Option String
  | .set text => some text
  | .clear => some ""
  | _ => none

def raised? (second : Nat) : Operation → Option Notification
  | .notify severity message now => some ⟨message, severity, now, now + second * severity.lifetime⟩
  | _ => none

/-- What ends a notification early: another one of its severity, and expiring at its end or past it. -/
def Removes (n : Notification) : Operation → Prop
  | .notify severity _ _ => severity = n.severity
  | .expire now => n.expiresAt ≤ now
  | _ => False

end Operation

def perform (second : Nat) (s : Status) : Operation → Status
  | .set text => s.set text
  | .clear => s.clear
  | .notify severity message now => s.notifyAt severity message now second
  | .expire now => s.expire now

def run (second : Nat) (ops : List Operation) : Status := ops.foldl (perform second) {}

def lastText (ops : List Operation) : String := (ops.filterMap Operation.text?).getLast?.getD ""

/-- The notification was raised, and nothing removed it since. -/
def Pending (second : Nat) (ops : List Operation) (n : Notification) : Prop :=
  ∃ earlier op later, ops = earlier ++ op :: later ∧ op.raised? second = some n ∧ ∀ other ∈ later, ¬ other.Removes n

def Visible (second : Nat) (ops : List Operation) (now : Instant) (n : Notification) : Prop :=
  Pending second ops n ∧ now < n.expiresAt

variable {second : Nat} {ops : List Operation} {n : Notification} {now : Instant}

theorem run_concat (ops : List Operation) (op : Operation) :
    run second (ops ++ [op]) = (run second ops).perform second op :=
  List.foldl_append ..

theorem text_run (ops : List Operation) : (run second ops).text = lastText ops := by
  induction ops using List.reverseRecOn with
  | nil => rfl
  | append_singleton ops op ih =>
    rw [run_concat, lastText, List.filterMap_append]
    cases op with
    | set | clear => simp [perform, set, clear, Operation.text?]
    | notify | expire =>
      change (run second ops).text = _
      simp [Operation.text?, ih, lastText]

theorem mem_perform (s : Status) (op : Operation) :
    n ∈ (s.perform second op).notifications ↔ op.raised? second = some n ∨ n ∈ s.notifications ∧ ¬ op.Removes n := by
  cases op with
  | set | clear => simp [perform, set, clear, Operation.raised?, Operation.Removes]
  | notify severity message now =>
    simp only [perform, notifyAt, mem_insert, List.mem_filter, bne_iff_ne, Operation.raised?, Operation.Removes,
      Option.some.injEq]
    rw [eq_comm, ne_comm]
  | expire now => simp [perform, expire, Operation.raised?, Operation.Removes]

theorem pending_concat (ops : List Operation) (op : Operation) :
    Pending second (ops ++ [op]) n ↔ op.raised? second = some n ∨ Pending second ops n ∧ ¬ op.Removes n := by
  constructor
  · rintro ⟨earlier, raising, later, hsplit, hraised, hlater⟩
    cases later using List.reverseRecOn with
    | nil =>
      obtain ⟨-, hop⟩ := List.append_inj' hsplit rfl
      exact .inl ((List.cons.inj hop).1 ▸ hraised)
    | append_singleton later last =>
      rw [← List.cons_append, ← List.append_assoc] at hsplit
      obtain ⟨hops, hop⟩ := List.append_inj' hsplit rfl
      obtain rfl := (List.cons.inj hop).1
      exact .inr ⟨⟨earlier, raising, later, hops, hraised, fun other hother => hlater other (by simp [hother])⟩,
        hlater op (by simp)⟩
  · rintro (hraised | ⟨⟨earlier, raising, later, rfl, hraised, hlater⟩, hkept⟩)
    · exact ⟨ops, op, [], rfl, hraised, nofun⟩
    · refine ⟨earlier, raising, later ++ [op], by simp, hraised, fun other hother => ?_⟩
      rcases List.mem_append.mp hother with hother | hother
      · exact hlater other hother
      · exact List.mem_singleton.mp hother ▸ hkept

theorem mem_run : n ∈ (run second ops).notifications ↔ Pending second ops n := by
  induction ops using List.reverseRecOn with
  | nil => simp [run, Pending]
  | append_singleton ops op ih => rw [run_concat, mem_perform, pending_concat, ih]

theorem ordered_run (ops : List Operation) : Ordered (run second ops).notifications := by
  induction ops using List.reverseRecOn with
  | nil => exact .nil
  | append_singleton ops op ih =>
    rw [run_concat]
    cases op with
    | set | clear => exact ih
    | notify severity message now =>
      have hothers : ∀ m ∈ (run second ops).notifications.filter (·.severity != severity), m.severity ≠ severity :=
        fun m hm => by simpa using (List.mem_filter.mp hm).2
      exact Ordered.insert (List.Pairwise.filter _ ih) hothers
    | expire now => exact List.Pairwise.filter _ ih

theorem notificationAt?_eq_some_iff :
    (run second ops).notificationAt? now = some n ↔
      Visible second ops now n ∧ ∀ m, Visible second ops now m → m.severity.rank ≤ n.severity.rank := by
  unfold notificationAt? Visible
  rw [(ordered_run ops).find?_eq_some_iff]
  simp only [mem_run, decide_eq_true_eq, and_imp]

theorem notificationAt?_eq_none_iff :
    (run second ops).notificationAt? now = none ↔ ∀ n, ¬ Visible second ops now n := by
  unfold notificationAt? Visible
  rw [List.find?_eq_none]
  simp only [mem_run, decide_eq_true_eq, not_and]

theorem pending_append_cons (earlier later : List Operation) {op : Operation} (hraises : op.raised? second = none)
    (hkeeps : ¬ op.Removes n) : Pending second (earlier ++ op :: later) n ↔ Pending second (earlier ++ later) n := by
  induction later using List.reverseRecOn with
  | nil => simp [pending_concat, hraises, hkeeps]
  | append_singleton later last ih =>
    rw [← List.cons_append, ← List.append_assoc, ← List.append_assoc, pending_concat, pending_concat, ih]

theorem visible_expire (earlier later : List Operation) {past : Instant} (hpast : past ≤ now) :
    Visible second (earlier ++ .expire past :: later) now n ↔ Visible second (earlier ++ later) now n := by
  unfold Visible
  refine and_congr_left fun hvisible => pending_append_cons earlier later rfl ?_
  exact Int.not_le.mpr (Int.lt_of_le_of_lt hpast hvisible)

theorem notificationAt?_congr {ops' : List Operation} (h : ∀ n, Visible second ops now n ↔ Visible second ops' now n) :
    (run second ops).notificationAt? now = (run second ops').notificationAt? now := by
  ext n
  simp only [notificationAt?_eq_some_iff, h]

theorem currentAt_run (ops : List Operation) (now : Instant) :
    (run second ops).currentAt now = (((run second ops).notificationAt? now).map (·.message)).getD (lastText ops) := by
  rw [← text_run, currentAt]
  cases (run second ops).notificationAt? now <;> rfl

/-- Notifications are kept from the most severe one down, one of a severity at most, and a severity has the one that
was raised last unless it was removed. The most severe one whose time is not over is shown, else the text that was set
last. Expiring is not seen at any later time, whatever is done after it. -/
theorem run_notificationAt?_mostSevere (second : Nat) (ops : List Operation) :
    (run second ops).notifications.Pairwise (fun m n => n.severity.rank < m.severity.rank) ∧
      (∀ n, n ∈ (run second ops).notifications ↔ Pending second ops n) ∧
      (∀ now n, (run second ops).notificationAt? now = some n ↔
        Visible second ops now n ∧ ∀ m, Visible second ops now m → m.severity.rank ≤ n.severity.rank) ∧
      (∀ now, (run second ops).notificationAt? now = none ↔ ∀ n, ¬ Visible second ops now n) ∧
      (∀ later past now, past ≤ now →
        (run second (ops ++ .expire past :: later)).notificationAt? now =
            (run second (ops ++ later)).notificationAt? now ∧
          (run second (ops ++ .expire past :: later)).currentAt now = (run second (ops ++ later)).currentAt now) ∧
      ∀ now, (run second ops).currentAt now =
        (((run second ops).notificationAt? now).map (·.message)).getD (lastText ops) := by
  refine ⟨ordered_run ops, fun n => mem_run, fun now n => notificationAt?_eq_some_iff,
    fun now => notificationAt?_eq_none_iff, fun later past now hpast => ?_, currentAt_run ops⟩
  have hshown : (run second (ops ++ .expire past :: later)).notificationAt? now =
      (run second (ops ++ later)).notificationAt? now :=
    notificationAt?_congr fun n => visible_expire ops later hpast
  have htext : lastText (ops ++ .expire past :: later) = lastText (ops ++ later) := by
    simp [lastText, Operation.text?]
  exact ⟨hshown, by rw [currentAt_run, currentAt_run, hshown, htext]⟩

theorem run_notificationAt?_mostSevere_steppingBack :
    let ops : List Operation := [.set "idle", .notify .info "saved" 9000, .notify .error "failed" 1000]
    let saved : Notification := ⟨"saved", .info, 9000, 14000⟩
    Visible 1000 ops 13500 saved ∧ (run 1000 ops).notificationAt? 13500 = some saved ∧ (13000 : Instant) ≤ 13500 ∧
      (run 1000 (ops ++ [.expire 13000, .set "done"])).notificationAt? 13500 =
        (run 1000 (ops ++ [.set "done"])).notificationAt? 13500 ∧
      (run 1000 (ops ++ [.expire 13000, .set "done"])).currentAt 14000 = "done" := by
  intro ops saved
  have hpast : (13000 : Instant) ≤ 13500 := by decide
  have hshown : (run 1000 ops).notificationAt? 13500 = some saved := by decide
  obtain ⟨-, -, hsome, -, hexpire, -⟩ := run_notificationAt?_mostSevere 1000 ops
  obtain ⟨-, -, -, -, -, hcurrent⟩ := run_notificationAt?_mostSevere 1000 (ops ++ [.expire 13000, .set "done"])
  exact ⟨((hsome 13500 saved).mp hshown).1, hshown, hpast, (hexpire [.set "done"] 13000 13500 hpast).1, hcurrent 14000⟩

end Status
end Triage
