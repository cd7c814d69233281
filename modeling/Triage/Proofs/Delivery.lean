import Mathlib.Data.List.Induction
import Mathlib.Data.List.Perm.Basic
import Triage.Program.Executor

/-! Every request is answered once. However the steps of the tasks are mixed, a task cannot skip a phase: it holds a
slot while its program runs, and it sends its result after the program has stopped and before it ends. -/

namespace Triage.Executor

def ofLimit : Option Nat → Executor
  | none => {}
  | some n => withLimit n

def Action.request? : Action → Option SpawnRequest
  | .execute request => some request
  | _ => none

def sends (e : Executor) : Action → List (Nat × SpawnResult)
  | .send i => (e.outgoing i).map (i, ·)
  | _ => []

def deliveries (e : Executor) : List Action → List (Nat × SpawnResult)
  | [] => []
  | a :: rest => e.sends a ++ (e.step a).deliveries rest

def sentBy (e : Executor) (i : Nat) (actions : List Action) : List SpawnResult :=
  ((e.deliveries actions).filter (·.1 = i)).map (·.2)

inductive Stops (e : Executor) (i : Nat) : Action → SpawnResult → Prop
  | failed {t : Task} {problem? : Option String} {problem : String} :
    e.tasks[i]? = some t → t.phase = .admitted → t.request.argv = [] ∨ problem? = some problem →
      Stops e i (.start i problem?) (t.request.failure problem)
  | ended {t : Task} (remains : Remains) :
    e.tasks[i]? = some t → t.phase = .running → Stops e i (.finish i remains) (t.request.result remains)

variable {e : Executor} {i : Nat} {t : Task}

theorem run_append (e : Executor) (before after : List Action) : e.run (before ++ after) = (e.run before).run after :=
  List.foldl_append

theorem step_acquire (e : Executor) (i : Nat) :
    e.step (.acquire i) = if e.hasFreeSlot then e.change i Task.acquire else e := rfl

theorem limit_step (e : Executor) (a : Action) : (e.step a).limit = e.limit := by
  cases a with
  | acquire i =>
    rw [step_acquire]
    split <;> rfl
  | execute | start | finish | send | leave => rfl

theorem result?_eq_some {r : SpawnResult} : t.result? = some r ↔ t.phase = .stopped r := by
  unfold Task.result?
  cases t.phase <;> simp

theorem limit_run (e : Executor) (actions : List Action) : (e.run actions).limit = e.limit := by
  induction actions generalizing e with
  | nil => rfl
  | cons a rest ih => exact (ih (e.step a)).trans (limit_step e a)

theorem countP_modify_le {p : Task → Bool} {f : Task → Task} (h : ∀ t, p (f t) = true → p t = true) (ts : List Task)
    (i : Nat) : (ts.modify i f).countP p ≤ ts.countP p := by
  induction ts generalizing i with
  | nil => simp
  | cons t ts ih =>
    cases i with
    | zero =>
      have hhead := h t
      cases hf : p (f t) <;> cases ht : p t <;> simp_all
    | succ i =>
      have htail := ih i
      simp only [List.modify_succ_cons, List.countP_cons]
      omega

theorem countP_modify_le_succ (p : Task → Bool) (f : Task → Task) (ts : List Task) (i : Nat) :
    (ts.modify i f).countP p ≤ ts.countP p + 1 := by
  induction ts generalizing i with
  | nil => simp
  | cons t ts ih =>
    cases i with
    | zero =>
      simp only [List.modify_zero_cons, List.countP_cons]
      split <;> split <;> omega
    | succ i =>
      have htail := ih i
      simp only [List.modify_succ_cons, List.countP_cons]
      omega

theorem slotsTaken_change_le {f : Task → Task} (h : ∀ t, (f t).holdsSlot = true → t.holdsSlot = true) (i : Nat) :
    (e.change i f).slotsTaken ≤ e.slotsTaken := countP_modify_le h e.tasks i

theorem holdsSlot_of_phase {p : Phase} (h : t.phase = p) (hp : p.holdsSlot = true) : t.holdsSlot = true := by
  unfold Task.holdsSlot
  rw [h, hp]

theorem slotsTaken_step {n : Nat} (hlimit : e.limit = some n) (htaken : e.slotsTaken ≤ n) (a : Action) :
    (e.step a).slotsTaken ≤ n := by
  cases a with
  | execute request =>
    have hnew : (e.step (.execute request)).slotsTaken = e.slotsTaken := List.countP_append
    rw [hnew]
    exact htaken
  | acquire i =>
    rw [step_acquire]
    split
    · next hfree =>
      have hbelow : e.slotsTaken < n := by
        rw [hasFreeSlot, hlimit] at hfree
        exact of_decide_eq_true hfree
      exact Nat.le_trans (countP_modify_le_succ _ _ e.tasks i) hbelow
    · exact htaken
  -- None of the others takes a slot: whatever task holds one afterwards held it before.
  | start i problem =>
    refine Nat.le_trans (slotsTaken_change_le (fun t => ?_) i) htaken
    unfold Task.start
    split
    · next hphase => exact fun _ => holdsSlot_of_phase hphase rfl
    · exact id
  | finish i remains =>
    refine Nat.le_trans (slotsTaken_change_le (fun t => ?_) i) htaken
    unfold Task.finish
    split
    · next hphase => exact fun _ => holdsSlot_of_phase hphase.1 rfl
    · exact id
  | send i =>
    refine Nat.le_trans (slotsTaken_change_le (f := Task.markSent) (fun t => ?_) i) htaken
    unfold Task.markSent
    split
    · next hresult =>
      obtain ⟨r, hr⟩ := Option.isSome_iff_exists.mp hresult
      exact fun _ => holdsSlot_of_phase (result?_eq_some.mp hr) rfl
    · exact id
  | leave i =>
    refine Nat.le_trans (slotsTaken_change_le (fun t => ?_) i) htaken
    unfold Task.leave
    split
    · exact fun h => absurd h Bool.false_ne_true
    · exact id

theorem slotsTaken_run {n : Nat} (hlimit : e.limit = some n) (htaken : e.slotsTaken ≤ n) (actions : List Action) :
    (e.run actions).slotsTaken ≤ n := by
  induction actions generalizing e with
  | nil => exact htaken
  | cons a rest ih => exact ih ((limit_step e a).trans hlimit) (slotsTaken_step hlimit htaken a)

theorem running_le_slotsTaken (e : Executor) : e.running ≤ e.slotsTaken := by
  refine List.countP_mono_left fun t _ hrunning => ?_
  have hphase : t.phase = .running := beq_iff_eq.mp hrunning
  exact holdsSlot_of_phase hphase rfl

inductive Moves (e : Executor) (i : Nat) (t : Task) : Action → Task → Prop
  | rests {a : Action} : a ≠ .send i ∨ t.result? = none → Moves e i t a t
  | acquires : t.phase = .waiting → e.hasFreeSlot = true → Moves e i t (.acquire i) { t with phase := .admitted }
  | starts : t.phase = .admitted → Moves e i t (.start i none) { t with phase := .running }
  | stops {a : Action} {r : SpawnResult} :
    t.phase = .admitted ∨ t.phase = .running → Stops e i a r → Moves e i t a { t with phase := .stopped r }
  | sends {r : SpawnResult} : t.phase = .stopped r → Moves e i t (.send i) { t with phase := .sent }
  | leaves : t.phase = .sent → Moves e i t (.leave i) { t with phase := .ended }

theorem getElem?_change (e : Executor) (i j : Nat) (f : Task → Task) :
    (e.change j f).tasks[i]? = if j = i then e.tasks[i]?.map f else e.tasks[i]? := by
  have hmodify : (e.change j f).tasks[i]? = _ := List.getElem?_modify f j e.tasks i
  rw [hmodify]
  split <;> simp

theorem Task.acquire_moves (hfree : e.hasFreeSlot = true) : Moves e i t (.acquire i) t.acquire := by
  unfold acquire
  split
  · next hphase => exact .acquires hphase hfree
  · exact .rests (.inl nofun)

theorem Task.start_moves (h : e.tasks[i]? = some t) (problem? : Option String) :
    Moves e i t (.start i problem?) (t.start problem?) := by
  unfold start
  split
  · next hphase =>
    split
    · next hargv => exact .stops (.inl hphase) (.failed h hphase (.inl hargv))
    · exact .stops (.inl hphase) (.failed h hphase (.inr rfl))
    · exact .starts hphase
  · exact .rests (.inl nofun)

theorem Task.finish_moves (h : e.tasks[i]? = some t) (remains : Remains) :
    Moves e i t (.finish i remains) (t.finish remains) := by
  unfold finish
  split
  · next hphase => exact .stops (.inr hphase.1) (.ended remains h hphase.1)
  · exact .rests (.inl nofun)

theorem Task.markSent_moves (e : Executor) (i : Nat) (t : Task) : Moves e i t (.send i) t.markSent := by
  unfold markSent
  split
  · next hresult =>
    obtain ⟨r, hr⟩ := Option.isSome_iff_exists.mp hresult
    exact .sends (result?_eq_some.mp hr)
  · next hresult => exact .rests (.inr (Option.not_isSome_iff_eq_none.mp hresult))

theorem Task.leave_moves (e : Executor) (i : Nat) (t : Task) : Moves e i t (.leave i) t.leave := by
  unfold leave
  split
  · next hphase => exact .leaves hphase
  · exact .rests (.inl nofun)

theorem moves_change {j : Nat} {f : Task → Task} {a : Action} (h : e.tasks[i]? = some t)
    (hself : j = i → Moves e i t a (f t)) (hother : j ≠ i → a ≠ .send i) :
    ∃ t', (e.change j f).tasks[i]? = some t' ∧ Moves e i t a t' := by
  rw [getElem?_change, h]
  by_cases hj : j = i
  · exact ⟨f t, by rw [if_pos hj, Option.map_some], hself hj⟩
  · exact ⟨t, if_neg hj, .rests (.inl (hother hj))⟩

theorem moves_step (h : e.tasks[i]? = some t) (a : Action) :
    ∃ t', (e.step a).tasks[i]? = some t' ∧ Moves e i t a t' := by
  cases a with
  | execute request =>
    refine ⟨t, ?_, .rests (.inl nofun)⟩
    have hlt := (List.getElem?_eq_some_iff.mp h).1
    exact (List.getElem?_append_left hlt).trans h
  | acquire j =>
    rw [step_acquire]
    split
    · next hfree => exact moves_change h (fun hj => hj ▸ Task.acquire_moves hfree) fun _ => nofun
    · exact ⟨t, h, .rests (.inl nofun)⟩
  | start j problem? => exact moves_change h (fun hj => hj ▸ Task.start_moves h problem?) fun _ => nofun
  | finish j remains => exact moves_change h (fun hj => hj ▸ Task.finish_moves h remains) fun _ => nofun
  | send j => exact moves_change h (fun hj => hj ▸ Task.markSent_moves e i t) fun hj heq => hj (Action.send.inj heq)
  | leave j => exact moves_change h (fun hj => hj ▸ Task.leave_moves e i t) fun _ => nofun

theorem requests_change {f : Task → Task} (h : ∀ t, (f t).request = t.request) (i : Nat) :
    (e.change i f).requests = e.requests := by
  refine List.ext_getElem? fun j => ?_
  have hj := getElem?_change e j i f
  simp only [requests, List.getElem?_map, hj]
  split
  · rw [Option.map_map]
    exact congrFun (congrArg Option.map (funext h)) _
  · rfl

theorem Task.acquire_request (t : Task) : t.acquire.request = t.request := by
  unfold acquire
  split <;> rfl

theorem Task.start_request (problem? : Option String) (t : Task) : (t.start problem?).request = t.request := by
  unfold start
  split
  · split <;> rfl
  · rfl

theorem Task.finish_request (remains : Remains) (t : Task) : (t.finish remains).request = t.request := by
  unfold finish
  split <;> rfl

theorem Task.markSent_request (t : Task) : t.markSent.request = t.request := by
  unfold markSent
  split <;> rfl

theorem Task.leave_request (t : Task) : t.leave.request = t.request := by
  unfold leave
  split <;> rfl

theorem requests_step (e : Executor) (a : Action) : (e.step a).requests = e.requests ++ a.request?.toList := by
  cases a with
  | execute request => exact List.map_append
  | acquire i =>
    rw [step_acquire]
    split
    · exact (requests_change Task.acquire_request i).trans (List.append_nil _).symm
    · exact (List.append_nil _).symm
  | start i problem? => exact (requests_change (Task.start_request problem?) i).trans (List.append_nil _).symm
  | finish i remains => exact (requests_change (Task.finish_request remains) i).trans (List.append_nil _).symm
  | send i => exact (requests_change Task.markSent_request i).trans (List.append_nil _).symm
  | leave i => exact (requests_change Task.leave_request i).trans (List.append_nil _).symm

theorem requests_run (e : Executor) (actions : List Action) :
    (e.run actions).requests = e.requests ++ actions.filterMap Action.request? := by
  induction actions generalizing e with
  | nil => exact (List.append_nil _).symm
  | cons a rest ih =>
    have hrest : (e.run (a :: rest)).requests = _ := ih (e.step a)
    rw [hrest, requests_step, List.append_assoc]
    cases ha : a.request? <;> simp [ha]

theorem deliveries_append (e : Executor) (before after : List Action) :
    e.deliveries (before ++ after) = e.deliveries before ++ (e.run before).deliveries after := by
  induction before generalizing e with
  | nil => rfl
  | cons a rest ih =>
    rw [List.cons_append, deliveries, deliveries, ih, List.append_assoc]
    rfl

theorem results_run (e : Executor) (actions : List Action) :
    (e.run actions).results = e.results ++ (e.deliveries actions).map (·.2) := by
  have hstep (e : Executor) (a : Action) : (e.step a).results = e.results ++ (e.sends a).map (·.2) := by
    cases a with
    | acquire i =>
      rw [step_acquire]
      split <;> exact (List.append_nil _).symm
    | send i =>
      rw [sends, List.map_map]
      exact congrArg (e.results ++ ·) (List.map_id _).symm
    | execute | start | finish | leave => exact (List.append_nil _).symm
  induction actions generalizing e with
  | nil => exact (List.append_nil _).symm
  | cons a rest ih =>
    have hrest : (e.run (a :: rest)).results = _ := ih (e.step a)
    rw [hrest, hstep, deliveries, List.map_append, List.append_assoc]

theorem sentBy_append (e : Executor) (i : Nat) (past : List Action) (a : Action) :
    e.sentBy i (past ++ [a]) = e.sentBy i past ++ if a = .send i then (e.run past).outgoing i else [] := by
  have hlast : (((e.run past).sends a).filter (·.1 = i)).map (·.2) =
      if a = .send i then (e.run past).outgoing i else [] := by
    cases a with
    | send j =>
      by_cases hj : j = i
      · subst hj
        rw [if_pos rfl, sends, outgoing]
        cases (e.run past).tasks[j]?.bind Task.result? <;> simp
      · rw [if_neg fun h => hj (Action.send.inj h)]
        simp [sends, hj]
    | execute | acquire | start | finish | leave => rw [if_neg nofun]; rfl
  unfold sentBy
  rw [deliveries_append, List.filter_append, List.map_append, ← hlast]
  simp [deliveries]

/-- Some past action stopped the program of a task with a result, and until then the task had sent nothing. -/
def StoppedWith (e : Executor) (past : List Action) (i : Nat) (r : SpawnResult) : Prop :=
  ∃ before a after, past = before ++ a :: after ∧ (e.run before).Stops i a r ∧ e.sentBy i (before ++ [a]) = []

theorem StoppedWith.append {past : List Action} {r : SpawnResult} (h : e.StoppedWith past i r) (more : List Action) :
    e.StoppedWith (past ++ more) i r := by
  obtain ⟨before, a, after, rfl, hstops, hnone⟩ := h
  exact ⟨before, a, after ++ more, by simp, hstops, hnone⟩

theorem Stops.ne_send {a : Action} {r : SpawnResult} (h : e.Stops i a r) (j : Nat) : a ≠ .send j := by
  cases h <;> exact nofun

/-- What a task has sent by now, as far as it has come. -/
def Accounts (e : Executor) (past : List Action) (i : Nat) (t : Task) : Prop :=
  match t.phase with
  | .waiting | .admitted | .running => e.sentBy i past = []
  | .stopped r => e.sentBy i past = [] ∧ e.StoppedWith past i r
  | .sent | .ended => ∃ r, e.sentBy i past = [r] ∧ e.StoppedWith past i r

theorem Accounts.step {past : List Action} {a : Action} {t' : Task} (h : e.Accounts past i t)
    (ht : (e.run past).tasks[i]? = some t) (hmoves : (e.run past).Moves i t a t') : e.Accounts (past ++ [a]) i t' := by
  have hsame (ha : a ≠ .send i) : e.sentBy i (past ++ [a]) = e.sentBy i past := by
    rw [sentBy_append, if_neg ha, List.append_nil]
  cases hmoves with
  | rests hquiet =>
    have hsame : e.sentBy i (past ++ [a]) = e.sentBy i past := by
      rcases hquiet with ha | hnone
      · exact hsame ha
      · have hout : (e.run past).outgoing i = [] := by simp [outgoing, ht, hnone]
        rw [sentBy_append, hout, ite_self, List.append_nil]
    unfold Accounts at h ⊢
    rw [hsame]
    cases hphase : t.phase with
    | waiting | admitted | running =>
      rw [hphase] at h
      exact h
    | stopped r =>
      rw [hphase] at h
      exact ⟨h.1, h.2.append [a]⟩
    | sent | ended =>
      rw [hphase] at h
      obtain ⟨r, hr, hstopped⟩ := h
      exact ⟨r, hr, hstopped.append [a]⟩
  | acquires hphase | starts hphase =>
    unfold Accounts at h
    rw [hphase] at h
    exact (hsame nofun).trans h
  | @stops _ r hphase hstops =>
    have hnone : e.sentBy i (past ++ [a]) = [] := by
      unfold Accounts at h
      rcases hphase with hphase | hphase <;> rw [hphase] at h <;> exact (hsame (hstops.ne_send i)).trans h
    exact ⟨hnone, past, a, [], rfl, hstops, hnone⟩
  | @sends r hphase =>
    unfold Accounts at h
    rw [hphase] at h
    have hout : (e.run past).outgoing i = [r] := by simp [outgoing, ht, result?_eq_some.mpr hphase]
    refine ⟨r, ?_, h.2.append _⟩
    rw [sentBy_append, if_pos rfl, hout, h.1, List.nil_append]
  | leaves hphase =>
    unfold Accounts at h
    rw [hphase] at h
    obtain ⟨r, hr, hstopped⟩ := h
    exact ⟨r, (hsame nofun).trans hr, hstopped.append _⟩

theorem getElem?_step {a : Action} {t' : Task} (h : (e.step a).tasks[i]? = some t') :
    (∃ t, e.tasks[i]? = some t ∧ e.Moves i t a t') ∨ e.tasks[i]? = none ∧ t'.phase = .waiting := by
  cases ht : e.tasks[i]? with
  | some t =>
    obtain ⟨t'', hstep, hmoves⟩ := moves_step ht a
    obtain rfl := Option.some.inj (hstep.symm.trans h)
    exact .inl ⟨t, rfl, hmoves⟩
  | none =>
    have hchange (j : Nat) (f : Task → Task) : (e.change j f).tasks[i]? = none := by
      rw [getElem?_change, ht]
      split <;> rfl
    refine .inr ⟨rfl, ?_⟩
    cases a with
    | execute request =>
      have hlast : i = e.tasks.length := by
        have hlt := (List.getElem?_eq_some_iff.mp h).1
        have hge := List.getElem?_eq_none_iff.mp ht
        simp only [step, List.length_append, List.length_singleton] at hlt
        omega
      subst hlast
      have hnew : (e.step (.execute request)).tasks[e.tasks.length]? = some { request } := List.getElem?_concat_length
      obtain rfl := Option.some.inj (hnew.symm.trans h)
      rfl
    | acquire j =>
      rw [step_acquire] at h
      split at h
      · cases (hchange j Task.acquire).symm.trans h
      · cases ht.symm.trans h
    | start j problem? => cases (hchange j (Task.start problem?)).symm.trans h
    | finish j remains => cases (hchange j (Task.finish remains)).symm.trans h
    | send j => cases (hchange j Task.markSent).symm.trans h
    | leave j => cases (hchange j Task.leave).symm.trans h

theorem sentBy_eq_nil (actions : List Action) (h : (e.run actions).tasks[i]? = none) :
    e.sentBy i actions = [] := by
  induction actions using List.reverseRecOn with
  | nil => rfl
  | append_singleton past a ih =>
    rw [run_append] at h
    have hpast : (e.run past).tasks[i]? = none := by
      cases ht : (e.run past).tasks[i]? with
      | none => rfl
      | some t =>
        obtain ⟨t', hstep, -⟩ := moves_step ht a
        cases hstep.symm.trans h
    have hout : (e.run past).outgoing i = [] := by simp [outgoing, hpast]
    rw [sentBy_append, ih hpast, hout, ite_self, List.append_nil]

theorem accounts_run (hnew : e.tasks = []) (actions : List Action) (h : (e.run actions).tasks[i]? = some t) :
    e.Accounts actions i t := by
  -- From the end of the run, since the last action finds the task in a phase that tells what it sent until then.
  induction actions using List.reverseRecOn generalizing t with
  | nil =>
    have hnone : e.tasks[i]? = some t := h
    rw [hnew] at hnone
    cases hnone
  | append_singleton past a ih =>
    rw [run_append] at h
    rcases getElem?_step h with ⟨t₀, ht₀, hmoves⟩ | ⟨hnone, hwaiting⟩
    · exact (ih ht₀).step ht₀ hmoves
    · have hout : (e.run past).outgoing i = [] := by simp [outgoing, hnone]
      unfold Accounts
      rw [hwaiting, sentBy_append, sentBy_eq_nil past hnone, hout, ite_self, List.append_nil]

theorem sentBy_cases (hnew : e.tasks = []) (i : Nat) (actions : List Action) :
    e.sentBy i actions = [] ∨ ∃ r, e.sentBy i actions = [r] ∧ e.StoppedWith actions i r := by
  cases ht : (e.run actions).tasks[i]? with
  | none => exact .inl (sentBy_eq_nil actions ht)
  | some t =>
    have haccounts := accounts_run hnew actions ht
    unfold Accounts at haccounts
    cases hphase : t.phase with
    | waiting | admitted | running =>
      rw [hphase] at haccounts
      exact .inl haccounts
    | stopped r =>
      rw [hphase] at haccounts
      exact .inl haccounts.1
    | sent | ended =>
      rw [hphase] at haccounts
      exact .inr haccounts

theorem length_sentBy_of_ended (hnew : e.tasks = []) {actions : List Action} (ht : (e.run actions).tasks[i]? = some t)
    (hended : t.phase = .ended) : (e.sentBy i actions).length = 1 := by
  have haccounts := accounts_run hnew actions ht
  unfold Accounts at haccounts
  rw [hended] at haccounts
  obtain ⟨r, hr, -⟩ := haccounts
  simp [hr]

theorem stoppedWith_of_mem (hnew : e.tasks = []) {actions : List Action} {r : SpawnResult}
    (h : (i, r) ∈ e.deliveries actions) : e.StoppedWith actions i r := by
  have hsent : r ∈ e.sentBy i actions := by simpa [sentBy] using h
  rcases sentBy_cases hnew i actions with hnone | ⟨r', hr, hstopped⟩
  · rw [hnone] at hsent
    cases hsent
  · rw [hr, List.mem_singleton] at hsent
    exact hsent ▸ hstopped

theorem StoppedWith.request {actions : List Action} {r : SpawnResult} (h : e.StoppedWith actions i r) :
    ∃ request, (e.run actions).requests[i]? = some request ∧ r.argv = request.argv ∧ r.handle = request.handle := by
  obtain ⟨before, a, after, rfl, hstops, -⟩ := h
  have hstays {t : Task} (ht : (e.run before).tasks[i]? = some t) :
      (e.run (before ++ a :: after)).requests[i]? = some t.request := by
    have hbefore : (e.run before).requests[i]? = some t.request := by simp [requests, ht]
    have hlt := (List.getElem?_eq_some_iff.mp hbefore).1
    rw [run_append, requests_run (e.run before), List.getElem?_append_left hlt, hbefore]
  cases hstops with
  | failed ht => exact ⟨_, hstays ht, rfl, rfl⟩
  | ended remains ht => exact ⟨_, hstays ht, rfl, rfl⟩

theorem perm_of_ended (hnew : e.tasks = []) {actions : List Action}
    (hended : ∀ t ∈ (e.run actions).tasks, t.phase = .ended) :
    ((e.deliveries actions).map (·.2.handle)).Perm ((e.run actions).requests.map (·.handle)) := by
  let handles := (e.run actions).requests.map (·.handle)
  -- The tasks are numbered like their requests, and each number occurs among the senders once.
  have hsenders : ((e.deliveries actions).map (·.1)).Perm (List.range handles.length) := by
    refine List.perm_iff_count.mpr fun i => ?_
    have hcount : ((e.deliveries actions).map (·.1)).count i = (e.sentBy i actions).length := by
      rw [sentBy, List.length_map, List.count_eq_length_filter, List.filter_map, List.length_map]
      exact congrArg List.length (List.filter_congr fun d _ => by simp [BEq.beq])
    rw [hcount, List.count_range]
    cases ht : (e.run actions).tasks[i]? with
    | none =>
      have hge := List.getElem?_eq_none_iff.mp ht
      rw [sentBy_eq_nil actions ht, if_neg (by simpa [handles, requests] using hge)]
      rfl
    | some t =>
      have hlt := (List.getElem?_eq_some_iff.mp ht).1
      rw [length_sentBy_of_ended hnew ht (hended t (List.mem_of_getElem? ht)),
        if_pos (by simpa [handles, requests] using hlt)]
  have hinjective : Function.Injective (some : Handle → Option Handle) := fun _ _ => Option.some.inj
  refine (List.map_perm_map_iff hinjective).mp ?_
  calc
    ((e.deliveries actions).map (·.2.handle)).map some = ((e.deliveries actions).map (·.1)).map (handles[·]?) := by
      rw [List.map_map, List.map_map]
      refine List.map_congr_left fun d hd => ?_
      obtain ⟨request, hrequest, -, hhandle⟩ := (stoppedWith_of_mem hnew hd).request
      simp [handles, hrequest, hhandle]
    List.Perm _ ((List.range handles.length).map (handles[·]?)) := hsenders.map _
    _ = handles.map some := List.ext_getElem (by simp) fun i _ _ => by simp

def Phase.stepsLeft : Phase → Nat
  | .waiting => 5
  | .admitted => 4
  | .running => 3
  | .stopped _ => 2
  | .sent => 1
  | .ended => 0

def stepsLeft (ts : List Task) : Nat := ts.foldr (fun t n => t.phase.stepsLeft + n) 0

theorem stepsLeft_modify_lt {f : Task → Task} {ts : List Task} (ht : ts[i]? = some t)
    (hf : (f t).phase.stepsLeft < t.phase.stepsLeft) : stepsLeft (ts.modify i f) < stepsLeft ts := by
  induction ts generalizing i with
  | nil => simp at ht
  | cons first rest ih =>
    cases i with
    | zero =>
      obtain rfl : first = t := by simpa using ht
      exact Nat.add_lt_add_right hf _
    | succ i =>
      have hrest : stepsLeft (rest.modify i f) < stepsLeft rest := ih (by simpa using ht)
      exact Nat.add_lt_add_left hrest _

/-- As long as a task has not ended, some task can take a step: one that holds a slot, or else one that waits for it.
-/
theorem exists_advance (hlimit : ∀ n, e.limit = some n → 0 < n) (h : ∃ t ∈ e.tasks, t.phase ≠ .ended) :
    ∃ a, a.request? = none ∧ stepsLeft (e.step a).tasks < stepsLeft e.tasks := by
  by_cases hslot : ∃ t ∈ e.tasks, t.holdsSlot = true
  · obtain ⟨t, hmem, hslot⟩ := hslot
    obtain ⟨i, ht⟩ := List.mem_iff_getElem?.mp hmem
    cases hphase : t.phase with
    | waiting | ended => simp [Task.holdsSlot, hphase, Phase.holdsSlot] at hslot
    | admitted =>
      refine ⟨.start i (some ""), rfl, stepsLeft_modify_lt ht ?_⟩
      unfold Task.start
      rw [if_pos hphase, hphase]
      split <;> simp_all [Phase.stepsLeft]
    | running =>
      refine ⟨.finish i { outcome := .completed 0 }, rfl, stepsLeft_modify_lt ht ?_⟩
      unfold Task.finish
      rw [if_pos ⟨hphase, nofun⟩, hphase]
      exact Nat.lt_succ_self 2
    | stopped r =>
      refine ⟨.send i, rfl, stepsLeft_modify_lt ht ?_⟩
      unfold Task.markSent
      rw [result?_eq_some.mpr hphase, hphase]
      exact Nat.lt_succ_self 1
    | sent =>
      refine ⟨.leave i, rfl, stepsLeft_modify_lt ht ?_⟩
      unfold Task.leave
      rw [if_pos hphase, hphase]
      exact Nat.lt_succ_self 0
  -- No task holds a slot, so all slots are free and every task that has not ended waits for one.
  · obtain ⟨t, hmem, hleft⟩ := h
    obtain ⟨i, ht⟩ := List.mem_iff_getElem?.mp hmem
    have hnone : e.slotsTaken = 0 := List.countP_eq_zero.mpr fun t ht h => hslot ⟨t, ht, h⟩
    have hfree : e.hasFreeSlot = true := by
      unfold hasFreeSlot
      rw [hnone]
      cases hn : e.limit with
      | none => rfl
      | some n => simpa using hlimit n hn
    have hwaiting : t.phase = .waiting := by
      cases hphase : t.phase with
      | waiting => rfl
      | ended => exact absurd hphase hleft
      | admitted | running | stopped | sent =>
        exact absurd ⟨t, hmem, by simp [Task.holdsSlot, hphase, Phase.holdsSlot]⟩ hslot
    refine ⟨.acquire i, rfl, ?_⟩
    rw [step_acquire, if_pos hfree]
    refine stepsLeft_modify_lt ht ?_
    unfold Task.acquire
    rw [if_pos hwaiting, hwaiting]
    exact Nat.lt_succ_self 4

theorem exists_run_ended (hlimit : ∀ n, e.limit = some n → 0 < n) :
    ∃ more : List Action, (∀ a ∈ more, a.request? = none) ∧ ∀ t ∈ (e.run more).tasks, t.phase = .ended := by
  induction hleft : stepsLeft e.tasks using Nat.strongRecOn generalizing e with
  | _ left ih =>
    by_cases h : ∃ t ∈ e.tasks, t.phase ≠ .ended
    · obtain ⟨a, ha, hless⟩ := exists_advance hlimit h
      obtain ⟨more, hmore, hended⟩ := ih _ (hleft ▸ hless) (by rwa [limit_step]) rfl
      exact ⟨a :: more, by simpa [ha] using hmore, hended⟩
    · refine ⟨[], by simp, fun t ht => ?_⟩
      by_contra hphase
      exact h ⟨t, ht, hphase⟩

/-- At every point of a run no more programs run than there are slots. What is in the channel was sent by the tasks, by
each at most once, by one that has ended exactly once, and by none before its program had ended or could not be
started; and it names the handle and the command line of the request of that task. All tasks can come to their end, and
when they have, every request is answered. -/
theorem run_answers_once (limit : Option Nat) (actions : List Action) :
    let unused := ofLimit limit
    let e := unused.run actions
    (∀ n, limit = some n → e.running ≤ max n 1) ∧
    e.requests = actions.filterMap Action.request? ∧
    e.results = (unused.deliveries actions).map (·.2) ∧
    (∀ i, (unused.sentBy i actions).length ≤ 1) ∧
    (∀ i t, e.tasks[i]? = some t → t.phase = .ended → (unused.sentBy i actions).length = 1) ∧
    (∀ i r, (i, r) ∈ unused.deliveries actions → unused.StoppedWith actions i r ∧
      ∃ request, e.requests[i]? = some request ∧ r.argv = request.argv ∧ r.handle = request.handle) ∧
    ((∀ t ∈ e.tasks, t.phase = .ended) → (e.results.map (·.handle)).Perm (e.requests.map (·.handle))) ∧
    ∃ more : List Action, (∀ a ∈ more, a.request? = none) ∧ ∀ t ∈ (e.run more).tasks, t.phase = .ended := by
  intro unused e
  have hnew : unused.tasks = [] := by cases limit <;> rfl
  have hlimit (n : Nat) (h : unused.limit = some n) : ∃ m, limit = some m ∧ n = max m 1 := by
    cases limit with
    | none => cases h
    | some m => exact ⟨m, rfl, (Option.some.inj h).symm⟩
  have hresults : e.results = (unused.deliveries actions).map (·.2) := by
    have hchannel : e.results = _ := results_run unused actions
    cases limit <;> exact hchannel
  refine ⟨?_, ?_, hresults, fun i => ?_, fun i t => length_sentBy_of_ended hnew, fun i r hmem => ?_,
    fun hended => ?_, ?_⟩
  · rintro n rfl
    have hnone : unused.slotsTaken ≤ max n 1 := Nat.zero_le _
    exact Nat.le_trans (running_le_slotsTaken e) (slotsTaken_run rfl hnone actions)
  · have hrequests : e.requests = _ := requests_run unused actions
    cases limit <;> exact hrequests
  · rcases sentBy_cases hnew i actions with hnone | ⟨r, hr, -⟩
    · simp [hnone]
    · simp [hr]
  · exact ⟨stoppedWith_of_mem hnew hmem, (stoppedWith_of_mem hnew hmem).request⟩
  · rw [hresults, List.map_map]
    exact perm_of_ended hnew hended
  · refine exists_run_ended fun n hn => ?_
    have hunused : unused.limit = some n := by
      rw [← hn]
      exact (limit_run unused actions).symm
    obtain ⟨m, -, rfl⟩ := hlimit n hunused
    exact Nat.le_max_right m 1

end Triage.Executor
