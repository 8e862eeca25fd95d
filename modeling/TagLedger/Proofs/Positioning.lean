import TagLedger.Proofs.Crewing

/-!
# Positions in the queue

As long as nothing is ordered, a pending task has its turn when the run under way has ended and those
of the pending tasks in front of it. The position that is told of a task counts the active tasks in
front. That is one too few if the run under way is that of a task which is not in front: of one that
was taken while the first was paused, or of one that was taken out of the queue.

    runs that end first  =  position - 1 + runs under way of tasks that are not in front
                                                                          (position_exact)
-/

namespace TagLedger

namespace Desk

variable {d d' d'' : Desk} {fetch : Session.Fetch} {a : Act} {t u : Task} {n : Nat}

/-! ## Waiting for a turn -/

/-- A pending task has its turn when so many runs have ended: those under way, and those of the
pending tasks in front of it. -/
structure Awaits (d : Desk) (t : Task) (n : Nat) : Prop where
  pending : t.status = .pending
  queued : ∃ front rear, d.session.queue.tasks = front ++ t :: rear ∧
    (front.filter (·.status = .pending)).length + d.errands.length = n

/-- A task was taken when so many runs had ended, counted from another moment. -/
def StartedAfter (d : Desk) (t : Task) (n : Nat) (d' : Desk) : Prop :=
  ∃ after q between, d'.log = after ++ .took q t :: (between ++ d.log) ∧
    (between.filterMap Event.over?).length = n

/-- A task that waits for its turn waits for it still, or has had it when it was due. -/
inductive Nearer (d : Desk) (t : Task) (n : Nat) (d' : Desk) : Prop
  | waits (between : List Event) {m : Nat} (log : d'.log = between ++ d.log)
      (count : (between.filterMap Event.over?).length + m = n) (awaits : d'.Awaits t m)
  | starts (started : StartedAfter d t n d')

theorem Awaits.congr (h : d.Awaits t n) (htasks : d'.session.queue.tasks = d.session.queue.tasks)
    (herrands : d'.errands = d.errands) : d'.Awaits t n := by
  obtain ⟨hpending, front, rear, hsplit, hcount⟩ := h
  exact ⟨hpending, front, rear, htasks.trans hsplit, herrands ▸ hcount⟩

/-- A worker came so far with another task, which is not counted among those that are pending. -/
theorem Awaits.settle {w : Nat} {x : Session} {m : Option Stage} {g : Signal}
    {p : Progress Session AnalysisResult} {front rear : List Task} (ht : t.status = .pending)
    (htasks : x.queue.tasks = front ++ t :: rear)
    (hcount : (front.filter (·.status = .pending)).length + d.errands.length + 1 = n)
    (hother : ∀ v ∈ x.queue.tasks, v.id = u.id → v.status ≠ .pending)
    (hp : Follows (ErrandTurn w) m g x p) : Nearer d t n (d.settle w u p) := by
  cases hp with
  | @done _ _ _ y r hturn =>
    obtain ⟨flying, result, hqueue⟩ := hturn.queue_eq
    have hleft : (y.afterTask w u).queue.tasks = x.queue.tasks.filter (·.id != u.id) := by
      unfold Session.afterTask Queue.rest
      split <;> simp [hqueue]
    have hstays : ∀ v ∈ x.queue.tasks, v.status = .pending → (v.id != u.id) = true := by
      intro v hv hpending
      rw [bne_iff_ne]
      exact fun hid => hother v hv hid hpending
    rw [htasks] at hleft hstays
    have hself := hstays t (by simp) ht
    have hkept : (t :: rear).filter (·.id != u.id) = t :: rear.filter (·.id != u.id) :=
      List.filter_cons_of_pos hself
    rw [List.filter_append, hkept] at hleft
    have hfront : (front.filter (·.id != u.id)).filter (·.status = .pending) =
        front.filter (·.status = .pending) := by
      rw [List.filter_filter]
      refine List.filter_congr fun v hv => ?_
      by_cases hpending : v.status = .pending
      · simp [hpending, hstays v (List.mem_append_left _ hv) hpending]
      · simp [hpending]
    refine .waits [.ended u r] (m := n - 1) rfl ?_ ⟨ht, _, _, hleft, ?_⟩
    · change 1 + (n - 1) = n
      omega
    · rw [hfront]
      change _ + d.errands.length = n - 1
      omega
  | @waits _ n' _ _ y wait k hturn hk =>
    obtain ⟨flying, result, hqueue⟩ := hturn.queue_eq
    have hsame : y.queue.tasks = x.queue.tasks := by rw [hqueue]
    have hmore : (front.filter (·.status = .pending)).length + (d.errands.length + 1) = n := by
      omega
    exact .waits [] rfl (Nat.zero_add n) ⟨ht, front, rear, hsame.trans htasks, hmore⟩

theorem exists_next? {q : Queue} {front rear : List Task} (ht : t.status = .pending)
    (hsplit : q.tasks = front ++ t :: rear) : ∃ u, q.next? = some u := by
  rw [← Option.isSome_iff_exists, Queue.next?, hsplit, List.find?_isSome]
  exact ⟨t, by simp, by simp [ht]⟩

/-- The task that is taken next is the one that waits, if none in front is pending, or one of
those. -/
theorem next?_cases {q : Queue} {front rear : List Task} (hsplit : q.tasks = front ++ t :: rear)
    (ht : t.status = .pending) (hu : q.next? = some u) :
    u = t ∧ front.filter (·.status = .pending) = [] ∨
      ∃ a b, front = a ++ u :: b ∧ u.status = .pending := by
  rw [Queue.next?, hsplit, List.find?_append] at hu
  cases hfront : front.find? (·.status = .pending) with
  | none =>
    rw [hfront, List.find?_cons_of_pos (by simp [ht])] at hu
    refine .inl ⟨(Option.some.inj hu).symm, List.filter_eq_nil_iff.mpr fun v hv => ?_⟩
    exact List.find?_eq_none.mp hfront v hv
  | some v =>
    rw [hfront] at hu
    cases hu
    obtain ⟨hpending, a, b, hab, -⟩ := List.find?_eq_some_iff_append.mp hfront
    exact .inr ⟨a, b, hab, by simpa using hpending⟩

/-- One task less is pending in front when it was taken. -/
theorem exists_front_take {q : Queue} {a b rear : List Task} (hnodup : q.ids.Nodup)
    (hsplit : q.tasks = (a ++ u :: b) ++ t :: rear) (hu : u.status = .pending) (w : Nat) :
    ∃ front', (q.take w u.id).tasks = front' ++ t :: rear ∧
      (front'.filter (·.status = .pending)).length + 1 =
        ((a ++ u :: b).filter (·.status = .pending)).length := by
  have hrow : (a.map (·.id) ++ u.id :: (b.map (·.id) ++ t.id :: rear.map (·.id))).Nodup := by
    unfold Queue.ids at hnodup
    rw [hsplit] at hnodup
    simpa using hnodup
  have hfresh := (List.nodup_cons.mp (List.nodup_middle.mp hrow)).1
  simp only [List.mem_append, List.mem_cons, not_or] at hfresh
  obtain ⟨ha, hb, ht, hrear⟩ := hfresh
  let mark (v : Task) : Task := if v.id == u.id then { v with status := .processing } else v
  have hself : mark u = { u with status := .processing } := if_pos (beq_self_eq_true _)
  have hmark {v : Task} (hv : u.id ≠ v.id) : mark v = v := if_neg (by simpa using hv.symm)
  have hrest {l : List Task} (hl : u.id ∉ l.map (·.id)) : l.map mark = l := by
    refine (List.map_congr_left fun v hv => ?_).trans (List.map_id _)
    exact hmark fun hid => hl (hid ▸ List.mem_map_of_mem hv)
  refine ⟨a ++ { u with status := .processing } :: b, ?_, ?_⟩
  · rw [Queue.take, Queue.tasks_notify]
    change q.tasks.map mark = _
    rw [hsplit, List.map_append, List.map_append, List.map_cons, List.map_cons, hrest ha, hrest hb,
      hrest hrear, hself, hmark ht]
  · simp only [List.filter_append, List.filter_cons, List.length_append, hu, decide_true, if_true,
      reduceCtorEq, decide_false, Bool.false_eq_true, if_false, List.length_cons]
    omega

theorem not_pending_of_take {q : Queue} {v : Task} {w : Nat} {id : String}
    (hv : v ∈ (q.take w id).tasks) (hid : v.id = id) : v.status ≠ .pending := by
  rw [Queue.take, Queue.tasks_notify] at hv
  obtain ⟨v, hv, rfl⟩ := List.mem_map.mp hv
  split at hid
  · next heq =>
    rw [if_pos heq]
    intro hstatus
    cases hstatus
  · next hne => exact absurd (beq_iff_eq.mpr hid) hne

theorem Sound.not_pending {e : Errand} {v : Task} (hsound : d.Sound)
    (hv : v ∈ d.session.queue.tasks) (he : e ∈ d.errands) (hid : v.id = e.task.id) :
    v.status ≠ .pending := by
  have hcrew : v.id ∈ d.crew.map (·.2) := by
    rw [hid, d.crew_tasks]
    exact List.mem_map_of_mem he
  intro hstatus
  have hmarked := (hsound.tallies.processing v hv).mpr hcrew
  rw [hstatus] at hmarked
  cases hmarked

theorem log_settle (w : Nat) (p : Progress Session AnalysisResult) :
    d.log <:+ (d.settle w t p).log := by
  cases p with
  | done x r => exact List.suffix_cons _ _
  | waiting x wait k => exact List.suffix_rfl

/-- What is said from one moment on can be said from an earlier one. -/
theorem StartedAfter.since {d₁ : Desk} {k : Nat} (h : StartedAfter d₁ t n d') (new : List Event)
    (hlog : d₁.log = new ++ d.log) (hcount : (new.filterMap Event.over?).length + n = k) :
    StartedAfter d t k d' := by
  obtain ⟨after, q, between, hlog', hbetween⟩ := h
  refine ⟨after, q, between ++ new, ?_, ?_⟩
  · rw [hlog', hlog, List.append_assoc]
  · rw [List.filterMap_append, List.length_append]
    omega

theorem Nearer.since {d₁ : Desk} {k : Nat} (h : Nearer d₁ t n d') (new : List Event)
    (hlog : d₁.log = new ++ d.log) (hcount : (new.filterMap Event.over?).length + n = k) :
    Nearer d t k d' := by
  cases h with
  | @waits between m log count awaits =>
    refine .waits (between ++ new) ?_ ?_ awaits
    · rw [log, hlog, List.append_assoc]
    · rw [List.filterMap_append, List.length_append]
      omega
  | starts started => exact .starts (started.since new hlog hcount)

theorem Awaits.step (hsound : d.Sound) (hfetch : fetch.Polite) (hcrewed : d.Crewed)
    (h : d.Awaits t n) (hstep : Step fetch a d d') (ha : ∀ o, a ≠ .order o) : Nearer d t n d' := by
  have htallies := hsound.tallies
  obtain ⟨hpending, front, rear, hsplit, hcount⟩ := id h
  have hstays {d' : Desk} (hlog : d'.log = d.log)
      (htasks : d'.session.queue.tasks = d.session.queue.tasks)
      (herrands : d'.errands = d.errands) : Nearer d t n d' :=
    .waits [] hlog (Nat.zero_add n) (h.congr htasks herrands)
  by_cases haside : a = .aside
  · subst haside
    obtain ⟨-, hunworked⟩ := sameCrew_of_aside hsound hstep
    exact hstays hunworked.log hunworked.tasks hunworked.errands
  cases hstep with
  | order o hids => exact absurd rfl (ha o)
  | @take _ w due u hidle hu =>
    have hfollows := Session.follows_runTask hfetch w u (d.taking w u)
    have hnext := next?_of_nextTask? hu
    rcases next?_cases hsplit hpending hnext with ⟨rfl, hnone⟩ | ⟨a, b, rfl, hfirst⟩
    · -- whoever takes a task had none, so that no run was left that had to end
      have hfree : d.errands = [] := by
        cases hcrewed with
        | free running idle errands => exact errands
        | busy running idle errands =>
          rw [idle] at hidle
          cases hidle
      rw [hnone, hfree] at hcount
      obtain ⟨after, hafter⟩ := log_settle (d := { d with log := .took d.session.queue u :: d.log })
        (t := u) w (Session.runTask fetch w u (d.taking w u))
      exact .starts ⟨after, d.session.queue, [], hafter.symm, hcount⟩
    · obtain ⟨front', htasks, hless⟩ := exists_front_take htallies.nodup_ids hsplit hfirst w
      have hless : (front'.filter (·.status = .pending)).length + d.errands.length + 1 = n := by
        omega
      have hnearer := Awaits.settle (d := { d with log := .took d.session.queue u :: d.log })
        hpending htasks hless (fun v hv => not_pending_of_take hv) hfollows
      exact hnearer.since [.took d.session.queue u] rfl (Nat.zero_add n)
  | @turn _ before later e he =>
    obtain ⟨m, hm⟩ := hsound.errands e (by simp [he])
    have hless :
        (front.filter (·.status = .pending)).length + (before ++ later).length + 1 = n := by
      rw [← hcount, he, List.length_append, List.length_append, List.length_cons]
      omega
    have hprocessing : ∀ v ∈ d.session.queue.tasks, v.id = e.task.id → v.status ≠ .pending :=
      fun v hv => hsound.not_pending hv (by simp [he])
    have hfollows := hm (d.signal e.worker) (d.told e.worker)
    have hnearer := Awaits.settle (d := { d with errands := before ++ later })
      (x := d.told e.worker) hpending hsplit hless hprocessing hfollows
    exact hnearer.since [] rfl (Nat.zero_add n)
  | look => exact hstays rfl rfl rfl
  | call | goOn | other => exact absurd rfl haside

/-! ## Safety -/

/-- What happened stays in the log. -/
theorem log_step (hstep : Step fetch a d d') : d.log <:+ d'.log := by
  cases hstep with
  | order o hids => exact List.suffix_cons _ _
  | @take _ w due u hidle hu =>
    have htook := log_settle (d := { d with log := .took d.session.queue u :: d.log }) (t := u) w
      (Session.runTask fetch w u (d.taking w u))
    exact (List.suffix_cons _ _).trans htook
  | @turn _ before later e he => exact log_settle (d := { d with errands := before ++ later }) _ _
  | look => exact List.suffix_rfl
  | call x =>
    rw [log_proceed]
  | goOn g hk =>
    rw [log_proceed]
  | other => exact List.suffix_rfl

theorem StartedAfter.step (h : StartedAfter d t n d') (hstep : Step fetch a d' d'') :
    StartedAfter d t n d'' := by
  obtain ⟨after, q, between, hlog, hcount⟩ := h
  obtain ⟨new, hnew⟩ := log_step hstep
  exact ⟨new ++ after, q, between, by rw [← hnew, hlog, List.append_assoc], hcount⟩

/-- As long as nothing is ordered. -/
theorem nearer_of_run (hsound : d.Sound) (hfetch : fetch.Polite) (hcrewed : d.Crewed)
    (h : d.Awaits t n) (hrun : Run fetch (fun _ => False) d d') :
    d'.Sound ∧ d'.Crewed ∧ Nearer d t n d' := by
  induction hrun with
  | refl => exact ⟨hsound, hcrewed, .waits [] rfl (Nat.zero_add n) h⟩
  | tail _ hnext ih =>
    obtain ⟨hsound, hcrewed, hnearer⟩ := ih
    obtain ⟨a, hstep, hcalm⟩ := hnext
    have hcrewed' := hcrewed.step hsound hfetch hstep fun o ho => (hcalm o ho).elim
    refine ⟨hsound.step hfetch hstep, hcrewed', ?_⟩
    cases hnearer with
    | waits between log count awaits =>
      exact (awaits.step hsound hfetch hcrewed hstep hcalm).since between log count
    | starts started => exact .starts (started.step hstep)

/-- Once the task was taken, it was taken when it was due. -/
theorem startedAfter_of_taken (hsound : d'.Sound) (h : Nearer d t n d')
    (htaken : t.id ∈ d'.log.filterMap Event.taken?) : StartedAfter d t n d' := by
  cases h with
  | waits between log count awaits =>
    obtain ⟨hpending, front, rear, hsplit, -⟩ := awaits
    exact absurd htaken (hsound.tallies.notMem_taken (by simp [hsplit]) hpending)
  | starts started => exact started

/-! ## Liveness -/

end Desk

/-- The act of a worker that has or takes a task. -/
def Act.Works : Act → Prop
  | .take _ _ | .turn _ => True
  | _ => False

namespace Desk

variable {d d' d'' : Desk} {fetch : Session.Fetch} {a : Act} {t u : Task} {n : Nat}

/-- Others had their turns, and nothing was ordered. -/
abbrev Passes (fetch : Session.Fetch) : Desk → Desk → Prop :=
  Relation.ReflTransGen fun d d' => ∃ a, Step fetch a d d' ∧ (a = .look ∨ a = .aside)

/-- A worker's turns come to something: whatever else happens between them, one can go on, and
however it does, there are only so many turns left. -/
inductive Comes (fetch : Session.Fetch) (P : Desk → Prop) : Desk → Prop
  | here {d : Desk} (holds : P d) : Comes fetch P d
  | onward {d : Desk} (able : ∀ d', Passes fetch d d' → ∃ a d'', a.Works ∧ Step fetch a d' d'')
      (next : ∀ d' a d'', Passes fetch d d' → a.Works → Step fetch a d' d'' → Comes fetch P d'') :
      Comes fetch P d

theorem Comes.mono {P Q : Desk → Prop} (h : Comes fetch P d) (hPQ : ∀ d', P d' → Q d') :
    Comes fetch Q d := by
  induction h with
  | here holds => exact .here (hPQ _ holds)
  | onward able _ ih => exact .onward able ih

theorem unworked_step (hsound : d.Sound) (hstep : Step fetch a d d') (ha : a = .look ∨ a = .aside) :
    Unworked d d' := by
  rcases ha with rfl | rfl
  · cases hstep
    exact ⟨rfl, rfl, rfl⟩
  · exact (sameCrew_of_aside hsound hstep).2

theorem unworked_of_passes (hfetch : fetch.Polite) (hsound : d.Sound) (hcrewed : d.Crewed)
    (h : Passes fetch d d') : d'.Sound ∧ d'.Crewed ∧ Unworked d d' := by
  induction h with
  | refl => exact ⟨hsound, hcrewed, rfl, rfl, rfl⟩
  | tail _ hnext ih =>
    obtain ⟨hsound, hcrewed, hsame⟩ := ih
    obtain ⟨a, hstep, ha⟩ := hnext
    have hno : ∀ o, a = .order o → o.KeepsOn := fun o ho => by simp [ho] at ha
    have hstill := unworked_step hsound hstep ha
    refine ⟨hsound.step hfetch hstep, hcrewed.step hsound hfetch hstep hno, ?_⟩
    exact ⟨hstill.tasks.trans hsame.tasks, hstill.errands.trans hsame.errands,
      hstill.log.trans hsame.log⟩

theorem step_of_busy {e : Errand} (hcrewed : d.Crewed) (herrands : d.errands = [e])
    (hworks : a.Works) (hstep : Step fetch a d d') :
    d' = { d with errands := [] }.settle e.worker e.task
      (e.resume (d.signal e.worker) (d.told e.worker)) := by
  cases hstep with
  | @take _ w due u hidle hu =>
    cases hcrewed with
    | free running idle errands => cases errands.symm.trans herrands
    | busy running idle errands =>
      rw [idle] at hidle
      cases hidle
  | turn he =>
    obtain ⟨rfl, rfl, rfl⟩ := eq_of_alone (herrands.symm.trans he)
    rfl
  | _ => exact hworks.elim

theorem step_of_free (herrands : d.errands = []) (hworks : a.Works) (hstep : Step fetch a d d') :
    ∃ w u, d' = { d with log := .took d.session.queue u :: d.log }.settle w u
      (Session.runTask fetch w u (d.taking w u)) := by
  cases hstep with
  | @take _ w due u hidle hu => exact ⟨w, u, rfl⟩
  | turn he =>
    rw [herrands] at he
    simp at he
  | _ => exact hworks.elim

theorem works_not_order {o : Order} (hworks : a.Works) : a ≠ .order o := by
  rintro rfl
  exact hworks

/-- As long as a task waits for its turn, the worker can go on or take one. -/
theorem Awaits.able (hsound : d.Sound) (hfetch : fetch.Polite) (hcrewed : d.Crewed)
    (h : d.Awaits t n) (d₂ : Desk) (hpasses : Passes fetch d d₂) :
    ∃ a d₃, a.Works ∧ Step fetch a d₂ d₃ := by
  obtain ⟨-, hcrewed₂, hsame⟩ := unworked_of_passes hfetch hsound hcrewed hpasses
  obtain ⟨hpending, front, rear, hsplit, -⟩ := h.congr hsame.tasks hsame.errands
  cases hcrewed₂ with
  | @free w due running idle errands =>
    obtain ⟨u, hu⟩ := exists_next? hpending hsplit
    have hnext : d₂.session.nextTask? = some u := by
      rw [Session.nextTask?, if_pos running, hu]
    have hmem : (w, due) ∈ d₂.session.queue.idle := by
      rw [idle]
      exact List.mem_cons_self
    exact ⟨.take w u, _, trivial, .take hmem hnext⟩
  | @busy e running idle errands =>
    have hfirst : d₂.errands = [] ++ e :: [] := errands
    exact ⟨.turn e, _, trivial, .turn hfirst⟩

/-- A worker had its turn, with others before. -/
theorem Awaits.passed {d₂ d₃ : Desk} (hsound : d.Sound) (hfetch : fetch.Polite) (hcrewed : d.Crewed)
    (h : d.Awaits t n) (hpasses : Passes fetch d d₂) (hworks : a.Works)
    (hstep : Step fetch a d₂ d₃) : d₃.Sound ∧ d₃.Crewed ∧ Nearer d t n d₃ := by
  obtain ⟨hsound₂, hcrewed₂, hsame⟩ := unworked_of_passes hfetch hsound hcrewed hpasses
  have hnearer := (h.congr hsame.tasks hsame.errands).step hsound₂ hfetch hcrewed₂ hstep
    fun o => works_not_order hworks
  refine ⟨hsound₂.step hfetch hstep, hcrewed₂.step hsound₂ hfetch hstep fun o ho => ?_,
    hnearer.since [] hsame.log (Nat.zero_add n)⟩
  exact absurd ho (works_not_order hworks)

/-- A run that ended is one of those that had to. -/
theorem lt_of_ended {between new log : List Event} {r : Except Failure AnalysisResult} {m : Nat}
    (hlog : .ended u r :: (new ++ log) = between ++ log)
    (hcount : (between.filterMap Event.over?).length + m = n) : m < n := by
  have hbetween : .ended u r :: new = between := List.append_cancel_right hlog
  rw [← hbetween] at hcount
  change (new.filterMap Event.over?).length + 1 + m = n at hcount
  omega

/-- All that a worker still has to do for a task leads on, if less is to be done afterwards. -/
theorem comes_settle (hfetch : fetch.Polite)
    (hless : ∀ m < n, ∀ d : Desk, d.Sound → d.Crewed → d.Awaits t m →
      Comes fetch (StartedAfter d t m) d)
    {w m : Nat} (p : Progress Session AnalysisResult)
    (hsettle : ∃ d₀ : Desk, d₀.errands = [] ∧ d = d₀.settle w u p) (hsound : d.Sound)
    (hcrewed : d.Crewed) (hawaits : d.Awaits t m) (hm : m ≤ n)
    (hdone : ∀ s r, p = .done s r → m < n) : Comes fetch (StartedAfter d t m) d := by
  -- on what is left of the run; where it ends, the number of runs that have to end is lower
  induction p generalizing d m with
  | done s r => exact hless m (hdone s r rfl) d hsound hcrewed hawaits
  | waiting s wait k ih =>
    have herrands : d.errands = [⟨w, u, k⟩] := by
      obtain ⟨d₀, hnobody, rfl⟩ := hsettle
      exact congrArg _ hnobody
    refine .onward (hawaits.able hsound hfetch hcrewed) fun d₂ a d₃ hpasses hworks hstep => ?_
    obtain ⟨-, hcrewed₂, hsame⟩ := unworked_of_passes hfetch hsound hcrewed hpasses
    have hd₃ := step_of_busy hcrewed₂ (hsame.errands.trans herrands) hworks hstep
    obtain ⟨hsound₃, hcrewed₃, hnearer⟩ := hawaits.passed hsound hfetch hcrewed hpasses hworks hstep
    cases hnearer with
    | starts started => exact .here started
    | @waits between m' log count awaits =>
      have hended {y r} (hr : k (d₂.signal w) (d₂.told w) = .done y r) :
          d₃.log = .ended u r :: ([] ++ d.log) := by
        rw [hd₃, ← hsame.log]
        change Desk.log (settle _ w u (k (d₂.signal w) (d₂.told w))) = _
        rw [hr]
        rfl
      have hcomes := ih (d₂.signal w) (d₂.told w) ⟨_, rfl, hd₃⟩ hsound₃ hcrewed₃ awaits (by omega)
        fun y r hr => (lt_of_ended ((hended hr).symm.trans log) count).trans_le hm
      exact hcomes.mono fun d' hstarted => hstarted.since between log count

theorem comes_of_awaits (hfetch : fetch.Polite) (hsound : d.Sound) (hcrewed : d.Crewed)
    (h : d.Awaits t n) : Comes fetch (StartedAfter d t n) d := by
  -- on the number of runs that have to end; each of them is an induction of its own
  induction n using Nat.strongRecOn generalizing d with
  | _ n ih =>
    have hless : ∀ m < n, ∀ d : Desk, d.Sound → d.Crewed → d.Awaits t m →
        Comes fetch (StartedAfter d t m) d := fun m hm d => ih m hm
    cases id hcrewed with
    | @busy e running idle errands =>
      generalize hwaiting : Progress.waiting d.session .turn e.resume = p
      have hsettle : d = ({ d with errands := [] } : Desk).settle e.worker e.task p := by
        rw [← hwaiting]
        obtain ⟨session, errands', analyses, log⟩ := d
        cases errands
        rfl
      have hdone s r (hp : p = .done s r) : n < n := by
        rw [← hwaiting] at hp
        cases hp
      exact comes_settle hfetch hless p ⟨_, rfl, hsettle⟩ hsound hcrewed h (Nat.le_refl n) hdone
    | @free w due running idle errands =>
      refine .onward (h.able hsound hfetch hcrewed) fun d₂ a d₃ hpasses hworks hstep => ?_
      obtain ⟨-, -, hsame⟩ := unworked_of_passes hfetch hsound hcrewed hpasses
      obtain ⟨v, u, hd₃⟩ := step_of_free (hsame.errands.trans errands) hworks hstep
      obtain ⟨hsound₃, hcrewed₃, hnearer⟩ := h.passed hsound hfetch hcrewed hpasses hworks hstep
      cases hnearer with
      | starts started => exact .here started
      | @waits between m log count awaits =>
        have hended {y r} (hr : Session.runTask fetch v u (d₂.taking v u) = .done y r) :
            d₃.log = .ended u r :: ([.took d₂.session.queue u] ++ d.log) := by
          rw [hd₃, ← hsame.log, hr]
          rfl
        have hcomes := comes_settle hfetch hless (Session.runTask fetch v u (d₂.taking v u))
          ⟨{ d₂ with log := .took d₂.session.queue u :: d₂.log }, hsame.errands.trans errands, hd₃⟩
          hsound₃ hcrewed₃ awaits (by omega)
          fun y r hr => lt_of_ended ((hended hr).symm.trans log) count
        exact hcomes.mono fun d' hstarted => hstarted.since between log count

/-! ## The position that is told -/

end Desk

namespace Queue

variable {q : Queue} {suiteId : String} {p : Nat} {t : Task}

/-- The tasks in front of one. -/
def before (q : Queue) (t : Task) : List Task := q.tasks.takeWhile (·.id ≠ t.id)

theorem before_of_split {a b : List Task} (hnodup : q.ids.Nodup) (hsplit : q.tasks = a ++ t :: b) :
    q.before t = a := by
  have hfresh : ∀ v ∈ a, v.id ≠ t.id := by
    unfold ids at hnodup
    rw [hsplit, List.map_append, List.map_cons] at hnodup
    intro v hv hid
    have hrest := (List.nodup_append'.mp hnodup).2.2 (List.mem_map_of_mem hv)
    exact hrest (hid ▸ List.mem_cons_self)
  unfold before
  rw [hsplit, List.takeWhile_append_of_pos (by simpa using hfresh),
    List.takeWhile_cons_of_neg (by simp), List.append_nil]

/-- The position of a task counts those in front that are not paused, from one on. -/
theorem standing_split (h : q.standing suiteId = .waiting p t) :
    t.status = .pending ∧ ∃ a b, q.tasks = a ++ t :: b ∧
      p = (a.filter (·.status ≠ .paused)).length + 1 := by
  unfold standing at h
  cases hfirst : q.ofSuite? suiteId with
  | none =>
    rw [hfirst] at h
    cases h
  | some u =>
    rw [hfirst] at h
    dsimp only at h
    split at h
    · next hpending =>
      obtain ⟨hp, rfl⟩ := Standing.waiting.inj h
      obtain ⟨hsuite, a, b, hsplit, hothers⟩ := List.find?_eq_some_iff_append.mp hfirst
      refine ⟨hpending, a, b, hsplit, ?_⟩
      have hnone : ∀ v ∈ a.filter (·.status ≠ .paused), (v.suiteId == suiteId) = false := by
        intro v hv
        simpa using hothers v (List.mem_filter.mp hv).1
      have hkept : (u :: b).filter (·.status ≠ .paused) = u :: b.filter (·.status ≠ .paused) :=
        List.filter_cons_of_pos (by simp [hpending])
      rw [← hp, hsplit, List.filter_append, hkept, List.findIdx_append,
        List.findIdx_eq_length_of_false hnone, if_neg (Nat.lt_irrefl _), List.findIdx_cons, hsuite]
      simp
    · cases h

/-- The tasks that are not paused are pending or processing. -/
theorem length_active (l : List Task) : (l.filter (·.status ≠ .paused)).length =
    (l.filter (·.status = .pending)).length + (l.filter (·.status = .processing)).length := by
  induction l with
  | nil => rfl
  | cons v l ih =>
    simp only [List.filter_cons]
    cases v.status <;> simp at ih ⊢ <;> omega

end Queue

namespace Desk

variable {d d' : Desk} {fetch : Session.Fetch} {t : Task} {n p : Nat} {suiteId : String}

/-- The runs under way of tasks that are not in front of one. -/
def uncounted (d : Desk) (t : Task) : List Errand :=
  d.errands.filter fun e => e.task.id ∉ (d.session.queue.before t).map (·.id)

/-- The tasks in front that are processing are those in front that somebody is at work on. -/
theorem length_processing {a b : List Task} (hsound : d.Sound)
    (hsplit : d.session.queue.tasks = a ++ b) :
    (a.filter (·.status = .processing)).length =
      (d.errands.filter fun e => e.task.id ∈ a.map (·.id)).length := by
  have htallies := hsound.tallies
  have hnodup : (a.map (·.id)).Nodup := by
    have hids := htallies.nodup_ids
    unfold Queue.ids at hids
    rw [hsplit, List.map_append] at hids
    exact (List.nodup_append'.mp hids).1
  have hcrew : (d.errands.map (·.task.id)).Nodup := by
    rw [← d.crew_tasks]
    exact (List.nodup_append'.mp (htallies.flight.nodup_iff.mp htallies.taken)).1
  have hprocessing : ∀ v ∈ a, v.status = .processing ↔ ∃ e ∈ d.errands, e.task.id = v.id := by
    intro v hv
    rw [htallies.processing v (hsplit ▸ List.mem_append_left _ hv), d.crew_tasks, List.mem_map]
  have hperm : ((a.filter (·.status = .processing)).map (·.id)).Perm
      ((d.errands.filter fun e => e.task.id ∈ a.map (·.id)).map (·.task.id)) := by
    refine (List.perm_ext_iff_of_nodup (hnodup.sublist (List.filter_sublist.map _))
      (hcrew.sublist (List.filter_sublist.map _))).mpr fun id => ?_
    simp only [List.mem_map, List.mem_filter, decide_eq_true_eq]
    constructor
    · rintro ⟨v, ⟨hv, hstatus⟩, rfl⟩
      obtain ⟨e, he, hid⟩ := (hprocessing v hv).mp hstatus
      exact ⟨e, ⟨he, v, hv, hid.symm⟩, hid⟩
    · rintro ⟨e, ⟨he, v, hv, hid⟩, rfl⟩
      exact ⟨v, ⟨hv, (hprocessing v hv).mpr ⟨e, he, hid.symm⟩⟩, hid⟩
  simpa using hperm.length_eq

theorem awaits_of_standing (hsound : d.Sound)
    (h : d.session.queue.standing suiteId = .waiting p t) :
    d.Awaits t (p - 1 + (d.uncounted t).length) := by
  obtain ⟨hpending, a, b, hsplit, hp⟩ := Queue.standing_split h
  have hactive := Queue.length_active a
  have hprocessing := length_processing hsound hsplit
  have herrands := List.length_eq_length_filter_add (l := d.errands)
    fun e => decide (e.task.id ∈ a.map (·.id))
  have huncounted : d.uncounted t =
      d.errands.filter fun e => !decide (e.task.id ∈ a.map (·.id)) := by
    unfold uncounted
    rw [Queue.before_of_split hsound.tallies.nodup_ids hsplit]
    simp only [decide_not]
  refine ⟨hpending, a, b, hsplit, ?_⟩
  rw [huncounted]
  omega

theorem Crewed.errands_le (h : d.Crewed) : d.errands.length ≤ 1 := by
  cases h with
  | free running idle errands => simp [errands]
  | busy running idle errands => simp [errands]

/-- The task has its turn, and when so many runs have ended, if nothing is ordered until then. -/
structure Due (fetch : Session.Fetch) (d : Desk) (t : Task) (n : Nat) : Prop where
  comes : Comes fetch (StartedAfter d t n) d
  started : ∀ d', Run fetch (fun _ => False) d d' → t.id ∈ d'.log.filterMap Event.taken? →
    StartedAfter d t n d'

theorem Awaits.due (hsound : d.Sound) (hfetch : fetch.Polite) (hcrewed : d.Crewed)
    (h : d.Awaits t n) : d.Due fetch t n := by
  refine ⟨comes_of_awaits hfetch hsound hcrewed h, fun d' hrun htaken => ?_⟩
  obtain ⟨hsound', -, hnearer⟩ := nearer_of_run hsound hfetch hcrewed h hrun
  exact startedAfter_of_taken hsound' hnearer htaken

/-- Some run comes to it. -/
theorem Comes.reached {P : Desk → Prop} (h : Comes fetch P d) :
    ∃ d', Run fetch (fun _ => False) d d' ∧ P d' := by
  induction h with
  | here holds => exact ⟨_, .refl, holds⟩
  | onward able _ ih =>
    obtain ⟨a, d₁, hworks, hstep⟩ := able _ .refl
    obtain ⟨d', hrun, hholds⟩ := ih _ a d₁ .refl hworks hstep
    exact ⟨d', .head ⟨a, hstep, fun _ ho => works_not_order hworks ho⟩ hrun, hholds⟩

/-- A task is taken once. -/
theorem dropWhile_taken {log after rest : List Event} {q : Queue}
    (hnodup : (log.filterMap Event.taken?).Nodup) (hlog : log = after ++ .took q t :: rest) :
    log.dropWhile (·.taken? ≠ some t.id) = .took q t :: rest := by
  have hfresh : ∀ e ∈ after, e.taken? ≠ some t.id := by
    rw [hlog, List.filterMap_append] at hnodup
    intro e he hid
    have hrest := (List.nodup_append'.mp hnodup).2.2 (List.mem_filterMap.mpr ⟨e, he, hid⟩)
    exact hrest List.mem_cons_self
  rw [hlog, List.dropWhile_append_of_pos (by simpa using hfresh)]
  exact List.dropWhile_cons_of_neg (by simp [Event.taken?])

theorem StartedAfter.unique {m : Nat} (hsound : d'.Sound) (h : StartedAfter d t n d')
    (h' : StartedAfter d t m d') : n = m := by
  obtain ⟨after, q, between, hlog, rfl⟩ := h
  obtain ⟨after', q', between', hlog', rfl⟩ := h'
  have hrest := dropWhile_taken hsound.tallies.taken hlog
  rw [dropWhile_taken hsound.tallies.taken hlog'] at hrest
  obtain ⟨-, hrest⟩ := List.cons.inj hrest
  rw [List.append_cancel_right hrest]

theorem Due.unique {m : Nat} (hsound : d.Sound) (hfetch : fetch.Polite) (h : d.Due fetch t n)
    (h' : d.Due fetch t m) : n = m := by
  obtain ⟨d', hrun, hstarted⟩ := h.comes.reached
  have htaken : t.id ∈ d'.log.filterMap Event.taken? := by
    obtain ⟨after, q, between, hlog, -⟩ := id hstarted
    rw [hlog]
    exact List.mem_filterMap.mpr ⟨.took q t, by simp, rfl⟩
  exact hstarted.unique (hsound.run hfetch hrun) (h'.started d' hrun htaken)

end Desk

/-- A pending task has its turn when one run less has ended than its position says, and one more if
somebody is at work on a task that is not in front. -/
theorem position_exact {fetch : Session.Fetch} (hfetch : fetch.Polite) {s : Session} (hs : s.Unused)
    {d : Desk} (hrun : Desk.Run fetch Order.KeepsOn (.new s) d)
    (hon : d.session.queue.running = true) {suiteId : String} {p : Nat} {t : Task}
    (hstanding : d.session.queue.standing suiteId = .waiting p t) :
    d.Due fetch t (p - 1 + (d.uncounted t).length) ∧ (d.uncounted t).length ≤ 1 ∧
      (d.Due fetch t (p - 1) ↔ d.uncounted t = []) := by
  have hsound := (Desk.sound_new hs).run hfetch hrun
  have hcrewed : d.Crewed := by
    rcases Desk.off_or_crewed hs hfetch hrun with hoff | hcrewed
    · exact absurd (hoff.running.symm.trans hon) Bool.false_ne_true
    · exact hcrewed
  have hdue := (Desk.awaits_of_standing hsound hstanding).due hsound hfetch hcrewed
  refine ⟨hdue, (List.length_filter_le _ _).trans hcrewed.errands_le, fun h => ?_, fun h => ?_⟩
  · have hcount := hdue.unique hsound hfetch h
    exact List.eq_nil_of_length_eq_zero (by omega)
  · rw [h] at hdue
    exact hdue

/-- A task is paused, another one is taken, and the first is resumed. It is told to be the first,
and has to wait for the run of the other. -/
theorem position_exact_resumed : ∃ (d : Desk) (t : Task), Session.Fetch.Polite Session.hostFetch ∧
    (Session.asking []).Unused ∧
      Desk.Run Session.hostFetch Order.KeepsOn (.new (Session.asking [])) d ∧
      d.session.queue.running = true ∧ d.session.queue.standing "suite_0b63ci" = .waiting 1 t ∧
      d.Due Session.hostFetch t 1 ∧ ¬ d.Due Session.hostFetch t 0 := by
  let c : Chat := ⟨"c", [], none⟩
  let first : Order := .enqueue "suite_0b63ci" c "Daily" .manual none
  let second : Order := .enqueue "suite_1" c "Weekly" .manual none
  let order (d : Desk) (o : Order) : Desk :=
    { d with session := o.carry d.session, log := .ordered o :: d.log }
  let d₁ := order (.new (Session.asking [])) first
  let d₂ := order d₁ (.pause "task_0bxf962abf")
  let d₃ := order d₂ .start
  let d₄ := order d₃ second
  let u : Task := ⟨"task_0ru35awwtq", "suite_1", "Weekly", .pending, 0, "c", 0, .manual, none,
    some c⟩
  let d₅ := ({ d₄ with log := .took d₄.session.queue u :: d₄.log } : Desk).settle 0 u
    (Session.runTask Session.hostFetch 0 u (d₄.taking 0 u))
  let d₆ := order d₅ (.resume "task_0bxf962abf")
  let t : Task := ⟨"task_0bxf962abf", "suite_0b63ci", "Daily", .pending, 0, "c", 0, .manual, none,
    some c⟩
  have hunused : (Session.asking []).Unused := ⟨⟨_, rfl⟩, rfl⟩
  have hqueued : Desk.Step Session.hostFetch (.order first) (.new (Session.asking [])) d₁ :=
    .order first (by decide +kernel)
  have hpaused : Desk.Step Session.hostFetch (.order (.pause "task_0bxf962abf")) d₁ d₂ :=
    .order _ (by decide +kernel)
  have hstarted : Desk.Step Session.hostFetch (.order .start) d₂ d₃ :=
    .order .start (by decide +kernel)
  have hbehind : Desk.Step Session.hostFetch (.order second) d₃ d₄ :=
    .order second (by decide +kernel)
  have hidle : (0, 1000000) ∈ d₄.session.queue.idle := by decide +kernel
  have htaken : Desk.Step Session.hostFetch (.take 0 u) d₄ d₅ := .take hidle (by decide +kernel)
  have hresumed : Desk.Step Session.hostFetch (.order (.resume "task_0bxf962abf")) d₅ d₆ :=
    .order _ (by decide +kernel)
  have hkeeps {o : Order} (ho : o.KeepsOn) : ∀ o', Act.order o = .order o' → o'.KeepsOn :=
    fun _ h => Act.order.inj h ▸ ho
  have hrun : Desk.Run Session.hostFetch Order.KeepsOn (.new (Session.asking [])) d₆ :=
    (((((Relation.ReflTransGen.refl.tail ⟨_, hqueued, hkeeps ⟨nofun, nofun⟩⟩).tail
      ⟨_, hpaused, hkeeps ⟨nofun, nofun⟩⟩).tail
      ⟨_, hstarted, hkeeps ⟨nofun, nofun⟩⟩).tail
      ⟨_, hbehind, hkeeps ⟨nofun, nofun⟩⟩).tail ⟨_, htaken, nofun⟩).tail
      ⟨_, hresumed, hkeeps ⟨nofun, nofun⟩⟩
  have hon : d₆.session.queue.running = true := by decide +kernel
  have hstanding : d₆.session.queue.standing "suite_0b63ci" = .waiting 1 t := by decide +kernel
  have huncounted : (d₆.uncounted t).length = 1 := by decide +kernel
  obtain ⟨hdue, -, hiff⟩ := position_exact Session.polite_hostFetch hunused hrun hon hstanding
  rw [huncounted] at hdue
  refine ⟨d₆, t, Session.polite_hostFetch, hunused, hrun, hon, hstanding, hdue, fun h => ?_⟩
  rw [hiff.mp h] at huncounted
  cases huncounted

end TagLedger
