import TagLedger.Proofs.Operations
import TagLedger.Session.Sending

/-!
# Orders

What may be asked of the queue, and what comes of it. Whatever it is, nobody but the worker marks a
task as being run, or takes that mark away.

    o ≠ .start → s.queue.Renewed (o.carry s).queue                      (Order.renewed)
-/

namespace TagLedger

/-! ## Orders -/

/-- What is asked of the queue. -/
inductive Order where
  | enqueue (suiteId : String) (c : Chat) (name : String) (cause : TriggerKind)
      (useSnapshot : Option Bool)
  | remove (id : String)
  | removeSuite (suiteId : String)
  | clear
  | pause (id : String)
  | resume (id : String)
  | abort
  | start
  /-- The queue is turned off. Whoever did that waits for the worker. -/
  | stop
  /-- Whoever turned the queue off waits no longer. -/
  | stopped

namespace Order

def perform : Order → Activity Session Unit
  | .enqueue suiteId c name cause useSnapshot =>
    (Session.enqueue suiteId c name cause useSnapshot).silent
  | .remove id => (Activity.ofAction (Session.askQueue (·.remove id))).silent
  | .removeSuite suiteId => (Activity.ofAction (Session.askQueue (·.removeSuite suiteId))).silent
  | .clear => .ofAction (Session.onQueue Queue.clear)
  | .pause id => (Activity.ofAction (Session.askQueue (·.pause id))).silent
  | .resume id => (Activity.ofAction (Session.askQueue (·.resume id))).silent
  | .abort => (Activity.ofAction (Session.askQueue Queue.abort)).silent
  | .start => Session.start
  | .stop => .ofAction (Session.onQueue Queue.stop)
  | .stopped => .ofAction (Session.onQueue fun q => { q with latest := none })

/-- The session after an order. -/
def carry (o : Order) (s : Session) : Session := (ended o.perform s).2

/-- Neither turns the queue on nor off. -/
def Calm : Order → Prop
  | .start | .stop | .stopped => False
  | _ => True

/-- Takes tasks out of the queue. -/
def Withdraws : Order → Prop
  | .remove _ | .removeSuite _ | .clear => True
  | _ => False

/-- May ask for a run to be given up. -/
def GivesUp : Order → Prop
  | .remove _ | .removeSuite _ | .clear | .abort | .stop => True
  | _ => False

end Order

namespace Queue

/-- The identifiers of the tasks in the queue. -/
def ids (q : Queue) : List String := q.tasks.map (·.id)

/-- The identifiers of all tasks that were ever queued. -/
def issuedIds (q : Queue) : List String := q.issued.map (·.id)

/-- How many tasks were queued before this one. -/
def place (q : Queue) (t : Task) : Nat := q.issuedIds.idxOf t.id

/-- A task is pending, and no pending task was queued earlier. -/
def First (q : Queue) (t : Task) : Prop :=
  t ∈ q.tasks ∧ t.status = .pending ∧
    ∀ u ∈ q.tasks, u.status = .pending → q.place t ≤ q.place u

/-! ### What an order does to the queue -/

theorem notify_eq (q : Queue) : ∃ shown, q.notify = { q with shown := shown } := by
  unfold notify
  split
  · exact ⟨_, rfl⟩
  · exact ⟨_, rfl⟩

theorem abort_eq (q : Queue) : ∃ asked, q.abort.2 = { q with asked := asked } ∧
    ∀ w, w ∈ asked ↔ w ∈ q.asked ∨ q.flying = some w := by
  unfold abort
  split
  · next hflying => exact ⟨q.asked, rfl, by simp [hflying]⟩
  · next v hflying => exact ⟨v :: q.asked, rfl, by simp [hflying, or_comm, eq_comm]⟩

theorem ids_setStatus (q : Queue) (id : String) (status : TaskStatus) :
    (q.setStatus id status).ids = q.ids := by
  unfold ids setStatus
  rw [List.map_map]
  refine List.map_congr_left fun t _ => ?_
  dsimp only [Function.comp_apply]
  split <;> rfl

/-- What an order leaves that hires nobody: tasks are queued at the end, taken out, paused and resumed,
but whether one is at work is not touched. A worker may be sent away. -/
structure Renewed (q q' : Queue) : Prop where
  tasks : ∃ new : List Task, q'.issued = q.issued ++ new ∧ q'.ids.Sublist (q.ids ++ new.map (·.id)) ∧
    ∀ u ∈ q'.tasks, u ∈ new ∧ u.status = .pending ∨
      ∃ v ∈ q.tasks, v.id = u.id ∧ (u.status = .processing ↔ v.status = .processing)
  hired : q'.hired = q.hired
  idle : (q'.idle.map (·.1)).Sublist (q.idle.map (·.1))
  flying : q'.flying = q.flying

namespace Renewed

variable {q : Queue}

/-- No task is queued, and nobody is hired. -/
theorem ofTasks {q' : Queue} (hissued : q'.issued = q.issued) (hids : q'.ids.Sublist q.ids)
    (htasks : ∀ u ∈ q'.tasks, ∃ v ∈ q.tasks, v.id = u.id ∧
      (u.status = .processing ↔ v.status = .processing))
    (hhired : q'.hired = q.hired) (hidle : (q'.idle.map (·.1)).Sublist (q.idle.map (·.1)))
    (hflying : q'.flying = q.flying) : Renewed q q' where
  tasks := by
    refine ⟨[], ?_, ?_, fun u hu => .inr (htasks u hu)⟩
    · rw [hissued, List.append_nil]
    · rwa [List.map_nil, List.append_nil]
  hired := hhired
  idle := hidle
  flying := hflying

/-- Only what is not said of tasks and workers changes. -/
theorem same (q : Queue) (running news : Bool) (latest : Option Nat) (asked : List Nat)
    (shown : List (List (String × TaskStatus))) : Renewed q { q with
      running := running, news := news, latest := latest, asked := asked, shown := shown } :=
  .ofTasks rfl (.refl _) (fun u hu => ⟨u, hu, rfl, .rfl⟩) rfl (.refl _) rfl

theorem enqueue (q : Queue) {t : Task} (ht : t.status = .pending) : Renewed q (q.enqueue t) := by
  obtain ⟨shown, hshown⟩ := notify_eq { q with
    tasks := q.tasks ++ [t], issued := q.issued ++ [t], news := true }
  unfold Queue.enqueue
  rw [hshown]
  refine ⟨⟨[t], rfl, ?_, fun u hu => ?_⟩, rfl, .refl _, rfl⟩
  · simp [ids]
  · rcases List.mem_append.mp hu with hu | hu
    · exact .inr ⟨u, hu, rfl, .rfl⟩
    · obtain rfl := List.mem_singleton.mp hu
      exact .inl ⟨hu, ht⟩

/-- Tasks are taken out. -/
theorem filter (q : Queue) (p : Task → Bool) (asked : List Nat) :
    Renewed q (notify { q with asked := asked, tasks := q.tasks.filter p }) := by
  obtain ⟨shown, hshown⟩ := notify_eq { q with asked := asked, tasks := q.tasks.filter p }
  rw [hshown]
  refine .ofTasks rfl (List.filter_sublist.map _) (fun u hu => ?_) rfl (.refl _) rfl
  exact ⟨u, List.mem_of_mem_filter hu, rfl, .rfl⟩

theorem remove (q : Queue) (id : String) : Renewed q (q.remove id).2 := by
  unfold Queue.remove
  cases q.find? id with
  | none => exact .same q _ _ _ _ _
  | some t =>
    dsimp only
    split
    · obtain ⟨asked, hasked, -⟩ := q.abort_eq
      rw [hasked]
      exact .filter q _ asked
    · exact .filter q _ q.asked

theorem clear (q : Queue) : Renewed q q.clear := by
  obtain ⟨asked, hasked, -⟩ := q.abort_eq
  unfold Queue.clear
  rw [hasked, show ([] : List Task) = q.tasks.filter fun _ => false by simp]
  exact .filter q _ asked

theorem removeSuite (q : Queue) (suiteId : String) : Renewed q (q.removeSuite suiteId).2 := by
  unfold Queue.removeSuite
  cases q.ofSuite? suiteId with
  | none => exact .same q _ _ _ _ _
  | some t => exact .remove q t.id

/-- A task that is not at work is given a status that does not say so. -/
theorem setStatus (q : Queue) {id : String} {status : TaskStatus} (news : Bool)
    (hstatus : status ≠ .processing) (hid : ∀ t ∈ q.tasks, t.id = id → t.status ≠ .processing) :
    Renewed q (notify { q.setStatus id status with news := news }) := by
  obtain ⟨shown, hshown⟩ := notify_eq { q.setStatus id status with news := news }
  rw [hshown]
  refine .ofTasks rfl ?_ (fun u hu => ?_) rfl (.refl _) rfl
  · exact (q.ids_setStatus id status).symm ▸ .refl _
  · obtain ⟨v, hv, rfl⟩ := List.mem_map.mp hu
    refine ⟨v, hv, ?_, ?_⟩
    · split <;> rfl
    · split
      · next he => simp [hstatus, hid v hv (eq_of_beq he)]
      · exact .rfl

end Renewed

/-- In a queue whose tasks have different identifiers, the one that is found is the only one. -/
theorem eq_of_find? {q : Queue} (hnodup : q.ids.Nodup) {id : String} {t u : Task}
    (ht : q.find? id = some t) (hu : u ∈ q.tasks) (hid : u.id = id) : u = t := by
  have hfound : t.id = id := by simpa using List.find?_some ht
  exact List.inj_on_of_nodup_map hnodup hu (List.mem_of_find?_eq_some ht) (hid.trans hfound.symm)

theorem Renewed.pause {q : Queue} (hnodup : q.ids.Nodup) (id : String) :
    Renewed q (q.pause id).2 := by
  unfold Queue.pause
  cases hfind : q.find? id with
  | none => exact .same q _ _ _ _ _
  | some t =>
    dsimp only
    split
    · exact .same q _ _ _ _ _
    · next hstatus =>
      refine .setStatus q q.news nofun fun u hu hid => ?_
      rwa [eq_of_find? hnodup hfind hu hid]

theorem Renewed.resume {q : Queue} (hnodup : q.ids.Nodup) (id : String) :
    Renewed q (q.resume id).2 := by
  unfold Queue.resume
  cases hfind : q.find? id with
  | none => exact .same q _ _ _ _ _
  | some t =>
    dsimp only
    split
    · next hstatus =>
      refine .setStatus q true nofun fun u hu hid => ?_
      rw [eq_of_find? hnodup hfind hu hid, hstatus]
      exact nofun
    · exact .same q _ _ _ _ _

theorem stop_eq (q : Queue) : ∃ asked idle,
    q.stop = { q with running := false, asked := asked, idle := idle } ∧ idle.Sublist q.idle := by
  obtain ⟨asked, hasked, -⟩ := q.abort_eq
  unfold stop
  rw [hasked]
  dsimp only
  split
  · exact ⟨_, _, rfl, .refl _⟩
  · split
    · exact ⟨_, _, rfl, List.filter_sublist⟩
    · exact ⟨_, _, rfl, .refl _⟩

theorem Renewed.stop (q : Queue) : Renewed q q.stop := by
  obtain ⟨asked, idle, hstop, hidle⟩ := q.stop_eq
  rw [hstop]
  exact .ofTasks rfl (.refl _) (fun u hu => ⟨u, hu, rfl, .rfl⟩) rfl (hidle.map _) rfl

end Queue

/-- A task is queued with the number that is drawn for it. -/
theorem Order.carry_enqueue (suiteId : String) (c : Chat) (name : String) (cause : TriggerKind)
    (useSnapshot : Option Bool) (s : Session) :
    ∃ storage t, (Order.enqueue suiteId c name cause useSnapshot).carry s =
      { s with storage := storage, queue := s.queue.enqueue t } ∧ t.status = .pending :=
  ⟨(exec (Storage.newId "task" 9) s.storage).2, _, rfl, rfl⟩

theorem Order.renewed {o : Order} {s : Session} (ho : o ≠ .start) (hnodup : s.queue.ids.Nodup) :
    s.queue.Renewed (o.carry s).queue := by
  cases o with
  | enqueue suiteId c name cause useSnapshot =>
    obtain ⟨storage, t, hcarry, ht⟩ := carry_enqueue suiteId c name cause useSnapshot s
    rw [hcarry]
    exact .enqueue s.queue ht
  | remove id => exact .remove s.queue id
  | removeSuite suiteId => exact .removeSuite s.queue suiteId
  | clear => exact .clear s.queue
  | pause id => exact .pause hnodup id
  | resume id => exact .resume hnodup id
  | abort =>
    obtain ⟨asked, hasked, -⟩ := s.queue.abort_eq
    change s.queue.Renewed s.queue.abort.2
    rw [hasked]
    exact .same s.queue _ _ _ _ _
  | start => exact absurd rfl ho
  | stop => exact .stop s.queue
  | stopped => exact .same s.queue _ _ _ _ _

/-- An order is no analysis. -/
theorem Order.analyzer (o : Order) (s : Session) : (o.carry s).analyzer = s.analyzer := by
  cases o with
  | enqueue suiteId c name cause useSnapshot =>
    obtain ⟨storage, t, hcarry, -⟩ := carry_enqueue suiteId c name cause useSnapshot s
    rw [hcarry]
  | remove id => rfl
  | removeSuite suiteId => rfl
  | clear => rfl
  | pause id => rfl
  | resume id => rfl
  | abort => rfl
  | start => rfl
  | stop => rfl
  | stopped => rfl

/-! ## Leaving and giving up -/

namespace Queue

variable {q : Queue} {w : Nat}

@[simp] theorem asked_notify (q : Queue) : q.notify.asked = q.asked := by
  unfold notify
  split <;> rfl

@[simp] theorem asked_setStatus (q : Queue) (id : String) (status : TaskStatus) :
    (q.setStatus id status).asked = q.asked := rfl

@[simp] theorem ids_notify (q : Queue) : q.notify.ids = q.ids := by
  simp [ids]

@[simp] theorem issuedIds_notify (q : Queue) : q.notify.issuedIds = q.issuedIds := by
  unfold notify
  split <;> rfl

@[simp] theorem issuedIds_take (q : Queue) (w : Nat) (id : String) :
    (q.take w id).issuedIds = q.issuedIds := by
  unfold take
  rw [issuedIds_notify]
  rfl

@[simp] theorem ids_take (q : Queue) (w : Nat) (id : String) : (q.take w id).ids = q.ids := by
  unfold take
  rw [ids_notify]
  exact q.ids_setStatus id .processing

@[simp] theorem tasks_abort (q : Queue) : q.abort.2.tasks = q.tasks := by
  unfold abort
  split <;> rfl

@[simp] theorem mem_asked_abort : w ∈ q.abort.2.asked ↔ w ∈ q.asked ∨ q.flying = some w := by
  obtain ⟨asked, hasked, hmem⟩ := q.abort_eq
  rw [hasked]
  exact hmem w

/-- A run is given up only if it can be. -/
theorem asked_of_remove {id : String} (h : w ∈ (q.remove id).2.asked) :
    w ∈ q.asked ∨ q.flying = some w := by
  unfold remove at h
  split at h
  · exact .inl h
  · rw [asked_notify] at h
    dsimp only at h
    split at h
    · exact mem_asked_abort.mp h
    · exact .inl h

/-- Who takes out a task that is run asks for the run to be given up. -/
theorem asked_remove {t : Task} (hfind : q.find? t.id = some t) (hstatus : t.status = .processing)
    (hflying : q.flying = some w) : w ∈ (q.remove t.id).2.asked := by
  unfold remove
  rw [hfind]
  simp [hstatus, hflying]

theorem asked_subset_abort (q : Queue) : q.asked ⊆ q.abort.2.asked :=
  fun _ hw => mem_asked_abort.mpr (.inl hw)

theorem asked_subset_remove (q : Queue) (id : String) : q.asked ⊆ (q.remove id).2.asked := by
  unfold remove
  split
  · exact .refl _
  · rw [asked_notify]
    dsimp only
    split
    · exact q.asked_subset_abort
    · exact .refl _

/-- Nothing but the task with an identifier is taken out by it. -/
theorem eq_of_gone {id id' : String} (hid : id ∈ q.ids) (hgone : id ∉ (q.remove id').2.ids) :
    id = id' := by
  by_contra hne
  refine hgone ?_
  obtain ⟨t, ht, rfl⟩ := List.mem_map.mp hid
  unfold remove
  split
  · exact hid
  · rw [ids_notify]
    refine List.mem_map_of_mem (List.mem_filter.mpr ⟨?_, by simpa using hne⟩)
    split
    · rwa [tasks_abort]
    · exact ht

/-- A task that is run is not taken out without its run being given up, if that run is in flight. -/
theorem asked_of_gone {id id' : String} (hid : id ∈ q.ids) (hgone : id ∉ (q.remove id').2.ids)
    (hstatus : ∀ t ∈ q.tasks, t.id = id → t.status = .processing) (hflying : q.flying = some w) :
    w ∈ (q.remove id').2.asked := by
  obtain rfl := eq_of_gone hid hgone
  cases hfind : q.find? id with
  | none =>
    unfold remove at hgone
    rw [hfind] at hgone
    exact absurd hid hgone
  | some t =>
    have ht : t.id = id := by simpa using List.find?_some hfind
    subst ht
    exact asked_remove hfind (hstatus t (List.mem_of_find?_eq_some hfind) rfl) hflying

end Queue

namespace Order

variable {o : Order} {s : Session} {w : Nat}

theorem flying_carry (hnodup : s.queue.ids.Nodup) (o : Order) :
    (o.carry s).queue.flying = s.queue.flying := by
  by_cases ho : o = .start
  · subst ho
    change (s.queue.start _).flying = _
    unfold Queue.start
    split <;> rfl
  · exact (o.renewed ho hnodup).flying

/-- What is in the queue was there or is new. -/
theorem queued_carry (hnodup : s.queue.ids.Nodup) (o : Order) :
    ∃ new : List String, (o.carry s).queue.issuedIds = s.queue.issuedIds ++ new ∧
      (o.carry s).queue.ids ⊆ s.queue.ids ++ new := by
  by_cases ho : o = .start
  · subst ho
    refine ⟨[], ?_⟩
    change (s.queue.start _).issuedIds = _ ∧ (s.queue.start _).ids ⊆ _
    unfold Queue.start
    split <;> simp [Queue.issuedIds, Queue.ids]
  · obtain ⟨new, hissued, hsub, -⟩ := (o.renewed ho hnodup).tasks
    refine ⟨new.map (·.id), ?_, hsub.subset⟩
    unfold Queue.issuedIds
    rw [hissued, List.map_append]

/-- Nothing else takes a task out. -/
theorem ids_carry (ho : ¬ o.Withdraws) : s.queue.ids ⊆ (o.carry s).queue.ids := by
  have hstatus (id : String) (status : TaskStatus) (news : Bool) : s.queue.ids ⊆
      (Queue.notify { s.queue.setStatus id status with news := news }).ids := by
    rw [Queue.ids_notify]
    exact (s.queue.ids_setStatus id status).symm ▸ List.Subset.refl _
  cases o with
  | enqueue suiteId c name cause useSnapshot =>
    obtain ⟨storage, t, hcarry, -⟩ := carry_enqueue suiteId c name cause useSnapshot s
    rw [hcarry]
    simp [Queue.ids]
  | remove id => exact absurd trivial ho
  | removeSuite suiteId => exact absurd trivial ho
  | clear => exact absurd trivial ho
  | pause id =>
    change _ ⊆ (s.queue.pause id).2.ids
    unfold Queue.pause
    split
    · exact .refl _
    · split
      · exact .refl _
      · exact hstatus id .paused s.queue.news
  | resume id =>
    change _ ⊆ (s.queue.resume id).2.ids
    unfold Queue.resume
    split
    · exact .refl _
    · split
      · exact hstatus id .pending true
      · exact .refl _
  | abort =>
    change _ ⊆ s.queue.abort.2.ids
    simp [Queue.ids]
  | start =>
    change _ ⊆ (s.queue.start _).ids
    unfold Queue.start
    split <;> exact .refl _
  | stop =>
    obtain ⟨asked, idle, hstop, -⟩ := s.queue.stop_eq
    change _ ⊆ s.queue.stop.ids
    rw [hstop]
    exact .refl _
  | stopped => exact .refl _

/-- Nobody is asked to give up but by an order, and no run is but the one in flight, unless the queue
is turned off. -/
theorem asked_carry (h : w ∈ (o.carry s).queue.asked) :
    w ∈ s.queue.asked ∨ o.GivesUp ∧ (s.queue.flying = some w ∨ o = .stop) := by
  have hremove {id : String} (h : w ∈ (s.queue.remove id).2.asked) :
      w ∈ s.queue.asked ∨ True ∧ (s.queue.flying = some w ∨ o = .stop) :=
    (Queue.asked_of_remove h).imp_right fun hflying => ⟨trivial, .inl hflying⟩
  have habort (h : w ∈ s.queue.abort.2.asked) :
      w ∈ s.queue.asked ∨ True ∧ (s.queue.flying = some w ∨ o = .stop) :=
    (Queue.mem_asked_abort.mp h).imp_right fun hflying => ⟨trivial, .inl hflying⟩
  cases o with
  | enqueue suiteId c name cause useSnapshot =>
    obtain ⟨storage, t, hcarry, -⟩ := carry_enqueue suiteId c name cause useSnapshot s
    rw [hcarry] at h
    exact .inl (by simpa [Queue.enqueue] using h)
  | remove id => exact hremove h
  | removeSuite suiteId =>
    change w ∈ (s.queue.removeSuite suiteId).2.asked at h
    unfold Queue.removeSuite at h
    split at h
    · exact .inl h
    · exact hremove h
  | clear =>
    change w ∈ s.queue.clear.asked at h
    unfold Queue.clear at h
    rw [Queue.asked_notify] at h
    exact habort h
  | pause id =>
    change w ∈ (s.queue.pause id).2.asked at h
    unfold Queue.pause at h
    split at h
    · exact .inl h
    · split at h
      · exact .inl h
      · exact .inl (by simpa using h)
  | resume id =>
    change w ∈ (s.queue.resume id).2.asked at h
    unfold Queue.resume at h
    split at h
    · exact .inl h
    · split at h
      · exact .inl (by simpa using h)
      · exact .inl h
  | abort => exact habort h
  | start =>
    change w ∈ (s.queue.start _).asked at h
    unfold Queue.start at h
    split at h <;> exact .inl h
  | stop => exact .inr ⟨trivial, .inr rfl⟩
  | stopped => exact .inl h

theorem asked_subset_carry (o : Order) (s : Session) : s.queue.asked ⊆ (o.carry s).queue.asked := by
  cases o with
  | enqueue suiteId c name cause useSnapshot =>
    obtain ⟨storage, t, hcarry, -⟩ := carry_enqueue suiteId c name cause useSnapshot s
    rw [hcarry]
    simp [Queue.enqueue]
  | remove id => exact s.queue.asked_subset_remove id
  | removeSuite suiteId =>
    change _ ⊆ (s.queue.removeSuite suiteId).2.asked
    unfold Queue.removeSuite
    split
    · exact .refl _
    · exact s.queue.asked_subset_remove _
  | clear =>
    change _ ⊆ s.queue.clear.asked
    unfold Queue.clear
    rw [Queue.asked_notify]
    exact s.queue.asked_subset_abort
  | pause id =>
    change _ ⊆ (s.queue.pause id).2.asked
    unfold Queue.pause
    split
    · exact .refl _
    · split <;> simp
  | resume id =>
    change _ ⊆ (s.queue.resume id).2.asked
    unfold Queue.resume
    split
    · exact .refl _
    · split <;> simp
  | abort => exact s.queue.asked_subset_abort
  | start =>
    change _ ⊆ (s.queue.start _).asked
    unfold Queue.start
    split <;> exact .refl _
  | stop =>
    change _ ⊆ s.queue.stop.asked
    unfold Queue.stop
    dsimp only
    have habort := s.queue.asked_subset_abort
    split
    · exact habort
    · split
      · exact habort
      · exact List.subset_cons_of_subset _ habort
  | stopped => exact .refl _

/-- Who takes out a task that is run asks for the run in flight to be given up. -/
theorem asked_of_gone {id : String} (ho : o.Withdraws) (hid : id ∈ s.queue.ids)
    (hgone : id ∉ (o.carry s).queue.ids)
    (hstatus : ∀ t ∈ s.queue.tasks, t.id = id → t.status = .processing)
    (hflying : s.queue.flying = some w) : w ∈ (o.carry s).queue.asked := by
  cases o with
  | remove id' => exact Queue.asked_of_gone hid hgone hstatus hflying
  | removeSuite suiteId =>
    change id ∉ (s.queue.removeSuite suiteId).2.ids at hgone
    change w ∈ (s.queue.removeSuite suiteId).2.asked
    unfold Queue.removeSuite at hgone ⊢
    split at hgone
    · exact absurd hid hgone
    · exact Queue.asked_of_gone hid hgone hstatus hflying
  | clear =>
    change w ∈ s.queue.clear.asked
    unfold Queue.clear
    rw [Queue.asked_notify]
    exact Queue.mem_asked_abort.mpr (.inr hflying)
  | _ => cases ho

end Order

end TagLedger
