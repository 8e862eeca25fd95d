import TagLedger.Proofs.Filling
import TagLedger.Proofs.Orders
import TagLedger.Proofs.Turns

/-!
# The queue at work

A desk is a session with the workers of its queue that are at work on a task, and with the analyses
that were asked for without the queue. At any moment somebody gives the queue an order, a worker that
waits for a task takes the next one, one that is at work goes on or is told to give up, an analysis
begins or goes on, or something else changes in the session. Nothing is said about whose turn it is,
nor whether what somebody waits for is there.

However the turns fall, tasks are run in the order in which they were queued, each at most once, and
every one that was taken is either at work or over.

    ids taken  ~  ids at work ++ ids over                                  (Tallies.flight)
    the queue is on, with one worker  →  one run at a time, first come, first served   (queue_safe)
-/

namespace TagLedger

/-! ## The desk -/

/-- A worker at work on a task, and how it goes on. -/
structure Errand where
  worker : Nat
  task : Task
  resume : Signal → Session → Progress Session AnalysisResult

inductive Event where
  /-- A worker took a task from the queue, which was like that. -/
  | took (q : Queue) (t : Task)
  | ended (t : Task) (r : Except Failure AnalysisResult)
  | ordered (o : Order)

structure Desk where
  session : Session
  errands : List Errand
  /-- The analyses under way that were asked for without the queue. -/
  analyses : List (Signal → Session → Progress Session AnalysisResult)
  /-- What happened, the latest first. -/
  log : List Event

/-- An analysis is asked for without the queue. -/
inductive Analysis where
  | analyze (suiteId : String) (c : Chat)
  | run (suiteId : String) (c : Chat)

def Analysis.perform : Analysis → Activity Session AnalysisResult
  | .analyze suiteId c => Session.analyze suiteId c
  | .run suiteId c => Session.run suiteId c

/-- A worker does no more with its task than to run it and to take it out. -/
theorem Session.work_eq (fetch : Session.Fetch) (w : Nat) (t : Task) (s : Session) :
    Session.work fetch w t s = (Session.runTask fetch w t
      { s with queue := s.queue.take w t.id }).attempt fun _ s => .done (s.afterTask w t) (.ok ()) := by
  unfold Session.work
  change Progress.bind (Progress.attempt (Progress.bind
    (Session.runTask fetch w t { s with queue := s.queue.take w t.id }) _) _) _ = _
  induction Session.runTask fetch w t { s with queue := s.queue.take w t.id } with
  | done s r => cases r <;> rfl
  | waiting s wait k ih => exact congrArg _ (funext₂ ih)

namespace Desk

/-- Nobody is at work. -/
def new (s : Session) : Desk := ⟨s, [], [], []⟩

/-- A worker came so far with its task. -/
def settle (d : Desk) (w : Nat) (t : Task) : Progress Session AnalysisResult → Desk
  | .waiting s _ k => { d with session := s, errands := ⟨w, t, k⟩ :: d.errands }
  | .done s r => { d with session := s.afterTask w t, log := .ended t r :: d.log }

/-- An analysis without the queue came so far. -/
def proceed (d : Desk) : Progress Session AnalysisResult → Desk
  | .waiting s _ k => { d with session := s, analyses := k :: d.analyses }
  | .done s _ => { d with session := s }

/-- The session when a worker has a task to run. -/
def taking (d : Desk) (w : Nat) (t : Task) : Session :=
  { d.session with queue := d.session.queue.take w t.id }

/-- How the worker goes on that was waiting. -/
def signal (d : Desk) (w : Nat) : Signal :=
  if w ∈ d.session.queue.asked then .cancel else .proceed

/-- The session when a worker goes on, who need not be told again to give up. -/
def told (d : Desk) (w : Nat) : Session :=
  { d.session with queue := { d.session.queue with
    asked := d.session.queue.asked.filter (· ≠ w) } }

end Desk

/-- Whose turn it is. -/
inductive Act where
  | order (o : Order)
  | take (w : Nat) (t : Task)
  | turn (e : Errand)
  /-- Those who wait for a task look whether there is one. -/
  | look
  /-- It is somebody else's turn. -/
  | aside

namespace Desk

inductive Step (fetch : Session.Fetch) : Act → Desk → Desk → Prop
  /-- The number that was drawn for a task is not that of another task. -/
  | order {d : Desk} (o : Order) (hids : (o.carry d.session).queue.issuedIds.Nodup) :
      Step fetch (.order o) d { d with session := o.carry d.session, log := .ordered o :: d.log }
  | take {d : Desk} {w due : Nat} {t : Task} (hidle : (w, due) ∈ d.session.queue.idle)
      (ht : d.session.nextTask? = some t) :
      Step fetch (.take w t) d
        ({ d with log := .took d.session.queue t :: d.log }.settle w t
          (Session.runTask fetch w t (d.taking w t)))
  | turn {d : Desk} {before later : List Errand} {e : Errand}
      (he : d.errands = before ++ e :: later) :
      Step fetch (.turn e) d ({ d with errands := before ++ later }.settle e.worker e.task
        (e.resume (d.signal e.worker) (d.told e.worker)))
  | look {d : Desk} : Step fetch .look d { d with session := { d.session with
      queue := d.session.queue.look d.session.storage.clock.elapsed } }
  | call {d : Desk} (x : Analysis) : Step fetch .aside d (d.proceed (x.perform d.session))
  | goOn {d : Desk} {before later : List (Signal → Session → Progress Session AnalysisResult)}
      {k : Signal → Session → Progress Session AnalysisResult} (g : Signal)
      (hk : d.analyses = before ++ k :: later) :
      Step fetch .aside d ({ d with analyses := before ++ later }.proceed (k g d.session))
  /-- Anything that is no order and no analysis. Whoever watches the queue may stop doing so. -/
  | other {d : Desk} {t : Session} (watchers : List Watcher)
      (shown : List (List (String × TaskStatus)))
      (hqueue : t.queue = { d.session.queue with watchers := watchers, shown := shown })
      (hbusy : t.analyzer.busy = d.session.analyzer.busy) :
      Step fetch .aside d { d with session := t }

/-- Some step is made, and an order is as it may be. -/
def Next (fetch : Session.Fetch) (orders : Order → Prop) (d d' : Desk) : Prop :=
  ∃ a, Step fetch a d d' ∧ ∀ o, a = .order o → orders o

/-- Any number of steps. -/
abbrev Run (fetch : Session.Fetch) (orders : Order → Prop) : Desk → Desk → Prop :=
  Relation.ReflTransGen (Next fetch orders)

end Desk

/-! ## What stays true -/

/-- The task that was taken. -/
def Event.taken? : Event → Option String
  | .took _ t => some t.id
  | _ => none

/-- The task that is over. -/
def Event.over? : Event → Option String
  | .ended t _ => some t.id
  | _ => none

/-- The queue agrees with who is at work, and on what, and with what happened. -/
structure Tallies (q : Queue) (crew : List (Nat × String)) (log : List Event) : Prop where
  issued : q.issuedIds.Nodup
  queued : q.ids.Sublist q.issuedIds
  taken : (log.filterMap Event.taken?).Nodup
  known : ∀ id ∈ log.filterMap Event.taken?, id ∈ q.issuedIds
  flight : (log.filterMap Event.taken?).Perm (crew.map (·.2) ++ log.filterMap Event.over?)
  processing : ∀ t ∈ q.tasks, t.status = .processing ↔ t.id ∈ crew.map (·.2)
  gone : ∀ id ∈ log.filterMap Event.over?, id ∉ q.ids
  first : ∀ p t, .took p t ∈ log → p.First t
  workers : (q.idle.map (·.1) ++ crew.map (·.1)).Nodup
  hired : ∀ w ∈ q.idle.map (·.1) ++ crew.map (·.1), w < q.hired

namespace Tallies

variable {q q' : Queue} {crew crew' : List (Nat × String)} {log : List Event}

/-- What is not said of a queue may change, and the crew may be listed in another order. -/
theorem congr (h : Tallies q crew log) (htasks : q'.tasks = q.tasks) (hissued : q'.issued = q.issued)
    (hidle : q'.idle.map (·.1) = q.idle.map (·.1)) (hhired : q'.hired = q.hired)
    (hcrew : crew.Perm crew') : Tallies q' crew' log where
  issued := by
    unfold Queue.issuedIds
    rw [hissued]
    exact h.issued
  queued := by
    unfold Queue.ids Queue.issuedIds
    rw [htasks, hissued]
    exact h.queued
  taken := h.taken
  known := by
    unfold Queue.issuedIds
    rw [hissued]
    exact h.known
  flight := h.flight.trans ((hcrew.map _).append_right _)
  processing t ht := (h.processing t (htasks ▸ ht)).trans (hcrew.map _).mem_iff
  gone := by
    unfold Queue.ids
    rw [htasks]
    exact h.gone
  first := h.first
  workers := by
    rw [hidle]
    exact (((hcrew.map _).append_left _).nodup_iff).mp h.workers
  hired w hw := by
    rw [hidle] at hw
    rw [hhired]
    exact h.hired w (((hcrew.map _).append_left _).mem_iff.mpr hw)

theorem nodup_ids (h : Tallies q crew log) : q.ids.Nodup := h.issued.sublist h.queued

/-- A task in the queue that was taken is at work. -/
theorem mem_crew (h : Tallies q crew log) {t : Task} (ht : t ∈ q.tasks)
    (htaken : t.id ∈ log.filterMap Event.taken?) : t.id ∈ crew.map (·.2) := by
  rcases List.mem_append.mp (h.flight.mem_iff.mp htaken) with hcrew | hover
  · exact hcrew
  · exact absurd (List.mem_map_of_mem ht) (h.gone _ hover)

/-- A pending task was never taken. -/
theorem notMem_taken (h : Tallies q crew log) {t : Task} (ht : t ∈ q.tasks)
    (hpending : t.status = .pending) : t.id ∉ log.filterMap Event.taken? := by
  intro htaken
  have hprocessing := (h.processing t ht).mpr (h.mem_crew ht htaken)
  rw [hpending] at hprocessing
  cases hprocessing

theorem mem_taken (h : Tallies q crew log) {id : String} (hid : id ∈ crew.map (·.2)) :
    id ∈ log.filterMap Event.taken? :=
  h.flight.mem_iff.mpr (List.mem_append_left _ hid)

/-- An order is given that hires nobody. -/
theorem ordered (h : Tallies q crew log) (hrenewed : q.Renewed q') (o : Order)
    (hids : q'.issuedIds.Nodup) : Tallies q' crew (.ordered o :: log) := by
  obtain ⟨⟨new, hissued, hsub, htasks⟩, hhired, hidle, -⟩ := hrenewed
  have hissuedIds : q'.issuedIds = q.issuedIds ++ new.map (·.id) := by
    unfold Queue.issuedIds
    rw [hissued, List.map_append]
  have hapart := (List.nodup_append'.mp (hissuedIds ▸ hids)).2.2
  refine ⟨hids, ?_, h.taken, ?_, h.flight, ?_, ?_, ?_, ?_, ?_⟩
  · rw [hissuedIds]
    exact hsub.trans (h.queued.append_right _)
  · intro id hid
    rw [hissuedIds]
    exact List.mem_append_left _ (h.known id hid)
  · intro u hu
    rcases htasks u hu with ⟨hnew, hpending⟩ | ⟨v, hv, hid, hiff⟩
    · have hfresh : u.id ∉ crew.map (·.2) := fun hcrew =>
        hapart (h.known _ (h.mem_taken hcrew)) (List.mem_map_of_mem hnew)
      simp [hpending, hfresh]
    · rw [hiff, h.processing v hv, hid]
  · intro id hover hid
    rcases List.mem_append.mp (hsub.subset hid) with hold | hnew
    · exact h.gone id hover hold
    · have htaken := h.flight.mem_iff.mpr (List.mem_append_right _ hover)
      exact hapart (h.known id htaken) hnew
  · intro p t ht
    exact h.first p t (by simpa using ht)
  · exact h.workers.sublist (hidle.append_right _)
  · intro w hw
    rw [hhired]
    exact h.hired w ((hidle.append_right _).subset hw)

/-- The queue is turned on. -/
theorem started (h : Tallies q crew log) (now : Nat) :
    Tallies (q.start now) crew (.ordered .start :: log) := by
  have hlog : Tallies q crew (.ordered .start :: log) :=
    { h with first := fun p t ht => h.first p t (by simpa using ht) }
  unfold Queue.start
  split
  · exact hlog
  have hfresh : q.hired ∉ q.idle.map (·.1) ++ crew.map (·.1) := fun hw => (h.hired _ hw).false
  have hperm : ((q.idle ++ [(q.hired, now + Queue.lookTime)]).map (·.1) ++ crew.map (·.1)).Perm
      (q.hired :: (q.idle.map (·.1) ++ crew.map (·.1))) := by
    simp
  refine { hlog with workers := ?_, hired := ?_ }
  · exact hperm.nodup_iff.mpr (List.nodup_cons.mpr ⟨hfresh, h.workers⟩)
  · intro w hw
    rcases List.mem_cons.mp (hperm.mem_iff.mp hw) with rfl | hw
    · exact Nat.lt_succ_self _
    · exact Nat.lt_succ_of_lt (h.hired w hw)

/-- Those who wait for a task look for one. -/
theorem looked (h : Tallies q crew log) (now : Nat) : Tallies (q.look now) crew log := by
  have hnames : ((q.look now).idle.map (·.1)).Sublist (q.idle.map (·.1)) := by
    unfold Queue.look
    rw [List.map_map]
    exact List.filter_sublist.map _
  exact { h with
    workers := h.workers.sublist (hnames.append_right _)
    hired := fun w hw => h.hired w ((hnames.append_right _).subset hw) }

/-- The task that is taken next was queued before all others that are pending. -/
theorem first_of_next? (h : Tallies q crew log) {t : Task} (ht : q.next? = some t) : q.First t := by
  obtain ⟨hmem, hpending⟩ := Queue.mem_of_next? ht
  obtain ⟨-, before, later, htasks, hbefore⟩ := List.find?_eq_some_iff_append.mp ht
  refine ⟨hmem, hpending, fun u hu hu' => ?_⟩
  rw [htasks] at hu
  rcases List.mem_append.mp hu with hu | hu
  · simpa [hu'] using hbefore u hu
  rcases List.mem_cons.mp hu with rfl | hu
  · exact le_rfl
  -- The later one is found in what was queued after the first one.
  have hsub : (t.id :: later.map (·.id)).Sublist q.issuedIds := by
    have hids : q.ids = before.map (·.id) ++ t.id :: later.map (·.id) := by
      unfold Queue.ids
      rw [htasks, List.map_append, List.map_cons]
    exact (hids ▸ List.sublist_append_right _ _).trans h.queued
  obtain ⟨old, new, hissued, hold, hnew⟩ := List.cons_sublist_iff.mp hsub
  have hu : u.id ∉ old := fun hold' =>
    (List.nodup_append'.mp (hissued ▸ h.issued)).2.2 hold' (hnew.subset (List.mem_map_of_mem hu))
  unfold Queue.place
  rw [hissued, List.idxOf_append_of_mem hold, List.idxOf_append_of_notMem hu]
  exact (List.idxOf_lt_length_of_mem hold).le.trans (Nat.le_add_right _ _)

theorem takes (h : Tallies q crew log) {w due : Nat} (hidle : (w, due) ∈ q.idle) {t : Task}
    (ht : q.next? = some t) : Tallies (q.take w t.id) ((w, t.id) :: crew) (.took q t :: log) := by
  obtain ⟨hmem, hpending⟩ := Queue.mem_of_next? ht
  obtain ⟨shown, hshown⟩ := Queue.notify_eq
    { q.setStatus t.id .processing with idle := q.idle.filter (·.1 ≠ w) }
  have hfresh := h.notMem_taken hmem hpending
  have hids := q.ids_setStatus t.id .processing
  have hnames : (q.idle.filter (·.1 ≠ w)).map (·.1) = (q.idle.map (·.1)).erase w := by
    rw [(List.nodup_append'.mp h.workers).1.erase_eq_filter, List.filter_map]
    refine congrArg _ (List.filter_congr fun v _ => ?_)
    by_cases hv : v.1 = w <;> simp [hv]
  have hworkers : ((q.idle.filter (·.1 ≠ w)).map (·.1) ++ ((w, t.id) :: crew).map (·.1)).Perm
      (q.idle.map (·.1) ++ crew.map (·.1)) := by
    have hmem : w ∈ q.idle.map (·.1) := List.mem_map_of_mem hidle
    rw [hnames, List.map_cons]
    exact List.perm_middle.trans ((List.perm_cons_erase hmem).symm.append_right _)
  unfold Queue.take
  rw [hshown]
  refine ⟨h.issued, hids ▸ h.queued, ?_, ?_, ?_, ?_, ?_, ?_, ?_, ?_⟩
  · exact List.nodup_cons.mpr ⟨hfresh, h.taken⟩
  · intro id hid
    rcases List.mem_cons.mp hid with rfl | hid
    · exact h.queued.subset (List.mem_map_of_mem hmem)
    · exact h.known id hid
  · exact h.flight.cons t.id
  · intro u hu
    obtain ⟨v, hv, rfl⟩ := List.mem_map.mp hu
    have hold := h.processing v hv
    by_cases hid : v.id = t.id
    · simp [hid]
    · simp [hid, hold]
  · intro id hid
    exact hids ▸ h.gone id hid
  · intro p u hu
    rcases List.mem_cons.mp hu with hu | hu
    · obtain ⟨rfl, rfl⟩ := Event.took.inj hu
      exact h.first_of_next? ht
    · exact h.first p u hu
  · exact hworkers.nodup_iff.mpr h.workers
  · exact fun v hv => h.hired v (hworkers.mem_iff.mp hv)

/-- A task leaves the queue when its run is over. -/
theorem left {w : Nat} {t : Task} (h : Tallies q ((w, t.id) :: crew) log)
    (r : Except Failure AnalysisResult) : Tallies (q.leave t.id) crew (.ended t r :: log) := by
  obtain ⟨shown, hshown⟩ := Queue.notify_eq
    { q with tasks := q.tasks.filter (·.id != t.id), flying := none }
  have hsub : (q.tasks.filter (·.id != t.id)).Sublist q.tasks := List.filter_sublist
  have hcrew : (crew.map (·.1)).Sublist (((w, t.id) :: crew).map (·.1)) :=
    (List.sublist_cons_self _ _).map _
  unfold Queue.leave
  rw [hshown]
  refine ⟨h.issued, (hsub.map _).trans h.queued, h.taken, h.known, ?_, ?_, ?_, ?_, ?_, ?_⟩
  · exact h.flight.trans List.perm_middle.symm
  · intro u hu
    obtain ⟨hu, hid⟩ := List.mem_filter.mp hu
    rw [h.processing u hu, List.map_cons, List.mem_cons, or_iff_right (by simpa using hid)]
  · intro id hover hid
    rcases List.mem_cons.mp hover with rfl | hover
    · obtain ⟨u, hu, hut⟩ := List.mem_map.mp hid
      simp [hut] at hu
    · exact h.gone id hover ((hsub.map _).subset hid)
  · exact fun p u hu => h.first p u (by simpa using hu)
  · exact h.workers.sublist (hcrew.append_left _)
  · exact fun v hv => h.hired v ((hcrew.append_left _).subset hv)

/-- A worker that is not at work waits for a task, or ends. -/
theorem rested (h : Tallies q crew log) {w : Nat} (now : Nat) (hhired : w < q.hired)
    (hfresh : w ∉ q.idle.map (·.1) ++ crew.map (·.1)) : Tallies (q.rest w now) crew log := by
  unfold Queue.rest
  split
  · have hperm : ((q.idle ++ [(w, now + Queue.lookTime)]).map (·.1) ++ crew.map (·.1)).Perm
        (w :: (q.idle.map (·.1) ++ crew.map (·.1))) := by
      simp
    refine { h with workers := ?_, hired := fun v hv => ?_ }
    · exact hperm.nodup_iff.mpr (List.nodup_cons.mpr ⟨hfresh, h.workers⟩)
    · rcases List.mem_cons.mp (hperm.mem_iff.mp hv) with rfl | hv
      · exact hhired
      · exact h.hired v hv
  · exact h

/-- A task is over, and its worker goes on. -/
theorem ended {w : Nat} {t : Task} (h : Tallies q ((w, t.id) :: crew) log)
    (r : Except Failure AnalysisResult) (now : Nat) :
    Tallies ((q.leave t.id).rest w now) crew (.ended t r :: log) := by
  obtain ⟨shown, hshown⟩ := Queue.notify_eq
    { q with tasks := q.tasks.filter (·.id != t.id), flying := none }
  have hsame : (q.leave t.id).idle = q.idle ∧ (q.leave t.id).hired = q.hired := by
    unfold Queue.leave
    rw [hshown]
    exact ⟨rfl, rfl⟩
  have hperm : (q.idle.map (·.1) ++ ((w, t.id) :: crew).map (·.1)).Perm
      (w :: (q.idle.map (·.1) ++ crew.map (·.1))) := List.perm_middle
  refine (h.left r).rested now ?_ ?_
  · rw [hsame.2]
    exact h.hired w (hperm.mem_iff.mpr List.mem_cons_self)
  · rw [hsame.1]
    exact (List.nodup_cons.mp (hperm.nodup_iff.mp h.workers)).1

end Tallies

/-- The workers at work, and the tasks they are at work on. -/
def Desk.crew (d : Desk) : List (Nat × String) := d.errands.map fun e => (e.worker, e.task.id)

theorem Desk.crew_workers (d : Desk) : d.crew.map (·.1) = d.errands.map (·.worker) := by
  unfold crew
  rw [List.map_map]
  rfl

theorem Desk.crew_tasks (d : Desk) : d.crew.map (·.2) = d.errands.map (·.task.id) := by
  unfold crew
  rw [List.map_map]
  rfl

/-- A worker goes on with its task as it is said that workers do, and waits at some place. -/
def Errand.At (m : Option Stage) (e : Errand) : Prop :=
  ∀ g s, Follows (ErrandTurn e.worker) m g s (e.resume g s)

/-- The same of an analysis that was asked for without the queue. -/
def AnalysisAt (m : Stage) (k : Signal → Session → Progress Session AnalysisResult) : Prop :=
  ∀ g s, Follows AnalysisTurn m g s (k g s)

theorem Analysis.follows_perform (x : Analysis) (s : Session) :
    Follows AnalysisTurn .called .proceed s (x.perform s) := by
  cases x with
  | analyze suiteId c => exact Session.follows_analyze suiteId c s
  | run suiteId c => exact Session.follows_run suiteId c s

/-- At a desk the queue agrees with everything, and all who wait do so somewhere. -/
structure Desk.Sound (d : Desk) : Prop where
  tallies : Tallies d.session.queue d.crew d.log
  errands : ∀ e ∈ d.errands, ∃ m, e.At m
  analyses : ∀ k ∈ d.analyses, ∃ m, AnalysisAt m k

/-- An analysis leaves the queue alone. -/
theorem AnalysisTurn.queue_eq {m : Stage} {g : Signal} {x y : Session}
    {o : Halt Stage AnalysisResult} (h : AnalysisTurn m g x o y) : y.queue = x.queue := by
  cases h with
  | rejected => rfl
  | begins _ _ hqueue => exact hqueue
  | goesOn _ hqueue => exact hqueue
  | stores _ _ hqueue => exact hqueue
  | givesUp m => cases m <;> rfl

/-- A worker tells the queue nothing but whether its run can be given up, and what it ended with. -/
theorem ErrandTurn.queue_eq {w : Nat} {m : Option Stage} {g : Signal} {x y : Session}
    {o : Halt (Option Stage) AnalysisResult} (h : ErrandTurn w m g x o y) :
    ∃ flying result, y.queue = { x.queue with flying := flying, lastResult := result } := by
  cases h with
  | fetches hqueue => exact ⟨_, _, hqueue⟩
  | misses hqueue => exact ⟨_, _, hqueue⟩
  | launches hqueue => exact ⟨_, _, hqueue⟩
  | waits h => exact ⟨_, _, h.queue_eq⟩
  | fails h => exact ⟨_, _, h.queue_eq⟩
  | @ends m g x y r h =>
    refine ⟨x.queue.flying, some r, ?_⟩
    rw [← h.queue_eq]
    rfl

theorem next?_of_nextTask? {s : Session} {t : Task} (h : s.nextTask? = some t) :
    s.queue.next? = some t := by
  unfold Session.nextTask? at h
  split at h
  · exact h
  · cases h

namespace Desk.Sound

variable {d : Desk}

/-- A worker that is counted among those at work comes so far with its task. -/
theorem settle {w : Nat} {t : Task} {x : Session} {m : Option Stage} {g : Signal}
    {p : Progress Session AnalysisResult} (herrands : ∀ e ∈ d.errands, ∃ m, e.At m)
    (hanalyses : ∀ k ∈ d.analyses, ∃ m, AnalysisAt m k)
    (htallies : Tallies x.queue ((w, t.id) :: d.crew) d.log)
    (hp : Follows (ErrandTurn w) m g x p) : (d.settle w t p).Sound := by
  cases hp with
  | @done _ _ _ y r hturn =>
    obtain ⟨flying, result, hqueue⟩ := hturn.queue_eq
    refine ⟨Tallies.ended ?_ r _, herrands, hanalyses⟩
    rw [hqueue]
    exact htallies.congr rfl rfl rfl rfl (.refl _)
  | @waits _ n _ _ y wait k hturn hk =>
    obtain ⟨flying, result, hqueue⟩ := hturn.queue_eq
    refine ⟨?_, fun e he => ?_, hanalyses⟩
    · change Tallies y.queue _ _
      rw [hqueue]
      exact htallies.congr rfl rfl rfl rfl (.refl _)
    · rcases List.mem_cons.mp he with rfl | he
      · exact ⟨n, hk⟩
      · exact herrands e he

theorem proceed {x : Session} {m : Stage} {g : Signal} {p : Progress Session AnalysisResult}
    (h : d.Sound) (hqueue : x.queue = d.session.queue) (hp : Follows AnalysisTurn m g x p) :
    (d.proceed p).Sound := by
  cases hp with
  | @done _ _ _ y r hturn =>
    refine ⟨?_, h.errands, h.analyses⟩
    change Tallies y.queue _ _
    rw [hturn.queue_eq, hqueue]
    exact h.tallies
  | @waits _ n _ _ y wait k hturn hk =>
    refine ⟨?_, h.errands, fun k' hk' => ?_⟩
    · change Tallies y.queue _ _
      rw [hturn.queue_eq, hqueue]
      exact h.tallies
    · rcases List.mem_cons.mp hk' with rfl | hk'
      · exact ⟨n, hk⟩
      · exact h.analyses k' hk'

theorem step {fetch : Session.Fetch} (hfetch : fetch.Polite) {a : Act} {d' : Desk} (h : d.Sound)
    (hstep : Step fetch a d d') : d'.Sound := by
  have htallies := h.tallies
  cases hstep with
  | order o hids =>
    refine ⟨?_, h.errands, h.analyses⟩
    by_cases ho : o = .start
    · subst ho
      exact htallies.started _
    · exact htallies.ordered (o.renewed ho htallies.nodup_ids) o hids
  | @take _ w due t hidle ht =>
    exact settle h.errands h.analyses (htallies.takes hidle (next?_of_nextTask? ht))
      (Session.follows_runTask hfetch w t (d.taking w t))
  | @turn _ before later e he =>
    have hperm : d.errands.Perm (e :: (before ++ later)) := he ▸ List.perm_middle
    obtain ⟨m, hm⟩ := h.errands e (hperm.mem_iff.mpr List.mem_cons_self)
    refine settle (fun e' he' => h.errands e' ?_) h.analyses ?_ (hm _ _)
    · exact hperm.mem_iff.mpr (List.mem_cons_of_mem _ he')
    · exact htallies.congr rfl rfl rfl rfl (hperm.map _)
  | look =>
    exact ⟨htallies.looked _, h.errands, h.analyses⟩
  | call x => exact h.proceed rfl (x.follows_perform d.session)
  | @goOn _ before later k g hk =>
    have hperm : d.analyses.Perm (k :: (before ++ later)) := hk ▸ List.perm_middle
    obtain ⟨m, hm⟩ := h.analyses k (hperm.mem_iff.mpr List.mem_cons_self)
    have hrest : ({ d with analyses := before ++ later } : Desk).Sound :=
      ⟨htallies, h.errands, fun k' hk' =>
        h.analyses k' (hperm.mem_iff.mpr (List.mem_cons_of_mem _ hk'))⟩
    exact hrest.proceed rfl (hm g d.session)
  | @other _ t watchers shown hqueue hbusy =>
    refine ⟨?_, h.errands, h.analyses⟩
    change Tallies t.queue _ _
    rw [hqueue]
    exact htallies.congr rfl rfl rfl rfl (.refl _)

theorem run {fetch : Session.Fetch} (hfetch : fetch.Polite) {orders : Order → Prop} {d' : Desk}
    (h : d.Sound) (hrun : Run fetch orders d d') : d'.Sound := by
  induction hrun with
  | refl => exact h
  | tail _ hnext ih =>
    obtain ⟨a, hstep, -⟩ := hnext
    exact ih.step hfetch hstep

end Desk.Sound

namespace Desk.Sound

variable {d : Desk} {before later : List Errand} {e f : Errand}

theorem nodup_workers (h : d.Sound) : (d.errands.map (·.worker)).Nodup :=
  d.crew_workers ▸ (List.nodup_append'.mp h.tallies.workers).2.1

/-- A worker is at work on one task. -/
theorem worker_inj (h : d.Sound) (he : e ∈ d.errands) (hf : f ∈ d.errands)
    (hworker : e.worker = f.worker) : e = f :=
  List.inj_on_of_nodup_map h.nodup_workers he hf hworker

/-- A task has one worker at work on it. -/
theorem task_inj (h : d.Sound) (he : e ∈ d.errands) (hf : f ∈ d.errands)
    (htask : e.task.id = f.task.id) : e = f := by
  have hflight := h.tallies.flight.nodup_iff.mp h.tallies.taken
  have hnodup : (d.errands.map (·.task.id)).Nodup :=
    d.crew_tasks ▸ (List.nodup_append'.mp hflight).1
  exact List.inj_on_of_nodup_map hnodup he hf htask

/-- Whoever is at work besides somebody is another worker. -/
theorem worker_ne (h : d.Sound) (he : d.errands = before ++ e :: later)
    (hf : f ∈ before ++ later) : f.worker ≠ e.worker := by
  have hperm : d.errands.Perm (e :: (before ++ later)) := he ▸ List.perm_middle
  have hcons := (hperm.map (·.worker)).nodup_iff.mp h.nodup_workers
  exact fun heq => (List.nodup_cons.mp hcons).1 (List.mem_map.mpr ⟨f, hf, heq⟩)

/-- Who waits for a task is not at work. -/
theorem notMem_idle (h : d.Sound) (he : e ∈ d.errands) {due : Nat} :
    (e.worker, due) ∉ d.session.queue.idle := by
  intro hidle
  have hcrew : e.worker ∈ d.crew.map (·.1) := d.crew_workers ▸ List.mem_map_of_mem he
  exact (List.nodup_append'.mp h.tallies.workers).2.2 (List.mem_map_of_mem hidle) hcrew

/-- Who is at work on a task is not done with it. -/
theorem notMem_log (h : d.Sound) (he : e ∈ d.errands) (r : Except Failure AnalysisResult) :
    .ended e.task r ∉ d.log := by
  intro hlog
  have hnodup := h.tallies.flight.nodup_iff.mp h.tallies.taken
  have hcrew : e.task.id ∈ d.crew.map (·.2) := d.crew_tasks ▸ List.mem_map_of_mem he
  exact (List.nodup_append'.mp hnodup).2.2 hcrew (List.mem_filterMap.mpr ⟨_, hlog, rfl⟩)

end Desk.Sound

/-! ## One worker -/

namespace Queue

@[simp] theorem hired_notify (q : Queue) : q.notify.hired = q.hired := by
  unfold notify
  split <;> rfl

@[simp] theorem hired_take (q : Queue) (w : Nat) (id : String) : (q.take w id).hired = q.hired := by
  simp [take, setStatus]

@[simp] theorem hired_leave (q : Queue) (id : String) : (q.leave id).hired = q.hired := by
  simp [leave]

@[simp] theorem hired_rest (q : Queue) (w now : Nat) : (q.rest w now).hired = q.hired := by
  unfold rest
  split <;> rfl

end Queue

namespace Desk

variable {d d' : Desk} {fetch : Session.Fetch}

/-- A worker that came so far with its task told the queue only so much, and may be done with it. -/
theorem queue_settle {w : Nat} {t : Task} {x : Session} {m : Option Stage} {g : Signal}
    {p : Progress Session AnalysisResult} (hp : Follows (ErrandTurn w) m g x p) :
    ∃ q flying result, q = { x.queue with flying := flying, lastResult := result } ∧
      ((d.settle w t p).session.queue = q ∨
        ∃ now, (d.settle w t p).session.queue = (q.leave t.id).rest w now) := by
  cases hp with
  | done hturn =>
    obtain ⟨flying, result, hqueue⟩ := hturn.queue_eq
    exact ⟨_, flying, result, hqueue, .inr ⟨_, rfl⟩⟩
  | waits hturn =>
    obtain ⟨flying, result, hqueue⟩ := hturn.queue_eq
    exact ⟨_, flying, result, hqueue, .inl rfl⟩

theorem hired_settle {w : Nat} {t : Task} {x : Session} {m : Option Stage} {g : Signal}
    {p : Progress Session AnalysisResult} (hp : Follows (ErrandTurn w) m g x p) :
    (d.settle w t p).session.queue.hired = x.queue.hired := by
  obtain ⟨q, flying, result, rfl, hqueue | ⟨now, hqueue⟩⟩ := queue_settle (d := d) (t := t) hp <;>
    simp [hqueue]

theorem queue_proceed {x : Session} {m : Stage} {g : Signal} {p : Progress Session AnalysisResult}
    (hp : Follows AnalysisTurn m g x p) : (d.proceed p).session.queue = x.queue := by
  cases hp with
  | done hturn => exact hturn.queue_eq
  | waits hturn => exact hturn.queue_eq

/-- Nobody is hired by anything but by turning the queue on. -/
theorem Sound.hired_eq (h : d.Sound) (hfetch : fetch.Polite) {a : Act} (hstep : Step fetch a d d')
    (ha : a ≠ .order .start) : d'.session.queue.hired = d.session.queue.hired := by
  cases hstep with
  | order o hids =>
    exact (o.renewed (fun ho => ha (ho ▸ rfl)) h.tallies.nodup_ids).hired
  | @take _ w due t =>
    rw [hired_settle (Session.follows_runTask hfetch w t (d.taking w t))]
    exact Queue.hired_take _ _ _
  | @turn _ before later e he =>
    obtain ⟨m, hm⟩ := h.errands e (by simp [he])
    rw [hired_settle (hm _ _)]
    rfl
  | look => rfl
  | call x => exact congrArg _ (queue_proceed (x.follows_perform d.session))
  | @goOn _ before later k g hk =>
    obtain ⟨m, hm⟩ := h.analyses k (by simp [hk])
    exact congrArg _ (queue_proceed (hm g d.session))
  | other watchers shown hqueue hbusy => simp [hqueue]

theorem Sound.hired_run (h : d.Sound) (hfetch : fetch.Polite)
    (hrun : Run fetch Order.Calm d d') : d'.session.queue.hired = d.session.queue.hired := by
  induction hrun with
  | refl => rfl
  | tail hrun hnext ih =>
    obtain ⟨a, hstep, hcalm⟩ := hnext
    refine ((h.run hfetch hrun).hired_eq hfetch hstep ?_).trans ih
    rintro rfl
    exact hcalm .start rfl

end Desk

/-- The queue was not used yet, and no analysis is under way. -/
def Session.Unused (s : Session) : Prop :=
  (∃ snapshotMode, s.queue = .empty snapshotMode) ∧ s.analyzer.busy = false

namespace Desk

theorem sound_new {s : Session} (hs : s.Unused) : (Desk.new s).Sound := by
  obtain ⟨⟨snapshotMode, hqueue⟩, -⟩ := hs
  refine ⟨?_, List.forall_mem_nil _, List.forall_mem_nil _⟩
  change Tallies s.queue [] []
  rw [hqueue]
  constructor <;> simp [Queue.issuedIds, Queue.ids, Queue.empty]

/-- The queue has been turned on. -/
def opened (s : Session) : Desk :=
  { Desk.new s with session := Order.start.carry s, log := [.ordered .start] }

theorem sound_opened {s : Session} (hs : s.Unused) : (Desk.opened s).Sound :=
  ⟨(sound_new hs).tallies.started _, List.forall_mem_nil _, List.forall_mem_nil _⟩

theorem hired_opened {s : Session} (hs : s.Unused) :
    (Desk.opened s).session.queue.hired = 1 := by
  obtain ⟨⟨snapshotMode, hqueue⟩, -⟩ := hs
  change (s.queue.start _).hired = 1
  rw [hqueue]
  rfl

/-- Tasks are run one at a time, first come, first served, and each at most once. -/
structure Safe (d : Desk) : Prop where
  one_run : d.errands.length ≤ 1
  one_processing : (d.session.queue.tasks.filter (·.status = .processing)).length ≤ 1
  /-- A task in the queue is marked as long as it is run. -/
  processing : ∀ t ∈ d.session.queue.tasks,
    t.status = .processing ↔ ∃ e ∈ d.errands, e.task.id = t.id
  first : ∀ q t, .took q t ∈ d.log → q.First t
  once : (d.log.filterMap Event.taken?).Nodup
  /-- What was taken is run or over. -/
  flight : (d.log.filterMap Event.taken?).Perm
    (d.errands.map (·.task.id) ++ d.log.filterMap Event.over?)
  /-- What is over is not in the queue, whatever the run ended with. -/
  gone : ∀ t r, .ended t r ∈ d.log → t.id ∉ d.session.queue.ids

/-- One worker was hired, so that at most one is at work. -/
theorem Sound.safe {d : Desk} (h : d.Sound) (hone : d.session.queue.hired ≤ 1) : d.Safe := by
  have htallies := h.tallies
  have hcrew : d.crew.length ≤ 1 := by
    have hnodup : (d.crew.map (·.1)).Nodup := (List.nodup_append'.mp htallies.workers).2.1
    have hsub : d.crew.map (·.1) ⊆ [0] := fun w hw => by
      have := htallies.hired w (List.mem_append_right _ hw)
      simp
      omega
    simpa using (List.subperm_of_subset hnodup hsub).length_le
  refine ⟨by simpa [crew] using hcrew, ?_, fun t ht => ?_, htallies.first, htallies.taken, ?_, ?_⟩
  · let running := d.session.queue.tasks.filter (·.status = .processing)
    have hnodup : (running.map (·.id)).Nodup :=
      htallies.nodup_ids.sublist (List.filter_sublist.map _)
    have hsub : running.map (·.id) ⊆ d.crew.map (·.2) := fun id hid => by
      obtain ⟨t, ht, rfl⟩ := List.mem_map.mp hid
      obtain ⟨ht, hstatus⟩ := List.mem_filter.mp ht
      exact (htallies.processing t ht).mp (by simpa using hstatus)
    have hlength := (List.subperm_of_subset hnodup hsub).length_le
    rw [List.length_map, List.length_map] at hlength
    exact hlength.trans hcrew
  · rw [htallies.processing t ht, crew_tasks]
    simp
  · rw [← crew_tasks]
    exact htallies.flight
  · intro t r ht
    exact htallies.gone t.id (List.mem_filterMap.mpr ⟨_, ht, rfl⟩)

end Desk

/-- However the worker's turns fall among orders and analyses. -/
theorem queue_safe {fetch : Session.Fetch} (hfetch : fetch.Polite) {s : Session} (hs : s.Unused)
    {d : Desk} (hrun : Desk.Run fetch Order.Calm (.opened s) d) : d.Safe := by
  have hsound := Desk.sound_opened hs
  have hhired := hsound.hired_run hfetch hrun
  rw [Desk.hired_opened hs] at hhired
  exact (hsound.run hfetch hrun).safe hhired.le

/-- A task is queued, taken and not over yet. -/
theorem queue_safe_taking : ∃ d : Desk, Session.Fetch.Polite Session.hostFetch ∧
    (Session.asking []).Unused ∧ d.errands.length = 1 ∧ d.session.queue.isProcessing = true ∧
      Desk.Run Session.hostFetch Order.Calm (.opened (Session.asking [])) d ∧ d.Safe := by
  let c : Chat := ⟨"c", [], none⟩
  let o : Order := .enqueue "suite_0b63ci" c "Daily" .manual none
  let t : Task := ⟨"task_0bxf962abf", "suite_0b63ci", "Daily", .pending, 0, "c", 0, .manual, none,
    some c⟩
  let d₀ := Desk.opened (Session.asking [])
  let d₁ : Desk := { d₀ with session := o.carry d₀.session, log := .ordered o :: d₀.log }
  have hqueued : d₀.Step Session.hostFetch (.order o) d₁ := .order o (by decide +kernel)
  have hidle : (0, 1000000) ∈ d₁.session.queue.idle := by decide +kernel
  have htaken : Desk.Step Session.hostFetch (.take 0 t) d₁ _ :=
    .take hidle (by decide +kernel)
  have hrun : Desk.Run Session.hostFetch Order.Calm d₀ _ :=
    (Relation.ReflTransGen.refl.tail ⟨_, hqueued, fun _ h => Act.order.inj h ▸ trivial⟩).tail
      ⟨_, htaken, nofun⟩
  have hunused : (Session.asking []).Unused := ⟨⟨_, rfl⟩, rfl⟩
  exact ⟨_, Session.polite_hostFetch, hunused, by decide +kernel, by decide +kernel, hrun,
    queue_safe Session.polite_hostFetch hunused hrun⟩

end TagLedger
