import TagLedger.Proofs.Rejecting

/-!
# Tasks that are withdrawn

A task can be taken out of the queue at any time. If it was not taken by a worker it is never run. If
a worker is at work on it, the run in flight is asked to be given up; that is the one which was
started last, if it is still under way. A worker that waits for the chat of its task has no run in
flight yet. It is not told anything, goes on, and stores what the model answers.

    withdrawn, nobody at work on it, or its run in flight  →  nothing of it is stored   (Desk.Withdrawn)
    the run in flight is that of a worker                  →  that worker waits for it  (Desk.Launched)
-/

namespace TagLedger

/-! ## The run in flight -/

theorem ErrandTurn.flying_cases {w : Nat} {m n : Option Stage} {g : Signal} {x y : Session}
    (h : ErrandTurn w m g x (.waits n) y) :
    y.queue.flying = x.queue.flying ∧ (m ≠ none → n ≠ none) ∨
      y.queue.flying = some w ∧ n ≠ none := by
  cases h with
  | fetches hqueue => exact .inl ⟨congrArg _ hqueue, fun h => absurd rfl h⟩
  | launches hqueue => exact .inr ⟨congrArg Queue.flying hqueue, nofun⟩
  | waits h => exact .inl ⟨congrArg _ h.queue_eq, fun _ => nofun⟩

/-- Who is asked to give up a run gives it up at once, and only locks change. -/
theorem ErrandTurn.gives_up {w : Nat} {m : Stage} {x y : Session}
    {o : Halt (Option Stage) AnalysisResult} (h : ErrandTurn w (some m) .cancel x o y) :
    o = .ends (.error .cancelled) ∧
      ∃ held granted, y.storage = x.storage.lined held granted := by
  cases h with
  | waits h => cases h
  | ends h => cases h
  | fails h =>
    cases h with
    | givesUp _ _ held granted =>
      refine ⟨rfl, held, granted, ?_⟩
      cases m <;> rfl

namespace Desk

variable {d d' : Desk} {fetch : Session.Fetch}

/-- The run in flight is that of a worker who is at work, and has been started. -/
def Launched (d : Desk) : Prop :=
  ∀ w, d.session.queue.flying = some w → ∃ e ∈ d.errands, e.worker = w ∧ ∃ m, e.At (some m)

theorem Launched.settle {w : Nat} {t : Task} {x : Session} {m : Option Stage} {g : Signal}
    {p : Progress Session AnalysisResult}
    (h : ∀ v, x.queue.flying = some v → v ≠ w → ∃ e ∈ d.errands, e.worker = v ∧ ∃ m, e.At (some m))
    (hm : x.queue.flying = some w → m ≠ none) (hp : Follows (ErrandTurn w) m g x p) :
    (d.settle w t p).Launched := by
  intro v hv
  cases hp with
  | @done _ _ _ y r hturn =>
    have hnone : (y.afterTask w t).queue.flying = none := by
      unfold Session.afterTask Queue.rest Queue.leave
      split <;> (unfold Queue.notify; split <;> rfl)
    cases hnone.symm.trans hv
  | @waits _ n _ _ y wait k hturn hk =>
    have hnew (hn : n ≠ none) : ∃ e ∈ (⟨w, t, k⟩ : Errand) :: d.errands,
        e.worker = w ∧ ∃ m, e.At (some m) := by
      obtain ⟨n, rfl⟩ := Option.ne_none_iff_exists'.mp hn
      exact ⟨_, List.mem_cons_self, rfl, n, hk⟩
    change y.queue.flying = some v at hv
    rcases hturn.flying_cases with ⟨hsame, hn⟩ | ⟨hw, hn⟩
    · rw [hsame] at hv
      by_cases hvw : v = w
      · subst hvw
        exact hnew (hn (hm hv))
      · obtain ⟨e, he, hworker, hat⟩ := h v hv hvw
        exact ⟨e, List.mem_cons_of_mem _ he, hworker, hat⟩
    · obtain rfl := Option.some.inj (hw.symm.trans hv)
      exact hnew hn

theorem errands_proceed (p : Progress Session AnalysisResult) :
    (d.proceed p).errands = d.errands := by
  cases p <;> rfl

theorem Launched.step (hsound : d.Sound) (hfetch : fetch.Polite) {a : Act} (h : d.Launched)
    (hstep : Step fetch a d d') : d'.Launched := by
  cases hstep with
  | order o hids =>
    exact fun w hw => h w ((o.flying_carry hsound.tallies.nodup_ids).symm.trans hw)
  | @take _ w due t hidle ht =>
    have hflying : (d.taking w t).queue.flying = d.session.queue.flying := by
      unfold taking Queue.take Queue.notify
      dsimp only
      split <;> rfl
    refine settle (x := d.taking w t) (fun v hv _ => h v (hflying.symm.trans hv)) (fun hw => ?_)
      (Session.follows_runTask hfetch w t (d.taking w t))
    obtain ⟨e, he, rfl, -⟩ := h w (hflying.symm.trans hw)
    exact absurd hidle (hsound.notMem_idle he)
  | @turn _ before later e he =>
    have hmem : e ∈ d.errands := by simp [he]
    have hothers v (hv : d.session.queue.flying = some v) (hne : v ≠ e.worker) :
        ∃ f ∈ before ++ later, f.worker = v ∧ ∃ m, f.At (some m) := by
      obtain ⟨f, hf, rfl, hat⟩ := h v hv
      have hperm : d.errands.Perm (e :: (before ++ later)) := he ▸ List.perm_middle
      rcases List.mem_cons.mp (hperm.mem_iff.mp hf) with rfl | hf
      · exact absurd rfl hne
      · exact ⟨f, hf, rfl, hat⟩
    obtain ⟨m, hm, hstarted⟩ : ∃ m, e.At m ∧
        (d.session.queue.flying = some e.worker → m ≠ none) := by
      by_cases hflying : d.session.queue.flying = some e.worker
      · obtain ⟨f, hf, hworker, m, hm⟩ := h _ hflying
        obtain rfl := hsound.worker_inj hf hmem hworker
        exact ⟨some m, hm, fun _ => nofun⟩
      · obtain ⟨m, hm⟩ := hsound.errands e hmem
        exact ⟨m, hm, fun hw => absurd hw hflying⟩
    exact settle (x := d.told e.worker) hothers hstarted (hm _ _)
  | look => exact h
  | call x =>
    intro w hw
    rw [queue_proceed (x.follows_perform d.session)] at hw
    rw [errands_proceed]
    exact h w hw
  | @goOn _ before later k g hk =>
    intro w hw
    obtain ⟨m, hm⟩ := hsound.analyses k (by simp [hk])
    rw [queue_proceed (hm g d.session)] at hw
    rw [errands_proceed]
    exact h w hw
  | other watchers shown hqueue hbusy =>
    intro w hw
    exact h w (by simpa [hqueue] using hw)

theorem launched_new {s : Session} (hs : s.Unused) : (Desk.new s).Launched := by
  obtain ⟨⟨snapshotMode, hqueue⟩, -⟩ := hs
  intro w hw
  change s.queue.flying = _ at hw
  rw [hqueue] at hw
  cases hw

theorem Launched.run {orders : Order → Prop} (hsound : d.Sound) (hfetch : fetch.Polite)
    (h : d.Launched) (hrun : Run fetch orders d d') : d'.Launched := by
  induction hrun with
  | refl => exact h
  | tail hrun hnext ih =>
    obtain ⟨a, hstep, -⟩ := hnext
    exact ih.step (hsound.run hfetch hrun) hfetch hstep

/-! ## Out of the queue for good -/

/-- A task is out of the queue, and whoever is at work on it is to give up its run. -/
structure Withdrawn (d : Desk) (id : String) : Prop where
  gone : id ∉ d.session.queue.ids
  known : id ∈ d.session.queue.issuedIds
  givenUp : ∀ e ∈ d.errands, e.task.id = id →
    e.worker ∈ d.session.queue.asked ∧ ∃ m, e.At (some m)

/-- A step does nothing for a task: it is not taken, and if it is its worker's turn, the run is given
up, and what is stored stays as it is but for the locks. -/
structure Spares (d : Desk) (a : Act) (d' : Desk) (id : String) : Prop where
  untaken : ∀ w t, a = .take w t → t.id ≠ id
  givenUp : ∀ e, a = .turn e → e.task.id = id →
    d'.log = .ended e.task (.error .cancelled) :: d.log ∧
      ∃ held granted, d'.session.storage = d.session.storage.lined held granted

theorem queued_settle {w : Nat} {t : Task} {x : Session} {m : Option Stage} {g : Signal}
    {p : Progress Session AnalysisResult} (hp : Follows (ErrandTurn w) m g x p) :
    (d.settle w t p).session.queue.issuedIds = x.queue.issuedIds ∧
      (d.settle w t p).session.queue.ids ⊆ x.queue.ids := by
  obtain ⟨q, flying, result, hq, hqueue | ⟨now, hqueue⟩⟩ := queue_settle (d := d) (t := t) hp
  · rw [hqueue, hq]
    exact ⟨rfl, .refl _⟩
  · have hids : (q.leave t.id).ids ⊆ q.ids := by
      unfold Queue.leave
      rw [Queue.ids_notify]
      exact (List.filter_sublist.map _).subset
    have hissued : (q.leave t.id).issuedIds = q.issuedIds := by
      unfold Queue.leave
      exact Queue.issuedIds_notify _
    rw [hq] at hids hissued
    rw [hqueue, hq]
    unfold Queue.rest
    split <;> exact ⟨hissued, hids⟩

theorem Withdrawn.settle {w : Nat} {t : Task} {x : Session} {m : Option Stage} {g : Signal}
    {p : Progress Session AnalysisResult} {id : String} (hgone : id ∉ x.queue.ids)
    (hknown : id ∈ x.queue.issuedIds)
    (hgivenUp : ∀ e ∈ d.errands, e.task.id = id → e.worker ∈ x.queue.asked ∧ ∃ m, e.At (some m))
    (hp : Follows (ErrandTurn w) m g x p) (hdone : t.id = id → ∃ y r, p = .done y r) :
    (d.settle w t p).Withdrawn id := by
  obtain ⟨hissued, hids⟩ := queued_settle (d := d) (t := t) hp
  refine ⟨fun h => hgone (hids h), hissued ▸ hknown, fun e he hid => ?_⟩
  rw [asked_settle hp]
  cases p with
  | done y r => exact hgivenUp e he hid
  | waiting y wait k =>
    rcases List.mem_cons.mp he with rfl | he
    · obtain ⟨y', r, hp'⟩ := hdone hid
      cases hp'
    · exact hgivenUp e he hid

/-- Whoever is at work on a task that is withdrawn is done with it at once. -/
theorem Withdrawn.turn {id : String} (h : d.Withdrawn id) {e : Errand} (he : e ∈ d.errands)
    (hid : e.task.id = id) : ∃ y held granted, y.storage = d.session.storage.lined held granted ∧
      e.resume (d.signal e.worker) (d.told e.worker) = .done y (.error .cancelled) := by
  obtain ⟨hasked, m, hm⟩ := h.givenUp e he hid
  have hsignal : d.signal e.worker = .cancel := if_pos hasked
  have hfollows := hm (d.signal e.worker) (d.told e.worker)
  rw [hsignal] at hfollows ⊢
  generalize e.resume .cancel (d.told e.worker) = p at hfollows
  cases hfollows with
  | done hturn =>
    obtain ⟨hr, held, granted, hstorage⟩ := hturn.gives_up
    obtain rfl := Halt.ends.inj hr
    exact ⟨_, held, granted, hstorage, rfl⟩
  | waits hturn => cases hturn.gives_up.1

theorem Withdrawn.step (hsound : d.Sound) (hfetch : fetch.Polite) {a : Act} {id : String}
    (h : d.Withdrawn id) (hstep : Step fetch a d d') : d'.Withdrawn id := by
  cases hstep with
  | order o hids =>
    obtain ⟨new, hissued, hsub⟩ := o.queued_carry hsound.tallies.nodup_ids
    refine ⟨fun hid => ?_, ?_, fun e he hid => ?_⟩
    · rcases List.mem_append.mp (hsub hid) with hold | hnew
      · exact h.gone hold
      · exact (List.nodup_append'.mp (hissued ▸ hids)).2.2 h.known hnew
    · rw [hissued]
      exact List.mem_append_left _ h.known
    · exact (h.givenUp e he hid).imp_left fun hasked => o.asked_subset_carry _ hasked
  | @take _ w due t hidle ht =>
    have hasked : (d.taking w t).queue.asked = d.session.queue.asked := by
      simp [taking, Queue.take]
    have htask : t.id ≠ id := fun htask => h.gone (htask ▸ List.mem_map_of_mem
      (Queue.mem_of_next? (next?_of_nextTask? ht)).1)
    refine settle (x := d.taking w t) ?_ ?_ (fun e he hid => ?_)
      (Session.follows_runTask hfetch w t (d.taking w t)) fun hid => absurd hid htask
    · exact (Queue.ids_take _ _ _).symm ▸ h.gone
    · exact (Queue.issuedIds_take _ _ _).symm ▸ h.known
    · rw [hasked]
      exact h.givenUp e he hid
  | @turn _ before later e he =>
    have hmem : e ∈ d.errands := by simp [he]
    have hperm : d.errands.Perm (e :: (before ++ later)) := he ▸ List.perm_middle
    obtain ⟨m, hm⟩ := hsound.errands e hmem
    refine settle (x := d.told e.worker) h.gone h.known (fun f hf hid => ?_) (hm _ _) fun hid => ?_
    · refine (h.givenUp f (hperm.mem_iff.mpr (List.mem_cons_of_mem _ hf)) hid).imp_left ?_
      exact fun hasked => List.mem_filter.mpr ⟨hasked, by simpa using hsound.worker_ne he hf⟩
    · obtain ⟨y, -, -, -, hdone⟩ := h.turn hmem hid
      exact ⟨y, _, hdone⟩
  | look => exact ⟨h.gone, h.known, h.givenUp⟩
  | call x =>
    have hqueue := queue_proceed (d := d) (x.follows_perform d.session)
    exact ⟨hqueue ▸ h.gone, hqueue ▸ h.known, fun e he hid =>
      hqueue ▸ h.givenUp e (errands_proceed _ ▸ he) hid⟩
  | @goOn _ before later k g hk =>
    obtain ⟨m, hm⟩ := hsound.analyses k (by simp [hk])
    let rest : Desk := { d with analyses := before ++ later }
    have hqueue := queue_proceed (d := rest) (hm g d.session)
    exact ⟨hqueue ▸ h.gone, hqueue ▸ h.known, fun e he hid =>
      hqueue ▸ h.givenUp e (errands_proceed (d := rest) _ ▸ he) hid⟩
  | @other _ t watchers shown hqueue hbusy =>
    have hids : t.queue.ids = d.session.queue.ids := by simp [Queue.ids, hqueue]
    have hissued : t.queue.issuedIds = d.session.queue.issuedIds := by
      simp [Queue.issuedIds, hqueue]
    have hasked : t.queue.asked = d.session.queue.asked := by simp [hqueue]
    exact ⟨hids ▸ h.gone, hissued ▸ h.known, fun e he hid => hasked ▸ h.givenUp e he hid⟩

theorem Withdrawn.run {orders : Order → Prop} (hsound : d.Sound) (hfetch : fetch.Polite)
    {id : String} (h : d.Withdrawn id) (hrun : Run fetch orders d d') : d'.Withdrawn id := by
  induction hrun with
  | refl => exact h
  | tail hrun hnext ih =>
    obtain ⟨a, hstep, -⟩ := hnext
    exact ih.step (hsound.run hfetch hrun) hfetch hstep

theorem Withdrawn.spares {a : Act} {id : String} (h : d.Withdrawn id)
    (hstep : Step fetch a d d') : Spares d a d' id := by
  refine ⟨?_, ?_⟩
  · rintro w t rfl htask
    cases hstep with
    | take hidle ht =>
      exact h.gone (htask ▸ List.mem_map_of_mem (Queue.mem_of_next? (next?_of_nextTask? ht)).1)
  · rintro e rfl hid
    cases hstep with
    | turn he =>
      obtain ⟨y, held, granted, hstorage, hdone⟩ := h.turn (by simp [he]) hid
      rw [hdone]
      exact ⟨rfl, held, granted, hstorage⟩

/-! ## Withdrawing -/

/-- What comes of a task that an order takes out of the queue. -/
structure Withdrawal (fetch : Session.Fetch) (d d₁ : Desk) (id : String) : Prop where
  /-- Nobody was at work on it, or its run was in flight. -/
  final : (∀ e ∈ d.errands, e.task.id = id → d.session.queue.flying = some e.worker) →
    ∀ orders d₂, Run fetch orders d₁ d₂ → ∀ a d₃, Step fetch a d₂ d₃ → Spares d₂ a d₃ id
  /-- Somebody at work on it whose run is not in flight is not told. -/
  unnoticed : ∀ e ∈ d.errands, e.task.id = id → d.session.queue.flying ≠ some e.worker →
    e ∈ d₁.errands ∧ d₁.signal e.worker = d.signal e.worker

/-- An order that takes a task out has the run of it given up that is in flight. -/
theorem withdrawn_of_order (hsound : d.Sound) (hlaunched : d.Launched) {o : Order}
    (ho : o.Withdraws) {id : String} (hid : id ∈ d.session.queue.ids)
    (hgone : id ∉ (o.carry d.session).queue.ids)
    (hflying : ∀ e ∈ d.errands, e.task.id = id → d.session.queue.flying = some e.worker) :
    ({ d with session := o.carry d.session, log := .ordered o :: d.log } : Desk).Withdrawn id := by
  have htallies := hsound.tallies
  obtain ⟨new, hissued, -⟩ := o.queued_carry htallies.nodup_ids
  refine ⟨hgone, ?_, fun e he htask => ?_⟩
  · rw [hissued]
    exact List.mem_append_left _ (htallies.queued.subset hid)
  obtain ⟨f, hf, hworker, m, hat⟩ := hlaunched _ (hflying e he htask)
  obtain rfl := hsound.worker_inj hf he hworker
  have hcrew : id ∈ d.crew.map (·.2) := d.crew_tasks ▸ List.mem_map.mpr ⟨f, hf, htask⟩
  refine ⟨o.asked_of_gone ho hid hgone (fun t ht hid => ?_) (hflying f hf htask), m, hat⟩
  exact (htallies.processing t ht).mpr (hid ▸ hcrew)

/-- Who is not in flight is not told. -/
theorem signal_carry {o : Order} (ho : o.Withdraws) {w : Nat}
    (hflying : d.session.queue.flying ≠ some w) :
    ({ d with session := o.carry d.session, log := .ordered o :: d.log } : Desk).signal w =
      d.signal w := by
  have hiff : w ∈ (o.carry d.session).queue.asked ↔ w ∈ d.session.queue.asked := by
    refine ⟨fun hw => ?_, fun hw => o.asked_subset_carry _ hw⟩
    rcases o.asked_carry hw with hw | ⟨-, hw | rfl⟩
    · exact hw
    · exact absurd hw hflying
    · cases ho
  unfold signal
  simp only [hiff]

end Desk

/-- A task that is withdrawn is not run afterwards, and nothing of a run of it is stored, unless a
worker has taken it whose run is not in flight. -/
theorem tasks_withdrawn {fetch : Session.Fetch} (hfetch : fetch.Polite) {s : Session}
    (hs : s.Unused) {orders : Order → Prop} {d d₁ : Desk} (hrun : Desk.Run fetch orders (.new s) d)
    {o : Order} (ho : o.Withdraws) (hstep : d.Step fetch (.order o) d₁) {id : String}
    (hid : id ∈ d.session.queue.ids) (hgone : id ∉ d₁.session.queue.ids) :
    d.Withdrawal fetch d₁ id := by
  have hsound := (Desk.sound_new hs).run hfetch hrun
  have hlaunched := (Desk.launched_new hs).run (Desk.sound_new hs) hfetch hrun
  have hsound₁ := hsound.step hfetch hstep
  cases hstep
  refine ⟨fun hflying _ d₂ hrun₂ a d₃ hstep₃ => ?_, fun e he _ hflying =>
    ⟨he, Desk.signal_carry ho hflying⟩⟩
  have hwithdrawn := Desk.withdrawn_of_order hsound hlaunched ho hid hgone hflying
  exact (hwithdrawn.run hsound₁ hfetch hrun₂).spares hstep₃

/-! ### Waiting for a chat -/

/-- Whoever has the chats needs another turn to find one. -/
def Session.slowFetch : Session.Fetch := fun id => do
  .pause .turn
  Session.hostFetch id

theorem Session.polite_slowFetch : Session.Fetch.Polite Session.slowFetch := fun _ _ =>
  .waits (n := ()) ⟨rfl, rfl⟩ fun g s => by
    cases g <;> exact .done ⟨rfl, rfl⟩

namespace Desk

/-- The worker that took its task last goes on. -/
def nudged (d : Desk) : Desk :=
  match d.errands with
  | [] => d
  | e :: rest => ({ d with errands := rest } : Desk).settle e.worker e.task
      (e.resume (d.signal e.worker) (d.told e.worker))

theorem run_nudged (fetch : Session.Fetch) (orders : Order → Prop) (d : Desk) :
    Run fetch orders d d.nudged := by
  unfold nudged
  split
  · exact .refl
  · next e rest he =>
    have hfirst : d.errands = [] ++ e :: rest := he
    exact .single ⟨.turn e, .turn hfirst, nofun⟩

end Desk

/-- A task is taken out while its worker waits for the chat. What the model answers is stored. -/
theorem tasks_withdrawn_fetching : ∃ (d d₁ d₂ : Desk) (e : Errand) (o : Order),
    Session.slowFetch.Polite ∧ (Session.asking [.text "[log]one[/log]"]).Unused ∧
      Desk.Run Session.slowFetch (fun _ => True)
        (.new (Session.asking [.text "[log]one[/log]"])) d ∧
      e ∈ d.errands ∧ o.Withdraws ∧ d.Step Session.slowFetch (.order o) d₁ ∧
      e.task.id ∈ d.session.queue.ids ∧ e.task.id ∉ d₁.session.queue.ids ∧
      d₁.signal e.worker = .proceed ∧ Desk.Run Session.slowFetch (fun _ => True) d₁ d₂ ∧
      (ended (Storage.getValue "var_0qyxjj" "c") d₂.session.storage).1 =
        .ok (some (.stack ⟨[⟨1, "one", "0", 0, false⟩], 2⟩)) := by
  let x := Session.asking [.text "[log]one[/log]"]
  let c : Chat := ⟨"c", [], none⟩
  let o : Order := .enqueue "suite_0b63ci" c "Daily" .manual (some false)
  let t : Task := ⟨"task_0bxf962abf", "suite_0b63ci", "Daily", .pending, 0, "c", 0, .manual,
    some false, some c⟩
  let d₁ : Desk := { Desk.new x with session := Order.start.carry x, log := [.ordered .start] }
  let d₂ : Desk := { d₁ with session := o.carry d₁.session, log := .ordered o :: d₁.log }
  let d₃ := ({ d₂ with log := .took d₂.session.queue t :: d₂.log } : Desk).settle 0 t
    (Session.runTask Session.slowFetch 0 t (d₂.taking 0 t))
  let r : Order := .remove t.id
  let d₄ : Desk := { d₃ with session := r.carry d₃.session, log := .ordered r :: d₃.log }
  have hunused : x.Unused := ⟨⟨_, rfl⟩, rfl⟩
  have hstarted : Desk.Step Session.slowFetch (.order .start) (.new x) d₁ :=
    .order .start (by decide +kernel)
  have hqueued : d₁.Step Session.slowFetch (.order o) d₂ := .order o (by decide +kernel)
  have hidle : (0, 1000000) ∈ d₂.session.queue.idle := by decide +kernel
  have htaken : d₂.Step Session.slowFetch (.take 0 t) d₃ :=
    .take hidle (by decide +kernel)
  have hrun : Desk.Run Session.slowFetch (fun _ => True) (.new x) d₃ :=
    ((Relation.ReflTransGen.refl.tail ⟨_, hstarted, fun _ _ => trivial⟩).tail
      ⟨_, hqueued, fun _ _ => trivial⟩).tail ⟨_, htaken, fun _ _ => trivial⟩
  have hremoved : d₃.Step Session.slowFetch (.order r) d₄ := .order r (by decide +kernel)
  have hlater : Desk.Run Session.slowFetch (fun _ => True) d₄ d₄.nudged.nudged.nudged :=
    ((Desk.run_nudged _ _ d₄).trans (Desk.run_nudged _ _ _)).trans (Desk.run_nudged _ _ _)
  obtain ⟨e, herrands, hworker, htask⟩ : ∃ e : Errand, d₃.errands = [e] ∧ e.worker = 0 ∧
      e.task = t := ⟨_, rfl, rfl, rfl⟩
  have hmem : e ∈ d₃.errands := by simp [herrands]
  have hid : e.task.id ∈ d₃.session.queue.ids := by
    rw [htask]
    decide +kernel
  have hgone : e.task.id ∉ d₄.session.queue.ids := by
    rw [htask]
    decide +kernel
  have hwithdrawal := tasks_withdrawn Session.polite_slowFetch hunused hrun (o := r) trivial hremoved
    hid hgone
  have hsignal := (hwithdrawal.unnoticed e hmem rfl (by
    rw [hworker]
    decide +kernel)).2
  refine ⟨d₃, d₄, _, e, r, Session.polite_slowFetch, hunused, hrun, hmem, trivial, hremoved, hid,
    hgone, hsignal.trans ?_, hlater, by decide +kernel⟩
  rw [hworker]
  decide +kernel

end TagLedger
