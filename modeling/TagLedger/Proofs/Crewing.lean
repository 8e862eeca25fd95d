import TagLedger.Proofs.Withdrawing

/-!
# One worker

A queue has no worker until it is turned on. From then on it has one, unless it is turned off: either
the worker waits for a task, or it is at work on one. No other order has to do with who waits, and
whoever is done with a task waits for the next one.

    nobody turns the queue off  →  d.Off ∨ d.Crewed                          (off_or_crewed)
-/

namespace TagLedger

/-- Leaves the queue on. -/
def Order.KeepsOn (o : Order) : Prop := o ≠ .stop ∧ o ≠ .stopped

namespace Queue

@[simp] theorem running_notify (q : Queue) : q.notify.running = q.running := by
  unfold notify
  split <;> rfl

@[simp] theorem idle_notify (q : Queue) : q.notify.idle = q.idle := by
  unfold notify
  split <;> rfl

/-- Whether the queue is on, and who waits for a task, stays the same. -/
structure SameCrew (q q' : Queue) : Prop where
  running : q'.running = q.running
  idle : q'.idle = q.idle

namespace SameCrew

theorem abort (q : Queue) : SameCrew q q.abort.2 := by
  obtain ⟨asked, hasked, -⟩ := q.abort_eq
  rw [hasked]
  exact ⟨rfl, rfl⟩

theorem remove (q : Queue) (id : String) : SameCrew q (q.remove id).2 := by
  unfold Queue.remove
  split
  · exact ⟨rfl, rfl⟩
  · dsimp only
    split
    · exact ⟨(running_notify _).trans (abort q).running, (idle_notify _).trans (abort q).idle⟩
    · exact ⟨running_notify _, idle_notify _⟩

theorem removeSuite (q : Queue) (suiteId : String) : SameCrew q (q.removeSuite suiteId).2 := by
  unfold Queue.removeSuite
  split
  · exact ⟨rfl, rfl⟩
  · exact remove q _

theorem pause (q : Queue) (id : String) : SameCrew q (q.pause id).2 := by
  unfold Queue.pause
  split
  · exact ⟨rfl, rfl⟩
  · split
    · exact ⟨rfl, rfl⟩
    · exact ⟨running_notify _, idle_notify _⟩

theorem resume (q : Queue) (id : String) : SameCrew q (q.resume id).2 := by
  unfold Queue.resume
  split
  · exact ⟨rfl, rfl⟩
  · split
    · exact ⟨running_notify _, idle_notify _⟩
    · exact ⟨rfl, rfl⟩

end SameCrew

theorem leave_eq (q : Queue) (id : String) :
    (q.leave id).running = q.running ∧ (q.leave id).idle = q.idle :=
  ⟨running_notify _, idle_notify _⟩

end Queue

/-- No order but that to turn the queue on or off has to do with who waits for a task. -/
theorem Order.sameCrew {o : Order} (ho : o.Calm) (s : Session) :
    s.queue.SameCrew (o.carry s).queue := by
  cases o with
  | enqueue suiteId c name cause useSnapshot =>
    obtain ⟨storage, t, hcarry, -⟩ := carry_enqueue suiteId c name cause useSnapshot s
    rw [hcarry]
    exact ⟨Queue.running_notify _, Queue.idle_notify _⟩
  | remove id => exact .remove s.queue id
  | removeSuite suiteId => exact .removeSuite s.queue suiteId
  | clear =>
    exact ⟨(Queue.running_notify _).trans (Queue.SameCrew.abort s.queue).running,
      (Queue.idle_notify _).trans (Queue.SameCrew.abort s.queue).idle⟩
  | pause id => exact .pause s.queue id
  | resume id => exact .resume s.queue id
  | abort => exact .abort s.queue
  | start => exact ho.elim
  | stop => exact ho.elim
  | stopped => exact ho.elim

namespace Desk

variable {d d' : Desk} {fetch : Session.Fetch} {a : Act} {t : Task}

/-- The tasks, those at work on them and the log are as they were. -/
structure Unworked (d d' : Desk) : Prop where
  tasks : d'.session.queue.tasks = d.session.queue.tasks
  errands : d'.errands = d.errands
  log : d'.log = d.log

/-- What is no worker's turn and no order has to do with those who watch the queue, and not with the
rest of it. -/
theorem sameCrew_of_aside (hsound : d.Sound) (hstep : Step fetch .aside d d') :
    d.session.queue.SameCrew d'.session.queue ∧ Unworked d d' := by
  cases hstep with
  | call x =>
    have hqueue := queue_proceed (d := d) (x.follows_perform d.session)
    exact ⟨⟨congrArg _ hqueue, congrArg _ hqueue⟩, congrArg _ hqueue, errands_proceed _,
      log_proceed _⟩
  | @goOn _ before later k g hk =>
    obtain ⟨m, hm⟩ := hsound.analyses k (by simp [hk])
    have hqueue := queue_proceed (d := { d with analyses := before ++ later }) (hm g d.session)
    exact ⟨⟨congrArg _ hqueue, congrArg _ hqueue⟩, congrArg _ hqueue, errands_proceed _,
      log_proceed _⟩
  | @other _ t watchers shown hqueue hbusy =>
    have hrunning : t.queue.running = d.session.queue.running := by rw [hqueue]
    have hidle : t.queue.idle = d.session.queue.idle := by rw [hqueue]
    have htasks : t.queue.tasks = d.session.queue.tasks := by rw [hqueue]
    exact ⟨⟨hrunning, hidle⟩, htasks, rfl, rfl⟩

/-- The queue was not turned on yet. -/
structure Off (d : Desk) : Prop where
  running : d.session.queue.running = false
  idle : d.session.queue.idle = []
  errands : d.errands = []

/-- The queue is on, and its one worker waits for a task or is at work on one. -/
inductive Crewed (d : Desk) : Prop
  | free {w due : Nat} (running : d.session.queue.running = true)
      (idle : d.session.queue.idle = [(w, due)]) (errands : d.errands = [])
  | busy {e : Errand} (running : d.session.queue.running = true)
      (idle : d.session.queue.idle = []) (errands : d.errands = [e])

theorem Crewed.running (h : d.Crewed) : d.session.queue.running = true := by
  cases h with
  | free running => exact running
  | busy running => exact running

theorem Crewed.congr (h : d.Crewed) (hrunning : d'.session.queue.running = d.session.queue.running)
    (hidle : d'.session.queue.idle = d.session.queue.idle) (herrands : d'.errands = d.errands) :
    d'.Crewed := by
  cases h with
  | free running idle errands =>
    exact .free (hrunning.trans running) (hidle.trans idle) (herrands.trans errands)
  | busy running idle errands =>
    exact .busy (hrunning.trans running) (hidle.trans idle) (herrands.trans errands)

theorem Crewed.settle {w : Nat} {x : Session} {m : Option Stage} {g : Signal}
    {p : Progress Session AnalysisResult} (hrunning : x.queue.running = true)
    (hidle : x.queue.idle = []) (herrands : d.errands = [])
    (hp : Follows (ErrandTurn w) m g x p) : (d.settle w t p).Crewed := by
  cases hp with
  | @done _ _ _ y r hturn =>
    obtain ⟨flying, result, hqueue⟩ := hturn.queue_eq
    have hy : y.queue.running = true ∧ y.queue.idle = [] := by
      rw [hqueue]
      exact ⟨hrunning, hidle⟩
    obtain ⟨hleft, hnobody⟩ := y.queue.leave_eq t.id
    rw [hy.1] at hleft
    rw [hy.2] at hnobody
    have hrest (now : Nat) : (y.queue.leave t.id).rest w now =
        { y.queue.leave t.id with idle := [(w, now + Queue.lookTime)] } := by
      unfold Queue.rest
      rw [if_pos hleft, hnobody]
      rfl
    refine .free (w := w) ?_ (congrArg Queue.idle (hrest _)) herrands
    exact (congrArg Queue.running (hrest _)).trans hleft
  | @waits _ n _ _ y wait k hturn hk =>
    obtain ⟨flying, result, hqueue⟩ := hturn.queue_eq
    refine .busy ?_ ?_ (congrArg _ herrands)
    · exact (congrArg Queue.running hqueue).trans hrunning
    · exact (congrArg Queue.idle hqueue).trans hidle

theorem eq_start {o : Order} (ho : ¬ o.Calm) (hon : o.KeepsOn) : o = .start := by
  cases o with
  | start => rfl
  | stop => exact absurd rfl hon.1
  | stopped => exact absurd rfl hon.2
  | _ => exact absurd trivial ho

theorem eq_of_alone {e e' : Errand} {before later : List Errand} (h : [e'] = before ++ e :: later) :
    before = [] ∧ later = [] ∧ e = e' := by
  cases before with
  | nil =>
    obtain ⟨rfl, rfl⟩ := List.cons.inj h
    exact ⟨rfl, rfl, rfl⟩
  | cons f before => simp at h

theorem Crewed.step (hsound : d.Sound) (hfetch : fetch.Polite) (h : d.Crewed)
    (hstep : Step fetch a d d') (ha : ∀ o, a = .order o → o.KeepsOn) : d'.Crewed := by
  by_cases haside : a = .aside
  · subst haside
    obtain ⟨hsame, hunworked⟩ := sameCrew_of_aside hsound hstep
    exact h.congr hsame.running hsame.idle hunworked.errands
  cases hstep with
  | order o hids =>
    obtain ⟨hstop, hstopped⟩ := ha o rfl
    by_cases ho : o.Calm
    · have hsame := o.sameCrew ho d.session
      exact h.congr hsame.running hsame.idle rfl
    · have hstart : o = .start := eq_start ho ⟨hstop, hstopped⟩
      have hqueue : (o.carry d.session).queue = d.session.queue := by
        rw [hstart]
        exact if_pos h.running
      exact h.congr (congrArg _ hqueue) (congrArg _ hqueue) rfl
  | @take _ w due u hidle hu =>
    cases h with
    | @free v due' running idle errands =>
      have hw : w = v := by
        rw [idle, List.mem_singleton] at hidle
        exact congrArg Prod.fst hidle
      refine settle ?_ ?_ errands (Session.follows_runTask hfetch w u (d.taking w u))
      · exact (Queue.running_notify _).trans running
      · refine (Queue.idle_notify _).trans ?_
        change d.session.queue.idle.filter _ = []
        rw [idle, hw]
        simp
    | busy running idle errands =>
      rw [idle] at hidle
      cases hidle
  | @turn _ before later e he =>
    obtain ⟨m, hm⟩ := hsound.errands e (by simp [he])
    cases h with
    | free running idle errands =>
      rw [errands] at he
      simp at he
    | busy running idle errands =>
      obtain ⟨rfl, rfl, rfl⟩ := eq_of_alone (errands.symm.trans he)
      exact settle (x := d.told _) running idle rfl (hm _ _)
  | look =>
    cases h with
    | @free w due running idle errands =>
      obtain ⟨due', hdue⟩ : ∃ due',
          (d.session.queue.look d.session.storage.clock.elapsed).idle = [(w, due')] := by
        unfold Queue.look
        rw [idle, running]
        exact ⟨_, rfl⟩
      exact .free running hdue errands
    | busy running idle errands =>
      refine .busy running ?_ errands
      change (List.filter _ d.session.queue.idle).map _ = _
      rw [idle]
      rfl
  | call | goOn | other => exact absurd rfl haside

theorem Off.step (hsound : d.Sound) (h : d.Off) (hstep : Step fetch a d d')
    (ha : ∀ o, a = .order o → o.KeepsOn) : d'.Off ∨ d'.Crewed := by
  have hcongr {e : Desk} (hrunning : e.session.queue.running = d.session.queue.running)
      (hidle : e.session.queue.idle = d.session.queue.idle) (herrands : e.errands = d.errands) :
      e.Off := ⟨hrunning.trans h.running, hidle.trans h.idle, herrands.trans h.errands⟩
  by_cases haside : a = .aside
  · subst haside
    obtain ⟨hsame, hunworked⟩ := sameCrew_of_aside hsound hstep
    exact .inl (hcongr hsame.running hsame.idle hunworked.errands)
  cases hstep with
  | order o hids =>
    obtain ⟨hstop, hstopped⟩ := ha o rfl
    by_cases ho : o.Calm
    · have hsame := o.sameCrew ho d.session
      exact .inl (hcongr hsame.running hsame.idle rfl)
    · have hstart : o = .start := eq_start ho ⟨hstop, hstopped⟩
      have hqueue : (o.carry d.session).queue = { d.session.queue with
          running := true, hired := d.session.queue.hired + 1,
          latest := some d.session.queue.hired,
          idle := d.session.queue.idle ++ [(d.session.queue.hired,
            d.session.storage.clock.elapsed + Queue.lookTime)] } := by
        rw [hstart]
        exact if_neg (by rw [h.running]; exact Bool.false_ne_true)
      rw [h.idle] at hqueue
      exact .inr (.free (congrArg Queue.running hqueue) (congrArg Queue.idle hqueue) h.errands)
  | @take _ w due u hidle hu =>
    rw [h.idle] at hidle
    cases hidle
  | turn he =>
    rw [h.errands] at he
    simp at he
  | look =>
    refine .inl ⟨h.running, ?_, h.errands⟩
    change (List.filter _ d.session.queue.idle).map _ = _
    rw [h.idle]
    rfl
  | call | goOn | other => exact absurd rfl haside

/-- As long as nobody turns the queue off. -/
theorem off_or_crewed {s : Session} (hs : s.Unused) (hfetch : fetch.Polite)
    (hrun : Run fetch Order.KeepsOn (.new s) d) : d.Off ∨ d.Crewed := by
  induction hrun with
  | refl =>
    obtain ⟨⟨snapshotMode, hqueue⟩, -⟩ := hs
    exact .inl ⟨congrArg Queue.running hqueue, congrArg Queue.idle hqueue, rfl⟩
  | tail hrun hnext ih =>
    obtain ⟨a, hstep, ha⟩ := hnext
    have hsound := (sound_new hs).run hfetch hrun
    rcases ih with hoff | hcrewed
    · exact hoff.step hsound hstep ha
    · exact .inr (hcrewed.step hsound hfetch hstep ha)

end Desk

end TagLedger
