import TagLedger.Proofs.Queueing

/-!
# Rejected runs

At most one analysis is under way. One that is asked for meanwhile is rejected, and so is the run of a
task; the task then leaves the queue like any other, and its suite is not run.

That is the only way in which a task is lost: it otherwise leaves the queue because that was ordered,
because its run was to be given up, or because its run is over.

    the analyzer is busy  ↔  a run that starts is rejected                   (Desk.Accounts.lost_iff)
    the analyzer is busy  →  somebody who is under way has it                (Desk.Manned.held)
-/

namespace TagLedger

/-- What comes of an analysis that is asked for while another one is under way. -/
abbrev rejection : Except Failure AnalysisResult := .ok (.failed .busy "")

/-! ## Turns -/

theorem AnalysisTurn.busy_cases {m : Stage} {g : Signal} {x y : Session}
    {o : Halt Stage AnalysisResult} (h : AnalysisTurn m g x o y) (hbusy : y.analyzer.busy = true) :
    o = .waits .holding ∨ x.analyzer.busy = true ∧ m ≠ .holding := by
  have hholds (ho : o.holds = true) : o = .waits .holding := by
    unfold Halt.holds at ho
    split at ho
    · rfl
    · cases ho
  cases h with
  | rejected hx => exact .inr ⟨hx, nofun⟩
  | begins _ _ _ hy => exact .inl (hholds (hy.symm.trans hbusy))
  | goesOn _ _ hy => exact .inl (hholds (Bool.and_eq_true_iff.mp (hy.symm.trans hbusy)).1)
  | stores _ _ _ hy => exact .inr ⟨hy.symm.trans hbusy, nofun⟩
  | givesUp m =>
    cases m with
    | holding => cases hbusy
    | called => exact .inr ⟨hbusy, nofun⟩
    | storing => exact .inr ⟨hbusy, nofun⟩

/-- Only who has just been called is rejected. -/
theorem AnalysisTurn.busy_of_rejected {m : Stage} {g : Signal} {x y : Session}
    (h : AnalysisTurn m g x (.ends rejection) y) :
    m = .called ∧ g = .proceed ∧ x.analyzer.busy = true := by
  cases h with
  | rejected hbusy => exact ⟨rfl, rfl, hbusy⟩
  | begins _ ho => exact absurd rfl ho.2
  | goesOn ho => exact absurd rfl ho.2
  | stores ho => exact absurd rfl ho.2

theorem ErrandTurn.busy_cases {w : Nat} {m : Option Stage} {g : Signal} {x y : Session}
    {o : Halt (Option Stage) AnalysisResult} (h : ErrandTurn w m g x o y)
    (hbusy : y.analyzer.busy = true) :
    o = .waits (some .holding) ∨ x.analyzer.busy = true ∧ m ≠ some .holding := by
  cases h with
  | fetches _ hy => exact .inr ⟨hy.symm.trans hbusy, nofun⟩
  | misses _ hy => exact .inr ⟨hy.symm.trans hbusy, nofun⟩
  | launches _ hy => exact .inr ⟨hy.symm.trans hbusy, nofun⟩
  | waits h =>
    rcases h.busy_cases hbusy with ho | ⟨hx, hm⟩
    · exact .inl (congrArg _ (congrArg some (Halt.waits.inj ho)))
    · exact .inr ⟨hx, fun he => hm (Option.some.inj he)⟩
  | fails h =>
    obtain ho | ⟨hx, hm⟩ := h.busy_cases hbusy
    · cases ho
    · exact .inr ⟨hx, fun he => hm (Option.some.inj he)⟩
  | ends h =>
    obtain ho | ⟨hx, hm⟩ := h.busy_cases hbusy
    · cases ho
    · exact .inr ⟨hx, fun he => hm (Option.some.inj he)⟩

theorem ErrandTurn.busy_of_rejected {w : Nat} {m : Option Stage} {g : Signal} {x y : Session}
    (h : ErrandTurn w m g x (.ends rejection) y) :
    m = some .called ∧ g = .proceed ∧ x.analyzer.busy = true := by
  cases h with
  | ends h =>
    obtain ⟨rfl, hg, hbusy⟩ := h.busy_of_rejected
    exact ⟨rfl, hg, hbusy⟩

/-! ## Who has the analyzer -/

namespace Desk

variable {d d' : Desk} {fetch : Session.Fetch}

/-- Somebody has the analyzer, be it a worker other than this one. -/
def HeldBeside (d : Desk) (w : Nat) : Prop :=
  (∃ e ∈ d.errands, e.worker ≠ w ∧ e.At (some .holding)) ∨
    ∃ k ∈ d.analyses, AnalysisAt .holding k

def Held (d : Desk) : Prop :=
  (∃ e ∈ d.errands, e.At (some .holding)) ∨ ∃ k ∈ d.analyses, AnalysisAt .holding k

/-- The analyzer is somebody's when it is busy. -/
def Honest (d : Desk) : Prop := d.session.analyzer.busy = true → d.Held

theorem Honest.settle {w : Nat} {t : Task} {x : Session} {m : Option Stage} {g : Signal}
    {p : Progress Session AnalysisResult}
    (h : x.analyzer.busy = true → d.Held ∨ m = some .holding)
    (hp : Follows (ErrandTurn w) m g x p) : (d.settle w t p).Honest := by
  intro hbusy
  have hother {y : Session} {o : Halt (Option Stage) AnalysisResult}
      (hcases : o = .waits (some .holding) ∨ x.analyzer.busy = true ∧ m ≠ some .holding)
      (ho : o ≠ .waits (some .holding)) : d.Held := by
    obtain ⟨hx, hm⟩ := hcases.resolve_left ho
    exact (h hx).resolve_right hm
  cases hp with
  | done hturn => exact hother (y := x) (hturn.busy_cases hbusy) nofun
  | @waits _ n _ _ y wait k hturn hk =>
    by_cases hn : n = some .holding
    · subst hn
      exact .inl ⟨⟨w, t, k⟩, List.mem_cons_self, hk⟩
    · have hd := hother (y := x) (hturn.busy_cases hbusy) fun ho => hn (Halt.waits.inj ho)
      exact hd.imp_left fun ⟨e, he, hat⟩ => ⟨e, List.mem_cons_of_mem _ he, hat⟩

theorem Honest.proceed {x : Session} {m : Stage} {g : Signal} {p : Progress Session AnalysisResult}
    (h : x.analyzer.busy = true → d.Held ∨ m = .holding)
    (hp : Follows AnalysisTurn m g x p) : (d.proceed p).Honest := by
  intro hbusy
  cases hp with
  | done hturn =>
    obtain ⟨hx, hm⟩ := (hturn.busy_cases hbusy).resolve_left nofun
    exact (h hx).resolve_right hm
  | @waits _ n _ _ y wait k hturn hk =>
    by_cases hn : n = .holding
    · subst hn
      exact .inr ⟨k, List.mem_cons_self, hk⟩
    · obtain ⟨hx, hm⟩ := (hturn.busy_cases hbusy).resolve_left fun ho => hn (Halt.waits.inj ho)
      exact ((h hx).resolve_right hm).imp_right fun ⟨k', hk', hat⟩ =>
        ⟨k', List.mem_cons_of_mem _ hk', hat⟩

/-- A worker whose turn it is, and whoever has the analyzer if it is not that one. -/
theorem Honest.rest {before later : List Errand} {e : Errand} (h : d.Honest)
    (he : d.errands = before ++ e :: later) (hnot : ¬ e.At (some .holding)) :
    ({ d with errands := before ++ later } : Desk).Honest := by
  intro hbusy
  rcases h hbusy with ⟨f, hf, hat⟩ | hk
  · have hperm : d.errands.Perm (e :: (before ++ later)) := he ▸ List.perm_middle
    rcases List.mem_cons.mp (hperm.mem_iff.mp hf) with rfl | hf
    · exact absurd hat hnot
    · exact .inl ⟨f, hf, hat⟩
  · exact .inr hk

theorem Honest.step (hsound : d.Sound) (hfetch : fetch.Polite) {a : Act} (h : d.Honest)
    (hstep : Step fetch a d d') : d'.Honest := by
  cases hstep with
  | order o hids =>
    intro hbusy
    exact h ((congrArg Analyzer.busy (o.analyzer d.session)).symm.trans hbusy)
  | @take _ w due t hidle ht =>
    exact settle (x := d.taking w t) (fun hbusy => .inl (h hbusy))
      (Session.follows_runTask hfetch w t (d.taking w t))
  | @turn _ before later e he =>
    by_cases hat : e.At (some .holding)
    · exact settle (fun _ => .inr rfl) (hat _ _)
    · obtain ⟨m, hm⟩ := hsound.errands e (by simp [he])
      exact settle (x := d.told e.worker) (fun hbusy => .inl (h.rest he hat hbusy)) (hm _ _)
  | look => exact h
  | call x => exact proceed (fun hbusy => .inl (h hbusy)) (x.follows_perform d.session)
  | @goOn _ before later k g hk =>
    by_cases hat : AnalysisAt .holding k
    · exact proceed (fun _ => .inr rfl) (hat g d.session)
    · obtain ⟨m, hm⟩ := hsound.analyses k (by simp [hk])
      refine proceed (fun hbusy => .inl ((h hbusy).imp_right ?_)) (hm g d.session)
      rintro ⟨k', hk', hat'⟩
      have hperm : d.analyses.Perm (k :: (before ++ later)) := hk ▸ List.perm_middle
      rcases List.mem_cons.mp (hperm.mem_iff.mp hk') with rfl | hk'
      · exact absurd hat' hat
      · exact ⟨k', hk', hat'⟩
  | other watchers shown hqueue hbusy => exact fun h' => h (hbusy ▸ h')

/-! ## Who is to give up -/

/-- Whoever is to give up was given an order because of which that is so. -/
def Justified (d : Desk) : Prop :=
  ∀ w ∈ d.session.queue.asked, ∃ o, .ordered o ∈ d.log ∧ o.GivesUp

theorem asked_settle {w : Nat} {t : Task} {x : Session} {m : Option Stage} {g : Signal}
    {p : Progress Session AnalysisResult} (hp : Follows (ErrandTurn w) m g x p) :
    (d.settle w t p).session.queue.asked = x.queue.asked := by
  obtain ⟨q, flying, result, rfl, hqueue | ⟨now, hqueue⟩⟩ := queue_settle (d := d) (t := t) hp
  · rw [hqueue]
  · rw [hqueue]
    unfold Queue.rest
    split <;> simp [Queue.leave]

theorem subset_log_settle (w : Nat) (t : Task) (p : Progress Session AnalysisResult) :
    d.log ⊆ (d.settle w t p).log := by
  cases p with
  | done x r => exact List.subset_cons_self _ _
  | waiting x wait k => exact .refl _

theorem log_proceed (p : Progress Session AnalysisResult) : (d.proceed p).log = d.log := by
  cases p <;> rfl

theorem Justified.step (hsound : d.Sound) (hfetch : fetch.Polite) {a : Act} (h : d.Justified)
    (hstep : Step fetch a d d') : d'.Justified := by
  cases hstep with
  | order o hids =>
    intro w hw
    rcases o.asked_carry hw with hw | ⟨ho, -⟩
    · obtain ⟨o', ho', hgives⟩ := h w hw
      exact ⟨o', List.mem_cons_of_mem _ ho', hgives⟩
    · exact ⟨o, List.mem_cons_self, ho⟩
  | @take _ w due t hidle ht =>
    intro v hv
    rw [asked_settle (Session.follows_runTask hfetch w t (d.taking w t))] at hv
    obtain ⟨o, ho, hgives⟩ := h v (by simpa [taking, Queue.take] using hv)
    exact ⟨o, subset_log_settle _ _ _ (List.mem_cons_of_mem _ ho), hgives⟩
  | @turn _ before later e he =>
    intro v hv
    obtain ⟨m, hm⟩ := hsound.errands e (by simp [he])
    rw [asked_settle (hm _ _)] at hv
    obtain ⟨o, ho, hgives⟩ := h v (List.mem_of_mem_filter hv)
    exact ⟨o, subset_log_settle _ _ _ ho, hgives⟩
  | look => exact h
  | call x =>
    intro w hw
    rw [queue_proceed (x.follows_perform d.session)] at hw
    rw [log_proceed]
    exact h w hw
  | @goOn _ before later k g hk =>
    intro w hw
    obtain ⟨m, hm⟩ := hsound.analyses k (by simp [hk])
    rw [queue_proceed (hm g d.session)] at hw
    rw [log_proceed]
    exact h w hw
  | other watchers shown hqueue hbusy =>
    intro w hw
    exact h w (by simpa [hqueue] using hw)

/-- What is known of who has the analyzer, and of who is to give up. -/
structure Manned (d : Desk) : Prop where
  sound : d.Sound
  honest : d.Honest
  justified : d.Justified

theorem manned_new {s : Session} (hs : s.Unused) : (Desk.new s).Manned where
  sound := sound_new hs
  honest hbusy := absurd (hs.2.symm.trans hbusy) nofun
  justified w hw := by
    obtain ⟨⟨snapshotMode, hqueue⟩, -⟩ := hs
    change w ∈ s.queue.asked at hw
    rw [hqueue] at hw
    cases hw

theorem Manned.run {orders : Order → Prop} (h : d.Manned) (hfetch : fetch.Polite)
    (hrun : Run fetch orders d d') : d'.Manned := by
  induction hrun with
  | refl => exact h
  | tail _ hnext ih =>
    obtain ⟨a, hstep, -⟩ := hnext
    exact ⟨ih.sound.step hfetch hstep, ih.honest.step ih.sound hfetch hstep,
      ih.justified.step ih.sound hfetch hstep⟩

/-! ## Leaving the queue -/

/-- Why a task leaves the queue in a step. -/
inductive Leaves (d : Desk) (a : Act) (d' : Desk) (id : String) : Prop where
  /-- That was ordered. -/
  | withdrawn {o : Order} (ha : a = .order o) (ho : o.Withdraws)
  /-- Its run was to be given up, because of an order. -/
  | givenUp {e : Errand} {o : Order} (ha : a = .turn e) (hid : e.task.id = id)
      (hasked : e.worker ∈ d.session.queue.asked) (hlog : .ordered o ∈ d.log) (ho : o.GivesUp)
  /-- Whoever was asked for its chat failed. -/
  | chatless {t : Task} {f : Failure} (hid : t.id = id) (hlog : .ended t (.error f) ∈ d'.log)
      (hat : (∃ w, a = .take w t) ∨ ∃ e, a = .turn e ∧ e.task = t ∧ e.At none)
  /-- Its run is over, and was not rejected. -/
  | ran {e : Errand} {m : Stage} {r : Except Failure AnalysisResult} (ha : a = .turn e)
      (hid : e.task.id = id) (hat : e.At (some m)) (hlog : .ended e.task r ∈ d'.log)
      (hr : r ≠ rejection)
  /-- Its run was rejected, as somebody else had the analyzer. -/
  | rejected {e : Errand} (ha : a = .turn e) (hid : e.task.id = id)
      (hlog : .ended e.task rejection ∈ d'.log) (hbusy : d.session.analyzer.busy = true)
      (hheld : d.HeldBeside e.worker)

theorem ended_of_gone {w : Nat} {t : Task} {x : Session} {m : Option Stage} {g : Signal}
    {p : Progress Session AnalysisResult} (hp : Follows (ErrandTurn w) m g x p) {id : String}
    (hid : id ∈ x.queue.ids) (hgone : id ∉ (d.settle w t p).session.queue.ids) :
    t.id = id ∧ ∃ y r, ErrandTurn w m g x (.ends r) y ∧ .ended t r ∈ (d.settle w t p).log := by
  cases hp with
  | @done _ _ _ y r hturn =>
    refine ⟨?_, y, r, hturn, List.mem_cons_self⟩
    obtain ⟨u, hu, rfl⟩ := List.mem_map.mp hid
    obtain ⟨flying, result, hqueue⟩ := hturn.queue_eq
    have htasks : (y.afterTask w t).queue.tasks = x.queue.tasks.filter (·.id != t.id) := by
      unfold Session.afterTask Queue.rest
      split <;> simp [hqueue]
    by_contra hne
    refine hgone (List.mem_map_of_mem (htasks ▸ List.mem_filter.mpr ⟨hu, ?_⟩))
    simpa using fun h => hne h.symm
  | @waits _ n _ _ y wait k hturn hk =>
    obtain ⟨flying, result, hqueue⟩ := hturn.queue_eq
    have hids : y.queue.ids = x.queue.ids := by simp [Queue.ids, hqueue]
    exact absurd (hids ▸ hid) hgone

/-- Who has the analyzer is not the one who does not have it. -/
theorem Manned.heldBeside (h : d.Manned) {before later : List Errand} {e : Errand}
    (he : d.errands = before ++ e :: later) (hbusy : d.session.analyzer.busy = true)
    (hnot : ¬ e.At (some .holding)) : d.HeldBeside e.worker :=
  (h.honest.rest he hnot hbusy).imp_left fun ⟨f, hf, hat⟩ =>
    ⟨f, he ▸ List.perm_middle.mem_iff.mpr (List.mem_cons_of_mem _ hf), h.sound.worker_ne he hf, hat⟩

theorem Manned.leaves (h : d.Manned) (hfetch : fetch.Polite) {a : Act} (hstep : Step fetch a d d')
    {id : String} (hid : id ∈ d.session.queue.ids) (hgone : id ∉ d'.session.queue.ids) :
    Leaves d a d' id := by
  cases hstep with
  | order o hids =>
    by_cases ho : o.Withdraws
    · exact .withdrawn rfl ho
    · exact absurd (o.ids_carry ho hid) hgone
  | @take _ w due t hidle ht =>
    have hids : id ∈ (d.taking w t).queue.ids := (Queue.ids_take _ _ _).symm ▸ hid
    obtain ⟨htask, y, r, hturn, hlog⟩ :=
      ended_of_gone (Session.follows_runTask hfetch w t (d.taking w t)) hids hgone
    cases hturn with
    | misses => exact .chatless htask hlog (.inl ⟨w, rfl⟩)
  | @turn _ before later e he =>
    have hids : id ∈ (d.told e.worker).queue.ids := hid
    by_cases hat : e.At (some .holding)
    · obtain ⟨htask, y, r, hturn, hlog⟩ := ended_of_gone (hat _ _) hids hgone
      refine .ran rfl htask hat hlog ?_
      rintro rfl
      cases hturn.busy_of_rejected.1
    obtain ⟨m, hm⟩ := h.sound.errands e (by simp [he])
    obtain ⟨htask, y, r, hturn, hlog⟩ := ended_of_gone (hm _ _) hids hgone
    by_cases hasked : e.worker ∈ d.session.queue.asked
    · obtain ⟨o, ho, hgives⟩ := h.justified _ hasked
      exact .givenUp rfl htask hasked ho hgives
    cases m with
    | none =>
      cases hturn with
      | misses => exact .chatless htask hlog (.inr ⟨e, rfl, rfl, hm⟩)
    | some m =>
      by_cases hr : r = rejection
      · subst hr
        obtain ⟨-, -, hbusy⟩ := hturn.busy_of_rejected
        exact .rejected rfl htask hlog hbusy (h.heldBeside he hbusy hat)
      · exact .ran rfl htask hm hlog hr
  | look => exact absurd hid hgone
  | call x => exact absurd (queue_proceed (x.follows_perform d.session) ▸ hid) hgone
  | @goOn _ before later k g hk =>
    obtain ⟨m, hm⟩ := h.sound.analyses k (by simp [hk])
    exact absurd (queue_proceed (hm g d.session) ▸ hid) hgone
  | @other _ t watchers shown hqueue hbusy =>
    have hids : t.queue.ids = d.session.queue.ids := by simp [Queue.ids, hqueue]
    exact absurd (hids ▸ hid) hgone

end Desk

/-! ## Runs that start -/

/-- A run that starts while the analyzer is busy is over at once. -/
theorem Session.runOn_busy {s : Session} (hbusy : s.analyzer.busy = true) (t : Task) (c : Chat) :
    Session.runOn t c s = .done { s with queue := s.queue.note (.failed .busy "") } rejection := by
  have hrun : Session.analyze t.suiteId c s = .done s rejection := by
    unfold Session.analyze
    rw [get_bind, if_pos hbusy]
    rfl
  change ((Session.analyze t.suiteId c s).bind _).bind _ = _
  rw [hrun]
  rfl

/-- When it is the worker's turn again, the run starts on a chat. -/
def Errand.Starts (e : Errand) (c : Chat) : Prop :=
  ∀ s, e.resume .proceed s = Session.runOn e.task c s

/-- Tasks are only lost to somebody who has the analyzer when the run starts. -/
structure Desk.Accounts (fetch : Session.Fetch) (d : Desk) : Prop where
  leaves : ∀ a d', d.Step fetch a d' → ∀ id ∈ d.session.queue.ids, id ∉ d'.session.queue.ids →
    d.Leaves a d' id
  lost_iff : ∀ e ∈ d.errands, ∀ c, e.Starts c → e.worker ∉ d.session.queue.asked →
    ∀ d', d.Step fetch (.turn e) d' →
      (.ended e.task rejection ∈ d'.log ↔ d.session.analyzer.busy = true)

namespace Desk

variable {d : Desk} {fetch : Session.Fetch}

theorem Manned.lost_iff (h : d.Manned) {e : Errand} {c : Chat} (hstarts : e.Starts c)
    (hasked : e.worker ∉ d.session.queue.asked) {d' : Desk} (hstep : d.Step fetch (.turn e) d') :
    .ended e.task rejection ∈ d'.log ↔ d.session.analyzer.busy = true := by
  cases hstep with
  | @turn _ before later _ he =>
    have hmem : e ∈ d.errands := by simp [he]
    have hrun : e.resume (d.signal e.worker) (d.told e.worker) =
        Session.runOn e.task c (d.told e.worker) := by
      unfold signal
      rw [if_neg hasked]
      exact hstarts _
    rw [hrun]
    constructor
    · intro hlog
      have hfollows := Session.follows_runOn e.worker e.task c (d.told e.worker)
      generalize Session.runOn e.task c (d.told e.worker) = p at hlog hfollows
      cases hfollows with
      | @done _ _ _ y r hturn =>
        rcases List.mem_cons.mp hlog with hr | hlog
        · obtain ⟨-, rfl⟩ := Event.ended.inj hr
          exact hturn.busy_of_rejected.2.2
        · exact absurd hlog (h.sound.notMem_log hmem _)
      | waits => exact absurd hlog (h.sound.notMem_log hmem _)
    · intro hbusy
      rw [Session.runOn_busy (s := d.told e.worker) hbusy]
      exact List.mem_cons_self

end Desk

/-- However the turns of the workers fall among orders and analyses. -/
theorem queue_accounts {fetch : Session.Fetch} (hfetch : fetch.Polite) {s : Session}
    (hs : s.Unused) {orders : Order → Prop} {d : Desk} (hrun : Desk.Run fetch orders (.new s) d) :
    d.Accounts fetch := by
  have h := (Desk.manned_new hs).run hfetch hrun
  exact ⟨fun a d' hstep id hid hgone => h.leaves hfetch hstep hid hgone,
    fun e he c hstarts hasked d' hstep => h.lost_iff hstarts hasked hstep⟩

/-- A task is lost whose run starts while somebody waits for what is stored for the chat. -/
theorem queue_accounts_lost : ∃ (d d' : Desk) (e : Errand) (c : Chat),
    Session.Fetch.Polite Session.hostFetch ∧ (Session.asking []).Unused ∧
      Desk.Run Session.hostFetch (fun _ => True) (.new (Session.asking [])) d ∧
      e ∈ d.errands ∧ e.Starts c ∧ e.worker ∉ d.session.queue.asked ∧
      d.session.analyzer.busy = true ∧ d.Step Session.hostFetch (.turn e) d' ∧
      e.task.id ∈ d.session.queue.ids ∧ e.task.id ∉ d'.session.queue.ids ∧
      .ended e.task rejection ∈ d'.log := by
  let c : Chat := ⟨"c", [], none⟩
  let o : Order := .enqueue "suite_0b63ci" c "Daily" .manual (some true)
  let t : Task := ⟨"task_0bxf962abf", "suite_0b63ci", "Daily", .pending, 0, "c", 0, .manual,
    some true, some c⟩
  let d₁ : Desk := { Desk.new (Session.asking []) with
    session := Order.start.carry (Session.asking []), log := [.ordered .start] }
  let d₂ := d₁.proceed (Session.run "suite_0b63ci" c d₁.session)
  let d₃ : Desk := { d₂ with session := o.carry d₂.session, log := .ordered o :: d₂.log }
  let d₄ := ({ d₃ with log := .took d₃.session.queue t :: d₃.log } : Desk).settle 0 t
    (Session.runTask Session.hostFetch 0 t (d₃.taking 0 t))
  have hunused : (Session.asking []).Unused := ⟨⟨_, rfl⟩, rfl⟩
  have hstarted : Desk.Step Session.hostFetch (.order .start) (.new (Session.asking [])) d₁ :=
    .order .start (by decide +kernel)
  have hcalled : d₁.Step Session.hostFetch .aside d₂ := .call (.run "suite_0b63ci" c)
  have hqueued : d₂.Step Session.hostFetch (.order o) d₃ := .order o (by decide +kernel)
  have hidle : (0, 1000000) ∈ d₃.session.queue.idle := by decide +kernel
  have htaken : d₃.Step Session.hostFetch (.take 0 t) d₄ :=
    .take hidle (by decide +kernel)
  have hrun : Desk.Run Session.hostFetch (fun _ => True) (.new (Session.asking [])) d₄ :=
    (((Relation.ReflTransGen.refl.tail ⟨_, hstarted, fun _ _ => trivial⟩).tail
      ⟨_, hcalled, fun _ _ => trivial⟩).tail ⟨_, hqueued, fun _ _ => trivial⟩).tail
      ⟨_, htaken, fun _ _ => trivial⟩
  obtain ⟨e, herrands, hworker, htask, hstarts⟩ : ∃ e : Errand, d₄.errands = [] ++ e :: [] ∧
      e.worker = 0 ∧ e.task = t ∧ e.Starts (c.truncated 0) :=
    ⟨_, rfl, rfl, rfl, fun _ => rfl⟩
  have hstep : d₄.Step Session.hostFetch (.turn e) _ := .turn herrands
  have hbusy : d₄.session.analyzer.busy = true := by decide +kernel
  have hasked : e.worker ∉ d₄.session.queue.asked := by
    rw [hworker]
    decide +kernel
  have hmem : e ∈ d₄.errands := by simp [herrands]
  have hlost := ((queue_accounts Session.polite_hostFetch hunused hrun).lost_iff e hmem _ hstarts
    hasked _ hstep).mpr hbusy
  have hsound := ((Desk.manned_new hunused).run Session.polite_hostFetch hrun).sound
  have hgone := (hsound.step Session.polite_hostFetch hstep).tallies.gone e.task.id
    (List.mem_filterMap.mpr ⟨_, hlost, rfl⟩)
  refine ⟨d₄, _, e, c.truncated 0, Session.polite_hostFetch, hunused, hrun, hmem, hstarts, hasked,
    hbusy, hstep, ?_, hgone, hlost⟩
  rw [htask]
  decide +kernel

end TagLedger
