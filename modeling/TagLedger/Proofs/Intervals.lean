import TagLedger.Proofs.Noticing

/-!
# Suites that run every so many messages

A suite that fires every `n` messages is queued for a chat once for `n` messages of the chat that
were handled while the installation and the suite were enabled, and its stored count is what is left
over. Messages of other chats, other suites, changes of the settings, and closing and opening anew
have no part in it.

    Tallied N suiteId chat n k tasks s  →  firings suiteId chat tasks = k / n, the count is k % n
                                                                            (Tallied.fires_every)
-/

namespace TagLedger

open Session

variable {N : Naming} {own : Prop} {r r' : Root} {s t : Session} {suiteId chat : String} {n : Int}

/-! ## Suites under their identifiers -/

/-- The suite with this identifier stands under it, and no other suite has it. -/
def OwnKey (suiteId : String) (suites : List (String × Suite)) : Prop :=
  ∀ x ∈ suites, x.2.id = suiteId ↔ x.1 = suiteId

theorem SuiteChange.ownKey {suites new : List (String × Suite)} (h : SuiteChange suites new)
    (hown : OwnKey suiteId suites) : OwnKey suiteId new := by
  intro x hx
  cases h with
  | put hs =>
    rcases Json.mem_insert hx with rfl | hx
    · exact Iff.rfl
    · exact hown x hx
  | replace hold hid hs =>
    rcases Json.mem_insert hx with rfl | hx
    · rw [hid]
      exact hown _ (Json.mem_of_find? hold)
    · exact hown x hx
  | remove id => exact hown x (List.mem_of_mem_filter hx)
  | edit hid hs =>
    obtain ⟨old, hold, rfl⟩ := List.mem_map.mp hx
    rw [hid]
    exact hown old hold

/-- Only one suite can hear a message, the one with the identifier. -/
theorem countP_hears {suites : List (String × Suite)} {x : Suite} (hown : OwnKey suiteId suites)
    (hkeys : (Json.keys suites).Nodup) (hx : Json.find? suites suiteId = some x) (c : Chat) :
    (suites.countP fun y => y.2.Hears suiteId chat c) =
      if x.Hears suiteId chat c then 1 else 0 := by
  obtain ⟨before, after, rfl⟩ := List.append_of_mem (Json.mem_of_find? hx)
  have hothers (l : List (String × Suite)) (hl : ∀ y ∈ l, y ∈ before ++ (suiteId, x) :: after)
      (hne : ∀ y ∈ l, y.1 ≠ suiteId) : (l.countP fun y => y.2.Hears suiteId chat c) = 0 := by
    refine List.countP_eq_zero.mpr fun y hy hhears => ?_
    exact hne y hy ((hown y (hl y hy)).mp (of_decide_eq_true hhears).1)
  unfold Json.keys at hkeys
  rw [List.map_append, List.map_cons, List.nodup_append, List.nodup_cons] at hkeys
  obtain ⟨-, ⟨hafter, -⟩, hbefore⟩ := hkeys
  rw [List.countP_append, List.countP_cons, hothers before, hothers after]
  · simp
  · exact fun y hy => List.mem_append_right _ (List.mem_cons_of_mem _ hy)
  · intro y hy hkey
    exact hafter (List.mem_map.mpr ⟨y, hy, hkey⟩)
  · exact fun y hy => List.mem_append_left _ hy
  · exact fun y hy => hbefore y.1 (List.mem_map_of_mem hy) suiteId List.mem_cons_self

/-- A change of the root that has nothing to do with counts. -/
structure Root.Beside (suiteId : String) (r r' : Root) : Prop where
  counts : r'.settings.counts = r.settings.counts
  ownKey : OwnKey suiteId r.suites → OwnKey suiteId r'.suites

theorem Root.Beside.refl (suiteId : String) (r : Root) : r.Beside suiteId r := ⟨rfl, id⟩

theorem RootStep.beside (h : RootStep r r') : r.Beside suiteId r' := by
  cases h with
  | definitions hkeys => exact ⟨rfl, id⟩
  | arranged h =>
    cases h with
    | suites h => exact ⟨rfl, h.ownKey⟩
    | active id => exact ⟨rfl, fun h => h⟩

theorem beside_of_steps (h : Relation.ReflTransGen RootStep r r') : r.Beside suiteId r' := by
  induction h with
  | refl => exact .refl suiteId r
  | tail _ hstep ih =>
    have hlast := @RootStep.beside _ _ suiteId hstep
    exact ⟨hlast.counts.trans ih.counts, hlast.ownKey ∘ ih.ownKey⟩

/-! ## Steps -/

/-- The root in memory is as `P` says. -/
def Session.Holds (P : Root → Prop) (s : Session) : Prop := ∃ r, s.storage.store.root = some r ∧ P r

/-- What is asked to be stored is sound. -/
def SessionOperation.Sound : SessionOperation → Prop
  | .ofStorage op => op.Sound
  | _ => True

/-- Settings that are put in the place of the old ones have the same counts. -/
def SessionOperation.LeavesCounts (s : Session) : SessionOperation → Prop
  | .ofStorage (.ofStore (.saveSettings x)) => s.Holds fun r => x.counts = r.settings.counts
  | _ => True

/-- The operation is no message, starts no count anew, and does not pass for a count. Suites that
are put in the place of all have their own keys. -/
def SessionOperation.Beside (suiteId : String) (s : Session) : SessionOperation → Prop
  | .newMessage _ | .resetCount _ _ => False
  | .trigger _ _ cause => cause ≠ .interval
  | .ofStorage (.ofStore (.saveSuites suites)) => OwnKey suiteId suites
  | op => op.LeavesCounts s

theorem SessionOperation.Beside.leavesCounts {op : SessionOperation} (h : op.Beside suiteId s) :
    op.LeavesCounts s := by
  unfold SessionOperation.Beside at h
  split at h
  · exact trivial
  · exact trivial
  · exact trivial
  · exact trivial
  · exact h

theorem SessionOperation.Beside.ownKey {op : Operation} (h : (ofStorage op).Beside suiteId s)
    (hmakes : op.Makes r r') (hown : OwnKey suiteId r.suites) : OwnKey suiteId r'.suites := by
  unfold Operation.Makes at hmakes
  split at hmakes
  · rw [hmakes]
    exact h
  · rw [hmakes]
    exact hown
  · exact (beside_of_steps hmakes).ownKey hown

/-- What may happen to a session: it is asked for something, time passes, what is not stored
changes, or it is closed and another one is opened, which has to start anew with all that was not
written. -/
inductive Session.Step (N : Naming) (own : Prop) (allowed : Session → SessionOperation → Prop)
    (s : Session) : Session → Prop where
  | ask (op : SessionOperation) (hc : ∀ c ∈ op.chats, N.used c) (hop : op.Sound)
      (hallowed : allowed s op) : Step N own allowed s (ended op.perform s).2
  | elapse (time : Nat) :
      Step N own allowed s { s with storage := (exec (Storage.elapse time) s.storage).2 }
  | elsewhere {t : Session} (clock : Clock) (random : Identifier.Random)
      (hstorage : t.storage = { s.storage with clock := clock, random := random })
      (hcounter : t.counter = s.counter) (hissued : t.queue.issued = s.queue.issued) :
      Step N own allowed s t
  | reopened (hown : own) {t : Session}
      (hclosed : ended (stored (.ofAction Storage.close)) s = (.ok (), t)) :
      Step N own allowed s (ended (stored Storage.load) t.restarted).2

/-- The tasks that were queued while `s` came to `t`. -/
def Session.queuedSince (s t : Session) : List Task := t.queue.issued.drop s.queue.issued.length

theorem Session.queuedSince_append {tasks : List Task}
    (h : t.queue.issued = s.queue.issued ++ tasks) : s.queuedSince t = tasks := by
  rw [queuedSince, h, List.drop_left]

theorem Session.queuedSince_same (h : t.queue.issued = s.queue.issued) : s.queuedSince t = [] := by
  rw [queuedSince, h, List.drop_length]

namespace Session.Serving

theorem holds (h : Serving N own r s) {P : Root → Prop} (hp : s.Holds P) : P r := by
  obtain ⟨r', hr', hp⟩ := hp
  rw [h.rooted.inMemory] at hr'
  obtain rfl := Option.some.inj hr'
  exact hp

/-- An operation on the storage leaves the counts as they are, if they are not handed to it. -/
theorem ofStorage (h : Serving N own r s) {op : Operation} (hc : ∀ c ∈ op.chats, N.used c)
    (hop : op.Sound) (hcounts : (SessionOperation.ofStorage op).LeavesCounts s) :
    ∃ r', op.Makes r r' ∧ Serving N own r' (ended (stored op.perform) s).2 ∧
      r'.settings.counts = r.settings.counts ∧
      (ended (stored op.perform) s).2.queue = s.queue := by
  obtain ⟨r', hmakes, hrooted⟩ := h.rooted.perform hc hop
  have hsame : r'.settings.counts = r.settings.counts := by
    unfold Operation.Makes at hmakes
    split at hmakes
    · rw [hmakes]
    · rw [hmakes]
      exact h.holds hcounts
    · exact (@beside_of_steps _ _ "" hmakes).counts
  refine ⟨r', hmakes, ⟨?_, ?_⟩, hsame, ?_⟩
  · rw [ended_stored]
    exact hrooted
  · rw [ended_stored, hsame]
    exact h.counter
  · rw [ended_stored]

/-- Replies that are stored are nothing to the root and the queue. -/
theorem assigned (h : Serving N own r s) (hc : N.used chat) (floors : String)
    (results : List Tagged) :
    Serving N own r (ended (Session.assign chat floors results).silent s).2 ∧
      (ended (Session.assign chat floors results).silent s).2.queue = s.queue := by
  obtain ⟨result, u, hrun, hrooted⟩ := h.assign hc floors results
  cases result with
  | error e =>
    have hend : ended (Session.assign chat floors results).silent s =
        (.error e, { s with storage := u }) := ended_bind_error hrun _
    rw [hend]
    exact ⟨⟨hrooted, h.counter⟩, rfl⟩
  | ok n =>
    have hend : ended (Session.assign chat floors results).silent s =
        (.ok (), { s with storage := u }) := ended_bind_ok hrun _
    rw [hend]
    exact ⟨⟨hrooted, h.counter⟩, rfl⟩

/-- A session that was closed well is opened anew on its own root. -/
theorem reopened (h : Serving N own r s) (hown : own)
    (hclosed : ended (stored (.ofAction Storage.close)) s = (.ok (), t)) :
    Serving N own r (ended (stored Storage.load) t.restarted).2 ∧
      (ended (stored Storage.load) t.restarted).2.queue.issued = [] := by
  obtain rfl : own = True := eq_true hown
  rw [ended_stored, ended_ofAction] at hclosed
  rcases hrun : exec Storage.close s.storage with ⟨e | _, u⟩
  · rw [hrun] at hclosed
    cases (Prod.mk.inj hclosed).1
  · rw [hrun] at hclosed
    obtain ⟨-, rfl⟩ := Prod.mk.inj hclosed
    have hrooted : Rooted N True r u := by
      have hkept := Rooted.writing.close none s.storage h.rooted
      rw [hrun] at hkept
      exact hkept
    have hclean : u.store.rootDirty = false :=
      (Storage.clean_of_close hrun).1 (by rw [hrooted.inMemory]; rfl)
    obtain ⟨v, hload, hv⟩ := hrooted.reload hclean
    have hopened : ended Storage.load (restarted { s with storage := u }).storage = (.ok r, v) :=
      hload
    rw [ended_stored, hopened]
    exact ⟨⟨hv, Or.inl rfl⟩, rfl⟩

/-- Whatever happens, the session goes on to serve a root. -/
theorem step (h : Serving N own r s)
    (hstep : Session.Step N own (fun s op => op.LeavesCounts s) s t) :
    ∃ r', Serving N own r' t := by
  cases hstep with
  | ask op hc hop hallowed =>
    cases op with
    | ofStorage op =>
      obtain ⟨r', -, hserving, -⟩ := h.ofStorage hc hop hallowed
      exact ⟨r', hserving⟩
    | newMessage c =>
      obtain ⟨tasks, m, t, hrun, hserving, -⟩ := h.newMessage c
      have hend : ended (Session.newMessage c).silent s = (.ok (), t) := ended_bind_ok hrun _
      rw [SessionOperation.perform, hend]
      exact ⟨_, hserving⟩
    | trigger suiteId c cause =>
      obtain ⟨result, tasks, t, hrun, hserving, -⟩ := h.trigger suiteId c cause
      have hend : ended (Session.trigger suiteId c cause).silent s = (.ok (), t) :=
        ended_bind_ok hrun _
      rw [SessionOperation.perform, hend]
      exact ⟨_, hserving⟩
    | resetCount suiteId chat =>
      obtain ⟨m, t, hrun, hserving⟩ := h.resetCount suiteId chat
      rw [SessionOperation.perform, hrun]
      exact ⟨_, hserving⟩
    | assign chat floors results =>
      have hused : N.used chat := hc chat (List.mem_singleton_self chat)
      obtain ⟨hserving, -⟩ := h.assigned hused floors results
      exact ⟨r, hserving⟩
  | elapse time => exact ⟨r, Rooted.writing.elapse time none _ h.rooted, h.counter⟩
  | elsewhere clock random hstorage hcounter hissued =>
    exact ⟨r, hstorage ▸ { h.rooted with }, hcounter ▸ h.counter⟩
  | reopened hown hclosed => exact ⟨r, (h.reopened hown hclosed).1⟩

/-- What has nothing to do with counts leaves them, and queues no task for having counted. -/
theorem beside (h : Serving N own r s)
    (hstep : Session.Step N own (fun s op => op.Beside suiteId s) s t) :
    ∃ r', Serving N own r' t ∧ r.Beside suiteId r' ∧
      firings suiteId chat (s.queuedSince t) = 0 := by
  have hstill {t : Session} (ht : Serving N own r t)
      (hissued : t.queue.issued = s.queue.issued) : ∃ r', Serving N own r' t ∧
        r.Beside suiteId r' ∧ firings suiteId chat (s.queuedSince t) = 0 :=
    ⟨r, ht, .refl suiteId r, by rw [queuedSince_same hissued, firings_nil]⟩
  cases hstep with
  | ask op hc hop hallowed =>
    cases op with
    | ofStorage op =>
      obtain ⟨r', hmakes, hserving, hcounts, hqueue⟩ := h.ofStorage hc hop hallowed.leavesCounts
      refine ⟨r', hserving, ⟨hcounts, hallowed.ownKey hmakes⟩, ?_⟩
      · rw [queuedSince_same (by rw [SessionOperation.perform, hqueue]), firings_nil]
    | newMessage c => exact hallowed.elim
    | trigger id c cause =>
      obtain ⟨result, tasks, t, hrun, hserving, hissued, hcauses⟩ := h.trigger id c cause
      have hend : ended (Session.trigger id c cause).silent s = (.ok (), t) :=
        ended_bind_ok hrun _
      rw [SessionOperation.perform, hend]
      refine ⟨r, hserving, .refl suiteId r, ?_⟩
      rw [queuedSince_append hissued]
      refine List.countP_eq_zero.mpr fun task htask hfires => ?_
      have hinterval := (of_decide_eq_true hfires).2.2
      exact hallowed ((hcauses task htask).symm.trans hinterval)
    | resetCount id c => exact hallowed.elim
    | assign c floors results =>
      have hused : N.used c := hc c (List.mem_singleton_self c)
      obtain ⟨hserving, hqueue⟩ := h.assigned hused floors results
      exact hstill hserving (congrArg Queue.issued hqueue)
  | elapse time => exact hstill ⟨Rooted.writing.elapse time none _ h.rooted, h.counter⟩ rfl
  | elsewhere clock random hstorage hcounter hissued =>
    exact hstill ⟨hstorage ▸ { h.rooted with }, hcounter ▸ h.counter⟩ hissued
  | reopened hown hclosed =>
    obtain ⟨hserving, hissued⟩ := h.reopened hown hclosed
    refine ⟨r, hserving, .refl suiteId r, ?_⟩
    rw [queuedSince, hissued, List.drop_nil, firings_nil]

end Session.Serving

/-! ## Counting along a session -/

/-- A suite stands under this identifier and fires every `n` messages. -/
def Root.Fires (suiteId : String) (n : Int) (r : Root) : Prop :=
  ∃ x, Json.find? r.suites suiteId = some x ∧ x.trigger.kind = .interval ∧ intervalOf x.trigger = n

/-- The installation and the suite are enabled. -/
def Root.heeds (suiteId : String) (r : Root) : Bool :=
  r.settings.enabled && (Json.find? r.suites suiteId).any (·.enabled)

/-- The installation and the suite are enabled in memory. -/
def Session.heeds (suiteId : String) (s : Session) : Bool :=
  s.storage.store.root.any (·.heeds suiteId)

/-- A session that was opened on a store of its own. -/
structure Session.Opened (N : Naming) (s : Session) : Prop where
  opens : ∃ u r, New N u.storage ∧ u.counter = ⟨[], false⟩ ∧
    ended (stored Storage.load) u = (.ok r, s) ∧ r.version = Root.currentVersion
  unmarked : s.storage.store.rootDegraded = false
  used : ∀ c ∈ Json.keys s.storage.store.values, N.used c

/-- `k` messages of the chat were handled while the installation and the suite were enabled, and
`tasks` were queued, since the suite was put where it is with nothing counted for it. Its trigger
was never changed. -/
inductive Tallied (N : Naming) (suiteId chat : String) (n : Int) : Nat → List Task → Session → Prop
  | begun {s₀ s : Session} (hopened : s₀.Opened N)
      (hsteps : Relation.ReflTransGen
        (Session.Step N False fun s op => op.LeavesCounts s) s₀ s)
      (hdirty : s.storage.store.rootDirty = true)
      (hnew : s.Holds fun r => r.Fires suiteId n ∧ OwnKey suiteId r.suites ∧
        countOf r.settings.counts suiteId chat = 0) :
      Tallied N suiteId chat n 0 [] s
  | step {k : Nat} {tasks : List Task} {s t : Session} (h : Tallied N suiteId chat n k tasks s)
      (hstep : Session.Step N True (fun s op => op.Beside suiteId s) s t)
      (hunchanged : t.Holds (Root.Fires suiteId n)) :
      Tallied N suiteId chat n k (tasks ++ s.queuedSince t) t
  | message {k : Nat} {tasks : List Task} {s t : Session} (h : Tallied N suiteId chat n k tasks s)
      (c : Chat) (ht : (ended (Session.newMessage c).silent s).2 = t) :
      Tallied N suiteId chat n (k + if c.id = chat ∧ s.heeds suiteId then 1 else 0)
        (tasks ++ s.queuedSince t) t

/-- What the count is between messages. -/
structure Session.Counting (N : Naming) (suiteId chat : String) (n : Int) (k : Nat)
    (tasks : List Task) (r : Root) (s : Session) : Prop where
  serving : Serving N True r s
  fires : r.Fires suiteId n
  ownKey : OwnKey suiteId r.suites
  nonneg : 0 ≤ countOf r.settings.counts suiteId chat
  below : countOf r.settings.counts suiteId chat < n
  sum : (k : Int) = n * firings suiteId chat tasks + countOf r.settings.counts suiteId chat

theorem Root.Fires.pos (h : r.Fires suiteId n) (hr : r.Sound) : 0 < n := by
  obtain ⟨x, hx, -, rfl⟩ := h
  have hsound := (hr.find hx).trigger
  unfold intervalOf
  cases hinterval : x.trigger.interval with
  | none => decide
  | some n =>
    have hpos : 0 < n := hsound n hinterval
    dsimp only
    rw [if_neg hpos.ne']
    exact hpos

namespace Session.Serving

theorem ofOpened (h : s.Opened N) : ∃ r, Serving N False r s := by
  obtain ⟨u, r, hnew, hcounter, hopened, hversion⟩ := h.opens
  rw [ended_stored] at hopened
  rcases hload : ended Storage.load u.storage with ⟨result, t⟩
  rw [hload] at hopened
  obtain ⟨rfl, rfl⟩ := Prod.mk.inj hopened
  exact ⟨r, .ofLoad hnew hload hversion h.unmarked h.used, Or.inl hcounter⟩

theorem ofSteps {s₀ : Session} (h : ∃ r, Serving N own r s₀) (hsteps : Relation.ReflTransGen
    (Session.Step N own fun s op => op.LeavesCounts s) s₀ s) : ∃ r, Serving N own r s := by
  induction hsteps with
  | refl => exact h
  | tail _ hstep ih =>
    obtain ⟨r, hr⟩ := ih
    exact hr.step hstep

/-- The document is written anew when the root is to be written. -/
theorem owned (h : Serving N own r s) (hdirty : s.storage.store.rootDirty = true) :
    Serving N True r s :=
  ⟨{ h.rooted with written := fun _ hclean => nomatch hdirty.symm.trans hclean }, h.counter⟩

theorem heeds (h : Serving N own r s) : s.heeds suiteId = r.heeds suiteId := by
  unfold Session.heeds
  rw [h.rooted.inMemory]
  rfl

/-- A message enables and disables nothing. -/
theorem heeds_newMessage (h : Serving N own r s) (c : Chat) :
    (ended (Session.newMessage c).silent s).2.heeds suiteId = s.heeds suiteId := by
  obtain ⟨tasks, m, t, hrun, hserving, -⟩ := h.newMessage c
  have hend : ended (Session.newMessage c).silent s = (.ok (), t) := ended_bind_ok hrun _
  rw [hend, hserving.heeds, h.heeds]
  rfl

end Session.Serving

namespace Session.Counting

variable {k : Nat} {tasks : List Task}

theorem begun (h : Serving N True r s) (hfires : r.Fires suiteId n)
    (hown : OwnKey suiteId r.suites) (hnone : countOf r.settings.counts suiteId chat = 0) :
    Counting N suiteId chat n 0 [] r s where
  serving := h
  fires := hfires
  ownKey := hown
  nonneg := hnone.ge
  below := by
    rw [hnone]
    exact hfires.pos h.rooted.sound
  sum := by simp [hnone]

theorem step (h : Counting N suiteId chat n k tasks r s)
    (hstep : Session.Step N True (fun s op => op.Beside suiteId s) s t)
    (hunchanged : t.Holds (Root.Fires suiteId n)) :
    ∃ r', Counting N suiteId chat n k (tasks ++ s.queuedSince t) r' t := by
  obtain ⟨r', hserving, hbeside, hnone⟩ := h.serving.beside hstep
  refine ⟨r', hserving, hserving.holds hunchanged, hbeside.ownKey h.ownKey, ?_, ?_, ?_⟩
  · rw [hbeside.counts]
    exact h.nonneg
  · rw [hbeside.counts]
    exact h.below
  · rw [hbeside.counts, firings_append, hnone]
    exact h.sum

theorem message (h : Counting N suiteId chat n k tasks r s) (c : Chat) :
    ∃ new m t, ended (Session.newMessage c) s = (.ok new, t) ∧ s.queuedSince t = new ∧
      Counting N suiteId chat n (k + if c.id = chat ∧ r.heeds suiteId then 1 else 0)
        (tasks ++ new) (r.withCounts m) t := by
  obtain ⟨x, hx, hkind, hinterval⟩ := h.fires
  obtain ⟨new, m, t, hrun, hserving, hissued, hadvances⟩ := h.serving.newMessage c
  have hsuite : ∀ y ∈ r.suites, y.2.id = suiteId →
      y.2.trigger.kind = .interval ∧ intervalOf y.2.trigger = n := by
    intro y hy hid
    have hkey := (h.ownKey y hy).mp hid
    have hfind := Json.find?_of_mem h.serving.rooted.sound.suiteKeys hy
    rw [hkey, hx] at hfind
    obtain rfl := Option.some.inj hfind
    exact ⟨hkind, hinterval⟩
  have hheard : (if r.settings.enabled then r.suites.countP fun x => x.2.Hears suiteId chat c
      else 0) = if c.id = chat ∧ r.heeds suiteId then 1 else 0 := by
    have hid : x.id = suiteId := (h.ownKey _ (Json.mem_of_find? hx)).mpr rfl
    rw [countP_hears h.ownKey h.serving.rooted.sound.suiteKeys hx c]
    unfold Root.heeds Suite.Hears
    rw [hx]
    cases r.settings.enabled <;> simp [hid]
  obtain ⟨hnonneg, hbelow, hsum⟩ := hadvances suiteId chat n hsuite h.nonneg h.below
  rw [hheard] at hsum
  refine ⟨new, m, t, hrun, queuedSince_append hissued, hserving, ⟨x, hx, hkind, hinterval⟩,
    h.ownKey, hnonneg, hbelow, ?_⟩
  rw [firings_append]
  push_cast at hsum ⊢
  have hold := h.sum
  rw [mul_add]
  unfold Root.withCounts
  dsimp only
  linarith

end Session.Counting

/-! ### A suite that is created -/

/-- The first suite is also made active. -/
theorem Suites.ended_create {u : Storage} (hroot : u.store.root = some r) (name : Option String)
    (enabled : Bool) (trigger : Option Trigger) (useSnapshot : Option Bool) :
    ∃ x v active, ended (Suites.create name enabled trigger useSnapshot) u = (.ok x, v) ∧
      (x.enabled = enabled ∧ x.trigger = trigger.getD .manual) ∧ v.store.rootDirty = true ∧
      v.store.root = some { r with
        suites := Json.insert r.suites x.id x
        settings := { r.settings with activeSuite := active } } := by
  obtain ⟨id, v, hid, hv⟩ : ∃ id v,
      ended (liftM (Storage.newId "suite" 5) : Activity Storage String) u = (.ok id, v) ∧
      v.store.root = some r := ⟨_, _, rfl, hroot⟩
  have hnow : ended (liftM Storage.now : Activity Storage Int) v = (.ok v.clock.now, v) := rfl
  unfold Suites.create
  rw [ended_bind_ok (Storage.ended_suites hroot), ended_bind_ok hid, ended_bind_ok hnow]
  dsimp only
  generalize hx : (⟨id, _, enabled, trigger.getD .manual, [], useSnapshot, v.clock.now,
    v.clock.now⟩ : Suite) = x
  obtain rfl : id = x.id := by rw [← hx]
  have hchange {v : Storage} {r : Root} (f : Root → Root) (hv : v.store.root = some r) :
      ∃ w, ended (Storage.changeRoot f) v = (.ok (), w) ∧ w.store.root = some (f r) ∧
        w.store.rootDirty = true := ⟨_, Storage.ended_changeRoot hv f, rfl, rfl⟩
  obtain ⟨w, hsave, hroot, hdirty⟩ := hchange
    (fun old => { old with suites := Json.insert r.suites x.id x }) hv
  unfold Storage.saveSuites
  rw [ended_bind_ok hsave]
  have hfields : x.enabled = enabled ∧ x.trigger = trigger.getD .manual := by
    rw [← hx]
    exact ⟨rfl, rfl⟩
  split
  · obtain ⟨z, hactive, hroot', hdirty'⟩ := hchange
      (fun old => { old with settings := { r.settings with activeSuite := some x.id } }) hroot
    have hset : ended (Suites.setActive (some x.id)) w = (.ok (), z) :=
      (ended_bind_ok (Storage.ended_settings hroot) _).trans hactive
    rw [ended_bind_ok hset]
    exact ⟨x, z, some x.id, rfl, hfields, hdirty', hroot'⟩
  · exact ⟨x, w, r.settings.activeSuite, rfl, hfields, hdirty, hroot⟩

namespace Tallied

variable {k : Nat} {tasks : List Task}

/-- A suite is created with an interval trigger under an identifier that is new. -/
theorem created {s₀ : Session} {trigger : Trigger} {x : Suite} {name : Option String}
    {enabled : Bool} {useSnapshot : Option Bool} (hopened : s₀.Opened N)
    (hsteps : Relation.ReflTransGen
      (Session.Step N False fun s op => op.LeavesCounts s) s₀ s)
    (htrigger : trigger.Sound) (hkind : trigger.kind = .interval)
    (hcreate : ended (stored (Suites.create name enabled (some trigger) useSnapshot)) s =
      (.ok x, t))
    (hnew : s.Holds fun r => (∀ y ∈ r.suites, y.1 ≠ x.id ∧ y.2.id ≠ x.id) ∧
      countOf r.settings.counts x.id chat = 0) :
    Tallied N x.id chat (intervalOf trigger) 0 [] t := by
  obtain ⟨r, hroot, hids, hnone⟩ := hnew
  obtain ⟨x', v, active, hrun, ⟨-, hx⟩, hdirty, hroot'⟩ :=
    Suites.ended_create hroot name enabled (some trigger) useSnapshot
  rw [ended_stored, hrun] at hcreate
  obtain ⟨⟨⟩, rfl⟩ := Prod.mk.inj hcreate
  have hstep : Session.Step N False (fun s op => op.LeavesCounts s) s { s with storage := v } := by
    have hask := @Session.Step.ask N False (fun s op => op.LeavesCounts s) s
      (.ofStorage (.ofSuites (.create name enabled (some trigger) useSnapshot))) nofun
      (fun y hy => Option.some.inj hy ▸ htrigger) trivial
    have hend : ended (Suites.create name enabled (some trigger) useSnapshot).silent s.storage =
      (.ok (), v) := ended_bind_ok hrun _
    rw [SessionOperation.perform, ended_stored] at hask
    rw [Operation.perform, SuiteOperation.perform, hend] at hask
    exact hask
  have hfind : Json.find? (Json.insert r.suites x.id x) x.id = some x := by
    rw [Json.find?_insert, if_pos rfl]
  have hown : OwnKey x.id (Json.insert r.suites x.id x) := by
    intro y hy
    rcases Json.mem_insert hy with rfl | hy
    · exact Iff.rfl
    · exact iff_of_false (hids y hy).2 (hids y hy).1
  refine .begun hopened (.tail hsteps hstep) hdirty ⟨_, hroot', ⟨x, hfind, ?_, ?_⟩, hown, hnone⟩
  · rw [hx]
    exact hkind
  · rw [hx]
    rfl

theorem counting (h : Tallied N suiteId chat n k tasks s) :
    ∃ r, Session.Counting N suiteId chat n k tasks r s := by
  induction h with
  | begun hopened hsteps hdirty hnew =>
    obtain ⟨r, hserving⟩ := Session.Serving.ofSteps (Session.Serving.ofOpened hopened) hsteps
    obtain ⟨hfires, hown, hnone⟩ := hserving.holds hnew
    exact ⟨r, .begun (hserving.owned hdirty) hfires hown hnone⟩
  | step _ hstep hunchanged ih =>
    obtain ⟨r, hcounting⟩ := ih
    exact hcounting.step hstep hunchanged
  | message _ c ht ih =>
    obtain ⟨r, hcounting⟩ := ih
    obtain ⟨new, m, t, hrun, hnew, hcounted⟩ := hcounting.message c
    have hend : ended (Session.newMessage c).silent _ = (.ok (), t) := ended_bind_ok hrun _
    rw [hend] at ht
    subst ht
    rw [hcounting.serving.heeds, hnew]
    exact ⟨_, hcounted⟩

/-- A message that is counted, of the chat. -/
theorem heard (h : Tallied N suiteId chat n k tasks s) (hheeds : s.heeds suiteId = true) {c : Chat}
    (hc : c.id = chat) : ∃ tasks t, t.heeds suiteId = true ∧
      Tallied N suiteId chat n (k + 1) tasks t := by
  obtain ⟨r, hcounting⟩ := h.counting
  have hmessage := h.message c rfl
  rw [if_pos ⟨hc, hheeds⟩] at hmessage
  exact ⟨_, _, (hcounting.serving.heeds_newMessage c).trans hheeds, hmessage⟩

/-- A suite that fires every `n` messages is queued for a chat once for `n` messages that are
handled while it is enabled, and its count is what is left over. No message is lost. -/
theorem fires_every (h : Tallied N suiteId chat n k tasks s) :
    (firings suiteId chat tasks : Int) = k / n ∧
      (∃ x, ended (stored Storage.settings) s = (.ok x, s) ∧
        countOf x.counts suiteId chat = k % n) ∧
      (s.counter.loaded = true → countOf s.counter.counts suiteId chat = k % n) ∧
      ∀ c, ∃ new t, ended (Session.newMessage c) s = (.ok new, t) ∧ s.queuedSince t = new := by
  obtain ⟨r, hcounting⟩ := h.counting
  have hserving := hcounting.serving
  have hpos : 0 < n := hcounting.fires.pos hserving.rooted.sound
  have hsum : n * firings suiteId chat tasks + countOf r.settings.counts suiteId chat = k :=
    hcounting.sum.symm
  have hdivmod := Int.ediv_emod_unique hpos |>.mpr
    ⟨(add_comm _ _).trans hsum, hcounting.nonneg, hcounting.below⟩
  refine ⟨hdivmod.1.symm, ⟨r.settings, hserving.settings, hdivmod.2.symm⟩, fun hloaded => ?_,
    fun c => ?_⟩
  · rcases hserving.counter with hcounter | hcounter
    · rw [hcounter] at hloaded
      exact absurd hloaded Bool.false_ne_true
    · rw [hcounter]
      exact hdivmod.2.symm
  · obtain ⟨new, m, t, hrun, hnew, -⟩ := hcounting.message c
    exact ⟨new, t, hrun, hnew⟩

/-- A suite is created that fires every second message, the installation is enabled, and three
messages come from the chat. -/
theorem fires_every_second : ∃ N id tasks s, Tallied N id "c" 2 3 tasks s ∧
    (firings id "c" tasks : Int) = 1 ∧
    ∃ x, ended (stored Storage.settings) s = (.ok x, s) ∧
      countOf x.counts id "c" = 1 := by
  let N : Naming := .ofChat "dynvar-root.json" "dynvar-values-" "c" (by decide)
  let start : Session := .ofConfig .standard (.ofDocuments []) 0 (.ofReplies [])
  let trigger : Trigger := ⟨.interval, some 2, []⟩
  have htrigger : trigger.Sound := fun n hn => Option.some.inj hn ▸ by decide
  have hnew : New N start.storage := ⟨fresh_empty _ _ _ _ _ _, fun _ => rfl⟩
  obtain ⟨u, hload, hsynced⟩ := Synced.create hnew fun _ => rfl
  have hopened : Opened N { start with storage := u } :=
    { opens := ⟨start, .standard, hnew, rfl, by rw [ended_stored, hload], rfl⟩
      unmarked := hsynced.unmarked
      used := by simp [hsynced.chats] }
  obtain ⟨x, v, active, hcreate, ⟨hx, hkind⟩, -, hroot⟩ :=
    Suites.ended_create hsynced.inMemory none true (some trigger) none
  have hcreated : Tallied N x.id "c" 2 0 [] { start with storage := v } :=
    .created hopened .refl htrigger rfl (by rw [ended_stored, hcreate])
      ⟨_, hsynced.inMemory, List.forall_mem_nil _, rfl⟩
  let settings : Settings := { Settings.standard with enabled := true }
  let op : SessionOperation := .ofStorage (.ofStore (.saveSettings settings))
  obtain ⟨t, ht, hroot'⟩ : ∃ t, (ended op.perform { start with storage := v }).2 = t ∧
      t.storage.store.root = some ⟨2, [(x.id, x)], [], settings⟩ := by
    refine ⟨_, rfl, ?_⟩
    have henable := Storage.ended_changeRoot hroot fun r => { r with settings := settings }
    rw [SessionOperation.perform, ended_stored]
    exact congrArg (fun p => p.2.store.root) henable
  have hfind : Json.find? [(x.id, x)] x.id = some x := by simp [Json.find?]
  have hstep : Session.Step N True (fun s op => op.Beside x.id s)
      { start with storage := v } t := by
    subst ht
    exact .ask op (List.forall_mem_nil _) { Synced.sound_standard.settings with } ⟨_, hroot, rfl⟩
  have henabled := hcreated.step hstep ⟨_, hroot', x, hfind, by rw [hkind]; rfl, by rw [hkind]; rfl⟩
  have hheeds : t.heeds x.id = true := by
    unfold Session.heeds Root.heeds
    rw [hroot']
    simp [settings, hfind, hx]
  obtain ⟨_, s₁, hheeds₁, hone⟩ := henabled.heard hheeds (c := ⟨"c", [], none⟩) rfl
  obtain ⟨_, s₂, hheeds₂, htwo⟩ := hone.heard hheeds₁ (c := ⟨"c", [], none⟩) rfl
  obtain ⟨_, s₃, -, hthree⟩ := htwo.heard hheeds₂ (c := ⟨"c", [], none⟩) rfl
  obtain ⟨hfirings, hcount, -⟩ := hthree.fires_every
  exact ⟨_, _, _, _, hthree, hfirings, hcount⟩

end Tallied

end TagLedger
