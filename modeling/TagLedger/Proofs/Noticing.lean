import TagLedger.Proofs.Reopening
import TagLedger.Proofs.Rooted

/-!
# What a new message does

A message is counted for every suite that fires after a number of messages, in the chat it comes
from. A suite that is due is queued, and its count starts anew. The counts go into the settings, so
those of the session and those of the settings agree between messages.

    count + messages counted = n · tasks queued + count after                   (Advances)
    Serving N own r s → newMessage c gives the tasks that it queues, and counts (Serving.newMessage)
-/

namespace TagLedger

open Session

variable {α β : Type} {N : Naming} {own : Prop} {r : Root} {s t : Session} {suiteId chat : String}
  {n : Int} {m m' m'' : MessageCounts}

/-! ## Counts -/

namespace Session

/-- The counts of other suites and chats stay as they are. -/
theorem countOf_setCount_other {id c : String} (h : ¬ (id = suiteId ∧ c = chat)) (k : Int) :
    countOf (setCount m id c k) suiteId chat = countOf m suiteId chat := by
  unfold countOf setCount
  rw [Json.find?_insert]
  split
  · next hid =>
    subst hid
    rw [Option.bind_some, Json.find?_insert, if_neg fun hc => h ⟨rfl, hc⟩]
    cases Json.find? m id with
    | none => rfl
    | some counts => rfl
  · rfl

end Session

/-- A suite is counted by its messages. -/
def Suite.Counts (s : Suite) : Prop := s.enabled = true ∧ s.trigger.kind = .interval

instance (s : Suite) : Decidable s.Counts := inferInstanceAs (Decidable (_ ∧ _))

/-- The next message in the chat makes the suite run. -/
def Suite.Due (s : Suite) (chat : String) (m : MessageCounts) : Prop :=
  s.Counts ∧ intervalOf s.trigger ≤ countOf m s.id chat + 1

instance (s : Suite) (chat : String) (m : MessageCounts) : Decidable (s.Due chat m) :=
  inferInstanceAs (Decidable (_ ∧ _))

/-- The counts after a message in the chat. -/
def Suite.noted (s : Suite) (chat : String) (m : MessageCounts) : MessageCounts :=
  if s.Due chat m then setCount (bump m s.id chat) s.id chat 0
  else if s.Counts then bump m s.id chat
  else m

theorem Suite.sound_noted (s : Suite) (chat : String) (h : m.Sound) : (s.noted chat m).Sound := by
  unfold noted bump
  split
  · exact (h.setCount _ _ _).setCount _ _ _
  · split
    · exact h.setCount _ _ _
    · exact h

/-! ## Tasks -/

/-- So many of the tasks were queued for a suite and a chat because enough messages had come. -/
def firings (suiteId chat : String) (tasks : List Task) : Nat :=
  tasks.countP fun t => t.suiteId = suiteId ∧ t.chatId = chat ∧ t.cause = .interval

@[simp] theorem firings_nil : firings suiteId chat [] = 0 := rfl

@[simp] theorem firings_append (tasks more : List Task) : firings suiteId chat (tasks ++ more) =
    firings suiteId chat tasks + firings suiteId chat more := List.countP_append

theorem firings_singleton (t : Task) : firings suiteId chat [t] =
    if t.suiteId = suiteId ∧ t.chatId = chat ∧ t.cause = .interval then 1 else 0 := by
  simp [firings, List.countP_singleton]

/-- While the counts go from `m` to `m'` and `tasks` are queued, `d` messages are counted for a
suite that fires every `n` messages in a chat. -/
def Advances (suiteId chat : String) (n : Int) (d : Nat) (m : MessageCounts) (tasks : List Task)
    (m' : MessageCounts) : Prop :=
  0 ≤ countOf m suiteId chat → countOf m suiteId chat < n →
    0 ≤ countOf m' suiteId chat ∧ countOf m' suiteId chat < n ∧
      countOf m suiteId chat + d = n * firings suiteId chat tasks + countOf m' suiteId chat

namespace Advances

theorem refl (m : MessageCounts) : Advances suiteId chat n 0 m [] m := fun h0 hn =>
  ⟨h0, hn, by simp⟩

theorem trans {d e : Nat} {tasks more : List Task} (h : Advances suiteId chat n d m tasks m')
    (h' : Advances suiteId chat n e m' more m'') :
    Advances suiteId chat n (d + e) m (tasks ++ more) m'' := by
  intro h0 hn
  obtain ⟨h0', hn', hsum⟩ := h h0 hn
  obtain ⟨h0'', hn'', hsum'⟩ := h' h0' hn'
  refine ⟨h0'', hn'', ?_⟩
  rw [firings_append]
  push_cast
  linarith [mul_add n (firings suiteId chat tasks : Int) (firings suiteId chat more)]

/-- Nothing is counted, and nothing is queued for the suite. -/
theorem still {tasks : List Task} (hcount : countOf m' suiteId chat = countOf m suiteId chat)
    (htasks : firings suiteId chat tasks = 0) : Advances suiteId chat n 0 m tasks m' := by
  intro h0 hn
  rw [hcount, htasks]
  exact ⟨h0, hn, by simp⟩

end Advances

/-- The message is counted for the suite with this identifier in the chat. -/
def Suite.Hears (suiteId chat : String) (c : Chat) (s : Suite) : Prop :=
  s.id = suiteId ∧ c.id = chat ∧ s.enabled = true

instance (suiteId chat : String) (c : Chat) (s : Suite) : Decidable (s.Hears suiteId chat c) :=
  inferInstanceAs (Decidable (_ ∧ _))

/-- What is queued for a suite when a message comes. -/
structure Suite.Queues (s : Suite) (c : Chat) (m : MessageCounts) (task : Option Task) : Prop where
  suite : ∀ t, task = some t → t.suiteId = s.id ∧ t.chatId = c.id
  due : (∃ t, task = some t ∧ t.cause = .interval) ↔ s.Due c.id m

/-- Nothing is queued for a suite that is not due. -/
theorem Suite.Queues.none {s : Suite} {c : Chat} (h : ¬ s.Due c.id m) : s.Queues c m none where
  suite _ ht := nomatch ht
  due := iff_of_false (fun ⟨_, ht, _⟩ => nomatch ht) h

theorem Suite.advances_noted {s : Suite} {c : Chat} {task : Option Task}
    (hqueues : s.Queues c m task)
    (hsuite : s.id = suiteId → s.trigger.kind = .interval ∧ intervalOf s.trigger = n) :
    Advances suiteId chat n (if s.Hears suiteId chat c then 1 else 0) m task.toList
      (s.noted c.id m) := by
  have hquiet (h : ¬ (s.id = suiteId ∧ c.id = chat ∧ s.Due c.id m)) :
      firings suiteId chat task.toList = 0 := by
    cases htask : task with
    | none => rfl
    | some t =>
      obtain ⟨hs, hc⟩ := hqueues.suite t htask
      rw [Option.toList_some, firings_singleton, if_neg]
      rintro ⟨rfl, rfl, hcause⟩
      exact h ⟨hs.symm, hc.symm, hqueues.due.mp ⟨t, htask, hcause⟩⟩
  by_cases hsame : s.id = suiteId ∧ c.id = chat
  · obtain ⟨rfl, rfl⟩ := hsame
    obtain ⟨hkind, hinterval⟩ := hsuite rfl
    have hcounts : s.Counts ↔ s.enabled = true := and_iff_left hkind
    by_cases hdue : s.Due c.id m
    · obtain ⟨t, rfl, hcause⟩ := hqueues.due.mpr hdue
      obtain ⟨hs, hc⟩ := hqueues.suite t rfl
      rw [if_pos ⟨rfl, rfl, hcounts.mp hdue.1⟩, Option.toList_some]
      intro h0 hn
      have hlast := hdue.2
      rw [hinterval] at hlast
      rw [noted, if_pos hdue, countOf_setCount, firings_singleton, if_pos ⟨hs, hc, hcause⟩]
      refine ⟨le_refl _, by omega, ?_⟩
      push_cast
      omega
    · have hnone := hquiet fun h => hdue h.2.2
      by_cases henabled : s.Counts
      · rw [if_pos ⟨rfl, rfl, hcounts.mp henabled⟩]
        intro h0 hn
        have hnext : countOf m s.id c.id + 1 < n := by
          rw [← hinterval]
          exact not_le.mp fun hle => hdue ⟨henabled, hle⟩
        rw [noted, if_neg hdue, if_pos henabled, countOf_bump, hnone]
        refine ⟨by omega, hnext, ?_⟩
        push_cast
        omega
      · rw [if_neg fun h => henabled (hcounts.mpr h.2.2), noted, if_neg hdue, if_neg henabled]
        exact .still rfl hnone
  · rw [if_neg fun h => hsame ⟨h.1, h.2.1⟩]
    refine .still ?_ (hquiet fun h => hsame ⟨h.1, h.2.1⟩)
    unfold noted bump
    split
    · rw [countOf_setCount_other hsame, countOf_setCount_other hsame]
    · split
      · exact countOf_setCount_other hsame _
      · rfl

/-! ## Queueing -/

@[simp] theorem Queue.issued_enqueue (q : Queue) (t : Task) :
    (q.enqueue t).issued = q.issued ++ [t] := by
  unfold Queue.enqueue Queue.notify
  split <;> rfl

/-- Between two sessions tasks were queued and the counts changed, but nothing that is stored. -/
structure Session.Noted (tasks : List Task) (m : MessageCounts) (s t : Session) : Prop where
  storage : ∃ random, t.storage = { s.storage with random := random }
  issued : t.queue.issued = s.queue.issued ++ tasks
  counter : t.counter = ⟨m, s.counter.loaded⟩

namespace Session.Noted

theorem refl (s : Session) : Noted [] s.counter.counts s s :=
  ⟨⟨_, rfl⟩, (List.append_nil _).symm, rfl⟩

theorem trans {u : Session} {tasks more : List Task} (h : Noted tasks m s t)
    (h' : Noted more m' t u) : Noted (tasks ++ more) m' s u := by
  obtain ⟨random, hstorage⟩ := h.storage
  obtain ⟨random', hstorage'⟩ := h'.storage
  refine ⟨⟨random', ?_⟩, ?_, ?_⟩
  · rw [hstorage', hstorage]
  · rw [h'.issued, h.issued, List.append_assoc]
  · rw [h'.counter, h.counter]

/-- The counts change. -/
theorem onCounts {tasks : List Task} (h : Noted tasks m s t) (f : MessageCounts → MessageCounts) :
    ended (α := Unit) (liftM (Session.onCounts f)) t =
        (.ok (), { t with counter := { t.counter with counts := f t.counter.counts } }) ∧
      Noted tasks (f m) s
        { t with counter := { t.counter with counts := f t.counter.counts } } := by
  refine ⟨rfl, h.storage, h.issued, ?_⟩
  dsimp only
  rw [h.counter]

end Session.Noted

namespace Session

theorem ended_enqueueSuite (x : Suite) (c : Chat) (cause : TriggerKind) (s : Session) :
    ∃ task t, ended (enqueueSuite x c cause) s = (.ok task, t) ∧
      (task.suiteId = x.id ∧ task.chatId = c.id ∧ task.cause = cause) ∧
      Noted [task] s.counter.counts s t :=
  ⟨_, _, rfl, ⟨rfl, rfl, rfl⟩, ⟨⟨_, rfl⟩, Queue.issued_enqueue _ _, rfl⟩⟩

/-- A suite that is not counted may be queued for a keyword. -/
theorem ended_notice_silent (c : Chat) (newest : String) {x : Suite} (hsilent : ¬ x.Counts)
    (s : Session) : ∃ task t, ended (notice c newest x) s = (.ok task, t) ∧
      x.Queues c s.counter.counts task ∧
      Noted task.toList (x.noted c.id s.counter.counts) s t := by
  have hsame : x.noted c.id s.counter.counts = s.counter.counts := by
    rw [Suite.noted, if_neg fun hdue => hsilent hdue.1, if_neg hsilent]
  have hnone : x.Queues c s.counter.counts none := .none fun hdue => hsilent hdue.1
  rw [hsame]
  unfold notice
  cases henabled : x.enabled with
  | false => exact ⟨none, s, rfl, hnone, .refl s⟩
  | true =>
    rw [if_neg (show ¬ (!true) = true by decide)]
    cases hkind : x.trigger.kind with
    | manual => exact ⟨none, s, rfl, hnone, .refl s⟩
    | interval => exact absurd ⟨henabled, hkind⟩ hsilent
    | keyword =>
      dsimp only
      split
      · obtain ⟨task, t, hrun, ⟨hs, hc, hcause⟩, hnoted⟩ := ended_enqueueSuite x c .keyword s
        refine ⟨some task, t, ended_bind_ok hrun _, ⟨?_, ?_, ?_⟩, hnoted⟩
        · rintro _ ⟨⟩
          exact ⟨hs, hc⟩
        · rintro ⟨_, ⟨⟩, hinterval⟩
          exact nomatch hcause.symm.trans hinterval
        · exact fun hdue => absurd hdue.1 hsilent
      · exact ⟨none, s, rfl, hnone, .refl s⟩

/-- A suite that is counted is queued if it is due. -/
theorem ended_notice_counted (c : Chat) (newest : String) {x : Suite} (hcounts : x.Counts)
    (s : Session) : ∃ task t, ended (notice c newest x) s = (.ok task, t) ∧
      x.Queues c s.counter.counts task ∧
      Noted task.toList (x.noted c.id s.counter.counts) s t := by
  obtain ⟨hbump, hbumped⟩ := (Noted.refl s).onCounts fun m => bump m x.id c.id
  let u : Session := { s with
    counter := { s.counter with counts := bump s.counter.counts x.id c.id } }
  have hlast : countOf u.counter.counts x.id c.id = countOf s.counter.counts x.id c.id + 1 :=
    countOf_bump _ _ _
  unfold notice
  rw [hcounts.1, hcounts.2, if_neg (show ¬ (!true) = true by decide)]
  dsimp only
  rw [ended_bind_ok hbump, ended_get_bind]
  by_cases hdue : x.Due c.id s.counter.counts
  · obtain ⟨task, v, hrun, ⟨hs, hc, hcause⟩, hnoted⟩ := ended_enqueueSuite x c .interval u
    obtain ⟨hreset, hdone⟩ := (hbumped.trans hnoted).onCounts fun m => setCount m x.id c.id 0
    have hnot : ¬ countOf u.counter.counts x.id c.id < intervalOf x.trigger := by
      rw [hlast]
      exact not_lt.mpr hdue.2
    rw [if_neg hnot, ended_bind_ok hrun, ended_bind_ok hreset]
    refine ⟨some task, _, rfl, ⟨?_, fun _ => hdue, fun _ => ⟨task, rfl, hcause⟩⟩, ?_⟩
    · rintro _ ⟨⟩
      exact ⟨hs, hc⟩
    · rw [Suite.noted, if_pos hdue]
      exact hdone
  · have hbelow : countOf u.counter.counts x.id c.id < intervalOf x.trigger := by
      rw [hlast]
      exact not_le.mp fun hle => hdue ⟨hcounts, hle⟩
    rw [if_pos hbelow]
    refine ⟨none, u, rfl, .none hdue, ?_⟩
    rw [Suite.noted, if_neg hdue, if_pos hcounts]
    exact hbumped

theorem ended_notice (c : Chat) (newest : String) (x : Suite) (s : Session) :
    ∃ task t, ended (notice c newest x) s = (.ok task, t) ∧
      x.Queues c s.counter.counts task ∧
      Noted task.toList (x.noted c.id s.counter.counts) s t := by
  by_cases hcounts : x.Counts
  · exact ended_notice_counted c newest hcounts s
  · exact ended_notice_silent c newest hcounts s

/-- The counts after a message, the suites one after another. -/
def notedAll (chat : String) (suites : List Suite) (m : MessageCounts) : MessageCounts :=
  suites.foldl (fun m x => x.noted chat m) m

theorem sound_notedAll (suites : List Suite) (h : m.Sound) : (notedAll chat suites m).Sound := by
  induction suites generalizing m with
  | nil => exact h
  | cons x suites ih => exact ih (x.sound_noted chat h)

theorem notedAll_of_silent {suites : List Suite} (h : ∀ x ∈ suites, ¬ x.Counts) :
    notedAll chat suites m = m := by
  induction suites with
  | nil => rfl
  | cons x suites ih =>
    obtain ⟨hx, hsuites⟩ := List.forall_mem_cons.mp h
    have hsame : x.noted chat m = m := by
      rw [Suite.noted, if_neg fun hdue => hx hdue.1, if_neg hx]
    change notedAll chat suites (x.noted chat m) = m
    rw [hsame]
    exact ih hsuites

theorem ended_noticeAll (c : Chat) (newest : String) (suites : List Suite) (s : Session) :
    ∃ tasks t, ended (noticeAll c newest suites) s = (.ok tasks, t) ∧
      Noted tasks (notedAll c.id suites s.counter.counts) s t ∧
      ∀ suiteId chat n, (∀ x ∈ suites, x.id = suiteId →
          x.trigger.kind = .interval ∧ intervalOf x.trigger = n) →
        Advances suiteId chat n (suites.countP fun x => x.Hears suiteId chat c)
          s.counter.counts tasks (notedAll c.id suites s.counter.counts) := by
  induction suites generalizing s with
  | nil => exact ⟨[], s, rfl, .refl s, fun _ _ _ _ => .refl _⟩
  | cons x suites ih =>
    obtain ⟨task, t, hrun, hqueues, hnoted⟩ := ended_notice c newest x s
    obtain ⟨tasks, u, hrest, hall, hadvances⟩ := ih t
    rw [hnoted.counter] at hall hadvances
    refine ⟨task.toList ++ tasks, u, ?_, hnoted.trans hall, fun suiteId chat n hx => ?_⟩
    · unfold noticeAll
      rw [ended_bind_ok hrun, ended_bind_ok hrest]
      rfl
    · obtain ⟨hx, hsuites⟩ := List.forall_mem_cons.mp hx
      have hfirst := @Suite.advances_noted suiteId chat n s.counter.counts x c task hqueues hx
      have hlater := hadvances suiteId chat n hsuites
      rw [List.countP_cons, add_comm]
      simp only [decide_eq_true_eq]
      exact hfirst.trans hlater

end Session

/-! ## Sessions -/

/-- The session serves the root `r`, and its counts are those of the settings once it read them. -/
structure Session.Serving (N : Naming) (own : Prop) (r : Root) (s : Session) : Prop where
  rooted : Rooted N own r s.storage
  counter : s.counter = ⟨[], false⟩ ∨ s.counter = ⟨r.settings.counts, true⟩

/-- The root with other counts of messages. -/
def Root.withCounts (r : Root) (m : MessageCounts) : Root :=
  { r with settings := { r.settings with counts := m } }

theorem Root.Sound.withCounts (h : r.Sound) (hm : m.Sound) : (r.withCounts m).Sound :=
  h.withSettings { api := h.settings.api, suites := hm.suites, chats := hm.chats }

theorem Root.Sound.counts (h : r.Sound) : MessageCounts.Sound r.settings.counts :=
  ⟨h.settings.suites, h.settings.chats⟩

namespace Session.Serving

theorem settings (h : Serving N own r s) :
    ended (stored Storage.settings) s = (.ok r.settings, s) := by
  rw [ended_stored, Storage.ended_settings h.rooted.inMemory]

theorem list (h : Serving N own r s) :
    ended (stored Suites.list) s = (.ok (r.suites.map (·.2)), s) := by
  have hrun : ended Suites.list s.storage = (.ok (r.suites.map (·.2)), s.storage) :=
    ended_bind_ok (Storage.ended_suites h.rooted.inMemory) _
  rw [ended_stored, hrun]

/-- The counts are read, or were read before. -/
theorem loadCounts (h : Serving N own r s) : ended Session.loadCounts s =
    (.ok (), { s with counter := ⟨r.settings.counts, true⟩ }) := by
  unfold Session.loadCounts
  rw [ended_get_bind]
  rcases h.counter with hcounter | hcounter
  · have hfirst : (!s.counter.loaded) = true := by rw [hcounter]; rfl
    rw [if_pos hfirst, ended_bind_ok h.settings]
    rfl
  · have hlater : ¬ (!s.counter.loaded) = true := by
      rw [hcounter]
      exact Bool.false_ne_true
    rw [if_neg hlater, ← hcounter]
    rfl

/-- The counts of the session go into the settings. -/
theorem saveCounts (h : Rooted N own r s.storage) (hm : s.counter.counts.Sound)
    (hloaded : s.counter.loaded = true) : ∃ t, ended Session.saveCounts s = (.ok (), t) ∧
      Serving N own (r.withCounts s.counter.counts) t ∧ t.queue = s.queue := by
  obtain ⟨u, hu, hrooted⟩ := h.changeRoot
    (fun r' => { r' with settings := { r.settings with counts := s.counter.counts } })
    (h.sound.withCounts hm) own
  have hsettings : ended (stored Storage.settings) s = (.ok r.settings, s) := by
    rw [ended_stored, Storage.ended_settings h.inMemory]
  refine ⟨{ s with storage := u }, ?_, ⟨hrooted, Or.inr ?_⟩, rfl⟩
  · unfold Session.saveCounts
    rw [ended_bind_ok hsettings, ended_get_bind, ended_stored]
    unfold Storage.saveSettings
    rw [hu]
  · rw [← hloaded]
    rfl

/-- A new message is handled without fail. It queues what it gives, and the counts of a suite in a
chat go on by the messages that are counted for it. -/
theorem newMessage (h : Serving N own r s) (c : Chat) : ∃ tasks m t,
    ended (Session.newMessage c) s = (.ok tasks, t) ∧ Serving N own (r.withCounts m) t ∧
      t.queue.issued = s.queue.issued ++ tasks ∧
      ∀ suiteId chat n, (∀ x ∈ r.suites, x.2.id = suiteId →
          x.2.trigger.kind = .interval ∧ intervalOf x.2.trigger = n) →
        Advances suiteId chat n
          (if r.settings.enabled then r.suites.countP fun x => x.2.Hears suiteId chat c else 0)
          r.settings.counts tasks m := by
  let u : Session := { s with counter := ⟨r.settings.counts, true⟩ }
  have hu : Serving N own r u := ⟨h.rooted, Or.inr rfl⟩
  have hbegin {α : Type} (f : Unit → Activity Session α) :
      ended (Session.loadCounts >>= f) s = ended (f ()) u := ended_bind_ok h.loadCounts f
  unfold Session.newMessage
  rw [hbegin, ended_bind_ok hu.settings]
  cases henabled : r.settings.enabled with
  | false =>
    have hissued : u.queue.issued = s.queue.issued ++ [] := (List.append_nil _).symm
    exact ⟨[], r.settings.counts, u, rfl, hu, hissued, fun _ _ _ _ => .refl _⟩
  | true =>
    rw [if_neg (show ¬ (!true) = true by decide), ended_bind_ok hu.list]
    obtain ⟨tasks, t, hrun, hnoted, hadvances⟩ := ended_noticeAll c
      ((c.messages.getLast?.map (·.text)).getD "") (r.suites.map (·.2)) u
    obtain ⟨random, hstorage⟩ := hnoted.storage
    have hrooted : Rooted N own r t.storage := by
      rw [hstorage]
      exact { h.rooted with }
    have hcounts : t.counter.counts = notedAll c.id (r.suites.map (·.2)) r.settings.counts := by
      rw [hnoted.counter]
    have hcounted (suiteId chat : String) (n : Int) (hx : ∀ x ∈ r.suites, x.2.id = suiteId →
        x.2.trigger.kind = .interval ∧ intervalOf x.2.trigger = n) :
        Advances suiteId chat n (r.suites.countP fun x => x.2.Hears suiteId chat c)
          r.settings.counts tasks (notedAll c.id (r.suites.map (·.2)) r.settings.counts) := by
      have hsuite := hadvances suiteId chat n (List.forall_mem_map.mpr hx)
      rw [List.countP_map] at hsuite
      exact hsuite
    rw [ended_bind_ok hrun]
    cases hany : (r.suites.map (·.2)).any fun x => x.enabled && x.trigger.kind = .interval with
    | false =>
      have hsilent : ∀ x ∈ r.suites.map (·.2), ¬ x.Counts := by
        intro x hx hcounts
        have hfalse := List.any_eq_false.mp hany x hx
        exact hfalse (by simp [hcounts.1, hcounts.2])
      rw [notedAll_of_silent hsilent] at hcounts hcounted
      refine ⟨tasks, r.settings.counts, t, rfl, ⟨hrooted, Or.inr ?_⟩, hnoted.issued, hcounted⟩
      rw [hnoted.counter, notedAll_of_silent hsilent]
      rfl
    | true =>
      have hsound : t.counter.counts.Sound := by
        rw [hcounts]
        exact sound_notedAll _ h.rooted.sound.counts
      have hloaded : t.counter.loaded = true := by rw [hnoted.counter]
      obtain ⟨v, hsave, hserving, hqueue⟩ := saveCounts hrooted hsound hloaded
      rw [hcounts] at hserving
      refine ⟨tasks, _, v, ?_, hserving, ?_, hcounted⟩
      · rw [if_pos rfl, ended_bind_ok hsave]
        rfl
      · rw [hqueue]
        exact hnoted.issued

/-- A count that starts anew starts anew in the settings too. -/
theorem resetCount (h : Serving N own r s) (suiteId chat : String) : ∃ m t,
    ended (Session.resetCount suiteId chat) s = (.ok (), t) ∧ Serving N own (r.withCounts m) t := by
  unfold Session.resetCount
  rw [ended_get_bind]
  split
  · next hcounted =>
    obtain ⟨hreset, hnoted⟩ := (Noted.refl s).onCounts fun m => setCount m suiteId chat 0
    have hcounter : s.counter = ⟨r.settings.counts, true⟩ := h.counter.resolve_left fun hnone => by
      rw [hnone] at hcounted
      exact Bool.false_ne_true hcounted
    rw [ended_bind_ok hreset]
    let u : Session := { s with
      counter := { s.counter with counts := setCount s.counter.counts suiteId chat 0 } }
    have hsound : u.counter.counts.Sound := by
      simp only [u, hcounter]
      exact h.rooted.sound.counts.setCount _ _ _
    have hloaded : u.counter.loaded = true := by simp only [u, hcounter]
    obtain ⟨t, ht, hserving, -⟩ := saveCounts (s := u) h.rooted hsound hloaded
    exact ⟨_, t, ht, hserving⟩
  · exact ⟨r.settings.counts, s, rfl, h⟩

/-- A suite that is triggered on request is queued for the cause that is given. -/
theorem trigger (h : Serving N own r s) (suiteId : String) (c : Chat) (cause : TriggerKind) :
    ∃ result tasks t, ended (Session.trigger suiteId c cause) s = (.ok result, t) ∧
      Serving N own r t ∧ t.queue.issued = s.queue.issued ++ tasks ∧
      ∀ task ∈ tasks, task.cause = cause := by
  have hfind : ended (stored (Suites.find? suiteId)) s =
      (.ok (Json.find? r.suites suiteId), s) := by
    rw [ended_stored, Suites.ended_find h.rooted.inMemory]
  unfold Session.trigger
  rw [ended_bind_ok hfind]
  cases Json.find? r.suites suiteId with
  | none => exact ⟨none, [], s, rfl, h, (List.append_nil _).symm, List.forall_mem_nil _⟩
  | some x =>
    obtain ⟨task, t, htask, ⟨-, -, hcause⟩, hnoted⟩ := ended_enqueueSuite x c cause s
    obtain ⟨random, hstorage⟩ := hnoted.storage
    refine ⟨some task, [task], t, ended_bind_ok htask _, ⟨?_, ?_⟩, hnoted.issued, ?_⟩
    · rw [hstorage]
      exact { h.rooted with }
    · rw [hnoted.counter]
      exact h.counter
    · intro other hother
      rw [List.mem_singleton.mp hother]
      exact hcause

/-- Replies are stored, and nothing but the storage changes. -/
theorem assign (h : Serving N own r s) (hc : N.used chat) (floors : String)
    (results : List Tagged) : ∃ result u,
      ended (Session.assign chat floors results) s = (result, { s with storage := u }) ∧
        Rooted N own r u := by
  have hvalues : Pieces (Rooted.valuesScope N) (Always (Rooted N own r)) := Rooted.pieces
  have hone (t : Tagged) : Keeps (Always (Rooted N own r)) (assignOne chat floors t) :=
    hvalues.assignOne hc (fun _ => hc) floors t
  have hrooted := h.rooted
  clear h
  induction results generalizing s with
  | nil => exact ⟨.ok 0, s.storage, rfl, hrooted⟩
  | cons t results ih =>
    have hkept := ((hone t).finish Rooted.unlocked hrooted).1
    have hrun := ended_stored (assignOne chat floors t) s
    unfold Session.assign
    rcases hend : ended (assignOne chat floors t) s.storage with ⟨e | here, u⟩
    · rw [hend] at hrun hkept
      exact ⟨.error e, u, ended_bind_error hrun _, hkept⟩
    · rw [hend] at hrun hkept
      obtain ⟨result, v, hrest, hv⟩ := ih (s := { s with storage := u }) hkept
      rw [ended_bind_ok hrun]
      cases result with
      | error e => exact ⟨.error e, v, ended_bind_error hrest _, hv⟩
      | ok n => exact ⟨_, v, ended_bind_ok hrest _, hv⟩

end Session.Serving

end TagLedger
