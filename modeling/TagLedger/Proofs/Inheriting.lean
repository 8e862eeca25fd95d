import TagLedger.Proofs.Spanning

/-!
# What a run leaves to branches

A run stores each result under the label of its prompt. While it is there, a branch at a floor takes
it over if that is not before the last floor that the prompt covered, and leaves it out if it is.
The other values of the chat make no difference, as long as the branch can be made at all.

    assign floors results  →  results.foldl taken values                      (assign_done)
    value holds (content, floors), floors end at m
        →  (m ≤ f ↔ what is inherited at f holds (content, floors))           (floors_read_back)
-/

namespace TagLedger

open Json (Brief)

variable {r : Root} {floors content : String} {f m : Int} {floor : Option Int}

/-! ## What a branch takes over -/

theorem floorsShort_of_writtenBy {b : Bool} (h : writtenBy floors f = .ok b) :
    FloorsShort floors := by
  intro ds hds
  by_contra hlong
  unfold writtenBy at h
  rw [Text.lastFloor?_eq, Text.lastNumeral?_of_names hds] at h
  unfold Text.readDigits at h
  dsimp only at h
  rw [if_neg hlong] at h
  cases h

theorem floorsShort_of_entriesUpTo {es kept : List Entry} (h : entriesUpTo f es = .ok kept) :
    ∀ e ∈ es, FloorsShort e.floors := by
  induction es generalizing kept with
  | nil => exact nofun
  | cons e es ih =>
    unfold entriesUpTo at h
    split at h
    · cases h
    · next keep hkeep =>
      obtain ⟨rest, hrest, -⟩ := map_eq_ok h
      exact List.forall_mem_cons.mpr ⟨floorsShort_of_writtenBy hkeep, ih hrest⟩

/-- A branch that can be made takes over what is not after its floor. -/
theorem Value.takenOver_of_branch {v : Value} {w : Option Value} (h : v.branch floor = .ok w) :
    v.takenOver floor = w := by
  have hshort (hv : v.FloorsShort) : v.takenOver floor = w :=
    Except.ok.inj ((Value.branch_eq hv floor).symm.trans h)
  cases floor with
  | none =>
    cases h
    rfl
  | some f =>
    cases v with
    | stack s =>
      obtain ⟨kept, hkept, -⟩ := map_eq_ok h
      exact hshort (floorsShort_of_entriesUpTo hkept)
    | slot s =>
      by_cases hcurrent : s.current = ""
      · unfold branch at h
        dsimp only at h
        rw [if_pos hcurrent] at h
        cases h
        exact if_neg fun hkept => hkept.1 hcurrent
      · have hread := h
        unfold branch at hread
        dsimp only at hread
        rw [if_neg hcurrent] at hread
        obtain ⟨keep, hkeep, -⟩ := map_eq_ok hread
        exact hshort (floorsShort_of_writtenBy hkeep)

/-- The content is in the value, and was written under this label. -/
def Value.Holds (content floors : String) : Value → Prop
  | .stack s => ∃ e ∈ s.entries, e.content = content ∧ e.floors = floors
  | .slot s => s.current = content ∧ s.floors = some floors

theorem EndsAt.ne_empty (h : EndsAt floors m) : floors ≠ "" := by
  rintro rfl
  obtain ⟨n, -, hnames⟩ := h
  have hnone := Text.lastNumeral?_of_names hnames
  cases hnone

/-- A content is taken over with its label if the floor of the branch is not before the last of the
label. -/
theorem EndsAt.holds_takenOver_iff {v : Value} (h : EndsAt floors m) (hcontent : content ≠ "")
    (hv : v.Holds content floors) :
    m ≤ f ↔ ∃ w, v.takenOver (some f) = some w ∧ w.Holds content floors := by
  rw [← h.writtenBy_iff (f := f)]
  cases v with
  | stack s =>
    obtain ⟨e, he, rfl, rfl⟩ := hv
    unfold Value.takenOver
    dsimp only
    rw [Value.upTo_stack]
    constructor
    · intro hwritten
      have hkept : e ∈ s.entries.filter fun e => WrittenBy e.floors f :=
        List.mem_filter.mpr ⟨he, decide_eq_true hwritten⟩
      rw [if_neg (List.ne_nil_of_mem hkept)]
      exact ⟨_, rfl, e, hkept, rfl, rfl⟩
    · rintro ⟨w, hw, hholds⟩
      split at hw
      · cases hw
      · cases hw
        obtain ⟨e', he', -, hfloors⟩ := hholds
        have hwritten := of_decide_eq_true (List.mem_filter.mp he').2
        rwa [hfloors] at hwritten
  | slot s =>
    obtain ⟨rfl, hfloors⟩ := hv
    have hlabel : s.label = floors := by
      unfold Slot.label
      rw [hfloors]
      exact if_neg h.ne_empty
    unfold Value.takenOver
    dsimp only
    rw [Value.upTo_slot, hlabel]
    constructor
    · intro hwritten
      rw [if_pos ⟨hcontent, hwritten⟩]
      exact ⟨_, rfl, rfl, hfloors⟩
    · rintro ⟨w, hw, -⟩
      split at hw
      · next hkept => exact hkept.2
      · cases hw

theorem ChatValues.find?_branch {vs : ChatValues} {only : Option (List String)} {id : String}
    (hkeys : (Json.keys vs).Nodup) (hmeant : r.inherits only id = true) (floor : Option Int) :
    Json.find? (vs.branch r only floor) id = (Json.find? vs id).bind (Value.takenOver floor) := by
  unfold branch takenOver
  rw [Json.find?_filterMap (Json.nodup_keys_filter hkeys _), Json.find?_filter (r.inherits only),
    if_pos hmeant]

/-! ## Storages after what was done -/

namespace Storage

variable {s t u : Storage} {chat id source target : String} {v : Value} {vs ws : ChatValues}
  {ids : List String} {only : Option (List String)}

/-- At the same time, and with the root `r`, `t` serves a chat with these values. -/
structure Since (r : Root) (chat : String) (s : Storage) (vs : ChatValues) (t : Storage) :
    Prop where
  root : t.store.root = some r
  clock : t.clock = s.clock
  serves : t.serves r chat = vs

theorem Since.trans (h : Since r chat s vs t) (h' : Since r chat t ws u) :
    Since r chat s ws u :=
  ⟨h'.root, h'.clock.trans h.clock, h'.serves⟩

/-- The values of a chat are loaded, and nothing is seen to change. -/
theorem loadValues_looks (hroot : s.store.root = some r) (chat : String) :
    ∃ t, ended (loadValues chat) s = (.ok (s.serves r chat), t) ∧ Looks r s t :=
  ⟨_, Prod.ext (loadValues_answer hroot chat) rfl, (Session.ended_warm hroot chat).1⟩

theorem not_degraded_of_checkWritable (h : ended (.ofAction (checkWritable chat)) s = (.ok (), t)) :
    s.store.isDegraded chat = false ∧ t = s := by
  rw [ended_ofAction, exec_checkWritable] at h
  split at h
  · cases h
  · next hd =>
    cases h
    exact ⟨Bool.not_eq_true _ ▸ hd, rfl⟩

/-- A value that was set stands among the values that the chat was served with. -/
theorem setValue_done (hroot : s.store.root = some r)
    (h : ended (setValue id chat v) s = (.ok (), t)) :
    s.store.isDegraded chat = false ∧ Since r chat s (Json.insert (s.serves r chat) id v) t := by
  obtain ⟨_, s', hcheck, hmore⟩ := of_ended_bind h
  obtain ⟨hd, rfl⟩ := not_degraded_of_checkWritable hcheck
  -- as the chat passes the check after it was loaded, too, it is in memory from then on
  obtain ⟨u, hload, hlooks⟩ := loadValues_looks hroot chat
  rw [ended_bind_ok hload] at hmore
  obtain ⟨_, u', hcheck, hdone⟩ := of_ended_bind hmore
  obtain ⟨hd', rfl⟩ := not_degraded_of_checkWritable hcheck
  have husable := usable_of_loadValues hload hd'
  have hstored : t = u'.stored chat (Json.insert (s'.serves r chat) id v) :=
    (Prod.mk.inj hdone).2.symm
  exact ⟨hd, hstored ▸ ⟨hlooks.root, hlooks.clock,
    serves_usable (Variables.usable_stored husable id v) r⟩⟩

theorem editValue_done (hroot : s.store.root = some r)
    (h : ended (editValue id chat v) s = (.ok (), t)) :
    Since r chat s (Json.insert (s.serves r chat) id v) t := by
  -- where the value lies makes a difference only in a chat that nothing can be set in
  have hwritable : s.store.isDegraded chat = false := by
    obtain ⟨values, hframe, -⟩ := amend_frame s.store id chat v
    obtain ⟨_, s', hamend, hset⟩ := of_ended_bind h
    obtain ⟨_, s'', hcheck, -⟩ := of_ended_bind hset
    obtain ⟨hd, -⟩ := not_degraded_of_checkWritable hcheck
    have hs' : s' = { s with store := s.store.amend id chat v } := (Prod.mk.inj hamend).2.symm
    rw [hs', hframe] at hd
    exact hd
  have hsame : ended (editValue id chat v) s = ended (setValue id chat v) s :=
    congrArg Progress.finish (editValue_eq hwritable id v)
  rw [hsame] at h
  exact (setValue_done hroot h).2

/-- Values that were copied are those that were written up to the floor. -/
theorem copyInto_done (hroot : s.store.root = some r)
    (h : ended (Variables.copyInto chat floor ws) s = (.ok ids, t)) :
    ids = Json.keys (ChatValues.takenOver floor ws) ∧ t.store.root = some r ∧
      t.serves r chat = ChatValues.overlaid (s.serves r chat) (ChatValues.takenOver floor ws) := by
  induction ws generalizing s ids with
  | nil =>
    cases h
    exact ⟨rfl, hroot, rfl⟩
  | cons w ws ih =>
    unfold Variables.copyInto at h
    rw [ChatValues.takenOver_cons]
    -- a label that cannot be read would have ended the copying
    cases hbranch : w.2.branch floor with
    | error e =>
      rw [hbranch] at h
      cases h
    | ok taken =>
      rw [hbranch] at h
      rw [Value.takenOver_of_branch hbranch]
      cases taken with
      | none => exact ih hroot h
      | some v =>
        obtain ⟨_, s', hset, hmore⟩ := of_ended_bind h
        obtain ⟨rest, t', hrest, hdone⟩ := of_ended_bind hmore
        cases hdone
        obtain ⟨-, hset⟩ := setValue_done hroot hset
        obtain ⟨rfl, hroot', hserves⟩ := ih hset.root hrest
        rw [hset.serves] at hserves
        exact ⟨rfl, hroot', hserves⟩

/-- A branch that was made has what was written up to its floor, over what was there. -/
theorem inherit_done (hload : ended load s = (.ok r, u))
    (h : ended (Variables.inherit source target floor only) s = (.ok (.ok ids), t)) :
    ids = Json.keys ((u.serves r source).branch r only floor) ∧ t.store.root = some r ∧
      t.serves r target =
        ChatValues.overlaid (u.serves r target) ((u.serves r source).branch r only floor) := by
  have hroot := root_of_load hload
  have hdefinitions : ended definitions s = (.ok r.definitions, u) := ended_bind_ok hload _
  obtain ⟨w, hvalues, hlooks⟩ := loadValues_looks hroot source
  unfold Variables.inherit at h
  split at h
  · cases h
  · rw [ended_bind_ok hdefinitions, ended_bind_ok hvalues] at h
    obtain ⟨copied, t', hcopy, hdone⟩ := of_ended_bind h
    cases hdone
    rw [← hlooks.serves target]
    exact copyInto_done hlooks.root hcopy

/-- A content that is there is inherited if the floor of the branch is not before the last of its
label. -/
theorem inherit_holds_iff (hload : ended load s = (.ok r, u))
    (h : ended (Variables.inherit source target (some f) only) s = (.ok (.ok ids), t))
    (hkeys : (Json.keys (u.serves r source)).Nodup) (hmeant : r.inherits only id = true)
    (hv : Json.find? (u.serves r source) id = some v) (hends : EndsAt floors m)
    (hcontent : content ≠ "") (hholds : v.Holds content floors) :
    m ≤ f ↔ id ∈ ids ∧ ∃ w, Json.find? (t.serves r target) id = some w ∧
      w.Holds content floors := by
  obtain ⟨rfl, -, hserves⟩ := inherit_done hload h
  have hfind := ChatValues.find?_branch hkeys hmeant (some f)
  rw [hv, Option.bind_some] at hfind
  rw [hends.holds_takenOver_iff hcontent hholds, hserves,
    ChatValues.find?_overlaid (ChatValues.nodup_keys_branch r only hkeys), ← Json.find?_isSome,
    hfind]
  cases v.takenOver (some f) with
  | none => simp
  | some w => simp

end Storage

/-! ## What is stored -/

/-- The values of a chat after a result was taken by the variable of its tag. -/
def Root.taken (r : Root) (floors : String) (now : Int) (vs : ChatValues) (p : Tagged) :
    ChatValues :=
  match Variables.tagged? r.definitions p.tag with
  | some d => Json.insert vs d.id (d.take vs p.content floors now)
  | none => vs

namespace Session

open Storage (Since)

variable {s t u : Storage} {x y : Session} {chat suiteId : String} {c : Chat} {p : Tagged}
  {results : List Tagged} {result : AnalysisResult}

/-- A result that was stored was taken by the variable of its tag, if there is one. -/
theorem assignOne_done {b : Bool} (hroot : s.store.root = some r)
    (h : ended (assignOne chat floors p) s = (.ok b, t)) :
    Since r chat s (r.taken floors s.clock.now (s.serves r chat) p) t := by
  have hfind : ended (Variables.findByTag? p.tag) s =
      (.ok (Variables.tagged? r.definitions p.tag), s) :=
    ended_bind_ok (Storage.ended_definitions hroot) _
  unfold assignOne at h
  rw [ended_bind_ok hfind] at h
  unfold Root.taken
  cases hd : Variables.tagged? r.definitions p.tag with
  | none =>
    rw [hd] at h
    cases h
    exact ⟨hroot, rfl, rfl⟩
  | some d =>
    rw [hd] at h
    dsimp only at h ⊢
    obtain ⟨u, hload, hlooks⟩ := Storage.loadValues_looks hroot chat
    have hnow : ended (.ofAction Storage.now) u = (.ok s.clock.now, u) := by
      rw [← hlooks.clock]
      rfl
    -- a stack and a slot are looked up first, and then the clock
    have hedited {v : Value} {t : Storage}
        (hedit : ended (Storage.editValue d.id chat v) u = (.ok (), t)) :
        Since r chat s (Json.insert (s.serves r chat) d.id v) t := by
      have hsince := Storage.editValue_done hlooks.root hedit
      rw [hlooks.serves] at hsince
      exact { hsince with clock := hsince.clock.trans hlooks.clock }
    unfold Definition.take
    cases hmode : d.mode with
    | stack =>
      rw [hmode] at h
      obtain ⟨e, t', hadd, hdone⟩ := of_ended_bind h
      cases hdone
      unfold Variables.addEntry at hadd
      rw [ended_bind_ok (Variables.ended_stack_of_load hload d.id)] at hadd
      obtain ⟨_, t', hedit, hdone⟩ := of_ended_bind ((ended_bind_ok hnow _).symm.trans hadd)
      cases hdone
      exact hedited hedit
    | replace =>
      rw [hmode] at h
      obtain ⟨e, t', hput, hdone⟩ := of_ended_bind h
      cases hdone
      unfold Variables.put at hput
      rw [ended_bind_ok (Variables.ended_slot_of_load hload d.id)] at hput
      obtain ⟨_, t', hedit, hdone⟩ := of_ended_bind ((ended_bind_ok hnow _).symm.trans hput)
      cases hdone
      exact hedited hedit

/-- Results that were stored were taken one after another. -/
theorem assign_done {n : Nat} (hroot : x.storage.store.root = some r)
    (h : ended (assign chat floors results) x = (.ok n, y)) :
    Since r chat x.storage
      (results.foldl (r.taken floors x.storage.clock.now) (x.storage.serves r chat)) y.storage := by
  induction results generalizing x n with
  | nil =>
    cases h
    exact ⟨hroot, rfl, rfl⟩
  | cons p results ih =>
    obtain ⟨here, z, hone, hmore⟩ := of_ended_bind h
    obtain ⟨rest, z', hrest, hdone⟩ := of_ended_bind hmore
    cases hdone
    rw [ended_stored] at hone
    obtain ⟨hanswer, rfl⟩ := Prod.mk.inj hone
    have hfirst := assignOne_done hroot (Prod.ext hanswer rfl)
    have hothers := ih hfirst.root hrest
    rw [hfirst.clock, hfirst.serves] at hothers
    exact hfirst.trans hothers

theorem content_ne_of_mem_parseReply {reply : String} {ds : List Definition}
    (h : p ∈ parseReply reply ds) : p.content ≠ "" := by
  obtain ⟨d, -, hp⟩ := List.mem_filterMap.mp h
  dsimp only at hp
  split at hp
  · cases hp
  · next hne =>
    cases hp
    exact hne

/-- A reply that was read is about the floors of the prompt, and no content of it is empty. -/
structure Read (floors : String) (result : AnalysisResult) : Prop where
  floors : result.floors = floors
  contents : ∀ p ∈ result.results, p.content ≠ ""

/-- An analysis from its prompt on leaves the storage alone, and reads a reply or tells why not. -/
theorem analyzeFrom_done {text : String} {suite : Suite} {ds : List Definition}
    (hroot : x.storage.store.root = some r)
    (h : ended (analyzeFrom suite c text floors ds) x = (.ok result, y)) :
    (result.fault = none → Read floors result) ∧ y.storage = x.storage := by
  let I (z : Session) : Prop := z.storage = x.storage
  have hask (text : String) : Meets I I (ask suite c.id floors text) fun _ => I :=
    Meets.iff_left.mpr fun z hz => by
      obtain ⟨model, line, log, hrun⟩ := ended_ask (hz ▸ hroot) suite c.id floors text
      rw [hrun]
      exact hz
  have hfrom : Meets I I (analyzeFrom suite c text floors ds) fun result z =>
      (result.fault = none → Read floors result) ∧ I z := by
    refine .ite (.pure fun z hz => ⟨nofun, hz⟩) ((hask _).caught.bind fun reply => ?_)
    cases reply with
    | error fault => exact .pure fun z hz => ⟨nofun, hz⟩
    | ok response =>
      exact Meets.bind (x := Activity.ofAction _) (Q := fun _ => I) (fun _ hz => hz) fun _ =>
        .pure fun z hz => ⟨fun _ => ⟨rfl, fun _ hp => content_ne_of_mem_parseReply hp⟩, hz⟩
  have hdone := hfrom x rfl
  rw [h] at hdone
  exact hdone

/-- What an analysis that read a reply was about. -/
structure Analyzed (x : Session) (suiteId : String) (c : Chat) (result : AnalysisResult) (r : Root)
    (u : Storage) (suite : Suite) (t : Storage) : Prop where
  loaded : ended Storage.load x.storage = (.ok r, u)
  found : Json.find? r.suites suiteId = some suite
  read : Read (r.spanIn suite.id x.templates.floorFormat c) result
  looks : Looks r u t

theorem analyzeNow_done (h : ended (analyzeNow suiteId c) x = (.ok result, y))
    (hok : result.fault = none) : ∃ r u suite, Analyzed x suiteId c result r u suite y.storage := by
  obtain ⟨found, z, hfind, hmore⟩ := of_ended_bind h
  rw [ended_stored] at hfind
  obtain ⟨hanswer, rfl⟩ := Prod.mk.inj hfind
  obtain ⟨r, hload, rfl⟩ := Suites.find_done (Prod.ext hanswer rfl)
  have hroot := Storage.root_of_load hload
  cases hfound : Json.find? r.suites suiteId with
  | none =>
    rw [hfound] at hmore
    cases hmore
    cases hok
  | some suite =>
    rw [hfound] at hmore
    obtain ⟨_, z, hwarm, hmore⟩ := of_ended_bind hmore
    obtain ⟨hlooks, hwarmed⟩ := ended_warm hroot c.id
    rw [ended_stored, hwarmed] at hwarm
    cases hwarm
    obtain ⟨⟨text, floors⟩, z, hprompt, hmore⟩ := of_ended_bind hmore
    obtain ⟨r', u', hload', rfl, rfl⟩ := prompt_done hprompt
    rw [Storage.ended_load_some hlooks.root] at hload'
    cases hload'
    dsimp only at hmore
    split at hmore
    · cases hmore
      cases hok
    · -- from here on the storage stays as it is
      obtain ⟨_, z, hnote, hmore⟩ := of_ended_bind hmore
      cases hnote
      rw [ended_bind_ok (ended_enabledIn hlooks.root suiteId)] at hmore
      obtain ⟨hread, hstorage⟩ := analyzeFrom_done hlooks.root hmore
      exact ⟨r, _, suite, hload, hfound, hread hok, hstorage ▸ hlooks⟩

theorem analyze_done (h : ended (analyze suiteId c) x = (.ok result, y))
    (hok : result.fault = none) : ∃ r u suite, Analyzed x suiteId c result r u suite y.storage := by
  unfold analyze at h
  rw [ended_get_bind] at h
  split at h
  · cases h
    cases hok
  · let begun : Session := { x with analyzer := { x.analyzer with busy := true } }
    have hbegin : ended (Activity.ofAction (onAnalyzer fun a => { a with busy := true })) x =
        (.ok (), begun) := rfl
    replace h := (ended_bind_ok hbegin _).symm.trans h
    rw [ended_ensuring] at h
    obtain ⟨hanswer, rfl⟩ := Prod.mk.inj h
    obtain ⟨r, u, suite, hanalyzed⟩ := analyzeNow_done (Prod.ext hanswer rfl) hok
    exact ⟨r, u, suite, { hanalyzed with }⟩

/-- A run that read a reply stored its results under the label of its prompt. -/
theorem run_done (h : ended (run suiteId c) x = (.ok result, y)) (hok : result.fault = none) :
    ∃ r u suite t, Analyzed x suiteId c result r u suite t ∧ Since r c.id u
      (result.results.foldl (r.taken result.floors u.clock.now) (u.serves r c.id)) y.storage := by
  obtain ⟨given, z, hanalyze, hmore⟩ := of_ended_bind h
  split at hmore
  · next hdone =>
    cases hmore
    obtain ⟨r, u, suite, hanalyzed⟩ := analyze_done hanalyze hok
    have hnone : result.results = [] := by
      unfold AnalysisResult.succeeded at hdone
      rw [hok] at hdone
      simpa using hdone
    rw [hnone]
    have hlooks := hanalyzed.looks
    exact ⟨r, u, suite, _, hanalyzed, hlooks.root, hlooks.clock, hlooks.serves c.id⟩
  · obtain ⟨n, z', hassign, hdone⟩ := of_ended_bind hmore
    cases hdone
    obtain ⟨r, u, suite, hanalyzed⟩ := analyze_done hanalyze hok
    have hlooks := hanalyzed.looks
    have hlabel : given.floors ≠ "" := by
      rw [hanalyzed.read.floors]
      exact spanText_ne _ _
    rw [if_neg hlabel] at hassign
    have hstored := assign_done hlooks.root hassign
    rw [hlooks.clock, hlooks.serves] at hstored
    exact ⟨r, u, suite, _, ⟨hanalyzed.loaded, hanalyzed.found,
      ⟨hanalyzed.read.floors, hanalyzed.read.contents⟩, hlooks⟩, hstored.root,
      hstored.clock.trans hlooks.clock, hstored.serves⟩

end Session

/-! ## What stays of a result -/

section Taken

variable {vs : ChatValues} {d : Definition} {p : Tagged} {before later : List Tagged}

/-- A variable that takes a content holds it. -/
theorem Definition.holds_take (d : Definition) (vs : ChatValues) (content floors : String)
    (now : Int) : (d.take vs content floors now).Holds content floors := by
  unfold Definition.take
  cases d.mode with
  | stack => exact ⟨_, List.mem_append_right _ (List.mem_singleton_self _), rfl, rfl⟩
  | replace => exact ⟨rfl, rfl⟩

/-- Later results leave what the variable took where it is: they are for other variables, or join the
same stack. -/
def Definition.Spared (ds : List (String × Definition)) (d : Definition) (later : List Tagged) :
    Prop :=
  ∀ q ∈ later, ∀ e, Variables.tagged? ds q.tag = some e → e.id = d.id →
    d.mode = .stack ∧ e.mode = .stack

/-- A result that no later one takes the place of is there under its label. -/
theorem Root.holds_taken (hd : Variables.tagged? r.definitions p.tag = some d)
    (hspared : d.Spared r.definitions later) (floors : String) (now : Int) (vs : ChatValues) :
    ∃ v, Json.find? ((before ++ p :: later).foldl (r.taken floors now) vs) d.id = some v ∧
      v.Holds p.content floors := by
  rw [List.foldl_append, List.foldl_cons]
  generalize before.foldl (r.taken floors now) vs = given
  -- what a stack holds stays while it is a stack
  let Kept (ws : ChatValues) : Prop := ∃ v, Json.find? ws d.id = some v ∧
    v.Holds p.content floors ∧ (d.mode = .stack → ∃ s, v = .stack s)
  have hfirst : Kept (r.taken floors now given p) := by
    unfold Root.taken
    rw [hd]
    dsimp only
    refine ⟨_, by rw [Json.find?_insert, if_pos rfl], d.holds_take given p.content floors now, ?_⟩
    intro hmode
    unfold Definition.take
    rw [hmode]
    exact ⟨_, rfl⟩
  have hlater (ws : ChatValues) (h : Kept ws) (q : Tagged) (hq : q ∈ later) :
      Kept (r.taken floors now ws q) := by
    unfold Root.taken
    cases he : Variables.tagged? r.definitions q.tag with
    | none => exact h
    | some e =>
      dsimp only
      obtain ⟨v, hv, hholds, hstack⟩ := h
      by_cases hid : e.id = d.id
      · obtain ⟨hmode, hmode'⟩ := hspared q hq e he hid
        obtain ⟨s, rfl⟩ := hstack hmode
        obtain ⟨x, hx, hcontent⟩ := hholds
        have hwas : ws.stack e.id = s := by
          unfold ChatValues.stack
          rw [hid, hv]
          rfl
        refine ⟨_, by rw [hid, Json.find?_insert, if_pos rfl], ?_, fun _ => ?_⟩
        · unfold Definition.take
          rw [hmode', hwas]
          exact ⟨x, List.mem_append_left _ hx, hcontent⟩
        · unfold Definition.take
          rw [hmode']
          exact ⟨_, rfl⟩
      · exact ⟨v, by rw [Json.find?_insert, if_neg hid, hv], hholds, hstack⟩
  obtain ⟨v, hv, hholds, -⟩ := List.foldlRecOn later _ hfirst hlater
  exact ⟨v, hv, hholds⟩

end Taken

/-! ## Writing and reading labels -/

/-- While the chat has a content under a label, branches of it have the content if they were made at
floor `m` or later, and else not. -/
structure Storage.HandsOver (z : Storage) (chat content floors : String) (m : Int) : Prop where
  /-- A branch can be made in a chat that can be read, where all labels can be. -/
  made : ∀ r u vs target f only, ended Storage.load z = (.ok r, u) → u.HasValues chat vs →
    chat ≠ target → u.Readable target → (∀ v ∈ vs, v.2.FloorsShort) →
    ∃ ids t, ended (Variables.inherit chat target f only) z = (.ok (.ok ids), t)
  exactly : ∀ r u vs target f only ids t ws, ended Storage.load z = (.ok r, u) →
    u.HasValues chat vs → (Json.keys vs).Nodup →
    ended (Variables.inherit chat target (some f) only) z = (.ok (.ok ids), t) →
    t.HasValues target ws → ∀ id v, r.inherits only id = true → Json.find? vs id = some v →
    v.Holds content floors →
    (m ≤ f ↔ id ∈ ids ∧ ∃ w, Json.find? ws id = some w ∧ w.Holds content floors)

theorem EndsAt.handsOver (h : EndsAt floors m) (hcontent : content ≠ "") (z : Storage)
    (chat : String) : z.HandsOver chat content floors m where
  made r u vs target f only hload hvs hne hreadable hshort := by
    have hroot := Storage.root_of_load hload
    rw [Storage.hasValues_iff hroot] at hvs
    subst hvs
    obtain ⟨t, hrun, -⟩ := Storage.ended_inherit hload hne
      (Storage.sound_of_readable hroot hreadable) f only hshort
    exact ⟨_, t, hrun⟩
  exactly r u vs target f only ids t ws hload hvs hkeys hrun hws id v hmeant hv hholds := by
    rw [Storage.hasValues_iff (Storage.root_of_load hload)] at hvs
    rw [Storage.hasValues_iff (Storage.inherit_done hload hrun).2.1] at hws
    subst hvs hws
    exact Storage.inherit_holds_iff hload hrun hkeys hmeant hv h hcontent hholds

/-- What is read of the label of a prompt is the greatest floor that its items cover, or the length
of the chat if they cover none, as long as a number with so many digits can be read. What a run
stores under it is there afterwards, and as long as it is, a branch has it if and only if it was made
at that floor or later. -/
theorem floors_read_back {x y : Session} {suiteId : String} {c : Chat} :
    (∀ text floors, ended (Session.prompt suiteId c) x = (.ok (text, floors), y) →
      ∃ r u, ended Storage.load x.storage = (.ok r, u) ∧
        let m := highest x.templates.floorFormat c (r.visibleIn suiteId)
        Brief m → lastFloor? floors = .ok (some m)) ∧
    ∀ result, ended (Session.run suiteId c) x = (.ok result, y) → result.fault = none →
      ∃ r u suite vs, ended Storage.load x.storage = (.ok r, u) ∧
        Json.find? r.suites suiteId = some suite ∧ y.storage.HasValues c.id vs ∧
        let m := highest x.templates.floorFormat c (r.visibleIn suite.id)
        (Brief m → lastFloor? result.floors = .ok (some m)) ∧
        (∀ before p later d, result.results = before ++ p :: later →
          Variables.tagged? r.definitions p.tag = some d → d.Spared r.definitions later →
          ∃ v, Json.find? vs d.id = some v ∧ v.Holds p.content result.floors) ∧
        ∀ p ∈ result.results, ∀ z : Storage, z.HandsOver c.id p.content result.floors m := by
  constructor
  · intro text floors h
    obtain ⟨r, u, hload, -, rfl⟩ := Session.prompt_done h
    exact ⟨r, u, hload, (r.endsAt_spanIn suiteId x.templates.floorFormat c).lastFloor?_eq⟩
  · intro result h hok
    obtain ⟨r, u, suite, t, hanalyzed, hstored⟩ := Session.run_done h hok
    have hends : EndsAt result.floors
        (highest x.templates.floorFormat c (r.visibleIn suite.id)) := by
      rw [hanalyzed.read.floors]
      exact r.endsAt_spanIn suite.id x.templates.floorFormat c
    refine ⟨r, u, suite, _, hanalyzed.loaded, hanalyzed.found,
      (Storage.hasValues_iff hstored.root).mpr hstored.serves, hends.lastFloor?_eq,
      fun before p later d hresults hd hspared => ?_, fun p hp z => ?_⟩
    · rw [hresults]
      exact r.holds_taken hd hspared result.floors u.clock.now (u.serves r c.id)
    · exact hends.handsOver (hanalyzed.read.contents p hp) z c.id

def Chat.ofThree : Chat := ⟨"c", [⟨"", "a", true⟩, ⟨"", "b", false⟩, ⟨"", "c", true⟩], none⟩

/-- A session after a run in that chat, whose prompt covers no floor. -/
def Session.afterThree : Session :=
  (ended (Session.run "suite_0b63ci" .ofThree) (.asking [.text "[log]one[/log]"])).2

/-- The entry of the log is stored under the third floor, and inherited there and not before. -/
theorem floors_read_back_third : ∃ result,
    ended (Session.run "suite_0b63ci" .ofThree) (.asking [.text "[log]one[/log]"]) =
        (.ok result, .afterThree) ∧
      result.fault = none ∧ result.floors = "3" ∧ lastFloor? result.floors = .ok (some 3) ∧
      ∃ vs v, Session.afterThree.storage.HasValues "c" vs ∧
        Json.find? vs "var_0qyxjj" = some v ∧ v.Holds "one" "3" ∧
        ∀ f ids t ws, ended (Variables.inherit "c" "d" (some f) none) Session.afterThree.storage =
            (.ok (.ok ids), t) →
          t.HasValues "d" ws → (3 ≤ f ↔ "var_0qyxjj" ∈ ids ∧
            ∃ w, Json.find? ws "var_0qyxjj" = some w ∧ w.Holds "one" "3") := by
  have hrun : ended (Session.run "suite_0b63ci" .ofThree) (.asking [.text "[log]one[/log]"]) =
      (.ok ⟨none, [⟨"[log]", "one"⟩], "3", some "[log]one[/log]", [], 1⟩, .afterThree) :=
    Prod.ext (by decide +kernel) (by unfold Session.afterThree; dsimp only)
  have hsome : (Session.asking [.text "[log]one[/log]"]).storage.store.root.isSome = true := by
    decide +kernel
  have hhighest : (Session.asking [.text "[log]one[/log]"]).storage.store.root.all (fun r =>
      (Json.find? r.suites "suite_0b63ci").all fun suite =>
        highest (Session.asking [.text "[log]one[/log]"]).templates.floorFormat .ofThree
          (r.visibleIn suite.id) = 3) = true := by decide +kernel
  have hdefined : (Session.asking [.text "[log]one[/log]"]).storage.store.root.all (fun r =>
      (Variables.tagged? r.definitions "[log]").any (·.id = "var_0qyxjj")) = true := by
    decide +kernel
  have hsome' : Session.afterThree.storage.store.root.isSome = true := by decide +kernel
  have hmeant : Session.afterThree.storage.store.root.all (·.inherits none "var_0qyxjj") = true := by
    decide +kernel
  have hvalues : (ended (Storage.loadValues "c") Session.afterThree.storage).1 =
      .ok [("var_0qyxjj", .stack ⟨[⟨1, "one", "3", 0, false⟩], 2⟩)] := by decide +kernel
  obtain ⟨r, hroot⟩ := Option.isSome_iff_exists.mp hsome
  obtain ⟨r', hroot'⟩ := Option.isSome_iff_exists.mp hsome'
  obtain ⟨loaded, u, suite, vs, hload, hfound, hvs, hread, hstored, hhands⟩ :=
    floors_read_back.2 _ hrun rfl
  obtain rfl : loaded = r :=
    Except.ok.inj (Prod.mk.inj (hload.symm.trans (Storage.ended_load_some hroot))).1
  rw [hroot, Option.all_some, hfound, Option.all_some, decide_eq_true_eq] at hhighest
  rw [hroot, Option.all_some, Option.any_eq_true] at hdefined
  obtain ⟨d, hd, hid⟩ := hdefined
  rw [decide_eq_true_eq] at hid
  obtain ⟨v, hv, hholds⟩ := hstored [] ⟨"[log]", "one"⟩ [] d rfl hd nofun
  rw [hid] at hv
  have hkeys : (Json.keys vs).Nodup := by
    rw [← Except.ok.inj (hvalues.symm.trans hvs)]
    decide
  rw [hroot', Option.all_some] at hmeant
  rw [hhighest] at hread hhands
  refine ⟨_, hrun, rfl, rfl, hread (by decide), vs, v, hvs, hv, hholds,
    fun f ids t ws hinherit hws => ?_⟩
  exact (hhands ⟨"[log]", "one"⟩ List.mem_cons_self _).exactly r' _ vs "d" f none ids t ws
    (Storage.ended_load_some hroot') hvs hkeys hinherit hws "var_0qyxjj" v hmeant hv hholds

end TagLedger
