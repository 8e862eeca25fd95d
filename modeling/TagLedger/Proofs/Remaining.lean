import TagLedger.Proofs.Courses
import TagLedger.Proofs.Moving

/-!
# What is left of moved values

The root is written before the chats, and any write may fail. So a value that was moved out of an
older root can be read from the documents at some moment exactly if the root was not written by
then, or its chat was, or the document of its chat held it from the beginning. And as long as the
root is not written, it is loaded as an older one again, and its values come before those that were
written to the documents of its chats meanwhile.

    Readable at a moment ↔ root not written, or chat written, or held before     (readable_iff)
    a written value is served ↔ the older root holds it too, or nothing of the chat
                                                                         (served_after_move_iff)
-/

namespace TagLedger

variable {N : Naming} {r : Root} {chats : List (String × ChatValues)} {chat id : String} {v : Value}

/-! ## Courses that spare a value -/

/-- A value is neither set nor removed, and what becomes part of the root is sound. -/
def StoreOperation.Spares (chat id : String) : StoreOperation → Prop
  | .saveSuites list => (Json.keys list).Nodup ∧ ∀ x ∈ list, x.2.Sound
  | .saveDefinitions ds => (Json.keys ds).Nodup
  | .saveSettings x => x.Sound
  | .setValue other c _ => c = chat → other ≠ id
  | .removeValues other => other ≠ id
  | _ => True

namespace Course

/-- A step that spares a value, and at which nobody else changes the documents. -/
inductive SparingStep (N : Naming) (chat id : String) (c : Course) : Course → Prop where
  | ask (op : StoreOperation) (hspares : op.Spares chat id)
      (hused : ∀ chat ∈ (Operation.ofStore op).chats, N.used chat) :
      SparingStep N chat id c (after c.pending (op.perform c.storage))
  | goOn {before later : List Pending} {p : Pending} {g : Signal} {s : Storage}
      (hp : c.pending = before ++ p :: later) (hs : wake p.wait g c.storage = some s) :
      SparingStep N chat id c (after (before ++ later) (p.resume g s))
  | elapse (time : Nat) :
      SparingStep N chat id c ⟨(exec (Storage.elapse time) c.storage).2, c.pending⟩
  | clock (clock : Clock) : SparingStep N chat id c ⟨{ c.storage with clock := clock }, c.pending⟩
  /-- The shelf begins or stops to refuse accesses. -/
  | refuse (refuses : Access → Bool) :
      SparingStep N chat id c
        ⟨{ c.storage with shelf := { c.storage.shelf with refuses := refuses } }, c.pending⟩

/-- What comes of a store that is loaded and then used in ways that spare a value. -/
inductive Sparing (N : Naming) (chat id : String) (s : Storage) : Course → Prop where
  | loaded : Sparing N chat id s ⟨(ended Storage.load s).2, []⟩
  | step {c d : Course} : Sparing N chat id s c → SparingStep N chat id c d → Sparing N chat id s d

/-- Who waits goes on with what is carried over. -/
def Going (N : Naming) (chat id : String) (v : Value) (a : Shelf) (p : Pending) : Prop :=
  ∀ g s t, Carrying N chat id v a s → wake p.wait g s = some t →
    Rests (Always (Carrying N chat id v a)) (fun _ _ => True) none (p.resume g t)

def Carried (N : Naming) (chat id : String) (v : Value) (a : Shelf) (c : Course) : Prop :=
  Carrying N chat id v a c.storage ∧ ∀ p ∈ c.pending, Going N chat id v a p

variable {a : Shelf} {c d : Course} {s : Storage}

theorem carried_after {ps : List Pending} {p : Progress Storage Unit}
    (hp : Rests (Always (Carrying N chat id v a)) (fun _ _ => True) none p)
    (hps : ∀ q ∈ ps, Going N chat id v a q) : Carried N chat id v a (after ps p) := by
  cases hp with
  | done hs _ => exact ⟨hs, hps⟩
  | waits hs hr => exact ⟨hs, List.forall_mem_cons.mpr ⟨fun g s t => hr g none s t, hps⟩⟩
  | @holds k _ _ _ _ _ => exact k.elim

theorem keeps_sparing {op : StoreOperation} (hspares : op.Spares chat id)
    (hused : ∀ c ∈ (Operation.ofStore op).chats, N.used c) :
    Keeps (Always (Carrying N chat id v a)) op.perform := by
  have hwriting : KeepsWriting (Always (Carrying N chat id v a)) := Carrying.writing
  have hload : Keeps (Always (Carrying N chat id v a)) Storage.load := Carrying.load
  have hone {c : String} (hc : [c] ⊆ (Operation.ofStore op).chats) : N.used c :=
    hused c (hc (List.mem_singleton_self c))
  cases op with
  | load => exact hload.silent
  | suites => exact (hload.bind fun _ => .pure _).silent
  | definitions => exact (hload.bind fun _ => .pure _).silent
  | settings => exact (hload.bind fun _ => .pure _).silent
  | saveSuites list =>
    exact Carrying.changeRoot fun r hr => hr.withSuites hspares.1 hspares.2
  | saveDefinitions ds => exact Carrying.changeRoot fun r hr => hr.withDefinitions hspares
  | saveSettings x => exact Carrying.changeRoot fun r hr => hr.withSettings hspares
  | save => exact .ofAction (hwriting.save trivial)
  | saveSoon => exact Keeps.ofAction (x := Storage.saveSoon) fun _ _ h => h.quiet
  | loadValues c => exact (Carrying.loadValues (hone (List.Subset.refl _))).keeps.silent
  | getValue other c =>
    have hvalues : Keeps (Always (Carrying N chat id v a)) (Storage.loadValues c) :=
      (Carrying.loadValues (hone (List.Subset.refl _))).keeps
    exact (hvalues.bind fun _ => .pure _).silent
  | setValue other c w => exact Carrying.setValue (hone (List.Subset.refl _)) hspares w
  | saveValues c => exact .ofAction (hwriting.saveValues c trivial)
  | saveValuesSoon c => exact Keeps.ofAction (x := Storage.saveValuesSoon c) fun _ _ h => h.quiet
  | removeValues other => exact (Keeps.ofAction (Carrying.removeValues hspares)).silent
  | flush => exact .ofAction hwriting.flush
  | close => exact .ofAction hwriting.close

theorem carried_step (h : Carried N chat id v a c) (hstep : SparingStep N chat id c d) :
    Carried N chat id v a d := by
  obtain ⟨hs, hps⟩ := h
  cases hstep with
  | ask op hspares hused => exact carried_after (keeps_sparing hspares hused none _ hs) hps
  | @goOn ps qs p g t hp hw =>
    rw [hp] at hps
    refine carried_after (hps p (List.mem_append_right _ List.mem_cons_self) g _ t hs hw) ?_
    intro q hq
    refine hps q ((List.mem_append.mp hq).elim (List.mem_append_left _) fun hq => ?_)
    exact List.mem_append_right _ (List.mem_cons_of_mem p hq)
  | elapse time => exact ⟨Carrying.writing.elapse time none _ hs, hps⟩
  | clock clock => exact ⟨hs.quiet, hps⟩
  | refuse refuses =>
    obtain ⟨since, hlog⟩ := hs.log
    exact ⟨{ hs with log := ⟨since, { hlog with }⟩ }, hps⟩

theorem carried_of_sparing {old : String} {vs : ChatValues} (h : Fresh N s)
    (hroot : s.shelf.find? N.rootName = some old)
    (hreads : s.shelf.refuses (.read N.rootName) = false)
    (hread : Storage.RootReading.ofText ⟨s.clock.now, false⟩ old = .root r (some chats))
    (hused : ∀ c ∈ Json.keys chats, N.used c) (hchat : (chat, vs) ∈ chats)
    (hv : Json.find? vs id = some v) (hc : Sparing N chat id s c) :
    Carried N chat id v s.shelf c := by
  induction hc with
  | loaded => exact ⟨carrying_load h hroot hreads hread hused hchat hv, nofun⟩
  | step _ hstep ih => exact carried_step ih hstep

end Course

/-! ## What can be read -/

/-- An older root with one variable, and its value in one chat. -/
def olderRoot : String :=
  "\x7b\"definitions\":[\x7b\"id\":\"v\",\"name\":\"a\",\"tag\":\"a\"\x7d]," ++
    "\"values\":\x7b\"c\":\x7b\"v\":\x7b\"currentValue\":\"x\"\x7d\x7d\x7d\x7d"

theorem ofText_olderRoot : ∃ r, Storage.RootReading.ofText ⟨0, false⟩ olderRoot =
    .root r (some [("c", [("v", .slot ⟨"x", none, none, [], -1⟩)])]) := by
  have hread : (match Storage.RootReading.ofText ⟨0, false⟩ olderRoot with
      | .root _ moved => decide (moved = some [("c", [("v", .slot ⟨"x", none, none, [], -1⟩)])])
      | _ => false) = true := by decide +kernel
  split at hread
  · next r moved hof =>
    rw [hof, of_decide_eq_true hread]
    exact ⟨r, rfl⟩
  · cases hread

/-- A value can be read from documents alone: the root still is the older one, or the document of
the chat holds the value. -/
def Readable (N : Naming) (old chat id : String) (v : Value) (documents : String → Option String) :
    Prop :=
  documents N.rootName = some old ∨ Holds (documents (Store.valuesName N.valuesStart chat)) id v

/-- A moved value can be read at a moment exactly if the root was not written by then, or the chat
was, or the document of the chat held the value before. -/
theorem readable_iff {s : Storage} {old : String} {c : Course} (h : Fresh N s)
    (hroot : s.shelf.find? N.rootName = some old)
    (hreads : s.shelf.refuses (.read N.rootName) = false)
    (hread : Storage.RootReading.ofText ⟨s.clock.now, false⟩ old = .root r (some chats))
    (hused : ∀ c ∈ Json.keys chats, N.used c) {vs : ChatValues} (hchat : (chat, vs) ∈ chats)
    (hv : Json.find? vs id = some v) (hc : Course.Sparing N chat id s c)
    {later earlier : List Shelf.Call}
    (hcalls : c.storage.shelf.calls = later ++ (earlier ++ s.shelf.calls)) :
    Readable N old chat id v (fun name => Shelf.textAfter name (s.shelf.find? name) earlier) ↔
      ¬ Shelf.Wrote N.rootName earlier ∨
        Shelf.Wrote (Store.valuesName N.valuesStart chat) earlier ∨
        Holds (s.shelf.find? (Store.valuesName N.valuesStart chat)) id v := by
  obtain ⟨since, hlog⟩ :=
    (Course.carried_of_sparing h hroot hreads hread hused hchat hv hc).1.log
  have hsince := hlog.calls
  rw [hcalls, ← List.append_assoc] at hsince
  obtain rfl := List.append_cancel_right hsince
  have hrootTexts : Shelf.Kept N.rootName Root.IsText earlier := fun c hc =>
    hlog.root c (List.mem_append_right _ hc)
  have hchatTexts : Shelf.Kept (Store.valuesName N.valuesStart chat)
      (fun t => Holds (some t) id v) earlier := fun c hc =>
    hlog.chat c (List.mem_append_right _ hc)
  have hold (hw : ¬ Shelf.Wrote N.rootName earlier) :
      Shelf.textAfter N.rootName (s.shelf.find? N.rootName) earlier = some old := by
    rw [hrootTexts.textAfter_first hw, hroot]
  have hnew (hw : Shelf.Wrote N.rootName earlier) :
      Shelf.textAfter N.rootName (s.shelf.find? N.rootName) earlier ≠ some old := by
    obtain ⟨text, htext, hsound⟩ := hrootTexts.textAfter_wrote hw (s.shelf.find? N.rootName)
    rw [htext]
    exact fun e => hsound.ne_old hread (Option.some.inj e)
  unfold Readable
  dsimp only
  by_cases hwrote : Shelf.Wrote (Store.valuesName N.valuesStart chat) earlier
  · obtain ⟨text, htext, hholds⟩ := hchatTexts.textAfter_wrote hwrote
      (s.shelf.find? (Store.valuesName N.valuesStart chat))
    rw [htext]
    exact iff_of_true (Or.inr hholds) (Or.inr (Or.inl hwrote))
  · rw [hchatTexts.textAfter_first hwrote]
    constructor
    · rintro (hsame | hheld)
      · exact Or.inl fun hw => hnew hw hsame
      · exact Or.inr (Or.inr hheld)
    · rintro (hw | hw | hheld)
      · exact Or.inl (hold hw)
      · exact absurd hw hwrote
      · exact Or.inr hheld

/-- An older root in a new store, on a shelf that refuses the document of its only chat. -/
def refusedMove : Storage :=
  ⟨.empty "root" "values-" 0 0,
    ⟨[("root", olderRoot)], fun a => a = .write (Store.valuesName "values-" "c"), [], [], 0⟩,
    ⟨0, 0⟩, .start⟩

/-- When it is loaded, the root is written, and the document of the chat is not. -/
theorem wrote_refusedMove :
    Shelf.Wrote "root" (ended Storage.load refusedMove).2.shelf.calls ∧
      ¬ Shelf.Wrote (Store.valuesName "values-" "c")
        (ended Storage.load refusedMove).2.shelf.calls := by
  decide +kernel

/-- The root is written, but the document of its only chat is refused: the value is lost. -/
theorem readable_iff_refused : ∃ N s old c r chats chat id v,
    Storage.RootReading.ofText ⟨s.clock.now, false⟩ old = .root r (some chats) ∧
      s.shelf.find? N.rootName = some old ∧ Course.Sparing N chat id s c ∧ s.shelf.calls = [] ∧
      (∃ vs, (chat, vs) ∈ chats ∧ Json.find? vs id = some v) ∧
      ¬ Readable N old chat id v fun name =>
        Shelf.textAfter name (s.shelf.find? name) c.storage.shelf.calls := by
  let N : Naming := .ofChat "root" "values-" "c" (by decide)
  obtain ⟨r, hread⟩ := ofText_olderRoot
  have hwrote := wrote_refusedMove
  have hloaded : Course.Sparing N "c" "v" refusedMove ⟨(ended Storage.load refusedMove).2, []⟩ :=
    .loaded
  -- Nothing below may compute what loading comes to.
  generalize (ended Storage.load refusedMove).2 = t at hwrote hloaded
  have hfresh : Fresh N refusedMove := fresh_empty N 0 0 refusedMove.shelf ⟨0, 0⟩ .start
  have hroot : refusedMove.shelf.find? N.rootName = some olderRoot := rfl
  have hcalls : t.shelf.calls = [] ++ (t.shelf.calls ++ refusedMove.shelf.calls) :=
    (List.append_nil _).symm
  have hmem := List.mem_singleton_self ("c", [("v", Value.slot ⟨"x", none, none, [], -1⟩)])
  have hv : Json.find? [("v", Value.slot ⟨"x", none, none, [], -1⟩)] "v" =
      some (.slot ⟨"x", none, none, [], -1⟩) := rfl
  have hiff := readable_iff hfresh hroot rfl hread (fun c hc => List.mem_singleton.mp hc) hmem hv
    hloaded hcalls
  refine ⟨N, refusedMove, olderRoot, _, r, _, "c", "v", _, hread, hroot, hloaded, rfl,
    ⟨_, hmem, hv⟩, fun hr => ?_⟩
  rcases hiff.mp hr with hw | hw | ⟨raw, hraw, hheld⟩
  · exact hw hwrote.1
  · exact hwrote.2 hw
  · cases hraw
    cases hheld ⟨0, false⟩

/-! ## What is served then -/

/-- What a chat that is not in memory is served from its document. -/
theorem served_from_document {s : Storage} {vs : ChatValues}
    (hroot : s.store.root = some r) (hmarked : s.store.rootDegraded = false)
    (hremoved : s.store.removed = []) (hlines : s.store.held = [])
    (husable : s.store.usable? chat = none)
    (hread : s.shelf.refuses (.read (Store.valuesName s.store.valuesStart chat)) = false)
    (hfind : s.shelf.find? (Store.valuesName s.store.valuesStart chat) =
      some (ChatValues.text chat vs))
    (hvs : (Json.keys vs).Nodup) (hw : (ChatValues.document chat vs).writable = true) :
    (ended (Storage.loadValues chat) s).1 =
      .ok (vs.filter fun x => (Json.find? r.definitions x.1).isSome) := by
  let u : Storage :=
    { s with
      store := { s.store with held := [(.chat s.store.epoch chat, 0)] }
      shelf := (s.shelf.read (Store.valuesName s.store.valuesStart chat)).2 }
  have hanswer : (s.shelf.read (Store.valuesName s.store.valuesStart chat)).1 =
      .ok (some (ChatValues.text chat vs)) := by
    unfold Shelf.read
    rw [hread, hfind]
    rfl
  have hget : u.store.root.getD r = r := by
    change s.store.root.getD r = r
    rw [hroot]
    rfl
  have hvalues : Storage.readValues ⟨u.clock.now, false⟩ (vs.map fun v => (v.1, v.2.document)) = vs :=
    readValues_documents vs
  obtain ⟨t, hsweep, hheld⟩ := Storage.exec_sweep chat vs r (s := { u with store :=
    { u.store.setValues chat vs with degraded := u.store.degraded.filter (· != chat) } })
    hremoved hmarked
  have htake : exec (Storage.takeChat chat r (.ok (some (ChatValues.text chat vs)))) u = _ :=
    Storage.exec_takeChat_sweep (rawValues?_text hvs chat hw) hvalues
  rw [hget, hsweep, ← hanswer] at htake
  have hload := Storage.ended_load_some hroot
  rw [Storage.ended_loadValues husable hload hlines husable htake hheld]

/-- Right after an older root was loaded, whatever was refused meanwhile, a chat is served what that
root holds of it; one that it does not speak of is served those values in its document whose
variables are defined. -/
theorem served_after_move {s : Storage} {text : String} {vs : ChatValues} (h : Fresh N s)
    (hroot : s.shelf.find? N.rootName = some text)
    (hreads : s.shelf.refuses (.read N.rootName) = false)
    (hread : Storage.RootReading.ofText ⟨s.clock.now, false⟩ text = .root r (some chats))
    (hused : ∀ c ∈ Json.keys chats, N.used c) (hc : N.used chat)
    (hwritten : s.shelf.find? (Store.valuesName N.valuesStart chat) =
      some (ChatValues.text chat vs))
    (hreadable : s.shelf.refuses (.read (Store.valuesName N.valuesStart chat)) = false)
    (hvs : (Json.keys vs).Nodup) (hw : (ChatValues.document chat vs).writable = true) :
    (ended (Storage.loadValues chat) (ended Storage.load s).2).1 =
      .ok ((Json.find? chats chat).getD
        (vs.filter fun x => (Json.find? r.definitions x.1).isSome)) := by
  obtain ⟨hrefuses, ⟨_, _, _, _, hstore⟩, hothers⟩ :=
    sameMemory_load h hroot hreads hread hused
  generalize (ended Storage.load s).2 = t at hrefuses hstore hothers
  have hvalues : t.store.values = chats := by rw [hstore]
  have hstart : t.store.valuesStart = N.valuesStart := by rw [hstore, ← h.valuesStart]
  have husable : t.store.usable? chat = Json.find? chats chat := by
    unfold Store.usable? Store.isDegraded Store.cached?
    rw [hstore, h.readable]
    rfl
  cases hfind : Json.find? chats chat with
  | some moved =>
    rw [hfind] at husable
    rw [Storage.ended_loadValues_usable husable]
    rfl
  | none =>
    rw [hfind] at husable
    have hout : chat ∉ Json.keys chats := Json.find?_eq_none.mp hfind
    refine served_from_document ?_ ?_ ?_ ?_ husable ?_ ?_ hvs hw
    · rw [hstore]
    · rw [hstore]
      exact h.unmarked
    · rw [hstore]
      exact h.removed
    · rw [hstore]
      exact h.lines
    · rw [hstart, hrefuses]
      exact hreadable
    · rw [hstart, hothers chat hc hout]
      exact hwritten

/-- A value that was written to the document of a chat is served right after an older root was
loaded exactly if that root holds the same value, or does not speak of the chat and defines the
variable. -/
theorem served_after_move_iff {s : Storage} {text : String} {vs : ChatValues} (h : Fresh N s)
    (hroot : s.shelf.find? N.rootName = some text)
    (hreads : s.shelf.refuses (.read N.rootName) = false)
    (hread : Storage.RootReading.ofText ⟨s.clock.now, false⟩ text = .root r (some chats))
    (hused : ∀ c ∈ Json.keys chats, N.used c) (hc : N.used chat)
    (hwritten : s.shelf.find? (Store.valuesName N.valuesStart chat) =
      some (ChatValues.text chat vs))
    (hreadable : s.shelf.refuses (.read (Store.valuesName N.valuesStart chat)) = false)
    (hvs : (Json.keys vs).Nodup) (hw : (ChatValues.document chat vs).writable = true)
    (hv : Json.find? vs id = some v) :
    (∃ served, (ended (Storage.loadValues chat) (ended Storage.load s).2).1 = .ok served ∧
        Json.find? served id = some v) ↔
      (∀ moved, (chat, moved) ∈ chats → Json.find? moved id = some v) ∧
        (chat ∉ Json.keys chats → id ∈ Json.keys r.definitions) := by
  have hserved := served_after_move h hroot hreads hread hused hc hwritten hreadable hvs hw
  have hanswer {ws : ChatValues}
      (hws : (ended (Storage.loadValues chat) (ended Storage.load s).2).1 = .ok ws) :
      (∃ served, (ended (Storage.loadValues chat) (ended Storage.load s).2).1 = .ok served ∧
        Json.find? served id = some v) ↔ Json.find? ws id = some v := by
    constructor
    · rintro ⟨served, hok, hfound⟩
      rw [hws] at hok
      rwa [← Except.ok.inj hok] at hfound
    · exact fun hfound => ⟨ws, hws, hfound⟩
  rw [hanswer hserved]
  cases hfind : Json.find? chats chat with
  | some moved =>
    have hmem := Json.mem_of_find? hfind
    constructor
    · intro hfound
      refine ⟨fun other hother => ?_, fun hout => absurd (Json.mem_keys_of_find? hfind) hout⟩
      have hsame := Json.find?_of_mem (migrated_of_ofText hread).distinct hother
      rw [hfind] at hsame
      rwa [← Option.some.inj hsame]
    · exact fun hall => hall.1 moved hmem
  | none =>
    have hout := Json.find?_eq_none.mp hfind
    rw [Option.getD_none, Json.find?_filter fun id => (Json.find? r.definitions id).isSome, hv]
    constructor
    · intro hfound
      refine ⟨fun moved hmem => absurd (List.mem_map_of_mem hmem) hout, fun _ => ?_⟩
      by_contra hnone
      rw [← Json.find?_isSome] at hnone
      rw [if_neg hnone] at hfound
      contradiction
    · exact fun hall => if_pos (Json.find?_isSome.mpr (hall.2 hout))

/-- The document of a chat holds a newer value, and the chat is served the older one. -/
theorem served_after_move_older : ∃ N s chat vs id v, Fresh N s ∧ N.used chat ∧
    s.shelf.find? (Store.valuesName N.valuesStart chat) = some (ChatValues.text chat vs) ∧
    Json.find? vs id = some v ∧ (∀ a, s.shelf.refuses a = false) ∧
    ¬ ∃ served, (ended (Storage.loadValues chat) (ended Storage.load s).2).1 = .ok served ∧
      Json.find? served id = some v := by
  let N : Naming := .ofChat "root" "values-" "c" (by decide)
  let v : Value := .slot ⟨"y", none, none, [], -1⟩
  let s : Storage := ⟨.empty "root" "values-" 0 0,
    .ofDocuments [("root", olderRoot),
      (Store.valuesName "values-" "c", ChatValues.text "c" [("v", v)])],
    ⟨0, 0⟩, .start⟩
  have hfind : s.shelf.find? (Store.valuesName "values-" "c") =
      some (ChatValues.text "c" [("v", v)]) := rfl
  have hfresh : Fresh N s := fresh_empty N 0 0 s.shelf ⟨0, 0⟩ .start
  have hv : Json.find? [("v", v)] "v" = some v := rfl
  obtain ⟨r, hread⟩ := ofText_olderRoot
  have hiff := served_after_move_iff hfresh rfl rfl hread (fun c hc => List.mem_singleton.mp hc)
    rfl hfind rfl (by decide) (by decide) hv
  refine ⟨N, s, "c", _, "v", v, hfresh, rfl, hfind, hv, fun _ => rfl, fun hserved => ?_⟩
  have hsame := (hiff.mp hserved).1 _ (List.mem_singleton_self _)
  exact absurd hsame (by decide)

end TagLedger
