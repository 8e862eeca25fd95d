import TagLedger.Proofs.Composing

/-!
# New values for fields

A suite and an item are given new values by the names of their fields, in any spelling and any
number of times. The last value that is given for a field counts. It has to fit the field; what does
not fit is refused, and nothing is changed. A name that is no field that may be changed is passed
over, so that the identifier of a suite, the time of its creation, and the kind and the place of an
item cannot be given.

    edit old updates ctx = .valid new ↔ Suite.Revised ctx updates old new           (edit_eq_valid)
    a request that finds no suite or item changes nothing; one that finds them is refused if no new
    value fits, and otherwise changes that suite, or that item of it, and nothing else
                                                                                   (revising_exact)
-/

namespace TagLedger

open Schema (Checked Context Decoder Fields)

variable {α β : Type}

/-! ## Fields that are read -/

namespace Schema

theorem map_eq_valid_iff {f : α → β} {x : Checked α} {b : β} :
    f <$> x = .valid b ↔ ∃ a, x = .valid a ∧ f a = b :=
  ⟨map_eq_valid, fun ⟨_, hx, hb⟩ => by rw [hx, ← hb]; rfl⟩

theorem seq_eq_valid_iff {f : Checked (α → β)} {x : Checked α} {b : β} :
    f <*> x = .valid b ↔ ∃ g a, f = .valid g ∧ x = .valid a ∧ g a = b :=
  ⟨apply_eq_valid, fun ⟨_, _, hf, hx, hb⟩ => by rw [hf, hx, ← hb]; rfl⟩

theorem below_eq_valid_iff {step : Step} {x : Checked α} {a : α} :
    x.below step = .valid a ↔ x = .valid a :=
  ⟨below_eq_valid, fun hx => by rw [hx]; rfl⟩

end Schema

namespace Suites

/-- The last value that is given for a field, under any spelling of it. -/
def lastGiven (updates : List (String × Json)) (field : String) : Option Json :=
  ((updates.filter fun u => plainKey u.1 == field).getLast?).map (·.2)

theorem find?_updatesByKey (updates : List (String × Json)) (field : String) :
    Json.find? (updatesByKey updates) field = lastGiven updates field := by
  induction updates using List.reverseRecOn with
  | nil => rfl
  | append_singleton updates u ih =>
    have hsplit : updatesByKey (updates ++ [u]) =
        Json.insert (updatesByKey updates) (plainKey u.1) u.2 := List.foldl_append
    unfold lastGiven at ih ⊢
    rw [hsplit, Json.find?_insert, List.filter_append, ih]
    by_cases hkey : plainKey u.1 = field
    · simp [hkey]
    · simp [hkey]

/-- A value that counts for a field was given under a spelling of it. -/
theorem mem_of_updatesByKey {updates : List (String × Json)} {field : String} {j : Json}
    (h : Json.find? (updatesByKey updates) field = some j) :
    ∃ key, plainKey key = field ∧ (key, j) ∈ updates := by
  rw [find?_updatesByKey] at h
  obtain ⟨⟨key, _⟩, hlast, rfl⟩ := Option.map_eq_some_iff.mp h
  obtain ⟨hmem, hkey⟩ := List.mem_filter.mp (List.mem_of_getLast? hlast)
  exact ⟨key, beq_iff_eq.mp hkey, hmem⟩

/-- A field is what the last value that is given for it is read as, or else what it was. -/
def Renewed (ctx : Context) (updates : List (String × Json)) (field : String) (d : Decoder α)
    (old new : α) : Prop :=
  match lastGiven updates field with
  | some j => d ctx j = .valid new
  | none => new = old

theorem changed_eq_valid {ctx : Context} {updates : List (String × Json)} {field : String}
    {d : Decoder α} {old new : α} :
    changed ⟨updatesByKey updates, ctx⟩ field old d = .valid new ↔
      Renewed ctx updates field d old new := by
  unfold changed Fields.optional Fields.get? Renewed
  dsimp only [Schema.FieldName.same]
  rw [find?_updatesByKey]
  cases lastGiven updates field with
  | some j => exact Schema.below_eq_valid_iff
  | none => exact ⟨fun h => (Checked.valid.inj h).symm, fun h => congrArg Checked.valid h.symm⟩

end Suites

open Suites

/-! ## Suites and items -/

variable {ctx : Context} {updates : List (String × Json)}

/-- A suite after new values: its five fields that may be changed are renewed, the time of the last
change is now, and the others are what they were. -/
structure Suite.Revised (ctx : Context) (updates : List (String × Json)) (old new : Suite) :
    Prop where
  id : new.id = old.id
  name : Renewed ctx updates "name" Schema.text old.name new.name
  enabled : Renewed ctx updates "enabled" Schema.truth old.enabled new.enabled
  trigger : Renewed ctx updates "trigger" Trigger.decode old.trigger new.trigger
  items : Renewed ctx updates "items" (Schema.list Item.decode) old.items new.items
  useSnapshot : Renewed ctx updates "use_snapshot_mode" (Schema.nullable Schema.truth)
    old.useSnapshot new.useSnapshot
  createdAt : new.createdAt = old.createdAt
  updatedAt : new.updatedAt = ctx.now

/-- An item after new values: it has its kind and its identifier, and those of its fields are renewed
that its kind lets be changed. -/
inductive Item.Revised (ctx : Context) (updates : List (String × Json)) : Item → Item → Prop where
  | prompt {old new : PromptItem} (id : new.id = old.id)
      (name : Renewed ctx updates "name" Schema.text old.name new.name)
      (content : Renewed ctx updates "content" Schema.text old.content new.content)
      (enabled : Renewed ctx updates "enabled" Schema.truth old.enabled new.enabled) :
      Revised ctx updates (.prompt old) (.prompt new)
  | variable {old new : VariableItem} (id : new.id = old.id)
      (enabled : Renewed ctx updates "enabled" Schema.truth old.enabled new.enabled) :
      Revised ctx updates (.variable old) (.variable new)
  | chat {old new : ChatItem} (id : new.id = old.id)
      (name : Renewed ctx updates "name" Schema.text old.name new.name)
      (enabled : Renewed ctx updates "enabled" Schema.truth old.enabled new.enabled)
      (range : Renewed ctx updates "range_config" RangeRule.decode old.range new.range)
      (excludeUser : Renewed ctx updates "exclude_user" Schema.truth old.excludeUser new.excludeUser)
      (scripts : Renewed ctx updates "regex_config" ScriptSet.decode old.scripts new.scripts) :
      Revised ctx updates (.chat old) (.chat new)
  | character {old new : CharacterItem} (same : new = { old with enabled := new.enabled })
      (enabled : Renewed ctx updates "enabled" Schema.truth old.enabled new.enabled) :
      Revised ctx updates (.character old) (.character new)

/-- A suite after new values for the first item with this identifier: the item is revised at its
place, and the time of the last change is now. -/
def Suite.RevisedAt (ctx : Context) (updates : List (String × Json)) (itemId : String)
    (old new : Suite) : Prop :=
  ∃ before item item' after, old.items = before ++ item :: after ∧
    (∀ i ∈ before, i.id ≠ itemId) ∧ item.id = itemId ∧ Item.Revised ctx updates item item' ∧
    new = { old with items := before ++ item' :: after, updatedAt := ctx.now }

theorem edit_eq_valid {old new : Suite} :
    edit old updates ctx = .valid new ↔ Suite.Revised ctx updates old new := by
  unfold edit
  simp only [Schema.seq_eq_valid_iff, Schema.map_eq_valid_iff, changed_eq_valid]
  constructor
  · rintro ⟨_, useSnapshot, ⟨_, items, ⟨_, trigger, ⟨_, enabled, ⟨name, hname, rfl⟩, henabled, rfl⟩,
      htrigger, rfl⟩, hitems, rfl⟩, hsnapshot, rfl⟩
    exact ⟨rfl, hname, henabled, htrigger, hitems, hsnapshot, rfl, rfl⟩
  · intro h
    obtain ⟨id, name, enabled, trigger, items, useSnapshot, createdAt, updatedAt⟩ := new
    obtain ⟨rfl, hname, henabled, htrigger, hitems, hsnapshot, rfl, rfl⟩ := h
    exact ⟨_, _, ⟨_, _, ⟨_, _, ⟨_, _, ⟨_, hname, rfl⟩, henabled, rfl⟩, htrigger, rfl⟩, hitems, rfl⟩,
      hsnapshot, rfl⟩

theorem editItem_eq_valid {old new : Item} :
    editItem old updates ctx = .valid new ↔ Item.Revised ctx updates old new := by
  unfold editItem
  cases old with
  | prompt p =>
    simp only [Schema.seq_eq_valid_iff, Schema.map_eq_valid_iff, changed_eq_valid]
    constructor
    · rintro ⟨_, enabled, ⟨_, content, ⟨name, hname, rfl⟩, hcontent, rfl⟩, henabled, rfl⟩
      exact .prompt rfl hname hcontent henabled
    · rintro (⟨hid, hname, hcontent, henabled⟩)
      refine ⟨_, _, ⟨_, _, ⟨_, hname, rfl⟩, hcontent, rfl⟩, henabled, ?_⟩
      rw [← hid]
  | «variable» v =>
    simp only [Schema.map_eq_valid_iff, changed_eq_valid]
    constructor
    · rintro ⟨enabled, henabled, rfl⟩
      exact .variable rfl henabled
    · rintro (_ | ⟨hid, henabled⟩)
      refine ⟨_, henabled, ?_⟩
      rw [← hid]
  | chat c =>
    simp only [Schema.seq_eq_valid_iff, Schema.map_eq_valid_iff, changed_eq_valid]
    constructor
    · rintro ⟨_, scripts, ⟨_, excludeUser, ⟨_, range, ⟨_, enabled, ⟨name, hname, rfl⟩, henabled, rfl⟩,
        hrange, rfl⟩, hexclude, rfl⟩, hscripts, rfl⟩
      exact .chat rfl hname henabled hrange hexclude hscripts
    · rintro (_ | _ | ⟨hid, hname, henabled, hrange, hexclude, hscripts⟩)
      refine ⟨_, _, ⟨_, _, ⟨_, _, ⟨_, _, ⟨_, hname, rfl⟩, henabled, rfl⟩, hrange, rfl⟩, hexclude, rfl⟩,
        hscripts, ?_⟩
      rw [← hid]
  | character c =>
    simp only [Schema.map_eq_valid_iff, changed_eq_valid]
    constructor
    · rintro ⟨enabled, henabled, rfl⟩
      exact .character rfl henabled
    · rintro (_ | _ | _ | ⟨hsame, henabled⟩)
      exact ⟨_, henabled, congrArg Item.character hsame.symm⟩

/-- The first item with an identifier is replaced at its place. -/
theorem Suites.replaceItem_append {itemId : String} {before after : List Item} {item : Item}
    (hbefore : ∀ i ∈ before, i.id ≠ itemId) (hitem : item.id = itemId) (new : Item) :
    replaceItem itemId new (before ++ item :: after) = before ++ new :: after := by
  induction before with
  | nil => exact if_pos (beq_iff_eq.mpr hitem)
  | cons i before ih =>
    obtain ⟨hi, hrest⟩ := List.forall_mem_cons.mp hbefore
    exact (if_neg (mt beq_iff_eq.mp hi)).trans (congrArg (i :: ·) (ih hrest))

theorem Suite.find?_eq_some {s : Suite} {itemId : String} {item : Item} :
    s.find? itemId = some item ↔ item.id = itemId ∧ ∃ before after,
      s.items = before ++ item :: after ∧ ∀ i ∈ before, i.id ≠ itemId := by
  unfold Suite.find?
  rw [List.find?_eq_some_iff_append]
  simp

/-- A suite is revised at an item if the first item with this identifier is. -/
theorem Suite.revisedAt_iff {old new : Suite} {itemId : String} {item : Item}
    (hitem : old.find? itemId = some item) :
    Suite.RevisedAt ctx updates itemId old new ↔ ∃ item', editItem item updates ctx = .valid item' ∧
      new = { old with items := replaceItem itemId item' old.items, updatedAt := ctx.now } := by
  constructor
  · rintro ⟨before, first, item', after, hitems, hbefore, hown, hedit, rfl⟩
    have hfirst : old.find? itemId = some first :=
      Suite.find?_eq_some.mpr ⟨hown, before, after, hitems, hbefore⟩
    obtain rfl : item = first := Option.some.inj (hitem.symm.trans hfirst)
    refine ⟨item', editItem_eq_valid.mpr hedit, ?_⟩
    rw [hitems, replaceItem_append hbefore hown]
  · rintro ⟨item', hedit, rfl⟩
    obtain ⟨hown, before, after, hitems, hbefore⟩ := Suite.find?_eq_some.mp hitem
    refine ⟨before, item, item', after, hitems, hbefore, hown, editItem_eq_valid.mp hedit, ?_⟩
    rw [hitems, replaceItem_append hbefore hown]

/-! ## Requests -/

variable {r : Root} {s t : Storage}

/-- The root is changed in memory, and waits to be written; nothing else is changed. -/
def Storage.withRoot (s : Storage) (r : Root) : Storage :=
  { s with store := { s.store with
      root := some r, rootDirty := true
      rootTimer := some (s.clock.elapsed + s.store.debounce) } }

/-- What becomes of a request to revise the suite with an identifier, and the storage after it. A
suite that is not there, or not as the request asks for, is not revised, and nothing is changed. If
no new suite fits, the request is refused and nothing is changed. Otherwise a new suite that fits
stands in the place of the old one, and the other suites are where and what they were. -/
inductive Storage.Revises (s : Storage) (r : Root) (id : String) (asked : Suite → Prop)
    (fits : Suite → Suite → Prop) : Except Failure Bool × Storage → Prop where
  | missing (hnone : ∀ old, Json.find? r.suites id = some old → ¬ asked old) :
      Revises s r id asked fits (.ok false, s)
  | refused {old : Suite} (hold : Json.find? r.suites id = some old) (hasked : asked old)
      (hnone : ∀ new, ¬ fits old new) (issues : List Schema.Issue) :
      Revises s r id asked fits (.error (.invalid issues), s)
  | revised {old new : Suite} {suites : List (String × Suite)}
      (hold : Json.find? r.suites id = some old) (hasked : asked old) (hnew : fits old new)
      (hkeys : Json.keys suites = Json.keys r.suites)
      (hsuites : ∀ k, Json.find? suites k = if k = id then some new else Json.find? r.suites k) :
      Revises s r id asked fits (.ok true, s.withRoot { r with suites := suites })

/-- What becomes of the suite under a key, if the one under an identifier is given other items. -/
def Suites.givenItems (id : String) (items : List Item) (now : Int) (k : String) (s : Suite) : Suite :=
  if k = id then { s with items := items, updatedAt := now } else s

theorem Suites.withItems_eq (suites : List (String × Suite)) (id : String) (items : List Item)
    (now : Int) :
    withItems suites id items now = suites.map fun s => (s.1, givenItems id items now s.1 s.2) :=
  List.map_congr_left fun s _ => by
    unfold givenItems
    by_cases hk : s.1 = id <;> simp [hk]

theorem Suites.find?_withItems {suites : List (String × Suite)} {id : String} {old : Suite}
    (hold : Json.find? suites id = some old) (items : List Item) (now : Int) (k : String) :
    Json.find? (withItems suites id items now) k =
      if k = id then some { old with items := items, updatedAt := now }
      else Json.find? suites k := by
  rw [withItems_eq, Json.find?_mapKeyed (givenItems id items now)]
  unfold givenItems
  by_cases hk : k = id
  · simp [hk, hold]
  · simp [hk]

theorem Suites.keys_withItems (suites : List (String × Suite)) (id : String) (items : List Item)
    (now : Int) : Json.keys (withItems suites id items now) = Json.keys suites := by
  rw [withItems_eq]
  exact Json.keys_map (givenItems id items now) suites

theorem Storage.ended_context (s : Storage) :
    ended (liftM Storage.context : Activity Storage Context) s = (.ok ⟨s.clock.now, false⟩, s) := rfl

theorem Suites.ended_setItems (hroot : s.store.root = some r) (id : String) (items : List Item) :
    ended (setItems id items) s = (.ok (), s.withRoot { r with
      suites := withItems r.suites id items s.clock.now }) := by
  have hnow : ended (liftM Storage.now : Activity Storage Int) s = (.ok s.clock.now, s) := rfl
  unfold setItems
  rw [ended_bind_ok (Storage.ended_suites hroot), ended_bind_ok hnow]
  exact Storage.ended_changeRoot hroot _

theorem Storage.revises_update (hroot : s.store.root = some r) (id : String)
    (updates : List (String × Json)) :
    s.Revises r id (fun _ => True) (Suite.Revised ⟨s.clock.now, false⟩ updates)
      (ended (Suites.update id updates) s) := by
  unfold Suites.update
  rw [ended_bind_ok (ended_suites hroot)]
  cases hold : Json.find? r.suites id with
  | none => exact .missing fun old h => nomatch hold.symm.trans h
  | some old =>
    dsimp only
    rw [ended_bind_ok (ended_context s)]
    cases hedit : edit old updates ⟨s.clock.now, false⟩ with
    | invalid issues =>
      exact .refused hold trivial (fun new h => nomatch hedit.symm.trans (edit_eq_valid.mpr h)) _
    | valid new =>
      have hsave : ended (saveSuites (Json.insert r.suites id new)) s =
          (.ok (), s.withRoot { r with suites := Json.insert r.suites id new }) :=
        ended_changeRoot hroot _
      have hmem := Json.mem_keys_of_find? hold
      have hrun := ended_bind_ok hsave fun _ => (pure true : Activity Storage Bool)
      refine hrun ▸ .revised hold trivial (edit_eq_valid.mp hedit) ?_ fun k => ?_
      · rw [Json.keys_insert, if_pos hmem]
      · rw [Json.find?_insert]
        exact if_congr eq_comm rfl rfl

theorem Storage.revises_updateItem (hroot : s.store.root = some r) (id itemId : String)
    (updates : List (String × Json)) :
    s.Revises r id (fun old => ∃ item, old.find? itemId = some item)
      (Suite.RevisedAt ⟨s.clock.now, false⟩ updates itemId)
      (ended (Suites.updateItem id itemId updates) s) := by
  have hfind : ended (Suites.find? id) s = (.ok (Json.find? r.suites id), s) :=
    ended_bind_ok (ended_suites hroot) _
  unfold Suites.updateItem
  rw [ended_bind_ok hfind]
  cases hold : Json.find? r.suites id with
  | none => exact .missing fun old h => nomatch hold.symm.trans h
  | some old =>
    dsimp only
    cases hitem : old.find? itemId with
    | none =>
      refine .missing fun other hother ⟨item, hfound⟩ => ?_
      obtain rfl : old = other := Option.some.inj (hold.symm.trans hother)
      exact nomatch hitem.symm.trans hfound
    | some item =>
      dsimp only
      rw [ended_bind_ok (ended_context s)]
      have hfits {new : Suite} : Suite.RevisedAt ⟨s.clock.now, false⟩ updates itemId old new ↔ _ :=
        Suite.revisedAt_iff hitem
      cases hedit : editItem item updates ⟨s.clock.now, false⟩ with
      | invalid issues =>
        refine .refused hold ⟨item, hitem⟩ (fun new h => ?_) _
        obtain ⟨item', hvalid, -⟩ := hfits.mp h
        exact nomatch hedit.symm.trans hvalid
      | valid item' =>
        let items := replaceItem itemId item' old.items
        have hset := ended_setItems hroot id items
        have hrun := ended_bind_ok hset fun _ => (pure true : Activity Storage Bool)
        refine hrun ▸ .revised hold ⟨item, hitem⟩ (hfits.mpr ⟨item', hedit, rfl⟩)
          (keys_withItems ..) fun k => find?_withItems hold items s.clock.now k

/-- A request for new values either finds nothing to revise, or is refused and changes nothing, or
revises one suite, or one item of it, and nothing else: what is revised keeps its identity, and each
field that may be changed is what the last value that is given for it is read as, if one is. -/
theorem revising_exact (hload : ended Storage.load s = (.ok r, t)) (id : String)
    (updates : List (String × Json)) :
    t.Revises r id (fun _ => True) (Suite.Revised ⟨t.clock.now, false⟩ updates)
        (ended (Suites.update id updates) s) ∧
      ∀ itemId, t.Revises r id (fun old => ∃ item, old.find? itemId = some item)
        (Suite.RevisedAt ⟨t.clock.now, false⟩ updates itemId)
        (ended (Suites.updateItem id itemId updates) s) := by
  have hroot := Storage.root_of_load hload
  -- both requests begin with loading, so they do the same where the root is loaded already
  have hsame : ended Storage.load s = ended Storage.load t :=
    hload.trans (Storage.ended_load_some hroot).symm
  have hsuites := ended_bind_congr hsame fun r => pure r.suites
  constructor
  · have hrun : ended (Suites.update id updates) s = ended (Suites.update id updates) t :=
      ended_bind_congr hsuites _
    rw [hrun]
    exact Storage.revises_update hroot id updates
  · intro itemId
    have hfind := ended_bind_congr hsuites fun suites => pure (Json.find? suites id)
    have hrun : ended (Suites.updateItem id itemId updates) s =
        ended (Suites.updateItem id itemId updates) t := ended_bind_congr hfind _
    rw [hrun]
    exact Storage.revises_updateItem hroot id itemId updates

/-- A storage at the time 7 that has a suite of one item in memory. -/
def Storage.ofDaily : Storage :=
  let daily : Suite := ⟨"daily", "Daily", true, .manual, [.prompt ⟨"p", "", "Hello", true⟩], none, 1, 1⟩
  ⟨{ Store.empty "root" "values-" 0 0 with root := some { Root.standard with
    suites := [("daily", daily)] } }, .ofDocuments [], ⟨7, 0⟩, .start⟩

/-- A suite is given an identifier, which it does not take, and a name and a way of taking the chat,
of which the last counts; its item is given a name that is no text. -/
theorem revising_exact_daily : ∃ (s : Storage) (r : Root) (new : Suite),
    ended Storage.load s = (.ok r, s) ∧
      s.Revises r "daily" (fun _ => True) (Suite.Revised ⟨7, false⟩
        [("id", .str "x"), ("useSnapshotMode", .bool true), ("name", .str "Weekly"),
          ("use_snapshot_mode", .null)]) (.ok true, s.withRoot { r with suites := [("daily", new)] }) ∧
      new = ⟨"daily", "Weekly", true, .manual, [.prompt ⟨"p", "", "Hello", true⟩], none, 1, 7⟩ ∧
      s.Revises r "daily" (fun old => ∃ item, old.find? "p" = some item)
        (Suite.RevisedAt ⟨7, false⟩ [("name", .int 1)] "p")
        (.error (.invalid [⟨[.key "name"], .notText⟩]), s) := by
  have hload : ended Storage.load .ofDaily = (.ok _, .ofDaily) := Storage.ended_load_some rfl
  exact ⟨.ofDaily, _, _, hload, (revising_exact hload "daily" _).1, rfl,
    (revising_exact hload "daily" _).2 "p"⟩

end TagLedger
