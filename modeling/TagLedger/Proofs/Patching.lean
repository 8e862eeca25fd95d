import TagLedger.Proofs.Calling
import TagLedger.Proofs.Ranging
import TagLedger.Proofs.Revising
import TagLedger.Proofs.Trees
import TagLedger.Proofs.Unrepeated

/-!
# Patches and ranges

A patch gives a suite or an item new values, under any spelling of their fields. The rule for the
floors is looked at when it is given to an item as `rangeConfig`; it is not when it is spelled in
another way, nor when it comes with the items of a suite. So it may come to be of no use.

    while no careless patch is asked for, every rule of every suite is of use, and a request keeps
    it so if and only if it is no careless patch                              (ranges_of_use)
-/

namespace TagLedger

open Suites
open Schema (yields_map yields_seq yields_seq_any yields_optional)
open Storage (Furnished)

/-! ## New values -/

/-- An edited item is usable if it was, unless it is a chat item that is given a rule. -/
theorem editItem_usable (old : Item) (updates : List (String × Json)) (ctx : Schema.Context) :
    Schema.Yields (fun new => (old.Usable → new.Usable) ∨ ∃ c d key j, old = .chat c ∧
      new = .chat d ∧ plainKey key = "range_config" ∧ (key, j) ∈ updates ∧
      RangeRule.decode ctx j = .valid d.range) (editItem old updates ctx) := by
  rcases old with p | v | c | c
  · iterate 2 refine yields_seq_any ?_
    exact yields_map fun _ _ _ _ => .inl fun _ => trivial
  · exact yields_map fun _ _ => .inl fun _ => trivial
  · iterate 2 refine yields_seq_any ?_
    refine yields_seq (Q := fun range => range = c.range ∨ ∃ key j, plainKey key = "range_config" ∧
      (key, j) ∈ updates ∧ RangeRule.decode ctx j = .valid range) ?_ ?_
    · refine yields_seq_any (yields_map fun name _ enabled range hrange excludeUser scripts => ?_)
      rcases hrange with rfl | ⟨key, j, hplain, hj, hrule⟩
      · exact .inl id
      · exact .inr ⟨c, _, key, j, rfl, rfl, hplain, hj, hrule⟩
    · refine yields_optional (.inl rfl) fun field j hfield hj range hrule => .inr ?_
      obtain rfl : field = "range_config" := hfield.elim id id
      obtain ⟨key, hplain, hmem⟩ := mem_of_updatesByKey hj
      exact ⟨key, j, hplain, hmem, hrule⟩
  · exact yields_map fun _ _ => .inl fun _ => trivial

namespace Service

/-! ## Requests for patches -/

/-- New values for a suite or for an item. -/
inductive Patch where
  | suite (id : String) (updates : List (String × Json))
  | item (id itemId : String) (updates : List (String × Json))

/-- What is done about a patch. -/
def Patch.serve : Patch → Serving Json
  | .suite id updates => updateSuite id updates
  | .item id itemId updates => updateItem id itemId updates

/-- The request asks for a patch. -/
inductive Request.Asks (q : Request) : Patch → Prop where
  | suite {params : List String} {updates : List (String × Json)}
      (hroute : route endpoints q.method (Text.Percent.decode q.path) = .found suitePatch params)
      (hbody : readBody q.body = .ok (.document (.obj updates))) :
      q.Asks (.suite (params[0]?.getD "") updates)
  | item {params : List String} {updates : List (String × Json)}
      (hroute : route endpoints q.method (Text.Percent.decode q.path) = .found itemPatch params)
      (hbody : readBody q.body = .ok (.document (.obj updates))) :
      q.Asks (.item (params[0]?.getD "") (params[1]?.getD "") updates)

/-- The new values of an item; a length of the chat is none of them. -/
def ownValues (updates : List (String × Json)) : List (String × Json) :=
  updates.filter (·.1 != "chatLength")

/-- The length of the chat that new values of an item come with. -/
def lengthIn (updates : List (String × Json)) : Json :=
  (Json.find? updates "chatLength").getD .null

/-- The rule that new values hold as `rangeConfig`, if any, is of use for a chat of this length. -/
inductive RangeChecked (now : Int) (updates : List (String × Json)) (length : Json) : Prop where
  | none (h : (Json.find? updates "rangeConfig").getD .null = .null)
  | passed {rule : RangeRule} {n : Option ChatLength}
      (hrule : RangeRule.decode ⟨now, false⟩
        ((Json.find? updates "rangeConfig").getD .null) = .valid rule)
      (hlength : lengthOf length = pure n) (hn : rule.problem? n = .none)

theorem RangeChecked.useful {now : Int} {updates : List (String × Json)} {length j : Json}
    {rule : RangeRule} (h : RangeChecked now updates length)
    (hj : Json.find? updates "rangeConfig" = some j)
    (hrule : RangeRule.decode ⟨now, false⟩ j = .valid rule) : rule.Useful := by
  cases h with
  | none hnull =>
    rw [hj] at hnull
    obtain rfl : j = .null := hnull
    cases hrule
  | passed hrule' _ hn =>
    rw [hj, Option.getD_some, hrule] at hrule'
    cases hrule'
    exact RangeRule.useful_of hn

/-- The patch is taken over, with a rule that is of no use. -/
inductive Patch.Careless (root : Root) (now : Int) : Patch → Prop where
  /-- The items that a suite is given are not looked at. -/
  | suite {id : String} {updates : List (String × Json)} {old new : Suite} {j : Json} {i : Item}
      (hold : Json.find? root.suites id = some old)
      (hnew : edit old updates ⟨now, false⟩ = .valid new)
      (hj : Json.find? (updatesByKey updates) "items" = some j)
      (hitems : Schema.list Item.decode ⟨now, false⟩ j = .valid new.items)
      (hi : i ∈ new.items) (huseless : ¬ i.Usable) : Careless root now (.suite id updates)
  /-- A rule that an item is given under another spelling is not looked at. -/
  | item {id itemId key : String} {updates : List (String × Json)} {s : Suite} {old new : ChatItem}
      {j : Json} (hs : Json.find? root.suites id = some s)
      (hold : s.find? itemId = some (.chat old))
      (hchecked : RangeChecked now (ownValues updates) (lengthIn updates))
      (hnew : editItem (.chat old) (ownValues updates) ⟨now, false⟩ = .valid (.chat new))
      (hplain : plainKey key = "range_config") (hkey : key ≠ "rangeConfig")
      (hj : (key, j) ∈ updates) (hrule : RangeRule.decode ⟨now, false⟩ j = .valid new.range)
      (huseless : ¬ new.range.Useful) : Careless root now (.item id itemId updates)

/-- The request asks for a careless patch. -/
def Request.Careless (s : Session) (q : Request) : Prop :=
  ∃ root p, s.storage.store.root = some root ∧ q.Asks p ∧ p.Careless root s.storage.clock.now

/-! ## What is done at once -/

/-- Begun with a storage as `P` says, `x` ends without a wait, as `Q` says, or with a problem or a
failure in a storage as `E` says. -/
def Concludes {α : Type} (E P : Storage → Prop) (x : Serving α) (Q : α → Storage → Prop) : Prop :=
  AtOnce (E ∘ Session.storage) (P ∘ Session.storage) x.run fun r s =>
    match r with
    | .ok a => Q a s.storage
    | .error _ => E s.storage

namespace Concludes

variable {α β : Type} {E P : Storage → Prop} {Q : α → Storage → Prop} {R : β → Storage → Prop}

theorem pure {a : α} (h : ∀ s, P s → Q a s) : Concludes E P (pure a : Serving α) Q :=
  AtOnce.pure fun _ hs => h _ hs

theorem throw (p : Problem) (h : ∀ s, P s → E s) : Concludes E P (throw p : Serving α) Q :=
  AtOnce.pure fun _ hs => h _ hs

theorem bind {x : Serving α} {f : α → Serving β} (hx : Concludes E P x Q)
    (hf : ∀ a, Concludes E (Q a) (f a) R) : Concludes E P (x >>= f) R :=
  AtOnce.bind hx fun r => by
    cases r with
    | ok a => exact hf a
    | error p => exact AtOnce.pure fun _ hs => hs

theorem assuming {A : Prop} {x : Serving α} (h : A → Concludes E P x Q) :
    Concludes E (fun s => A ∧ P s) x Q := AtOnce.assuming h

theorem fail (e : Failure) (h : ∀ s, P s → E s) :
    Concludes E P (served (MonadExcept.throw e) : Serving α) Q :=
  fun s hs => .inr ⟨e, s, rfl, h _ hs⟩

theorem stored {x : Activity Storage α} (hx : AtOnce E P x Q) : Concludes E P (stored x) Q :=
  AtOnce.bind hx.stored fun _ => AtOnce.pure fun _ hs => hs

/-- What does not fit is a problem, and any other failure stays one. -/
theorem fitting {x : Activity Storage α} (hx : AtOnce E P x Q) : Concludes E P (fitting x) Q := by
  refine Concludes.bind (Q := fun r s => match r with
    | .ok a => Q a s
    | .error _ => E s) (stored ?_) fun r => ?_
  · have hok : AtOnce E P (Except.ok (ε := Problem) <$> x) fun r s => match r with
        | .ok a => Q a s
        | .error _ => E s := AtOnce.bind hx fun a => .pure fun _ hs => hs
    refine hok.tryCatch fun e => ?_
    cases e with
    | invalid is => exact .pure fun _ hs => hs
    | _ => exact .throw _ fun _ hs => hs
  · cases r with
    | ok a => exact pure fun _ hs => hs
    | error p => exact throw p fun _ hs => hs

theorem ensure (p : Problem) {x : Serving Bool} (hx : Concludes E P x fun _ => E) :
    Concludes E P (ensure p x) fun _ => E := by
  refine hx.bind fun b => ?_
  split
  · exact throw p fun _ hs => hs
  · exact pure fun _ hs => hs

/-- The suite is looked up, and nothing changes. -/
theorem suiteOf {root : Root} {now : Int} (h : ∀ s, Storage.Has root now s → E s) (id : String) :
    Concludes E (Storage.Has root now) (suiteOf id)
      fun suite s => Json.find? root.suites id = some suite ∧ s.Has root now := by
  refine Concludes.bind (stored (Learns.find id)) fun suite => .assuming fun hsuite => ?_
  split
  · exact pure fun _ hs => ⟨hsuite.symm, hs⟩
  · exact throw _ h

/-- With a root in memory, looking a suite up changes nothing. -/
theorem suiteAgain (hE : ∀ s, E s → ∃ root, s.store.root = some root) (id : String) :
    Concludes E E (Service.suiteOf id) fun _ => E := by
  have hload : AtOnce E E Storage.load fun _ => E := fun s hs => by
    obtain ⟨root, hroot⟩ := hE s hs
    exact .inl ⟨root, s, Storage.load_some hroot, hs⟩
  have hsuites : AtOnce E E Storage.suites fun _ => E := hload.bind fun _ => .pure fun _ hs => hs
  have hfind : AtOnce E E (find? id) fun _ => E := hsuites.bind fun _ => .pure fun _ hs => hs
  refine Concludes.bind (stored hfind) fun suite => ?_
  split
  · exact pure fun _ hs => hs
  · exact throw _ fun _ hs => hs

/-- A length of the chat is told, unknown, or no number. -/
theorem lengthOf (h : ∀ s, P s → E s) (j : Json) :
    Concludes E P (lengthOf j) fun n s => Service.lengthOf j = Pure.pure n ∧ P s := by
  cases j with
  | null | int | bool | float => exact pure fun _ hs => ⟨rfl, hs⟩
  | _ => exact fail _ h

/-- The rule that stands among the new values of an item as `rangeConfig` is looked at. -/
theorem checkUpdates {root : Root} {now : Int} (h : ∀ s, Storage.Has root now s → E s)
    (updates : List (String × Json)) (length : Json) :
    Concludes E (Storage.Has root now) (checkUpdates updates length)
      fun _ s => RangeChecked now updates length ∧ s.Has root now := by
  unfold Service.checkUpdates
  split
  · next hnone => exact pure fun _ hs => ⟨.none hnone, hs⟩
  · refine Concludes.bind (stored Learns.context) fun ctx => .assuming ?_
    rintro rfl
    refine Concludes.bind (fitting (Learns.valid _ h)) fun rule => .assuming fun hrule => ?_
    refine Concludes.bind (lengthOf h length) fun n => .assuming fun hlength => ?_
    unfold checkRange
    split
    · exact throw _ h
    · next hn => exact pure fun _ hs => ⟨.passed hrule hlength hn, hs⟩

/-- A rule that passes is not kept from what follows. -/
theorem passed {root : Root} {now : Int} {updates : List (String × Json)} {length : Json}
    (h : RangeChecked now updates length) :
    Concludes E (Storage.Has root now) (Service.checkUpdates updates length)
      fun _ => Storage.Has root now := by
  unfold Service.checkUpdates
  cases h with
  | none hnone =>
    rw [hnone]
    exact pure fun _ hs => hs
  | @passed rule n hrule hlength hn =>
    split
    · exact pure fun _ hs => hs
    · refine Concludes.bind (stored Learns.context) fun ctx => .assuming ?_
      rintro rfl
      rw [hrule, hlength]
      refine Concludes.bind (Q := fun a s => a = rule ∧ s.Has root now)
        (fitting (Learns.pure rfl)) fun a => .assuming ?_
      rintro rfl
      refine Concludes.bind (Q := fun m s => m = n ∧ s.Has root now)
        (pure fun _ hs => ⟨rfl, hs⟩) fun m => .assuming ?_
      rintro rfl
      unfold checkRange
      rw [Option.bind_some, hn]
      exact pure fun _ hs => hs

/-- The suite is there. -/
theorem suiteThere {root : Root} {now : Int} {id : String} {suite : Suite}
    (h : Json.find? root.suites id = some suite) :
    Concludes E (Storage.Has root now) (Service.suiteOf id) fun _ => Storage.Has root now := by
  refine Concludes.bind (stored (Learns.find id)) fun found => .assuming fun hfound => ?_
  rw [h] at hfound
  subst hfound
  exact pure fun _ hs => hs

end Concludes

/-! ## What patches leave -/

variable {root : Root} {now : Int}

/-- A patch that is not careless keeps all items usable, and ends at once. -/
theorem Patch.concludes {p : Patch} (hr : ∀ x ∈ root.suites, Ranged x.2.items)
    (hkeys : ∀ id itemId updates, p = .item id itemId updates → (Json.keys updates).Nodup)
    (hp : ¬ p.Careless root now) :
    Concludes (Furnished Ranged) (Storage.Has root now) p.serve fun _ => Furnished Ranged := by
  have hsame : ∀ s, Storage.Has root now s → s.Furnished Ranged := fun s hs => ⟨root, hs.root, hr⟩
  have hroot : ∀ s, Furnished Ranged s → ∃ root, s.store.root = some root :=
    fun s ⟨root, h, _⟩ => ⟨root, h⟩
  cases p with
  | suite id updates =>
    refine (Concludes.suiteOf hsame id).bind fun s => .assuming fun hs => ?_
    refine Concludes.bind (.ensure _ (.fitting ?_)) fun _ =>
      (Concludes.suiteAgain hroot id).bind fun _ => .pure fun _ hs => hs
    refine (Composes.update id updates).weaken fun t => Furnished.ofComposed hr fun items hitems => ?_
    refine Ranged.ofItemsAfter hitems hr fun i hbrings => ?_
    cases hbrings with
    | added hadds => cases hadds
    | given hold hnew hi =>
      by_contra huseless
      rcases edit_items _ _ _ _ hnew with hitems | ⟨j, hj, hdecoded⟩
      · rw [hitems] at hi
        exact huseless (hr _ (Json.mem_of_find? hold) i hi)
      · exact hp (.suite hold hnew hj hdecoded hi huseless)
  | item id itemId updates =>
    refine (Concludes.suiteOf hsame id).bind fun s => .assuming fun hs => ?_
    refine (Concludes.checkUpdates hsame (ownValues updates) (lengthIn updates)).bind fun _ =>
      .assuming fun hchecked => ?_
    refine Concludes.bind (.ensure _ (.fitting ?_)) fun _ =>
      (Concludes.suiteAgain hroot id).bind fun found => ?_
    · refine (Composes.updateItem id itemId _).weaken fun t =>
        Furnished.ofComposed hr fun items hitems => ?_
      refine Ranged.ofItemsAfter hitems hr fun i hbrings => ?_
      cases hbrings with
      | added hadds => cases hadds
      | @edited _ _ _ s old new hs hold hnew =>
        have hold' : old.Usable := hr _ (Json.mem_of_find? hs) old (List.mem_of_find?_eq_some hold)
        rcases editItem_usable _ _ _ _ hnew with hkept | ⟨c, d, key, j, rfl, rfl, hplain, hj, hrule⟩
        · exact hkept hold'
        · by_contra huseless
          refine hp (.item hs hold hchecked hnew hplain ?_ (List.mem_of_mem_filter hj) hrule huseless)
          rintro rfl
          have hnodup := Json.nodup_keys_filter (hkeys id itemId updates rfl) (·.1 != "chatLength")
          exact huseless (hchecked.useful (Json.find?_of_mem hnodup hj) hrule)
    · split
      · exact .pure fun _ hs => hs
      · exact .throw _ fun _ hs => hs

theorem mem_replaceItem_new {id : String} {old new : Item} {items : List Item}
    (h : items.find? (fun i => i.id == id) = some old) : new ∈ replaceItem id new items := by
  induction items with
  | nil => cases h
  | cons i items ih =>
    unfold replaceItem
    split
    · exact List.mem_cons_self
    · next hne =>
      rw [List.find?_cons, Bool.eq_false_iff.mpr hne] at h
      exact List.mem_cons_of_mem _ (ih h)

/-- A careless patch leaves a suite with an item that is not usable, and ends at once. -/
theorem Patch.Careless.spoils {p : Patch} (h : p.Careless root now) :
    ∃ root', (∃ x ∈ root'.suites, ¬ Ranged x.2.items) ∧
      Concludes (Storage.Has root' now) (Storage.Has root now) p.serve
        fun _ => Storage.Has root' now := by
  cases h with
  | @suite id updates old new j i hold hnew hj hitems hi huseless =>
    refine ⟨{ root with suites := Json.insert root.suites id new }, ⟨(id, new), ?_, ?_⟩, ?_⟩
    · exact Json.mem_of_find? (by rw [Json.find?_insert, if_pos rfl])
    · exact fun hranged => huseless (hranged i hi)
    · refine (Concludes.suiteThere hold).bind fun _ => ?_
      refine Concludes.bind (.ensure _ (.fitting (Leaves.update hold hnew))) fun _ => ?_
      exact (Concludes.suiteAgain (fun s hs => ⟨_, hs.root⟩) id).bind fun _ => .pure fun _ hs => hs
  | @item id itemId key updates s old new j hs hold hchecked hnew hplain hkey hj hrule huseless =>
    let items := replaceItem itemId (.chat new) s.items
    refine ⟨{ root with suites := withItems root.suites id items now },
      ⟨(id, { s with items := items, updatedAt := now }), ?_, ?_⟩, ?_⟩
    · refine List.mem_map.mpr ⟨(id, s), Json.mem_of_find? hs, ?_⟩
      rw [beq_self_eq_true, if_pos rfl]
    · exact fun hranged => huseless (hranged (.chat new) (mem_replaceItem_new hold))
    · refine (Concludes.suiteThere hs).bind fun _ => (Concludes.passed hchecked).bind fun _ => ?_
      refine Concludes.bind (.ensure _ (.fitting (Leaves.updateItem hs hold hnew))) fun _ => ?_
      refine (Concludes.suiteAgain (fun s hs => ⟨_, hs.root⟩) id).bind fun found => ?_
      split
      · exact .pure fun _ hs => hs
      · exact .throw _ fun _ hs => hs

/-! ## Answers -/

section Answers

variable {E P : Storage → Prop}

theorem atOnce_respond (status : Nat) {x : Serving Json} (h : Concludes E P x fun _ => E) :
    AtOnce (E ∘ Session.storage) (P ∘ Session.storage) (respond status x)
      fun _ => E ∘ Session.storage := by
  refine AtOnce.tryCatch (AtOnce.bind h fun r => ?_) fun e => ?_
  · cases r <;> exact .pure fun _ hs => hs
  · split <;> exact .pure fun _ hs => hs

/-- A request for a patch is answered after the patch was served. -/
theorem answer_asks {q : Request} {p : Patch} (h : q.Asks p) :
    answer q = (do
      let _ ← Session.stored Storage.now
      respond 200 p.serve) := by
  unfold answer handle
  cases h with
  | suite hroute hbody => simp only [hroute, suitePatch, taking, if_true, hbody]; rfl
  | item hroute hbody => simp only [hroute, itemPatch, taking, if_true, hbody]; rfl

theorem atOnce_answer {q : Request} {p : Patch} (hq : q.Asks p)
    (h : Concludes E P p.serve fun _ => E) :
    AtOnce (E ∘ Session.storage) (P ∘ Session.storage) (answer q)
      fun _ => E ∘ Session.storage := by
  rw [answer_asks hq]
  exact AtOnce.bind (fun s hs => .inl ⟨_, s, rfl, hs⟩) fun _ => atOnce_respond 200 h

end Answers

/-- The endpoint that a request is routed to is there for its method. -/
theorem mem_of_route {es : List Endpoint} {method path : String} {e : Endpoint}
    {params : List String} (h : route es method path = .found e params) :
    e ∈ es ∧ e.method = method := by
  unfold route at h
  dsimp only at h
  split at h
  · split at h <;> cases h
  · split at h
    · next e' hfound =>
      cases h
      exact ⟨List.mem_of_mem_filter (List.mem_of_find?_eq_some hfound),
        beq_iff_eq.mp (List.find?_some hfound :)⟩
    · cases h

theorem upholds_respond (status : Nat) {x : Serving Json} (hx : Tends x) :
    Furnishes Ranged (respond status x) := by
  refine (Upholds.bind hx fun r => ?_).tryCatch fun e => ?_
  · cases r <;> exact .pure _
  · split <;> exact .pure _

/-- The body of a patch is an object. -/
theorem body_of_patch {f : List (String × Json) → Serving Json} {a : Arguments} {x : Serving Json}
    (h : f <$> a.read Schema.anyMapping = .valid x) :
    ∃ updates, a.body = .document (.obj updates) := by
  obtain ⟨updates, hupdates, -⟩ := Schema.map_eq_valid h
  unfold Arguments.read at hupdates
  split at hupdates
  · cases hupdates
  · next j hbody =>
    have hdecoded := Schema.below_eq_valid hupdates
    cases j with
    | obj fields => exact ⟨fields, hbody⟩
    | _ => cases hdecoded

/-- Whatever is asked for that is no patch keeps all items usable. -/
theorem upholds_answer {q : Request} (hq : ∀ p, ¬ q.Asks p) : Furnishes Ranged (answer q) := by
  unfold answer handle
  split
  · exact .pure _
  · exact .pure _
  · exact .pure _
  next e params hroute =>
  split
  · exact .pure _
  next body hbody =>
  refine (Furnished.tended.stored (.ofAction .now)).bind fun now => ?_
  split
  · exact .pure _
  next x hx =>
  refine upholds_respond e.status ?_
  rcases careful_endpoints e (mem_of_route hroute).1 with hcareful | rfl | rfl
  · exact hcareful _ x hx
  · obtain ⟨updates, rfl⟩ := body_of_patch hx
    exact absurd (.suite hroute hbody) (hq _)
  · obtain ⟨updates, rfl⟩ := body_of_patch hx
    exact absurd (.item hroute hbody) (hq _)

/-- The new values that a request asks for hold each key once. -/
theorem Request.Asks.nodup_keys {q : Request} {id itemId : String}
    {updates : List (String × Json)} (h : q.Asks (.item id itemId updates)) :
    (Json.keys updates).Nodup := by
  have hparsed {cs : List Char} {j : Json} (h : Json.parse cs = .ok j) : j.Keyed :=
    Json.keyed_of_parseText (t := String.ofList cs) (by rwa [Json.parseText, String.toList_ofList])
  cases h with
  | item hroute hbody =>
    unfold readBody at hbody
    split at hbody
    · cases hbody
    split at hbody
    · cases hbody
    dsimp only at hbody
    split at hbody
    · next j hj =>
      cases hbody
      exact (hparsed hj).1
    · cases hbody
    · cases hbody

theorem Request.Asks.method {q : Request} {p : Patch} (h : q.Asks p) : q.method = "PATCH" := by
  cases h with
  | suite hroute => exact (mem_of_route hroute).2.symm
  | item hroute => exact (mem_of_route hroute).2.symm

/-- A document that is brought as a text is read. -/
theorem readBody_render {style : Json.Style} (hs : style.ascii = false) {j : Json} (hk : j.Keyed)
    (hw : j.writable) : readBody (some (j.render style)) = .ok (.document j) := by
  obtain ⟨c, r, hc, hopens⟩ := Json.write_head style 0 j
  have hlist : (j.render style).toList = c :: r := by rw [Json.render, String.toList_ofList, hc]
  have hparse : Json.parse (c :: r) = .ok j := hlist ▸ Json.parseText_render hs hk hw
  have hne : j.render style ≠ "" := fun hempty => by
    rw [hempty] at hlist
    cases hlist
  unfold readBody
  simp only [if_neg hne, hlist, if_neg hopens.mark, hparse]

/-! ## The service at work -/

/-- A session, and what the requests and the workers that wait do when they go on. -/
structure Uptime where
  session : Session
  pending : List (Signal → Session → Progress Session Unit)

namespace Uptime

/-- What somebody leaves who came so far. -/
def after (pending : List (Signal → Session → Progress Session Unit)) :
    Progress Session Unit → Uptime
  | .done s _ => ⟨s, pending⟩
  | .waiting s _ k => ⟨s, k :: pending⟩

/-- The course after the first turn of a request. -/
def asked (c : Uptime) (q : Request) : Uptime := after c.pending ((answer q).silent c.session)

/-- What happens to a session while its service is up. Which requests come is up to `may`. -/
inductive Moves (may : Session → Request → Prop) (c : Uptime) : Uptime → Prop where
  | request (q : Request) (h : may c.session q) : Moves may c (c.asked q)
  /-- A worker begins with a task. -/
  | work (w : Nat) (t : Task) :
      Moves may c (after c.pending (Session.work Session.hostFetch w t c.session))
  /-- Who waits goes on, or is told to give up. -/
  | goOn {before later : List (Signal → Session → Progress Session Unit)}
      {k : Signal → Session → Progress Session Unit} (g : Signal)
      (hk : c.pending = before ++ k :: later) :
      Moves may c (after (before ++ later) (k g c.session))
  /-- Time passes, and timers run out. -/
  | elapse (time : Nat) : Moves may c ⟨{ c.session with
      storage := (exec (Storage.elapse time) c.session.storage).2 }, c.pending⟩
  /-- Anything else changes in the session: its clock, the documents, the model, the queue, or the
  locks of the storage. -/
  | aside (s : Session) (held : List (Lock × Nat)) (granted : List Lock)
      (h : s.storage.store = { c.session.storage.store with held := held, granted := granted }) :
      Moves may c ⟨s, c.pending⟩

/-- What comes of a session, move by move. -/
abbrev Run (may : Session → Request → Prop) : Uptime → Uptime → Prop :=
  Relation.ReflTransGen (Moves may)

/-- All suites have usable items, and those who wait see to it. -/
structure Kept (c : Uptime) : Prop where
  storage : c.session.storage.Furnished Ranged
  pending : ∀ k ∈ c.pending, ∀ g s, s.storage.Furnished Ranged → Retains (Furnished Ranged) (k g s)

variable {c d : Uptime}

theorem kept_after {ps : List (Signal → Session → Progress Session Unit)}
    {p : Progress Session Unit} (hp : Retains (Furnished Ranged) p)
    (hps : ∀ k ∈ ps, ∀ g s, s.storage.Furnished Ranged → Retains (Furnished Ranged) (k g s)) :
    Kept (after ps p) := by
  cases hp with
  | done hs => exact ⟨hs, hps⟩
  | waits hs hk => exact ⟨hs, List.forall_mem_cons.mpr ⟨hk, hps⟩⟩

/-- A request keeps all items usable if it is no careless patch. -/
theorem Kept.asked (h : Kept c) {q : Request} (hq : ¬ q.Careless c.session) :
    Kept (c.asked q) := by
  refine kept_after ?_ h.pending
  obtain ⟨root, hroot, hr⟩ := h.storage
  by_cases hasks : ∃ p, q.Asks p
  · obtain ⟨p, hp⟩ := hasks
    have hcareful : ¬ p.Careless root c.session.storage.clock.now :=
      fun hcareless => hq ⟨root, p, hroot, hp, hcareless⟩
    have hkeys id itemId updates (he : p = .item id itemId updates) :
        (Json.keys updates).Nodup := (he ▸ hp).nodup_keys
    have hconcludes := (atOnce_answer hp (Patch.concludes hr hkeys hcareful)).silent
    rcases hconcludes c.session ⟨hroot, rfl⟩ with ⟨a, t, hrun, ht⟩ | ⟨e, t, hrun, ht⟩
    · rw [hrun]
      exact .done ht
    · rw [hrun]
      exact .done ht
  · refine Upholds.bind (upholds_answer fun p hp => hasks ⟨p, hp⟩) (fun _ => .pure _) _ h.storage

/-- After a careless patch some item is not usable. -/
theorem not_kept_asked {q : Request} (hq : q.Careless c.session) :
    ¬ (c.asked q).session.storage.Furnished Ranged := by
  obtain ⟨root, p, hroot, hp, hcareless⟩ := hq
  obtain ⟨root', ⟨x, hx, huseless⟩, hconcludes⟩ := hcareless.spoils
  have hleft : (c.asked q).session.storage.store.root = some root' := by
    unfold Uptime.asked
    rcases (atOnce_answer hp hconcludes).silent c.session ⟨hroot, rfl⟩ with
      ⟨a, t, hrun, ht⟩ | ⟨e, t, hrun, ht⟩
    · rw [hrun]
      exact ht.root
    · rw [hrun]
      exact ht.root
  rintro ⟨r, hr, hranged⟩
  rw [hleft] at hr
  cases hr
  exact huseless (hranged x hx)

theorem Kept.moves (h : Kept c) (hmove : Moves (fun s q => ¬ q.Careless s) c d) : Kept d := by
  cases hmove with
  | request q hq => exact h.asked hq
  | work w t => exact kept_after (Furnished.tended.work w t _ h.storage) h.pending
  | @goOn before later k g hk =>
    have hpending := h.pending
    rw [hk] at hpending
    refine kept_after (hpending k (by simp) g _ h.storage) fun k' hk' => hpending k' ?_
    rcases List.mem_append.mp hk' with hk' | hk'
    · exact List.mem_append_left _ hk'
    · exact List.mem_append_right _ (List.mem_cons_of_mem k hk')
  | elapse time => exact ⟨Furnished.writing.elapse time none _ h.storage, h.pending⟩
  | aside s held granted hstore =>
    obtain ⟨root, hroot, hr⟩ := h.storage
    refine ⟨⟨root, ?_, hr⟩, h.pending⟩
    rw [hstore]
    exact hroot

theorem Kept.run (h : Kept c) (hrun : Run (fun s q => ¬ q.Careless s) c d) : Kept d := by
  induction hrun with
  | refl => exact h
  | tail _ hmove ih => exact ih.moves hmove

/-- A service that is started on a shelf without documents has no suites. -/
theorem kept_started {s : Session} (hroot : s.storage.store.root = none)
    (hempty : ∀ name, s.storage.shelf.find? name = none) : Kept ⟨(ended start s).2, []⟩ := by
  have hloaded : (ended (Session.stored Storage.load) s).2.storage.Furnished Ranged := by
    rw [ended_stored]
    exact Furnished.ofNew hroot hempty
  have hrest : Furnishes Ranged (do
      Session.start
      Session.loadCounts) := Upholds.bind (.modify fun _ => rfl) fun _ => Furnished.tended.loadCounts
  refine ⟨?_, nofun⟩
  unfold start
  rw [ended_bind]
  rcases hrun : ended (Session.stored Storage.load) s with ⟨r, t⟩
  rw [hrun] at hloaded
  cases r with
  | ok root => exact (hrest t hloaded).finish
  | error e => exact hloaded

/-- Started on a shelf without documents, a service has usable items only while nobody asks for a
careless patch; and whatever is asked for next, by whomever, they stay usable if and only if it is
no careless patch. -/
theorem ranges_of_use {s : Session} (hroot : s.storage.store.root = none)
    (hempty : ∀ name, s.storage.shelf.find? name = none)
    (hrun : Run (fun s q => ¬ q.Careless s) ⟨(ended start s).2, []⟩ c) :
    c.session.storage.Furnished Ranged ∧ ∀ q : Request,
      (c.asked q).session.storage.Furnished Ranged ↔ ¬ q.Careless c.session := by
  have hkept := (kept_started hroot hempty).run hrun
  exact ⟨hkept.storage, fun q =>
    ⟨fun hafter hcareless => not_kept_asked hcareless hafter, fun hq => (hkept.asked hq).storage⟩⟩

/-- A new service that was asked for a suite, and for a chat item in it. -/
def withItem : Uptime :=
  ((⟨(ended start Session.bare).2, []⟩ : Uptime).asked
    ⟨"POST", "/suites", some "\x7b\"name\": \"Daily\"\x7d"⟩).asked
    ⟨"POST", "/suites/suite_0qyxjj/items", some "\x7b\"type\": \"chat-content\"\x7d"⟩

theorem run_withItem :
    Run (fun s q => ¬ q.Careless s) ⟨(ended start Session.bare).2, []⟩ withItem := by
  have hpost {s : Session} {q : Request} (hq : q.method = "POST") : ¬ q.Careless s := by
    rintro ⟨root, p, -, hasks, -⟩
    exact absurd (hq.symm.trans hasks.method) (by decide)
  exact .tail (.tail .refl (.request _ (hpost rfl))) (.request _ (hpost rfl))

/-- A rule for the latest floors, but for none of them, in the plain spelling of its field. -/
def noFloors : List (String × Json) :=
  [("range_config", .obj [("type", .str "latest"), ("count", .int 0)])]

/-- The item is given the rule. -/
def respelled : Request :=
  ⟨"PATCH", "/suites/suite_0qyxjj/items/item_0b63ci",
    some ((Json.obj noFloors).render .wideLine)⟩

theorem asks_respelled : respelled.Asks (.item "suite_0qyxjj" "item_0b63ci" noFloors) := by
  have hkeyed : (Json.obj noFloors).Keyed := by
    simp [noFloors, Json.Keyed, Json.KeyedFields, Json.keys]
  have hbody : readBody respelled.body = .ok (.document (.obj noFloors)) :=
    readBody_render rfl hkeyed (by decide +kernel)
  exact @Request.Asks.item respelled ["suite_0qyxjj", "item_0b63ci"] noFloors rfl hbody

theorem careless_respelled : respelled.Careless withItem.session := by
  let old : ChatItem := ⟨"item_0b63ci", "", true, .standard, false, .empty⟩
  let suite : Suite := ⟨"suite_0qyxjj", "Daily", true, .manual, [.chat old], none, 0, 0⟩
  let rule : RangeRule := { RangeRule.ofKind .latest with count := some 0 }
  have hfound : (withItem.session.storage.store.root.bind fun r =>
      Json.find? r.suites "suite_0qyxjj") = some suite := by decide +kernel
  obtain ⟨root, hroot, hsuite⟩ := Option.bind_eq_some_iff.mp hfound
  have hnow : withItem.session.storage.clock.now = 0 := by decide +kernel
  have hold : suite.find? "item_0b63ci" = some (.chat old) := rfl
  have hnew : editItem (.chat old) (ownValues noFloors) ⟨0, false⟩ =
      .valid (.chat { old with range := rule }) := rfl
  have hplain : plainKey "range_config" = "range_config" := by decide
  refine ⟨root, _, hroot, asks_respelled, ?_⟩
  rw [hnow]
  exact .item hsuite hold (.none rfl) hnew hplain (by decide) List.mem_cons_self rfl (by decide)

/-- A rule for no floors that is given under the plain spelling of its field is taken over. -/
theorem ranges_of_use_respelled : ∃ (s : Session) (c : Uptime) (q : Request),
    s.storage.store.root = none ∧ (∀ name, s.storage.shelf.find? name = none) ∧
      Run (fun s q => ¬ q.Careless s) ⟨(ended start s).2, []⟩ c ∧
      c.session.storage.Furnished Ranged ∧ q.Careless c.session ∧
      ¬ (c.asked q).session.storage.Furnished Ranged := by
  obtain ⟨hranged, hiff⟩ :=
    ranges_of_use (s := Session.bare) rfl (fun _ => rfl) run_withItem
  exact ⟨Session.bare, withItem, respelled, rfl, fun _ => rfl, run_withItem, hranged,
    careless_respelled, fun hafter => (hiff respelled).mp hafter careless_respelled⟩

end Uptime

end Service

end TagLedger
