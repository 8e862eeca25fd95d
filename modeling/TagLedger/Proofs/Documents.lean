import TagLedger.Proofs.Trees
import TagLedger.Store.Root

/-!
# Records that read back

The document of a record is read as the record, at any time and with no issue. Suites, settings and
roots are read back if they are sound: their keys are distinct, and they hold nothing that reading
refuses.

    Definition.decode ctx d.document = .valid d                      (Definition.decode_document)
    Value.read ctx v.document = some (.valid v)                      (Value.read_document)
    s.Sound → Suite.decode ctx s.document = .valid s                 (Suite.decode_document)
    r.Sound → Root.decode ctx r.document = .valid r                  (Root.decode_document)
    Suite.decode ctx j = .valid s → s.Sound                          (Suite.sound_of_decode)
-/

namespace TagLedger

/-! ## Parts that read back -/

namespace Schema

variable {α β γ : Type} {ctx : Context}

theorem all_numbered {d : Decoder α} {f : α → Json} {l : List α}
    (h : ∀ a ∈ l, d ctx (f a) = .valid a) (n : Nat) :
    Checked.all (fun (i, j) => (Step.index i, d ctx j)) (numbered n (l.map f)) = .valid l := by
  induction l generalizing n with
  | nil => rfl
  | cons a r ih =>
    rw [List.map_cons, numbered, Checked.all, ih fun b hb => h b (List.mem_cons_of_mem a hb)]
    simp only [h a List.mem_cons_self, Checked.below_valid, Checked.map_valid, Checked.apply_valid]

/-- A list of documents is read back if each of them is. -/
theorem list_documents {d : Decoder α} {f : α → Json} {l : List α}
    (h : ∀ a ∈ l, d ctx (f a) = .valid a) : Schema.list d ctx (.arr (l.map f)) = .valid l :=
  all_numbered h 0

/-- A map to documents is read back if each of them is. -/
theorem mapping_documents {d : Decoder α} {f : α → Json} {l : List (String × α)}
    (h : ∀ x ∈ l, d ctx (f x.2) = .valid x.2) : mapping d ctx (Json.ofMap f l) = .valid l := by
  change Checked.all (fun (x : String × Json) => (Step.key x.1, (d ctx x.2).map fun a => (x.1, a)))
    (l.map fun x => (x.1, f x.2)) = .valid l
  induction l with
  | nil => rfl
  | cons x r ih =>
    rw [List.map_cons, Checked.all, ih fun y hy => h y (List.mem_cons_of_mem x hy)]
    simp only [h x List.mem_cons_self, Checked.below_valid, Checked.map_valid, Checked.apply_valid]

theorem nullable_document {d : Decoder α} {f : α → Json} (hnull : ∀ a, f a ≠ .null) {o : Option α}
    (h : ∀ a, o = some a → d ctx (f a) = .valid a) :
    nullable d ctx (Json.ofOption f o) = .valid o := by
  cases o with
  | none => rfl
  | some a =>
    have ha := h a rfl
    unfold Json.ofOption nullable
    split
    · next hf => exact absurd hf (hnull a)
    · rw [ha]
      rfl

@[simp] theorem map_valid' (f : α → β) (a : α) : f <$> Checked.valid a = .valid (f a) := rfl

@[simp] theorem seq_valid (f : α → β) (a : α) :
    Checked.valid f <*> Checked.valid a = .valid (f a) := rfl

theorem record_obj (name : String) (build : Fields → Checked α) (entries : List (String × Json)) :
    record name build ctx (.obj entries) = build ⟨entries, ctx⟩ := rfl

theorem required_find {r : Fields} {name : FieldName} {d : Decoder α} {j : Json}
    (hj : Json.find? r.entries name.document = some j) {a : α} (h : d r.context j = .valid a) :
    r.required name d = .valid a := by
  simp [Fields.required, Fields.get?, hj, h]

theorem optional_find {r : Fields} {name : FieldName} {default : α} {d : Decoder α} {j : Json}
    (hj : Json.find? r.entries name.document = some j) {a : α} (h : d r.context j = .valid a) :
    r.optional name default d = .valid a := by
  simp [Fields.optional, Fields.get?, hj, h]

/-! ## What is read -/

/-- Whatever is read has a property. -/
def Yields (P : α → Prop) (x : Checked α) : Prop := ∀ a, x = .valid a → P a

theorem yields_map {P : β → Prop} {f : α → β} {x : Checked α} (h : Yields (fun a => P (f a)) x) :
    Yields P (f <$> x) := by
  intro b hb
  cases x with
  | valid a =>
    cases hb
    exact h a rfl
  | invalid is => cases hb

theorem yields_seq {P : β → Prop} {Q : α → Prop} {f : Checked (α → β)} {x : Checked α}
    (hf : Yields (fun g => ∀ a, Q a → P (g a)) f) (hx : Yields Q x) : Yields P (f <*> x) := by
  intro b hb
  cases f with
  | invalid is => cases x <;> cases hb
  | valid g =>
    cases x with
    | invalid is => cases hb
    | valid a =>
      cases hb
      exact hf g rfl a (hx a rfl)

/-- The property does not depend on the last field. -/
theorem yields_seq_any {P : β → Prop} {f : Checked (α → β)} {x : Checked α}
    (hf : Yields (fun g => ∀ a, P (g a)) f) : Yields P (f <*> x) :=
  yields_seq (fun g hg a _ => hf g hg a) (Q := fun _ => True) fun _ _ => trivial

theorem yields_below {P : α → Prop} {s : Step} {x : Checked α} (h : Yields P x) :
    Yields P (x.below s) := by
  intro a ha
  cases x with
  | valid b => exact h a ha
  | invalid is => cases ha

theorem yields_record {P : α → Prop} {name : String} {build : Fields → Checked α} {j : Json}
    (h : ∀ entries, j = .obj entries → Yields P (build ⟨entries, ctx⟩)) :
    Yields P (record name build ctx j) := by
  cases j with
  | obj entries => exact h entries rfl
  | _ =>
    intro a ha
    unfold record Checked.issue at ha
    cases ha

theorem yields_required {P : α → Prop} {r : Fields} {name : FieldName} {d : Decoder α}
    (h : ∀ key j, r.get? name = some (key, j) → Yields P (d r.context j)) :
    Yields P (r.required name d) := by
  unfold Fields.required
  split
  · next key j hj => exact yields_below (h key j hj)
  · intro a ha
    cases ha

theorem yields_optional {P : α → Prop} {r : Fields} {name : FieldName} {default : α}
    {d : Decoder α} (h0 : P default)
    (h : ∀ key j, key = name.document ∨ key = name.plain → Json.find? r.entries key = some j →
      Yields P (d r.context j)) : Yields P (r.optional name default d) := by
  unfold Fields.optional Fields.get?
  split
  · next key j hj =>
    split at hj
    · next j' hj' =>
      cases hj
      exact yields_below (h _ _ (Or.inl rfl) hj')
    · obtain ⟨j', hj', heq⟩ := Option.map_eq_some_iff.mp hj
      cases heq
      exact yields_below (h _ _ (Or.inr rfl) hj')
  · intro a ha
    cases ha
    exact h0

theorem yields_nullable {P : Option α → Prop} {d : Decoder α} {j : Json} (h0 : P none)
    (h : Yields (fun a => P (some a)) (d ctx j)) : Yields P (nullable d ctx j) := by
  unfold nullable
  split
  · intro a ha
    cases ha
    exact h0
  · exact yields_map (f := some) h

theorem yields_where {P : α → Prop} {d : Decoder α} {ok : α → Bool} {kind : IssueKind} {j : Json}
    (h : ∀ a, ok a → P a) : Yields P (d.where ok kind ctx j) := by
  intro a ha
  unfold Decoder.where Checked.andThen at ha
  cases hd : d ctx j with
  | invalid is =>
    rw [hd] at ha
    cases ha
  | valid b =>
    rw [hd] at ha
    change (if ok b then Checked.valid b else Checked.issue kind) = .valid a at ha
    split at ha
    · next hok =>
      cases ha
      exact h _ hok
    · cases ha

theorem yields_oneOf {P : α → Prop} {allowed : List (String × α)} {j : Json}
    (h : ∀ x ∈ allowed, P x.2) : Yields P (oneOf allowed ctx j) := by
  intro a ha
  unfold oneOf at ha
  split at ha
  · split at ha
    · next b hb =>
      cases ha
      exact h _ (Json.mem_of_find? hb)
    · cases ha
  · cases ha

theorem yields_all {P : α → Prop} {f : β → Step × Checked α} {l : List β}
    (h : ∀ b ∈ l, Yields P (f b).2) : Yields (fun out => ∀ a ∈ out, P a) (Checked.all f l) := by
  induction l with
  | nil =>
    intro out ho
    cases ho
    intro a ha
    cases ha
  | cons b r ih =>
    refine yields_seq (f := Checked.map List.cons _) ?_ (ih fun c hc => h c (List.mem_cons_of_mem b hc))
    refine yields_map (f := List.cons) (yields_below fun a ha rest hrest c hc => ?_)
    rcases List.mem_cons.mp hc with rfl | hc
    · exact h b List.mem_cons_self c ha
    · exact hrest c hc

theorem yields_list {P : α → Prop} {d : Decoder α} {j : Json} (h : ∀ j, Yields P (d ctx j)) :
    Yields (fun l => ∀ a ∈ l, P a) (Schema.list d ctx j) := by
  cases j with
  | arr items => exact yields_all fun p _ => h p.2
  | _ =>
    intro a ha
    cases ha

theorem map_eq_valid {f : α → β} {x : Checked α} {b : β} (h : x.map f = .valid b) :
    ∃ a, x = .valid a ∧ f a = b := by
  cases x with
  | valid a => exact ⟨a, rfl, Checked.valid.inj h⟩
  | invalid is => cases h

theorem apply_eq_valid {f : Checked (α → β)} {x : Checked α} {b : β} (h : f.apply x = .valid b) :
    ∃ g a, f = .valid g ∧ x = .valid a ∧ g a = b := by
  cases f with
  | invalid is => cases x <;> cases h
  | valid g =>
    cases x with
    | invalid is => cases h
    | valid a => exact ⟨g, a, rfl, rfl, Checked.valid.inj h⟩

theorem below_eq_valid {s : Step} {x : Checked α} {a : α} (h : x.below s = .valid a) :
    x = .valid a := by
  cases x with
  | valid b => exact h
  | invalid is => cases h

/-- All parts are valid if the whole is. -/
theorem valid_of_all {f : β → Step × Checked α} {l : List β} {out : List α}
    (h : Checked.all f l = .valid out) : ∀ b ∈ l, ∃ a, (f b).2 = .valid a := by
  induction l generalizing out with
  | nil =>
    intro b hb
    cases hb
  | cons b r ih =>
    obtain ⟨g, rest, hg, hrest, -⟩ := apply_eq_valid h
    obtain ⟨a, ha, -⟩ := map_eq_valid hg
    intro c hc
    rcases List.mem_cons.mp hc with rfl | hc
    · exact ⟨a, below_eq_valid ha⟩
    · exact ih hrest c hc

/-- What every part shares with its source, the parts share with the sources in order. -/
theorem yields_all_map {p : α → γ} {q : β → γ} {f : β → Step × Checked α}
    (h : ∀ b, Yields (fun a => p a = q b) (f b).2) (l : List β) :
    Yields (fun out => out.map p = l.map q) (Checked.all f l) := by
  induction l with
  | nil =>
    intro out ho
    cases ho
    rfl
  | cons b r ih =>
    refine yields_seq (f := Checked.map List.cons _) ?_ ih
    refine yields_map (f := List.cons) (yields_below fun a ha rest hrest => ?_)
    rw [List.map_cons, List.map_cons, h b a ha, hrest]

/-- A map that is read has the keys of its document in order. -/
theorem yields_mapping_keys {d : Decoder α} (fields : List (String × Json)) :
    Yields (fun l => Json.keys l = Json.keys fields) (mapping d ctx (.obj fields)) :=
  yields_all_map (fun x => yields_map (f := fun a => (x.1, a)) fun _ _ => rfl) fields

/-- Each value of a map that is read is read from a field under its key. -/
theorem yields_mapping {P : String × α → Prop} {d : Decoder α} {fields : List (String × Json)}
    (h : ∀ x ∈ fields, Yields (fun a => P (x.1, a)) (d ctx x.2)) :
    Yields (fun l => ∀ x ∈ l, P x) (mapping d ctx (.obj fields)) :=
  yields_all fun x hx => yields_map (f := fun a => (x.1, a)) (h x hx)

end Schema

open Schema

variable {ctx : Context}

/-! ## Variables -/

theorem Definition.decode_document (d : Definition) :
    Definition.decode ctx d.document = .valid d := by
  cases d with
  | mk id name tag mode createdAt updatedAt => cases mode <;> rfl

theorem Entry.decode_document (e : Entry) : Entry.decode ctx e.document = .valid e := rfl

theorem decode_entries (es : List Entry) :
    Schema.list Entry.decode ctx (.arr (es.map Entry.document)) = .valid es :=
  list_documents fun e _ => e.decode_document

theorem Stack.decode_document (s : Stack) : Stack.decode ctx s.document = .valid s := by
  rw [Stack.decode, Stack.document, record_obj, optional_find rfl (decode_entries s.entries),
    optional_find (a := s.nextId) rfl rfl]
  rfl

theorem nullable_text (o : Option String) :
    nullable text ctx (Json.ofOption .str o) = .valid o := by
  cases o <;> rfl

theorem nullable_integer (o : Option Int) :
    nullable integer ctx (Json.ofOption .int o) = .valid o := by
  cases o <;> rfl

theorem Slot.decode_document (s : Slot) : Slot.decode ctx s.document = .valid s := by
  cases s with
  | mk current floors floor history cursor =>
    rw [Slot.decode, Slot.document, Slot.fieldsWith, record_obj]
    cases floor with
    | none =>
      rw [optional_find (a := current) rfl rfl, optional_find rfl (nullable_text floors),
        optional_find rfl (decode_entries history), optional_find (a := cursor) rfl rfl]
      rfl
    | some n =>
      rw [optional_find (a := current) rfl rfl, optional_find rfl (nullable_text floors),
        optional_find (a := some n) rfl rfl,
        optional_find rfl (decode_entries history), optional_find (a := cursor) rfl rfl]
      rfl

/-- A value that is written is read back. -/
theorem Value.read_document (v : Value) : Value.read ctx v.document = some (.valid v) := by
  cases v with
  | stack s =>
    change some ((Stack.decode ctx s.document).map Value.stack) = _
    rw [s.decode_document]
    rfl
  | slot s =>
    have hslot : Value.read ctx s.document = some ((Slot.decode ctx s.document).map .slot) := by
      unfold Slot.document Slot.fieldsWith Slot.floorField
      cases s.floor <;> rfl
    rw [s.decode_document] at hslot
    exact hslot

/-! ## Suites -/

/-- The interval is positive. -/
def Trigger.Sound (t : Trigger) : Prop := ∀ n, t.interval = some n → 0 < n

/-- The kind is one that a rule stands for. -/
def RangeRule.Sound (r : RangeRule) : Prop := ∀ name, r.kind ≠ .unknown name

def Item.Sound : Item → Prop
  | .chat c => c.range.Sound
  | _ => True

structure Suite.Sound (s : Suite) : Prop where
  trigger : s.trigger.Sound
  items : ∀ i ∈ s.items, i.Sound

theorem Trigger.decode_document {t : Trigger} (h : t.Sound) :
    Trigger.decode ctx t.document = .valid t := by
  have hkind : oneOf TriggerKind.named ctx (.str t.kind.text) = .valid t.kind := by
    cases t.kind <;> rfl
  have hinterval : nullable (integer.where (0 < ·) (.notGreater 0)) ctx
      (Json.ofOption .int t.interval) = .valid t.interval := by
    refine nullable_document (fun n => Json.noConfusion) fun n hn => ?_
    have hpos := h n hn
    simp [Decoder.where, integer, Checked.andThen, hpos]
  rw [Trigger.decode, Trigger.document, record_obj, optional_find rfl hkind,
    optional_find rfl hinterval, optional_find rfl (list_documents (l := t.keywords) fun _ _ => rfl)]
  rfl

theorem RangeRule.decode_document {r : RangeRule} (h : r.Sound) :
    RangeRule.decode ctx r.document = .valid r := by
  have hkind : oneOf RangeKind.named ctx (.str r.kind.text) = .valid r.kind := by
    cases hk : r.kind with
    | unknown name => exact absurd hk (h name)
    | _ => rfl
  have hside : oneOf RangeSide.named ctx (.str r.side.text) = .valid r.side := by
    cases r.side <;> rfl
  have hpercent : nullable number ctx (Json.ofOption .float r.percent) = .valid r.percent := by
    cases r.percent <;> rfl
  rw [RangeRule.decode, RangeRule.document, record_obj, optional_find rfl hkind]
  simp only
  rw [optional_find rfl (nullable_integer r.start), optional_find rfl (nullable_integer r.stop),
    optional_find rfl (nullable_integer r.count), optional_find rfl (nullable_integer r.skip),
    optional_find rfl (nullable_integer r.step), optional_find rfl hpercent,
    optional_find rfl hside, optional_find rfl (nullable_integer r.excludeStart),
    optional_find rfl (nullable_integer r.excludeStop)]
  rfl

theorem Script.decode_document (s : Script) : Script.decode ctx s.document = .valid s := rfl

theorem ScriptSet.decode_document (s : ScriptSet) : ScriptSet.decode ctx s.document = .valid s := by
  rw [ScriptSet.decode, ScriptSet.document, record_obj, optional_find (a := s.promptOnly) rfl rfl,
    optional_find rfl (list_documents fun x _ => x.decode_document),
    optional_find rfl (list_documents (l := s.order) fun _ _ => rfl)]
  rfl

theorem ChatItem.decode_document {c : ChatItem} (h : c.range.Sound) :
    ChatItem.decode ctx (Item.chat c).document = .valid c := by
  rw [ChatItem.decode, Item.document, record_obj, kindField, optional_find (a := ()) rfl rfl,
    required_find (a := c.id) rfl rfl, optional_find (a := c.name) rfl rfl,
    optional_find (a := c.enabled) rfl rfl, optional_find rfl (RangeRule.decode_document h),
    optional_find (a := c.excludeUser) rfl rfl, optional_find rfl c.scripts.decode_document]
  rfl

theorem Item.decode_document : ∀ {i : Item}, i.Sound → Item.decode ctx i.document = .valid i
  | .prompt _, _ => rfl
  | .variable _, _ => rfl
  | .chat c, h => by
    change (((ChatItem.decode ctx (Item.chat c).document).map Item.chat).below _) = _
    rw [ChatItem.decode_document h]
    rfl
  | .character ⟨_, _, part, _, entryUid, _⟩, _ => by cases part <;> cases entryUid <;> rfl

theorem Suite.decode_document {s : Suite} (h : s.Sound) : Suite.decode ctx s.document = .valid s := by
  have hsnapshot : nullable truth ctx (Json.ofOption .bool s.useSnapshot) = .valid s.useSnapshot := by
    cases s.useSnapshot <;> rfl
  rw [Suite.decode, Suite.document, Suite.fields, record_obj, required_find (a := s.id) rfl rfl,
    optional_find (a := s.name) rfl rfl, optional_find (a := s.enabled) rfl rfl,
    optional_find rfl (Trigger.decode_document h.trigger),
    optional_find rfl (list_documents fun i hi => Item.decode_document (h.items i hi)),
    optional_find rfl hsnapshot, optional_find (a := s.createdAt) rfl rfl,
    optional_find (a := s.updatedAt) rfl rfl]
  rfl

/-! ## Roots -/

/-- Each parameter stands once. -/
def ApiOverride.Sound (a : ApiOverride) : Prop := (Json.obj a.params).Keyed

structure Settings.Sound (s : Settings) : Prop where
  api : s.api.Sound
  suites : (Json.keys s.counts).Nodup
  chats : ∀ m ∈ s.counts, (Json.keys m.2).Nodup

structure Root.Sound (r : Root) : Prop where
  version : r.version = Root.currentVersion
  suiteKeys : (Json.keys r.suites).Nodup
  suites : ∀ s ∈ r.suites, s.2.Sound
  definitionKeys : (Json.keys r.definitions).Nodup
  settings : r.settings.Sound

theorem Root.Sound.withSuites {r : Root} (h : r.Sound) {suites : List (String × Suite)}
    (hkeys : (Json.keys suites).Nodup) (hsuites : ∀ s ∈ suites, s.2.Sound) :
    { r with suites := suites }.Sound := { h with suiteKeys := hkeys, suites := hsuites }

theorem Root.Sound.withDefinitions {r : Root} (h : r.Sound) {ds : List (String × Definition)}
    (hkeys : (Json.keys ds).Nodup) : { r with definitions := ds }.Sound :=
  { h with definitionKeys := hkeys }

theorem Root.Sound.withSettings {r : Root} (h : r.Sound) {x : Settings} (hx : x.Sound) :
    { r with settings := x }.Sound := { h with settings := hx }

theorem ApiOverride.decode_document (a : ApiOverride) :
    ApiOverride.decode ctx a.document = .valid a := by
  cases a with
  | mk custom baseUrl apiKey model format params => cases custom <;> rfl

theorem Settings.decode_document (s : Settings) : Settings.decode ctx s.document = .valid s := by
  have hcounts : mapping (mapping integer) ctx (Json.ofMap (Json.ofMap .int) s.counts) =
      .valid s.counts := mapping_documents fun _ _ => mapping_documents fun _ _ => rfl
  rw [Settings.decode, Settings.document, record_obj, optional_find (a := s.enabled) rfl rfl,
    optional_find rfl (nullable_text s.activeSuite), optional_find rfl s.api.decode_document,
    optional_find rfl hcounts]
  rfl

theorem Root.decode_document {r : Root} (h : r.Sound) : Root.decode ctx r.document = .valid r := by
  rw [Root.decode, Root.document, record_obj, optional_find (a := r.version) rfl rfl,
    optional_find rfl (mapping_documents fun s hs => Suite.decode_document (h.suites s hs)),
    optional_find rfl (mapping_documents fun d _ => d.2.decode_document),
    optional_find rfl r.settings.decode_document]
  rfl

/-! ## Documents hold each key once -/

theorem keyed_ofMap {α : Type} {f : α → Json} {l : List (String × α)} (hk : (Json.keys l).Nodup)
    (h : ∀ x ∈ l, (f x.2).Keyed) : (Json.ofMap f l).Keyed := by
  have hkeys : Json.keys (l.map fun x => (x.1, f x.2)) = Json.keys l :=
    Json.keys_map (fun _ a => f a) l
  refine ⟨hkeys ▸ hk, Json.keyedFields_iff.mpr fun x hx => ?_⟩
  obtain ⟨y, hy, rfl⟩ := List.mem_map.mp hx
  exact h y hy

theorem keyed_arr {α : Type} {f : α → Json} {l : List α} (h : ∀ a ∈ l, (f a).Keyed) :
    (Json.arr (l.map f)).Keyed := by
  refine Json.keyedItems_iff.mpr fun j hj => ?_
  obtain ⟨a, ha, rfl⟩ := List.mem_map.mp hj
  exact h a ha

theorem keyed_ofOption {α : Type} {f : α → Json} (h : ∀ a, (f a).Keyed) (o : Option α) :
    (Json.ofOption f o).Keyed := by
  cases o with
  | none => trivial
  | some a => exact h a

theorem keyed_str (s : String) : (Json.str s).Keyed := trivial

theorem keyed_int (n : Int) : (Json.int n).Keyed := trivial

theorem keyed_bool (b : Bool) : (Json.bool b).Keyed := trivial

theorem keyed_float (x : Binary64) : (Json.float x).Keyed := trivial

theorem Definition.keyed_document (d : Definition) : d.document.Keyed := by
  simp [Definition.document, Json.Keyed, Json.KeyedFields]

theorem Entry.keyed_document (e : Entry) : e.document.Keyed := by
  simp [Entry.document, Json.Keyed, Json.KeyedFields]

theorem Value.keyed_document (v : Value) : v.document.Keyed := by
  cases v with
  | stack s =>
    have hentries := keyed_arr (l := s.entries) fun e _ => e.keyed_document
    simp [Value.document, Stack.document, Json.Keyed, Json.KeyedFields]
    exact hentries
  | slot s =>
    have hentries := keyed_arr (l := s.history) fun e _ => e.keyed_document
    have hfloors := keyed_ofOption keyed_str s.floors
    cases hf : s.floor <;>
      simp [Value.document, Slot.document, Slot.fieldsWith, Slot.floorField, hf, Json.Keyed,
        Json.KeyedFields, hfloors] <;> exact hentries

theorem RangeRule.keyed_document (r : RangeRule) : r.document.Keyed := by
  simp [RangeRule.document, Json.Keyed, Json.KeyedFields, keyed_ofOption keyed_int,
    keyed_ofOption keyed_float]

theorem ScriptSet.keyed_document (s : ScriptSet) : s.document.Keyed := by
  have hscripts : (Json.arr (s.scripts.map Script.document)).Keyed :=
    keyed_arr fun x _ => by simp [Script.document, Json.Keyed, Json.KeyedFields]
  have horder := keyed_arr (l := s.order) fun x _ => keyed_str x
  simp [ScriptSet.document, Json.Keyed, Json.KeyedFields]
  exact ⟨hscripts, horder⟩

theorem Item.keyed_document : ∀ i : Item, i.document.Keyed
  | .prompt p => by simp [Item.document, Json.Keyed, Json.KeyedFields]
  | .variable v => by simp [Item.document, Json.Keyed, Json.KeyedFields]
  | .chat c => by
    have hrange := c.range.keyed_document
    have hscripts := c.scripts.keyed_document
    simp [Item.document, Json.Keyed, Json.KeyedFields, hrange, hscripts]
  | .character c => by
    simp [Item.document, Json.Keyed, Json.KeyedFields, keyed_ofOption keyed_int]

theorem Suite.keyed_document (s : Suite) : s.document.Keyed := by
  have hkeywords := keyed_arr (l := s.trigger.keywords) fun x _ => keyed_str x
  have htrigger : s.trigger.document.Keyed := by
    simp [Trigger.document, Json.Keyed, Json.KeyedFields, keyed_ofOption keyed_int]
    exact hkeywords
  have hitems := keyed_arr (l := s.items) fun i _ => i.keyed_document
  simp [Suite.document, Suite.fields, Json.Keyed, Json.KeyedFields, htrigger,
    keyed_ofOption keyed_bool]
  exact hitems

theorem Settings.keyed_document {s : Settings} (h : s.Sound) : s.document.Keyed := by
  have hapi : s.api.document.Keyed := by
    have hparams := h.api
    unfold ApiOverride.Sound at hparams
    simp [ApiOverride.document, Json.Keyed, Json.KeyedFields]
    exact hparams
  have hcounts : (Json.ofMap (Json.ofMap .int) s.counts).Keyed :=
    keyed_ofMap h.suites fun m hm => keyed_ofMap (h.chats m hm) fun x _ => keyed_int x.2
  simp [Settings.document, Json.Keyed, Json.KeyedFields, hapi, hcounts, keyed_ofOption keyed_str]

theorem Root.keyed_document {r : Root} (h : r.Sound) : r.document.Keyed := by
  have hsuites : (Json.ofMap Suite.document r.suites).Keyed :=
    keyed_ofMap h.suiteKeys fun s _ => s.2.keyed_document
  have hdefinitions : (Json.ofMap Definition.document r.definitions).Keyed :=
    keyed_ofMap h.definitionKeys fun d _ => d.2.keyed_document
  have hsettings := Settings.keyed_document h.settings
  simp [Root.document, Json.Keyed, Json.KeyedFields, hsuites, hdefinitions, hsettings]

theorem ChatValues.keyed_document {vs : ChatValues} (h : (Json.keys vs).Nodup) (chat : String) :
    (ChatValues.document chat vs).Keyed := by
  have hvalues : (Json.ofMap Value.document vs).Keyed :=
    keyed_ofMap h fun v _ => v.2.keyed_document
  simp [ChatValues.document, Json.Keyed, Json.KeyedFields, hvalues]

/-! ## What is read is sound -/

theorem Trigger.sound_of_decode {j : Json} : Yields Trigger.Sound (Trigger.decode ctx j) := by
  refine yields_record fun entries _ => yields_seq_any ?_
  refine yields_seq (Q := fun interval : Option Int => ∀ n, interval = some n → 0 < n) ?_ ?_
  · exact yields_map fun kind _ interval hpos keywords => hpos
  · refine yields_optional (fun n hn => by cases hn) fun _ j _ _ => ?_
    refine yields_nullable (fun n hn => by cases hn) (yields_where fun n hn m hm => ?_)
    cases hm
    exact of_decide_eq_true hn

theorem RangeRule.sound_of_decode {j : Json} : Yields RangeRule.Sound (RangeRule.decode ctx j) := by
  refine yields_record fun entries _ => ?_
  -- the kind is the first field, behind which nine others stand
  iterate 9 refine yields_seq_any ?_
  refine yields_map (yields_optional ?_ fun _ j _ _ => yields_oneOf ?_)
  · intro _ _ _ _ _ _ _ _ _ name
    exact RangeKind.noConfusion
  · intro x hx _ _ _ _ _ _ _ _ _ name
    revert x
    simp [RangeKind.named]

theorem ChatItem.sound_of_decode {j : Json} :
    Yields (fun c => c.range.Sound) (ChatItem.decode ctx j) := by
  refine yields_record fun entries _ => yields_seq_any (yields_seq_any ?_)
  refine yields_seq (Q := RangeRule.Sound) ?_ ?_
  · iterate 3 refine yields_seq_any ?_
    exact yields_map fun _ _ _ _ _ range hrange _ _ => hrange
  · exact yields_optional (fun name => RangeKind.noConfusion) fun _ j _ _ => RangeRule.sound_of_decode

theorem Item.sound_of_decode {j : Json} : Yields Item.Sound (Item.decode ctx j) := by
  have hkinds : ∀ x ∈ Item.kinds, ∀ j, Yields Item.Sound (x.2 ctx j) := by
    intro x hx j
    simp only [Item.kinds, List.mem_cons, List.not_mem_nil, or_false] at hx
    rcases hx with rfl | rfl | rfl | rfl
    · exact yields_map (f := Item.prompt) fun _ _ => trivial
    · exact yields_map (f := Item.variable) fun _ _ => trivial
    · exact yields_map (f := Item.chat) ChatItem.sound_of_decode
    · exact yields_map (f := Item.character) fun _ _ => trivial
  intro i hi
  unfold Item.decode at hi
  split at hi
  · split at hi
    · cases hi
    · split at hi
      · next kind d hd => exact yields_below (hkinds _ (Json.mem_of_find? hd) _) i hi
      · cases hi
    · cases hi
  · cases hi

theorem sound_of_decode_items {j : Json} :
    Yields (fun items => ∀ i ∈ items, i.Sound) (Schema.list Item.decode ctx j) :=
  yields_list fun _ => Item.sound_of_decode

theorem Suite.sound_of_decode {j : Json} : Yields Suite.Sound (Suite.decode ctx j) := by
  refine yields_record fun entries _ => ?_
  iterate 3 refine yields_seq_any ?_
  refine yields_seq (Q := fun items => ∀ i ∈ items, i.Sound) ?_ ?_
  · refine yields_seq (Q := Trigger.Sound) ?_ ?_
    · iterate 2 refine yields_seq_any ?_
      refine yields_map fun _ _ _ _ trigger htrigger items hitems _ _ _ => ⟨htrigger, hitems⟩
    · exact yields_optional (fun n hn => by cases hn) fun _ j _ _ => Trigger.sound_of_decode
  · exact yields_optional (fun i hi => by cases hi) fun _ j _ _ => sound_of_decode_items

theorem keyed_field {entries : List (String × Json)} {j j' : Json} (hj : j.Keyed)
    (he : j = .obj entries) {key : String} (hf : Json.find? entries key = some j') : j'.Keyed := by
  subst he
  exact Json.keyed_find? hj.2 hf

theorem ApiOverride.sound_of_decode {j : Json} (hj : j.Keyed) :
    Yields ApiOverride.Sound (ApiOverride.decode ctx j) := by
  refine yields_record fun entries he => ?_
  refine yields_seq (Q := fun params => (Json.obj params).Keyed) ?_ ?_
  · iterate 4 refine yields_seq_any ?_
    exact yields_map fun _ _ _ _ _ _ params hparams => hparams
  · refine yields_optional ⟨List.nodup_nil, trivial⟩ fun _ j' _ hf => ?_
    intro params hp
    cases j' with
    | obj fields =>
      cases hp
      exact keyed_field hj he hf
    | _ => cases hp

/-- A map of documents that holds each key once holds each key once. -/
theorem nodup_keys_of_mapping {α : Type} {d : Decoder α} {j : Json} (hj : j.Keyed) :
    Yields (fun l => (Json.keys l).Nodup) (mapping d ctx j) := by
  cases j with
  | obj fields =>
    intro l hl
    rw [yields_mapping_keys fields l hl]
    exact hj.1
  | _ =>
    intro l hl
    cases hl

theorem Settings.sound_of_decode {j : Json} (hj : j.Keyed) :
    Yields Settings.Sound (Settings.decode ctx j) := by
  refine yields_record fun entries he => ?_
  refine yields_seq
    (Q := fun counts => (Json.keys counts).Nodup ∧ ∀ m ∈ counts, (Json.keys m.2).Nodup) ?_ ?_
  · refine yields_seq (Q := ApiOverride.Sound) ?_ ?_
    · iterate 1 refine yields_seq_any ?_
      exact yields_map fun _ _ _ api hapi counts hcounts => ⟨hapi, hcounts.1, hcounts.2⟩
    · exact yields_optional ⟨List.nodup_nil, trivial⟩ fun _ j' _ hf =>
        ApiOverride.sound_of_decode (keyed_field hj he hf)
  · refine yields_optional ⟨List.nodup_nil, fun m hm => by cases hm⟩ fun _ j' _ hf => ?_
    have hj' := keyed_field hj he hf
    intro counts hc
    refine ⟨nodup_keys_of_mapping hj' counts hc, ?_⟩
    cases j' with
    | obj fields =>
      refine yields_mapping (P := fun m : String × List (String × Int) => (Json.keys m.2).Nodup)
        (fun x hx => ?_) counts hc
      exact nodup_keys_of_mapping (Json.keyedFields_iff.mp hj'.2 x hx)
    | _ => cases hc

/-- The fields of a root document under which keys are distinct. -/
structure Root.DistinctKeys (entries : List (String × Json)) : Prop where
  suites : ∀ fields, Json.find? entries "suites" = some (.obj fields) → (Json.keys fields).Nodup
  definitions : ∀ fields, Json.find? entries "variables" = some (.obj fields) →
    (Json.keys fields).Nodup
  settings : ∀ j, Json.find? entries "settings" = some j → j.Keyed

/-- A root that is read is sound but for its version. -/
theorem Root.sound_of_decode {entries : List (String × Json)} (h : Root.DistinctKeys entries) :
    Yields (fun r => { r with version := Root.currentVersion }.Sound)
      (Root.decode ctx (.obj entries)) := by
  have hnodup : ∀ {α : Type} (d : Decoder α) {j : Json},
      (∀ fields, j = .obj fields → (Json.keys fields).Nodup) →
      Yields (fun l => (Json.keys l).Nodup) (mapping d ctx j) := by
    intro α d j hj l hl
    cases j with
    | obj fields =>
      rw [yields_mapping_keys fields l hl]
      exact hj fields rfl
    | _ => cases hl
  refine yields_seq (Q := Settings.Sound) ?_ ?_
  · refine yields_seq (Q := fun definitions => (Json.keys definitions).Nodup) ?_ ?_
    · refine yields_seq
        (Q := fun suites => (Json.keys suites).Nodup ∧ ∀ s ∈ suites, s.2.Sound) ?_ ?_
      · exact yields_map fun _ _ suites hsuites definitions hdefinitions settings hsettings =>
          ⟨rfl, hsuites.1, hsuites.2, hdefinitions, hsettings⟩
      · refine yields_optional ⟨List.nodup_nil, fun s hs => by cases hs⟩ fun key j hkey hf => ?_
        rw [show key = "suites" from hkey.elim id id] at hf
        intro suites hs
        refine ⟨hnodup _ (fun fields hj => h.suites fields (hj ▸ hf)) suites hs, ?_⟩
        cases j with
        | obj fields =>
          exact yields_mapping (P := fun s : String × Suite => s.2.Sound)
            (fun x _ => Suite.sound_of_decode) suites hs
        | _ => cases hs
    · refine yields_optional List.nodup_nil fun key j hkey hf => ?_
      rw [show key = "variables" from hkey.elim id id] at hf
      exact hnodup _ fun fields hj => h.definitions fields (hj ▸ hf)
  · refine yields_optional ⟨⟨List.nodup_nil, trivial⟩, List.nodup_nil, fun m hm => by cases hm⟩
      fun key j hkey hf => ?_
    rw [show key = "settings" from hkey.elim id id] at hf
    exact Settings.sound_of_decode (h.settings j hf)

end TagLedger
