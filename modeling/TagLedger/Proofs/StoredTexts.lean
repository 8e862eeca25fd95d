import TagLedger.Proofs.Documents
import TagLedger.Proofs.Faults
import TagLedger.Store.Load

/-!
# Texts of documents

The text of a sound root is read as that root, and the text of a chat's values as these values. What
a root document of version 1 becomes is sound: identifiers are distinct, and each value that moves
to a document of its own belongs to one of the definitions.

    r.Sound → RootReading.ofText ctx r.text = .root r none                  (ofText_text)
    RootReading.ofText ctx t = .root r (some chats) → Migrated r chats      (migrated_of_ofText)
-/

namespace TagLedger

open Schema Storage

variable {ctx : Context}

/-! ## Texts of roots and values -/

/-- The text under which a root is kept. -/
def Root.text (r : Root) : String := Json.render .page r.document

/-- The text under which the values of a chat are kept. -/
def ChatValues.text (chat : String) (vs : ChatValues) : String :=
  Json.render .page (ChatValues.document chat vs)

/-- The text of a root is read as that root. -/
theorem ofText_text {r : Root} (h : r.Sound) (hw : r.document.writable) :
    RootReading.ofText ctx r.text = .root r none := by
  have hparse : Json.parseText r.text = .ok r.document :=
    Json.parseText_render rfl (Root.keyed_document h) hw
  have hdecode : Root.decode ctx r.document = .valid r := Root.decode_document h
  have hversion := h.version
  unfold Root.document at hparse hdecode
  rw [hversion] at hparse hdecode
  unfold RootReading.ofText
  rw [hparse]
  simp only [Migration.migrate, Migration.detectVersion, Json.find?_cons, if_true]
  rw [hdecode]
  rfl

/-- Different roots have different texts. -/
theorem Root.eq_of_text {r r' : Root} (hr : r.Sound) (hr' : r'.Sound)
    (hw : r.document.writable) (hw' : r'.document.writable) (h : r.text = r'.text) : r = r' := by
  have hread : RootReading.ofText ⟨0, false⟩ r.text = .root r none := ofText_text hr hw
  rw [h, ofText_text hr' hw'] at hread
  exact (RootReading.root.inj hread).1.symm

theorem rawValues?_text {vs : ChatValues} (hk : (Json.keys vs).Nodup) (chat : String)
    (hw : (ChatValues.document chat vs).writable) :
    rawValues? (some (ChatValues.text chat vs)) =
      some (vs.map fun v => (v.1, v.2.document)) := by
  have hparse : Json.parseText (ChatValues.text chat vs) = .ok (ChatValues.document chat vs) :=
    Json.parseText_render rfl (ChatValues.keyed_document hk chat) hw
  unfold rawValues?
  simp only [hparse, ChatValues.document, Json.find?_cons]
  rw [if_neg (by decide)]
  cases vs with
  | nil => rfl
  | cons v r => rfl

theorem readValues_documents (vs : ChatValues) :
    readValues ctx (vs.map fun v => (v.1, v.2.document)) = vs := by
  unfold readValues
  induction vs with
  | nil => rfl
  | cons v r ih =>
    rw [List.map_cons, List.filterMap_cons, ih]
    simp only [v.2.read_document]
    rfl

/-! ## Definitions of version 1 -/

namespace Migration

theorem eq_of_sameId {a : Json} {s : String} (h : sameId a (.str s)) : a = .str s := by
  cases a with
  | str t => rw [beq_iff_eq.mp h]
  | _ => cases h

theorem ne_of_not_sameId {s t : String} (h : sameId (.str s) (.str t) = false) : s ≠ t :=
  beq_eq_false_iff_ne.mp h

/-- The document of a definition carries its identifier, or one that is the same. -/
def Moved.Labelled (m : Moved) : Prop :=
  ∃ id rest, m.document = .obj (("id", id) :: rest) ∧ (m.id = id ∨ sameId m.id id)

theorem labelled_moveDefinition {now : Int} {i : Nat} {j : Json} {m : Moved}
    (h : moveDefinition now i j = .ok (some m)) :
    ∃ rest, m.document = .obj (("id", m.id) :: rest) := by
  unfold moveDefinition at h
  split at h
  · simp only at h
    split at h
    · cases h
    · obtain ⟨name, hname, h⟩ := bind_eq_ok h
      split at h
      · cases h
      · cases h
        exact ⟨_, rfl⟩
  · cases h

theorem mem_place {m : Moved} {ms : List Moved} {a : Moved} (h : a ∈ place m ms) :
    a = m ∨ a ∈ ms ∨ ∃ b ∈ ms, sameId b.id m.id ∧ a = ⟨b.id, m.mode, m.document⟩ := by
  induction ms with
  | nil => exact Or.inl (List.mem_singleton.mp h)
  | cons b r ih =>
    unfold place at h
    split at h
    · next hsame =>
      rcases List.mem_cons.mp h with rfl | h
      · exact Or.inr (Or.inr ⟨b, List.mem_cons_self, hsame, rfl⟩)
      · exact Or.inr (Or.inl (List.mem_cons_of_mem b h))
    · rcases List.mem_cons.mp h with rfl | h
      · exact Or.inr (Or.inl List.mem_cons_self)
      · rcases ih h with h | h | ⟨c, hc, h⟩
        · exact Or.inl h
        · exact Or.inr (Or.inl (List.mem_cons_of_mem b h))
        · exact Or.inr (Or.inr ⟨c, List.mem_cons_of_mem b hc, h⟩)

theorem labelled_place {m : Moved} {ms : List Moved}
    (hm : ∃ rest, m.document = .obj (("id", m.id) :: rest)) (h : ∀ a ∈ ms, a.Labelled) :
    ∀ a ∈ place m ms, a.Labelled := by
  obtain ⟨rest, hrest⟩ := hm
  intro a ha
  rcases mem_place ha with rfl | ha | ⟨b, hb, hsame, rfl⟩
  · exact ⟨a.id, rest, hrest, Or.inl rfl⟩
  · exact h a ha
  · exact ⟨m.id, rest, hrest, Or.inr hsame⟩

/-- The identifiers after a definition has been placed. -/
theorem ids_place (m : Moved) (ms : List Moved) :
    (place m ms).map (·.id) = ms.map (·.id) ∨
      (∀ a ∈ ms, sameId a.id m.id = false) ∧ (place m ms).map (·.id) = ms.map (·.id) ++ [m.id] := by
  induction ms with
  | nil => exact Or.inr ⟨fun a ha => (List.not_mem_nil ha).elim, rfl⟩
  | cons b r ih =>
    unfold place
    split
    · exact Or.inl rfl
    · next hsame =>
      rcases ih with h | ⟨hr, h⟩
      · exact Or.inl (by rw [List.map_cons, List.map_cons, h])
      · refine Or.inr ⟨fun a ha => ?_, by rw [List.map_cons, List.map_cons, h, List.cons_append]⟩
        rcases List.mem_cons.mp ha with rfl | ha
        · exact Bool.eq_false_iff.mpr hsame
        · exact hr a ha

/-- No two identifiers are the same. -/
def Apart (ids : List Json) : Prop := ids.Pairwise fun a b => sameId a b = false

theorem apart_place {m : Moved} {ms : List Moved} (h : Apart (ms.map (·.id))) :
    Apart ((place m ms).map (·.id)) := by
  rcases ids_place m ms with he | ⟨hnew, he⟩
  · rw [he]
    exact h
  · rw [he]
    refine List.pairwise_append.mpr ⟨h, List.pairwise_singleton _ _, fun a ha b hb => ?_⟩
    obtain ⟨v, hv, rfl⟩ := List.mem_map.mp ha
    rw [List.mem_singleton.mp hb]
    exact hnew v hv

theorem of_moveDefinitions {now : Int} {items : List (Nat × Json)} {done ms : List Moved}
    (h : moveDefinitions now items done = .ok ms) (hl : ∀ a ∈ done, a.Labelled)
    (ha : Apart (done.map (·.id))) : (∀ a ∈ ms, a.Labelled) ∧ Apart (ms.map (·.id)) := by
  induction items generalizing done with
  | nil =>
    cases h
    exact ⟨hl, ha⟩
  | cons x r ih =>
    obtain ⟨i, j⟩ := x
    unfold moveDefinitions at h
    cases hm : moveDefinition now i j with
    | error e =>
      rw [hm] at h
      cases h
    | ok found =>
      rw [hm] at h
      cases found with
      | none => exact ih h hl ha
      | some m => exact ih h (labelled_place (labelled_moveDefinition hm) hl) (apart_place ha)

/-! ## Values of version 1 -/

theorem keys_moveValues {ms : List Moved} {fields : List (String × Json)} {vs : ChatValues}
    (h : moveValues ctx ms fields = .ok vs) :
    (Json.keys vs).Sublist (Json.keys fields) ∧
      ∀ id ∈ Json.keys vs, ∃ v ∈ ms, sameId v.id (.str id) := by
  induction fields generalizing vs with
  | nil =>
    cases h
    exact ⟨List.Sublist.slnil, fun id hid => by cases hid⟩
  | cons f r ih =>
    obtain ⟨id, raw⟩ := f
    unfold moveValues at h
    split at h
    · obtain ⟨hsub, hdef⟩ := ih h
      exact ⟨hsub.cons id, hdef⟩
    · next v hv =>
      split at h
      · cases h
      · obtain ⟨hsub, hdef⟩ := ih h
        exact ⟨hsub.cons id, hdef⟩
      · obtain ⟨rest, hrest, rfl⟩ := map_eq_ok h
        obtain ⟨hsub, hdef⟩ := ih hrest
        refine ⟨hsub.cons_cons id, fun id' hid => ?_⟩
        rcases List.mem_cons.mp hid with rfl | hid
        · have hsame := List.find?_some hv
          exact ⟨v, List.mem_of_find?_eq_some hv, hsame⟩
        · exact hdef id' hid

/-- Values of a chat that moved: some, each under one identifier of those given. -/
structure MovedValues (ids : String → Prop) (vs : ChatValues) : Prop where
  nonempty : vs ≠ []
  keys : (Json.keys vs).Nodup
  defined : ∀ id ∈ Json.keys vs, ids id

theorem of_moveChats {ms : List Moved} {fields : List (String × Json)}
    {chats : List (String × ChatValues)} (h : moveChats ctx ms fields = .ok chats)
    (hk : Json.KeyedFields fields) :
    (Json.keys chats).Sublist (Json.keys fields) ∧
      ∀ c ∈ chats, MovedValues (fun id => ∃ v ∈ ms, sameId v.id (.str id)) c.2 := by
  induction fields generalizing chats with
  | nil =>
    cases h
    exact ⟨List.Sublist.slnil, fun c hc => by cases hc⟩
  | cons f r ih =>
    obtain ⟨chat, j⟩ := f
    have hskip : moveChats ctx ms r = .ok chats →
        (Json.keys chats).Sublist (Json.keys ((chat, j) :: r)) ∧
          ∀ c ∈ chats, MovedValues (fun id => ∃ v ∈ ms, sameId v.id (.str id)) c.2 := by
      intro hr
      obtain ⟨hsub, hvalues⟩ := ih hr hk.2
      exact ⟨hsub.cons chat, hvalues⟩
    cases j with
    | obj fields =>
      unfold moveChats at h
      cases hv : moveValues ctx ms fields with
      | error e =>
        rw [hv] at h
        cases h
      | ok vs =>
        rw [hv] at h
        cases vs with
        | nil => exact hskip h
        | cons v vs =>
          obtain ⟨rest, hrest, rfl⟩ := map_eq_ok h
          obtain ⟨hsub, hvalues⟩ := ih hrest hk.2
          obtain ⟨hkeys, hdef⟩ := keys_moveValues hv
          refine ⟨hsub.cons_cons chat, fun c hc => ?_⟩
          rcases List.mem_cons.mp hc with rfl | hc
          · exact ⟨List.cons_ne_nil v vs, hk.1.1.sublist hkeys, hdef⟩
          · exact hvalues c hc
    | _ => exact hskip h

/-! ## Roots of version 1 -/

theorem keyed_field {j j' : Json} {key : String} (hj : j.Keyed) (h : field j key = .ok j') :
    j'.Keyed := by
  unfold field at h
  split at h
  · cases h
    next fields =>
    cases hf : Json.find? fields key with
    | none => trivial
    | some x => exact Json.keyed_find? hj.2 hf
  · cases h

theorem keyed_orElse {j d : Json} (hj : j.Keyed) (hd : d.Keyed) : (orElse j d).Keyed := by
  unfold orElse
  split
  · exact hj
  · exact hd

theorem keyed_moveSettings {enabled api : Json} (hapi : api.Keyed) (moved : List Moved) :
    (moveSettings enabled api moved).Keyed := by
  unfold moveSettings
  cases api with
  | obj fields =>
    have hfields : (Json.obj fields).Keyed := hapi
    cases moved <;> simpa [Json.Keyed, Json.KeyedFields] using hfields
  | _ => cases moved <;> simp [Json.Keyed, Json.KeyedFields]

theorem keys_moveSuites {old : Json} {moved : List Moved} {now : Int} {suites : List (String × Json)}
    (h : moveSuites old moved now = .ok suites) : (Json.keys suites).Nodup := by
  unfold moveSuites at h
  split at h
  · cases h
    exact List.nodup_nil
  · obtain ⟨s, -, rfl⟩ := map_eq_ok h
    exact List.nodup_singleton suiteId

/-- What a document of version 1 becomes. -/
structure Brought (m : Result) (suites : List (String × Json)) (moved : List Moved)
    (settings : Json) : Prop where
  root : m.root = .obj [("version", .int Root.currentVersion), ("suites", .obj suites),
    ("variables", .obj (moved.map fun v => (keyText v.id, v.document))), ("settings", settings)]
  suites : (Json.keys suites).Nodup
  labelled : ∀ v ∈ moved, v.Labelled
  apart : Apart (moved.map (·.id))
  settings : settings.Keyed
  chats : (Json.keys m.chats).Nodup
  values : ∀ c ∈ m.chats, MovedValues (fun id => ∃ v ∈ moved, sameId v.id (.str id)) c.2

/-- The steps by which a document of version 1 is brought to the current version. -/
theorem steps_of_fromFirst {fields : List (String × Json)} {m : Result}
    (h : fromFirst ctx fields = .ok m) : ∃ items moved old enabled api suites,
      moveDefinitions ctx.now items [] = .ok moved ∧
      old = orElse ((Json.find? fields "settings").getD .null) (.obj []) ∧
      field old "apiConfig" = .ok api ∧ moveSuites old moved ctx.now = .ok suites ∧
      moveAllValues ctx moved (orElse ((Json.find? fields "values").getD .null) (.obj [])) =
        .ok m.chats ∧
      m.root = .obj [("version", .int Root.currentVersion), ("suites", .obj suites),
        ("variables", .obj (moved.map fun v => (keyText v.id, v.document))),
        ("settings", moveSettings enabled api moved)] := by
  unfold fromFirst at h
  simp only at h
  obtain ⟨items, -, h⟩ := bind_eq_ok h
  obtain ⟨moved, hmoved, h⟩ := bind_eq_ok h
  obtain ⟨enabled, -, h⟩ := bind_eq_ok h
  obtain ⟨api, hapi, h⟩ := bind_eq_ok h
  obtain ⟨suites, hsuites, h⟩ := bind_eq_ok h
  obtain ⟨chats, hchats, h⟩ := bind_eq_ok h
  cases h
  exact ⟨_, moved, _, enabled, api, suites, hmoved, rfl, hapi, hsuites, hchats, rfl⟩

theorem brought_fromFirst {fields : List (String × Json)} {m : Result} (hk : (Json.obj fields).Keyed)
    (h : fromFirst ctx fields = .ok m) :
    ∃ suites moved settings, Brought m suites moved settings := by
  have hget : ∀ key, ((Json.find? fields key).getD .null).Keyed := by
    intro key
    cases hf : Json.find? fields key with
    | none => trivial
    | some x => exact Json.keyed_find? hk.2 hf
  have hempty : (Json.obj []).Keyed := ⟨List.nodup_nil, trivial⟩
  obtain ⟨items, moved, _, enabled, api, suites, hmoved, rfl, hapi, hsuites, hchats, hroot⟩ :=
    steps_of_fromFirst h
  obtain ⟨hlabelled, hapart⟩ := of_moveDefinitions hmoved (fun a ha => by cases ha) List.Pairwise.nil
  have hvalues := keyed_orElse (hget "values") hempty
  unfold moveAllValues at hchats
  split at hchats
  · next values he =>
    rw [he] at hvalues
    obtain ⟨hkeys, hdefined⟩ := of_moveChats hchats hvalues.2
    exact ⟨suites, moved, _, hroot, keys_moveSuites hsuites, hlabelled, hapart,
      keyed_moveSettings (keyed_field (keyed_orElse (hget "settings") hempty) hapi) moved,
      hvalues.1.sublist hkeys, hdefined⟩
  · cases hchats

/-- A definition that is read has a text for its identifier. -/
theorem decode_id {id : Json} {rest : List (String × Json)} :
    Yields (fun _ => ∃ s, id = .str s) (Definition.decode ctx (.obj (("id", id) :: rest))) := by
  refine yields_record fun entries he => ?_
  cases he
  iterate 5 refine yields_seq_any ?_
  refine yields_map (yields_required fun key j hj => ?_)
  simp only [Fields.get?, FieldName.same, Json.find?_cons, if_true] at hj
  cases hj
  intro t ht _ _ _ _ _
  cases id with
  | str s => exact ⟨s, rfl⟩
  | _ => cases ht

theorem id_of_labelled {v : Moved} (hl : v.Labelled) {d : Definition}
    (h : Definition.decode ctx v.document = .valid d) : ∃ s, v.id = .str s := by
  obtain ⟨id, rest, hdoc, hid⟩ := hl
  rw [hdoc] at h
  obtain ⟨s, rfl⟩ := decode_id d h
  rcases hid with hid | hid
  · exact ⟨s, hid⟩
  · exact ⟨s, eq_of_sameId hid⟩

/-- Texts that are no two the same are distinct keys. -/
theorem nodup_keyText {ids : List Json} (h : Apart ids) (hs : ∀ id ∈ ids, ∃ s, id = .str s) :
    (ids.map keyText).Nodup := by
  induction ids with
  | nil => exact List.nodup_nil
  | cons id r ih =>
    obtain ⟨hid, hr⟩ := List.pairwise_cons.mp h
    rw [List.map_cons, List.nodup_cons]
    refine ⟨fun hmem => ?_, ih hr fun a ha => hs a (List.mem_cons_of_mem id ha)⟩
    obtain ⟨a, ha, hkey⟩ := List.mem_map.mp hmem
    obtain ⟨s, rfl⟩ := hs id List.mem_cons_self
    obtain ⟨t, rfl⟩ := hs a (List.mem_cons_of_mem _ ha)
    exact ne_of_not_sameId (hid _ ha) hkey.symm

end Migration

/-! ## What a root document of version 1 gives -/

/-- The parts of a root document that is read are read. -/
theorem Root.decode_parts {version suites definitions settings : Json} {r : Root}
    (h : Root.decode ctx (.obj [("version", version), ("suites", suites),
      ("variables", definitions), ("settings", settings)]) = .valid r) :
    integer ctx version = .valid r.version ∧ mapping Suite.decode ctx suites = .valid r.suites ∧
      mapping Definition.decode ctx definitions = .valid r.definitions ∧
      Settings.decode ctx settings = .valid r.settings := by
  have hform : Root.decode ctx (.obj [("version", version), ("suites", suites),
      ("variables", definitions), ("settings", settings)]) =
      (((((integer ctx version).below (.key "version")).map Root.mk).apply
        ((mapping Suite.decode ctx suites).below (.key "suites"))).apply
        ((mapping Definition.decode ctx definitions).below (.key "variables"))).apply
        ((Settings.decode ctx settings).below (.key "settings")) := rfl
  rw [hform] at h
  obtain ⟨f3, t, hf3, ht, rfl⟩ := apply_eq_valid h
  obtain ⟨f2, d, hf2, hd, rfl⟩ := apply_eq_valid hf3
  obtain ⟨f1, s, hf1, hs, rfl⟩ := apply_eq_valid hf2
  obtain ⟨v, hv, rfl⟩ := map_eq_valid hf1
  exact ⟨below_eq_valid hv, below_eq_valid hs, below_eq_valid hd, below_eq_valid ht⟩

/-- A root, and values of chats that belong to its definitions. -/
structure Migrated (r : Root) (chats : List (String × ChatValues)) : Prop where
  sound : r.Sound
  distinct : (Json.keys chats).Nodup
  values : ∀ c ∈ chats, Migration.MovedValues (fun id => id ∈ Json.keys r.definitions) c.2

open Migration in
theorem migrated_of_brought {m : Result} {suites : List (String × Json)}
    {moved : List Migration.Moved} {settings : Json} (h : Brought m suites moved settings) :
    Yields (fun r => Migrated r m.chats) (Root.decode ctx m.root) := by
  intro r hr
  rw [h.root] at hr
  obtain ⟨hversion, hsuites, hdefinitions, hsettings⟩ := Root.decode_parts hr
  have hids : ∀ id ∈ moved.map (·.id), ∃ s, id = .str s := by
    intro id hid
    obtain ⟨v, hv, rfl⟩ := List.mem_map.mp hid
    obtain ⟨x, hx⟩ := valid_of_all hdefinitions _ (List.mem_map_of_mem hv)
    obtain ⟨d, hd, -⟩ := map_eq_valid hx
    exact id_of_labelled (h.labelled v hv) hd
  have hkeys : Json.keys r.definitions = (moved.map (·.id)).map keyText := by
    rw [yields_mapping_keys _ _ hdefinitions]
    simp [Json.keys]
  refine ⟨⟨(Checked.valid.inj hversion).symm, ?_, ?_, ?_, ?_⟩, h.chats, fun c hc => ?_⟩
  · rw [yields_mapping_keys _ _ hsuites]
    exact h.suites
  · exact yields_mapping (P := fun s : String × Suite => s.2.Sound)
      (fun x _ => Suite.sound_of_decode) _ hsuites
  · rw [hkeys]
    exact nodup_keyText h.apart hids
  · exact Settings.sound_of_decode h.settings _ hsettings
  · obtain ⟨hne, hnodup, hdef⟩ := h.values c hc
    refine ⟨hne, hnodup, fun id hid => ?_⟩
    obtain ⟨v, hv, hsame⟩ := hdef id hid
    rw [hkeys, List.mem_map]
    exact ⟨v.id, List.mem_map_of_mem hv, by rw [eq_of_sameId hsame]; rfl⟩

/-! ## Texts that are read -/

/-- Each variable stands once in a document of values. -/
theorem nodup_keys_rawValues? {text : Option String} {raw : List (String × Json)}
    (h : rawValues? text = some raw) : (Json.keys raw).Nodup := by
  have hempty : (Json.obj []).Keyed := ⟨List.nodup_nil, trivial⟩
  unfold rawValues? at h
  cases text with
  | none =>
    cases h
    exact List.nodup_nil
  | some t =>
    dsimp only at h
    split at h
    · next fields hparse =>
      have hkeyed := Json.keyed_of_parseText hparse
      have hvalues : ((Json.find? fields "values").getD .null).Keyed := by
        cases hf : Json.find? fields "values" with
        | none => trivial
        | some x => exact Json.keyed_find? hkeyed.2 hf
      split at h
      · next vs hvs =>
        have hkept := hvs ▸ Migration.keyed_orElse hvalues hempty
        cases h
        exact hkept.1
      · cases h
    · cases h

theorem keys_readValues (raw : List (String × Json)) :
    (Json.keys (readValues ctx raw)).Sublist (Json.keys raw) := by
  unfold readValues
  induction raw with
  | nil => exact List.Sublist.slnil
  | cons v raw ih =>
    rw [List.filterMap_cons]
    split
    · exact ih.cons v.1
    · next w hw =>
      obtain ⟨x, -, rfl⟩ := Option.map_eq_some_iff.mp hw
      exact ih.cons_cons v.1

/-- A document that is of the current version stays as it is. -/
theorem root_of_migrate {fields : List (String × Json)} {m : Migration.Result}
    (h : Migration.migrate ctx (.obj fields) = .ok m) (hsource : m.source = none) :
    m.root = .obj fields := by
  have hfirst (hm : Migration.fromFirst ctx fields = .ok m) : m.source = some 1 := by
    unfold Migration.fromFirst at hm
    simp only at hm
    iterate 6 obtain ⟨_, -, hm⟩ := bind_eq_ok hm
    cases hm
    rfl
  have hn (n : Int) (hm : (if n = Root.currentVersion then
      Except.ok ⟨.obj fields, [], none, Migration.orderOf fields⟩
      else if n = 1 then Migration.fromFirst ctx fields
      else .error (.version (Migration.detectVersion fields).display)) = .ok m) :
      m.root = .obj fields := by
    split at hm
    · cases hm
      rfl
    · split at hm
      · rw [hfirst hm] at hsource
        cases hsource
      · cases hm
  exact hn _ h

/-- A root document that holds values besides is of version 1. -/
theorem older_of_ofText {t : String} {r : Root} {chats : List (String × ChatValues)}
    (h : RootReading.ofText ctx t = .root r (some chats)) :
    ∃ fields m, Json.parseText t = .ok (.obj fields) ∧
      Migration.detectVersion fields ≠ .int Root.currentVersion ∧
      Migration.fromFirst ctx fields = .ok m ∧ Root.decode ctx m.root = .valid r ∧
      m.chats = chats := by
  have hn {fields : List (String × Json)} {m : Migration.Result} {v : Json} (n : Int)
      (hv : v = .int Root.currentVersion → n = Root.currentVersion) (hsource : m.source.isSome = true)
      (hm : (if n = Root.currentVersion then
        Except.ok ⟨.obj fields, [], none, Migration.orderOf fields⟩
        else if n = 1 then Migration.fromFirst ctx fields
        else .error (.version v.display)) = .ok m) :
      v ≠ .int Root.currentVersion ∧ Migration.fromFirst ctx fields = .ok m := by
    split at hm
    · cases hm
      cases hsource
    · next hother =>
      split at hm
      · exact ⟨fun e => hother (hv e), hm⟩
      · cases hm
  unfold RootReading.ofText at h
  split at h
  · next fields hparse =>
    split at h
    · next m hm =>
      split at h
      · next r' hr =>
        injection h with hroot hchats
        obtain ⟨n, hsource, hn'⟩ := Option.map_eq_some_iff.mp hchats
        obtain ⟨hversion, hfirst⟩ := hn _ (fun e => by rw [e]) (by rw [hsource]; rfl) hm
        exact ⟨fields, m, hparse, hversion, hfirst, hroot ▸ hr, hn'⟩
      · cases h
    · cases h
    · cases h
    · cases h
  · cases h

/-- What a root document of an older version gives. -/
theorem migrated_of_ofText {t : String} {r : Root} {chats : List (String × ChatValues)}
    (h : RootReading.ofText ctx t = .root r (some chats)) : Migrated r chats := by
  obtain ⟨fields, m, hparse, -, hfirst, hr, rfl⟩ := older_of_ofText h
  obtain ⟨suites, moved, settings, hb⟩ :=
    Migration.brought_fromFirst (Json.keyed_of_parseText hparse) hfirst
  exact migrated_of_brought hb r hr

/-- A root that is read is sound but for its version. -/
theorem sound_of_ofText {t : String} {r : Root} {moved : Option (List (String × ChatValues))}
    (h : RootReading.ofText ctx t = .root r moved) :
    { r with version := Root.currentVersion }.Sound := by
  cases moved with
  | some chats =>
    have hsound := (migrated_of_ofText h).sound
    exact { hsound with version := rfl }
  | none =>
    unfold RootReading.ofText at h
    split at h
    · next fields hparse =>
      have hkeyed := Json.keyed_of_parseText hparse
      have hdistinct : Root.DistinctKeys fields :=
        { suites := fun _ hf => (Json.keyed_find? hkeyed.2 hf).1
          definitions := fun _ hf => (Json.keyed_find? hkeyed.2 hf).1
          settings := fun _ hf => Json.keyed_find? hkeyed.2 hf }
      split at h
      · next m hm =>
        split at h
        · next r' hr =>
          injection h with hroot hsource
          rw [root_of_migrate hm (Option.map_eq_none_iff.mp hsource)] at hr
          rw [← hroot]
          exact Root.sound_of_decode hdistinct r' hr
        · cases h
      · cases h
      · cases h
      · cases h
    · cases h

end TagLedger
