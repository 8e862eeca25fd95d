import TagLedger.Proofs.Filling
import TagLedger.Proofs.Overlong
import TagLedger.Proofs.Suited
import TagLedger.Proofs.Versions
import TagLedger.Session.Basic

/-!
# Variables that are called by their name

A name of a variable stands in double braces as it is, and no other variable has it. So a template
with nothing else becomes the text of the variable, if its chat is in memory, unless the name is that
of a builtin, which is a number, or stands for the chat, which is nothing without ranges. No name is
refused for that reason.

    definitions come from none → names are apart, and can be called           (callable_of_steps)
    the name alone in braces ↦ a number, nothing, or the text of the variable    (called_by_name)
-/

namespace TagLedger

variable {ds es : List (String × Definition)} {s t : Storage} {r : Root} {d : Definition}
  {chat id name : String} {vs : ChatValues}

/-! ## Names -/

/-- The text can be the name of a variable. -/
structure Legal (name : String) : Prop where
  ne : name.toList ≠ []
  chars : ∀ c ∈ name.toList, isNameChar c = true

theorem legal_of_nameProblem? {name : Option String} (h : nameProblem? name = none) :
    Legal (Text.trimmed (name.getD "")) := by
  unfold nameProblem? at h
  dsimp only at h
  split at h
  · cases h
  · next hne =>
    split at h
    · next hall =>
      refine ⟨?_, ?_⟩
      · rw [Text.trimmed, String.toList_ofList]
        exact fun hnil => hne (List.isEmpty_iff.mpr hnil)
      · rw [Text.trimmed, String.toList_ofList]
        exact List.all_eq_true.mp hall
    · cases h

/-- A character of a name is no brace, no at sign and not blank. -/
theorem isNameChar_plain {c : Char} (h : isNameChar c = true) :
    Template.isBrace c = false ∧ c ≠ '@' ∧ Text.isBlank c = false := by
  have hrange : (48 ≤ c.toNat ∧ c.toNat ≤ 57) ∨ (65 ≤ c.toNat ∧ c.toNat ≤ 90) ∨
      (97 ≤ c.toNat ∧ c.toNat ≤ 122) ∨ (0x4E00 ≤ c.toNat ∧ c.toNat ≤ 0x9FA5) := by
    have hupper (h : c.isUpper = true) : 65 ≤ c.toNat ∧ c.toNat ≤ 90 := of_decide_eq_true h
    have hlower (h : c.isLower = true) : 97 ≤ c.toNat ∧ c.toNat ≤ 122 :=
      (Bool.and_eq_true_iff.mp h).imp of_decide_eq_true of_decide_eq_true
    rcases Bool.or_eq_true_iff.mp h with halnum | hcommon
    · rcases Bool.or_eq_true_iff.mp halnum with halpha | hdigit
      · rcases Bool.or_eq_true_iff.mp halpha with hu | hl
        · exact .inr (.inl (hupper hu))
        · exact .inr (.inr (.inl (hlower hl)))
      · exact .inl (Char.isDigit_iff_toNat.mp hdigit)
    · exact .inr (.inr (.inr
        ((Bool.and_eq_true_iff.mp hcommon).imp of_decide_eq_true of_decide_eq_true)))
  have hne {e : Char} (he : c.toNat ≠ e.toNat) : c ≠ e := fun hc => he (congrArg Char.toNat hc)
  refine ⟨?_, hne (e := '@') ?_, ?_⟩
  · have hopen : c ≠ '\x7b' := hne (show c.toNat ≠ 123 by omega)
    have hclose : c ≠ '\x7d' := hne (show c.toNat ≠ 125 by omega)
    simp [Template.isBrace, hopen, hclose]
  · change c.toNat ≠ 64
    omega
  · simp only [Text.isBlank, Text.isSpace, Bool.or_eq_false_iff, Bool.and_eq_false_iff,
      decide_eq_false_iff_not, beq_eq_false_iff_ne]
    omega

/-- Names tell the definitions apart, and each can stand in double braces. -/
structure Callable (ds : List (String × Definition)) : Prop where
  apart : Json.Apart Definition.name ds
  legal : ∀ id d, Json.find? ds id = some d → Legal d.name

namespace Callable

theorem nil : Callable [] := ⟨.nil _, nofun⟩

theorem insert (h : Callable ds) (hlegal : Legal d.name)
    (hname : ∀ j e, Json.find? ds j = some e → e.name = d.name → j = id) :
    Callable (Json.insert ds id d) where
  apart := h.apart.insert hname
  legal i e he := by
    rw [Json.find?_insert] at he
    split at he
    · exact Option.some.inj he ▸ hlegal
    · exact h.legal i e he

theorem step (h : Callable ds) (hds : Unambiguous ds) (hstep : DefinitionStep ds es) :
    Callable es := by
  cases hstep with
  | @created id name tag mode now hname htag hnamed htagged =>
    refine h.insert (legal_of_nameProblem? hname) fun j e he hsame => ?_
    have hnone := List.find?_eq_none.mp hnamed e (List.mem_map_of_mem (Json.mem_of_find? he))
    exact absurd (beq_iff_eq.mpr hsame) hnone
  | @renamed id d hd name hname now =>
    cases name with
    | none => exact h.insert (h.legal id d hd) fun j e he hsame => h.apart j id e d he hd hsame
    | some new =>
      change Variables.renameProblem? ds id new = none at hname
      unfold Variables.renameProblem? at hname
      cases hproblem : nameProblem? (some new) with
      | some p =>
        rw [hproblem] at hname
        cases hname
      | none =>
        rw [hproblem] at hname
        have hlegal := legal_of_nameProblem? hproblem
        rw [Option.getD_some] at hlegal
        change Callable (Json.insert ds id { d with name := Text.trimmed new, updatedAt := now })
        refine h.insert hlegal fun j e he (hnew : e.name = Text.trimmed new) => ?_
        -- whoever has the name already is the one that is found by it
        have hfound : Variables.named? ds e.name = some e := hds.find_apart h.apart he
        rw [hnew] at hfound
        simp only [Option.orElse, hfound] at hname
        split at hname
        · next hid => exact (hds.id_eq j e he).symm.trans hid
        · cases hname
  | removed id =>
    refine ⟨h.apart.filter (· != id), fun i e he => ?_⟩
    rw [Json.find?_filter (· != id)] at he
    split at he
    · exact h.legal i e he
    · contradiction

theorem named?_eq (h : Callable ds) (hds : Unambiguous ds) (hd : Json.find? ds id = some d) :
    Variables.named? ds d.name = some d := hds.find_apart h.apart hd

end Callable

theorem callable_of_steps (h : Relation.ReflTransGen DefinitionStep [] ds) : Callable ds := by
  induction h with
  | refl => exact .nil
  | tail hsteps hstep ih => exact ih.step (unambiguous_of_steps hsteps) hstep

/-! ## A name alone in a template -/

namespace Template

/-- A name in double braces. -/
def call (name : String) : String := "\x7b\x7b" ++ name ++ "\x7d\x7d"

theorem toList_call (name : String) : (call name).toList = Reference.source ⟨name.toList, []⟩ := by
  unfold call Reference.source
  rw [String.toList_append, String.toList_append]
  rfl

theorem wellFormed_call (h : Legal name) : Reference.WellFormed ⟨name.toList, []⟩ where
  name_ne := h.ne
  name_chars c hc := ⟨(isNameChar_plain (h.chars c hc)).1, (isNameChar_plain (h.chars c hc)).2.1⟩
  ranges := .inl rfl

theorem key_call (h : Legal name) : Reference.key ⟨name.toList, []⟩ = name := by
  unfold Reference.key
  rw [Text.trim_of_unblank fun c hc => (isNameChar_plain (h.chars c hc)).2.2, String.ofList_toList]

/-- What a name alone in double braces becomes. -/
theorem resolve_call (env : Environment) {rounds : Int} (hrounds : 0 < rounds) (h : Legal name) :
    resolve env rounds (call name) =
      if name.toList ∈ builtins then (liftNumeral (numeral env.lastFloor)).map String.ofList
      else if name ∈ env.aliases then .ok ""
      else .ok (((env.lookup name).map fun v => joinBlocks (contents v [])).getD "") := by
  obtain ⟨n, hn⟩ : ∃ n, rounds.toNat = n + 1 := ⟨rounds.toNat - 1, by omega⟩
  unfold resolve
  rw [toList_call]
  split
  · next hbuiltin =>
    rw [resolveBuiltins, hn, expand_builtin n hbuiltin]
    cases hnumeral : numeral env.lastFloor with
    | error e => rfl
    | ok t =>
      have hplain : Text.Unmarked referenceMark t [] := fun b hb _ => by
        rw [List.append_nil]
        cases hmark : referenceMark b with
        | none => rfl
        | some found =>
          obtain ⟨u, rfl⟩ := exists_open hmark
          exact absurd (hb.subset List.mem_cons_self) (plain_numeral hnumeral).1
      change (resolveReferences env t >>= _) = _
      unfold resolveReferences parts
      rw [Text.fill_unmarked _ hplain]
      rfl
  · next hbuiltin =>
    have hat : '@' ∉ Reference.source ⟨name.toList, []⟩ := by
      have hname : '@' ∉ name.toList := fun hc => (isNameChar_plain (h.chars _ hc)).2.1 rfl
      simp [Reference.source, hname]
    obtain ⟨hrounds, hparts⟩ := parts_source (wellFormed_call h)
      (fun _ => hbuiltin) (.inl hat) rounds env.lastFloor
    rw [hrounds]
    change (resolveReferences env _ >>= _) = _
    unfold resolveReferences
    rw [hparts, Text.fill_mark]
    have hkey := key_call h
    split
    · next halias =>
      have hvoid : Reference.Void env ⟨name.toList, []⟩ :=
        .malformed (.inl (hkey.symm ▸ halias)) fun token htoken => by
          rw [List.mem_singleton.mp htoken]
          rfl
      rw [hvoid.text]
      rfl
    · next halias =>
      rw [text_of_variable (hkey.symm ▸ halias), hkey, variableText]
      cases env.lookup name with
      | none => rfl
      | some v =>
        have hread : liftNumeral (readRanges []) = .ok [] := rfl
        dsimp only
        rw [hread]
        change Except.ok (String.ofList (joinBlocks (contents v [])).toList) = _
        rw [String.ofList_toList]
        rfl

end Template

/-! ## The text of a variable -/

/-- The text of a value that is shown as a whole; nothing if there is none. -/
def Value.shown (v : Option Value) : String :=
  (v.map fun v => joinBlocks (Template.contents v [])).getD ""

theorem Value.shown_slot (x : Slot) : Value.shown (some (.slot x)) = x.current := by
  change joinBlocks (if x.current = "" then [] else [x.current]) = x.current
  split
  · next hempty => exact hempty.symm
  · rfl

/-- The text of a variable whose value in memory is of the kind that its mode keeps. -/
theorem Variables.ended_text (hr : s.store.root = some r)
    (hd : Json.find? r.definitions id = some d) (hu : s.store.usable? chat = some vs)
    (hfits : ∀ v, Json.find? vs id = some v → v.fits d.mode = true) :
    ended (Variables.text id chat) s = (.ok (Value.shown (Json.find? vs id)), s) := by
  unfold Variables.text
  rw [ended_bind_ok (Variables.ended_find hr id), hd]
  dsimp only
  cases hmode : d.mode with
  | stack =>
    dsimp only
    rw [ended_bind_ok (Variables.ended_stack_usable hu id)]
    unfold ChatValues.stack
    cases hv : Json.find? vs id with
    | none => rfl
    | some v =>
      cases v with
      | stack x => rfl
      | slot x => exact absurd (hfits _ hv) (by rw [hmode]; exact nofun)
  | replace =>
    dsimp only
    rw [ended_bind_ok (Variables.ended_slot_usable hu id)]
    unfold ChatValues.slot
    cases hv : Json.find? vs id with
    | none => rfl
    | some v =>
      cases v with
      | stack x => exact absurd (hfits _ hv) (by rw [hmode]; exact nofun)
      | slot x =>
        rw [Value.shown_slot]
        rfl

/-- What the name alone in double braces becomes for the messages of a chat, where the variable of
that name has this text. -/
structure Session.Calls (u : Session) (chat : String) (messages : List Message)
    (name text : String) : Prop where
  ofVariable : name.toList ∉ Template.builtins → name ∉ u.templates.aliases →
    ended (Session.resolve chat messages (Template.call name)) u = (.ok text, u)
  ofBuiltin : name.toList ∈ Template.builtins → ∀ number,
    Template.numeral messages.length = .ok number →
    ended (Session.resolve chat messages (Template.call name)) u = (.ok (String.ofList number), u)
  ofChat : name.toList ∉ Template.builtins → name ∈ u.templates.aliases →
    ended (Session.resolve chat messages (Template.call name)) u = (.ok "", u)

theorem Session.calls {u : Session} (hr : u.storage.store.root = some r)
    (hds : Unambiguous r.definitions) (hcallable : Callable r.definitions)
    (hd : Json.find? r.definitions id = some d)
    (hu : u.storage.store.usable? chat = some vs) (hrounds : 0 < u.templates.maxRounds)
    (messages : List Message) :
    u.Calls chat messages d.name (Value.shown (Json.find? vs id)) := by
  have hlookup : (u.environment chat messages).lookup d.name = Json.find? vs id := by
    have hnamed : Variables.named? u.storage.store.definitions d.name = some d := by
      unfold Store.definitions
      rw [hr]
      exact hcallable.named?_eq hds hd
    have hcached : u.storage.store.cached? chat = some vs :=
      (Store.usable?_of_not_degraded (Store.not_degraded_of_usable hu)).symm.trans hu
    change (Variables.lookup? u.storage.store d.name chat).bind (·.2) = _
    unfold Variables.lookup? Store.value?
    rw [hnamed, hcached]
    change Json.find? vs d.id = _
    rw [hds.id_eq id d hd]
  have haliases : (u.environment chat messages).aliases = u.templates.aliases := rfl
  have hresolved := Template.resolve_call (u.environment chat messages) hrounds
    (hcallable.legal id d hd)
  rw [haliases, hlookup] at hresolved
  have hrun {a : Except Template.Fault String}
      (h : Template.resolve (u.environment chat messages) u.templates.maxRounds
        (Template.call d.name) = a) :
      ended (Session.resolve chat messages (Template.call d.name)) u =
        ended (.ofExcept .ofTemplate a) u := by
    subst h
    rfl
  refine ⟨fun hbuiltin halias => ?_, fun hbuiltin number hnumber => ?_, fun hbuiltin halias => ?_⟩
  · rw [if_neg hbuiltin, if_neg halias] at hresolved
    exact hrun hresolved
  · rw [if_pos hbuiltin] at hresolved
    change _ = (Template.liftNumeral (Template.numeral messages.length)).map String.ofList
      at hresolved
    rw [hnumber] at hresolved
    exact hrun hresolved
  · rw [if_neg hbuiltin, if_pos halias] at hresolved
    exact hrun hresolved

/-- In every state that is reached from an empty store in the modes of the variables, the name of a
variable alone in double braces becomes the text of the variable, unless the name is that of a
builtin or stands for the chat. -/
theorem called_by_name (hnew : s.store.root = none) (hvalues : s.store.values = [])
    (hempty : s.shelf.documents = []) (hrun : ModedRun (ended Storage.load s).2 t) :
    ∃ ds, t.Lists ds ∧ ∀ id d chat vs, Json.find? ds id = some d →
      t.store.usable? chat = some vs →
      ∃ text, ended (Variables.text d.id chat) t = (.ok text, t) ∧
        ∀ (u : Session) (messages : List Message), u.storage = t → 0 < u.templates.maxRounds →
          u.Calls chat messages d.name text := by
  obtain ⟨ds, hsteps, hsuited⟩ := (Storage.Suited.ofNew hnew hvalues hempty).run hrun
  obtain ⟨r, hr, rfl, -⟩ := hsuited.root
  have hds := unambiguous_of_steps hsteps
  refine ⟨r.definitions, hsuited.lists, fun id d chat vs hd hu => ?_⟩
  rw [hds.id_eq id d hd]
  refine ⟨_, Variables.ended_text hr hd hu fun v hv => ?_, fun u messages hsame hrounds => ?_⟩
  · obtain ⟨e, he, hfits⟩ := (hsuited.usable hu).fits _ (Json.mem_of_find? hv)
    exact Option.some.inj (hd.symm.trans he) ▸ hfits
  · subst hsame
    exact Session.calls hr hds (callable_of_steps hsteps) hd hu hrounds messages

/-- A session without documents. -/
def Session.bare : Session := .ofConfig .standard (.ofDocuments []) 0 (.ofReplies [])

/-- A variable with a name that stands for the chat, and a content for it. -/
def Storage.overshadowed : Storage :=
  (ended Storage.load Session.bare.storage).2.asked
    [.ofVariables (.create (some "chat") (some "[weather]") (some .replace)),
      .ofVariables (.put "var_0qyxjj" "c" "Rain." "3")]

theorem modedRun_overshadowed :
    ModedRun (ended Storage.load Session.bare.storage).2 .overshadowed := by
  refine .tail (.tail .refl (.ask _ ?_)) (.ask _ ?_)
  · change Json.find? _ _ = none
    decide +kernel
  · have hmode : (Json.find? ((ended Storage.load Session.bare.storage).2.asked
        [.ofVariables (.create (some "chat") (some "[weather]") (some .replace))]).store.definitions
          "var_0qyxjj").map Definition.mode = some .replace := by decide +kernel
    exact Option.map_eq_some_iff.mp hmode

/-- A variable that is called as the chat is has a text, but its name alone becomes nothing. -/
theorem called_by_name_chat : ∃ (s t : Storage) (u : Session) (d : Definition) (vs : ChatValues),
    s.store.root = none ∧ s.store.values = [] ∧ s.shelf.documents = [] ∧
      ModedRun (ended Storage.load s).2 t ∧ u.storage = t ∧ 0 < u.templates.maxRounds ∧
      Json.find? t.store.definitions d.id = some d ∧ d.name = "chat" ∧
      t.store.usable? "c" = some vs ∧
      ended (Variables.text d.id "c") t = (.ok "Rain.", t) ∧
      ended (Session.resolve "c" [] (Template.call d.name)) u = (.ok "", u) := by
  let t := Storage.overshadowed
  let u : Session := { Session.bare with storage := t }
  let d : Definition := ⟨"var_0qyxjj", "chat", "[weather]", .replace, 0, 0⟩
  obtain ⟨ds, ⟨r, hr, rfl⟩, hcalled⟩ := called_by_name (s := Session.bare.storage) rfl rfl rfl
    modedRun_overshadowed
  have hdefinitions : t.store.definitions = r.definitions := by
    unfold Store.definitions
    rw [hr]
  have hd : Json.find? t.store.definitions d.id = some d := by decide +kernel
  have hu : t.store.usable? "c" = some [(d.id, .slot ⟨"Rain.", some "3", none, [], -1⟩)] := by
    decide +kernel
  obtain ⟨text, htext, hcalls⟩ := hcalled d.id d "c" _ (hdefinitions ▸ hd) hu
  have hshown : (ended (Variables.text d.id "c") t).1 = .ok "Rain." := by decide +kernel
  rw [htext] at hshown
  cases hshown
  exact ⟨Session.bare.storage, t, u, d, _, rfl, rfl, rfl, modedRun_overshadowed, rfl, by decide, hd,
    rfl, hu, htext, (hcalls u [] rfl (by decide)).ofChat (by decide) (by decide)⟩

end TagLedger
