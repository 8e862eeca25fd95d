import Mathlib.Data.List.DropRight
import TagLedger.Config.File
import TagLedger.Proofs.Documents

/-!
# Settings that are saved and read again

A value that reading put into its normal form is read as itself: a trimmed name, a path, an address
without slashes at the end. The one exception is an address that is nothing but the name of a
protocol and slashes. It is taken, loses all its slashes, and what is left is refused. Settings with
a number that is `nan` are read again, but do not agree with themselves.

    Schema.Yields (ReadsBack path .str) (path ctx j)                                  (yields_path)
    Config.decode ctx' c.document, Config.load path (.text c.save)    (Config.read_again)
-/

namespace TagLedger

open Schema

/-! ## Ends of texts -/

namespace Text

theorem dropEndWhile_idem (p : Char → Bool) (s : List Char) :
    dropEndWhile p (dropEndWhile p s) = dropEndWhile p s :=
  List.rdropWhile_idempotent p s

theorem dropEndWhile_append (p : Char → Bool) (s t : List Char) : dropEndWhile p (s ++ t) =
    if dropEndWhile p t = [] then dropEndWhile p s else s ++ dropEndWhile p t := by
  unfold dropEndWhile
  rw [List.reverse_append, List.dropWhile_append]
  by_cases h : t.reverse.dropWhile p = [] <;> simp [h]

theorem trimStart_trim (s : List Char) : trimStart (trim s) = trim s := by
  refine List.dropWhile_eq_self_iff.mpr fun h => ?_
  have hprefix : trim s <+: trimStart s := List.rdropWhile_prefix isBlank (trimStart s)
  have hne : trimStart s ≠ [] := hprefix.ne_nil (List.ne_nil_of_length_pos h)
  have hhead : (trim s)[0] = (trimStart s).head hne :=
    (List.IsPrefix.getElem hprefix h).trans (List.head_eq_getElem hne).symm
  rw [hhead]
  exact Bool.eq_false_iff.mp (List.head_dropWhile_not isBlank hne)

/-- Trimming leaves nothing to trim. -/
theorem trim_trim (s : List Char) : trim (trim s) = trim s := by
  change trimEnd (trimStart (trim s)) = trim s
  rw [trimStart_trim]
  exact dropEndWhile_idem isBlank (trimStart s)

theorem trimmed_trimmed (s : String) : trimmed (trimmed s) = trimmed s := by
  unfold trimmed
  rw [String.toList_ofList, trim_trim]

end Text

/-! ## Addresses -/

/-- Nothing but the name of a protocol. -/
def Bare (s : String) : Prop := s = "http:" ∨ s = "https:"

instance : DecidablePred Bare := fun s => inferInstanceAs (Decidable (s = "http:" ∨ s = "https:"))

/-- Begins as an address of the web does. -/
def isAddress (s : List Char) : Bool :=
  "http://".toList.isPrefixOf s || "https://".toList.isPrefixOf s

theorem withoutSlashes_idem (s : String) :
    withoutSlashes (withoutSlashes s) = withoutSlashes s := by
  unfold withoutSlashes
  rw [String.toList_ofList, Text.dropEndWhile_idem]

/-- Without its slashes an address still is one, unless slashes were all it had. -/
theorem bare_or_isAddress {s : String} (h : isAddress s.toList = true) :
    Bare (withoutSlashes s) ∨ isAddress (withoutSlashes s).toList = true := by
  unfold withoutSlashes
  rw [String.toList_ofList]
  rcases Bool.or_eq_true_iff.mp h with h | h <;>
    obtain ⟨t, ht⟩ := List.isPrefixOf_iff_prefix.mp h <;>
    rw [← ht, Text.dropEndWhile_append] <;> split
  · exact .inl (.inl (by decide +kernel))
  · exact .inr (Bool.or_eq_true_iff.mpr (.inl (List.isPrefixOf_iff_prefix.mpr ⟨_, rfl⟩)))
  · exact .inl (.inr (by decide +kernel))
  · exact .inr (Bool.or_eq_true_iff.mpr (.inr (List.isPrefixOf_iff_prefix.mpr ⟨_, rfl⟩)))

/-! ## Paths -/

/-- A part of a path: no empty one, none for the same place, and no slash in it. -/
def IsPart (p : List Char) : Prop := p ≠ [] ∧ p ≠ ['.'] ∧ '/' ∉ p

theorem isPart_of_mem {p s : List Char} (h : p ∈ pathParts s) : IsPart p := by
  have hslash : ∀ (s part : List Char), '/' ∉ part → ∀ p ∈ pathParts.go part s, '/' ∉ p := by
    intro s
    induction s with
    | nil =>
      intro part hpart p hp
      rw [List.mem_singleton.mp hp, List.mem_reverse]
      exact hpart
    | cons c r ih =>
      intro part hpart p hp
      rw [pathParts.go] at hp
      split at hp
      · rcases List.mem_cons.mp hp with rfl | hp
        · rwa [List.mem_reverse]
        · exact ih [] List.not_mem_nil p hp
      · next hc =>
        refine ih (c :: part) (fun h => ?_) p hp
        rcases List.mem_cons.mp h with rfl | h
        · exact hc rfl
        · exact hpart h
  obtain ⟨hmem, hkept⟩ := List.mem_filter.mp h
  simp only [Bool.and_eq_true, Bool.not_eq_true', List.isEmpty_eq_false_iff, bne_iff_ne] at hkept
  exact ⟨hkept.1, hkept.2, hslash s [] List.not_mem_nil p hmem⟩

theorem go_append {p : List Char} (h : '/' ∉ p) (part s : List Char) :
    pathParts.go part (p ++ s) = pathParts.go (p.reverse ++ part) s := by
  induction p generalizing part with
  | nil => rfl
  | cons c r ih =>
    rw [List.mem_cons, not_or] at h
    have hc : (c == '/') = false := beq_false_of_ne (Ne.symm h.1)
    rw [List.cons_append, pathParts.go, hc, if_neg Bool.false_ne_true, ih h.2,
      List.reverse_cons, List.append_assoc]
    rfl

/-- The parts that are written with slashes between them are the parts that are read. -/
theorem go_intersperse {ps : List (List Char)} (hne : ps ≠ []) (h : ∀ p ∈ ps, '/' ∉ p) :
    pathParts.go [] (List.intersperse ['/'] ps).flatten = ps := by
  induction ps with
  | nil => exact absurd rfl hne
  | cons p r ih =>
    have hp := h p List.mem_cons_self
    cases r with
    | nil =>
      have hgo := go_append hp [] []
      rw [List.append_nil] at hgo
      simp [hgo, pathParts.go]
    | cons q r =>
      rw [List.intersperse_cons_cons, List.flatten_cons, List.flatten_cons, go_append hp]
      change (p.reverse ++ []).reverse ::
        pathParts.go [] (List.intersperse ['/'] (q :: r)).flatten = _
      rw [ih (List.cons_ne_nil q r) fun x hx => h x (List.mem_cons_of_mem p hx)]
      simp

theorem pathParts_intersperse {ps : List (List Char)} (h : ∀ p ∈ ps, IsPart p) :
    pathParts (List.intersperse ['/'] ps).flatten = ps := by
  cases ps with
  | nil => rfl
  | cons p r =>
    unfold pathParts
    rw [go_intersperse (List.cons_ne_nil p r) fun q hq => (h q hq).2.2]
    refine List.filter_eq_self.mpr fun q hq => ?_
    obtain ⟨hempty, hdot, -⟩ := h q hq
    simp [hempty, hdot]

theorem pathParts_slash (s : List Char) : pathParts ('/' :: s) = pathParts s := rfl

/-- The parts between slashes do not begin with one. -/
theorem takeWhile_intersperse {ps : List (List Char)} (h : ∀ p ∈ ps, IsPart p) :
    (List.intersperse ['/'] ps).flatten.takeWhile (· == '/') = [] := by
  cases ps with
  | nil => rfl
  | cons p r =>
    obtain ⟨hempty, -, hslash⟩ := h p List.mem_cons_self
    cases p with
    | nil => exact absurd rfl hempty
    | cons c t =>
      have hc : (c == '/') = false := beq_false_of_ne fun e => hslash (e ▸ List.mem_cons_self)
      cases r <;> simp [List.intersperse, hc]

/-- The slashes in front of a path in normal form. -/
def leadOf (slashes : Nat) : List Char :=
  if slashes = 0 then [] else if slashes = 2 then ['/', '/'] else ['/']

theorem normalPath_eq (s : String) : normalPath s =
    let whole := leadOf (s.toList.takeWhile (· == '/')).length ++
      (List.intersperse ['/'] (pathParts s.toList)).flatten
    if whole.isEmpty then "." else String.ofList whole := rfl

theorem leadOf_cases (n : Nat) : leadOf n = [] ∨ leadOf n = ['/'] ∨ leadOf n = ['/', '/'] := by
  unfold leadOf
  split
  · exact .inl rfl
  · split
    · exact .inr (.inr rfl)
    · exact .inr (.inl rfl)

/-- A path in normal form is its own normal form. -/
theorem normalPath_idem (s : String) : normalPath (normalPath s) = normalPath s := by
  have hparts : ∀ p ∈ pathParts s.toList, IsPart p := fun p => isPart_of_mem
  rw [normalPath_eq s]
  generalize pathParts s.toList = ps at hparts
  have hbody := takeWhile_intersperse hparts
  have hread := pathParts_intersperse hparts
  generalize (s.toList.takeWhile (· == '/')).length = n
  generalize hb : (List.intersperse ['/'] ps).flatten = body at hbody hread
  dsimp only
  split
  · decide +kernel
  · next hne =>
    have hlead : leadOf ((leadOf n ++ body).takeWhile (· == '/')).length = leadOf n := by
      rcases leadOf_cases n with h | h | h <;> rw [h] <;> simp [hbody, leadOf]
    have hagain : pathParts (leadOf n ++ body) = ps := by
      rcases leadOf_cases n with h | h | h <;> rw [h] <;> exact hread
    rw [normalPath_eq, String.toList_ofList, hlead, hagain, hb]
    dsimp only
    rw [if_neg hne]

/-! ## Values that are read as themselves -/

section Decoders

variable {α : Type} {ctx : Context} {j : Json}

/-- A value is read from what is written for it. -/
def ReadsBack (d : Decoder α) (write : α → Json) (a : α) : Prop := ∀ ctx, d ctx (write a) = .valid a

theorem yields_where_readsBack {d : Decoder α} {write : α → Json} {ok : α → Bool} {kind : IssueKind}
    (h : Schema.Yields (ReadsBack d write) (d ctx j)) :
    Schema.Yields (ReadsBack (d.where ok kind) write) (d.where ok kind ctx j) := by
  intro a ha ctx'
  unfold Decoder.where at ha ⊢
  cases hd : d ctx j with
  | invalid is =>
    rw [hd] at ha
    cases ha
  | valid b =>
    rw [hd] at ha
    change (if ok b then Checked.valid b else Checked.issue kind) = .valid a at ha
    split at ha
    · next hok =>
      cases ha
      rw [h a hd ctx']
      exact if_pos hok
    · cases ha

theorem yields_text_readsBack : Schema.Yields (ReadsBack text .str) (text ctx j) :=
  fun _ _ _ => rfl

theorem yields_number_readsBack : Schema.Yields (ReadsBack number .float) (number ctx j) :=
  fun _ _ _ => rfl

theorem yields_integer_readsBack : Schema.Yields (ReadsBack integer .int) (integer ctx j) :=
  fun _ _ _ => rfl

theorem yields_positive : Schema.Yields (ReadsBack positive .int) (positive ctx j) :=
  yields_where_readsBack yields_integer_readsBack

theorem yields_between (low high : Nat) :
    Schema.Yields (ReadsBack (between low high) .float) (between low high ctx j) :=
  yields_where_readsBack (yields_where_readsBack yields_number_readsBack)

theorem yields_path : Schema.Yields (ReadsBack path .str) (path ctx j) := by
  intro a ha ctx'
  cases j with
  | str s =>
    cases ha
    exact congrArg Checked.valid (normalPath_idem s)
  | _ => cases ha

theorem yields_address :
    Schema.Yields (fun s => Bare s ∨ ReadsBack address .str s) (address ctx j) := by
  intro a ha
  cases j with
  | str s =>
    change (if isAddress s.toList then Checked.valid (withoutSlashes s) else _) = .valid a at ha
    split at ha
    · next hs =>
      cases ha
      refine (bare_or_isAddress hs).imp id fun h ctx' => ?_
      refine (if_pos h).trans ?_
      rw [withoutSlashes_idem]
    · cases ha
  | _ => cases ha

/-- An address that is bare is refused. -/
theorem address_bare {s : String} (h : Bare s) (ctx : Context) : address ctx (.str s) =
    .issue (.rule "base_url must start with http:// or https://") := by
  rcases h with rfl | rfl <;> rfl

theorem yields_aliasList :
    Schema.Yields (ReadsBack aliasList fun names => .arr (names.map .str)) (aliasList ctx j) := by
  intro out hout ctx'
  unfold aliasList at hout ⊢
  cases hj : list text ctx j with
  | invalid is =>
    rw [hj] at hout
    cases hout
  | valid names =>
    rw [hj] at hout
    change (if ((names.map Text.trimmed).filter (· != "")).isEmpty then Checked.issue _ else _) =
      Checked.valid out at hout
    split at hout
    · cases hout
    · next hsome =>
      split at hout
      · cases hout
      · next hfree =>
        cases hout
        -- what is left is trimmed, and none of it is blank
        have htrimmed : ((names.map Text.trimmed).filter (· != "")).map Text.trimmed =
            (names.map Text.trimmed).filter (· != "") := by
          refine (List.map_congr_left (g := id) fun a ha => ?_).trans (List.map_id _)
          obtain ⟨b, -, rfl⟩ := List.mem_map.mp (List.mem_filter.mp ha).1
          exact Text.trimmed_trimmed b
        rw [list_documents fun _ _ => rfl]
        dsimp only [Checked.andThen]
        rw [htrimmed, List.filter_filter]
        simp only [Bool.and_self]
        rw [if_neg hsome, hfree]

end Decoders


/-! ## Records -/

section Records

variable {ctx : Context} {j : Json}

structure CompletionConfig.Settled (c : CompletionConfig) : Prop where
  address : Bare c.baseUrl ∨ ReadsBack address .str c.baseUrl
  maxTokens : ReadsBack (positive.where (· ≤ 32768) (.greater 32768)) .int c.maxTokens
  temperature : ReadsBack (between 0 2) .float c.temperature
  timeout : ReadsBack positive .int c.timeoutSeconds

structure StorageConfig.Settled (c : StorageConfig) : Prop where
  directory : ReadsBack path .str c.directory
  rootDocument : ReadsBack documentName .str c.rootDocument
  debounce : ReadsBack (between 0 30) .float c.debounceSeconds

structure TemplateConfig.Settled (c : TemplateConfig) : Prop where
  aliases : ReadsBack aliasList (fun names => .arr (names.map .str)) c.aliases
  maxRounds : ReadsBack (positive.where (· ≤ 100) (.greater 100)) .int c.maxRounds

structure ServiceConfig.Settled (c : ServiceConfig) : Prop where
  port : ReadsBack (positive.where (· < 65536) (.notLess 65536)) .int c.port

structure Config.Settled (c : Config) : Prop where
  completion : c.completion.Settled
  storage : c.storage.Settled
  templates : c.templates.Settled
  service : c.service.Settled

theorem readsBack_between {low high : Nat} {x : Binary64}
    (hhigh : (Binary64.ofNat high).lt x = false) (hlow : x.lt (Binary64.ofNat low) = false) :
    ReadsBack (between low high) .float x := by
  intro ctx
  simp [between, Decoder.where, number, Checked.andThen, hhigh, hlow]

theorem CompletionConfig.settled_standard : CompletionConfig.standard.Settled :=
  ⟨.inr fun _ => rfl, fun _ => rfl, readsBack_between (by decide +kernel) (by decide +kernel),
    fun _ => rfl⟩

theorem StorageConfig.settled_standard : StorageConfig.standard.Settled :=
  ⟨fun _ => rfl, fun _ => rfl, readsBack_between (by decide +kernel) (by decide +kernel)⟩

theorem TemplateConfig.settled_standard : TemplateConfig.standard.Settled :=
  ⟨fun _ => rfl, fun _ => rfl⟩

theorem ServiceConfig.settled_standard : ServiceConfig.standard.Settled := ⟨fun _ => rfl⟩

theorem yields_completion :
    Schema.Yields CompletionConfig.Settled (CompletionConfig.decode ctx j) := by
  have hdefault := CompletionConfig.settled_standard
  refine yields_record fun entries _ => ?_
  refine yields_seq (Q := ReadsBack positive .int) ?_
    (yields_optional hdefault.timeout fun _ _ _ _ => yields_positive)
  refine yields_seq (Q := ReadsBack (between 0 2) .float) ?_
    (yields_optional hdefault.temperature fun _ _ _ _ => yields_between 0 2)
  refine yields_seq (Q := ReadsBack (positive.where (· ≤ 32768) (.greater 32768)) .int) ?_
    (yields_optional hdefault.maxTokens fun _ _ _ _ => yields_where_readsBack yields_positive)
  refine yields_seq_any (yields_seq_any ?_)
  refine yields_seq (Q := fun s => Bare s ∨ ReadsBack address .str s) ?_
    (yields_optional hdefault.address fun _ _ _ _ => yields_address)
  exact yields_map fun _ _ _ haddress _ _ _ hmax _ htemperature _ htimeout =>
    ⟨haddress, hmax, htemperature, htimeout⟩

theorem yields_storage : Schema.Yields StorageConfig.Settled (StorageConfig.decode ctx j) := by
  have hdefault := StorageConfig.settled_standard
  refine yields_record fun entries _ => ?_
  refine yields_seq (Q := ReadsBack (between 0 30) .float) ?_
    (yields_optional hdefault.debounce fun _ _ _ _ => yields_between 0 30)
  refine yields_seq_any ?_
  refine yields_seq (Q := ReadsBack documentName .str) ?_
    (yields_optional hdefault.rootDocument fun _ _ _ _ =>
      yields_where_readsBack yields_text_readsBack)
  refine yields_map (yields_optional ?_ fun _ _ _ _ directory hdirectory => ?_)
  · exact fun _ hroot _ _ hdebounce => ⟨hdefault.directory, hroot, hdebounce⟩
  · exact fun _ hroot _ _ hdebounce => ⟨yields_path directory hdirectory, hroot, hdebounce⟩

theorem yields_templates : Schema.Yields TemplateConfig.Settled (TemplateConfig.decode ctx j) := by
  have hdefault := TemplateConfig.settled_standard
  refine yields_record fun entries _ => ?_
  refine yields_seq (Q := ReadsBack (positive.where (· ≤ 100) (.greater 100)) .int) ?_
    (yields_optional hdefault.maxRounds fun _ _ _ _ => yields_where_readsBack yields_positive)
  refine yields_seq_any (yields_map (yields_optional ?_ fun _ _ _ _ names hnames => ?_))
  · exact fun _ _ hrounds => ⟨hdefault.aliases, hrounds⟩
  · exact fun _ _ hrounds => ⟨yields_aliasList names hnames, hrounds⟩

theorem yields_service : Schema.Yields ServiceConfig.Settled (ServiceConfig.decode ctx j) := by
  refine yields_record fun entries _ => ?_
  refine yields_seq (Q := ReadsBack (positive.where (· < 65536) (.notLess 65536)) .int)
    (yields_map fun _ _ _ hport => ⟨hport⟩) ?_
  exact yields_optional ServiceConfig.settled_standard.port fun _ _ _ _ =>
    yields_where_readsBack yields_positive

theorem Config.settled_of_decode : Schema.Yields Config.Settled (Config.decode ctx j) := by
  refine yields_record fun entries _ => ?_
  refine yields_seq (Q := ServiceConfig.Settled) ?_
    (yields_optional ServiceConfig.settled_standard fun _ _ _ _ => yields_service)
  refine yields_seq_any ?_
  refine yields_seq (Q := TemplateConfig.Settled) ?_
    (yields_optional TemplateConfig.settled_standard fun _ _ _ _ => yields_templates)
  refine yields_seq (Q := StorageConfig.Settled) ?_
    (yields_optional StorageConfig.settled_standard fun _ _ _ _ => yields_storage)
  refine yields_seq (Q := CompletionConfig.Settled) ?_
    (yields_optional CompletionConfig.settled_standard fun _ _ _ _ => yields_completion)
  exact yields_map fun _ _ _ hcompletion _ hstorage _ htemplates _ _ hservice =>
    ⟨hcompletion, hstorage, htemplates, hservice⟩

/-! ## Documents -/

theorem provider_document (p : Provider) : oneOf Provider.named ctx (.str p.text) = .valid p := by
  cases p <;> rfl

theorem key_document (k : Option String) : nullable text ctx (match k with
    | some k => .str k
    | none => .null) = .valid k := by
  cases k <;> rfl

/-- A field that is there is read, below its key. -/
theorem optional_some {α : Type} {r : Fields} {name : FieldName} {default : α} {d : Decoder α}
    {j : Json} (hj : Json.find? r.entries name.document = some j) :
    r.optional name default d = (d r.context j).below (.key name.document) := by
  simp [Fields.optional, Fields.get?, hj]

/-- All but the address of the completion settings is read again. -/
theorem CompletionConfig.decode_document {c : CompletionConfig} (h : c.Settled) :
    CompletionConfig.decode ctx c.document =
      ((address ctx (.str c.baseUrl)).below (.key "base_url")).map fun url =>
        { c with baseUrl := url } := by
  rw [CompletionConfig.decode, CompletionConfig.document, record_obj]
  dsimp only
  rw [optional_find rfl (provider_document c.provider), optional_some (j := .str c.baseUrl) rfl,
    optional_find (a := c.model) rfl rfl, optional_find rfl (key_document c.apiKey),
    optional_find rfl (h.maxTokens ctx), optional_find rfl (h.temperature ctx),
    optional_find rfl (h.timeout ctx)]
  dsimp only
  cases address ctx (.str c.baseUrl) <;> rfl

theorem StorageConfig.decode_document {c : StorageConfig} (h : c.Settled) :
    StorageConfig.decode ctx c.document = .valid c := by
  rw [StorageConfig.decode, StorageConfig.document, record_obj]
  dsimp only
  rw [optional_find rfl (h.directory ctx), optional_find rfl (h.rootDocument ctx),
    optional_find (a := c.valuesPrefix) rfl rfl, optional_find rfl (h.debounce ctx)]
  rfl

theorem TemplateConfig.decode_document {c : TemplateConfig} (h : c.Settled) :
    TemplateConfig.decode ctx c.document = .valid c := by
  rw [TemplateConfig.decode, TemplateConfig.document, record_obj]
  dsimp only
  rw [optional_find rfl (h.aliases ctx), optional_find (a := c.floorFormat) rfl rfl,
    optional_find rfl (h.maxRounds ctx)]
  rfl

theorem ServiceConfig.decode_document {c : ServiceConfig} (h : c.Settled) :
    ServiceConfig.decode ctx c.document = .valid c := by
  rw [ServiceConfig.decode, ServiceConfig.document, record_obj]
  dsimp only
  rw [optional_find (a := c.host) rfl rfl, optional_find rfl (h.port ctx)]
  rfl

/-- The issue of an address that is none. -/
def noAddress : Issue :=
  ⟨[.key "llm", .key "base_url"], .rule "base_url must start with http:// or https://"⟩

/-- Settings are read again, unless their address is bare. -/
theorem Config.decode_document {c : Config} (h : c.Settled) : Config.decode ctx c.document =
    if Bare c.completion.baseUrl then .invalid [noAddress] else .valid c := by
  rw [Config.decode, Config.document, Config.fields, record_obj,
    optional_find (a := c.debug) rfl rfl, optional_some (j := c.completion.document) rfl,
    optional_find rfl (StorageConfig.decode_document h.storage),
    optional_find rfl (TemplateConfig.decode_document h.templates),
    optional_find (a := c.queue) rfl rfl,
    optional_find rfl (ServiceConfig.decode_document h.service)]
  dsimp only
  rw [CompletionConfig.decode_document h.completion]
  split
  · next hbare =>
    rw [address_bare hbare]
    rfl
  · next hbare =>
    rw [h.completion.address.resolve_left hbare ctx]
    rfl

end Records

/-! ## Equal documents -/

namespace Json

mutual

def same : Json → Json → Bool
  | .null, .null => true
  | .bool a, .bool b => a == b
  | .int m, .int n => m == n
  | .float x, .float y => decide (x = y)
  | .str s, .str t => s == t
  | .arr xs, .arr ys => sameItems xs ys
  | .obj fs, .obj gs => sameFields fs gs
  | _, _ => false

def sameItems : List Json → List Json → Bool
  | [], [] => true
  | x :: r, y :: s => x.same y && sameItems r s
  | _, _ => false

def sameFields : List (String × Json) → List (String × Json) → Bool
  | [], [] => true
  | (k, x) :: r, (l, y) :: s => k == l && (x.same y && sameFields r s)
  | _, _ => false

end

mutual

theorem same_iff : ∀ x y : Json, x.same y = true ↔ x = y
  | .arr xs, y => by
    cases y with
    | arr ys => rw [same, sameItems_iff xs ys, Json.arr.injEq]
    | _ => simp [same]
  | .obj fs, y => by
    cases y with
    | obj gs => rw [same, sameFields_iff fs gs, Json.obj.injEq]
    | _ => simp [same]
  | .null, y => by cases y <;> simp [same]
  | .bool a, y => by cases y <;> simp [same]
  | .int m, y => by cases y <;> simp [same]
  | .float x, y => by cases y <;> simp [same]
  | .str s, y => by cases y <;> simp [same]

theorem sameItems_iff : ∀ xs ys : List Json, sameItems xs ys = true ↔ xs = ys
  | [], ys => by cases ys <;> simp [sameItems]
  | x :: r, ys => by
    cases ys with
    | nil => simp [sameItems]
    | cons y s => simp [sameItems, same_iff x y, sameItems_iff r s]

theorem sameFields_iff : ∀ fs gs : List (String × Json), sameFields fs gs = true ↔ fs = gs
  | [], gs => by cases gs <;> simp [sameFields]
  | (k, x) :: r, gs => by
    cases gs with
    | nil => simp [sameFields]
    | cons g s => simp [sameFields, same_iff x g.2, sameFields_iff r s, Prod.ext_iff, and_assoc]

end

instance : DecidableEq Json := fun x y => decidable_of_iff _ (same_iff x y)

end Json

instance decidableEqOk {ε α : Type} [DecidableEq α] (x : Except ε α) (a : α) :
    Decidable (x = .ok a) :=
  match x with
  | .ok b => decidable_of_iff (b = a) (by simp)
  | .error _ => isFalse nofun

/-! ## Files -/

theorem Binary64.same_self (x : Binary64) : x.same x = true ↔ x ≠ .nan := by
  cases x <;> simp [Binary64.same, Binary64.lt]

namespace Config

theorem agrees_self (c : Config) : c.agrees c = true ↔
    c.completion.temperature ≠ .nan ∧ c.storage.debounceSeconds ≠ .nan := by
  unfold agrees
  simp only [decide_true, Bool.true_and, Bool.and_eq_true, Binary64.same_self]

theorem load_parsed {path text : String} {j : List (String × Json)}
    (h : Yaml.parse text = .ok (.obj j)) : load path (.text text) =
      match Config.decode ⟨0, false⟩ (.obj j) with
      | .valid c => .ok c
      | .invalid issues => .error (.invalid path issues) := by
  unfold load readMapping
  dsimp only
  rw [h]
  rfl

/-- Settings that were read are read again from their document, and from the file they are saved as
if the text of the file is read as it was written, unless their address is bare. What is read is the
same, and agrees with it unless a number is `nan`. -/
theorem read_again {ctx : Context} {j : Json} {c : Config} (h : Config.decode ctx j = .valid c) :
    (∀ ctx', Config.decode ctx' c.document =
      if Bare c.completion.baseUrl then .invalid [noAddress] else .valid c) ∧
    (c.agrees c = true ↔ c.completion.temperature ≠ .nan ∧ c.storage.debounceSeconds ≠ .nan) ∧
    (Yaml.parse c.save = .ok c.document →
      (∀ path, load path (.text c.save) =
        if Bare c.completion.baseUrl then .error (.invalid path [noAddress]) else .ok c) ∧
      (c.survives = true ↔ ¬ Bare c.completion.baseUrl ∧
        c.completion.temperature ≠ .nan ∧ c.storage.debounceSeconds ≠ .nan)) := by
  have hsettled := settled_of_decode c h
  refine ⟨fun ctx' => decode_document hsettled, agrees_self c, fun hparse => ?_⟩
  have hload : ∀ path, load path (.text c.save) =
      if Bare c.completion.baseUrl then .error (.invalid path [noAddress]) else .ok c := by
    intro path
    refine (load_parsed hparse).trans ?_
    rw [← Config.document, decode_document hsettled]
    by_cases hbare : Bare c.completion.baseUrl
    · rw [if_pos hbare, if_pos hbare]
    · rw [if_neg hbare, if_neg hbare]
  refine ⟨hload, ?_⟩
  unfold survives
  rw [hload]
  by_cases hbare : Bare c.completion.baseUrl
  · rw [if_pos hbare]
    exact ⟨nofun, fun hnot => absurd hbare hnot.1⟩
  · rw [if_neg hbare]
    exact (agrees_self c).trans (and_iff_right hbare).symm

/-- Settings with an address that lost all its slashes. -/
def bare : Config :=
  { Config.standard with completion := { CompletionConfig.standard with baseUrl := "http:" } }

theorem parse_save (c : Config) : Yaml.parse c.save = (Yaml.Node.parse (Text.unixLines
    ('\n' :: (Yaml.putFields 0 true ⟨[], 0⟩ c.fields).done).reverse)).bind fun
      | none => .ok .null
      | some n => Yaml.value n := by
  unfold Yaml.parse save Yaml.print
  rw [String.toList_ofList]
  rfl

/-- An address of slashes is taken. Its settings are written, read as they were written, and
refused. -/
theorem read_again_bare :
    Config.decode ⟨0, false⟩ (.obj [("llm", .obj [("base_url", .str "http://")])]) = .valid bare ∧
      load filePath (.text bare.save) = .error (.invalid filePath [noAddress]) ∧
      bare.survives = false := by
  have hread : Config.decode ⟨0, false⟩ (.obj [("llm", .obj [("base_url", .str "http://")])]) =
      .valid bare := rfl
  have hparse : Yaml.parse bare.save = .ok bare.document := by
    rw [parse_save]
    decide +kernel
  obtain ⟨-, -, hfile⟩ := read_again hread
  obtain ⟨hload, hsurvives⟩ := hfile hparse
  exact ⟨hread, hload filePath, Bool.eq_false_iff.mpr fun h => (hsurvives.mp h).1 (.inl rfl)⟩

end Config

end TagLedger
