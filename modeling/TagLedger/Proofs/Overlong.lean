import TagLedger.Proofs.Expanding

/-!
# Templates that cannot be resolved

A reference to nothing and a range that is no range become empty, but a numeral of more than
`digitLimit` digits is neither read nor written. A template fails if such a numeral stands after a
builtin or in a sum, or comes out of one, in some round; or if in the end a reference to the chat or
to a variable with a value has one as a bound. A format that asks more of a floor than its number,
its sender and its text may fail on its own; there is no other way.

    resolve env rounds t fails ↔ a round fails, or a reference that is left is broken
                                                                            (resolve_fails_iff)
    t.length ≤ digitLimit  →  resolve env rounds t = .ok out                (resolve_short)
-/

namespace TagLedger

/-! ## Formats -/

namespace FloorFormat

/-- A field of a floor without a layout; it may ask for a quoted form. -/
def Field.Bare (x : Field) : Prop :=
  x.name ∈ ["floor".toList, "sender".toList, "text".toList] ∧
    x.conversion ∈ [none, some 's', some 'r', some 'a'] ∧ x.layout = [] ∧ x.nested = false

/-- A format of characters and fields without layouts. -/
def Plain (format : String) : Prop :=
  ∀ p ∈ pieces (format.toList.length + 1) format.toList, match p with
    | .text _ => True
    | .field x => x.Bare
    | .broken => False

variable {f : Floor}

theorem lookup_bare {name : List Char}
    (h : name ∈ ["floor".toList, "sender".toList, "text".toList]) :
    ∃ d, lookup f name = .ok d := by
  simp only [List.mem_cons, List.not_mem_nil, or_false] at h
  rcases h with rfl | rfl | rfl
  · exact ⟨.number f.number, rfl⟩
  · exact ⟨.text f.sender.toList, rfl⟩
  · exact ⟨.text f.text.toList, rfl⟩

theorem convert_bare (d : Datum) {c : Char} (h : c ∈ ['s', 'r', 'a']) :
    ∃ e, d.convert c = .ok e := by
  simp only [List.mem_cons, List.not_mem_nil, or_false] at h
  rcases h with rfl | rfl | rfl <;> exact ⟨_, rfl⟩

theorem go_plain (depth : Nat) {ps : List Piece} (h : ∀ p ∈ ps, match p with
    | .text _ => True
    | .field x => x.Bare
    | .broken => False) : ∃ out, renderAt.go f depth ps = .ok out := by
  induction ps with
  | nil => exact ⟨[], by rw [renderAt.go]⟩
  | cons p ps ih =>
    obtain ⟨rest, hrest⟩ := ih fun q hq => h q (List.mem_cons_of_mem _ hq)
    have hp := h p List.mem_cons_self
    cases p with
    | text c => exact ⟨c :: rest, by rw [renderAt.go, hrest]; rfl⟩
    | broken => exact hp.elim
    | field x =>
      obtain ⟨name, conversion, layout, nested⟩ := x
      obtain ⟨hname, hconversion, hlayout, hnested⟩ := hp
      dsimp only at hname hconversion hlayout hnested
      subst hlayout hnested
      obtain ⟨d, hd⟩ := lookup_bare (f := f) hname
      rw [renderAt.go, hd, hrest]
      cases conversion with
      | none => exact ⟨d.plain ++ rest, rfl⟩
      | some c =>
        have hc : c ∈ ['s', 'r', 'a'] := by simpa using hconversion
        obtain ⟨e, he⟩ := convert_bare d hc
        refine ⟨e.plain ++ rest, ?_⟩
        change ((d.convert c) >>= _) = _
        rw [he]
        rfl

/-- A plain format writes every floor. -/
theorem Plain.render {format : String} (h : Plain format) (f : Floor) :
    ∃ out, FloorFormat.render format f = .ok out := by
  obtain ⟨out, hout⟩ := go_plain 1 h
  exact ⟨String.ofList out, by rw [FloorFormat.render, renderAt, hout]; rfl⟩

theorem plain_standard : Plain standardFloorFormat := by
  unfold Plain standardFloorFormat
  simp [pieces, readField, splitName, Field.Bare]

end FloorFormat

namespace Template

open Text (digitLimit)

variable {env : Environment} {r : Reference} {s t spec : List Char}

/-! ## Ranges that are too long -/

/-- The digits of a bound. -/
def boundDigits : List Char → List Char
  | '-' :: ds => ds
  | ds => ds

/-- A token that writes a bound of too many digits. -/
inductive LongToken (token : List Char) : Prop
  | first {a b} (writes : tokenBounds? (bareToken token) = some (a, b))
      (long : digitLimit < (boundDigits a).length)
  | final {a b} (writes : tokenBounds? (bareToken token) = some (a, some b))
      (long : digitLimit < (boundDigits b).length)

/-- Ranges of which one has a bound of too many digits. -/
def LongRanges (spec : List Char) : Prop := ∃ token ∈ splitAt ',' spec, LongToken token

theorem fails_boundRead : Fails (Bound.read s) ↔ digitLimit < (boundDigits s).length := by
  unfold Bound.read
  split
  · next h =>
    subst h
    exact ⟨fun hf => absurd hf (not_fails_ok _), fun hlt => absurd hlt (by decide)⟩
  · rw [fails_map]
    unfold Text.readSigned
    split
    · rw [fails_map, fails_bind, Text.fails_readDigits]
      exact or_iff_left fun ⟨_, _, h⟩ => not_fails_ok _ h
    · next hunsigned => rw [fails_map, Text.fails_readDigits, boundDigits.eq_2 _ hunsigned]

theorem fails_read {token : List Char} : Fails (Range.read? token) ↔ LongToken token := by
  have hiff : LongToken token ↔ ∃ a b, tokenBounds? (bareToken token) = some (a, b) ∧
      (Fails (Bound.read a) ∨ ∃ c, b = some c ∧ Fails (Bound.read c)) := by
    simp only [fails_boundRead]
    constructor
    · rintro (⟨hw, hlong⟩ | ⟨hw, hlong⟩)
      · exact ⟨_, _, hw, .inl hlong⟩
      · exact ⟨_, _, hw, .inr ⟨_, rfl, hlong⟩⟩
    · rintro ⟨a, b, hw, hlong | ⟨c, rfl, hlong⟩⟩
      · exact .first hw hlong
      · exact .final hw hlong
  rw [hiff]
  unfold Range.read?
  cases hbounds : tokenBounds? (bareToken token) with
  | none => exact ⟨fun h => absurd h (not_fails_ok _), nofun⟩
  | some bounds =>
    obtain ⟨a, b⟩ := bounds
    dsimp only
    constructor
    · intro h
      refine ⟨a, b, rfl, (fails_bind.mp h).imp_right ?_⟩
      rintro ⟨first, hfirst, h⟩
      cases b with
      | none => exact absurd h (not_fails_ok _)
      | some c =>
        refine ⟨c, rfl, (fails_bind.mp h).resolve_right ?_⟩
        rintro ⟨final, -, h⟩
        exact not_fails_ok _ h
    · rintro ⟨a', b', heq, h⟩
      cases heq
      rw [fails_bind]
      rcases h with h | ⟨c, rfl, h⟩
      · exact .inl h
      · by_cases hfirst : Fails (Bound.read a)
        · exact .inl hfirst
        · obtain ⟨first, hfirst⟩ := not_fails_iff.mp hfirst
          exact .inr ⟨first, hfirst, fails_bind.mpr (.inl h)⟩

theorem fails_readTokens {tokens : List (List Char)} :
    Fails (readTokens tokens) ↔ ∃ token ∈ tokens, LongToken token := by
  induction tokens with
  | nil => exact ⟨fun h => absurd h (not_fails_ok _), fun ⟨_, h, _⟩ => absurd h List.not_mem_nil⟩
  | cons token tokens ih =>
    rw [readTokens, List.exists_mem_cons_iff, ← fails_read, ← ih]
    cases hread : Range.read? token with
    | error e => exact ⟨fun _ => .inl (fails_error e), fun _ => fails_error e⟩
    | ok found =>
      have hnot := not_fails_ok (ε := Text.NumeralTooLong) found
      cases found with
      | none => exact ⟨.inr, fun h => h.resolve_left hnot⟩
      | some x => exact fails_map.trans ⟨.inr, fun h => h.resolve_left hnot⟩

theorem fails_readRanges : Fails (readRanges spec) ↔ LongRanges spec := fails_readTokens

theorem fails_liftNumeral {α : Type} {x : Except Text.NumeralTooLong α} :
    Fails (liftNumeral x) ↔ Fails x := by
  cases x with
  | error e => exact ⟨fun _ => fails_error e, fun _ => fails_error _⟩
  | ok a => exact ⟨fun h => absurd h (not_fails_ok a), fun h => absurd h (not_fails_ok a)⟩

/-! ## References that have no text -/

/-- A reference without a text: one to something that is there, with too long a bound, or one that
picks a floor with a text that the format cannot write. -/
inductive Reference.Broken (env : Environment) (r : Reference) : Prop
  | bound (known : r.key ∈ env.aliases ∨ (env.lookup r.key).isSome = true)
      (long : LongRanges r.ranges)
  | floor {ranges floor m} (chat_named : r.key ∈ env.aliases)
      (ranges_read : readRanges r.ranges = .ok ranges)
      (picked : floor ∈ selectFloors env.messages.length ranges)
      (found : messageAt? env.messages floor = some m) (spoken : m.text ≠ "")
      (unwritten : Fails (formatFloor env.floorFormat floor m m.text))

theorem fails_chatBlocks {format : String} {messages : List Message} {floors : List Int} :
    Fails (chatBlocks format messages floors) ↔ ∃ floor ∈ floors, ∃ m,
      messageAt? messages floor = some m ∧ m.text ≠ "" ∧
        Fails (formatFloor format floor m m.text) := by
  induction floors with
  | nil => exact ⟨fun h => absurd h (not_fails_ok _), fun ⟨_, h, _⟩ => absurd h List.not_mem_nil⟩
  | cons f floors ih =>
    rw [chatBlocks, List.exists_mem_cons_iff, ← ih]
    cases hm : messageAt? messages f with
    | none => exact ⟨.inr, fun h => h.resolve_left nofun⟩
    | some m =>
      dsimp only
      by_cases hempty : m.text = ""
      · rw [if_pos hempty]
        refine ⟨.inr, fun h => h.resolve_left ?_⟩
        rintro ⟨m', hm', hspoken, -⟩
        cases hm'
        exact hspoken hempty
      · rw [if_neg hempty]
        cases hblock : formatFloor format f m m.text with
        | error e =>
          exact ⟨fun _ => .inl ⟨m, rfl, hempty, e, hblock⟩, fun _ => fails_error _⟩
        | ok block =>
          refine fails_map.trans ⟨.inr, fun h => h.resolve_left ?_⟩
          rintro ⟨m', hm', -, hfails⟩
          cases hm'
          rw [hblock] at hfails
          exact not_fails_ok block hfails

theorem fails_chatText {format : String} {messages : List Message} :
    Fails (chatText format messages spec) ↔ LongRanges spec ∨
      ∃ ranges, readRanges spec = .ok ranges ∧
        Fails (chatBlocks format messages (selectFloors messages.length ranges)) := by
  unfold chatText
  rw [fails_bind, fails_liftNumeral, fails_readRanges]
  refine or_congr_right (exists_congr fun ranges => ?_)
  rw [fails_bind]
  refine and_congr ?_ (or_iff_left fun ⟨_, _, h⟩ => not_fails_ok _ h)
  cases readRanges spec with
  | error e => exact ⟨nofun, nofun⟩
  | ok ranges' => exact ⟨fun h => by cases h; rfl, fun h => by cases h; rfl⟩

theorem fails_variableText {lookup : Lookup} {name : String} :
    Fails (variableText lookup name spec) ↔ (lookup name).isSome = true ∧ LongRanges spec := by
  unfold variableText
  cases lookup name with
  | none => exact ⟨fun h => absurd h (not_fails_ok _), fun h => absurd h.1 Bool.false_ne_true⟩
  | some v =>
    dsimp only
    rw [fails_map, fails_liftNumeral, fails_readRanges]
    exact ⟨fun h => ⟨rfl, h⟩, And.right⟩

theorem Reference.fails_text : Fails (r.text env) ↔ r.Broken env := by
  by_cases hkey : r.key ∈ env.aliases
  · rw [text_of_alias hkey, fails_map, fails_chatText]
    constructor
    · rintro (hlong | ⟨ranges, hread, hfails⟩)
      · exact .bound (.inl hkey) hlong
      · obtain ⟨floor, hpicked, m, hfound, hspoken, hfails⟩ := fails_chatBlocks.mp hfails
        exact .floor hkey hread hpicked hfound hspoken hfails
    · rintro (⟨-, hlong⟩ | ⟨-, hread, hpicked, hfound, hspoken, hfails⟩)
      · exact .inl hlong
      · exact .inr ⟨_, hread, fails_chatBlocks.mpr ⟨_, hpicked, _, hfound, hspoken, hfails⟩⟩
  · rw [text_of_variable hkey, fails_map, fails_variableText]
    constructor
    · rintro ⟨hsome, hlong⟩
      exact .bound (.inr hsome) hlong
    · rintro (⟨hknown, hlong⟩ | ⟨hnamed, -⟩)
      · exact ⟨hknown.resolve_left hkey, hlong⟩
      · exact absurd hnamed hkey

/-- In a plain format a reference is broken by a bound only. -/
theorem broken_iff_of_plain (hplain : FloorFormat.Plain env.floorFormat) :
    r.Broken env ↔
      (r.key ∈ env.aliases ∨ (env.lookup r.key).isSome = true) ∧ LongRanges r.ranges := by
  constructor
  · rintro (⟨hknown, hlong⟩ | ⟨-, -, -, -, -, hfails⟩)
    · exact ⟨hknown, hlong⟩
    · exact absurd hfails (not_fails_iff.mpr (hplain.render _))
  · rintro ⟨hknown, hlong⟩
    exact .bound hknown hlong

/-- A reference to nothing, or without a range where the chat is meant or ranges are given. -/
inductive Reference.Void (env : Environment) (r : Reference) : Prop
  | unknown (not_chat : r.key ∉ env.aliases) (not_found : env.lookup r.key = none)
  | malformed (given : r.key ∈ env.aliases ∨ r.ranges ≠ [])
      (no_range : ∀ token ∈ splitAt ',' r.ranges, tokenBounds? (bareToken token) = none)

theorem readTokens_malformed {tokens : List (List Char)}
    (h : ∀ token ∈ tokens, tokenBounds? (bareToken token) = none) : readTokens tokens = .ok [] := by
  induction tokens with
  | nil => rfl
  | cons token tokens ih =>
    rw [readTokens, Range.read?, h token List.mem_cons_self]
    exact ih fun t ht => h t (List.mem_cons_of_mem _ ht)

theorem selectFloors_nil (count : Int) : selectFloors count [] = [] := by
  unfold selectFloors
  split <;> rfl

theorem Reference.Void.text (h : r.Void env) : r.text env = .ok [] := by
  cases h with
  | unknown hchat hfound =>
    rw [text_of_variable hchat, variableText, hfound]
    rfl
  | malformed hgiven hnone =>
    have hread : readRanges r.ranges = .ok [] := readTokens_malformed hnone
    by_cases hkey : r.key ∈ env.aliases
    · rw [text_of_alias hkey, chatText, hread]
      change ((chatBlocks env.floorFormat env.messages
        (selectFloors env.messages.length []) >>= _) : Except Fault String).map _ = _
      rw [selectFloors_nil]
      rfl
    · rw [text_of_variable hkey, variableText, hread]
      cases env.lookup r.key with
      | none => rfl
      | some v =>
        have hempty : r.ranges.isEmpty = false :=
          List.isEmpty_eq_false_iff.mpr (hgiven.resolve_left hkey)
        change Except.map _ (Except.ok (if !r.ranges.isEmpty && true then _ else _)) = _
        rw [hempty]
        rfl

/-! ## One bound too long -/

theorem splitAt_of_not_mem {c : Char} (h : c ∉ s) : splitAt c s = [s] := by
  induction s with
  | nil => rfl
  | cons d s ih =>
    rw [List.mem_cons, not_or] at h
    rw [splitAt, if_neg (Ne.symm h.1), ih h.2]

/-- A row of nines as the only bound. -/
theorem longRanges_nines {n : Nat} (h : digitLimit < n) :
    LongRanges ('@' :: List.replicate n '9') := by
  have hchars : ∀ c ∈ List.replicate n '9', c = '9' := fun c hc => List.eq_of_mem_replicate hc
  refine ⟨'@' :: List.replicate n '9', ?_, .first (a := List.replicate n '9') (b := none) ?_ ?_⟩
  · rw [splitAt_of_not_mem]
    · exact List.mem_singleton_self _
    · rw [List.mem_cons, not_or]
      exact ⟨by decide, fun hc => absurd (hchars _ hc) (by decide)⟩
  · obtain ⟨k, rfl⟩ : ∃ k, n = k + 1 := ⟨n - 1, by omega⟩
    have hbare : bareToken ('@' :: List.replicate (k + 1) '9') = List.replicate (k + 1) '9' := by
      have hnine : ∀ c ∈ List.replicate (k + 1) '9', Text.isBlank c = false := fun c hc => by
        rw [hchars c hc]
        decide
      have hat : ∀ c ∈ '@' :: List.replicate (k + 1) '9', Text.isBlank c = false := fun c hc => by
        rcases List.mem_cons.mp hc with rfl | hc
        · decide
        · exact hnine c hc
      unfold bareToken
      rw [Text.trim_of_unblank hat, List.dropWhile_cons_of_pos (by decide), List.replicate_succ,
        List.dropWhile_cons_of_neg (by decide), ← List.replicate_succ, Text.trim_of_unblank hnine]
    have hdigits : (List.replicate (k + 1) '9').takeWhile Text.isDigit =
        List.replicate (k + 1) '9' := by
      rw [List.takeWhile_eq_self_iff]
      exact fun c hc => by
        rw [hchars c hc]
        decide
    have hbound : leadingBound? (List.replicate (k + 1) '9') =
        some (List.replicate (k + 1) '9', []) := by
      rw [List.replicate_succ] at hdigits ⊢
      have hword : Text.afterStart? ['e', 'n', 'd'] ('9' :: List.replicate k '9') = none := rfl
      unfold leadingBound?
      rw [hword]
      change (if (('9' :: List.replicate k '9').takeWhile Text.isDigit).isEmpty then none
        else some (('9' :: List.replicate k '9').takeWhile Text.isDigit, ('9' ::
          List.replicate k '9').drop (('9' :: List.replicate k '9').takeWhile
            Text.isDigit).length)) = _
      rw [hdigits, List.drop_length]
      rfl
    rw [hbare, tokenBounds?, hbound]
  · cases n with
    | zero => exact absurd h (Nat.not_lt_zero _)
    | succ n => 
      rw [List.replicate_succ]
      change digitLimit < ('9' :: List.replicate n '9').length
      rwa [List.length_cons, List.length_replicate]

/-- A reference to the chat with a row of nines as its bound. -/
def nines (n : Nat) : Reference := ⟨"chat".toList, '@' :: List.replicate n '9'⟩

theorem nines_wellFormed {n : Nat} (h : 0 < n) : (nines n).WellFormed where
  name_ne := show "chat".toList ≠ [] by decide
  name_chars c hc := by
    have hall : ("chat".toList.all fun c => !isBrace c && c != '@') = true := by decide
    have hchar := List.all_eq_true.mp hall c hc
    rwa [Bool.and_eq_true, Bool.not_eq_true', bne_iff_ne] at hchar
  ranges := by
    refine .inr ⟨List.replicate n '9', ?_, rfl, fun c hc => ?_⟩
    · rw [Ne, List.replicate_eq_nil_iff]
      omega
    · rw [List.eq_of_mem_replicate hc]
      decide

theorem nines_broken {n : Nat} (halias : "chat" ∈ env.aliases) (h : digitLimit < n) :
    (nines n).Broken env := by
  have hkey : (nines n).key = "chat" := show String.ofList (Text.trim "chat".toList) = "chat" by decide
  exact .bound (.inl (hkey ▸ halias)) (longRanges_nines h)

/-! ## Templates -/

theorem fails_resolveReferences :
    Fails (resolveReferences env s) ↔ ∃ r, .mark r ∈ parts s ∧ r.Broken env := by
  unfold resolveReferences
  simp only [Text.fails_fill, Reference.fails_text]

/-- A template fails exactly if a round comes to a text with too long a numeral, or a reference that
is left when all rounds are done is broken; with a plain format that is one with too long a bound.
References to nothing and those without a range become empty. -/
theorem resolve_fails_iff (env : Environment) (rounds : Int) (template : String) :
    (Fails (resolve env rounds template) ↔
      (∃ k s, k < rounds.toNat ∧ After env.lastFloor k template.toList s ∧
        Strained env.lastFloor s) ∨
      ∃ s r, resolveBuiltins rounds env.lastFloor template.toList = .ok s ∧
        .mark r ∈ parts s ∧ r.Broken env) ∧
    (FloorFormat.Plain env.floorFormat → ∀ r : Reference, r.Broken env ↔
      (r.key ∈ env.aliases ∨ (env.lookup r.key).isSome = true) ∧ LongRanges r.ranges) ∧
    ∀ r : Reference, r.Void env → r.text env = .ok [] := by
  refine ⟨?_, fun hplain _ => broken_iff_of_plain hplain, fun _ hvoid => hvoid.text⟩
  unfold resolve
  rw [fails_bind]
  refine or_congr (fails_liftNumeral.trans fails_expand) (exists_congr fun s => ?_)
  rw [fails_bind, fails_resolveReferences]
  refine Iff.trans (and_congr_right fun _ => or_iff_left fun ⟨_, _, h⟩ => not_fails_ok _ h) ?_
  exact exists_and_left.symm

/-- With one digit more than is read, the bound of a reference to the chat makes it fail. -/
theorem resolve_fails_nines : Fails (resolve ⟨0, [], ["chat"], standardFloorFormat, fun _ => none⟩ 10
    (String.ofList (nines (digitLimit + 1)).source)) := by
  have hr : (nines (digitLimit + 1)).WellFormed := nines_wellFormed (Nat.succ_pos _)
  have hplus : '+' ∉ (nines (digitLimit + 1)).source := by
    have hnines : '+' ∉ List.replicate (digitLimit + 1) '9' := fun h =>
      absurd (List.eq_of_mem_replicate h) (by decide)
    change '+' ∉ "\x7b\x7bchat@".toList ++ (List.replicate (digitLimit + 1) '9' ++ ['\x7d', '\x7d'])
    rw [List.mem_append, List.mem_append, not_or, not_or]
    exact ⟨by decide, hnines, by decide⟩
  obtain ⟨hbuiltins, hparts⟩ := parts_source hr nofun (.inr hplus) 10 0
  refine (resolve_fails_iff _ 10 _).1.mpr
    (.inr ⟨(nines (digitLimit + 1)).source, nines (digitLimit + 1), ?_, ?_, ?_⟩)
  · rw [String.toList_ofList]
    exact hbuiltins
  · rw [hparts]
    exact List.mem_singleton_self _
  · exact nines_broken (by decide) (Nat.lt_succ_self _)

/-! ## Short templates -/

theorem length_of_mem_splitAt {c : Char} {part : List Char} (h : part ∈ splitAt c s) :
    part.length ≤ s.length := by
  induction s generalizing part with
  | nil =>
    rw [splitAt, List.mem_singleton] at h
    rw [h]
  | cons d s ih =>
    rw [splitAt] at h
    split at h
    · rcases List.mem_cons.mp h with rfl | h
      · exact Nat.zero_le _
      · exact (ih h).trans (Nat.le_succ _)
    · split at h
      · next first rest hsplit =>
        rcases List.mem_cons.mp h with rfl | h
        · exact Nat.succ_le_succ (ih (hsplit ▸ List.mem_cons_self))
        · exact (ih (hsplit ▸ List.mem_cons_of_mem _ h)).trans (Nat.le_succ _)
      · rw [List.mem_singleton.mp h]
        exact Nat.succ_le_succ (Nat.zero_le _)

theorem length_trim_le (s : List Char) : (Text.trim s).length ≤ s.length := by
  unfold Text.trim Text.trimEnd Text.dropEndWhile Text.trimStart
  rw [List.length_reverse]
  refine (List.dropWhile_suffix _).length_le.trans ?_
  rw [List.length_reverse]
  exact (List.dropWhile_suffix _).length_le

theorem length_bareToken_le (s : List Char) : (bareToken s).length ≤ s.length :=
  (length_trim_le _).trans ((List.dropWhile_suffix _).length_le.trans (length_trim_le s))

theorem length_leadingBound {a r : List Char} (h : leadingBound? s = some (a, r)) :
    a.length + r.length ≤ s.length := by
  unfold leadingBound? at h
  split at h
  · next r' hend =>
    cases h
    rw [Text.eq_of_afterStart? hend, List.length_append]
  · have hcut (body : List Char) : (body.takeWhile Text.isDigit).length +
        (body.drop (body.takeWhile Text.isDigit).length).length = body.length := by
      have hle := (List.takeWhile_prefix (l := body) Text.isDigit).length_le
      rw [List.length_drop]
      omega
    have hbody {mark body : List Char} (hlen : mark.length + body.length = s.length)
        (h : (if (body.takeWhile Text.isDigit).isEmpty then none
          else some (mark ++ body.takeWhile Text.isDigit,
            body.drop (body.takeWhile Text.isDigit).length)) = some (a, r)) :
        a.length + r.length ≤ s.length := by
      split at h
      · cases h
      · cases h
        have hsum := hcut body
        rw [List.length_append]
        omega
    split at h
    next heq =>
    refine hbody ?_ h
    split at heq
    · cases heq
      exact Nat.add_comm 1 _
    · cases heq
      exact Nat.zero_add _

theorem boundDigits_length_le (s : List Char) : (boundDigits s).length ≤ s.length := by
  unfold boundDigits
  split
  · exact Nat.le_succ _
  · exact Nat.le_refl _

/-- A bound is no longer than the ranges it stands in. -/
theorem length_of_longRanges (h : LongRanges spec) : digitLimit < spec.length := by
  obtain ⟨token, hmem, hlong⟩ := h
  have htoken := (length_bareToken_le token).trans (length_of_mem_splitAt hmem)
  have hbounds {a : List Char} {b : Option (List Char)}
      (hw : tokenBounds? (bareToken token) = some (a, b)) :
      a.length ≤ spec.length ∧ ∀ c, b = some c → c.length ≤ spec.length := by
    unfold tokenBounds? at hw
    split at hw
    · next a' hlead =>
      cases hw
      have hlen := length_leadingBound hlead
      exact ⟨by omega, nofun⟩
    · next a' r hlead =>
      have hlen := length_leadingBound hlead
      rw [List.length_cons] at hlen
      split at hw
      · next b' hlead' =>
        cases hw
        have hlen' := length_leadingBound hlead'
        refine ⟨by omega, fun c hc => ?_⟩
        cases hc
        omega
      · cases hw
    · cases hw
  cases hlong with
  | @first a b hw hlong =>
    exact hlong.trans_le ((boundDigits_length_le a).trans (hbounds hw).1)
  | @final a b hw hlong =>
    exact hlong.trans_le ((boundDigits_length_le b).trans ((hbounds hw).2 b rfl))

theorem source_within (hr : .mark r ∈ parts s) : r.source <:+: s := by
  have hcuts := cuts_parts s
  generalize parts s = ps at hcuts hr
  induction hcuts with
  | nil => cases hr
  | @char c s ps _ _ ih =>
    have hr := (List.mem_cons.mp hr).resolve_left nofun
    exact (ih hr).trans (List.suffix_cons c s).isInfix
  | @mark q s ps _ _ ih =>
    rcases List.mem_cons.mp hr with heq | hr
    · cases heq
      exact (List.prefix_append _ _).isInfix
    · exact (ih hr).trans (List.suffix_append _ _).isInfix

/-- Every template that is not longer than a numeral may be is resolved. -/
theorem resolve_short (rounds : Int) {template : String}
    (hformat : FloorFormat.Plain env.floorFormat) (hlast : env.lastFloor.natAbs < 10 ^ 16)
    (h : template.toList.length ≤ digitLimit) : ∃ out, resolve env rounds template = .ok out := by
  obtain ⟨s, hs, hle⟩ := expand_short rounds.toNat hlast h
  have hbuiltins : resolveBuiltins rounds env.lastFloor template.toList = .ok s := by
    rw [resolveBuiltins, hs]
    rfl
  have hrefs : ¬ Fails (resolveReferences env s) := by
    rw [fails_resolveReferences]
    rintro ⟨r, hr, hbroken⟩
    obtain ⟨-, hlong⟩ := (broken_iff_of_plain hformat).mp hbroken
    have hsource := (source_within hr).length_le
    rw [source_length] at hsource
    have hranges := length_of_longRanges hlong
    omega
  obtain ⟨t, ht⟩ := not_fails_iff.mp hrefs
  refine ⟨String.ofList t, ?_⟩
  unfold resolve
  rw [hbuiltins]
  change (resolveReferences env s >>= _) = _
  rw [ht]
  rfl

end Template

end TagLedger
