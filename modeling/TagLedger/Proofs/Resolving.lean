import Mathlib.Data.List.Infix
import Mathlib.Data.List.TakeWhile
import TagLedger.Config.Basic
import TagLedger.Proofs.Faults
import TagLedger.Proofs.Scanning
import TagLedger.Template.Reference

/-!
# What a template becomes

A template with its builtins resolved is cut from left to right into references and the characters
between them, by its own text alone. The characters are copied and each reference gives way to a
text of its own, which is not looked at again: contents and messages that write references or sums
themselves stand in the result as they are.

    Cuts s ps ↔ ps = parts s                                                (cuts_iff)
    resolve env rounds t = the pieces of t with a text for each reference    (resolve_fills)
-/

namespace TagLedger

/-! ## Formats that show the text -/

namespace FloorFormat

variable {f : Floor} {depth : Nat} {ps : List Piece} {out : List Char}

/-- What a format writes ends with what its later pieces write. -/
theorem rest_of_go {p : Piece} (h : renderAt.go f depth (p :: ps) = .ok out) :
    ∃ here rest, renderAt.go f depth ps = .ok rest ∧ out = here ++ rest := by
  cases p with
  | text c =>
    rw [renderAt.go] at h
    obtain ⟨rest, hrest, rfl⟩ := map_eq_ok h
    exact ⟨[c], rest, hrest, rfl⟩
  | broken =>
    rw [renderAt.go] at h
    cases h
  | field x =>
    have hlast {d : Datum} {layout : List Char} (h : (do
        let here ← d.lay layout
        let rest ← renderAt.go f depth ps
        pure (here ++ rest) : Except Fault (List Char)) = .ok out) :
        ∃ here rest, renderAt.go f depth ps = .ok rest ∧ out = here ++ rest := by
      obtain ⟨here, -, h⟩ := bind_eq_ok h
      obtain ⟨rest, hrest, h⟩ := bind_eq_ok h
      exact ⟨here, rest, hrest, (Except.ok.inj h).symm⟩
    rw [renderAt.go] at h
    obtain ⟨d, -, h⟩ := bind_eq_ok h
    dsimp only at h
    split at h
    · obtain ⟨d', -, h⟩ := bind_eq_ok h
      split at h <;> (obtain ⟨layout, -, h⟩ := bind_eq_ok h; exact hlast h)
    · obtain ⟨d', -, h⟩ := bind_eq_ok h
      split at h <;> (obtain ⟨layout, -, h⟩ := bind_eq_ok h; exact hlast h)

/-- The field that stands for the text of a floor, as it is. -/
def textField : Field := ⟨"text".toList, none, [], false⟩

theorem go_textField (h : renderAt.go f depth (.field textField :: ps) = .ok out) :
    f.text.toList <+: out := by
  have hlookup : lookup f textField.name = .ok (.text f.text.toList) := rfl
  rw [renderAt.go, hlookup] at h
  obtain ⟨rest, -, h⟩ := bind_eq_ok (f := fun rest => .ok (f.text.toList ++ rest)) h
  exact ⟨rest, Except.ok.inj h⟩

theorem go_infix (hmem : .field textField ∈ ps) (h : renderAt.go f depth ps = .ok out) :
    f.text.toList <:+: out := by
  induction ps generalizing out with
  | nil => cases hmem
  | cons p ps ih =>
    rcases List.mem_cons.mp hmem with rfl | hmem
    · exact (go_textField h).isInfix
    · obtain ⟨here, rest, hrest, rfl⟩ := rest_of_go h
      exact (ih hmem hrest).trans (List.suffix_append here rest).isInfix

/-- The format writes the text of a floor as it is. -/
def ShowsText (format : String) : Prop :=
  .field textField ∈ pieces (format.toList.length + 1) format.toList

theorem infix_render {format : String} {out : String} (hformat : ShowsText format)
    (h : render format f = .ok out) : f.text.toList <:+: out.toList := by
  obtain ⟨chars, hchars, rfl⟩ := map_eq_ok h
  rw [renderAt] at hchars
  rw [String.toList_ofList]
  exact go_infix hformat hchars

theorem showsText_standard : ShowsText standardFloorFormat := by
  unfold ShowsText standardFloorFormat
  simp [pieces, readField, splitName, textField]

end FloorFormat

/-- Each block stands in the text that blocks are joined to. -/
theorem infix_joinBlocks {s : String} {blocks : List String} (h : s ∈ blocks) :
    s.toList <:+: (joinBlocks blocks).toList := by
  unfold joinBlocks
  induction blocks with
  | nil => cases h
  | cons b blocks ih =>
    cases blocks with
    | nil =>
      rw [List.mem_singleton.mp h, String.intercalate_singleton]
    | cons c blocks =>
      rw [String.intercalate_cons_cons, String.toList_append, String.toList_append]
      rcases List.mem_cons.mp h with rfl | h
      · exact ((List.prefix_append _ _).trans (List.prefix_append _ _)).isInfix
      · exact (ih h).trans (List.suffix_append _ _).isInfix

namespace Template

open Text (Piece)

/-! ## Cutting -/

/-- A reference as a template writes it. -/
def Reference.source (r : Reference) : List Char :=
  '\x7b' :: '\x7b' :: (r.name ++ (r.ranges ++ ['\x7d', '\x7d']))

/-- A name without braces and at signs, and nothing or an at sign with ranges without braces. -/
structure Reference.WellFormed (r : Reference) : Prop where
  name_ne : r.name ≠ []
  name_chars : ∀ c ∈ r.name, isBrace c = false ∧ c ≠ '@'
  ranges : r.ranges = [] ∨
    ∃ spec, spec ≠ [] ∧ r.ranges = '@' :: spec ∧ ∀ c ∈ spec, isBrace c = false

/-- A text from left to right as the references that stand in it and the characters between. -/
inductive Cuts : List Char → List (Piece Reference) → Prop
  | nil : Cuts [] []
  | char {c s ps} : (∀ (r : Reference) (t : List Char), r.WellFormed → c :: s ≠ r.source ++ t) →
      Cuts s ps → Cuts (c :: s) (.char c :: ps)
  | mark {r s ps} : r.WellFormed → Cuts s ps → Cuts (r.source ++ s) (.mark r :: ps)

variable {r : Reference} {s t : List Char} {ps : List (Piece Reference)}

theorem source_length (r : Reference) :
    r.source.length = r.name.length + r.ranges.length + 4 := by
  unfold Reference.source
  simp only [List.length_cons, List.length_append, List.length_nil]
  omega

theorem source_ne (r : Reference) : r.source ≠ [] := List.cons_ne_nil _ _

theorem startsClosed_iff : startsClosed s = true ↔ ∃ t, s = '\x7d' :: '\x7d' :: t := by
  unfold startsClosed
  split
  · next a b t =>
    rw [Bool.and_eq_true, beq_iff_eq, beq_iff_eq]
    constructor
    · rintro ⟨rfl, rfl⟩
      exact ⟨t, rfl⟩
    · rintro ⟨t, h⟩
      cases h
      exact ⟨rfl, rfl⟩
  · next hshort =>
    refine ⟨fun h => absurd h Bool.false_ne_true, ?_⟩
    rintro ⟨t, rfl⟩
    exact absurd rfl (hshort _ _ t)

/-- The run in front ends where the first other character stands. -/
theorem takeWhile_run {p : Char → Bool} {c : Char} (hs : ∀ d ∈ s, p d = true) (hc : p c = false) :
    (s ++ c :: t).takeWhile p = s := by
  have hend : ¬ p c = true := by
    rw [hc]
    exact Bool.false_ne_true
  rw [List.takeWhile_append_of_pos hs, List.takeWhile_cons_of_neg hend, List.append_nil]

/-- So does the run in front of a text that does not go on with one. -/
theorem takeWhile_append_of_head {p : Char → Bool} (hs : ∀ c ∈ s, p c = true)
    (ht : ∀ c ∈ t.head?, p c = false) : (s ++ t).takeWhile p = s := by
  cases t with
  | nil => rw [List.append_nil, List.takeWhile_eq_self_iff.mpr hs]
  | cons c t => exact takeWhile_run hs (ht c rfl)

theorem exists_run (p : Char → Bool) (s : List Char) :
    ∃ a b, s = a ++ b ∧ s.takeWhile p = a ∧ ∀ c ∈ a, p c = true :=
  ⟨s.takeWhile p, s.dropWhile p, List.takeWhile_append_dropWhile.symm, rfl, fun _ hc =>
    List.mem_takeWhile_imp hc⟩

def isNameChar (c : Char) : Bool := !isBrace c && c != '@'

/-- The ranges in front, with their at sign. -/
def rangesIn : List Char → List Char
  | '@' :: q => '@' :: q.takeWhile fun c => !isBrace c
  | _ => []

/-- What stands behind two opening braces decides whether they open a reference. -/
theorem referenceMark_open (s : List Char) : referenceMark ('\x7b' :: '\x7b' :: s) =
    let name := s.takeWhile isNameChar
    let ranges := rangesIn (s.drop name.length)
    if name.isEmpty || ranges == ['@'] || !startsClosed (s.drop (name.length + ranges.length)) then
      none
    else some (⟨name, ranges⟩, name.length + ranges.length + 4) := rfl

theorem exists_open {a : Reference × Nat} (h : referenceMark s = some a) :
    ∃ t, s = '\x7b' :: '\x7b' :: t := by
  unfold referenceMark at h
  split at h
  · next a b t =>
    split at h
    · next hopen =>
      rw [Bool.and_eq_true, beq_iff_eq, beq_iff_eq] at hopen
      exact ⟨t, by rw [hopen.1, hopen.2]⟩
    · cases h
  · cases h

/-- The ranges in front are a part of the text, and hold no brace. -/
theorem exists_rangesIn (s : List Char) : ∃ ranges t, s = ranges ++ t ∧ rangesIn s = ranges ∧
    (ranges = [] ∨ ∃ spec, ranges = '@' :: spec ∧ ∀ c ∈ spec, isBrace c = false) := by
  unfold rangesIn
  split
  · next q =>
    obtain ⟨spec, t, hq, hspec, hchars⟩ := exists_run (fun c => !isBrace c) q
    refine ⟨'@' :: spec, t, by rw [hq]; rfl, by rw [hspec], .inr ⟨spec, rfl, fun c hc => ?_⟩⟩
    have hc := hchars c hc
    rwa [Bool.not_eq_true'] at hc
  · exact ⟨[], s, rfl, rfl, .inl rfl⟩

/-- The reader finds a reference where one is written. -/
theorem referenceMark_source (hr : r.WellFormed) (t : List Char) :
    referenceMark (r.source ++ t) = some (r, r.source.length) := by
  obtain ⟨name, ranges⟩ := r
  have hname : ∀ c ∈ name, isNameChar c = true := fun c hc => by
    obtain ⟨hbrace, hat⟩ := hr.name_chars c hc
    rw [isNameChar, hbrace, Bool.not_false, Bool.true_and, bne_iff_ne]
    exact hat
  have hne : name.isEmpty = false := List.isEmpty_eq_false_iff.mpr hr.name_ne
  rw [source_length]
  rcases hr.ranges with hranges | ⟨spec, hspec, hranges, hchars⟩
  · dsimp only at hranges
    subst hranges
    have hsplit : (name ++ '\x7d' :: '\x7d' :: t).takeWhile isNameChar = name :=
      takeWhile_run hname rfl
    simp [Reference.source, referenceMark_open, hsplit, rangesIn, hne, startsClosed]
  · dsimp only at hranges
    subst hranges
    have hsplit : (name ++ '@' :: (spec ++ '\x7d' :: '\x7d' :: t)).takeWhile isNameChar = name :=
      takeWhile_run hname rfl
    have hspecs : (spec ++ '\x7d' :: '\x7d' :: t).takeWhile (fun c => !isBrace c) = spec :=
      takeWhile_run (fun c hc => by rw [hchars c hc]; rfl) rfl
    simp [Reference.source, referenceMark_open, hsplit, rangesIn, hspecs, hne, hspec, startsClosed,
      ← List.drop_drop]

/-- What the reader finds is written in front. -/
theorem referenceMark_eq_some {n : Nat} (h : referenceMark s = some (r, n)) :
    r.WellFormed ∧ n = r.source.length ∧ ∃ t, s = r.source ++ t := by
  obtain ⟨u, rfl⟩ := exists_open h
  obtain ⟨name, v, hu, hname, hchars⟩ := exists_run isNameChar u
  obtain ⟨ranges, w, hv, hranges, hspec⟩ := exists_rangesIn v
  have hdrop : u.drop name.length = v := by rw [hu, List.drop_left]
  have hrest : v.drop ranges.length = w := by rw [hv, List.drop_left]
  rw [referenceMark_open, hname] at h
  dsimp only at h
  rw [hdrop, hranges, ← List.drop_drop, hdrop, hrest] at h
  split at h
  · cases h
  · next hgood =>
    obtain ⟨rfl, rfl⟩ := Prod.mk.inj (Option.some.inj h)
    obtain ⟨⟨hne, hat⟩, hclosed⟩ : (name ≠ [] ∧ ranges ≠ ['@']) ∧ startsClosed w = true := by
      simpa using hgood
    obtain ⟨t, rfl⟩ := startsClosed_iff.mp hclosed
    refine ⟨⟨hne, fun c hc => ?_, ?_⟩, (source_length ⟨name, ranges⟩).symm, t, ?_⟩
    · simpa [isNameChar] using hchars c hc
    · refine hspec.imp_right ?_
      rintro ⟨spec, rfl, hbraces⟩
      exact ⟨spec, fun hnil => hat (by rw [hnil]), rfl, hbraces⟩
    · rw [hu, hv, Reference.source]
      simp only [List.cons_append, List.append_assoc, List.nil_append]

theorem cuts_parts (s : List Char) : Cuts s (parts s) := by
  induction hn : s.length using Nat.strongRecOn generalizing s with
  | ind n ih =>
    subst hn
    cases s with
    | nil => exact .nil
    | cons c s =>
      unfold parts
      cases hmark : referenceMark (c :: s) with
      | none =>
        rw [Text.scan_char hmark]
        refine .char (fun r t hr heq => ?_) (ih s.length (Nat.lt_succ_self _) s rfl)
        rw [heq, referenceMark_source hr] at hmark
        cases hmark
      | some found =>
        obtain ⟨r, n⟩ := found
        obtain ⟨hr, rfl, t, ht⟩ := referenceMark_eq_some hmark
        rw [ht] at hmark ⊢
        rw [Text.scan_mark (source_ne r) hmark]
        refine .mark hr (ih t.length ?_ t rfl)
        rw [ht, List.length_append, source_length]
        omega

/-- A text is cut in one way. -/
theorem cuts_iff : Cuts s ps ↔ ps = parts s := by
  refine ⟨fun h => ?_, fun h => h ▸ cuts_parts s⟩
  induction h with
  | nil => rfl
  | @char c s ps hnone _ ih =>
    have hmark : referenceMark (c :: s) = none := by
      cases h : referenceMark (c :: s) with
      | none => rfl
      | some found =>
        obtain ⟨hr, -, t, ht⟩ := referenceMark_eq_some h
        exact absurd ht (hnone _ t hr)
    rw [parts, Text.scan_char hmark, ih]
    rfl
  | @mark r s ps hr _ ih =>
    rw [parts, Text.scan_mark (source_ne r) (referenceMark_source hr s), ih]
    rfl

/-! ## Filling -/

/-- A piece with a text for each reference. -/
def written (texts : Reference → List Char) : Piece Reference → List Char
  | .char c => [c]
  | .mark r => texts r

/-- What comes of the pieces of a template: the characters with the text of each reference between
them, or the fault of the first reference that has none. -/
inductive Fills (text : Reference → Except Fault (List Char)) :
    List (Piece Reference) → Except Fault (List Char) → Prop
  | done {pieces} (texts : Reference → List Char)
      (texts_of : ∀ r, .mark r ∈ pieces → text r = .ok (texts r)) :
      Fills text pieces (.ok (pieces.flatMap (written texts)))
  | fails {before after r e} (texts_before : ∀ q, .mark q ∈ before → ∃ t, text q = .ok t)
      (fault : text r = .error e) : Fills text (before ++ .mark r :: after) (.error e)

variable {text : Reference → Except Fault (List Char)} {out : Except Fault (List Char)}

theorem Fills.char (c : Char) (h : Fills text ps out) :
    Fills text (.char c :: ps) (out.map (c :: ·)) := by
  cases h with
  | done texts htexts =>
    refine .done texts fun r hr => htexts r ?_
    simpa using hr
  | @fails before after r e hbefore hr =>
    rw [← List.cons_append]
    refine .fails (fun q hq => hbefore q ?_) hr
    simpa using hq

theorem Fills.mark (hr : text r = .ok t) (h : Fills text ps out) :
    Fills text (.mark r :: ps) (out.map (t ++ ·)) := by
  cases h with
  | done texts htexts =>
    -- the texts of the rest may be anything at `r` if it does not come again
    have hsame : ps.flatMap (written texts) =
        ps.flatMap (written fun q => if q = r then t else texts q) := by
      refine List.flatMap_congr fun p hp => ?_
      cases p with
      | char c => rfl
      | mark q =>
        by_cases hq : q = r
        · subst hq
          have hboth := (htexts q hp).symm.trans hr
          simpa [written] using hboth
        · simp [written, hq]
    have hall : ∀ q, Piece.mark q ∈ Piece.mark r :: ps →
        text q = .ok (if q = r then t else texts q) := fun q hq => by
      by_cases hqr : q = r
      · rw [if_pos hqr, hqr, hr]
      · rw [if_neg hqr]
        refine htexts q ((List.mem_cons.mp hq).resolve_left fun h => hqr ?_)
        cases h
        rfl
    have hdone := Fills.done _ hall
    rw [List.flatMap_cons, ← hsame, written, if_pos rfl] at hdone
    exact hdone
  | @fails before after q e hbefore hq =>
    rw [← List.cons_append]
    refine .fails (fun q' hq' => ?_) hq
    rcases List.mem_cons.mp hq' with h | h
    · cases h
      exact ⟨t, hr⟩
    · exact hbefore q' h

theorem fills_fill (text : Reference → Except Fault (List Char)) (ps : List (Piece Reference)) :
    Fills text ps (Text.fill text ps) := by
  induction ps with
  | nil => exact .done (fun _ => []) fun _ h => absurd h List.not_mem_nil
  | cons p ps ih =>
    cases p with
    | char c => exact ih.char c
    | mark r =>
      unfold Text.fill
      cases hr : text r with
      | error e =>
        rw [← List.nil_append (.mark r :: ps)]
        exact .fails (fun _ h => absurd h List.not_mem_nil) hr
      | ok t => exact ih.mark hr

/-! ## What references repeat -/

/-- The name that a reference looks up. -/
def Reference.key (r : Reference) : String := String.ofList (Text.trim r.name)

/-- The content of a variable, or the text of a message, that a reference repeats. -/
inductive Quotes (env : Environment) (r : Reference) : String → Prop
  | content {v ranges content} (variable_named : r.key ∉ env.aliases)
      (found : env.lookup r.key = some v) (ranges_read : readRanges r.ranges = .ok ranges)
      (usable : r.ranges = [] ∨ ranges ≠ []) (picked : content ∈ contents v ranges) :
      Quotes env r content
  | message {m ranges floor} (chat_named : r.key ∈ env.aliases)
      (ranges_read : readRanges r.ranges = .ok ranges)
      (picked : floor ∈ selectFloors env.messages.length ranges)
      (found : messageAt? env.messages floor = some m)
      (shown : FloorFormat.ShowsText env.floorFormat) : Quotes env r m.text

variable {env : Environment}

theorem infix_chatBlocks {format : String} {messages : List Message} {floors : List Int}
    {blocks : List String} {floor : Int} {m : Message} (hformat : FloorFormat.ShowsText format)
    (h : chatBlocks format messages floors = .ok blocks) (hfloor : floor ∈ floors)
    (hm : messageAt? messages floor = some m) :
    m.text.toList <:+: (joinBlocks blocks).toList := by
  by_cases hempty : m.text = ""
  · rw [hempty]
    exact List.nil_infix
  · suffices ∃ block ∈ blocks, formatFloor format floor m m.text = .ok block by
      obtain ⟨block, hblock, hrender⟩ := this
      exact (FloorFormat.infix_render hformat hrender).trans (infix_joinBlocks hblock)
    induction floors generalizing blocks with
    | nil => cases hfloor
    | cons f floors ih =>
      unfold chatBlocks at h
      rcases List.mem_cons.mp hfloor with rfl | hfloor
      · simp only [hm, if_neg hempty] at h
        split at h
        · cases h
        · next block hblock =>
          obtain ⟨rest, -, rfl⟩ := map_eq_ok h
          exact ⟨block, List.mem_cons_self, hblock⟩
      · split at h
        · exact ih h hfloor
        · split at h
          · exact ih h hfloor
          · split at h
            · cases h
            · obtain ⟨rest, hrest, rfl⟩ := map_eq_ok h
              obtain ⟨block, hblock, hformat⟩ := ih hrest hfloor
              exact ⟨block, List.mem_cons_of_mem _ hblock, hformat⟩

theorem text_of_alias (h : r.key ∈ env.aliases) : r.text env =
    (chatText env.floorFormat env.messages r.ranges).map String.toList := by
  have hcontains : env.aliases.contains (String.ofList (Text.trim r.name)) = true :=
    List.contains_iff_mem.mpr h
  unfold Reference.text
  dsimp only
  rw [if_pos hcontains]

theorem text_of_variable (h : r.key ∉ env.aliases) : r.text env =
    (variableText env.lookup r.key r.ranges).map String.toList := by
  have hcontains : ¬ env.aliases.contains (String.ofList (Text.trim r.name)) = true :=
    fun hc => h (List.contains_iff_mem.mp hc)
  unfold Reference.text
  dsimp only
  rw [if_neg hcontains]
  rfl

/-- What a reference repeats stands in its text. -/
theorem Quotes.within {content : String} (h : Quotes env r content) (hr : r.text env = .ok t) :
    content.toList <:+: t := by
  cases h with
  | @content v ranges content hname hv hranges husable hmem =>
    have husable' : (!r.ranges.isEmpty && ranges.isEmpty) = false := by
      rcases husable with h | h
      · rw [h]; rfl
      · rw [List.isEmpty_eq_false_iff.mpr h, Bool.and_false]
    rw [text_of_variable hname] at hr
    obtain ⟨text, htext, rfl⟩ := map_eq_ok hr
    unfold variableText at htext
    rw [hv, hranges] at htext
    obtain ⟨ranges', hranges', rfl⟩ := map_eq_ok htext
    cases hranges'
    rw [husable', if_neg Bool.false_ne_true]
    exact infix_joinBlocks hmem
  | @message m ranges floor hname hranges hfloor hm hshown =>
    rw [text_of_alias hname] at hr
    obtain ⟨text, htext, rfl⟩ := map_eq_ok hr
    unfold chatText at htext
    rw [hranges] at htext
    obtain ⟨ranges', hranges', htext⟩ := bind_eq_ok htext
    cases hranges'
    obtain ⟨blocks, hblocks, htext⟩ := bind_eq_ok htext
    cases htext
    exact infix_chatBlocks hshown hblocks hfloor hm

/-- The text of each reference stands in what its template becomes. -/
theorem Fills.contains {text : Reference → Except Fault (List Char)} (h : Fills text ps (.ok t))
    (hr : .mark r ∈ ps) : ∃ u, text r = .ok u ∧ u <:+: t := by
  generalize hout : (Except.ok t : Except Fault (List Char)) = out at h
  cases h with
  | done texts htexts =>
    cases hout
    refine ⟨texts r, htexts r hr, ?_⟩
    rw [List.flatMap_def]
    exact List.infix_of_mem_flatten (List.mem_map_of_mem (f := written texts) hr)
  | fails _ _ => cases hout

/-- A template is cut by its own text, after its builtins, and never again. -/
theorem resolve_fills (rounds lastFloor : Int) (template : String) :
    FloorFormat.ShowsText standardFloorFormat ∧
    ((∃ e, resolveBuiltins rounds lastFloor template.toList = .error e ∧
      ∀ messages aliases format lookup,
        resolve ⟨lastFloor, messages, aliases, format, lookup⟩ rounds template = .error e) ∨
    ∃ s ps, resolveBuiltins rounds lastFloor template.toList = .ok s ∧ Cuts s ps ∧
      ∀ messages aliases format lookup,
        let env : Environment := ⟨lastFloor, messages, aliases, format, lookup⟩
        ∃ out, Fills (Reference.text env) ps out ∧
          resolve env rounds template = out.map String.ofList ∧
          ∀ t, out = .ok t → ∀ r, .mark r ∈ ps → ∀ content, Quotes env r content →
            content.toList <:+: t) := by
  refine ⟨FloorFormat.showsText_standard, ?_⟩
  cases hs : resolveBuiltins rounds lastFloor template.toList with
  | error e =>
    refine .inl ⟨e, rfl, fun messages aliases format lookup => ?_⟩
    unfold resolve
    rw [hs]
    rfl
  | ok s =>
    refine .inr ⟨s, parts s, rfl, cuts_parts s, fun messages aliases format lookup => ?_⟩
    refine ⟨_, fills_fill _ (parts s), ?_, fun t ht r hr content hquotes => ?_⟩
    · unfold resolve
      rw [hs]
      rfl
    · obtain ⟨u, hu, hinfix⟩ := (ht ▸ fills_fill _ (parts s)).contains hr
      exact (hquotes.within hu).trans hinfix

/-- A content that writes a reference, a sum and a builtin is copied. -/
example : resolve ⟨2, [], [], standardFloorFormat, fun _ =>
      some (.slot ⟨"\x7b\x7blog\x7d\x7d@1+2\x7b\x7blastMessageId\x7d\x7d", none, none, [], -1⟩)⟩ 10
      "\x7b\x7b\x7blog\x7d\x7d@\x7b\x7blastMessageId\x7d\x7d+1+1" =
    .ok "\x7b\x7b\x7blog\x7d\x7d@1+2\x7b\x7blastMessageId\x7d\x7d@4" := by
  decide +kernel

end Template

end TagLedger
