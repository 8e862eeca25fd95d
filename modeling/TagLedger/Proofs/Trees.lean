import TagLedger.Proofs.Faults
import TagLedger.Proofs.Fields
import TagLedger.Proofs.Numerals

/-!
# Document trees that read back

What is written for a tree is read as the tree, if its numerals are within the limit and its objects
hold each key once. Every tree that is read holds each key once.

    j.Keyed → j.writable → parseText (render style j) = .ok j            (parseText_render)
    parseText t = .ok j → j.Keyed                                        (keyed_of_parseText)
-/

namespace TagLedger.Json

open Text

/-! ## Texts -/

theorem hex_control : ∀ n < 32, hex 4 n = ['0', '0', (n / 16).digitChar, (n % 16).digitChar] ∧
    hexDigit? (n / 16).digitChar = some (n / 16) ∧
      hexDigit? (n % 16).digitChar = some (n % 16) := by
  decide

theorem readUnit?_hex {n : Nat} (hn : n < 32) {s : List Char} (hs : s ≠ []) :
    readUnit? (hex 4 n ++ s) = some (n, s) := by
  obtain ⟨hhex, hhigh, hlow⟩ := hex_control n hn
  have hzero : hexDigit? '0' = some 0 := by decide
  have hempty : s.isEmpty = false := List.isEmpty_eq_false_iff.mpr hs
  rw [hhex]
  simp only [List.cons_append, List.nil_append, readUnit?, hempty, Bool.false_eq_true, if_false,
    hzero, hhigh, hlow]
  rw [show ((0 * 16 + 0) * 16 + n / 16) * 16 + n % 16 = n by omega]

/-- An escaped character is read as the character. -/
theorem readQuoted_escapeChar (opening : List Char) (fuel : Nat) (done : List Char) (c : Char)
    {s : List Char} (hs : s ≠ []) :
    readQuoted opening (fuel + 1) done (escapeChar false c ++ s) =
      readQuoted opening fuel (c :: done) s := by
  by_cases hquote : c = '"'
  · subst hquote; rfl
  by_cases hslash : c = '\\'
  · subst hslash; rfl
  by_cases hline : c = '\n'
  · subst hline; rfl
  by_cases hreturn : c = '\r'
  · subst hreturn; rfl
  by_cases htab : c = '\t'
  · subst htab; rfl
  by_cases hback : c.toNat = 8
  · rw [← Char.ofNat_toNat c, hback]; rfl
  by_cases hfeed : c.toNat = 12
  · rw [← Char.ofNat_toNat c, hfeed]; rfl
  by_cases hlow : c.toNat < 32
  · have hescape : escapeChar false c = '\\' :: 'u' :: hex 4 c.toNat := by
      simp [escapeChar, hquote, hslash, hline, hreturn, htab, hback, hfeed, hlow, unitEscape]
    rw [hescape, List.cons_append, List.cons_append]
    have hunit : ¬(55296 ≤ c.toNat) := by omega
    simp [readQuoted, readUnit?_hex hlow hs, unitChar, hunit, Char.ofNat_toNat]
  · have hescape : escapeChar false c = [c] := by
      simp [escapeChar, hquote, hslash, hline, hreturn, htab, hback, hfeed, hlow]
    rw [hescape, List.singleton_append]
    simp [readQuoted, hquote, hslash, hlow]

theorem readQuoted_escaped (opening : List Char) (cs : List Char) (rest : List Char) (fuel : Nat)
    (done : List Char) (hfuel : cs.length < fuel) :
    readQuoted opening fuel done (cs.flatMap (escapeChar false) ++ '"' :: rest) =
      .ok (String.ofList (done.reverse ++ cs), rest) := by
  induction cs generalizing fuel done with
  | nil =>
    obtain ⟨n, rfl⟩ := Nat.exists_eq_add_of_lt hfuel
    simp [readQuoted]
  | cons c r ih =>
    obtain ⟨n, rfl⟩ : ∃ n, fuel = n + 1 := ⟨fuel - 1, by omega⟩
    rw [List.length_cons] at hfuel
    rw [List.flatMap_cons, List.append_assoc, readQuoted_escapeChar _ _ _ _ (by simp),
      ih n (c :: done) (by omega)]
    simp

theorem length_le_escaped (cs : List Char) :
    cs.length ≤ (cs.flatMap (escapeChar false)).length := by
  induction cs with
  | nil => exact Nat.le_refl _
  | cons c r ih =>
    have hpos : 0 < (escapeChar false c).length := by
      simp only [escapeChar, Bool.not_false, Bool.or_true, if_true]
      repeat' split
      all_goals simp [unitEscape]
    rw [List.flatMap_cons, List.length_append, List.length_cons]
    omega

theorem quoted_append (s : String) (rest : List Char) :
    quoted false s ++ rest = '"' :: (s.toList.flatMap (escapeChar false) ++ '"' :: rest) := by
  simp [quoted]

/-- A text is read back. -/
theorem readText_quoted (s : String) (rest : List Char) :
    readText (s.toList.flatMap (escapeChar false) ++ '"' :: rest) = .ok (s, rest) := by
  have hlength := length_le_escaped s.toList
  unfold readText
  rw [readQuoted_escaped _ _ _ _ _ (by rw [List.length_append]; omega)]
  simp

/-! ## Gaps -/

/-- White space only. -/
def AllGap (g : List Char) : Prop := ∀ c ∈ g, isGap c

theorem skipGap_append {g : List Char} (hg : AllGap g) (s : List Char) :
    skipGap (g ++ s) = skipGap s := List.dropWhile_append_of_pos hg

theorem skipGap_cons {c : Char} (hc : isGap c = false) (s : List Char) :
    skipGap (c :: s) = c :: s := by
  unfold skipGap
  rw [List.dropWhile_cons_of_neg (by simp [hc])]

theorem allGap_newline (level : Nat) : AllGap (newline level) := by
  intro c hc
  rcases List.mem_cons.mp hc with rfl | hc
  · decide
  · rw [List.eq_of_mem_replicate hc]
    decide

theorem stops_of_not_digit {c : Char} (s : List Char) (hc : c ∈ [',', ']', '\x7d', ' ', '\n']) :
    Stops (c :: s) := by
  have h : isAsciiDigit c = false ∧ c ≠ '.' ∧ c ≠ 'e' ∧ c ≠ 'E' := by
    simp only [List.mem_cons, List.not_mem_nil, or_false] at hc
    rcases hc with rfl | rfl | rfl | rfl | rfl <;> decide
  exact h

/-- Behind the last item of a collection, up to its bracket. -/
def Style.ending (style : Style) (level : Nat) : List Char :=
  if style.broken then newline level else []

/-- Between a comma and the next item. -/
def Style.gap (style : Style) (level : Nat) : List Char :=
  if style.broken then newline level else [' ']

theorem allGap_ending (style : Style) (level : Nat) : AllGap (style.ending level) := by
  unfold Style.ending
  split
  · exact allGap_newline level
  · intro c hc
    simp at hc

theorem allGap_gap (style : Style) (level : Nat) : AllGap (style.gap level) := by
  unfold Style.gap
  split
  · exact allGap_newline level
  · intro c hc
    rw [List.mem_singleton.mp hc]
    decide

theorem stops_ending (style : Style) (level : Nat) {c : Char} (hc : c = ']' ∨ c = '\x7d')
    (s : List Char) : Stops (style.ending level ++ c :: s) := by
  unfold Style.ending
  split
  · exact stops_of_not_digit _ (by simp)
  · exact stops_of_not_digit s (by rcases hc with rfl | rfl <;> simp)

theorem separator_eq (style : Style) (level : Nat) :
    style.separator level = ',' :: style.gap level := rfl

/-- The items of a collection with commas between them. -/
def Style.joined (style : Style) (level : Nat) (items : List (List Char)) : List Char :=
  (List.intersperse (style.separator level) items).flatten

theorem joined_singleton (style : Style) (level : Nat) (a : List Char) :
    style.joined level [a] = a := by
  simp [Style.joined]

theorem joined_cons (style : Style) (level : Nat) (a b : List Char) (items : List (List Char)) :
    style.joined level (a :: b :: items) =
      a ++ ',' :: (style.gap level ++ style.joined level (b :: items)) := by
  simp [Style.joined, separator_eq]

theorem wrap_cons (style : Style) (level : Nat) (l r : Char) (a : List Char)
    (items : List (List Char)) :
    style.wrap level l r (a :: items) =
      l :: (style.ending (level + 1) ++
        (style.joined (level + 1) (a :: items) ++ (style.ending level ++ [r]))) := by
  cases h : style.broken <;> simp [Style.wrap, Style.ending, Style.joined, h]

/-! ## Trees with distinct keys -/

mutual

/-- Every object in the tree holds each key once. -/
def Keyed : Json → Prop
  | .arr items => KeyedItems items
  | .obj fields => (keys fields).Nodup ∧ KeyedFields fields
  | _ => True

def KeyedItems : List Json → Prop
  | [] => True
  | j :: r => Keyed j ∧ KeyedItems r

def KeyedFields : List (String × Json) → Prop
  | [] => True
  | (_, j) :: r => Keyed j ∧ KeyedFields r

end

/-! ## Writing and reading trees -/

/-- A character that a tree may start with: neither white space nor a closing bracket. -/
structure Opens (c : Char) : Prop where
  gap : isGap c = false
  bracket : c ≠ ']'
  mark : c.toNat ≠ 0xFEFF

theorem opens_signed (negative : Bool) {s : List Char} (h : StartsDigit s) :
    ∃ c r, signed negative s = c :: r ∧ Opens c := by
  obtain ⟨c, r, rfl, hc⟩ := h
  cases negative with
  | true => exact ⟨'-', _, rfl, by decide, by decide, by decide⟩
  | false =>
    have hne : ∀ d, isAsciiDigit d = false → c ≠ d := fun d => digit_ne hc
    refine ⟨c, r, rfl, ?_, hne ']' (by decide), ?_⟩
    · simp [isGap, hne ' ' (by decide), hne '\t' (by decide), hne '\n' (by decide),
        hne '\r' (by decide)]
    · intro h
      simp [isAsciiDigit, h] at hc

theorem write_head (style : Style) (level : Nat) (j : Json) :
    ∃ c r, write style level j = c :: r ∧ Opens c := by
  cases j with
  | null => exact ⟨_, _, rfl, by decide, by decide, by decide⟩
  | bool b => cases b <;> exact ⟨_, _, rfl, by decide, by decide, by decide⟩
  | int n =>
    rw [write, intDigits_eq]
    have h := (whole_toDigits n.natAbs).startsDigit []
    rw [List.append_nil] at h
    exact opens_signed _ h
  | float x =>
    cases x with
    | finite x =>
      rw [write, text_finite]
      have hstops : Stops [] := trivial
      have h := startsDigit_of_readMagnitude? (readMagnitude?_magnitudeText x hstops)
      rw [List.append_nil] at h
      exact opens_signed _ h
    | infinite s => cases s <;> exact ⟨_, _, rfl, by decide, by decide, by decide⟩
    | nan => exact ⟨_, _, rfl, by decide, by decide, by decide⟩
  | str s => exact ⟨_, _, rfl, by decide, by decide, by decide⟩
  | arr items =>
    cases items with
    | nil => exact ⟨_, _, rfl, by decide, by decide, by decide⟩
    | cons i r =>
      rw [write, writeItems, wrap_cons]
      exact ⟨_, _, rfl, by decide, by decide, by decide⟩
  | obj fields =>
    cases fields with
    | nil => exact ⟨_, _, rfl, by decide, by decide, by decide⟩
    | cons f r =>
      rw [write, writeFields, wrap_cons]
      exact ⟨_, _, rfl, by decide, by decide, by decide⟩

/-- One blank before a tree is passed over. -/
theorem skipGap_write (style : Style) (level : Nat) (j : Json) (rest : List Char) :
    skipGap (' ' :: (write style level j ++ rest)) = write style level j ++ rest := by
  obtain ⟨c, s, hc, ho⟩ := write_head style level j
  rw [hc, List.cons_append]
  exact skipGap_cons ho.gap _

theorem not_mem_keys_of_nodup {done fields : List (String × Json)} {k : String} {j : Json}
    (h : (keys (done ++ (k, j) :: fields)).Nodup) : k ∉ keys done := by
  rw [keys_append, List.nodup_append] at h
  intro hk
  exact h.2.2 k hk k (by simp) rfl

theorem joined_head (style : Style) (level : Nat) (j : Json) (items : List Json) :
    ∃ c r, style.joined level (writeItems style level (j :: items)) = c :: r ∧ Opens c := by
  obtain ⟨c, s, hc, ho⟩ := write_head style level j
  cases items with
  | nil =>
    rw [writeItems, writeItems, joined_singleton]
    exact ⟨c, s, hc, ho⟩
  | cons i r =>
    rw [writeItems, writeItems, joined_cons, hc]
    exact ⟨c, _, rfl, ho⟩

theorem joined_quote (style : Style) (hs : style.ascii = false) (level : Nat) (k : String)
    (j : Json) (fields : List (String × Json)) :
    ∃ r, style.joined level (writeFields style level ((k, j) :: fields)) = '"' :: r := by
  cases fields with
  | nil =>
    rw [writeFields, writeFields, joined_singleton, hs, quoted_append]
    exact ⟨_, rfl⟩
  | cons f r =>
    rw [writeFields, writeFields, joined_cons, hs, quoted_append]
    exact ⟨_, rfl⟩

theorem readValue_plain {c : Char} {s : List Char} (fuel : Nat) (h1 : c ≠ '"') (h2 : c ≠ '[')
    (h3 : c ≠ '\x7b') : readValue (fuel + 1) (c :: s) = readPlain (c :: s) := by
  unfold readValue
  split
  · next h => exact absurd (List.cons.inj h).1 h1
  · next h => exact absurd (List.cons.inj h).1 h2
  · next h => exact absurd (List.cons.inj h).1 h3
  · rfl

theorem readValue_signed (fuel : Nat) (negative : Bool) {s : List Char} {x : Read Json}
    (h : readMagnitude? negative s = some x) :
    readValue (fuel + 1) (signed negative s) = readPlain (signed negative s) := by
  obtain ⟨c, r, rfl, hc⟩ := startsDigit_of_readMagnitude? h
  cases negative with
  | false =>
    exact readValue_plain fuel (digit_ne hc (by decide)) (digit_ne hc (by decide))
      (digit_ne hc (by decide))
  | true => exact readValue_plain fuel (by decide) (by decide) (by decide)

mutual

/-- What is written for a tree is read as the tree. -/
theorem readValue_write {style : Style} (hs : style.ascii = false) :
    ∀ (j : Json) (level fuel : Nat) (rest : List Char), j.Keyed → j.writable → Stops rest →
      (write style level j).length ≤ fuel →
      readValue fuel (write style level j ++ rest) = .ok (j, rest)
  | j, level, 0, rest, _, _, _, hfuel => by
    obtain ⟨c, s, hc, -⟩ := write_head style level j
    rw [hc] at hfuel
    exact absurd hfuel (Nat.not_succ_le_zero _)
  | .null, level, fuel + 1, rest, _, _, _, _ => rfl
  | .bool true, level, fuel + 1, rest, _, _, _, _ => rfl
  | .bool false, level, fuel + 1, rest, _, _, _, _ => rfl
  | .int n, level, fuel + 1, rest, _, hw, hr, _ => by
    have hn : (natDigits n.natAbs).length ≤ digitLimit := of_decide_eq_true hw
    have hread := readMagnitude?_whole (decide (n < 0)) (whole_toDigits n.natAbs) hn hr
    rw [← readPlain_intDigits hn hr, write, intDigits_eq, signed_append]
    exact readValue_signed fuel _ hread
  | .float (.finite x), level, fuel + 1, rest, _, _, hr, _ => by
    rw [← readPlain_text (.finite x) hr, write, text_finite, signed_append]
    exact readValue_signed fuel _ (readMagnitude?_magnitudeText x hr)
  | .float (.infinite true), level, fuel + 1, rest, _, _, _, _ => rfl
  | .float (.infinite false), level, fuel + 1, rest, _, _, _, _ => rfl
  | .float .nan, level, fuel + 1, rest, _, _, _, _ => rfl
  | .str s, level, fuel + 1, rest, _, _, _, _ => by
    rw [write, hs, quoted_append]
    simp only [readValue, readText_quoted]
    rfl
  | .arr [], level, fuel + 1, rest, _, _, _, _ => rfl
  | .arr (j :: r), level, fuel + 1, rest, hk, hw, _, hfuel => by
    have hread := readItems_write hs j r (level + 1) fuel (style.ending level) rest
      (allGap_ending style level) (stops_ending style level (Or.inl rfl) rest) hk hw
    obtain ⟨c, s, hc, ho⟩ := joined_head style (level + 1) j r
    rw [write, writeItems, wrap_cons, ← writeItems] at hfuel ⊢
    simp only [List.length_cons, List.length_append] at hfuel
    have hbody := hread (by omega)
    simp only [List.cons_append, List.append_assoc, List.nil_append, readValue,
      skipGap_append (allGap_ending style (level + 1))]
    rw [hc] at hbody ⊢
    simp only [List.cons_append] at hbody ⊢
    rw [skipGap_cons ho.gap]
    split
    · next h => exact absurd (List.cons.inj h).1 ho.bracket
    · rw [hbody]
      rfl
  | .obj [], level, fuel + 1, rest, _, _, _, _ => rfl
  | .obj ((k, j) :: r), level, fuel + 1, rest, hk, hw, _, hfuel => by
    have hread := readFields_write hs [] k j r (level + 1) fuel (style.ending level) rest
      (allGap_ending style level) (stops_ending style level (Or.inr rfl) rest) hk.1 hk.2 hw
    obtain ⟨s, hc⟩ := joined_quote style hs (level + 1) k j r
    rw [write, writeFields, wrap_cons, ← writeFields] at hfuel ⊢
    simp only [List.length_cons, List.length_append] at hfuel
    have hbody := hread (by omega)
    simp only [List.cons_append, List.append_assoc, List.nil_append, readValue,
      skipGap_append (allGap_ending style (level + 1))]
    rw [hc] at hbody ⊢
    simp only [List.cons_append] at hbody ⊢
    rw [skipGap_cons (by decide)]
    change (readFields fuel [] _).map _ = _
    rw [hbody]
    rfl

theorem readItems_write {style : Style} (hs : style.ascii = false) :
    ∀ (j : Json) (items : List Json) (level fuel : Nat) (g rest : List Char), AllGap g →
      Stops (g ++ ']' :: rest) → KeyedItems (j :: items) → writableItems (j :: items) →
      (style.joined level (writeItems style level (j :: items))).length < fuel →
      readItems fuel (style.joined level (writeItems style level (j :: items)) ++
        (g ++ ']' :: rest)) = .ok (j :: items, rest)
  | j, [], level, fuel + 1, g, rest, hg, hr, hk, hw, hfuel => by
    rw [writableItems, writableItems, Bool.and_true] at hw
    rw [writeItems, writeItems, joined_singleton] at hfuel ⊢
    have hj := readValue_write hs j level fuel (g ++ ']' :: rest) hk.1 hw hr (by omega)
    simp only [readItems, hj, skipGap_append hg]
    rw [skipGap_cons (by decide)]
    rfl
  | j, i :: r, level, fuel + 1, g, rest, hg, hr, hk, hw, hfuel => by
    rw [writableItems, Bool.and_eq_true] at hw
    rw [writeItems, writeItems, joined_cons, ← writeItems] at hfuel ⊢
    simp only [List.length_cons, List.length_append] at hfuel
    have hj := readValue_write hs j level fuel
      (',' :: (style.gap level ++ style.joined level (writeItems style level (i :: r)) ++
        (g ++ ']' :: rest))) hk.1 hw.1 (stops_of_not_digit _ (by simp)) (by omega)
    have hrest := readItems_write hs i r level fuel g rest hg hr hk.2 hw.2 (by omega)
    obtain ⟨c, s, hc, ho⟩ := joined_head style level i r
    simp only [List.cons_append, List.append_assoc] at hj ⊢
    simp only [readItems, hj]
    rw [skipGap_cons (by decide)]
    simp only [skipGap_append (allGap_gap style level)]
    rw [hc] at hrest ⊢
    simp only [List.cons_append] at hrest ⊢
    rw [skipGap_cons ho.gap, hrest]
    rfl

theorem readFields_write {style : Style} (hs : style.ascii = false) :
    ∀ (done : List (String × Json)) (k : String) (j : Json) (fields : List (String × Json))
      (level fuel : Nat) (g rest : List Char), AllGap g → Stops (g ++ '\x7d' :: rest) →
      (keys (done ++ (k, j) :: fields)).Nodup → KeyedFields ((k, j) :: fields) →
      writableFields ((k, j) :: fields) →
      (style.joined level (writeFields style level ((k, j) :: fields))).length < fuel →
      readFields fuel done (style.joined level (writeFields style level ((k, j) :: fields)) ++
        (g ++ '\x7d' :: rest)) = .ok (done ++ (k, j) :: fields, rest)
  | done, k, j, [], level, fuel + 1, g, rest, hg, hr, hn, hk, hw, hfuel => by
    rw [writableFields, writableFields, Bool.and_true] at hw
    rw [writeFields, writeFields, joined_singleton, hs] at hfuel ⊢
    simp only [List.length_cons, List.length_append] at hfuel
    have hj := readValue_write hs j level fuel (g ++ '\x7d' :: rest) hk.1 hw hr (by omega)
    rw [List.append_assoc, quoted_append]
    simp only [readFields, readText_quoted, List.cons_append]
    rw [skipGap_cons (by decide)]
    simp only [skipGap_write, hj, skipGap_append hg]
    rw [skipGap_cons (by decide), insert_of_not_mem (not_mem_keys_of_nodup hn)]
    rfl
  | done, k, j, (k', j') :: r, level, fuel + 1, g, rest, hg, hr, hn, hk, hw, hfuel => by
    rw [writableFields, Bool.and_eq_true] at hw
    rw [writeFields, writeFields, joined_cons, ← writeFields, hs] at hfuel ⊢
    simp only [List.length_cons, List.length_append] at hfuel
    have hj := readValue_write hs j level fuel
      (',' :: (style.gap level ++ style.joined level (writeFields style level ((k', j') :: r)) ++
        (g ++ '\x7d' :: rest))) hk.1 hw.1 (stops_of_not_digit _ (by simp)) (by omega)
    have hnext : (keys ((done ++ [(k, j)]) ++ (k', j') :: r)).Nodup := by
      rw [List.append_assoc]
      exact hn
    have hrest := readFields_write hs (done ++ [(k, j)]) k' j' r level fuel g rest hg hr hnext
      hk.2 hw.2 (by omega)
    obtain ⟨t, ht⟩ := joined_quote style hs level k' j' r
    rw [List.append_assoc, List.append_assoc, quoted_append]
    simp only [List.cons_append, List.append_assoc] at hj ⊢
    simp only [readFields, readText_quoted]
    rw [skipGap_cons (by decide)]
    simp only [skipGap_write, hj]
    rw [skipGap_cons (by decide), insert_of_not_mem (not_mem_keys_of_nodup hn)]
    simp only [skipGap_append (allGap_gap style level)]
    rw [ht] at hrest ⊢
    simp only [List.cons_append] at hrest ⊢
    rw [skipGap_cons (by decide), hrest, List.append_assoc]
    rfl

end

/-- The text of a tree writes the tree. -/
theorem parseText_render {style : Style} (hs : style.ascii = false) {j : Json} (hk : j.Keyed)
    (hw : j.writable) : parseText (render style j) = .ok j := by
  obtain ⟨c, s, hc, ho⟩ := write_head style 0 j
  have hread := readValue_write hs j 0 ((c :: s).length + 1) [] hk hw trivial
    (by rw [hc]; exact Nat.le_succ _)
  rw [List.append_nil, hc] at hread
  have hmark : (c.toNat == 0xFEFF) = false := beq_eq_false_iff_ne.mpr ho.mark
  unfold parseText render
  rw [String.toList_ofList, hc]
  simp only [parse, hmark, Bool.false_eq_true, if_false, parse.go, skipGap_cons ho.gap, hread]
  rfl

/-! ## Trees that are read -/

theorem keyedFields_iff {fields : List (String × Json)} :
    KeyedFields fields ↔ ∀ f ∈ fields, f.2.Keyed := by
  induction fields with
  | nil => simp [KeyedFields]
  | cons f r ih => simp [KeyedFields, ih]

theorem keyedItems_iff {items : List Json} : KeyedItems items ↔ ∀ j ∈ items, j.Keyed := by
  induction items with
  | nil => simp [KeyedItems]
  | cons j r ih => simp [KeyedItems, ih]

theorem keyed_find? {fields : List (String × Json)} (h : KeyedFields fields) {k : String} {j : Json}
    (hf : find? fields k = some j) : j.Keyed :=
  keyedFields_iff.mp h (k, j) (mem_of_find? hf)

theorem writableFields_iff {fields : List (String × Json)} :
    writableFields fields = true ↔ ∀ f ∈ fields, f.2.writable = true := by
  induction fields with
  | nil => simp [writableFields]
  | cons f r ih => simp [writableFields, ih]

theorem writableItems_iff {items : List Json} :
    writableItems items = true ↔ ∀ j ∈ items, j.writable = true := by
  induction items with
  | nil => simp [writableItems]
  | cons j r ih => simp [writableItems, ih]

/-- Every tree that is read has a property if words and numbers have it and if it goes from the
parts of a tree to the tree. -/
structure ReadClosed (P : Json → Prop) : Prop where
  word : ∀ w ∈ words, P w.2
  int : ∀ ds n, readDigits ds = .ok n → ∀ negative : Bool, P (.int (if negative then -n else n))
  float : ∀ x, P (.float x)
  str : ∀ s, P (.str s)
  arr : ∀ items, (∀ j ∈ items, P j) → P (.arr items)
  obj : ∀ fields, (keys fields).Nodup → (∀ f ∈ fields, P f.2) → P (.obj fields)

namespace ReadClosed

variable {P : Json → Prop} {s r : List Char} {j : Json}

theorem readMagnitude? (hP : ReadClosed P) {negative : Bool}
    (h : Json.readMagnitude? negative s = some (.ok (j, r))) : P j := by
  unfold Json.readMagnitude? at h
  split at h
  · cases h
  · simp only at h
    split at h
    · split at h
      · next n hn =>
        cases h
        exact hP.int _ n hn negative
      · cases h
    · cases h
      exact hP.float _

theorem readPlain (hP : ReadClosed P) (h : Json.readPlain s = .ok (j, r)) : P j := by
  unfold Json.readPlain at h
  split at h
  · next j' r' hfound =>
    obtain ⟨w, hw, hmap⟩ := List.exists_of_findSome?_eq_some hfound
    obtain ⟨r'', -, heq⟩ := Option.map_eq_some_iff.mp hmap
    cases heq
    cases h
    exact hP.word w hw
  · cases hn : readNumber? s with
    | none =>
      rw [hn] at h
      cases h
    | some x =>
      rw [hn] at h
      change x = _ at h
      subst h
      unfold readNumber? at hn
      split at hn <;> exact hP.readMagnitude? hn

/-- What is read with some fuel has the property. -/
structure Reads (P : Json → Prop) (fuel : Nat) : Prop where
  value : ∀ {s : List Char} {j : Json} {r : List Char}, readValue fuel s = .ok (j, r) → P j
  items : ∀ {s : List Char} {items : List Json} {r : List Char},
    readItems fuel s = .ok (items, r) → ∀ j ∈ items, P j
  fields : ∀ {done : List (String × Json)} {s : List Char} {fields : List (String × Json)}
    {r : List Char}, readFields fuel done s = .ok (fields, r) → (keys done).Nodup →
    (∀ f ∈ done, P f.2) → (keys fields).Nodup ∧ ∀ f ∈ fields, P f.2

theorem readValue {fuel : Nat} (hP : ReadClosed P) (ih : Reads P fuel)
    (h : Json.readValue (fuel + 1) s = .ok (j, r)) : P j := by
  unfold Json.readValue at h
  split at h
  · obtain ⟨a, -, ha⟩ := map_eq_ok h
    cases ha
    exact hP.str _
  · split at h
    · cases h
      exact hP.arr [] nofun
    · obtain ⟨⟨items, r'⟩, hread, ha⟩ := map_eq_ok h
      cases ha
      exact hP.arr items (ih.items hread)
  · split at h
    · cases h
      exact hP.obj [] List.nodup_nil nofun
    · obtain ⟨⟨fields, r'⟩, hread, ha⟩ := map_eq_ok h
      cases ha
      obtain ⟨hn, hfields⟩ := ih.fields hread List.nodup_nil nofun
      exact hP.obj fields hn hfields
  · exact hP.readPlain h

theorem readItems {fuel : Nat} (ih : Reads P fuel) {items : List Json}
    (h : Json.readItems (fuel + 1) s = .ok (items, r)) : ∀ j ∈ items, P j := by
  unfold Json.readItems at h
  split at h
  · cases h
  · next j r' hvalue =>
    split at h
    · cases h
      exact List.forall_mem_singleton.mpr (ih.value hvalue)
    · obtain ⟨⟨rest, r''⟩, hread, ha⟩ := map_eq_ok h
      cases ha
      exact List.forall_mem_cons.mpr ⟨ih.value hvalue, ih.items hread⟩
    · cases h

theorem readFields {fuel : Nat} (ih : Reads P fuel) {done fields : List (String × Json)}
    (h : Json.readFields (fuel + 1) done s = .ok (fields, r)) (hn : (keys done).Nodup)
    (hdone : ∀ f ∈ done, P f.2) : (keys fields).Nodup ∧ ∀ f ∈ fields, P f.2 := by
  unfold Json.readFields at h
  split at h
  · split at h
    · cases h
    · next k r1 htext =>
      split at h
      · split at h
        · cases h
        · next j r2 hvalue =>
          have hn' := nodup_keys_insert hn k j
          have hdone' : ∀ f ∈ insert done k j, P f.2 := fun f hf => by
            rcases mem_insert hf with rfl | hf
            · exact ih.value hvalue
            · exact hdone f hf
          simp only at h
          split at h
          · cases h
            exact ⟨hn', hdone'⟩
          · exact ih.fields h hn' hdone'
          · cases h
      · cases h
  · cases h

theorem reads (hP : ReadClosed P) (fuel : Nat) : Reads P fuel := by
  induction fuel with
  | zero =>
    refine ⟨fun h => ?_, fun h => ?_, fun h => ?_⟩
    · simp [Json.readValue] at h
    · simp [Json.readItems] at h
    · simp [Json.readFields] at h
  | succ fuel ih => exact ⟨hP.readValue ih, readItems ih, readFields ih⟩

theorem parseText (hP : ReadClosed P) {t : String} (h : Json.parseText t = .ok j) : P j := by
  have hgo : ∀ {text : List Char}, parse.go text = .ok j → P j := by
    intro text hgo
    unfold parse.go at hgo
    split at hgo
    · cases hgo
    · next j' r hread =>
      split at hgo
      · cases hgo
        exact (hP.reads _).value hread
      · cases hgo
  unfold Json.parseText parse at h
  split at h
  · split at h
    · cases h
    · exact hgo h
  · exact hgo h

end ReadClosed

theorem readClosed_keyed : ReadClosed Keyed where
  word := by simp [words, Keyed]
  int _ _ _ _ := trivial
  float _ := trivial
  str _ := trivial
  arr _ h := keyedItems_iff.mpr h
  obj _ hn h := ⟨hn, keyedFields_iff.mpr h⟩

/-- A tree that is read holds each key once. -/
theorem keyed_of_parseText {t : String} {j : Json} (h : parseText t = .ok j) : j.Keyed :=
  readClosed_keyed.parseText h

end TagLedger.Json
