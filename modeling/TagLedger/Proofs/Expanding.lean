import TagLedger.Proofs.Legible
import TagLedger.Proofs.Resolving

/-!
# Numbers in a template, round by round

A round fails where a numeral has more digits than can be read, or where the number that it stands
for would have; it fails nowhere else. No round makes a text longer, so in a text that is not longer
than a numeral may be no round fails, however many there are. A reference alone, if it is not a
builtin, is left as it is.

    expand rounds last s fails ↔ a text that is reached before the last round is strained
                                                                                 (fails_expand)
    s.length ≤ digitLimit  →  expand rounds last s = .ok t                 (expand_short)
-/

namespace TagLedger

namespace Text

variable {α ε : Type} {read : MarkReader α} {s : List Char}

theorem fails_readDigits {ds : List Char} : Fails (readDigits ds) ↔ digitLimit < ds.length := by
  unfold readDigits
  split
  · next h => exact ⟨fun hf => absurd hf (not_fails_ok _), fun hlt => absurd h (by omega)⟩
  · next h => exact ⟨fun _ => by omega, fun _ => fails_error _⟩

theorem readDigits_of_le {ds : List Char} (h : ds.length ≤ digitLimit) :
    readDigits ds = .ok (digitsValue ds) := if_pos h

/-- A text with marks can be put together unless one of the marks has no text. -/
theorem fails_fill {f : α → Except ε (List Char)} {ps : List (Piece α)} :
    Fails (fill f ps) ↔ ∃ a, .mark a ∈ ps ∧ Fails (f a) := by
  induction ps with
  | nil => exact ⟨nofun, fun ⟨_, h, _⟩ => absurd h List.not_mem_nil⟩
  | cons p ps ih =>
    cases p with
    | char c =>
      rw [fill, fails_map, ih]
      simp
    | mark a =>
      cases hfa : f a with
      | error e =>
        rw [fill, hfa]
        exact ⟨fun _ => ⟨a, List.mem_cons_self, e, hfa⟩, fun _ => fails_error e⟩
      | ok t =>
        rw [fill, hfa]
        dsimp only
        rw [fails_map, ih]
        refine ⟨fun ⟨b, hb, h⟩ => ⟨b, List.mem_cons_of_mem _ hb, h⟩, fun ⟨b, hb, h⟩ => ?_⟩
        rcases List.mem_cons.mp hb with heq | hb
        · cases heq
          rw [hfa] at h
          exact absurd h (not_fails_ok t)
        · exact ⟨b, hb, h⟩

theorem mem_marks {a : α} : a ∈ marks read s ↔ .mark a ∈ scan read s := by
  rw [marks, List.mem_filterMap]
  constructor
  · rintro ⟨p, hp, h⟩
    cases p with
    | char c => cases h
    | mark b =>
      cases h
      exact hp
  · exact fun h => ⟨_, h, rfl⟩

/-- A mark is found at some place of the text. -/
theorem exists_of_mem_marks {a : α} (h : a ∈ marks read s) :
    ∃ u n, u <:+ s ∧ read u = some (a, n) := by
  suffices hall : ∀ skip u, .mark a ∈ scanFrom read skip u → ∃ v n, v <:+ u ∧ read v = some (a, n)
    from hall 0 s (mem_marks.mp h)
  intro skip u
  induction u generalizing skip with
  | nil =>
    intro hmem
    cases skip <;> exact absurd hmem List.not_mem_nil
  | cons c u ih =>
    have hlater {k} (hmem : .mark a ∈ scanFrom read k u) :
        ∃ v n, v <:+ c :: u ∧ read v = some (a, n) := by
      obtain ⟨v, n, hv, hread⟩ := ih k hmem
      exact ⟨v, n, hv.trans (List.suffix_cons c u), hread⟩
    intro hmem
    cases skip with
    | succ k => exact hlater hmem
    | zero =>
      rw [scanFrom] at hmem
      split at hmem
      · next b n hread =>
        rcases List.mem_cons.mp hmem with heq | hmem
        · cases heq
          exact ⟨c :: u, n, List.suffix_refl _, hread⟩
        · exact hlater hmem
      · rcases List.mem_cons.mp hmem with heq | hmem
        · cases heq
        · exact hlater hmem

theorem eq_of_afterStart? {a b r : List Char} (h : afterStart? a b = some r) : b = a ++ r := by
  induction a generalizing b with
  | nil => exact Option.some.inj h
  | cons c a ih =>
    cases b with
    | nil => cases h
    | cons d b =>
      rw [afterStart?] at h
      split at h
      · next heq => rw [heq, ih h, List.cons_append]
      · cases h

theorem fill_chars (f : α → Except ε (List Char)) (s : List Char) :
    fill f (s.map Piece.char) = .ok s := by
  induction s with
  | nil => rfl
  | cons c s ih =>
    rw [List.map_cons, fill, ih]
    rfl

theorem fill_mark (f : α → Except ε (List Char)) (a : α) : fill f [.mark a] = f a := by
  rw [fill]
  cases f a with
  | error e => rfl
  | ok t => exact congrArg Except.ok (List.append_nil t)

/-- A text without marks is put together as it was. -/
theorem fill_unmarked (f : α → Except ε (List Char)) (h : Unmarked read s []) :
    fill f (scan read s) = .ok s := by
  have hscan := scan_unmarked h
  rw [List.append_nil] at hscan
  rw [hscan]
  simp only [scan, scanFrom, List.append_nil]
  exact fill_chars f s

/-- No text is longer than the marks that it is put for, so the whole does not get longer. -/
theorem length_fill_le {f : α → Except ε (List Char)} {t : List Char}
    (hread : ∀ u a n, read u = some (a, n) → 0 < n ∧ n ≤ u.length)
    (hmark : ∀ u a n v, u.length ≤ s.length → read u = some (a, n) → f a = .ok v → v.length ≤ n)
    (h : fill f (scan read s) = .ok t) : t.length ≤ s.length := by
  suffices hall : ∀ skip u v, u.length ≤ s.length → fill f (scanFrom read skip u) = .ok v →
      v.length ≤ u.length - skip from hall 0 s t (Nat.le_refl _) h
  intro skip u
  induction u generalizing skip with
  | nil =>
    intro v _ hv
    cases skip <;> (cases hv; simp)
  | cons c u ih =>
    intro v hu hv
    have hle : u.length ≤ s.length := by
      rw [List.length_cons] at hu
      omega
    cases skip with
    | succ k =>
      have hshort := ih k v hle hv
      rw [List.length_cons]
      omega
    | zero =>
      rw [scanFrom] at hv
      split at hv
      · next a n hmatch =>
        obtain ⟨hpos, hlen⟩ := hread _ a n hmatch
        rw [fill] at hv
        split at hv
        · cases hv
        · next w hw =>
          obtain ⟨rest, hrest, rfl⟩ := map_eq_ok hv
          have hshort := ih (n - 1) rest hle hrest
          have hv := hmark _ a n w hu hmatch hw
          rw [List.length_append, List.length_cons] at *
          omega
      · rw [fill] at hv
        obtain ⟨rest, hrest, rfl⟩ := map_eq_ok hv
        have hshort := ih 0 rest hle hrest
        rw [List.length_cons, List.length_cons]
        omega

/-! ## Trimming -/

theorem dropWhile_of_head {p : Char → Bool} (h : ∀ c ∈ s.head?, p c = false) :
    s.dropWhile p = s := by
  cases s with
  | nil => rfl
  | cons c s =>
    refine List.dropWhile_cons_of_neg ?_
    rw [h c rfl]
    exact Bool.false_ne_true

/-- A text with no blank at either end is not trimmed. -/
theorem trim_of_ends (hfirst : ∀ c ∈ s.head?, isBlank c = false)
    (hlast : ∀ c ∈ s.getLast?, isBlank c = false) : trim s = s := by
  unfold trim trimStart trimEnd dropEndWhile
  rw [dropWhile_of_head hfirst, dropWhile_of_head (by rwa [List.head?_reverse]),
    List.reverse_reverse]

theorem trim_of_unblank (h : ∀ c ∈ s, isBlank c = false) : trim s = s :=
  trim_of_ends (fun c hc => h c (List.mem_of_mem_head? hc))
    fun c hc => h c (List.mem_of_mem_getLast? hc)

end Text

namespace Template

open Text (digitLimit digitsValue)
open Json (Brief)

variable {last : Int} {s t : List Char}

/-! ## Numerals that are too long -/

theorem fails_numeral {n : Int} : Fails (numeral n) ↔ ¬ Brief n := by
  rw [numeral, fails_map]
  unfold Text.writeInt Brief
  split
  · next h => exact ⟨fun hf => absurd hf (not_fails_ok _), fun hn => absurd h hn⟩
  · next h => exact ⟨fun _ => h, fun _ => fails_error _⟩

/-- The digits that are added or taken off. -/
def Offset.digits : Offset → List Char
  | .none => []
  | .plus ds => ds
  | .minus ds => ds

/-- The number that an offset of the last floor makes. -/
def Offset.result (last : Int) : Offset → Int
  | .none => last
  | .plus ds => last + digitsValue ds
  | .minus ds => max 1 (last - digitsValue ds)

/-- The digits of an offset are too many, or those of the number that it makes. -/
def Offset.Overlong (last : Int) (o : Offset) : Prop :=
  digitLimit < o.digits.length ∨ ¬ Brief (o.result last)

def Sum.result (q : Sum) : Int := digitsValue q.left + digitsValue q.right

/-- The digits of a term are too many, or those of the sum. -/
def Sum.Overlong (q : Sum) : Prop :=
  digitLimit < q.left.length ∨ digitLimit < q.right.length ∨ ¬ Brief q.result

theorem Offset.value_of_le {o : Offset} (h : o.digits.length ≤ digitLimit) :
    o.value last = .ok (o.result last) := by
  cases o with
  | none => rfl
  | plus ds =>
    have hds : ds.length ≤ digitLimit := h
    rw [Offset.value, Text.readDigits_of_le hds]
    rfl
  | minus ds =>
    have hds : ds.length ≤ digitLimit := h
    rw [Offset.value, Text.readDigits_of_le hds]
    rfl

theorem Offset.fails_value {o : Offset} (h : digitLimit < o.digits.length) :
    Fails (o.value last) := by
  cases o with
  | none => exact absurd h (by decide)
  | plus ds => exact fails_map.mpr (Text.fails_readDigits.mpr h)
  | minus ds => exact fails_map.mpr (Text.fails_readDigits.mpr h)

theorem Offset.fails_text {o : Offset} : Fails (o.text last) ↔ o.Overlong last := by
  unfold Offset.text Offset.Overlong
  rcases Nat.lt_or_ge digitLimit o.digits.length with h | h
  · exact ⟨fun _ => .inl h, fun _ => fails_bind.mpr (.inl (fails_value h))⟩
  · rw [value_of_le h]
    exact fails_numeral.trans ⟨.inr, fun hor => hor.resolve_left (by omega)⟩

theorem Sum.fails_text {q : Sum} : Fails q.text ↔ q.Overlong := by
  unfold Sum.text Sum.Overlong
  rw [fails_bind, Text.fails_readDigits]
  refine or_congr_right' fun hleft => ?_
  rw [Text.readDigits_of_le (by omega)]
  constructor
  · rintro ⟨a, ha, h⟩
    cases ha
    rw [fails_bind, Text.fails_readDigits] at h
    refine h.imp_right ?_
    rintro ⟨b, hb, h⟩
    rw [fails_bind, fails_numeral] at h
    unfold Text.readDigits at hb
    split at hb
    · cases hb
      exact h.resolve_right fun ⟨_, _, hok⟩ => not_fails_ok _ hok
    · cases hb
  · intro h
    refine ⟨_, rfl, ?_⟩
    rw [fails_bind, Text.fails_readDigits]
    rcases Nat.lt_or_ge digitLimit q.right.length with hright | hright
    · exact .inl hright
    · refine .inr ⟨_, Text.readDigits_of_le hright, ?_⟩
      rw [fails_bind, fails_numeral]
      exact .inl (h.resolve_left (by omega))

/-! ## Rounds -/

/-- A builtin of the text makes too long a numeral, or a sum does once the builtins are replaced. -/
inductive Strained (last : Int) (s : List Char) : Prop
  | offset {o} (found : o ∈ Text.marks builtinMark s) (overlong : o.Overlong last)
  | sum {t q} (replaced : Text.fill (Offset.text last) (Text.scan builtinMark s) = .ok t)
      (found : q ∈ Text.marks sumMark t) (overlong : q.Overlong)

theorem fails_expandOnce : Fails (expandOnce last s) ↔ Strained last s := by
  unfold expandOnce
  refine fails_bind.trans ?_
  simp only [Text.fails_fill, Offset.fails_text, Sum.fails_text, ← Text.mem_marks]
  constructor
  · rintro (⟨o, ho, h⟩ | ⟨t, ht, q, hq, h⟩)
    · exact .offset ho h
    · exact .sum ht hq h
  · rintro (⟨ho, h⟩ | ⟨ht, hq, h⟩)
    · exact .inl ⟨_, ho, h⟩
    · exact .inr ⟨_, ht, _, hq, h⟩

/-- The text that so many rounds make of another. -/
inductive After (last : Int) : Nat → List Char → List Char → Prop
  | start {a : List Char} : After last 0 a a
  | round {k : Nat} {a b c : List Char} :
      expandOnce last a = .ok b → After last k b c → After last (k + 1) a c

/-- A text that a round leaves as it is stays as it is. -/
theorem After.settled {k : Nat} (hs : expandOnce last s = .ok s) (h : After last k s t) :
    t = s := by
  induction k generalizing t with
  | zero =>
    cases h
    rfl
  | succ k ih =>
    cases h with
    | round hround hrest =>
      cases hs.symm.trans hround
      exact ih hrest

/-- Replacing fails if a text is reached before the last round that is strained. -/
theorem fails_expand {rounds : Nat} : Fails (expand rounds last s) ↔
    ∃ k t, k < rounds ∧ After last k s t ∧ Strained last t := by
  induction rounds generalizing s with
  | zero => exact ⟨fun h => absurd h (not_fails_ok s), fun ⟨_, _, h, _⟩ => absurd h (Nat.not_lt_zero _)⟩
  | succ rounds ih =>
    rw [expand]
    cases hround : expandOnce last s with
    | error e =>
      have hstrained : Strained last s := fails_expandOnce.mp ⟨e, hround⟩
      exact ⟨fun _ => ⟨0, s, Nat.succ_pos rounds, .start, hstrained⟩, fun _ => fails_error e⟩
    | ok t =>
      have hsound : ¬ Strained last s := fun h => by
        have hfails := fails_expandOnce.mpr h
        rw [hround] at hfails
        exact not_fails_ok t hfails
      dsimp only
      split
      · next hsame =>
        subst hsame
        refine ⟨fun h => absurd h (not_fails_ok t), ?_⟩
        rintro ⟨k, u, -, hafter, hu⟩
        exact absurd (hafter.settled hround ▸ hu) hsound
      · rw [ih]
        constructor
        · rintro ⟨k, u, hk, hafter, hu⟩
          exact ⟨k + 1, u, Nat.succ_lt_succ hk, .round hround hafter, hu⟩
        · rintro ⟨k, u, hk, hafter, hu⟩
          cases hafter with
          | start => exact absurd hu hsound
          | @round k _ b _ hround' hafter =>
            cases hround.symm.trans hround'
            exact ⟨k, u, Nat.lt_of_succ_lt_succ hk, hafter, hu⟩

/-! ## Texts that do not get longer -/

theorem offsetOf_eq {r : List Char} {o : Offset} {k : Nat} (h : offsetOf r = (o, k)) :
    k ≤ r.length ∧ (o = .none ∧ k = 0 ∨ 0 < o.digits.length ∧ k = o.digits.length + 1) := by
  cases r with
  | nil =>
    cases h
    exact ⟨Nat.le_refl 0, .inl ⟨rfl, rfl⟩⟩
  | cons c r =>
    have htake : (r.takeWhile Text.isDigit).length ≤ r.length :=
      (List.takeWhile_prefix Text.isDigit).length_le
    rw [offsetOf] at h
    split at h
    · cases h
      exact ⟨Nat.zero_le _, .inl ⟨rfl, rfl⟩⟩
    · next hne =>
      have hpos : 0 < (r.takeWhile Text.isDigit).length := by
        rw [List.length_pos_iff]
        exact fun hnil => hne (by rw [hnil]; rfl)
      split at h
      · cases h
        exact ⟨Nat.succ_le_succ htake, .inr ⟨hpos, rfl⟩⟩
      · split at h
        · cases h
          exact ⟨Nat.succ_le_succ htake, .inr ⟨hpos, rfl⟩⟩
        · cases h
          exact ⟨Nat.zero_le _, .inl ⟨rfl, rfl⟩⟩

/-- A builtin is found where one of its names is written. -/
theorem builtinMark_eq_some {o : Offset} {n : Nat} (h : builtinMark s = some (o, n)) :
    ∃ name ∈ builtinNames, ∃ r k, s = name ++ r ∧ offsetOf r = (o, k) ∧ n = name.length + k := by
  obtain ⟨⟨name, r⟩, hfound, heq⟩ := Option.map_eq_some_iff.mp h
  obtain ⟨_, hmem, hstart⟩ := List.exists_of_findSome?_eq_some hfound
  obtain ⟨_, hr, hpair⟩ := Option.map_eq_some_iff.mp hstart
  cases hpair
  cases heq
  exact ⟨name, hmem, r, (offsetOf r).2, Text.eq_of_afterStart? hr, rfl, rfl⟩

/-- A sum is found where two terms stand with a plus sign between, after an at sign, and its second
term has all the digits that there are. -/
theorem sum_of_sumMark {q : Sum} {n : Nat} (h : sumMark s = some (q, n)) :
    (q.left ≠ [] ∧ ∀ c ∈ q.left, Text.isDigit c = true) ∧
      (q.right ≠ [] ∧ ∀ c ∈ q.right, Text.isDigit c = true) ∧
      n = q.left.length + q.right.length + 2 ∧
      ∃ r, s = '@' :: (q.left ++ '+' :: (q.right ++ r)) ∧ ∀ c ∈ r.head?, Text.isDigit c = false := by
  unfold sumMark at h
  split at h
  · next r =>
    dsimp only at h
    split at h
    · cases h
    · next hleft =>
      split at h
      · next r' hdrop =>
        split at h
        · cases h
        · next hright =>
          cases h
          have hdigits {ds : List Char} (hne : ¬ (ds.takeWhile Text.isDigit).isEmpty = true) :
              ds.takeWhile Text.isDigit ≠ [] ∧
                ∀ c ∈ ds.takeWhile Text.isDigit, Text.isDigit c = true :=
            ⟨fun hnil => hne (List.isEmpty_iff.mpr hnil), fun _ hc => List.mem_takeWhile_imp hc⟩
          have hr : r.takeWhile Text.isDigit ++ '+' :: r' = r := by
            rw [← hdrop]
            exact List.prefix_iff_eq_append.mp (List.takeWhile_prefix _)
          refine ⟨hdigits hleft, hdigits hright, rfl, r'.dropWhile Text.isDigit, ?_, fun c hc => ?_⟩
          · rw [List.takeWhile_append_dropWhile, hr]
          · have hstop := List.head?_dropWhile_not Text.isDigit r'
            rw [hc] at hstop
            exact hstop
      · cases h
  · cases h

theorem sumMark_eq_some {q : Sum} {n : Nat} (h : sumMark s = some (q, n)) :
    0 < q.left.length ∧ 0 < q.right.length ∧ n = q.left.length + q.right.length + 2 ∧
      ∃ r, s = '@' :: (q.left ++ '+' :: (q.right ++ r)) := by
  obtain ⟨hleft, hright, hlen, r, hr, -⟩ := sum_of_sumMark h
  exact ⟨List.length_pos_iff.mpr hleft.1, List.length_pos_iff.mpr hright.1, hlen, r, hr⟩

theorem length_of_mem_builtinNames {name : List Char} (h : name ∈ builtinNames) :
    name.length = 17 := by
  revert name
  decide

theorem length_numeral_le {n : Int} {k : Nat} {v : List Char} (hk : 0 < k)
    (hn : n.natAbs < 10 ^ k) (h : numeral n = .ok v) : v.length ≤ k + 1 := by
  obtain ⟨text, htext, rfl⟩ := map_eq_ok h
  have hdigits : (Text.natDigits n.natAbs).length ≤ k := Nat.toDigits_length 10 n.natAbs k hk hn
  unfold Text.writeInt at htext
  split at htext
  · cases htext
    rw [Text.intText, String.toList_ofList, Json.intDigits_eq]
    unfold Json.signed
    split
    · exact Nat.succ_le_succ hdigits
    · exact hdigits.trans (Nat.le_succ k)
  · cases htext

/-- The number of an offset has few digits, if that of the last floor has. -/
theorem Offset.result_lt {o : Offset} (hlast : last.natAbs < 10 ^ 16)
    (ho : o = .none ∨ 0 < o.digits.length) :
    (o.result last).natAbs < 10 ^ (16 + o.digits.length) := by
  have hone : 1 < 10 ^ 16 := by decide
  cases o with
  | none => exact hlast
  | plus ds =>
    have hpos : 0 < ds.length := ho.resolve_left nofun
    have hds : digitsValue ds < 10 ^ ds.length := Text.digitsValue_lt ds
    have hbase : 10 ≤ 10 ^ ds.length := Nat.le_self_pow (by omega) 10
    have hprod : 10 ^ 16 + 10 ^ ds.length ≤ 10 ^ 16 * 10 ^ ds.length := by
      generalize 10 ^ ds.length = b at hbase
      omega
    have habs : (last + digitsValue ds).natAbs ≤ last.natAbs + digitsValue ds := by omega
    change (last + digitsValue ds).natAbs < 10 ^ (16 + ds.length)
    rw [pow_add]
    omega
  | minus ds =>
    have hle : (max 1 (last - digitsValue ds)).natAbs ≤ max 1 last.natAbs := by omega
    refine hle.trans_lt ((max_lt hone hlast).trans_le (Nat.pow_le_pow_right (by decide) ?_))
    exact Nat.le_add_right 16 _

/-- An offset is not longer than what it stands for, and no longer than a numeral may be. -/
theorem Offset.short {o : Offset} {n : Nat} (hlast : last.natAbs < 10 ^ 16)
    (hs : s.length ≤ digitLimit) (h : builtinMark s = some (o, n)) :
    ¬ o.Overlong last ∧ ∀ v, o.text last = .ok v → v.length ≤ n := by
  obtain ⟨name, hname, r, k, rfl, hr, rfl⟩ := builtinMark_eq_some h
  obtain ⟨hk, hcases⟩ := offsetOf_eq hr
  rw [length_of_mem_builtinNames hname]
  rw [List.length_append, length_of_mem_builtinNames hname] at hs
  have ho : o = .none ∨ 0 < o.digits.length := hcases.imp And.left And.left
  have hresult := result_lt hlast ho
  have hdigits : 16 + o.digits.length + 1 ≤ 17 + k := by
    rcases hcases with ⟨rfl, rfl⟩ | ⟨-, rfl⟩
    · exact Nat.le_refl 17
    · omega
  refine ⟨fun hover => ?_, fun v hv => ?_⟩
  · rcases hover with hover | hover
    · omega
    · refine hover (Json.brief_of_lt (hresult.trans_le (Nat.pow_le_pow_right (by decide) ?_)))
      omega
  · unfold Offset.text at hv
    rw [value_of_le (by omega)] at hv
    exact (length_numeral_le (by omega) hresult hv).trans hdigits

/-- A sum is not longer than its terms, and no longer than a numeral may be. -/
theorem Sum.short {q : Sum} {n : Nat} (hs : s.length ≤ digitLimit) (h : sumMark s = some (q, n)) :
    ¬ q.Overlong ∧ ∀ v, q.text = .ok v → v.length ≤ n := by
  obtain ⟨hleft, hright, rfl, r, rfl⟩ := sumMark_eq_some h
  simp only [List.length_cons, List.length_append] at hs
  have hresult : q.result.natAbs < 10 ^ (q.left.length + q.right.length) := by
    have ha := Text.digitsValue_lt q.left
    have hb := Text.digitsValue_lt q.right
    have hbase {k : Nat} (hk : 0 < k) : 10 ≤ 10 ^ k := Nat.le_self_pow (by omega) 10
    have hprod : 10 ^ q.left.length + 10 ^ q.right.length ≤
        10 ^ q.left.length * 10 ^ q.right.length := by
      have hx := hbase hleft
      have hy := hbase hright
      generalize 10 ^ q.left.length = x at hx
      generalize 10 ^ q.right.length = y at hy
      nlinarith
    change (((digitsValue q.left : Nat) : Int) + (digitsValue q.right : Nat)).natAbs < _
    rw [pow_add]
    omega
  refine ⟨fun hover => ?_, fun v hv => ?_⟩
  · rcases hover with hover | hover | hover
    · omega
    · omega
    · refine hover (Json.brief_of_lt (hresult.trans_le (Nat.pow_le_pow_right (by decide) ?_)))
      omega
  · unfold Sum.text at hv
    rw [Text.readDigits_of_le (by omega), Text.readDigits_of_le (by omega)] at hv
    obtain ⟨_, ha, hv⟩ := bind_eq_ok hv
    cases ha
    obtain ⟨_, hb, hv⟩ := bind_eq_ok hv
    cases hb
    obtain ⟨w, hw, hv⟩ := bind_eq_ok hv
    cases hv
    have hlen := length_numeral_le (by omega) hresult hw
    rw [List.length_cons]
    omega

theorem builtinMark_bounds {o : Offset} {n : Nat} (h : builtinMark s = some (o, n)) :
    0 < n ∧ n ≤ s.length := by
  obtain ⟨name, hname, r, k, rfl, hr, rfl⟩ := builtinMark_eq_some h
  rw [List.length_append, length_of_mem_builtinNames hname]
  exact ⟨by omega, Nat.add_le_add_left (offsetOf_eq hr).1 17⟩

theorem sumMark_bounds {q : Sum} {n : Nat} (h : sumMark s = some (q, n)) :
    0 < n ∧ n ≤ s.length := by
  obtain ⟨-, -, rfl, r, rfl⟩ := sumMark_eq_some h
  simp only [List.length_cons, List.length_append]
  omega

theorem length_builtins_le (hlast : last.natAbs < 10 ^ 16) (hs : s.length ≤ digitLimit)
    (h : Text.fill (Offset.text last) (Text.scan builtinMark s) = .ok t) :
    t.length ≤ s.length := by
  refine Text.length_fill_le (fun _ _ _ => builtinMark_bounds) (fun u o n v hlen hu hv => ?_) h
  exact (Offset.short hlast (hlen.trans hs) hu).2 v hv

theorem length_sums_le (hs : s.length ≤ digitLimit)
    (h : Text.fill Sum.text (Text.scan sumMark s) = .ok t) : t.length ≤ s.length := by
  refine Text.length_fill_le (fun _ _ _ => sumMark_bounds) (fun u q n v hlen hu hv => ?_) h
  exact (Sum.short (hlen.trans hs) hu).2 v hv

theorem length_expandOnce_le (hlast : last.natAbs < 10 ^ 16) (hs : s.length ≤ digitLimit)
    (h : expandOnce last s = .ok t) : t.length ≤ s.length := by
  obtain ⟨u, hu, ht⟩ := bind_eq_ok h
  have hle := length_builtins_le hlast hs hu
  exact (length_sums_le (hle.trans hs) ht).trans hle

theorem not_strained (hlast : last.natAbs < 10 ^ 16) (hs : s.length ≤ digitLimit) :
    ¬ Strained last s := by
  rintro (⟨ho, hover⟩ | ⟨ht, hq, hover⟩)
  · obtain ⟨u, n, hu, hread⟩ := Text.exists_of_mem_marks ho
    exact (Offset.short hlast (hu.length_le.trans hs) hread).1 hover
  · obtain ⟨u, n, hu, hread⟩ := Text.exists_of_mem_marks hq
    have hle := length_builtins_le hlast hs ht
    exact (Sum.short (hu.length_le.trans (hle.trans hs)) hread).1 hover

theorem After.length_le {k : Nat} (hlast : last.natAbs < 10 ^ 16) (hs : s.length ≤ digitLimit)
    (h : After last k s t) : t.length ≤ s.length := by
  induction h with
  | start => exact Nat.le_refl _
  | round hround _ ih =>
    have hle := length_expandOnce_le hlast hs hround
    exact (ih (hle.trans hs)).trans hle

/-- No round fails in a text that is not longer than a numeral may be. -/
theorem expand_short (rounds : Nat) (hlast : last.natAbs < 10 ^ 16)
    (hs : s.length ≤ digitLimit) :
    ∃ t, expand rounds last s = .ok t ∧ t.length ≤ s.length := by
  have hsound : ¬ Fails (expand rounds last s) := by
    rw [fails_expand]
    rintro ⟨k, t, -, hafter, ht⟩
    exact not_strained hlast ((hafter.length_le hlast hs).trans hs) ht
  obtain ⟨t, ht⟩ := not_fails_iff.mp hsound
  refine ⟨t, ht, ?_⟩
  clear hsound
  induction rounds generalizing s with
  | zero =>
    cases ht
    exact Nat.le_refl _
  | succ rounds ih =>
    rw [expand] at ht
    split at ht
    · cases ht
    · next u hu =>
      have hle := length_expandOnce_le hlast hs hu
      split at ht
      · cases ht
        exact Nat.le_refl _
      · exact (ih (hle.trans hs) ht).trans hle

/-! ## Texts that are left as they are -/

/-- The names of builtins. -/
def builtins : List (List Char) := ["lastMessageId".toList, "LastMessageId".toList]

theorem builtinNames_eq :
    builtinNames = builtins.map fun x => Reference.source ⟨x, []⟩ := by
  decide

theorem isNameChar_of_mem_builtins {x : List Char} {c : Char} (hx : x ∈ builtins) (hc : c ∈ x) :
    isNameChar c = true := by
  have hall : (builtins.all fun x => x.all isNameChar) = true := by decide
  exact List.all_eq_true.mp (List.all_eq_true.mp hall x hx) c hc

theorem builtinMark_eq_none (h : '\x7b' ∉ s) : builtinMark s = none := by
  cases hmark : builtinMark s with
  | none => rfl
  | some found =>
    obtain ⟨name, hname, r, -, rfl, -⟩ := builtinMark_eq_some hmark
    rw [builtinNames_eq] at hname
    obtain ⟨x, -, rfl⟩ := List.mem_map.mp hname
    exact absurd (List.mem_append_left r List.mem_cons_self) h

/-- A sum stands between an at sign and a plus sign. -/
theorem sumMark_eq_none (h : '@' ∉ s ∨ '+' ∉ s) : sumMark s = none := by
  cases hmark : sumMark s with
  | none => rfl
  | some found =>
    obtain ⟨-, -, -, r, rfl⟩ := sumMark_eq_some hmark
    rcases h with h | h
    · exact absurd List.mem_cons_self h
    · exact absurd (by simp) h

theorem unmarked_sums (h : '@' ∉ s ∨ '+' ∉ s) : Text.Unmarked sumMark s [] := fun b hb _ => by
  rw [List.append_nil]
  exact sumMark_eq_none (h.imp (fun hat hmem => hat (hb.subset hmem))
    fun hplus hmem => hplus (hb.subset hmem))

theorem expandOnce_of_unmarked (hbuiltin : Text.Unmarked builtinMark s [])
    (hsum : '@' ∉ s ∨ '+' ∉ s) : expandOnce last s = .ok s := by
  unfold expandOnce
  rw [Text.fill_unmarked _ hbuiltin]
  exact Text.fill_unmarked _ (unmarked_sums hsum)

theorem expand_settled (rounds : Nat) (h : expandOnce last s = .ok s) :
    expand rounds last s = .ok s := by
  cases rounds with
  | zero => rfl
  | succ rounds =>
    rw [expand, h]
    exact if_pos rfl

/-- A text without braces and at signs is left as it is. -/
theorem expandOnce_plain (hopen : '\x7b' ∉ s) (hat : '@' ∉ s) : expandOnce last s = .ok s :=
  expandOnce_of_unmarked (fun b hb _ => by
    rw [List.append_nil]
    exact builtinMark_eq_none fun hmem => hopen (hb.subset hmem)) (.inl hat)

theorem Reference.WellFormed.no_open {r : Reference} (hr : r.WellFormed) :
    '\x7b' ∉ r.name ++ (r.ranges ++ ['\x7d', '\x7d']) := by
  have hname : '\x7b' ∉ r.name := fun h => absurd (hr.name_chars _ h).1 (by decide)
  have hranges : '\x7b' ∉ r.ranges := fun h => by
    rcases hr.ranges with hnil | ⟨spec, -, heq, hspec⟩
    · rw [hnil] at h
      exact List.not_mem_nil h
    · rw [heq] at h
      rcases List.mem_cons.mp h with h | h
      · exact absurd h (by decide)
      · exact absurd (hspec _ h) (by decide)
  simp [hname, hranges]

/-- A reference alone is a builtin, or none stands in it. -/
theorem builtinMark_source {r : Reference} (hr : r.WellFormed)
    (hbuiltin : r.ranges = [] → r.name ∉ builtins) : Text.Unmarked builtinMark r.source [] := by
  intro b hb _
  rw [List.append_nil]
  have hopen := hr.no_open
  rcases List.suffix_cons_iff.mp hb with rfl | hb
  · cases hmark : builtinMark r.source with
    | none => exact hmark
    | some found =>
      obtain ⟨name, hname, t, -, heq, -⟩ := builtinMark_eq_some hmark
      rw [builtinNames_eq] at hname
      obtain ⟨x, hx, rfl⟩ := List.mem_map.mp hname
      have hbody : r.name ++ (r.ranges ++ ['\x7d', '\x7d']) = x ++ ('\x7d' :: '\x7d' :: t) := by
        simpa [Reference.source] using heq
      have hrun : (x ++ '\x7d' :: '\x7d' :: t).takeWhile isNameChar = x :=
        takeWhile_run (fun c hc => isNameChar_of_mem_builtins hx hc) (by decide)
      have hchars : ∀ c ∈ r.name, isNameChar c = true := fun c hc => by
        obtain ⟨hbrace, hat⟩ := hr.name_chars c hc
        rw [isNameChar, hbrace, Bool.not_false, Bool.true_and, bne_iff_ne]
        exact hat
      rw [← hbody] at hrun
      rcases hr.ranges with hnil | ⟨spec, -, heq, -⟩
      · rw [hnil, List.nil_append, takeWhile_run hchars (by decide)] at hrun
        exact absurd (hrun ▸ hx) (hbuiltin hnil)
      · rw [heq, List.cons_append, takeWhile_run hchars (by decide)] at hrun
        rw [heq, hrun] at hbody
        simp at hbody
  · cases hmark : builtinMark b with
    | none => rfl
    | some found =>
      obtain ⟨name, hname, t, -, rfl, -⟩ := builtinMark_eq_some hmark
      rw [builtinNames_eq] at hname
      obtain ⟨x, -, rfl⟩ := List.mem_map.mp hname
      -- two opening braces stand in front, and only one is left
      have htail : '\x7b' ∈ r.name ++ (r.ranges ++ ['\x7d', '\x7d']) := by
        rcases List.suffix_cons_iff.mp hb with heq | hb
        · have hnext := (List.cons.inj heq).2
          rw [← hnext]
          exact List.mem_cons_self
        · exact hb.subset List.mem_cons_self
      exact absurd htail hopen

/-- A reference alone is left as it is, unless it is a builtin or holds a sum. -/
theorem expand_source {r : Reference} (rounds : Nat) (hr : r.WellFormed)
    (hbuiltin : r.ranges = [] → r.name ∉ builtins) (hsum : '@' ∉ r.source ∨ '+' ∉ r.source) :
    expand rounds last r.source = .ok r.source :=
  expand_settled rounds (expandOnce_of_unmarked (builtinMark_source hr hbuiltin) hsum)

/-- A reference alone is left by all rounds, and is all that is left. -/
theorem parts_source {r : Reference} (hr : r.WellFormed)
    (hbuiltin : r.ranges = [] → r.name ∉ builtins) (hsum : '@' ∉ r.source ∨ '+' ∉ r.source)
    (rounds last : Int) :
    resolveBuiltins rounds last r.source = .ok r.source ∧ parts r.source = [.mark r] := by
  constructor
  · rw [resolveBuiltins, expand_source _ hr hbuiltin hsum]
    rfl
  · have hcuts := Cuts.mark hr .nil
    rw [List.append_nil] at hcuts
    exact (cuts_iff.mp hcuts).symm

theorem plain_numeral {n : Int} (h : numeral n = .ok t) : '\x7b' ∉ t ∧ '@' ∉ t := by
  obtain ⟨text, htext, rfl⟩ := map_eq_ok h
  unfold Text.writeInt at htext
  split at htext
  · cases htext
    rw [Text.intText, String.toList_ofList, Json.intDigits_eq]
    have hdigits (c : Char) (hc : Text.isAsciiDigit c = false) (hminus : c ≠ '-') :
        c ∉ Json.signed (decide (n < 0)) (Text.natDigits n.natAbs) := fun hmem => by
      have hmem : c ∈ Text.natDigits n.natAbs := by
        unfold Json.signed at hmem
        split at hmem
        · exact (List.mem_cons.mp hmem).resolve_left hminus
        · exact hmem
      rw [Text.isAsciiDigit_of_mem_toDigits hmem] at hc
      cases hc
    exact ⟨hdigits _ (by decide) (by decide), hdigits _ (by decide) (by decide)⟩
  · cases htext

/-- A builtin alone becomes the number of the last floor. -/
theorem expand_builtin {x : List Char} (rounds : Nat) (hx : x ∈ builtins) :
    expand (rounds + 1) last (Reference.source ⟨x, []⟩) = numeral last := by
  have hmark : builtinMark (Reference.source ⟨x, []⟩) =
      some (.none, (Reference.source ⟨x, []⟩).length) := by
    revert x
    decide
  have hscan : Text.scan builtinMark (Reference.source ⟨x, []⟩) = [.mark .none] := by
    have h := Text.scan_mark (t := []) (source_ne ⟨x, []⟩) (by rw [List.append_nil]; exact hmark)
    rwa [List.append_nil] at h
  have hround : expandOnce last (Reference.source ⟨x, []⟩) = numeral last := by
    have htext : (Offset.none).text last = numeral last := rfl
    unfold expandOnce
    rw [hscan, Text.fill_mark, htext]
    cases hn : numeral last with
    | error e => rfl
    | ok t => exact Text.fill_unmarked _ (unmarked_sums (.inl (plain_numeral hn).2))
  rw [expand, hround]
  cases hn : numeral last with
  | error e => rfl
  | ok t =>
    have hplain := plain_numeral hn
    dsimp only
    split
    · next heq => rw [heq]
    · exact expand_settled rounds (expandOnce_plain hplain.1 hplain.2)

end Template

end TagLedger
