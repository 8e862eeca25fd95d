import TagLedger.Proofs.Matching
import TagLedger.Proofs.Resolving
import TagLedger.Transcript.Script

/-!
# What scripts replace

A search is a pattern between slashes with small letters after it, or all of it is the pattern. A
replacement is read from left to right; the digits of a group that the pattern does not have stay as
they are. A run leaves what is not matched as it stands and puts the replacement in the place of
every match, or of the first one. It fails only if the pattern asks for a repetition without bound
or for two kinds of classes at once, or if a numeral of more than `digitLimit` digits stands in the
pattern, or in the replacement when there is a match.

    s.run text = r ↔ s.RunsTo text r
    with "$&" in place of each match, the text is left as it was           (replaces_exact)
-/

namespace TagLedger

/-! ## Replacements -/

namespace Pattern

/-- What a replacement is read as. A dollar sign is one if neither digits nor `&` nor another dollar
sign follow, and of two the first takes the other with it. -/
inductive Spells : List Char → List Part → Prop
  | nil : Spells [] []
  | plain {c : Char} {r : List Char} {ps : List Part} : c ≠ '$' → Spells r ps →
      Spells (c :: r) (.text c :: ps)
  | dollar {r : List Char} {ps : List Part} : Spells r ps →
      Spells ('$' :: '$' :: r) (.text '$' :: ps)
  | whole {r : List Char} {ps : List Part} : Spells r ps → Spells ('$' :: '&' :: r) (.whole :: ps)
  | group {ds r : List Char} {ps : List Part} : ds ≠ [] → (∀ c ∈ ds, Text.isDigit c = true) →
      (∀ c ∈ r.head?, Text.isDigit c = false) → Spells r ps →
      Spells ('$' :: (ds ++ r)) (.group ds :: ps)
  | lone {r : List Char} {ps : List Part} :
      (∀ c ∈ r.head?, c ≠ '$' ∧ c ≠ '&' ∧ Text.isDigit c = false) → Spells r ps →
      Spells ('$' :: r) (.text '$' :: ps)

section Parts

variable {fuel groups : Nat} {r ds : List Char} {ps : List Part}

/-- What may follow a dollar sign. -/
theorem after_dollar (r : List Char) : (∃ t, r = '$' :: t) ∨ (∃ t, r = '&' :: t) ∨
    (∃ ds t, r = ds ++ t ∧ ds ≠ [] ∧ (∀ c ∈ ds, Text.isDigit c = true) ∧
      ∀ c ∈ t.head?, Text.isDigit c = false) ∨
    ∀ c ∈ r.head?, c ≠ '$' ∧ c ≠ '&' ∧ Text.isDigit c = false := by
  rcases r with _ | ⟨d, r⟩
  · exact .inr (.inr (.inr nofun))
  by_cases hdollar : d = '$'
  · exact .inl ⟨r, by rw [hdollar]⟩
  by_cases hwhole : d = '&'
  · exact .inr (.inl ⟨r, by rw [hwhole]⟩)
  by_cases hdigit : Text.isDigit d = true
  · refine .inr (.inr (.inl ⟨d :: r.takeWhile Text.isDigit, r.dropWhile Text.isDigit, ?_,
      List.cons_ne_nil _ _, ?_, fun c hc => ?_⟩))
    · rw [List.cons_append, List.takeWhile_append_dropWhile]
    · exact List.forall_mem_cons.mpr ⟨hdigit, fun c hc => List.mem_takeWhile_imp hc⟩
    · have hnot := List.head?_dropWhile_not Text.isDigit r
      rwa [hc] at hnot
  · refine .inr (.inr (.inr fun c hc => ?_))
    obtain rfl := Option.some.inj hc
    exact ⟨hdollar, hwhole, Bool.eq_false_iff.mpr hdigit⟩

/-- Every replacement can be read. -/
theorem exists_spells (s : List Char) : ∃ ps, Spells s ps := by
  induction hn : s.length using Nat.strongRecOn generalizing s with
  | ind n ih =>
    subst hn
    rcases s with _ | ⟨c, r⟩
    · exact ⟨[], .nil⟩
    have rest (t : List Char) (ht : t.length ≤ r.length) : ∃ ps, Spells t ps :=
      ih t.length (Nat.lt_succ_of_le ht) t rfl
    by_cases hc : c = '$'
    · subst hc
      rcases after_dollar r with ⟨t, rfl⟩ | ⟨t, rfl⟩ | ⟨ds, t, rfl, hds, hdigits, ht⟩ | hlone
      · obtain ⟨ps, hps⟩ := rest t (Nat.le_succ _)
        exact ⟨_, .dollar hps⟩
      · obtain ⟨ps, hps⟩ := rest t (Nat.le_succ _)
        exact ⟨_, .whole hps⟩
      · obtain ⟨ps, hps⟩ := rest t (List.length_append ▸ Nat.le_add_left _ _)
        exact ⟨_, .group hds hdigits ht hps⟩
      · obtain ⟨ps, hps⟩ := rest r (Nat.le_refl _)
        exact ⟨_, .lone hlone hps⟩
    · obtain ⟨ps, hps⟩ := rest r (Nat.le_refl _)
      exact ⟨_, .plain hc hps⟩

theorem parts_lone (h : ∀ c ∈ r.head?, c ≠ '$' ∧ c ≠ '&' ∧ Text.isDigit c = false) :
    parts (fuel + 1) ('$' :: r) = .text '$' :: parts fuel r := by
  have htake : r.takeWhile Text.isDigit = [] :=
    Template.takeWhile_append_of_head (List.forall_mem_nil _) fun c hc => (h c hc).2.2
  have hdollar (t : List Char) (ht : r = '$' :: t) : False := (h '$' (by rw [ht]; rfl)).1 rfl
  have hwhole (t : List Char) (ht : r = '&' :: t) : False := (h '&' (by rw [ht]; rfl)).2.1 rfl
  rw [parts, htake]
  · rfl
  · exact hdollar
  · exact hwhole

theorem parts_group (hds : ds ≠ []) (hdigits : ∀ c ∈ ds, Text.isDigit c = true)
    (hr : ∀ c ∈ r.head?, Text.isDigit c = false) :
    parts (fuel + 1) ('$' :: (ds ++ r)) = .group ds :: parts fuel r := by
  obtain ⟨d, ds, rfl⟩ := List.exists_cons_of_ne_nil hds
  have hdigit : Text.isDigit d = true := hdigits d List.mem_cons_self
  have htake : (d :: ds ++ r).takeWhile Text.isDigit = d :: ds :=
    Template.takeWhile_append_of_head hdigits hr
  have hdollar (t : List Char) (ht : d :: ds ++ r = '$' :: t) : False := by
    obtain ⟨rfl, -⟩ := List.cons.inj ht
    exact absurd hdigit (by decide)
  have hwhole (t : List Char) (ht : d :: ds ++ r = '&' :: t) : False := by
    obtain ⟨rfl, -⟩ := List.cons.inj ht
    exact absurd hdigit (by decide)
  rw [parts, htake, List.drop_left]
  · rfl
  · exact hdollar
  · exact hwhole

/-- A replacement is read as its parts. -/
theorem parts_of_spells {s : List Char} (h : Spells s ps) (hfuel : s.length < fuel) :
    parts fuel s = ps := by
  induction fuel generalizing s ps with
  | zero => exact absurd hfuel (Nat.not_lt_zero _)
  | succ fuel ih =>
    cases h with
    | nil => rfl
    | plain hc h =>
      rw [parts, ih h (Nat.lt_of_succ_lt_succ hfuel)]
      exact hc
    | dollar h =>
      rw [parts, ih h (by simp only [List.length_cons] at hfuel; omega)]
    | whole h =>
      rw [parts, ih h (by simp only [List.length_cons] at hfuel; omega)]
    | group hds hdigits hr h =>
      rw [parts_group hds hdigits hr,
        ih h (by simp only [List.length_cons, List.length_append] at hfuel; omega)]
    | lone hr h =>
      rw [parts_lone hr, ih h (Nat.lt_of_succ_lt_succ hfuel)]

/-- A part can be expanded: its digits are not too many. -/
def Part.Fits : Part → Prop
  | .group ds => ds.length ≤ Text.digitLimit
  | _ => True

/-- What a part stands for in a match; a group that the pattern does not have stays as written. -/
def Part.stands (groups : Nat) (m : Match) : Part → List Char
  | .text c => [c]
  | .whole => m.text
  | .group ds =>
    if Text.digitsValue ds ≤ groups then m.group (Text.digitsValue ds) else '$' :: ds

/-- What a replacement stands for in a match. -/
def standing (groups : Nat) (ps : List Part) (m : Match) : List Char :=
  ps.flatMap (Part.stands groups m)

variable {m : Match}

theorem Part.expand_fits {p : Part} (h : p.Fits) :
    p.expand groups m = .ok (p.stands groups m) := by
  cases p with
  | text c => rfl
  | whole => rfl
  | group ds =>
    have hds : ds.length ≤ Text.digitLimit := h
    rw [Part.expand, Text.readDigits, if_pos hds]
    rfl

theorem Part.expand_overlong {p : Part} (h : ¬ p.Fits) : p.expand groups m = .error {} := by
  cases p with
  | text c => exact absurd trivial h
  | whole => exact absurd trivial h
  | group ds =>
    have hds : ¬ ds.length ≤ Text.digitLimit := h
    rw [Part.expand, Text.readDigits, if_neg hds]
    rfl

theorem expand_cons (p : Part) (ps : List Part) :
    ((p :: ps).mapM (Part.expand groups m)).map List.flatten =
      (p.expand groups m).bind fun t =>
        ((ps.mapM (Part.expand groups m)).map List.flatten).map (t ++ ·) := by
  rw [List.mapM_cons]
  cases p.expand groups m with
  | error e => rfl
  | ok t => cases List.mapM (Part.expand groups m) ps <;> rfl

theorem expand_fits {s : List Char} (hs : Spells s ps) (h : ∀ p ∈ ps, p.Fits) :
    expand groups s m = .ok (standing groups ps m) := by
  unfold expand
  rw [parts_of_spells hs (Nat.lt_succ_self _)]
  clear hs
  induction ps with
  | nil => rfl
  | cons p ps ih =>
    obtain ⟨hp, hps⟩ := List.forall_mem_cons.mp h
    rw [expand_cons, Part.expand_fits hp, ih hps]
    rfl

theorem expand_overlong {s : List Char} (hs : Spells s ps) (h : ¬ ∀ p ∈ ps, p.Fits) :
    expand groups s m = .error {} := by
  unfold expand
  rw [parts_of_spells hs (Nat.lt_succ_self _)]
  clear hs
  induction ps with
  | nil => exact absurd (List.forall_mem_nil _) h
  | cons p ps ih =>
    rw [expand_cons]
    by_cases hp : p.Fits
    · rw [Part.expand_fits hp, ih fun hps => h (List.forall_mem_cons.mpr ⟨hp, hps⟩)]
      rfl
    · rw [Part.expand_overlong hp]
      rfl

end Parts

/-! ## Texts with replacements -/

section Found

variable {ε : Type} {f : Match → Except ε (List Char)} {found : List (List Char × Match)}
  {tail : List Char}

/-- A text with something else in the place of each match. -/
def replaced (found : List (List Char × Match)) (tail : List Char) (g : Match → List Char) :
    List Char :=
  found.flatMap (fun (skipped, m) => skipped ++ g m) ++ tail

theorem replaceFound_ok {g : Match → List Char} (h : ∀ m, f m = .ok (g m)) :
    replaceFound f tail found = .ok (replaced found tail g) := by
  induction found with
  | nil => rfl
  | cons x found ih =>
    obtain ⟨skipped, m⟩ := x
    rw [replaceFound, h m, ih]
    simp [replaced, Except.map]

theorem replaceFound_error {e : ε} (hfound : found ≠ []) (h : ∀ m, f m = .error e) :
    replaceFound f tail found = .error e := by
  obtain ⟨⟨skipped, m⟩, found, rfl⟩ := List.exists_cons_of_ne_nil hfound
  rw [replaceFound, h m]

end Found

end Pattern

/-! ## Searches -/

/-- A pattern between slashes and small letters after it; a line break may follow them. -/
def Slashed (s p l : List Char) : Prop :=
  p ≠ [] ∧ (∀ c ∈ l, 'a' ≤ c ∧ c ≤ 'z') ∧
    (s = '/' :: (p ++ '/' :: l) ∨ s = '/' :: (p ++ '/' :: l ++ ['\n']))

section Reading

variable {s p l : List Char} {all : Bool}

theorem splitSlashes_slash {r back : List Char}
    (hback : (if r.getLast? = some '\n' then r.dropLast.reverse else r.reverse) = back) :
    splitSlashes ('/' :: r) =
      let letters := back.takeWhile fun c => 'a' ≤ c && c ≤ 'z'
      match back.drop letters.length with
      | '/' :: p => if p.isEmpty then none else some (p.reverse, letters.reverse)
      | _ => none := by
  subst hback
  rfl

theorem slashed_of_splitSlashes (h : splitSlashes s = some (p, l)) : Slashed s p l := by
  obtain ⟨r, rfl⟩ : ∃ r, s = '/' :: r := by
    unfold splitSlashes at h
    split at h
    · exact ⟨_, rfl⟩
    · cases h
  rw [splitSlashes_slash rfl] at h
  generalize hback : (if r.getLast? = some '\n' then r.dropLast.reverse else r.reverse) = back at h
  generalize hletters : (back.takeWhile fun c => 'a' ≤ c && c ≤ 'z') = letters at h
  have hpre : letters = back.take letters.length :=
    List.prefix_iff_eq_take.mp (hletters ▸ List.takeWhile_prefix _)
  have hsmall (c : Char) (hc : c ∈ letters) : 'a' ≤ c ∧ c ≤ 'z' := by
    rw [← hletters] at hc
    simpa using List.mem_takeWhile_imp hc
  dsimp only at h
  split at h
  next q hq =>
    split at h
    · cases h
    next hne =>
      cases h
      have hparts : back.reverse = q.reverse ++ '/' :: letters.reverse := by
        rw [← List.take_append_drop letters.length back, ← hpre, hq]
        simp
      refine ⟨by simpa using hne, fun c hc => hsmall c (List.mem_reverse.mp hc), ?_⟩
      rw [← hparts]
      split at hback
      next hbreak =>
        rw [← hback, List.reverse_reverse, List.dropLast_append_getLast? '\n' hbreak]
        exact .inr rfl
      next =>
        rw [← hback, List.reverse_reverse]
        exact .inl rfl
  next => cases h

theorem splitSlashes_of_slashed (h : Slashed s p l) : splitSlashes s = some (p, l) := by
  obtain ⟨hp, hl, hs⟩ := h
  have hletters : (l.reverse ++ '/' :: p.reverse).takeWhile (fun c => 'a' ≤ c && c ≤ 'z') =
      l.reverse :=
    Template.takeWhile_run (fun c hc => by simpa using hl c (List.mem_reverse.mp hc))
      (by decide)
  have hsplit {r : List Char}
      (hback : (if r.getLast? = some '\n' then r.dropLast.reverse else r.reverse) =
        l.reverse ++ '/' :: p.reverse) : splitSlashes ('/' :: r) = some (p, l) := by
    rw [splitSlashes_slash hback]
    dsimp only
    rw [hletters, List.drop_left]
    simp [hp]
  rcases hs with rfl | rfl
  · refine hsplit ?_
    have hlast : (p ++ '/' :: l).getLast? ≠ some '\n' := by
      intro hlast
      rw [List.getLast?_append_of_ne_nil _ (List.cons_ne_nil _ _)] at hlast
      rcases List.mem_cons.mp (List.mem_of_getLast? hlast) with hslash | hletter
      · exact absurd hslash (by decide)
      · exact absurd (hl _ hletter).1 (by decide)
    rw [if_neg hlast, List.reverse_append, List.reverse_cons, List.append_assoc]
    rfl
  · refine hsplit ?_
    rw [List.getLast?_concat, if_pos rfl, List.dropLast_concat, List.reverse_append,
      List.reverse_cons, List.append_assoc]
    rfl

/-- How a search is written: its pattern, the letters for its switches, and whether it is for every
match. A pattern alone is, and one between slashes with the letter `g`. -/
inductive Written (s : List Char) : List Char → List Char → Bool → Prop
  | slashed {p l : List Char} : Slashed s p l → Written s p l (l.contains 'g')
  | alone : (∀ p l, ¬ Slashed s p l) → Written s s [] true

theorem exists_written (s : List Char) : ∃ p l all, Written s p l all := by
  by_cases h : ∃ p l, Slashed s p l
  · obtain ⟨p, l, h⟩ := h
    exact ⟨p, l, _, .slashed h⟩
  · exact ⟨s, [], true, .alone fun p l hs => h ⟨p, l, hs⟩⟩

/-- The switches that letters set. -/
def switches (letters : List Char) : Pattern.Flags :=
  ⟨letters.contains 'i', letters.contains 'm', letters.contains 's', false, false⟩

/-- A search is read with the pattern and the switches it is written with. -/
theorem read_written {find : String} (hfind : find ≠ "") (h : Written find.toList p l all) :
    Search.read find = match Pattern.compile (switches l) (String.ofList p) with
      | .ok pattern => .ok ⟨.ok pattern, all⟩
      | .error .malformed => .error .unreadable
      | .error .hugeCount => .error .hugeCount
      | .error .longNumeral => .ok ⟨.error .numeralTooLong, all⟩
      | .error .mixedClasses => .ok ⟨.error .mixedClasses, all⟩ := by
  rw [Search.read, if_neg hfind]
  cases h with
  | slashed hs =>
    rw [splitSlashes_of_slashed hs]
    dsimp only
    rw [Bool.or_false]
    rfl
  | alone hnone =>
    have hlone : splitSlashes find.toList = none := by
      cases hsplit : splitSlashes find.toList with
      | none => rfl
      | some found => exact (hnone _ _ (slashed_of_splitSlashes hsplit)).elim
    rw [hlone, String.ofList_toList]
    rfl

end Reading

/-! ## Runs -/

/-- Why a run ends at once with a pattern that is refused. A pattern that cannot be read is passed
over. -/
def Pattern.ParseError.stops? : Pattern.ParseError → Option ScriptError
  | .malformed => none
  | .hugeCount => some .hugeCount
  | .longNumeral => some .numeralTooLong
  | .mixedClasses => some .mixedClasses

namespace Script

open Pattern

/-- What a script looks for in a text: the pattern of its search, or why that is refused, and
whether every match is to be replaced. -/
def Seeks (s : Script) (text : String) (pattern : Except ParseError Compiled) (all : Bool) : Prop :=
  text ≠ "" ∧ s.find ≠ "" ∧
    ∃ p l, Written s.find.toList p l all ∧ compile (switches l) (String.ofList p) = pattern

/-- The pattern of a script is refused, and not just because it cannot be read. -/
def Stopped (s : Script) (text : String) (why : ScriptError) : Prop :=
  ∃ e all, s.Seeks text (.error e) all ∧ e.stops? = some why

/-- What a run of a script on a text comes to. -/
inductive RunsTo (s : Script) (text : String) : Except ScriptError String → Prop
  | idle : text = "" ∨ s.find = "" → RunsTo s text (.ok text)
  | unread {all : Bool} : s.Seeks text (.error .malformed) all → RunsTo s text (.ok text)
  | stopped {why : ScriptError} : s.Stopped text why → RunsTo s text (.error why)
  /-- Each match is replaced, and what is skipped before and left behind them is kept. -/
  | done {pattern : Compiled} {all : Bool} {found : List (List Char × Match)} {tail : List Char}
      {ps : List Part} : s.Seeks text (.ok pattern) all →
      Scans pattern.node all false [] text.toList found tail → Spells s.replacement.toList ps →
      (found ≠ [] → ∀ p ∈ ps, p.Fits) →
      RunsTo s text (.ok (String.ofList (replaced found tail (standing pattern.groups ps))))
  | overlong {pattern : Compiled} {all : Bool} {found : List (List Char × Match)}
      {tail : List Char} {ps : List Part} : s.Seeks text (.ok pattern) all →
      Scans pattern.node all false [] text.toList found tail → Spells s.replacement.toList ps →
      found ≠ [] → (¬ ∀ p ∈ ps, p.Fits) → RunsTo s text (.error .numeralTooLong)

variable {s : Script} {text : String} {r : Except ScriptError String} {all : Bool}

theorem Seeks.run_ok {pattern : Compiled} (h : s.Seeks text (.ok pattern) all) :
    s.run text = (⟨.ok pattern, all⟩ : Search).replace s.replacement text := by
  obtain ⟨htext, hfind, p, l, hwritten, hcompile⟩ := h
  rw [Script.run, if_neg htext, read_written hfind hwritten, hcompile]

theorem Seeks.run_error {e : ParseError} (h : s.Seeks text (.error e) all) :
    s.run text = match e.stops? with
      | none => .ok text
      | some why => .error why := by
  obtain ⟨htext, hfind, p, l, hwritten, hcompile⟩ := h
  rw [Script.run, if_neg htext, read_written hfind hwritten, hcompile]
  cases e <;> rfl

theorem replace_done {pattern : Compiled} {found : List (List Char × Match)} {tail : List Char}
    {ps : List Part} (hscan : Scans pattern.node all false [] text.toList found tail)
    (hps : Spells s.replacement.toList ps) (hfits : found ≠ [] → ∀ p ∈ ps, p.Fits) :
    (⟨.ok pattern, all⟩ : Search).replace s.replacement text =
      .ok (String.ofList (replaced found tail (standing pattern.groups ps))) := by
  unfold Search.replace Cuts.substitute
  dsimp only
  rw [scans_iff.mp hscan]
  dsimp only
  by_cases hfound : found = []
  · subst hfound
    rfl
  · rw [replaceFound_ok fun m => expand_fits hps (hfits hfound)]

theorem replace_overlong {pattern : Compiled} {found : List (List Char × Match)}
    {tail : List Char} {ps : List Part}
    (hscan : Scans pattern.node all false [] text.toList found tail)
    (hps : Spells s.replacement.toList ps) (hfound : found ≠ []) (hlong : ¬ ∀ p ∈ ps, p.Fits) :
    (⟨.ok pattern, all⟩ : Search).replace s.replacement text = .error .numeralTooLong := by
  unfold Search.replace Cuts.substitute
  dsimp only
  rw [scans_iff.mp hscan]
  dsimp only
  rw [replaceFound_error hfound fun m => expand_overlong hps hlong]

theorem RunsTo.run_eq (h : s.RunsTo text r) : s.run text = r := by
  cases h with
  | idle hidle =>
    by_cases htext : text = ""
    · rw [Script.run, if_pos htext]
    · rw [Script.run, if_neg htext, Search.read, if_pos (hidle.resolve_left htext)]
  | unread hseeks => exact hseeks.run_error
  | stopped hstopped =>
    obtain ⟨e, all, hseeks, hwhy⟩ := hstopped
    rw [hseeks.run_error, hwhy]
  | done hseeks hscan hps hfits => exact hseeks.run_ok.trans (replace_done hscan hps hfits)
  | overlong hseeks hscan hps hfound hlong =>
    exact hseeks.run_ok.trans (replace_overlong hscan hps hfound hlong)

/-- Every run comes to something. -/
theorem exists_runsTo (s : Script) (text : String) : ∃ r, s.RunsTo text r := by
  by_cases hidle : text = "" ∨ s.find = ""
  · exact ⟨_, .idle hidle⟩
  obtain ⟨htext, hfind⟩ := not_or.mp hidle
  obtain ⟨p, l, all, hwritten⟩ := exists_written s.find.toList
  have hseeks : s.Seeks text (compile (switches l) (String.ofList p)) all :=
    ⟨htext, hfind, p, l, hwritten, rfl⟩
  cases hcompile : compile (switches l) (String.ofList p) with
  | error e =>
    rw [hcompile] at hseeks
    cases hstops : e.stops? with
    | some why => exact ⟨_, .stopped ⟨e, all, hseeks, hstops⟩⟩
    | none =>
      obtain rfl : e = .malformed := by
        cases e <;> first | rfl | cases hstops
      exact ⟨_, .unread hseeks⟩
  | ok pattern =>
    rw [hcompile] at hseeks
    obtain ⟨ps, hps⟩ := exists_spells s.replacement.toList
    have hscan := scans_cuts pattern.node all text.toList
    by_cases hfits : (cuts pattern.node all text.toList).found ≠ [] → ∀ p ∈ ps, p.Fits
    · exact ⟨_, .done hseeks hscan hps hfits⟩
    · obtain ⟨hfound, hlong⟩ := Classical.not_imp.mp hfits
      exact ⟨_, .overlong hseeks hscan hps hfound hlong⟩

/-- With each match in its own place a text is as it was. -/
theorem replaced_whole {found : List (List Char × Match)} {tail : List Char} {groups : Nat} :
    replaced found tail (standing groups [.whole]) = (⟨found, tail⟩ : Cuts).text := by
  unfold replaced standing Cuts.text
  simp [Part.stands]

/-- A run replaces the matches and keeps all other characters, and with `$&` in the place of each
match the text is what it was; there is no other way to fail than those of `RunsTo`. -/
theorem replaces_exact (s : Script) (text : String) :
    (∀ r, s.run text = r ↔ s.RunsTo text r) ∧
    (({ s with replacement := "$&" } : Script).run text = .ok text ↔
      ∀ why, ¬ s.Stopped text why) := by
  refine ⟨fun r => ⟨?_, RunsTo.run_eq⟩, fun hrun why hstopped => ?_, fun hnever => ?_⟩
  · rintro rfl
    obtain ⟨r, hr⟩ := exists_runsTo s text
    rwa [hr.run_eq]
  · have hfails : ({ s with replacement := "$&" } : Script).RunsTo text (.error why) :=
      .stopped hstopped
    exact nomatch hrun.symm.trans hfails.run_eq
  · obtain ⟨r, hr⟩ := exists_runsTo { s with replacement := "$&" } text
    rw [hr.run_eq]
    have hwhole {ps : List Part} (hps : Spells ("$&" : String).toList ps) : ps = [.whole] :=
      (parts_of_spells hps (Nat.lt_succ_self _)).symm.trans rfl
    cases hr with
    | idle => rfl
    | unread => rfl
    | stopped hstopped => exact (hnever _ hstopped).elim
    | done hseeks hscan hps hfits =>
      obtain rfl := hwhole hps
      rw [replaced_whole, hscan.text, String.ofList_toList]
    | overlong hseeks hscan hps hfound hlong =>
      obtain rfl := hwhole hps
      exact (hlong (by simp [Part.Fits])).elim

end Script

end TagLedger
