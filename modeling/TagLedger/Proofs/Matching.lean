import Mathlib.Data.List.Basic
import TagLedger.Pattern.Substitution

/-!
# Which matches are found

Whatever a pattern hands on to what comes after it is a place further on in the same text, so a
match is a stretch of the text from where it was tried. A search gives the first place with a match;
matches are looked for again from where the last one ended, and two at one place are not both empty,
so the steps that `cuts` allows are enough to come to the last one.

    Scans n all false [] s found tail  →  s is the matches and what was skipped before each,
                                          then the tail                          (Scans.text)
    Scans n all false [] s found tail ↔ cuts n all s = ⟨found, tail⟩             (scans_iff)
-/

namespace TagLedger.Pattern

/-! ## Places that are reached -/

/-- The place `q` is reached from `p` by going over some text. -/
def Place.Reaches (p q : Place) : Prop :=
  ∃ t, p.after = t ++ q.after ∧ q.before = t.reverse ++ p.before ∧ q.index = p.index + t.length

namespace Place

theorem Reaches.refl (p : Place) : p.Reaches p := ⟨[], rfl, rfl, rfl⟩

theorem Reaches.trans {p q r : Place} (hpq : p.Reaches q) (hqr : q.Reaches r) : p.Reaches r := by
  obtain ⟨t, hafter, hbefore, hindex⟩ := hpq
  obtain ⟨u, hafter', hbefore', hindex'⟩ := hqr
  refine ⟨t ++ u, ?_, ?_, ?_⟩
  · rw [hafter, hafter', List.append_assoc]
  · rw [hbefore', hbefore, List.reverse_append, List.append_assoc]
  · rw [hindex', hindex, List.length_append, Nat.add_assoc]

theorem reaches_next {p : Place} {c : Char} {rest : List Char} (h : p.after = c :: rest) :
    p.Reaches (p.next c rest) := ⟨[c], h, rfl, rfl⟩

end Place

/-- What comes after `m` is only tried at places that are reached from where `m` was tried. -/
def Matcher.Reaching (m : Matcher) : Prop :=
  ∀ p k r, m p k = some r → ∃ q, p.Reaches q ∧ k q = some r

theorem Matcher.Reaching.after {m : Matcher} (hm : m.Reaching) {p : Place} {k : Next} {r : Place}
    (h : m p k = some r) {P : Place → Prop} (hk : ∀ q, k q = some r → ∃ u, q.Reaches u ∧ P u) :
    ∃ u, p.Reaches u ∧ P u := by
  obtain ⟨q, hpq, hq⟩ := hm p k r h
  obtain ⟨u, hqu, hu⟩ := hk q hq
  exact ⟨u, hpq.trans hqu, hu⟩

theorem reaching_stepIf (test : Char → Bool) : Matcher.Reaching (stepIf test) := by
  intro p k r h
  unfold stepIf at h
  split at h
  next c rest hafter =>
    split at h
    · exact ⟨_, Place.reaches_next hafter, h⟩
    · cases h
  next => cases h

theorem reaching_stepOver (flags : Flags) (t : List Char) :
    Matcher.Reaching (stepOver flags t) := by
  induction t with
  | nil => exact fun p k r h => ⟨p, .refl p, h⟩
  | cons c t ih => exact fun p k r h => (reaching_stepIf _).after h fun q hq => ih q k r hq

section Turns

variable {m : Matcher} {low : Nat} {high : Option Nat}

theorem reaching_greedyTurns (hm : m.Reaching) (fuel count : Nat) (last : Option Nat) :
    Matcher.Reaching (greedyTurns m low high fuel count last) := by
  induction fuel generalizing count last with
  | zero => exact fun p k r h => ⟨p, .refl p, h⟩
  | succ fuel ih =>
    intro p k r h
    rw [greedyTurns] at h
    split at h
    next => exact hm.after h fun q hq => ih (count + 1) last q k r hq
    next =>
      dsimp only at h
      split at h
      next u hfurther =>
        cases h
        split at hfurther
        · exact hm.after hfurther fun q hq => ih (count + 1) (some p.index) q k r hq
        · cases hfurther
      next => exact ⟨p, .refl p, h⟩

theorem reaching_lazyTurns (hm : m.Reaching) (fuel count : Nat) (last : Option Nat) :
    Matcher.Reaching (lazyTurns m low high fuel count last) := by
  induction fuel generalizing count last with
  | zero => exact fun p k r h => ⟨p, .refl p, h⟩
  | succ fuel ih =>
    intro p k r h
    rw [lazyTurns] at h
    split at h
    next => exact hm.after h fun q hq => ih (count + 1) last q k r hq
    next =>
      split at h
      next u hdone => exact ⟨p, .refl p, hdone.trans h⟩
      next =>
        split at h
        · exact hm.after h fun q hq => ih (count + 1) (some p.index) q k r hq
        · cases h

/-- A matcher on its own ends at a place that is reached. -/
theorem Matcher.Reaching.alone (hm : m.Reaching) {p q : Place} (h : m p some = some q) :
    p.Reaches q := by
  obtain ⟨u, hu, hq⟩ := hm p some q h
  cases hq
  exact hu

theorem reaches_possessiveTurns (hm : m.Reaching) (fuel count : Nat) (last : Option Nat)
    {p q : Place} (h : possessiveTurns m low high fuel count last p = some q) : p.Reaches q := by
  induction fuel generalizing count last p with
  | zero =>
    cases h
    exact .refl q
  | succ fuel ih =>
    rw [possessiveTurns] at h
    split at h
    next =>
      obtain ⟨u, hu, hrest⟩ := Option.bind_eq_some_iff.mp h
      exact (hm.alone hu).trans (ih _ _ hrest)
    next =>
      split at h
      next =>
        split at h
        next u hu => exact (hm.alone hu).trans (ih _ _ h)
        next =>
          cases h
          exact .refl q
      next =>
        cases h
        exact .refl q

end Turns

/-- Looking ahead or behind stays where it is. -/
theorem reaching_look {found : Option Place} {negated : Bool} {p r : Place} {k : Next}
    (h : (match found with
      | some q => if negated then none else k { p with groups := q.groups }
      | none => if negated then k p else none) = some r) : ∃ q, p.Reaches q ∧ k q = some r := by
  rcases found with _ | q <;> cases negated
  · cases h
  · exact ⟨p, .refl p, h⟩
  · exact ⟨{ p with groups := q.groups }, .refl p, h⟩
  · cases h

theorem Node.reaching (n : Node) : Matcher.Reaching n.run := by
  induction n with
  | empty => exact fun p k r h => ⟨p, .refl p, h⟩
  | fail => exact fun p k r h => nomatch h
  | char n flags => exact reaching_stepIf _
  | any dotAll => exact reaching_stepIf _
  | set negated members flags => exact reaching_stepIf _
  | anchor a ascii =>
    intro p k r h
    rw [Node.run] at h
    split at h
    · exact ⟨p, .refl p, h⟩
    · cases h
  | seq a b iha ihb => exact fun p k r h => iha.after h fun q hq => ihb q k r hq
  | alt a b iha ihb =>
    intro p k r h
    rw [Node.run] at h
    split at h
    next u hu => exact iha p k r (hu.trans h)
    next => exact ihb p k r h
  | group i body ih =>
    intro p k r h
    obtain ⟨q, hpq, hq⟩ := ih p _ r h
    exact ⟨{ q with groups := (i, p.after.take (q.index - p.index)) :: q.groups }, hpq, hq⟩
  | back i low high flags =>
    intro p k r h
    rw [Node.run] at h
    split at h
    · exact reaching_stepOver _ _ p k r h
    · cases h
  | many low high greed body ih =>
    intro p k r h
    cases greed with
    | greedy => exact reaching_greedyTurns ih _ _ _ p k r h
    | lazy => exact reaching_lazyTurns ih _ _ _ p k r h
    | possessive =>
      simp only [Node.run] at h
      split at h
      next q hq => exact ⟨q, reaches_possessiveTurns ih _ _ _ hq, h⟩
      next => cases h
  | ahead negated body ih => exact fun p k r h => reaching_look h
  | behind negated width body ih => exact fun p k r h => reaching_look h
  | cond i yes no ihyes ihno =>
    intro p k r h
    rw [Node.run] at h
    split at h
    · exact ihyes p k r h
    · exact ihno p k r h
  | atomic body ih =>
    intro p k r h
    rw [Node.run] at h
    split at h
    next q hq => exact ⟨q, ih.alone hq, h⟩
    next => cases h

/-! ## One match -/

variable {n : Node} {all advance : Bool} {before after : List Char} {m : Match}

/-- A match is a stretch of the text, and not an empty one if those are passed over. -/
theorem text_of_matchAt? (h : matchAt? n advance before after = some m) :
    (∃ rest, after = m.text ++ rest) ∧ (advance = true → m.text ≠ []) := by
  unfold matchAt? at h
  obtain ⟨p, hp, rfl⟩ := Option.map_eq_some_iff.mp h
  obtain ⟨q, ⟨t, hafter, -, hindex⟩, hq⟩ := n.reaching _ _ _ hp
  dsimp only at hafter hindex
  split at hq
  next => cases hq
  next hempty =>
    cases hq
    have htext : after.take p.index = t := by
      rw [hindex, Nat.zero_add, hafter, List.take_left]
    rw [htext]
    refine ⟨⟨p.after, hafter⟩, fun hadvance (ht : t = []) => hempty ?_⟩
    rw [hadvance, hindex, ht]
    rfl

/-- The match in `after` when `p` is skipped at its front. -/
def matchPast? (n : Node) (advance : Bool) (before after p : List Char) : Option Match :=
  matchAt? n (advance && p.isEmpty) (p.reverse ++ before) (after.drop p.length)

theorem matchPast?_nil :
    matchPast? n advance before after [] = matchAt? n advance before after := by
  simp [matchPast?]

theorem matchPast?_cons (c : Char) (p : List Char) :
    matchPast? n advance before (c :: after) (c :: p) = matchPast? n false (c :: before) after p := by
  simp [matchPast?]

/-- The first match of a text, with what is skipped before it and what is left behind it. -/
structure Finds (n : Node) (advance : Bool) (before after skipped : List Char) (m : Match)
    (rest : List Char) : Prop where
  text : after = skipped ++ (m.text ++ rest)
  here : matchPast? n advance before after skipped = some m
  first : ∀ p, p <+: skipped → p ≠ skipped → matchPast? n advance before after p = none

/-- No match begins anywhere in a text, its end included. -/
def Unmatched (n : Node) (advance : Bool) (before after : List Char) : Prop :=
  ∀ p, p <+: after → matchPast? n advance before after p = none

theorem unmatched_of_search? {s : List Char} (h : search? n advance before s after = none) :
    Unmatched n advance before after := by
  induction after generalizing advance before s with
  | nil =>
    intro p hp
    rw [List.prefix_nil.mp hp, matchPast?_nil]
    exact Option.map_eq_none_iff.mp h
  | cons c after ih =>
    rw [search?] at h
    split at h
    next => cases h
    next hhere =>
      intro p hp
      rcases List.prefix_cons_iff.mp hp with rfl | ⟨t, rfl, ht⟩
      · rw [matchPast?_nil, hhere]
      · rw [matchPast?_cons, ih h t ht]

/-- A match where the search begins is the first one. -/
theorem finds_front (h : matchAt? n advance before after = some m) :
    ∃ rest, Finds n advance before after [] m rest := by
  obtain ⟨rest, hrest⟩ := (text_of_matchAt? h).1
  refine ⟨rest, hrest, matchPast?_nil.trans h, fun p hp hne => ?_⟩
  exact (hne (List.prefix_nil.mp hp)).elim

theorem Finds.cons {c : Char} {skipped rest : List Char}
    (hhere : matchAt? n advance before (c :: after) = none)
    (h : Finds n false (c :: before) after skipped m rest) :
    Finds n advance before (c :: after) (c :: skipped) m rest where
  text := congrArg (c :: ·) h.text
  here := (matchPast?_cons c skipped).trans h.here
  first := by
    intro p hp hne
    rcases List.prefix_cons_iff.mp hp with rfl | ⟨t, rfl, ht⟩
    · rw [matchPast?_nil, hhere]
    · rw [matchPast?_cons, h.first t ht fun heq => hne (congrArg (c :: ·) heq)]

theorem finds_of_search? {s u : List Char} (h : search? n advance before s after = some (u, m)) :
    ∃ skipped rest, u = skipped.reverse ++ s ∧ Finds n advance before after skipped m rest := by
  induction after generalizing advance before s with
  | nil =>
    obtain ⟨m', hm, heq⟩ := Option.map_eq_some_iff.mp h
    cases heq
    obtain ⟨rest, hfound⟩ := finds_front hm
    exact ⟨[], rest, rfl, hfound⟩
  | cons c after ih =>
    rw [search?] at h
    split at h
    next m' hhere =>
      cases h
      obtain ⟨rest, hfound⟩ := finds_front hhere
      exact ⟨[], rest, rfl, hfound⟩
    next hhere =>
      obtain ⟨skipped, rest, rfl, hfound⟩ := ih h
      exact ⟨c :: skipped, rest, by simp, hfound.cons hhere⟩

/-- There is one first match. -/
theorem Finds.unique {skipped skipped' rest rest' : List Char} {m' : Match}
    (h : Finds n advance before after skipped m rest)
    (h' : Finds n advance before after skipped' m' rest') :
    skipped = skipped' ∧ m = m' ∧ rest = rest' := by
  have hskipped : skipped = skipped' := by
    by_contra hne
    have hpre : skipped <+: after := ⟨_, h.text.symm⟩
    rcases List.prefix_or_prefix_of_prefix hpre ⟨_, h'.text.symm⟩ with hp | hp
    · exact nomatch (h'.first _ hp hne).symm.trans h.here
    · exact nomatch (h.first _ hp (Ne.symm hne)).symm.trans h'.here
  subst hskipped
  have hm : m = m' := Option.some.inj (h.here.symm.trans h'.here)
  subst hm
  exact ⟨rfl, rfl, List.append_cancel_left (List.append_cancel_left (h.text.symm.trans h'.text))⟩

theorem Finds.not_unmatched {skipped rest : List Char}
    (h : Finds n advance before after skipped m rest) : ¬ Unmatched n advance before after :=
  fun hnone => nomatch (hnone skipped ⟨_, h.text.symm⟩).symm.trans h.here

/-! ## All matches -/

/-- The matches of a text, each with what was skipped before it, and what is left behind the last
one. Where one ends the search goes on, and if it was empty the next one there is not. -/
inductive Scans (n : Node) (all : Bool) :
    Bool → List Char → List Char → List (List Char × Match) → List Char → Prop
  | none {advance : Bool} {before after : List Char} : Unmatched n advance before after →
      Scans n all advance before after [] after
  | last {advance : Bool} {before after skipped rest : List Char} {m : Match} : all = false →
      Finds n advance before after skipped m rest →
      Scans n all advance before after [(skipped, m)] rest
  | more {advance : Bool} {before after skipped rest : List Char} {m : Match}
      {found : List (List Char × Match)} {tail : List Char} : all = true →
      Finds n advance before after skipped m rest →
      Scans n all m.text.isEmpty ((skipped ++ m.text).reverse ++ before) rest found tail →
      Scans n all advance before after ((skipped, m) :: found) tail

variable {found found' : List (List Char × Match)} {tail tail' : List Char}

/-- The pieces put together are the text. -/
theorem Scans.text (h : Scans n all advance before after found tail) :
    (⟨found, tail⟩ : Cuts).text = after := by
  unfold Cuts.text
  induction h with
  | none => rfl
  | last _ hfound => simp [hfound.text]
  | more _ hfound _ ih => simp [← ih, hfound.text]

/-- The matches of a text are all determined. -/
theorem Scans.unique (h : Scans n all advance before after found tail)
    (h' : Scans n all advance before after found' tail') : found = found' ∧ tail = tail' := by
  induction h generalizing found' tail' with
  | none hnone =>
    cases h' with
    | none => exact ⟨rfl, rfl⟩
    | last _ hfound => exact (hfound.not_unmatched hnone).elim
    | more _ hfound => exact (hfound.not_unmatched hnone).elim
  | last hall hfound =>
    cases h' with
    | none hnone => exact (hfound.not_unmatched hnone).elim
    | last _ hfound' =>
      obtain ⟨rfl, rfl, rfl⟩ := hfound.unique hfound'
      exact ⟨rfl, rfl⟩
    | more hall' => exact nomatch hall.symm.trans hall'
  | more hall hfound _ ih =>
    cases h' with
    | none hnone => exact (hfound.not_unmatched hnone).elim
    | last hall' => exact nomatch hall'.symm.trans hall
    | more _ hfound' hrest =>
      obtain ⟨rfl, rfl, rfl⟩ := hfound.unique hfound'
      obtain ⟨rfl, rfl⟩ := ih hrest
      exact ⟨rfl, rfl⟩

/-- A bound for the number of matches that can still come. -/
def stepsLeft (advance : Bool) (after : List Char) : Nat :=
  2 * after.length + if advance then 0 else 1

/-- A match shortens the text, or it is empty and the next one there is not. -/
theorem Finds.stepsLeft_lt {skipped rest : List Char}
    (h : Finds n advance before after skipped m rest) :
    stepsLeft m.text.isEmpty rest < stepsLeft advance after := by
  have hlength : after.length = skipped.length + (m.text.length + rest.length) := by
    rw [h.text, List.length_append, List.length_append]
  have hempty : skipped = [] → advance = true → m.text ≠ [] := by
    rintro rfl rfl
    exact (text_of_matchAt? (matchPast?_nil.symm.trans h.here)).2 rfl
  rcases eq_or_ne m.text [] with ht | ht
  · rw [ht] at hlength hempty
    rcases skipped with _ | ⟨c, skipped⟩
    · have hadvance : advance = false := by
        cases advance with
        | false => rfl
        | true => exact (hempty rfl rfl rfl).elim
      simp [stepsLeft, ht, hadvance, hlength]
    · simp only [List.length_cons] at hlength
      simp only [stepsLeft, ht, List.isEmpty_nil, if_true]
      omega
  · have hpos := List.length_pos_iff.mpr ht
    simp only [stepsLeft, List.isEmpty_eq_false_iff.mpr ht, Bool.false_eq_true, if_false]
    split <;> omega

theorem cutsFrom_of_finds {skipped rest : List Char}
    (hs : search? n advance before [] after = some (skipped.reverse, m))
    (hfound : Finds n advance before after skipped m rest) (limit : Nat) :
    cutsFrom n (limit + 1) advance before after =
      let more := cutsFrom n limit m.text.isEmpty ((skipped ++ m.text).reverse ++ before) rest
      ⟨(skipped, m) :: more.found, more.tail⟩ := by
  have htext : after = (skipped ++ m.text) ++ rest := by rw [hfound.text, List.append_assoc]
  have hgone : skipped.reverse.length + m.text.length = (skipped ++ m.text).length := by
    rw [List.length_reverse, List.length_append]
  have htake : after.take (skipped ++ m.text).length = skipped ++ m.text := by
    rw [htext, List.take_left]
  have hdrop : after.drop (skipped ++ m.text).length = rest := by
    rw [htext, List.drop_left]
  rw [cutsFrom, hs]
  dsimp only
  rw [hgone, htake, hdrop, List.reverse_reverse]

theorem scans_cutsFrom {limit : Nat} (h : stepsLeft advance after < limit) :
    Scans n true advance before after (cutsFrom n limit advance before after).found
      (cutsFrom n limit advance before after).tail := by
  induction limit generalizing advance before after with
  | zero => exact (Nat.not_lt_zero _ h).elim
  | succ limit ih =>
    cases hs : search? n advance before [] after with
    | none =>
      rw [cutsFrom, hs]
      exact .none (unmatched_of_search? hs)
    | some found =>
      obtain ⟨u, m⟩ := found
      obtain ⟨skipped, rest, rfl, hfound⟩ := finds_of_search? hs
      rw [List.append_nil] at hs
      rw [cutsFrom_of_finds hs hfound]
      exact .more rfl hfound (ih (by have := hfound.stepsLeft_lt; omega))

theorem scans_cuts (n : Node) (all : Bool) (s : List Char) :
    Scans n all false [] s (cuts n all s).found (cuts n all s).tail := by
  cases all with
  | true => exact scans_cutsFrom (by simp [stepsLeft])
  | false =>
    change Scans n false false [] s (cutsFrom n 1 false [] s).found (cutsFrom n 1 false [] s).tail
    cases hs : search? n false [] [] s with
    | none =>
      rw [cutsFrom, hs]
      exact .none (unmatched_of_search? hs)
    | some found =>
      obtain ⟨u, m⟩ := found
      obtain ⟨skipped, rest, rfl, hfound⟩ := finds_of_search? hs
      rw [List.append_nil] at hs
      rw [cutsFrom_of_finds hs hfound]
      exact .last rfl hfound

/-- `cuts` gives the matches of a text, all of them or the first. -/
theorem scans_iff {s : List Char} :
    Scans n all false [] s found tail ↔ cuts n all s = ⟨found, tail⟩ := by
  constructor
  · intro h
    obtain ⟨rfl, rfl⟩ := h.unique (scans_cuts n all s)
    rfl
  · intro h
    have hcuts := scans_cuts n all s
    rwa [h] at hcuts

end TagLedger.Pattern
