import TagLedger.Proofs.Filling
import TagLedger.Proofs.Replies

/-!
# What a reply holds for a tag

The bodies of a tag, read off the reply from left to right without patterns. If an opening tag has a
closing tag somewhere behind it, the bodies stand in pairs: the first opening tag goes with the
nearest closing tag behind it, and the rest of the reply is read in the same way. If none has one,
each opening tag is followed by a body that ends where a tag or a closing bracket begins.

    Tag.bodies labels l s = bs  ↔  Bodies labels l s bs                        (bodies_iff)
    parseReply reply ds = found  ↔  Extracts reply ds found, tag by tag   (parseReply_extracts)
-/

namespace TagLedger

open Text (SameText Unmarked)

namespace Tag

variable {labels : List (List Char)} {l o k s t u r body : List Char} {bs : List (List Char)}

/-! ## Reading by hand -/

/-- The token stands in front, in any spelling. -/
def Begins (token s : List Char) : Prop := ∃ w r, s = w ++ r ∧ SameText token w

/-- Of the places of `s ++ t` the first at which `p` holds is the one between the two. -/
structure Nearest (p : List Char → Prop) (s t : List Char) : Prop where
  here : p t
  before : ∀ b, b <:+ s → b ≠ [] → ¬ p (b ++ t)

/-- Some opening tag is followed later by a closing tag. -/
def Closed (l s : List Char) : Prop :=
  ∃ before o body k after, s = before ++ (o ++ (body ++ (k ++ after))) ∧
    SameText (openToken l) o ∧ SameText (closeToken l) k

/-- The bodies of the pairs of a tag. -/
inductive Pairs (l : List Char) : List Char → List (List Char) → Prop where
  | none {s : List Char} : ¬ Closed l s → Pairs l s []
  | pair {before o body k after : List Char} {bs : List (List Char)} :
      Nearest (Begins (openToken l)) before (o ++ (body ++ (k ++ after))) →
      SameText (openToken l) o →
      Nearest (Begins (closeToken l)) body (k ++ after) → SameText (closeToken l) k →
      Pairs l after bs → Pairs l (before ++ (o ++ (body ++ (k ++ after)))) (body :: bs)

/-- Where a body that is not closed ends. -/
inductive Ends (labels : List (List Char)) : List Char → Prop where
  | over : Ends labels []
  | closing (r : List Char) : Ends labels ('[' :: '/' :: r)
  | opening {l s : List Char} : l ∈ labels → Begins (openToken l) s → Ends labels s

/-- The bodies behind the opening tags of a tag. -/
inductive Openings (labels : List (List Char)) (l : List Char) :
    List Char → List (List Char) → Prop where
  | none {s : List Char} : (∀ r, r <:+ s → ¬ Begins (openToken l) r) → Openings labels l s []
  | opening {before o body after : List Char} {bs : List (List Char)} :
      Nearest (Begins (openToken l)) before (o ++ (body ++ after)) → SameText (openToken l) o →
      Nearest (Ends labels) body after → Openings labels l after bs →
      Openings labels l (before ++ (o ++ (body ++ after))) (body :: bs)

/-- The bodies of a tag: of its pairs if there are any, else behind its opening tags. -/
inductive Bodies (labels : List (List Char)) (l s : List Char) : List (List Char) → Prop where
  | closed {bs : List (List Char)} : Closed l s → Pairs l s bs → Bodies labels l s bs
  | unclosed {bs : List (List Char)} : ¬ Closed l s → Openings labels l s bs → Bodies labels l s bs

/-! ## Tokens and stops -/

theorem begins_iff {token : List Char} :
    Begins token s ↔ (afterFolded? token s).isSome = true := by
  rw [Option.isSome_iff_exists]
  constructor
  · rintro ⟨w, r, rfl, hw⟩
    exact ⟨r, afterFolded?_append hw r⟩
  · rintro ⟨r, hr⟩
    obtain ⟨w, rfl, hw⟩ := afterFolded?_eq_some.mp hr
    exact ⟨w, r, rfl, hw⟩

theorem not_begins_iff {token : List Char} : ¬ Begins token s ↔ afterFolded? token s = none := by
  rw [begins_iff, Bool.not_eq_true, Option.isSome_eq_false_iff, Option.isNone_iff_eq_none]

theorem afterStart?_eq_some {start : List Char} :
    Text.afterStart? start s = some r ↔ s = start ++ r := by
  refine ⟨fun h => ?_, fun h => h ▸ Text.afterStart?_append start r⟩
  induction start generalizing s with
  | nil => exact Option.some.inj h
  | cons c start ih =>
    cases s with
    | nil => cases h
    | cons d s =>
      unfold Text.afterStart? at h
      split at h
      · next hcd => rw [ih h, hcd, List.cons_append]
      · cases h

theorem ends_iff : Ends labels s ↔ endsOpen labels s = true := by
  unfold endsOpen startsOpen afterOpen?
  simp only [Bool.or_eq_true, List.isEmpty_iff, List.any_eq_true, ← begins_iff]
  constructor
  · rintro (_ | r | ⟨hl, hbegins⟩)
    · exact .inl (.inl rfl)
    · exact .inl (.inr (Option.isSome_of_eq_some (Text.afterStart?_append ['[', '/'] r)))
    · exact .inr ⟨_, hl, hbegins⟩
  · rintro ((rfl | h) | ⟨l, hl, hbegins⟩)
    · exact .over
    · obtain ⟨r, hr⟩ := Option.isSome_iff_exists.mp h
      rw [afterStart?_eq_some.mp hr]
      exact .closing r
    · exact .opening hl hbegins

theorem exists_nearest {p : List Char → Prop} (h : r <:+ s) (hr : p r) :
    ∃ before t, s = before ++ t ∧ Nearest p before t ∧ r <:+ t := by
  have hfront {t : List Char} (ht : p t) : Nearest p [] t :=
    ⟨ht, fun b hb hne => absurd (List.suffix_nil.mp hb) hne⟩
  obtain ⟨d, rfl⟩ := h
  induction d with
  | nil => exact ⟨[], r, rfl, hfront hr, List.suffix_rfl⟩
  | cons c d ih =>
    by_cases hc : p (c :: (d ++ r))
    · exact ⟨[], c :: (d ++ r), rfl, hfront hc, List.suffix_append (c :: d) r⟩
    · obtain ⟨before, t, heq, ⟨hhere, hbefore⟩, hsuffix⟩ := ih
      refine ⟨c :: before, t, congrArg (c :: ·) heq, ⟨hhere, fun b hb hne => ?_⟩, hsuffix⟩
      rcases List.suffix_cons_iff.mp hb with rfl | hb
      · rwa [List.cons_append, ← heq]
      · exact hbefore b hb hne

theorem Nearest.breakAt? {p : List Char → Prop} {stop : List Char → Bool}
    (hstop : ∀ s, p s ↔ stop s = true) (h : Nearest p s t) :
    breakAt? stop (s ++ t) = some (s, t) :=
  breakAt?_append stop (fun b hb hne => by
    rw [← Bool.not_eq_true, ← hstop]
    exact h.before b hb hne) ((hstop t).mp h.here)

theorem breakAt?_eq_some {stop : List Char → Bool} (h : breakAt? stop s = some (body, r)) :
    s = body ++ r ∧ stop r = true := by
  induction s generalizing body with
  | nil =>
    unfold breakAt? at h
    split at h
    · next hstop =>
      cases h
      exact ⟨rfl, hstop⟩
    · cases h
  | cons c s ih =>
    unfold breakAt? at h
    split at h
    · next hstop =>
      cases h
      exact ⟨rfl, hstop⟩
    · obtain ⟨⟨a, b⟩, hab, heq⟩ := Option.map_eq_some_iff.mp h
      cases heq
      obtain ⟨rfl, hstop⟩ := ih hab
      exact ⟨rfl, hstop⟩

theorem Nearest.unmarked {α : Type} {read : Text.MarkReader α} (hread : Opens l read)
    (h : Nearest (Begins (openToken l)) s t) : Unmarked read s t :=
  fun b hb hne => hread _ (not_begins_iff.mp (h.before b hb hne))

/-- If a mark stands nowhere, there are none. -/
theorem marks_eq_nil {α : Type} {read : Text.MarkReader α} (h : ∀ r, r <:+ s → read r = none) :
    Text.marks read s = [] := by
  have hunmarked : Unmarked read s [] := fun b hb _ => by
    rw [List.append_nil]
    exact h b hb
  have hmarks := Text.marks_unmarked hunmarked
  rwa [List.append_nil] at hmarks

theorem ne_nil_of_same {token : List Char} (ht : token ≠ []) (h : SameText token o) : o ≠ [] := by
  rintro rfl
  cases h
  exact ht rfl

/-! ## Pairs -/

theorem closedMark_pair (ho : SameText (openToken l) o)
    (hbody : Nearest (Begins (closeToken l)) body (k ++ r)) (hk : SameText (closeToken l) k) :
    closedMark l (o ++ (body ++ (k ++ r))) = some (body, (o ++ (body ++ k)).length) := by
  unfold closedMark
  rw [show Tag.afterOpen? l (o ++ (body ++ (k ++ r))) = some (body ++ (k ++ r)) from
      afterFolded?_append ho _, Option.bind_some, hbody.breakAt? fun _ => begins_iff,
    Option.map_some, ho.length_eq, hk.length_eq]
  simp only [List.length_append, Nat.add_assoc]

theorem closed_of_closedMark {a : List Char × Nat} (h : closedMark l s = some a) : Closed l s := by
  unfold closedMark at h
  obtain ⟨r, hr, h⟩ := Option.bind_eq_some_iff.mp h
  obtain ⟨⟨body, t⟩, ht, -⟩ := Option.map_eq_some_iff.mp h
  obtain ⟨o, rfl, ho⟩ := afterFolded?_eq_some.mp hr
  obtain ⟨rfl, hstop⟩ := breakAt?_eq_some ht
  obtain ⟨k, after, rfl, hk⟩ := begins_iff.mpr hstop
  exact ⟨[], o, body, k, after, rfl, ho, hk⟩

theorem Closed.append (h : Closed l s) (d : List Char) : Closed l (d ++ s) := by
  obtain ⟨before, o, body, k, after, rfl, ho, hk⟩ := h
  exact ⟨d ++ before, o, body, k, after, (List.append_assoc ..).symm, ho, hk⟩

theorem Pairs.marks (h : Pairs l s bs) : Text.marks (closedMark l) s = bs := by
  induction h with
  | none hopen =>
    refine marks_eq_nil fun r hr => ?_
    obtain ⟨d, rfl⟩ := hr
    cases hmark : closedMark l r with
    | none => rfl
    | some a => exact absurd ((closed_of_closedMark hmark).append d) hopen
  | @pair before o body k after bs hfirst ho hbody hk _ ih =>
    have hne : o ++ (body ++ k) ≠ [] :=
      List.append_ne_nil_of_left_ne_nil (ne_nil_of_same (List.cons_ne_nil _ _) ho) _
    have hmark := closedMark_pair (r := after) ho hbody hk
    rw [Text.marks_unmarked (hfirst.unmarked (closedMark_opens l))]
    simp only [← List.append_assoc] at hmark ⊢
    rw [Text.marks_mark (by simpa only [List.append_assoc] using hne) hmark, ih]

/-- The pairs of a tag can be read off every text. -/
theorem exists_pairs (l s : List Char) : ∃ bs, Pairs l s bs := by
  induction hn : s.length using Nat.strong_induction_on generalizing s with
  | h n ih =>
    by_cases hclosed : Closed l s
    case neg => exact ⟨[], .none hclosed⟩
    obtain ⟨before, o, body, k, after, hs, ho, hk⟩ := hclosed
    obtain ⟨first, t, hfirst, hnear, hlater⟩ := exists_nearest (p := Begins (openToken l))
      (r := o ++ (body ++ (k ++ after))) ⟨before, hs.symm⟩ ⟨o, _, rfl, ho⟩
    obtain ⟨o', r, rfl, ho'⟩ := hnear.here
    -- the closing tag stands behind the first opening tag, which is no longer than the other
    have hclose : k ++ after <:+ r := by
      have hsuffix : k ++ after <:+ o' ++ r :=
        List.IsSuffix.trans ⟨o ++ body, List.append_assoc ..⟩ hlater
      refine List.suffix_of_suffix_length_le hsuffix (List.suffix_append o' r) ?_
      have hlength := hlater.length_le
      have hsame : o.length = o'.length := ho.length_eq.symm.trans ho'.length_eq
      simp only [List.length_append] at hlength ⊢
      omega
    obtain ⟨body', t', rfl, hnear', -⟩ :=
      exists_nearest (p := Begins (closeToken l)) hclose ⟨k, after, rfl, hk⟩
    obtain ⟨k', after', rfl, hk'⟩ := hnear'.here
    have hshorter : after'.length < n := by
      have hpos := List.length_pos_of_ne_nil (ne_nil_of_same (List.cons_ne_nil _ _) ho')
      rw [← hn, hfirst]
      simp only [List.length_append]
      omega
    obtain ⟨bs, hbs⟩ := ih _ hshorter after' rfl
    exact ⟨body' :: bs, hfirst ▸ .pair hnear ho' hnear' hk' hbs⟩

/-! ## Opening tags -/

theorem openMark_opening (ho : SameText (openToken l) o) (hbody : Nearest (Ends labels) body r) :
    openMark labels l (o ++ (body ++ r)) = some (body, (o ++ body).length) := by
  unfold openMark
  rw [show Tag.afterOpen? l (o ++ (body ++ r)) = some (body ++ r) from afterFolded?_append ho _,
    Option.bind_some, hbody.breakAt? fun _ => ends_iff, Option.map_some, ho.length_eq]
  simp only [List.length_append]

theorem Openings.marks (h : Openings labels l s bs) : Text.marks (openMark labels l) s = bs := by
  induction h with
  | none hnone =>
    exact marks_eq_nil fun r hr => openMark_opens labels l r (not_begins_iff.mp (hnone r hr))
  | @opening before o body after bs hfirst ho hbody _ ih =>
    have hne : o ++ body ≠ [] :=
      List.append_ne_nil_of_left_ne_nil (ne_nil_of_same (List.cons_ne_nil _ _) ho) _
    have hmark := openMark_opening (r := after) ho hbody
    rw [Text.marks_unmarked (hfirst.unmarked (openMark_opens labels l))]
    rw [← List.append_assoc] at hmark ⊢
    rw [Text.marks_mark hne hmark, ih]

theorem exists_openings (labels : List (List Char)) (l s : List Char) :
    ∃ bs, Openings labels l s bs := by
  induction hn : s.length using Nat.strong_induction_on generalizing s with
  | h n ih =>
    by_cases hopen : ∃ r, r <:+ s ∧ Begins (openToken l) r
    case neg => exact ⟨[], .none fun r hr hbegins => hopen ⟨r, hr, hbegins⟩⟩
    obtain ⟨r, hr, hbegins⟩ := hopen
    obtain ⟨before, t, rfl, hnear, -⟩ := exists_nearest hr hbegins
    obtain ⟨o, r, rfl, ho⟩ := hnear.here
    obtain ⟨body, after, rfl, hbody, -⟩ :=
      exists_nearest (p := Ends labels) (List.nil_suffix (l := r)) .over
    have hshorter : after.length < n := by
      have hpos := List.length_pos_of_ne_nil (ne_nil_of_same (List.cons_ne_nil _ _) ho)
      rw [← hn]
      simp only [List.length_append]
      omega
    obtain ⟨bs, hbs⟩ := ih _ hshorter after rfl
    exact ⟨body :: bs, .opening hnear ho hbody hbs⟩

/-! ## Bodies -/

theorem Bodies.eq (h : Bodies labels l s bs) : bodies labels l s = bs := by
  unfold bodies
  cases h with
  | closed hclosed hpairs =>
    rw [hpairs.marks]
    cases hpairs with
    | none hopen => exact absurd hclosed hopen
    | pair => rfl
  | unclosed hopen hopenings =>
    rw [Pairs.marks (.none hopen)]
    exact hopenings.marks

/-- The bodies that are found are those that are read off. -/
theorem bodies_iff : bodies labels l s = bs ↔ Bodies labels l s bs := by
  refine ⟨?_, Bodies.eq⟩
  rintro rfl
  by_cases hclosed : Closed l s
  · obtain ⟨bs, hbs⟩ := exists_pairs l s
    have hbodies : Bodies labels l s bs := .closed hclosed hbs
    rwa [hbodies.eq]
  · obtain ⟨bs, hbs⟩ := exists_openings labels l s
    have hbodies : Bodies labels l s bs := .unclosed hclosed hbs
    rwa [hbodies.eq]

/-- What a text holds for a tag: the bodies without blanks around them, those left out that are
blank, with a blank line between them. -/
def Holds (labels : List (List Char)) (l s : List Char) (content : String) : Prop :=
  ∃ bs, Bodies labels l s bs ∧
    content = "\n\n".intercalate (((bs.map Text.trim).filter (· ≠ [])).map String.ofList)

theorem content_iff {content : String} :
    Tag.content labels l s = content ↔ Holds labels l s content := by
  have hfilter (bs : List (List Char)) :
      bs.filter (fun b => !b.isEmpty) = bs.filter (· ≠ []) := by
    refine List.filter_congr fun b _ => ?_
    cases b <;> rfl
  unfold Tag.content joinBlocks Holds
  rw [hfilter]
  constructor
  · rintro rfl
    exact ⟨_, bodies_iff.mp rfl, rfl⟩
  · rintro ⟨bs, hbs, rfl⟩
    rw [hbs.eq]

end Tag

/-! ## Replies -/

/-- What a text gives for definitions, in their order. -/
inductive Extracts (labels : List (List Char)) (s : List Char) :
    List Definition → List Tagged → Prop where
  | nil : Extracts labels s [] []
  | missing {d : Definition} {ds : List Definition} {found : List Tagged} :
      Tag.Holds labels d.label.toList s "" → Extracts labels s ds found →
      Extracts labels s (d :: ds) found
  | found {d : Definition} {ds : List Definition} {found : List Tagged} {content : String} :
      Tag.Holds labels d.label.toList s content → content ≠ "" → Extracts labels s ds found →
      Extracts labels s (d :: ds) (⟨d.tag, content⟩ :: found)

theorem filterMap_extracts {labels : List (List Char)} {s : List Char} {ds : List Definition}
    {found : List Tagged} : (ds.filterMap fun d =>
      let content := Tag.content labels d.label.toList s
      if content = "" then none else some (⟨d.tag, content⟩ : Tagged)) = found ↔
        Extracts labels s ds found := by
  induction ds generalizing found with
  | nil =>
    constructor
    · rintro rfl
      exact .nil
    · rintro ⟨⟩
      rfl
  | cons d ds ih =>
    dsimp only at ih ⊢
    rw [List.filterMap_cons]
    by_cases hempty : Tag.content labels d.label.toList s = ""
    · rw [if_pos hempty]
      refine ih.trans ⟨.missing (Tag.content_iff.mp hempty), fun h => ?_⟩
      cases h with
      | missing _ hrest => exact hrest
      | found hcontent hne _ => exact absurd ((Tag.content_iff.mpr hcontent).symm.trans hempty) hne
    · rw [if_neg hempty]
      constructor
      · rintro rfl
        exact .found (Tag.content_iff.mp rfl) hempty (ih.mp rfl)
      · intro h
        cases h with
        | missing hcontent _ => exact absurd (Tag.content_iff.mpr hcontent) hempty
        | found hcontent _ hrest => rw [ih.mpr hrest, Tag.content_iff.mpr hcontent]

/-- What is read of a reply is what it holds for each tag, in the order of the definitions. The tags
that are missing are those of no result. -/
theorem parseReply_extracts (reply : String) (ds : List Definition) (found : List Tagged) :
    (parseReply reply ds = found ↔ Extracts (labelsOf ds) reply.toList ds found) ∧
      missingTags found ds = (ds.map (·.tag)).filter fun tag => ∀ x ∈ found, x.tag ≠ tag := by
  constructor
  · unfold parseReply
    simp only [← toList_label]
    exact filterMap_extracts
  · rw [missingTags_eq]
    refine List.filter_congr fun tag _ => ?_
    simp

end TagLedger
