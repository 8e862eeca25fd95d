import Mathlib.Data.List.Infix
import Mathlib.Data.List.Pairwise
import Mathlib.Data.List.TakeWhile
import TagLedger.Proofs.Letters
import TagLedger.Proofs.Scanning
import TagLedger.Tag.Reply

/-!
# Replies that keep to the tags

A reply that keeps to the tags it was asked for is a row of segments, each with its content between
an opening and a closing tag, with any text around that holds no tag. A tag holds one opening
bracket, in front, so none arises where two pieces meet, and the pairs that are found are the
segments.

    the content of each tag = the contents of its segments, trimmed, blank ones left out, in order
                                                                             (parseReply_segments)
-/

namespace TagLedger

open Text (SameText Unmarked)

namespace Tag

/-! ## Tokens -/

/-- Without brackets and slashes. -/
def Bare (label : List Char) : Prop := ∀ c ∈ label, c ≠ '[' ∧ c ≠ ']' ∧ c ≠ '/'

instance (label : List Char) : Decidable (Bare label) := List.decidableBAll _ label

/-- No opening or closing tag of these labels stands in the text. -/
def Plain (labels : List (List Char)) (s : List Char) : Prop :=
  ∀ l ∈ labels, ∀ b ∈ s.tails,
    afterFolded? (openToken l) b = none ∧ afterFolded? (closeToken l) b = none

instance (labels : List (List Char)) (s : List Char) : Decidable (Plain labels s) :=
  inferInstanceAs (Decidable (∀ l ∈ labels, _))

variable {labels : List (List Char)} {k l o s t u r : List Char}

theorem same_open {c : Char} : Text.sameLetter '[' c = true ↔ c = '[' :=
  Text.sameLetter_caseless (by decide) (by decide)

theorem same_close {c : Char} : Text.sameLetter ']' c = true ↔ c = ']' :=
  Text.sameLetter_caseless (by decide) (by decide)

theorem same_slash {c : Char} : Text.sameLetter '/' c = true ↔ c = '/' :=
  Text.sameLetter_caseless (by decide) (by decide)

theorem afterFolded?_eq_some : afterFolded? t s = some r ↔ ∃ w, s = w ++ r ∧ SameText t w := by
  induction t generalizing s with
  | nil =>
    refine ⟨fun h => ⟨[], Option.some.inj h, .nil⟩, ?_⟩
    rintro ⟨w, rfl, hw⟩
    cases hw
    rfl
  | cons c t ih =>
    constructor
    · intro h
      cases s with
      | nil => cases h
      | cons d s =>
        unfold afterFolded? at h
        split at h
        · next hcd =>
          obtain ⟨w, rfl, hw⟩ := ih.mp h
          exact ⟨d :: w, rfl, .cons hcd hw⟩
        · cases h
    · rintro ⟨w, rfl, hw⟩
      cases hw with
      | cons hcd hw =>
        rw [List.cons_append, afterFolded?, if_pos hcd]
        exact ih.mpr ⟨_, rfl, hw⟩

theorem afterFolded?_append (h : SameText t s) (r : List Char) : afterFolded? t (s ++ r) = some r :=
  afterFolded?_eq_some.mpr ⟨s, rfl, h⟩

theorem afterFolded?_eq_none : afterFolded? t s = none ↔ ∀ w r, s = w ++ r → ¬ SameText t w := by
  refine ⟨?_, fun h => ?_⟩
  · rintro h w r rfl hw
    rw [afterFolded?_append hw] at h
    cases h
  · cases hs : afterFolded? t s with
    | none => rfl
    | some r =>
      obtain ⟨w, hsw, hw⟩ := afterFolded?_eq_some.mp hs
      exact absurd hw (h w r hsw)

theorem openToken_same (h : SameText l o) : SameText (openToken l) (openToken o) :=
  .cons (same_open.mpr rfl) (List.rel_append h (.cons (same_close.mpr rfl) .nil))

theorem closeToken_same (h : SameText l o) : SameText (closeToken l) (closeToken o) :=
  .cons (same_open.mpr rfl)
    (.cons (same_slash.mpr rfl) (List.rel_append h (.cons (same_close.mpr rfl) .nil)))

theorem exists_openToken (h : SameText (openToken l) s) : ∃ o, s = openToken o ∧ SameText l o := by
  cases h with
  | cons hopen hrest =>
    obtain ⟨o, e, rfl, ho, he⟩ := SameText.of_append hrest
    cases he with
    | cons hclose hnil =>
      cases hnil
      rw [same_open.mp hopen, same_close.mp hclose]
      exact ⟨o, rfl, ho⟩

/-- A bare label stays bare in another spelling. -/
theorem Bare.same (hl : Bare l) (h : SameText l o) : Bare o := fun c hc => by
  obtain ⟨a, ha, hca⟩ := h.mem hc
  obtain ⟨hopen, hclose, hslash⟩ := hl a ha
  refine ⟨?_, ?_, ?_⟩
  · rintro rfl
    exact hopen (same_open.mp hca)
  · rintro rfl
    exact hclose (same_close.mp hca)
  · rintro rfl
    exact hslash (same_slash.mp hca)

/-! ## Where tokens start -/

/-- Nothing, or a text with a bracket in front. -/
def Fresh (s : List Char) : Prop := ∀ c r, s = c :: r → c = '['

theorem fresh_nil : Fresh [] := fun _ _ h => nomatch h

theorem fresh_openToken (l s : List Char) : Fresh (openToken l ++ s) := fun _ _ h =>
  (List.cons.inj h).1.symm

theorem fresh_closeToken (l s : List Char) : Fresh (closeToken l ++ s) := fun _ _ h =>
  (List.cons.inj h).1.symm

/-- A token does not reach over the place where a text ends and a bracket or nothing follows. -/
theorem afterFolded?_fresh (ht : '[' ∉ t) (hs : s ≠ []) (hnone : afterFolded? ('[' :: t) s = none)
    (hu : Fresh u) : afterFolded? ('[' :: t) (s ++ u) = none := by
  refine afterFolded?_eq_none.mpr fun w r hsu hw => ?_
  rcases List.append_eq_append_iff.mp hsu with ⟨d, rfl, hd⟩ | ⟨d, rfl, -⟩
  · cases d with
    | nil =>
      rw [List.append_nil] at hw
      exact afterFolded?_eq_none.mp hnone s [] (List.append_nil s).symm hw
    | cons c d =>
      -- the token would hold a second bracket, the one that follows `s`
      obtain rfl := hu c (d ++ r) hd
      obtain ⟨e, s, rfl⟩ := List.exists_cons_of_ne_nil hs
      cases hw with
      | cons _ hw =>
        obtain ⟨a, ha, hca⟩ := SameText.mem hw (List.mem_append_right s List.mem_cons_self)
        rw [same_open.mp hca] at ha
        exact ht ha
  · exact afterFolded?_eq_none.mp hnone w d rfl hw

theorem Bare.open_tail (hl : Bare l) : '[' ∉ l ++ [']'] := fun h => by
  rcases List.mem_append.mp h with h | h
  · exact (hl _ h).1 rfl
  · exact absurd (List.mem_singleton.mp h) (by decide)

theorem Bare.close_tail (hl : Bare l) : '[' ∉ '/' :: l ++ [']'] := fun h => by
  rcases List.mem_cons.mp h with h | h
  · exact absurd h (by decide)
  · exact hl.open_tail h

theorem Plain.suffix (hs : Plain labels s) {b : List Char} (hb : b <:+ s) : Plain labels b :=
  fun l hl b' hb' =>
    hs l hl b' ((List.mem_tails b' s).mpr (((List.mem_tails b' b).mp hb').trans hb))

/-- No opening tag starts in plain text, whatever stands behind it. -/
theorem Plain.afterOpen? (hs : Plain labels s) (hl : l ∈ labels) (hbare : Bare l) (hne : s ≠ [])
    (hu : Fresh u) : afterOpen? l (s ++ u) = none :=
  afterFolded?_fresh hbare.open_tail hne
    (hs l hl s ((List.mem_tails s s).mpr (List.suffix_refl s))).1 hu

theorem Plain.afterClose? (hs : Plain labels s) (hl : l ∈ labels) (hbare : Bare l) (hne : s ≠ [])
    (hu : Fresh u) : afterFolded? (closeToken l) (s ++ u) = none :=
  afterFolded?_fresh hbare.close_tail hne
    (hs l hl s ((List.mem_tails s s).mpr (List.suffix_refl s))).2 hu

/-- A text that does not begin with a bracket begins with no opening tag. -/
theorem afterOpen?_cons {c : Char} (hc : c ≠ '[') : Tag.afterOpen? l (c :: s) = none :=
  afterFolded?_eq_none.mpr fun w r hs hw => by
    cases hw with
    | cons hopen _ => exact hc ((List.cons.inj hs).1.trans (same_open.mp hopen))

theorem afterOpen?_closeToken (hl : Bare l) : Tag.afterOpen? l (closeToken o ++ s) = none :=
  afterFolded?_eq_none.mpr fun w r hs hw => by
    obtain ⟨k, rfl, hk⟩ := exists_openToken hw
    have htail := (List.cons.inj hs).2
    cases k with
    | nil => exact absurd (List.cons.inj htail).1 (by decide)
    | cons c k => exact (hl.same hk c List.mem_cons_self).2.2 (List.cons.inj htail).1.symm

/-- Labels without closing brackets are told apart by what stands before the bracket. -/
theorem eq_of_openToken (hk : ']' ∉ k) (ho : ']' ∉ o) (h : openToken k ++ s = openToken o ++ t) :
    k = o := by
  have htail : k ++ ']' :: s = o ++ ']' :: t := by simpa [openToken] using h
  rcases List.append_eq_append_iff.mp htail with ⟨d, rfl, hd⟩ | ⟨d, rfl, hd⟩
  · cases d with
    | nil => exact (List.append_nil k).symm
    | cons c d =>
      exact absurd (List.mem_append_right k ((List.cons.inj hd).1 ▸ List.mem_cons_self)) ho
  · cases d with
    | nil => exact List.append_nil o
    | cons c d =>
      exact absurd (List.mem_append_right o ((List.cons.inj hd).1 ▸ List.mem_cons_self)) hk

/-- The opening tag of another label is no opening tag of this one. -/
theorem afterOpen?_openToken (hl : Bare l) (ho : Bare o) (h : ¬ SameText l o) :
    Tag.afterOpen? l (openToken o ++ s) = none :=
  afterFolded?_eq_none.mpr fun w r hs hw => by
    obtain ⟨k, rfl, hk⟩ := exists_openToken hw
    have hko := eq_of_openToken (fun hmem => (ho _ hmem).2.1 rfl)
      (fun hmem => ((hl.same hk) _ hmem).2.1 rfl) hs
    exact h (hko ▸ hk)

theorem plain_of_notMem (hs : '[' ∉ s) : Plain labels s := by
  have hnone (t : List Char) {b : List Char} (hb : b <:+ s) : afterFolded? ('[' :: t) b = none :=
    afterFolded?_eq_none.mpr fun w r hbr hw => by
      cases hw with
      | cons hopen hw =>
        exact hs (hb.subset (hbr ▸ same_open.mp hopen ▸ List.mem_cons_self))
  exact fun l _ b hb => ⟨hnone _ ((List.mem_tails b s).mp hb), hnone _ ((List.mem_tails b s).mp hb)⟩

/-! ## Closed segments -/

theorem breakAt?_append (stop : List Char → Bool)
    (hs : ∀ b, b <:+ s → b ≠ [] → stop (b ++ t) = false) (ht : stop t = true) :
    breakAt? stop (s ++ t) = some (s, t) := by
  induction s with
  | nil => cases t <;> simp_all [breakAt?]
  | cons c s ih =>
    have hhead : stop (c :: (s ++ t)) = false :=
      hs (c :: s) (List.suffix_refl _) (List.cons_ne_nil c s)
    rw [List.cons_append, breakAt?, hhead, if_neg Bool.false_ne_true,
      ih fun b hb => hs b (hb.trans (List.suffix_cons c s))]
    rfl

theorem closedMark_segment (hl : Bare l) (hmem : l ∈ labels) (ho : SameText l o) (hk : SameText l k)
    (hs : Plain labels s) : closedMark l (openToken o ++ (s ++ (closeToken k ++ r))) =
      some (s, (openToken o ++ (s ++ closeToken k)).length) := by
  have hopen : Tag.afterOpen? l (openToken o ++ (s ++ (closeToken k ++ r))) =
      some (s ++ (closeToken k ++ r)) := afterFolded?_append (openToken_same ho) _
  have hbody := breakAt?_append (s := s) (t := closeToken k ++ r)
    (fun t => (afterFolded? (closeToken l) t).isSome)
    (fun b hb hne => by rw [(hs.suffix hb).afterClose? hmem hl hne (fresh_closeToken k r)]; rfl)
    (by rw [afterFolded?_append (closeToken_same hk)]; rfl)
  have hlengths : (openToken l).length = (openToken o).length ∧
      (closeToken l).length = (closeToken k).length :=
    ⟨(openToken_same ho).length_eq, (closeToken_same hk).length_eq⟩
  unfold closedMark
  rw [hopen, Option.bind_some, hbody, Option.map_some]
  simp only [hlengths, List.length_append, Nat.add_assoc]

/-! ## Readers that look for an opening tag -/

/-- The reader finds a mark only where an opening tag of the label stands. -/
def Opens {α : Type} (l : List Char) (read : Text.MarkReader α) : Prop :=
  ∀ s, Tag.afterOpen? l s = none → read s = none

theorem closedMark_opens (l : List Char) : Opens l (closedMark l) := fun s h => by
  unfold closedMark
  rw [h]
  rfl

theorem openMark_opens (labels : List (List Char)) (l : List Char) : Opens l (openMark labels l) :=
  fun s h => by
    unfold openMark
    rw [h]
    rfl

section

variable {α : Type} {read : Text.MarkReader α} (hread : Opens l read) (hl : Bare l)

include hread hl

theorem Plain.unmarked (hs : Plain labels s) (hmem : l ∈ labels) (hu : Fresh u) :
    Unmarked read s u := fun _ hb hne => hread _ ((hs.suffix hb).afterOpen? hmem hl hne hu)

theorem unmarked_closeToken (hk : Bare k) : Unmarked read (closeToken k) u := fun b hb hne => by
  refine hread _ ?_
  rcases List.suffix_cons_iff.mp hb with rfl | hb
  · exact afterOpen?_closeToken hl
  · obtain ⟨c, b, rfl⟩ := List.exists_cons_of_ne_nil hne
    exact afterOpen?_cons fun hc => hk.close_tail (hc ▸ hb.subset List.mem_cons_self)

theorem unmarked_openToken (ho : Bare o) (hother : ¬ SameText l o) :
    Unmarked read (openToken o) u :=
  fun b hb hne => by
    refine hread _ ?_
    rcases List.suffix_cons_iff.mp hb with rfl | hb
    · exact afterOpen?_openToken hl ho hother
    · obtain ⟨c, b, rfl⟩ := List.exists_cons_of_ne_nil hne
      exact afterOpen?_cons fun hc => ho.open_tail (hc ▸ hb.subset List.mem_cons_self)

end

end Tag

/-! ## Blank contents -/

theorem Text.trim_eq_nil_iff {s : List Char} : trim s = [] ↔ s.all isBlank = true := by
  refine ⟨fun h => ?_, trim_eq_nil_of_blank⟩
  rw [List.all_eq_true]
  unfold trim trimEnd dropEndWhile trimStart at h
  rw [List.reverse_eq_nil_iff, List.dropWhile_eq_nil_iff] at h
  intro c hc
  rw [← List.takeWhile_append_dropWhile (p := isBlank) (l := s)] at hc
  rcases List.mem_append.mp hc with hc | hc
  · exact List.mem_takeWhile_imp hc
  · exact h c (List.mem_reverse.mpr hc)

theorem joinBlocks_ne_empty {s : String} {l : List String} (hs : s ≠ "") :
    joinBlocks (s :: l) ≠ "" := by
  unfold joinBlocks
  cases l with
  | nil => rwa [String.intercalate_singleton]
  | cons t l =>
    rw [String.intercalate_cons_cons, Ne, String.append_eq_empty_iff, String.append_eq_empty_iff]
    exact fun h => hs h.1.1

/-! ## Rows of segments -/

@[simp] theorem toList_label (d : Definition) : d.label.toList = Tag.strip d.tag.toList :=
  String.toList_ofList

/-- The labels of variables, as tags spell them. -/
def labelsOf (ds : List Definition) : List (List Char) := ds.map (·.label.toList)

/-- A content between an opening and a closing tag of a variable, with the text that follows. -/
structure Segment where
  definition : Definition
  /-- The label as the opening tag spells it. -/
  opening : List Char
  content : List Char
  /-- The label as the closing tag spells it. -/
  closing : List Char
  after : List Char

namespace Segment

def text (g : Segment) : List Char :=
  Tag.openToken g.opening ++ (g.content ++ (Tag.closeToken g.closing ++ g.after))

/-- The tags are those of a listed variable, and no tag stands in the content or behind. -/
structure Fits (ds : List Definition) (g : Segment) : Prop where
  listed : g.definition ∈ ds
  opens : SameText g.definition.label.toList g.opening
  closes : SameText g.definition.label.toList g.closing
  content : Tag.Plain (labelsOf ds) g.content
  after : Tag.Plain (labelsOf ds) g.after

instance (ds : List Definition) (g : Segment) : Decidable (g.Fits ds) :=
  decidable_of_iff (g.definition ∈ ds ∧ SameText g.definition.label.toList g.opening ∧
      SameText g.definition.label.toList g.closing ∧ Tag.Plain (labelsOf ds) g.content ∧
      Tag.Plain (labelsOf ds) g.after)
    ⟨fun ⟨hd, ho, hk, hc, ha⟩ => ⟨hd, ho, hk, hc, ha⟩, fun h => ⟨h.1, h.2, h.3, h.4, h.5⟩⟩

/-- What a row of segments gives a variable: the contents trimmed, blank ones left out. -/
def contentsFor (d : Definition) (gs : List Segment) : List String :=
  (gs.filter fun g => decide (g.definition = d) && !g.content.all Text.isBlank).map fun g =>
    String.ofList (Text.trim g.content)

variable {α : Type} {ds : List Definition} {d : Definition} {g : Segment} {gs : List Segment}
  {u : List Char}

theorem fresh_row (gs : List Segment) : Tag.Fresh (gs.flatMap text) := by
  cases gs with
  | nil => exact Tag.fresh_nil
  | cons g gs =>
    rw [List.flatMap_cons, text, List.append_assoc]
    exact Tag.fresh_openToken _ _

theorem Fits.same_iff (hg : g.Fits ds) (hd : d ∈ ds)
    (hapart : ds.Pairwise fun d e => ¬ SameText d.label.toList e.label.toList) :
    SameText d.label.toList g.definition.label.toList ↔ g.definition = d := by
  refine ⟨fun h => ?_, fun h => h ▸ SameText.refl _⟩
  by_contra hne
  have : Std.Symm fun d e : Definition => ¬ SameText d.label.toList e.label.toList :=
    ⟨fun _ _ hde hed => hde hed.symm⟩
  exact hapart.forall hd hg.listed (Ne.symm hne) h

/-- A reader for one tag passes over a segment of another. -/
theorem Fits.skipped {read : Text.MarkReader α} (hg : g.Fits ds)
    (hbare : ∀ d ∈ ds, Tag.Bare d.label.toList) (hd : d ∈ ds)
    (hother : ¬ SameText d.label.toList g.definition.label.toList)
    (hread : Tag.Opens d.label.toList read) (hu : Tag.Fresh u) :
    Text.marks read (g.text ++ u) = Text.marks read u := by
  have hl := hbare d hd
  have hk := hbare _ hg.listed
  have hmem : d.label.toList ∈ labelsOf ds := List.mem_map_of_mem hd
  unfold text
  simp only [List.append_assoc]
  rw [Text.marks_unmarked (Tag.unmarked_openToken hread hl (hk.same hg.opens) fun h =>
      hother (h.trans hg.opens.symm)),
    Text.marks_unmarked (hg.content.unmarked hread hl hmem (Tag.fresh_closeToken _ _)),
    Text.marks_unmarked (Tag.unmarked_closeToken hread hl (hk.same hg.closes)),
    Text.marks_unmarked (hg.after.unmarked hread hl hmem hu)]

/-- The reader for a tag finds the content of a segment of its own. -/
theorem Fits.found (hg : g.Fits ds) (hbare : ∀ d ∈ ds, Tag.Bare d.label.toList) (hu : Tag.Fresh u) :
    Text.marks (Tag.closedMark g.definition.label.toList) (g.text ++ u) =
      g.content :: Text.marks (Tag.closedMark g.definition.label.toList) u := by
  have hl := hbare _ hg.listed
  have hmem : g.definition.label.toList ∈ labelsOf ds := List.mem_map_of_mem hg.listed
  have hmark := Tag.closedMark_segment (r := g.after ++ u) hl hmem hg.opens hg.closes hg.content
  have htext : g.text ++ u = (Tag.openToken g.opening ++ (g.content ++ Tag.closeToken g.closing)) ++
      (g.after ++ u) := by
    unfold text
    simp only [List.append_assoc]
  rw [htext, Text.marks_mark (by simp [Tag.openToken])
      (by simpa only [List.append_assoc] using hmark),
    Text.marks_unmarked (hg.after.unmarked (Tag.closedMark_opens _) hl hmem hu)]

/-! ## What a row gives a tag -/

section

variable (hbare : ∀ d ∈ ds, Tag.Bare d.label.toList)
  (hapart : ds.Pairwise fun d e => ¬ SameText d.label.toList e.label.toList)
  (hd : d ∈ ds) (hgs : ∀ g ∈ gs, g.Fits ds)

include hbare hapart hd hgs

/-- Closed segments of a tag in a row of segments are those of the tag in the row. -/
theorem marks_closed : Text.marks (Tag.closedMark d.label.toList) (gs.flatMap text) =
    (gs.filter (·.definition = d)).map (·.content) := by
  induction gs with
  | nil => rfl
  | cons g gs ih =>
    have hg := hgs g List.mem_cons_self
    have hrest := ih fun g' hg' => hgs g' (List.mem_cons_of_mem g hg')
    rw [List.flatMap_cons]
    by_cases hown : g.definition = d
    · subst hown
      rw [hg.found hbare (fresh_row gs), hrest, List.filter_cons_of_pos (by simp), List.map_cons]
    · have hskipped := hg.skipped hbare hd (fun h => hown ((hg.same_iff hd hapart).mp h))
        (Tag.closedMark_opens _) (fresh_row gs)
      rw [hskipped, hrest, List.filter_cons_of_neg (by simpa using hown)]

/-- A row without a segment of a tag opens the tag nowhere. -/
theorem marks_open (hnone : ∀ g ∈ gs, g.definition ≠ d) :
    Text.marks (Tag.openMark (labelsOf ds) d.label.toList) (gs.flatMap text) = [] := by
  induction gs with
  | nil => rfl
  | cons g gs ih =>
    have hg := hgs g List.mem_cons_self
    rw [List.flatMap_cons, hg.skipped hbare hd
      (fun h => hnone g List.mem_cons_self ((hg.same_iff hd hapart).mp h))
      (Tag.openMark_opens _ _) (fresh_row gs)]
    exact ih (fun g' hg' => hgs g' (List.mem_cons_of_mem g hg'))
      fun g' hg' => hnone g' (List.mem_cons_of_mem g hg')

theorem bodies_row {before : List Char} (hbefore : Tag.Plain (labelsOf ds) before) :
    Tag.bodies (labelsOf ds) d.label.toList (before ++ gs.flatMap text) =
      (gs.filter (·.definition = d)).map (·.content) := by
  have hl := hbare d hd
  have hmem : d.label.toList ∈ labelsOf ds := List.mem_map_of_mem hd
  unfold Tag.bodies
  rw [Text.marks_unmarked (hbefore.unmarked (Tag.closedMark_opens _) hl hmem (fresh_row gs)),
    marks_closed hbare hapart hd hgs]
  split
  · next hnone =>
    rw [Text.marks_unmarked (hbefore.unmarked (Tag.openMark_opens _ _) hl hmem (fresh_row gs)),
      marks_open hbare hapart hd hgs, hnone]
    intro g hg hown
    rw [List.map_eq_nil_iff, List.filter_eq_nil_iff] at hnone
    exact hnone g hg (decide_eq_true hown)
  · rfl

end

theorem contentsFor_eq (d : Definition) (gs : List Segment) :
    ((((gs.filter (·.definition = d)).map (·.content)).map Text.trim).filter
      (!·.isEmpty)).map String.ofList = contentsFor d gs := by
  have htrim (s : List Char) : (Text.trim s).isEmpty = s.all Text.isBlank := by
    rw [Bool.eq_iff_iff, List.isEmpty_iff, Text.trim_eq_nil_iff]
  unfold contentsFor
  rw [List.map_map, List.filter_map, List.map_map, List.filter_filter]
  congr 1
  refine List.filter_congr fun g _ => ?_
  rw [Function.comp_apply, Function.comp_apply, htrim, Bool.and_comm]

theorem mem_contentsFor_ne {s : String} (h : s ∈ contentsFor d gs) : s ≠ "" := by
  obtain ⟨g, hg, rfl⟩ := List.mem_map.mp h
  have hblank := (List.mem_filter.mp hg).2
  rw [Bool.and_eq_true, Bool.not_eq_true'] at hblank
  rw [Ne, String.ofList_eq_empty_iff, Text.trim_eq_nil_iff, hblank.2]
  exact Bool.false_ne_true

theorem joinBlocks_contentsFor : joinBlocks (contentsFor d gs) = "" ↔ contentsFor d gs = [] := by
  refine ⟨fun h => ?_, fun h => by rw [h]; rfl⟩
  cases hcontents : contentsFor d gs with
  | nil => rfl
  | cons s l =>
    rw [hcontents] at h
    have hs : s ∈ contentsFor d gs := hcontents ▸ List.mem_cons_self
    exact absurd h (joinBlocks_ne_empty (mem_contentsFor_ne hs))

/-! ## Instructions -/

/-- What an instruction shows between the tags. -/
def hint (d : Definition) : List Char :=
  match d.mode with
  | .stack => ("Your " ++ d.label ++ " content " ++ "(multiple entries allowed)").toList
  | .replace => ("Your " ++ d.label ++ " content " ++ "(single entry)").toList

/-- The segment that an instruction shows. -/
def shown (d : Definition) : Segment := ⟨d, d.label.toList, hint d, d.label.toList, []⟩

theorem text_shown (d : Definition) : (shown d).text = d.instruction.toList := by
  unfold shown hint text Definition.instruction Tag.openToken Tag.closeToken
  cases d.mode <;> simp

theorem hint_bare (hd : Tag.Bare d.label.toList) : '[' ∉ hint d := by
  have hlabel : '[' ∉ d.label.toList := fun h => (hd _ h).1 rfl
  unfold hint
  rw [toList_label] at hlabel
  cases d.mode <;> simp [hlabel]

theorem shown_fits (hbare : ∀ d ∈ ds, Tag.Bare d.label.toList) (hd : d ∈ ds) :
    (shown d).Fits ds := by
  have hsame := SameText.refl d.label.toList
  unfold shown
  constructor <;> dsimp only
  · exact hd
  · exact hsame
  · exact hsame
  · exact Tag.plain_of_notMem (hint_bare (hbare d hd))
  · exact Tag.plain_of_notMem List.not_mem_nil

end Segment

/-! ## Reading a row -/

/-- A reply that keeps to the tags gives each variable the contents of its segments, and the
instructions show segments that keep to them. -/
theorem parseReply_segments {ds : List Definition} {before : List Char} {gs : List Segment}
    (hbare : ∀ d ∈ ds, Tag.Bare d.label.toList)
    (hapart : ds.Pairwise fun d e => ¬ SameText d.label.toList e.label.toList)
    (hbefore : Tag.Plain (labelsOf ds) before) (hgs : ∀ g ∈ gs, g.Fits ds) :
    (∀ d ∈ ds, (Segment.shown d).Fits ds ∧ d.instruction.toList = (Segment.shown d).text) ∧
    parseReply (String.ofList (before ++ gs.flatMap Segment.text)) ds = ds.filterMap fun d =>
      if Segment.contentsFor d gs = [] then none
      else some ⟨d.tag, joinBlocks (Segment.contentsFor d gs)⟩ := by
  refine ⟨fun d hd => ⟨Segment.shown_fits hbare hd, (Segment.text_shown d).symm⟩, ?_⟩
  unfold parseReply
  refine List.filterMap_congr fun d hd => ?_
  have hcontent : Tag.content (labelsOf ds) d.label.toList (before ++ gs.flatMap Segment.text) =
      joinBlocks (Segment.contentsFor d gs) := by
    unfold Tag.content
    rw [Segment.bodies_row hbare hapart hd hgs hbefore, Segment.contentsFor_eq]
  simp only [labelsOf, toList_label] at hcontent
  simp only [String.toList_ofList, hcontent, Segment.joinBlocks_contentsFor]

/-- Spelling differs in case, a blank content is left out, and brackets stand in the texts. -/
theorem parseReply_segments_repeated :
    let mood : Definition := ⟨"var_1", "mood", "[Mood]", .replace, 0, 0⟩
    let scene : Definition := ⟨"var_2", "scene", "[Straße]", .stack, 0, 0⟩
    let before := "Well [/ ".toList
    let gs : List Segment :=
      [⟨scene, "STRAẞE".toList, " a [b] ".toList, "straße".toList, "between".toList⟩,
        ⟨mood, "mood".toList, " \n".toList, "MOOD".toList, []⟩,
        ⟨scene, "straße".toList, "[c".toList, "Straße".toList, " end [Mood".toList⟩]
    (∀ d ∈ [mood, scene], Tag.Bare d.label.toList) ∧
    [mood, scene].Pairwise (fun d e => ¬ SameText d.label.toList e.label.toList) ∧
    Tag.Plain (labelsOf [mood, scene]) before ∧ (∀ g ∈ gs, g.Fits [mood, scene]) ∧
    parseReply (String.ofList (before ++ gs.flatMap Segment.text)) [mood, scene] =
      [⟨"[Straße]", "a [b]\n\n[c"⟩] := by
  intro mood scene before gs
  have hbare : ∀ d ∈ [mood, scene], Tag.Bare d.label.toList := by decide +kernel
  have hapart : [mood, scene].Pairwise fun d e => ¬ SameText d.label.toList e.label.toList := by
    decide +kernel
  have hbefore : Tag.Plain (labelsOf [mood, scene]) before := by decide +kernel
  have hgs : ∀ g ∈ gs, g.Fits [mood, scene] := by decide +kernel
  refine ⟨hbare, hapart, hbefore, hgs, ?_⟩
  rw [(parseReply_segments hbare hapart hbefore hgs).2]
  decide +kernel

end TagLedger
