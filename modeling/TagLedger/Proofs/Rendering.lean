import Mathlib
import TagLedger.Proofs.Overlong

/-!
# Floors in a reference and in an item

The floors that a reference to the chat picks become a text, and so do the floors of an item. Both
leave out floors without a text, and write the others in the same format. But a text of blanks only
is left out of an item and written in a reference. So the two texts are the same as long as no floor
is of blanks only; otherwise the reference has more to tell, and the texts differ, except where the
floor of blanks is the only one and its line is empty.

    the lines of a reference   =  those of all floors with a text                     (chatBlocks_eq)
    the lines of an item       =  those of them that are not of blanks only          (floorBlocks_eq)
    the texts are the same  ↔  these are the same lines, or an empty line and none (rendered_same_iff)
-/

namespace TagLedger

/-! ## Joining lines -/

/-- The number of characters of blocks with a line break of two after each. -/
def blocksLength (blocks : List String) : Nat := (blocks.map fun b => b.length + 2).sum

theorem length_joinBlocks {blocks : List String} (h : blocks ≠ []) :
    (joinBlocks blocks).length + 2 = blocksLength blocks := by
  unfold joinBlocks blocksLength
  induction blocks with
  | nil => exact absurd rfl h
  | cons b blocks ih =>
    cases blocks with
    | nil => simp
    | cons c blocks =>
      have hbreaks : ("\n\n" : String).length = 2 := rfl
      rw [String.intercalate_cons_cons, String.length_append, String.length_append, hbreaks,
        List.map_cons, List.sum_cons, ← ih (List.cons_ne_nil c blocks)]
      omega

/-- Each block that is left out makes the blocks shorter. -/
theorem blocksLength_sublist {left all : List String} (h : left.Sublist all) :
    blocksLength left + 2 * (all.length - left.length) ≤ blocksLength all := by
  unfold blocksLength
  induction h with
  | slnil => exact Nat.le_refl 0
  | cons b h ih =>
    have hle := h.length_le
    rw [List.map_cons, List.sum_cons, List.length_cons]
    omega
  | cons_cons b _ ih =>
    rw [List.map_cons, List.map_cons, List.sum_cons, List.sum_cons, List.length_cons,
      List.length_cons]
    omega

/-- A text shows that blocks were left out, unless none is left of a single empty one. -/
theorem joinBlocks_sublist {left all : List String} (h : left.Sublist all) :
    joinBlocks all = joinBlocks left ↔ left = all ∨ left = [] ∧ all = [""] := by
  constructor
  · intro hjoin
    have hlength := congrArg String.length hjoin
    have hshorter := blocksLength_sublist h
    by_cases hall : all = []
    · subst hall
      exact .inl (List.sublist_nil.mp h)
    · have hallLength := length_joinBlocks hall
      by_cases hleft : left = []
      · subst hleft
        obtain ⟨b, rest, rfl⟩ := List.exists_cons_of_ne_nil hall
        have hnone : (joinBlocks []).length = 0 := rfl
        have hrest : blocksLength (b :: rest) = b.length + 2 + blocksLength rest := rfl
        have hmore := blocksLength_sublist (List.nil_sublist rest)
        rw [List.length_nil] at hmore
        obtain rfl : rest = [] := List.length_eq_zero_iff.mp (by omega)
        obtain rfl : b = "" := String.length_eq_zero_iff.mp (by omega)
        exact .inr ⟨rfl, rfl⟩
      · have hleftLength := length_joinBlocks hleft
        exact .inl (h.eq_of_length_le (by omega))
  · rintro (rfl | ⟨rfl, rfl⟩) <;> rfl

namespace Template

variable {env : Environment} {r : Reference} {ranges : List Range} {messages : List Message}
  {format : String} {floors : List Int}

/-! ## Lines -/

/-- The floors that have a text, each with its message. -/
def spoken (messages : List Message) (floors : List Int) : List (Int × Message) :=
  floors.filterMap fun f =>
    match messageAt? messages f with
    | some m => if m.text = "" then none else some (f, m)
    | none => none

/-- The text of a floor is not of blanks only. -/
def isVoiced (x : Int × Message) : Bool := !Text.isBlankText x.2.text

/-- The lines of floors, one for each. -/
def linesOf (format : String) (floors : List (Int × Message)) :
    Except FloorFormat.Fault (List String) :=
  floors.mapM fun x => formatFloor format x.1 x.2 x.2.text

theorem linesOf_cons (x : Int × Message) (floors : List (Int × Message)) :
    linesOf format (x :: floors) = match formatFloor format x.1 x.2 x.2.text with
      | .error e => .error e
      | .ok line => (linesOf format floors).map (line :: ·) := by
  unfold linesOf
  rw [List.mapM_cons]
  cases formatFloor format x.1 x.2 x.2.text with
  | error e => rfl
  | ok line => cases List.mapM (m := Except FloorFormat.Fault) _ floors <;> rfl

theorem chatBlocks_eq : chatBlocks format messages floors =
    (linesOf format (spoken messages floors)).mapError .format := by
  induction floors with
  | nil => rfl
  | cons f floors ih =>
    unfold chatBlocks
    cases hm : messageAt? messages f with
    | none => simpa [spoken, hm] using ih
    | some m =>
      by_cases hempty : m.text = ""
      · simpa [spoken, hm, hempty] using ih
      · have hspoken : spoken messages (f :: floors) = (f, m) :: spoken messages floors := by
          simp [spoken, hm, hempty]
        rw [hspoken, linesOf_cons, ih]
        dsimp only
        rw [if_neg hempty]
        cases formatFloor format f m m.text with
        | error e => rfl
        | ok line => cases linesOf format (spoken messages floors) <;> rfl

/-- Without scripts a floor gives its line, unless its text is of blanks only. -/
theorem floorBlock_eq (f : Int) : floorBlock format messages [] f =
    match messageAt? messages f with
    | some m => if Text.isBlankText m.text then .ok none
      else ((formatFloor format f m m.text).mapError .format).map some
    | none => .ok none := by
  unfold floorBlock
  cases messageAt? messages f with
  | none => rfl
  | some m =>
    dsimp only
    by_cases hempty : m.text = ""
    · rw [if_pos hempty, hempty]
      rfl
    · rw [if_neg hempty]
      change (if Text.isBlankText m.text then _ else _) = _
      refine if_congr Iff.rfl rfl ?_
      cases formatFloor format f m m.text <;> rfl

theorem floorBlocks_cons (f : Int) (floors : List Int) :
    (floorBlocks format messages [] (f :: floors)).map (·.map (·.2)) =
      match floorBlock format messages [] f with
      | .error e => .error e
      | .ok none => (floorBlocks format messages [] floors).map (·.map (·.2))
      | .ok (some line) =>
        ((floorBlocks format messages [] floors).map (·.map (·.2))).map (line :: ·) := by
  rw [floorBlocks]
  rcases floorBlock format messages [] f with e | (_ | line)
  · rfl
  · cases floorBlocks format messages [] floors <;> rfl
  · cases floorBlocks format messages [] floors <;> rfl

theorem floorBlocks_eq : (floorBlocks format messages [] floors).map (·.map (·.2)) =
    (linesOf format ((spoken messages floors).filter isVoiced)).mapError .format := by
  induction floors with
  | nil => rfl
  | cons f floors ih =>
    rw [floorBlocks_cons, floorBlock_eq, ih]
    cases hm : messageAt? messages f with
    | none =>
      simp [spoken, hm]
    | some m =>
      dsimp only
      by_cases hblank : Text.isBlankText m.text = true
      · -- an empty text is passed over with the texts of blanks
        have hpassed : (spoken messages (f :: floors)).filter isVoiced =
            (spoken messages floors).filter isVoiced := by
          by_cases hempty : m.text = "" <;> simp [spoken, hm, hempty, isVoiced, hblank]
        rw [hpassed, if_pos hblank]
      · have hempty : m.text ≠ "" := fun h => hblank (by rw [h]; rfl)
        have hkept : (spoken messages (f :: floors)).filter isVoiced =
            (f, m) :: (spoken messages floors).filter isVoiced := by
          simp [spoken, hm, hempty, isVoiced, hblank]
        rw [hkept, linesOf_cons, if_neg hblank]
        cases formatFloor format f m m.text with
        | error e => rfl
        | ok line => cases linesOf format ((spoken messages floors).filter isVoiced) <;> rfl

theorem linesOf_eq {line : Int × Message → String} {xs : List (Int × Message)}
    (h : ∀ x ∈ xs, formatFloor format x.1 x.2 x.2.text = .ok (line x)) :
    linesOf format xs = .ok (xs.map line) := by
  induction xs with
  | nil => rfl
  | cons x xs ih =>
    obtain ⟨hx, hxs⟩ := List.forall_mem_cons.mp h
    rw [linesOf_cons, hx, ih hxs]
    rfl

/-! ## Both texts -/

/-- The text of a reference to the chat is that of the lines of its floors. -/
theorem text_of_chat (hchat : r.key ∈ env.aliases) (hread : readRanges r.ranges = .ok ranges) :
    r.text env = ((linesOf env.floorFormat (spoken env.messages
      (selectFloors env.messages.length ranges))).mapError .format).map
        fun lines => (joinBlocks lines).toList := by
  rw [text_of_alias hchat, chatText, hread]
  change Except.map _ ((chatBlocks _ _ _).bind fun blocks => .ok (joinBlocks blocks)) = _
  rw [chatBlocks_eq]
  cases linesOf env.floorFormat _ <;> rfl

/-- The text of floors in an item is that of the lines of those that are not of blanks only. -/
theorem text_renderFloors (format : String) (messages : List Message) (floors : List Int) :
    (renderFloors format messages [] floors).map (·.text.toList) =
    ((linesOf format ((spoken messages floors).filter isVoiced)).mapError .format).map
      fun lines => (joinBlocks lines).toList := by
  rw [← floorBlocks_eq, renderFloors]
  cases floorBlocks format messages [] floors <;> rfl

/-- How the text of a reference to the chat compares to that of an item with the same floors and no
scripts. -/
structure RendersAlike (env : Environment) (r : Reference) (floors : List Int) : Prop where
  /-- Where no text is of blanks only both are the same, also where they fail. -/
  same : (∀ x ∈ spoken env.messages floors, isVoiced x) →
    (r.text env).mapError Failure.ofTemplate =
      ((renderFloors env.floorFormat env.messages [] floors).map (·.text.toList)).mapError
        Failure.ofRender
  /-- Where the format writes the floors there are two texts, which are the same if no text is of
  blanks only, or the only text is and its line is empty. -/
  same_iff : (∀ x ∈ spoken env.messages floors,
      ∃ line, formatFloor env.floorFormat x.1 x.2 x.2.text = .ok line) →
    ∃ told shown, r.text env = .ok told ∧
      renderFloors env.floorFormat env.messages [] floors = .ok shown ∧
      (told = shown.text.toList ↔ (∀ x ∈ spoken env.messages floors, isVoiced x) ∨
        ∃ x, spoken env.messages floors = [x] ∧ isVoiced x = false ∧
          formatFloor env.floorFormat x.1 x.2 x.2.text = .ok "")

/-- Leaving out the floors of blanks leaves the text as it is if there are none, or if one of them is
all there is and has an empty line. -/
theorem joinBlocks_voiced {line : Int × Message → String} {xs : List (Int × Message)} :
    joinBlocks (xs.map line) = joinBlocks ((xs.filter isVoiced).map line) ↔
      (∀ x ∈ xs, isVoiced x) ∨ ∃ x, xs = [x] ∧ isVoiced x = false ∧ line x = "" := by
  rw [joinBlocks_sublist (List.filter_sublist.map line)]
  constructor
  · rintro (hall | ⟨hnone, hone⟩)
    · have hlength := congrArg List.length hall
      rw [List.length_map, List.length_map] at hlength
      exact .inl (List.length_filter_eq_length_iff.mp hlength)
    · obtain ⟨x, rfl, hline⟩ := List.map_eq_singleton_iff.mp hone
      have hx := List.filter_eq_nil_iff.mp (List.map_eq_nil_iff.mp hnone) x List.mem_cons_self
      exact .inr ⟨x, rfl, Bool.eq_false_iff.mpr hx, hline⟩
  · rintro (hall | ⟨x, rfl, hx, hline⟩)
    · exact .inl (by rw [List.filter_eq_self.mpr hall])
    · exact .inr ⟨by rw [List.filter_singleton, hx]; rfl, by rw [List.map_singleton, hline]⟩

/-- A reference to the chat gives the text that an item with its floors gives, exactly if no floor is
of blanks only, or nothing else is there and the line is empty. -/
theorem rendered_same_iff (hchat : r.key ∈ env.aliases) (hread : readRanges r.ranges = .ok ranges) :
    RendersAlike env r (selectFloors env.messages.length ranges) where
  same hvoiced := by
    rw [text_of_chat hchat hread, text_renderFloors, List.filter_eq_self.mpr hvoiced]
    cases linesOf env.floorFormat _ <;> rfl
  same_iff hvalid := by
    have hwritten : ∃ line : Int × Message → String,
        ∀ x ∈ spoken env.messages (selectFloors env.messages.length ranges),
          formatFloor env.floorFormat x.1 x.2 x.2.text = .ok (line x) := by
      choose! line hline using hvalid
      exact ⟨line, hline⟩
    obtain ⟨line, hline⟩ := hwritten
    have htold := text_of_chat hchat hread
    rw [linesOf_eq hline] at htold
    have hshown := text_renderFloors env.floorFormat env.messages
      (selectFloors env.messages.length ranges)
    rw [linesOf_eq fun x hx => hline x (List.mem_of_mem_filter hx)] at hshown
    obtain ⟨shown, hrender, htext⟩ := map_eq_ok hshown
    refine ⟨_, shown, htold, hrender, ?_⟩
    rw [htext, String.toList_inj, joinBlocks_voiced]
    refine or_congr_right (exists_congr fun x => and_congr_right fun hx => and_congr_right fun _ => ?_)
    rw [hline x (by rw [hx]; exact List.mem_cons_self)]
    exact ⟨congrArg Except.ok, Except.ok.inj⟩

/-- A floor with a text and one of a blank only, picked by a reference and by an item. -/
theorem rendered_same_iff_blank : ∃ (env : Environment) (r : Reference) (ranges : List Range),
    r.key ∈ env.aliases ∧ readRanges r.ranges = .ok ranges ∧
      RendersAlike env r (selectFloors env.messages.length ranges) ∧
      r.text env = .ok "Hello\n\n ".toList ∧
      renderFloors env.floorFormat env.messages [] (selectFloors env.messages.length ranges) =
        .ok ⟨"Hello", [1]⟩ := by
  let env : Environment :=
    ⟨2, [⟨"Ann", "Hello", false⟩, ⟨"Ann", " ", false⟩], ["chat"], "{text}", fun _ => none⟩
  let r : Reference := ⟨"chat".toList, "@1-2".toList⟩
  have hchat : r.key ∈ env.aliases := by decide
  have hread : readRanges r.ranges = .ok [⟨.at 1, .at 2⟩] := by decide
  exact ⟨env, r, _, hchat, hread, rendered_same_iff hchat hread, by cbv, by cbv⟩

end Template

end TagLedger
