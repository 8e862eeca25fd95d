import TagLedger.Proofs.Expanding
import TagLedger.Proofs.Versions

/-!
# Branches

A branch that was made at a floor takes over what was written at or before it. The floors of a
content are one number or two with a dash between, with blanks around them, and the last number
counts; any other text names no floors. A branch of a branch takes over what it would have got from
the first chat at the lower of both floors.

    writtenBy floors f = .ok (WrittenBy floors f)          for numerals that can be read
    inherit a b f, then inherit b c g  =  inherit a c (min f g)               (inherit_exact)
-/

namespace TagLedger

namespace Text

variable {c : Char} {s t ds : List Char}

/-! ## Digits and blanks -/

theorem isBlank_of_isDigit (h : isDigit c = true) : isBlank c = false := by
  have hzeros : ∀ z ∈ digitZeros, 0x20 < z ∧ z + 9 < 0x85 ∨ 0xA0 < z ∧ z + 9 < 0x1680 ∨
      0x1680 < z ∧ z + 9 < 0x2000 ∨ 0x3000 < z := by decide
  unfold isDigit digitValue? at h
  rw [Option.isSome_map, Option.isSome_iff_exists] at h
  obtain ⟨z, hz⟩ := h
  have hrange := List.find?_some hz
  have hzero := hzeros z (List.mem_of_find?_eq_some hz)
  simp only [Bool.and_eq_true, decide_eq_true_eq] at hrange
  simp only [isBlank, isSpace, Bool.or_eq_false_iff, Bool.and_eq_false_iff, beq_eq_false_iff_ne,
    decide_eq_false_iff_not]
  omega

def Blanks (s : List Char) : Prop := ∀ c ∈ s, isBlank c = true

structure Digits (ds : List Char) : Prop where
  ne_nil : ds ≠ []
  digit : ∀ c ∈ ds, isDigit c = true

theorem Digits.unblank (h : Digits ds) : ∀ c ∈ ds, isBlank c = false := fun c hc =>
  isBlank_of_isDigit (h.digit c hc)

theorem trimStart_blanks (hs : Blanks s) (ht : ∀ c ∈ t.head?, isBlank c = false) :
    trimStart (s ++ t) = t := by
  unfold trimStart
  rw [List.dropWhile_append_of_pos hs]
  exact dropWhile_of_head ht

/-- The text between blanks is left by trimming. -/
theorem trim_blanks {a b : List Char} (ha : Blanks a) (hb : Blanks b) (hne : s ≠ [])
    (hfirst : ∀ c ∈ s.head?, isBlank c = false) (hlast : ∀ c ∈ s.getLast?, isBlank c = false) :
    trim (a ++ (s ++ b)) = s := by
  unfold trim
  rw [trimStart_blanks ha (by rwa [List.head?_append_of_ne_nil s hne])]
  unfold trimEnd dropEndWhile
  rw [List.reverse_append, List.dropWhile_append_of_pos fun c hc => hb c (List.mem_reverse.mp hc),
    dropWhile_of_head (by rwa [List.head?_reverse]), List.reverse_reverse]

theorem exists_trimStart (s : List Char) : ∃ a, s = a ++ trimStart s ∧ Blanks a :=
  ⟨s.takeWhile isBlank, List.takeWhile_append_dropWhile.symm, fun _ hc => List.mem_takeWhile_imp hc⟩

theorem exists_trim (s : List Char) : ∃ a b, s = a ++ (trim s ++ b) ∧ Blanks a ∧ Blanks b := by
  obtain ⟨a, ha, hblanks⟩ := exists_trimStart s
  obtain ⟨b, hb, hblanks'⟩ := exists_trimStart (trimStart s).reverse
  refine ⟨a, b.reverse, ?_, hblanks, fun c hc => hblanks' c (List.mem_reverse.mp hc)⟩
  have hend : trimStart s = trim s ++ b.reverse := by
    have h := congrArg List.reverse hb
    rwa [List.reverse_reverse, List.reverse_append] at h
  rw [← hend]
  exact ha

/-! ## Floors that a text names -/

/-- The text names one floor or two, and this is the numeral of the last. -/
inductive NamesFloors : List Char → List Char → Prop
  | one {a ds b : List Char} : Blanks a → Digits ds → Blanks b → NamesFloors (a ++ (ds ++ b)) ds
  | two {a first b c ds d : List Char} : Blanks a → Digits first → Blanks b → Blanks c →
      Digits ds → Blanks d →
      NamesFloors (a ++ ((first ++ (b ++ '-' :: (c ++ ds))) ++ d)) ds

/-- The numeral of the last floor that a text names. -/
def lastNumeral? (s : List Char) : Option (List Char) :=
  let s := trim s
  let first := s.takeWhile isDigit
  if first.isEmpty then none
  else
    match trimStart (s.drop first.length) with
    | [] => some first
    | '-' :: r =>
      let second := trimStart r
      if second.isEmpty || !second.all isDigit then none else some second
    | _ => none

theorem lastFloor?_eq (floors : String) : lastFloor? floors =
    match lastNumeral? floors.toList with
    | some ds => (readDigits ds).map fun (n : Nat) => some (n : Int)
    | none => .ok none := by
  unfold lastFloor? lastNumeral?
  dsimp only
  split
  · rfl
  · generalize trimStart _ = rest
    rcases rest with _ | ⟨c, r⟩
    · rfl
    · by_cases hdash : c = '-'
      · subst hdash
        cases hsecond : (trimStart r).isEmpty || !(trimStart r).all isDigit with
        | true => simp only [hsecond, if_true]
        | false => simp only [hsecond, Bool.false_eq_true, if_false]
      · simp [hdash]

theorem namesFloors_of_lastNumeral? (h : lastNumeral? s = some ds) : NamesFloors s ds := by
  obtain ⟨a, b, hs, ha, hb⟩ := exists_trim s
  unfold lastNumeral? at h
  dsimp only at h
  obtain ⟨first, rest, hcut, hfirst, hdigits⟩ := Template.exists_run isDigit (trim s)
  rw [hfirst] at h
  rw [hcut, List.drop_left] at h
  rw [hs, hcut]
  obtain ⟨e, hrest, he⟩ := exists_trimStart rest
  split at h
  · cases h
  · next hne =>
    have hfirst : Digits first := ⟨fun hnil => hne (by rw [hnil]; rfl), hdigits⟩
    split at h
    · next hnil =>
      cases h
      rw [hnil, List.append_nil] at hrest
      rw [hrest, List.append_assoc]
      exact .one ha hfirst fun c hc => (List.mem_append.mp hc).elim (he c) (hb c)
    · next r hdash =>
      obtain ⟨f, hr, hf⟩ := exists_trimStart r
      split at h
      · cases h
      · next hsecond =>
        cases h
        simp only [Bool.or_eq_true, List.isEmpty_iff, Bool.not_eq_true', not_or,
          Bool.not_eq_false, List.all_eq_true] at hsecond
        rw [hrest, hdash]
        nth_rewrite 1 [hr]
        exact .two ha hfirst he hf ⟨hsecond.1, hsecond.2⟩ hb
    · cases h

theorem lastNumeral?_of_names (h : NamesFloors s ds) : lastNumeral? s = some ds := by
  have hends {ds : List Char} (hds : Digits ds) :
      (∀ c ∈ ds.head?, isBlank c = false) ∧ ∀ c ∈ ds.getLast?, isBlank c = false :=
    ⟨fun c hc => hds.unblank c (List.mem_of_mem_head? hc),
      fun c hc => hds.unblank c (List.mem_of_mem_getLast? hc)⟩
  cases h with
  | one ha hds hb =>
    unfold lastNumeral?
    rw [trim_blanks ha hb hds.ne_nil (hends hds).1 (hends hds).2]
    dsimp only
    rw [List.takeWhile_eq_self_iff.mpr hds.digit]
    simp [hds.ne_nil, trimStart]
  | @two a first b c _ d ha hfirst hb hc hds hd =>
    have htrim : trim (a ++ ((first ++ (b ++ '-' :: (c ++ ds))) ++ d)) =
        first ++ (b ++ '-' :: (c ++ ds)) := by
      refine trim_blanks ha hd (by simp) ?_ ?_
      · rw [List.head?_append_of_ne_nil _ hfirst.ne_nil]
        exact (hends hfirst).1
      · have hlast : (first ++ (b ++ '-' :: (c ++ ds))).getLast? = ds.getLast? := by
          rw [← List.cons_append, ← List.append_assoc, ← List.append_assoc]
          exact List.getLast?_append_of_ne_nil _ hds.ne_nil
        rw [hlast]
        exact (hends hds).2
    have hrun : (first ++ (b ++ '-' :: (c ++ ds))).takeWhile isDigit = first := by
      cases b with
      | nil => exact Template.takeWhile_run hfirst.digit (by decide)
      | cons e b =>
        refine Template.takeWhile_run hfirst.digit ?_
        by_contra hdigit
        rw [Bool.not_eq_false] at hdigit
        have hblank := hb e List.mem_cons_self
        rw [isBlank_of_isDigit hdigit] at hblank
        cases hblank
    unfold lastNumeral?
    rw [htrim]
    dsimp only
    rw [hrun, List.drop_left, trimStart_blanks hb (by simp; decide)]
    simp [trimStart_blanks hc (hends hds).1, hfirst.ne_nil, hds.ne_nil]
    exact hds.digit

theorem lastNumeral?_eq_some : lastNumeral? s = some ds ↔ NamesFloors s ds :=
  ⟨namesFloors_of_lastNumeral?, lastNumeral?_of_names⟩

end Text

open Text (NamesFloors digitsValue digitLimit)

/-! ## What was written before a floor -/

/-- The last floor that the text names is not after this one. -/
def WrittenBy (floors : String) (f : Int) : Prop :=
  ∃ ds, NamesFloors floors.toList ds ∧ digitsValue ds ≤ f

/-- The numeral of the last floor that the text names can be read. -/
def FloorsShort (floors : String) : Prop :=
  ∀ ds, NamesFloors floors.toList ds → ds.length ≤ digitLimit

variable {floors : String} {f g : Int}

instance (floors : String) : Decidable (FloorsShort floors) :=
  decidable_of_iff ((Text.lastNumeral? floors.toList).all (·.length ≤ digitLimit) = true) <| by
    unfold FloorsShort
    simp only [← Text.lastNumeral?_eq_some, Option.all_eq_true, decide_eq_true_eq]

theorem writtenBy_iff_numeral : WrittenBy floors f ↔
    (Text.lastNumeral? floors.toList).any (fun ds => (digitsValue ds : Int) ≤ f) = true := by
  unfold WrittenBy
  simp only [← Text.lastNumeral?_eq_some, Option.any_eq_true, decide_eq_true_eq]

instance (floors : String) (f : Int) : Decidable (WrittenBy floors f) :=
  decidable_of_iff _ writtenBy_iff_numeral.symm

theorem writtenBy_eq (h : FloorsShort floors) (f : Int) :
    writtenBy floors f = .ok (decide (WrittenBy floors f)) := by
  unfold writtenBy
  rw [Text.lastFloor?_eq]
  cases hds : Text.lastNumeral? floors.toList with
  | none =>
    have hnone : ¬ WrittenBy floors f := fun hf => by
      rw [writtenBy_iff_numeral, hds] at hf
      cases hf
    rw [decide_eq_false hnone]
    rfl
  | some ds =>
    dsimp only
    rw [Text.readDigits_of_le (h ds (Text.lastNumeral?_eq_some.mp hds))]
    have hiff : WrittenBy floors f ↔ (digitsValue ds : Int) ≤ f := by
      rw [writtenBy_iff_numeral, hds]
      simp
    rw [decide_eq_decide.mpr hiff]
    rfl

theorem writtenBy_min : WrittenBy floors (min f g) ↔ WrittenBy floors f ∧ WrittenBy floors g := by
  simp only [writtenBy_iff_numeral]
  cases Text.lastNumeral? floors.toList with
  | none => simp
  | some ds => simp

/-- All numerals of floors that a value names last can be read. -/
def Value.FloorsShort : Value → Prop
  | .stack s => ∀ e ∈ s.entries, TagLedger.FloorsShort e.floors
  | .slot s => TagLedger.FloorsShort s.label

/-- What is taken over of a value at a floor. -/
def Value.upTo (f : Int) : Value → Option Value
  | .stack s =>
    let kept := s.entries.filter fun e => WrittenBy e.floors f
    if kept = [] then none else some (.stack ⟨kept, s.nextId⟩)
  | .slot s =>
    if s.current ≠ "" ∧ WrittenBy s.label f then some (.slot ⟨s.current, s.floors, s.floor, [], -1⟩)
    else none

/-- What is taken over of a value; all of it without a floor. -/
def Value.takenOver (floor : Option Int) (v : Value) : Option Value :=
  match floor with
  | some f => v.upTo f
  | none => some v

theorem Value.upTo_stack (f : Int) (s : Stack) : (Value.stack s).upTo f =
    if (s.entries.filter fun e => WrittenBy e.floors f) = [] then none
    else some (.stack ⟨s.entries.filter fun e => WrittenBy e.floors f, s.nextId⟩) := rfl

theorem Value.upTo_slot (f : Int) (s : Slot) : (Value.slot s).upTo f =
    if s.current ≠ "" ∧ WrittenBy s.label f then
      some (.slot ⟨s.current, s.floors, s.floor, [], -1⟩)
    else none := rfl

theorem entriesUpTo_eq {es : List Entry} (h : ∀ e ∈ es, FloorsShort e.floors) (f : Int) :
    entriesUpTo f es = .ok (es.filter fun e => WrittenBy e.floors f) := by
  induction es with
  | nil => rfl
  | cons e es ih =>
    obtain ⟨he, hes⟩ := List.forall_mem_cons.mp h
    rw [entriesUpTo, writtenBy_eq he, ih hes, List.filter_cons]
    dsimp only
    split <;> rfl

theorem Value.branch_eq {v : Value} (h : v.FloorsShort) (floor : Option Int) :
    v.branch floor = .ok (v.takenOver floor) := by
  cases floor with
  | none => rfl
  | some f =>
    cases v with
    | stack s =>
      have hkept := entriesUpTo_eq h f
      unfold Value.branch
      dsimp only
      rw [hkept]
      unfold takenOver upTo
      dsimp only
      simp only [Except.map, List.isEmpty_iff]
    | slot s =>
      have hlabel := writtenBy_eq h f
      unfold Value.branch takenOver upTo
      dsimp only
      rw [hlabel]
      by_cases hcurrent : s.current = ""
      · simp [hcurrent]
      · simp [hcurrent, Except.map]

/-- A branch of a branch takes over what a branch at the lower of both floors does. -/
theorem Value.takenOver_takenOver (f g : Option Int) (v : Value) :
    (v.takenOver f).bind (Value.takenOver g) = v.takenOver (Option.merge min f g) := by
  cases f with
  | none => cases g <;> rfl
  | some f =>
    cases g with
    | none =>
      cases h : v.takenOver (some f) with
      | none => exact h.symm
      | some w => exact h.symm
    | some g =>
      change (v.upTo f).bind (Value.upTo g) = v.upTo (min f g)
      cases v with
      | stack s =>
        -- what is kept at both floors is kept of what is kept at one
        have hkept : (s.entries.filter fun e => WrittenBy e.floors f).filter
            (fun e => WrittenBy e.floors g) =
              s.entries.filter fun e => WrittenBy e.floors (min f g) := by
          rw [List.filter_filter]
          refine List.filter_congr fun e _ => ?_
          rw [Bool.and_comm, ← Bool.decide_and, decide_eq_decide]
          exact writtenBy_min.symm
        rw [upTo_stack, upTo_stack, ← hkept]
        by_cases hnil : (s.entries.filter fun e => WrittenBy e.floors f) = []
        · rw [hnil]
          rfl
        · rw [if_neg hnil, Option.bind_some, upTo_stack]
      | slot s =>
        -- the label is that of the content, and stays
        have hlabel : (Slot.mk s.current s.floors s.floor [] (-1)).label = s.label := rfl
        rw [upTo_slot, upTo_slot]
        by_cases hf : s.current ≠ "" ∧ WrittenBy s.label f
        · rw [if_pos hf, Option.bind_some, upTo_slot, hlabel]
          simp [writtenBy_min, hf.1, hf.2]
        · rw [if_neg hf, Option.bind_none, if_neg]
          rw [writtenBy_min]
          exact fun h => hf ⟨h.1, h.2.1⟩

/-- What was taken over has its floors from before. -/
theorem Value.FloorsShort.takenOver {v w : Value} {floor : Option Int} (h : v.FloorsShort)
    (hw : v.takenOver floor = some w) : w.FloorsShort := by
  cases floor with
  | none =>
    cases hw
    exact h
  | some f =>
    cases v with
    | stack s =>
      rw [Value.takenOver, Value.upTo_stack] at hw
      split at hw
      · cases hw
      · cases hw
        exact fun e he => h e (List.mem_of_mem_filter he)
    | slot s =>
      rw [Value.takenOver, Value.upTo_slot] at hw
      split at hw
      · cases hw
        exact h
      · cases hw

/-! ## Values of a branch -/

/-- The value is of a variable that is defined, and that is meant if only some are. -/
def Root.inherits (r : Root) (only : Option (List String)) (id : String) : Bool :=
  (match only with
    | some ids => ids.contains id
    | none => true) && (Json.find? r.definitions id).isSome

namespace ChatValues

variable {vs ws : ChatValues} {floor : Option Int} {id : String}

/-- What is taken over of values, one by one. -/
def takenOver (floor : Option Int) (vs : ChatValues) : ChatValues :=
  vs.filterMap fun v => (v.2.takenOver floor).map (v.1, ·)

/-- The values with others in their place. -/
def overlaid (vs ws : ChatValues) : ChatValues :=
  ws.foldl (fun vs w => Json.insert vs w.1 w.2) vs

/-- What a branch at a floor takes over of values. -/
def branch (vs : ChatValues) (r : Root) (only : Option (List String)) (floor : Option Int) :
    ChatValues :=
  takenOver floor (vs.filter fun v => r.inherits only v.1)

theorem takenOver_cons (floor : Option Int) (v : String × Value) (vs : ChatValues) :
    takenOver floor (v :: vs) = (match v.2.takenOver floor with
      | some w => (v.1, w) :: takenOver floor vs
      | none => takenOver floor vs) := by
  unfold takenOver
  rw [List.filterMap_cons]
  cases v.2.takenOver floor <;> rfl

theorem keys_takenOver (floor : Option Int) (vs : ChatValues) :
    (Json.keys (takenOver floor vs)).Sublist (Json.keys vs) := by
  induction vs with
  | nil => exact List.Sublist.refl _
  | cons v vs ih =>
    rw [takenOver_cons]
    cases v.2.takenOver floor with
    | none => exact ih.cons v.1
    | some w => exact ih.cons_cons v.1

theorem nodup_keys_branch (r : Root) (only : Option (List String)) (h : (Json.keys vs).Nodup) :
    (Json.keys (branch vs r only floor)).Nodup :=
  (h.sublist (List.filter_sublist.map _)).sublist (keys_takenOver floor _)

theorem floorsShort_takenOver (h : ∀ v ∈ vs, v.2.FloorsShort) :
    ∀ w ∈ takenOver floor vs, w.2.FloorsShort := by
  intro w hw
  obtain ⟨v, hv, hsome⟩ := List.mem_filterMap.mp hw
  obtain ⟨x, hx, rfl⟩ := Option.map_eq_some_iff.mp hsome
  exact (h v hv).takenOver hx

theorem find?_overlaid (h : (Json.keys ws).Nodup) (vs : ChatValues) (id : String) :
    Json.find? (overlaid vs ws) id = (Json.find? ws id).or (Json.find? vs id) := by
  unfold overlaid
  induction ws generalizing vs with
  | nil => rfl
  | cons w ws ih =>
    obtain ⟨hout, hrest⟩ := List.nodup_cons.mp h
    rw [List.foldl_cons, ih hrest, Json.find?_insert, Json.find?_cons]
    split
    · next heq =>
      subst heq
      rw [Json.find?_eq_none.mpr hout]
      rfl
    · rfl

/-- Values that are laid over nothing are all there is. -/
theorem overlaid_nil (h : (Json.keys ws).Nodup) : overlaid [] ws = ws := by
  have hall (vs : ChatValues) (hout : ∀ k ∈ Json.keys ws, k ∉ Json.keys vs) :
      overlaid vs ws = vs ++ ws := by
    unfold overlaid
    induction ws generalizing vs with
    | nil => exact (List.append_nil vs).symm
    | cons w ws ih =>
      obtain ⟨hw, hrest⟩ := List.nodup_cons.mp h
      rw [List.foldl_cons, Json.insert_of_not_mem (hout w.1 List.mem_cons_self), ih hrest]
      · simp
      · intro k hk
        rw [Json.keys_append, List.mem_append]
        refine not_or.mpr ⟨hout k (List.mem_cons_of_mem _ hk), fun hsame => ?_⟩
        exact hw (List.mem_singleton.mp hsame ▸ hk)
  exact hall [] fun _ _ => List.not_mem_nil

/-- Values that were taken over are taken over again as if it had been done at the lower floor. -/
theorem branch_branch (r : Root) (f g : Option Int) (vs : ChatValues) :
    (branch vs r none f).branch r none g = branch vs r none (Option.merge min f g) := by
  induction vs with
  | nil => rfl
  | cons v vs ih =>
    unfold branch at ih ⊢
    rw [List.filter_cons]
    split
    · next hdefined =>
      rw [takenOver_cons, takenOver_cons, ← Value.takenOver_takenOver]
      cases v.2.takenOver f with
      | none => exact ih
      | some w =>
        dsimp only
        rw [List.filter_cons, if_pos hdefined, takenOver_cons, ih]
        rfl
    · exact ih

end ChatValues

/-! ## What a chat gets -/

namespace Storage

variable {r : Root} {s t : Storage} {source target chat id : String} {vs ws : ChatValues}

/-- A chat is served with these values. -/
def HasValues (s : Storage) (chat : String) (vs : ChatValues) : Prop :=
  (ended (loadValues chat) s).1 = .ok vs

/-- No reading of the chat has failed, and none does. -/
def Readable (s : Storage) (chat : String) : Prop :=
  s.store.isDegraded chat = false ∧
    (ended (loadValues chat) s).2.store.isDegraded chat = false

/-- The chat can be served from memory, or else from its document. -/
structure Sound (s : Storage) (chat : String) : Prop where
  unmarked : s.store.isDegraded chat = false
  legible : s.store.usable? chat = none →
    (rawOf? (s.shelf.read (Store.valuesName s.store.valuesStart chat)).1).isSome = true

/-- As far as can be seen, `t` is `s` with these values in one chat. -/
structure Gave (r : Root) (s : Storage) (chat : String) (vs : ChatValues) (t : Storage) : Prop where
  root : t.store.root = some r
  values : t.serves r chat = vs
  others : ∀ c, c ≠ chat → t.serves r c = s.serves r c
  sound : ∀ c, s.Sound c → t.Sound c

theorem hasValues_iff (hroot : s.store.root = some r) : s.HasValues chat vs ↔ s.serves r chat = vs := by
  unfold HasValues
  rw [loadValues_answer hroot]
  exact ⟨Except.ok.inj, congrArg Except.ok⟩

theorem sound_of_readable (hroot : s.store.root = some r) (h : s.Readable chat) : s.Sound chat := by
  obtain ⟨held, granted, hrun⟩ := ended_loadValues_eq hroot chat
  have hafter := h.2
  rw [hrun] at hafter
  refine ⟨h.1, fun hnone => ?_⟩
  have hmark := isDegraded_looked s r chat (Store.valuesName s.store.valuesStart chat) chat
  rw [loaded_unusable hnone] at hafter
  rw [if_pos rfl] at hmark
  cases hraw : rawOf? (s.shelf.read (Store.valuesName s.store.valuesStart chat)).1 with
  | some raw => rfl
  | none =>
    rw [hraw] at hmark
    exact absurd (hmark.symm.trans hafter) (by decide)

theorem sound_of_usable (h : s.store.usable? chat = some vs) : s.Sound chat :=
  ⟨Store.not_degraded_of_usable h, fun hnone => by rw [h] at hnone; cases hnone⟩

/-- A chat that can be served is in memory once it was loaded. -/
theorem Sound.loaded (h : s.Sound chat) (r : Root) :
    (s.loaded r chat).2.store.usable? chat = some (s.serves r chat) := by
  rw [← loaded_fst]
  refine (loaded_cases s r chat).resolve_right fun ⟨hnone, hraw, _⟩ => ?_
  have hsome := h.legible hnone
  rw [hraw] at hsome
  cases hsome

namespace Gave

theorem refl (hroot : s.store.root = some r) : Gave r s chat (s.serves r chat) s :=
  ⟨hroot, rfl, fun _ _ => rfl, fun _ h => h⟩

theorem lined (h : Gave r s chat vs t) (held : List (Lock × Nat)) (granted : List Lock) :
    Gave r s chat vs (t.lined held granted) :=
  ⟨h.root, h.values, h.others, fun c hc => ⟨(h.sound c hc).unmarked, (h.sound c hc).legible⟩⟩

/-- To load a chat changes nothing that can be seen. -/
theorem loaded (h : Gave r s chat vs t) (c : String) : Gave r s chat vs (t.loaded r c).2 := by
  have hlooks := (Looks.refl h.root).loaded c
  refine ⟨hlooks.root, (hlooks.serves chat).trans h.values,
    fun d hd => (hlooks.serves d).trans (h.others d hd), fun d hd => ?_⟩
  have hsound := h.sound d hd
  by_cases hsame : c = d
  · subst hsame
    exact sound_of_usable (hsound.loaded r)
  · cases hu : t.store.usable? c with
    | some vs =>
      rw [loaded_usable hu]
      exact hsound
    | none =>
      rw [loaded_unusable hu] at hlooks ⊢
      have hother := usable?_looked_other (s := t) (r := r) hsame
        (Store.valuesName t.store.valuesStart c)
      have hmark := isDegraded_looked t r c (Store.valuesName t.store.valuesStart c) d
      rw [if_neg hsame] at hmark
      refine ⟨hmark.trans hsound.unmarked, fun hnone => ?_⟩
      rw [hlooks.valuesStart, hlooks.answer]
      exact hsound.legible (hother.symm.trans hnone)

/-- A chat that is in memory is given other values. -/
theorem stored (h : Gave r s chat vs t) (husable : t.store.usable? chat = some vs)
    (ws : ChatValues) : Gave r s chat ws (t.stored chat ws) := by
  have hunmarked := Store.not_degraded_of_usable husable
  have hnew : (t.stored chat ws).store.usable? chat = some ws :=
    Store.usable?_soon hunmarked ws t.clock.elapsed
  have hother {c : String} (hc : c ≠ chat) :
      (t.stored chat ws).store.usable? c = t.store.usable? c := by
    have hset : (t.store.setValues chat ws).usable? c = t.store.usable? c :=
      Store.usable?_setValues_other (Ne.symm hc) ws
    exact hset
  refine ⟨h.root, ?_, fun c hc => ?_, fun c hc => ?_⟩
  · exact serves_usable hnew r
  · refine (serves_congr (hother hc) ?_ rfl (fun _ => rfl) fun _ => rfl).trans (h.others c hc)
    exact (Store.cached?_setValues t.store chat ws c).trans (if_neg (Ne.symm hc))
  · by_cases hsame : c = chat
    · subst hsame
      exact sound_of_usable hnew
    · exact ⟨(h.sound c hc).unmarked, fun hnone =>
        (h.sound c hc).legible ((hother hsame).symm.trans hnone)⟩

/-- A value is set in a chat that can be served. -/
theorem setValue (h : Gave r s chat vs t) (hsound : t.Sound chat) (id : String) (v : Value) :
    ∃ t', ended (Storage.setValue id chat v) t = (.ok (), t') ∧
      Gave r s chat (Json.insert vs id v) t' := by
  have hcheck {t : Storage} (hd : t.store.isDegraded chat = false) :
      ended (.ofAction (checkWritable chat)) t = (.ok (), t) := by
    rw [ended_ofAction, exec_checkWritable, hd]
    rfl
  obtain ⟨held, granted, hload⟩ := ended_loadValues_eq h.root chat
  have husable : ((t.loaded r chat).2.lined held granted).store.usable? chat = some vs :=
    (hsound.loaded r).trans (congrArg some h.values)
  have hserved : (t.loaded r chat).1 = vs := (loaded_fst t r chat).trans h.values
  refine ⟨_, ?_, ((h.loaded chat).lined held granted).stored husable (Json.insert vs id v)⟩
  unfold Storage.setValue
  rw [hserved] at hload
  exact (ended_bind_ok (hcheck hsound.unmarked) _).trans ((ended_bind_ok hload _).trans
    (ended_bind_ok (hcheck (Store.not_degraded_of_usable husable)) _))

/-- Values are copied into a chat that can be served. -/
theorem copyInto (h : Gave r s chat vs t) (hsound : s.Sound chat) (floor : Option Int)
    (hws : ∀ w ∈ ws, w.2.FloorsShort) :
    ∃ t', ended (Variables.copyInto chat floor ws) t =
        (.ok (Json.keys (ChatValues.takenOver floor ws)), t') ∧
      Gave r s chat (ChatValues.overlaid vs (ChatValues.takenOver floor ws)) t' := by
  induction ws generalizing vs t with
  | nil => exact ⟨t, rfl, h⟩
  | cons w ws ih =>
    obtain ⟨hw, hrest⟩ := List.forall_mem_cons.mp hws
    have hbranch := Value.branch_eq hw floor
    rw [ChatValues.takenOver_cons]
    unfold Variables.copyInto
    cases htaken : w.2.takenOver floor with
    | none =>
      rw [htaken] at hbranch
      rw [hbranch]
      exact ih h hrest
    | some v =>
      rw [htaken] at hbranch
      rw [hbranch]
      dsimp only
      obtain ⟨t', hset, hgave⟩ := h.setValue (h.sound chat hsound) w.1 v
      obtain ⟨t'', hcopy, hgave⟩ := ih hgave hrest
      refine ⟨t'', ?_, hgave⟩
      rw [ended_bind_ok hset, ended_bind_ok hcopy]
      rfl

end Gave

/-- The values of a chat are inherited. -/
theorem ended_inherit {u : Storage} (hload : ended load s = (.ok r, u)) (hne : source ≠ target)
    (hsound : u.Sound target) (floor : Option Int) (only : Option (List String))
    (hshort : ∀ v ∈ u.serves r source, v.2.FloorsShort) :
    ∃ t, ended (Variables.inherit source target floor only) s =
        (.ok (.ok (Json.keys (ChatValues.branch (u.serves r source) r only floor))), t) ∧
      Gave r u target (ChatValues.overlaid (u.serves r target)
        (ChatValues.branch (u.serves r source) r only floor)) t := by
  have hroot := root_of_load hload
  obtain ⟨held, granted, hvalues⟩ := ended_loadValues_eq hroot source
  rw [loaded_fst] at hvalues
  have hloaded : Gave r u target (u.serves r target) ((u.loaded r source).2.lined held granted) :=
    ((Gave.refl hroot).loaded source).lined held granted
  have hmeant : ∀ v ∈ (u.serves r source).filter (r.inherits only ·.1), v.2.FloorsShort :=
    fun v hv => hshort v (List.mem_of_mem_filter hv)
  obtain ⟨t, hcopy, hgave⟩ := hloaded.copyInto hsound floor hmeant
  refine ⟨t, ?_, hgave⟩
  have hdefinitions : ended definitions s = (.ok r.definitions, u) := ended_bind_ok hload _
  unfold Variables.inherit
  rw [if_neg hne]
  refine (ended_bind_ok hdefinitions _).trans ?_
  rw [ended_bind_ok hvalues]
  refine (ended_bind_ok hcopy _).trans ?_
  rfl

end Storage

open Storage

/-- A chat inherits from another what was written at or before a floor, over what it had. If it had
nothing and the other chat was a branch itself, it gets what it would have got from the first. -/
theorem inherit_exact {s u : Storage} {r : Root} (hload : ended Storage.load s = (.ok r, u))
    {source : String} {vs : ChatValues} (hvs : u.HasValues source vs) (hkeys : (Json.keys vs).Nodup)
    (hshort : ∀ v ∈ vs, v.2.FloorsShort) :
    (∀ target only floor old, source ≠ target → u.Readable target → u.HasValues target old →
      ∃ t new, ended (Variables.inherit source target floor only) s =
          (.ok (.ok (Json.keys (vs.branch r only floor))), t) ∧
        t.HasValues target new ∧ (∀ id, Json.find? new id =
          (Json.find? (vs.branch r only floor) id).or (Json.find? old id)) ∧
        ∀ c ws, c ≠ target → u.HasValues c ws → t.HasValues c ws) ∧
    ∀ b c f g, source ≠ b → source ≠ c → b ≠ c → u.Readable b → u.Readable c →
      u.HasValues b [] → u.HasValues c [] →
      ∃ t t' t'' ids ids' ws, ended (Variables.inherit source b f none) s = (.ok (.ok ids), t) ∧
        ended (Variables.inherit b c g none) t = (.ok (.ok ids'), t') ∧
        ended (Variables.inherit source c (Option.merge min f g) none) s =
          (.ok (.ok ids'), t'') ∧ t'.HasValues c ws ∧ t''.HasValues c ws := by
  have hroot := root_of_load hload
  have hserved := (hasValues_iff hroot).mp hvs
  subst hserved
  constructor
  · intro target only floor old hne hreadable hold
    rw [hasValues_iff hroot] at hold
    subst hold
    obtain ⟨t, hrun, hgave⟩ := ended_inherit hload hne (sound_of_readable hroot hreadable) floor only
      hshort
    refine ⟨t, _, hrun, (hasValues_iff hgave.root).mpr hgave.values, fun id => ?_, fun c ws hc hws => ?_⟩
    · exact ChatValues.find?_overlaid (ChatValues.nodup_keys_branch r only hkeys) _ id
    · rw [hasValues_iff hroot] at hws
      rw [hasValues_iff hgave.root, hgave.others c hc]
      exact hws
  · intro b c f g hb hc hbc hreadable hreadable' hempty hempty'
    rw [hasValues_iff hroot] at hempty hempty'
    have hsound := sound_of_readable hroot hreadable
    have hsound' := sound_of_readable hroot hreadable'
    have hlaid {floor : Option Int} {vs : ChatValues} (h : (Json.keys vs).Nodup) :
        ChatValues.overlaid [] (vs.branch r none floor) = vs.branch r none floor :=
      ChatValues.overlaid_nil (ChatValues.nodup_keys_branch r none h)
    obtain ⟨t, hrun, hgave⟩ := ended_inherit hload hb hsound f none hshort
    obtain ⟨t'', hrun'', hgave''⟩ := ended_inherit hload hc hsound' (Option.merge min f g) none hshort
    -- the second branch is made from what the first one got
    have hfirst : t.serves r b = (u.serves r source).branch r none f := by
      rw [hgave.values, hempty, hlaid hkeys]
    have hthird : t.serves r c = [] := (hgave.others c (Ne.symm hbc)).trans hempty'
    obtain ⟨t', hrun', hgave'⟩ := ended_inherit (ended_load_some hgave.root) hbc
      (hgave.sound c hsound') g none (by
        rw [hfirst]
        exact ChatValues.floorsShort_takenOver fun v hv => hshort v (List.mem_of_mem_filter hv))
    rw [hfirst, ChatValues.branch_branch] at hrun' hgave'
    refine ⟨t, t', t'', _, _, _, hrun, hrun', hrun'', (hasValues_iff hgave'.root).mpr hgave'.values, ?_⟩
    rw [hasValues_iff hgave''.root, hgave''.values, hthird, hempty']

/-- Of a log with two entries one is inherited, by a branch and by a branch of that. -/
theorem inherit_exact_log : ∃ (s t : Storage) (new : ChatValues),
    ended (Variables.inherit "old" "new" (some 5) none) s = (.ok (.ok ["var_log"]), t) ∧
      t.HasValues "new" new ∧
      Json.find? new "var_log" = some (.stack ⟨[⟨1, "one", "1-3", 0, false⟩], 3⟩) ∧
      ∃ t' t'' ids ws, ended (Variables.inherit "new" "newer" none none) t = (.ok (.ok ids), t') ∧
        ended (Variables.inherit "old" "newer" (some 5) none) s = (.ok (.ok ids), t'') ∧
        t'.HasValues "newer" ws ∧ t''.HasValues "newer" ws := by
  let r : Root := { Root.standard with
    definitions := [("var_log", ⟨"var_log", "log", "[log]", .stack, 0, 0⟩)] }
  let vs : ChatValues :=
    [("var_log", .stack ⟨[⟨1, "one", "1-3", 0, false⟩, ⟨2, "two", " 4 - 6", 0, false⟩], 3⟩),
      ("var_gone", .slot ⟨"three", some "x", none, [], -1⟩)]
  let store : Store := { Store.empty "root" "values-" 0 0 with
    root := some r
    values := [("old", vs), ("new", []), ("newer", [])] }
  let s : Storage := ⟨store, (Shelf.ofDocuments []).refusing true false, ⟨0, 0⟩, .start⟩
  have hshort : ∀ v ∈ vs, v.2.FloorsShort := by
    intro v hv
    rcases List.mem_cons.mp hv with rfl | hv
    · intro e he
      rcases List.mem_cons.mp he with rfl | he
      · exact (by decide : FloorsShort "1-3")
      · cases List.mem_singleton.mp he
        exact (by decide : FloorsShort " 4 - 6")
    · cases List.mem_singleton.mp hv
      exact (by decide : FloorsShort "x")
  have hload : ended Storage.load s = (.ok r, s) := rfl
  have hvs : s.HasValues "old" vs := rfl
  obtain ⟨hexact, hcompose⟩ := inherit_exact hload hvs (by decide) hshort
  obtain ⟨t, new, hrun, hnew, hfind, -⟩ :=
    hexact "new" none (some 5) [] (by decide) ⟨rfl, rfl⟩ rfl
  obtain ⟨t₁, t', t'', ids, ids', ws, hrun₁, hrun', hrun'', hws, hws'⟩ :=
    hcompose "new" "newer" (some 5) none (by decide) (by decide) (by decide) ⟨rfl, rfl⟩ ⟨rfl, rfl⟩
      rfl rfl
  obtain ⟨-, rfl⟩ := Prod.mk.inj (hrun.symm.trans hrun₁)
  have hids : Json.keys (vs.branch r none (some 5)) = ["var_log"] := by decide
  rw [hids] at hrun
  refine ⟨s, t, new, hrun, hnew, ?_, t', t'', ids', ws, hrun', hrun'', hws, hws'⟩
  rw [hfind]
  decide

end TagLedger
