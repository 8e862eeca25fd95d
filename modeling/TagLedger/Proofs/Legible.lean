import Mathlib.Data.Nat.Digits.Defs
import Mathlib.Data.String.Basic
import TagLedger.Proofs.StoredTexts

/-!
# What is read can be written

A numeral of too many digits is neither read nor written. So a tree that is read can be written, and
so can a record that is read from it: an integer of the record is one of the tree, or comes from a
text or a number that makes no longer numeral. An older root that is brought to the current version
keeps to that as well.

    parseText t = .ok j → j.writable                                      (writable_of_parseText)
    j.writable → Root.decode ctx j = .valid r → r.document.writable               (Root.legible)
-/

namespace TagLedger

/-! ## Numerals within the limit -/

namespace Text

theorem digitsValue_lt (ds : List Char) : digitsValue ds < 10 ^ ds.length := by
  induction ds using List.reverseRecOn with
  | nil => decide
  | append_singleton ds c ih =>
    have hdigit : digitsValue [c] < 10 := by
      unfold digitsValue digitValue?
      cases hz : digitZeros.find? fun z => decide (z ≤ c.toNat) && decide (c.toNat ≤ z + 9) with
      | none => simp [hz]
      | some z =>
        have hrange := List.find?_some hz
        rw [Bool.and_eq_true, decide_eq_true_eq, decide_eq_true_eq] at hrange
        simp only [List.foldl_cons, List.foldl_nil, hz, Option.map_some, Option.getD_some]
        omega
    rw [digitsValue_append, List.length_append, List.length_singleton, pow_one, pow_succ]
    omega

theorem length_le_utf8ByteSize (s : List Char) : s.length ≤ (String.ofList s).utf8ByteSize := by
  rw [String.utf8ByteSize_ofList]
  induction s with
  | nil => exact Nat.le_refl 0
  | cons c s ih =>
    have hpos := Char.utf8Size_pos c
    rw [List.length_cons, String.utf8Len]
    omega

end Text

namespace Json

open Text

/-- The numeral of the integer is within the limit. -/
def Brief (n : Int) : Prop := (natDigits n.natAbs).length ≤ digitLimit

instance (n : Int) : Decidable (Brief n) := inferInstanceAs (Decidable (_ ≤ _))

@[simp] theorem writable_int {n : Int} : (Json.int n).writable = true ↔ Brief n := by
  simp only [writable, decide_eq_true_eq, Brief]

@[simp] theorem writable_null : Json.null.writable = true := rfl

@[simp] theorem writable_str (s : String) : (Json.str s).writable = true := rfl

@[simp] theorem writable_bool (b : Bool) : (Json.bool b).writable = true := rfl

@[simp] theorem writable_float (x : Binary64) : (Json.float x).writable = true := rfl

@[simp] theorem writable_obj_nil : (Json.obj []).writable = true := rfl

@[simp] theorem writable_obj_cons {k : String} {j : Json} {r : List (String × Json)} :
    (Json.obj ((k, j) :: r)).writable = true ↔ j.writable = true ∧ (Json.obj r).writable = true :=
  (Bool.and_eq_true _ _).to_iff

theorem brief_of_lt {n : Int} (h : n.natAbs < 10 ^ digitLimit) : Brief n :=
  Nat.toDigits_length 10 n.natAbs digitLimit (by decide) h

theorem brief_of_digits {ds : List Char} (h : ds.length ≤ digitLimit) (negative : Bool) :
    Brief (if negative then -(digitsValue ds : Int) else digitsValue ds) := by
  have habs : (if negative then -(digitsValue ds : Int) else digitsValue ds).natAbs =
      digitsValue ds := by
    cases negative
    · rfl
    · exact Int.natAbs_neg _
  refine brief_of_lt ?_
  rw [habs]
  exact (digitsValue_lt ds).trans_le (Nat.pow_le_pow_right (by decide) h)

theorem brief_of_readDigits {ds : List Char} {n : Nat} (h : readDigits ds = .ok n)
    (negative : Bool) : Brief (if negative then -(n : Int) else n) := by
  unfold readDigits at h
  split at h
  · next hlength =>
    cases h
    exact brief_of_digits hlength negative
  · cases h

theorem brief_of_le {n : Int} {e : Nat} (h : n.natAbs ≤ 2 ^ e) (he : e < digitLimit) : Brief n :=
  brief_of_lt (h.trans_lt ((Nat.pow_lt_pow_right (by decide) he).trans_le
    (Nat.pow_le_pow_left (by decide) digitLimit)))

theorem brief_bool (b : Bool) : Brief (if b then 1 else 0) := by
  cases b <;> decide

/-! ## Trees that are read -/

theorem readClosed_writable : ReadClosed fun j => j.writable = true where
  word := by simp [words, writable]
  int _ _ hn negative := writable_int.mpr (brief_of_readDigits hn negative)
  float _ := rfl
  str _ := rfl
  arr _ h := writableItems_iff.mpr h
  obj _ _ h := writableFields_iff.mpr h

/-- A tree that is read can be written. -/
theorem writable_of_parseText {t : String} {j : Json} (h : parseText t = .ok j) :
    j.writable = true := readClosed_writable.parseText h

theorem writable_find? {fields : List (String × Json)} (h : writableFields fields = true)
    {k : String} {j : Json} (hf : find? fields k = some j) : j.writable = true :=
  writableFields_iff.mp h (k, j) (mem_of_find? hf)

theorem writable_ofMap {α : Type} {f : α → Json} {l : List (String × α)}
    (h : ∀ x ∈ l, (f x.2).writable = true) : (ofMap f l).writable = true := by
  refine writableFields_iff.mpr fun x hx => ?_
  obtain ⟨y, hy, rfl⟩ := List.mem_map.mp hx
  exact h y hy

theorem writable_arr {α : Type} {f : α → Json} {l : List α}
    (h : ∀ a ∈ l, (f a).writable = true) : (arr (l.map f)).writable = true := by
  refine writableItems_iff.mpr fun j hj => ?_
  obtain ⟨a, ha, rfl⟩ := List.mem_map.mp hj
  exact h a ha

theorem writable_ofOption {α : Type} {f : α → Json} {o : Option α}
    (h : ∀ a, o = some a → (f a).writable = true) : (ofOption f o).writable = true := by
  cases o with
  | none => rfl
  | some a => exact h a rfl

theorem writable_ofOption_int {o : Option Int} :
    (ofOption .int o).writable = true ↔ ∀ n, o = some n → Brief n := by
  refine ⟨?_, fun h => writable_ofOption fun n hn => writable_int.mpr (h n hn)⟩
  rintro h n rfl
  exact writable_int.mp h

end Json

namespace Schema

open Json (Brief)

variable {α β : Type} {ctx : Context} {P : α → Prop} {d : Decoder α}

/-! ## Integers -/

theorem length_joinGroups_le (s : List Char) : (joinGroups s).length ≤ s.length := by
  fun_induction joinGroups s <;> grind

theorem length_dropZeroFraction_le (s : List Char) : (dropZeroFraction s).length ≤ s.length := by
  unfold dropZeroFraction
  dsimp only
  split
  · exact (List.takeWhile_prefix _).length_le
  · exact Nat.le_refl _

theorem yields_integerOfText (s : String) : Yields Brief (integerOfText s) := by
  intro n hn
  unfold integerOfText at hn
  dsimp only at hn
  split at hn
  · cases hn
  next hsize =>
  have hbody := (Text.length_le_utf8ByteSize (strip s.toList)).trans (Nat.le_of_not_lt hsize)
  have hread (ds : List Char) (hds : ds.length ≤ (strip s.toList).length) (negative : Bool)
      (h : (if !(joinGroups (dropZeroFraction ds)).isEmpty &&
            (joinGroups (dropZeroFraction ds)).all Text.isAsciiDigit then
          Checked.valid (if negative then
            -(Text.digitsValue (joinGroups (dropZeroFraction ds)) : Int)
          else Text.digitsValue (joinGroups (dropZeroFraction ds)))
        else Checked.issue .badInteger) = .valid n) : Brief n := by
    split at h
    · cases h
      refine Json.brief_of_digits ?_ negative
      exact (length_joinGroups_le _).trans ((length_dropZeroFraction_le ds).trans (hds.trans hbody))
    · cases h
  split at hn
  · next r hr => exact hread r (by rw [hr]; exact Nat.le_succ _) true hn
  · next r hr => exact hread r (by rw [hr]; exact Nat.le_succ _) false hn
  · exact hread _ (Nat.le_refl _) false hn

theorem yields_integer {j : Json} (hj : j.writable = true) : Yields Brief (integer ctx j) := by
  intro n hn
  cases j with
  | int m =>
    cases hn
    exact Json.writable_int.mp hj
  | bool b =>
    cases hn
    exact Json.brief_bool b
  | float x =>
    change integerOfFloat x = .valid n at hn
    unfold integerOfFloat at hn
    split at hn
    · split at hn
      · cases hn
      · split at hn
        · next hrange =>
          cases hn
          rw [Bool.and_eq_true, decide_eq_true_eq, decide_eq_true_eq] at hrange
          have hword : (2 : Nat) ^ 63 = 9223372036854775808 := rfl
          exact Json.brief_of_le (e := 63) (by omega) (by decide)
        · cases hn
    · cases hn
  | str s => exact yields_integerOfText s n hn
  | _ => cases hn

/-! ## Records -/

theorem mem_of_mem_numbered {l : List α} {n : Nat} {p : Nat × α} (h : p ∈ numbered n l) :
    p.2 ∈ l := by
  induction l generalizing n with
  | nil => cases h
  | cons a r ih =>
    rcases List.mem_cons.mp h with rfl | h
    · exact List.mem_cons_self
    · exact List.mem_cons_of_mem a (ih h)

/-- What is read from a tree that can be written has a property. -/
def Carries (ctx : Context) (d : Decoder α) (P : α → Prop) : Prop :=
  ∀ j : Json, j.writable = true → Yields P (d ctx j)

theorem carries_integer : Carries ctx integer Brief := fun _ => yields_integer

theorem Carries.nullable (h : Carries ctx d P) :
    Carries ctx (Schema.nullable d) fun o => ∀ a, o = some a → P a := fun j hj =>
  yields_nullable nofun fun a ha _ hb => Option.some.inj hb ▸ h j hj a ha

theorem Carries.where (h : Carries ctx d P) (ok : α → Bool) (kind : IssueKind) :
    Carries ctx (d.where ok kind) P := fun j hj a ha => by
  unfold Decoder.where Checked.andThen at ha
  cases hd : d ctx j with
  | invalid is =>
    rw [hd] at ha
    cases ha
  | valid b =>
    rw [hd] at ha
    change (if ok b then Checked.valid b else Checked.issue kind) = .valid a at ha
    split at ha
    · cases ha
      exact h j hj _ hd
    · cases ha

theorem Carries.list (h : Carries ctx d P) :
    Carries ctx (Schema.list d) fun l => ∀ a ∈ l, P a := fun j hj => by
  cases j with
  | arr items =>
    refine yields_all fun p hp => h p.2 (Json.writableItems_iff.mp hj p.2 ?_)
    exact mem_of_mem_numbered hp
  | _ => exact fun a ha => nomatch ha

theorem Carries.mapping (h : Carries ctx d P) :
    Carries ctx (Schema.mapping d) fun l => ∀ x ∈ l, P x.2 := fun j hj => by
  cases j with
  | obj fields =>
    exact yields_mapping fun x hx => h x.2 (Json.writableFields_iff.mp hj x hx)
  | _ => exact fun a ha => nomatch ha

theorem Carries.record {name : String} {build : Fields → Checked α}
    (h : ∀ entries, Json.writableFields entries = true → Yields P (build ⟨entries, ctx⟩)) :
    Carries ctx (Schema.record name build) P := fun j hj =>
  yields_record fun entries he => h entries (by subst he; exact hj)

section

variable {entries : List (String × Json)} (he : Json.writableFields entries = true)
  (h : Carries ctx d P) (name : FieldName)

include he h

theorem Carries.required : Yields P (Fields.required ⟨entries, ctx⟩ name d) := by
  refine yields_required fun key j hj => h j ?_
  unfold Fields.get? at hj
  split at hj
  · next j' hfound =>
    cases hj
    exact Json.writable_find? he hfound
  · obtain ⟨j', hfound, heq⟩ := Option.map_eq_some_iff.mp hj
    cases heq
    exact Json.writable_find? he hfound

theorem Carries.optional {default : α} (h0 : P default) :
    Yields P (Fields.optional ⟨entries, ctx⟩ name default d) :=
  yields_optional h0 fun _ j _ hf => h j (Json.writable_find? he hf)

end

end Schema

open Schema Json

variable {ctx : Context} (hnow : Brief ctx.now)

/-! ### Variables -/

theorem Definition.writable_document {d : Definition} :
    d.document.writable = true ↔ Brief d.createdAt ∧ Brief d.updatedAt := by
  simp [Definition.document]

theorem Entry.writable_document {e : Entry} :
    e.document.writable = true ↔ Brief e.id ∧ Brief e.timestamp := by
  simp [Entry.document]

include hnow

theorem Definition.legible : Carries ctx Definition.decode fun d => d.document.writable = true := by
  refine .record fun entries he => ?_
  refine yields_seq (Q := Brief) ?_ (carries_integer.optional he _ hnow)
  refine yields_seq (Q := Brief) ?_ (carries_integer.optional he _ hnow)
  iterate 3 refine yields_seq_any ?_
  exact yields_map fun _ _ _ _ _ created hcreated updated hupdated =>
    Definition.writable_document.mpr ⟨hcreated, hupdated⟩

theorem Entry.legible : Carries ctx Entry.decode fun e => e.document.writable = true := by
  refine .record fun entries he => yields_seq_any ?_
  refine yields_seq (Q := Brief) ?_ (carries_integer.optional he _ hnow)
  iterate 2 refine yields_seq_any ?_
  exact yields_map fun id hid _ _ time htime _ =>
    Entry.writable_document.mpr ⟨carries_integer.required he _ id hid, htime⟩

theorem Stack.legible : Carries ctx Stack.decode fun s => s.document.writable = true := by
  refine .record fun entries he => ?_
  refine yields_seq (Q := Brief) ?_ (carries_integer.optional he _ (by decide))
  refine yields_map fun es hes next hnext => ?_
  have hentries := (Entry.legible hnow).list.optional he _ (List.forall_mem_nil _) es hes
  simp [Stack.document, writable_arr hentries, hnext]

theorem Slot.legible : Carries ctx Slot.decode fun s => s.document.writable = true := by
  refine .record fun entries he => ?_
  refine yields_seq (Q := Brief) ?_ (carries_integer.optional he _ (by decide))
  refine yields_seq ?_ ((Entry.legible hnow).list.optional he _ (List.forall_mem_nil _))
  refine yields_seq ?_ (carries_integer.nullable.optional he _ nofun)
  refine yields_seq_any (yields_map fun _ _ floors floor hfloor history hhistory cursor hcursor =>
    ?_)
  have hfloors : (Json.ofOption .str floors).writable = true := writable_ofOption fun _ _ => rfl
  cases floor with
  | none =>
    simp [Slot.document, Slot.fieldsWith, Slot.floorField, hfloors, writable_arr hhistory, hcursor]
  | some n =>
    have hn := hfloor n rfl
    simp [Slot.document, Slot.fieldsWith, Slot.floorField, hfloors, writable_arr hhistory, hcursor,
      hn]

/-- A value that is read can be written. -/
theorem Value.legible {j : Json} (hj : j.writable = true) {v : Value}
    (h : Value.read ctx j = some (.valid v)) : v.document.writable = true := by
  unfold Value.read at h
  split at h
  · dsimp only at h
    split at h
    · obtain ⟨s, hs, rfl⟩ := map_eq_valid (Option.some.inj h)
      exact Stack.legible hnow _ hj s hs
    · split at h
      · obtain ⟨s, hs, rfl⟩ := map_eq_valid (Option.some.inj h)
        exact Slot.legible hnow _ hj s hs
      · cases h
  · cases h

omit hnow

/-! ### Suites -/

theorem Trigger.legible : Carries ctx Trigger.decode fun t => t.document.writable = true := by
  refine .record fun entries he => yields_seq_any ?_
  refine yields_seq ?_ ((carries_integer.where _ _).nullable.optional he _ nofun)
  refine yields_map fun kind _ interval hinterval keywords => ?_
  have hkeywords : (arr (keywords.map .str)).writable = true := writable_arr fun _ _ => rfl
  simp [Trigger.document, writable_ofOption_int.mpr hinterval, hkeywords]

theorem RangeRule.legible : Carries ctx RangeRule.decode fun r => r.document.writable = true := by
  refine .record fun entries he => ?_
  have hnone : ∀ n, (none : Option Int) = some n → Brief n := nofun
  have hint (name : FieldName) : Yields (fun o => (ofOption .int o).writable = true)
      (Fields.optional ⟨entries, ctx⟩ name none (nullable integer)) := fun o ho =>
    writable_ofOption_int.mpr (carries_integer.nullable.optional he name hnone o ho)
  refine yields_seq (yields_seq (yields_seq_any (yields_seq_any ?_)) (hint _)) (hint _)
  refine yields_seq (yields_seq (yields_seq (yields_seq (yields_seq ?_ (hint _)) (hint _)) (hint _))
    (hint _)) (hint _)
  refine yields_map fun _ _ _ h1 _ h2 _ h3 _ h4 _ h5 percent _ _ h6 _ h7 => ?_
  have hpercent : (ofOption .float percent).writable = true := writable_ofOption fun _ _ => rfl
  simp [RangeRule.document, h1, h2, h3, h4, h5, h6, h7, hpercent]

theorem ScriptSet.writable_document (s : ScriptSet) : s.document.writable = true := by
  have hscripts : (arr (s.scripts.map Script.document)).writable = true :=
    writable_arr fun x _ => by simp [Script.document]
  have horder : (arr (s.order.map .str)).writable = true := writable_arr fun _ _ => rfl
  simp [ScriptSet.document, hscripts, horder]

theorem ChatItem.legible : Carries ctx ChatItem.decode fun c =>
    (Item.document (.chat c)).writable = true := by
  refine .record fun entries he => yields_seq_any (yields_seq_any ?_)
  refine yields_seq ?_ (RangeRule.legible.optional he _ (by decide))
  iterate 3 refine yields_seq_any ?_
  refine yields_map fun _ _ _ _ _ range hrange _ scripts => ?_
  simp [Item.document, hrange, scripts.writable_document]

theorem CharacterItem.legible : Carries ctx CharacterItem.decode fun c =>
    (Item.document (.character c)).writable = true := by
  refine .record fun entries he => yields_seq_any ?_
  refine yields_seq ?_ (carries_integer.nullable.optional he _ nofun)
  iterate 4 refine yields_seq_any ?_
  refine yields_map fun _ _ _ _ _ _ uid huid _ => ?_
  simp [Item.document, writable_ofOption_int.mpr huid]

theorem Item.legible : Carries ctx Item.decode fun i => i.document.writable = true := by
  have hkinds : ∀ x ∈ Item.kinds, Carries ctx x.2 fun i => i.document.writable = true := by
    intro x hx j hj
    simp only [Item.kinds, List.mem_cons, List.not_mem_nil, or_false] at hx
    rcases hx with rfl | rfl | rfl | rfl
    · exact yields_map (f := Item.prompt) fun p _ => by simp [Item.document]
    · exact yields_map (f := Item.variable) fun v _ => by simp [Item.document]
    · exact yields_map (f := Item.chat) (ChatItem.legible j hj)
    · exact yields_map (f := Item.character) (CharacterItem.legible j hj)
  intro j hj i hi
  unfold Item.decode at hi
  split at hi
  · split at hi
    · cases hi
    · split at hi
      · next d hd => exact yields_below (hkinds _ (mem_of_find? hd) _ hj) i hi
      · cases hi
    · cases hi
  · cases hi

include hnow in
theorem Suite.legible : Carries ctx Suite.decode fun s => s.document.writable = true := by
  refine .record fun entries he => ?_
  refine yields_seq (yields_seq (yields_seq_any ?_) (carries_integer.optional he _ hnow))
    (carries_integer.optional he _ hnow)
  refine yields_seq (yields_seq ?_ (Trigger.legible.optional he _ (by decide)))
    (Item.legible.list.optional he _ (List.forall_mem_nil _))
  iterate 2 refine yields_seq_any ?_
  refine yields_map fun _ _ _ _ trigger htrigger items hitems snapshot _ hcreated _ hupdated => ?_
  have hsnapshot : (ofOption .bool snapshot).writable = true := writable_ofOption fun _ _ => rfl
  simp [Suite.document, Suite.fields, htrigger, writable_arr hitems, hsnapshot, hcreated, hupdated]

/-! ### The root -/

theorem ApiOverride.legible :
    Carries ctx ApiOverride.decode fun a => a.document.writable = true := by
  have hany : Carries ctx anyMapping fun params => (obj params).writable = true := by
    intro j hj params hparams
    cases j with
    | obj fields =>
      cases hparams
      exact hj
    | _ => cases hparams
  refine .record fun entries he => yields_seq ?_ (hany.optional he _ rfl)
  iterate 4 refine yields_seq_any ?_
  refine yields_map fun custom _ _ _ _ _ params hparams => ?_
  simp [ApiOverride.document, hparams]

theorem Settings.legible : Carries ctx Settings.decode fun s => s.document.writable = true := by
  refine .record fun entries he => ?_
  refine yields_seq ?_ (carries_integer.mapping.mapping.optional he _ (List.forall_mem_nil _))
  refine yields_seq ?_ (ApiOverride.legible.optional he _ (by decide))
  refine yields_seq_any (yields_map fun _ _ active api hapi counts hcounts => ?_)
  have hactive : (ofOption .str active).writable = true := writable_ofOption fun _ _ => rfl
  have hmaps : (ofMap (ofMap .int) counts).writable = true :=
    writable_ofMap fun m hm => writable_ofMap fun x hx => writable_int.mpr (hcounts m hm x hx)
  simp [Settings.document, hactive, hapi, hmaps]

include hnow in
/-- A root that is read can be written. -/
theorem Root.legible : Carries ctx Root.decode fun r => r.document.writable = true := by
  refine .record fun entries he => ?_
  refine yields_seq ?_ (Settings.legible.optional he _ (by decide))
  refine yields_seq ?_ ((Definition.legible hnow).mapping.optional he _ (List.forall_mem_nil _))
  refine yields_seq ?_ ((Suite.legible hnow).mapping.optional he _ (List.forall_mem_nil _))
  refine yields_map fun version hversion suites hsuites ds hds settings hsettings => ?_
  have hv := carries_integer.optional he _ (by decide) version hversion
  simp [Root.document, hv, writable_ofMap hsuites, writable_ofMap hds, hsettings]

/-! ## Older roots -/

namespace Migration

theorem writable_get {fields : List (String × Json)} (h : writableFields fields = true)
    (key : String) : ((Json.find? fields key).getD .null).writable = true := by
  cases hf : Json.find? fields key with
  | none => rfl
  | some j => exact writable_find? h hf

theorem writable_orElse {j d : Json} (hj : j.writable = true) (hd : d.writable = true) :
    (orElse j d).writable = true := by
  unfold orElse
  split
  · exact hj
  · exact hd

theorem writable_field {j j' : Json} {key : String} (hj : j.writable = true)
    (h : field j key = .ok j') : j'.writable = true := by
  unfold field at h
  split at h
  · cases h
    exact writable_get hj key
  · cases h

theorem brief_truncate? {x : Binary64} {n : Int} (h : x.truncate? = some n) : Brief n := by
  cases x with
  | finite x =>
    obtain ⟨hmantissa, -, hexponent, -⟩ := x.normal
    obtain ⟨e, he, hratio⟩ : ∃ e, e < Text.digitLimit ∧ x.ratio.1 ≤ 2 ^ e := by
      unfold Finite64.ratio
      split
      · refine ⟨53 + x.exponent.toNat, ?_, ?_⟩
        · unfold Text.digitLimit
          omega
        · rw [pow_add]
          exact Nat.mul_le_mul_right _ hmantissa.le
      · exact ⟨53, by decide, hmantissa.le⟩
    cases h
    refine brief_of_le ?_ he
    have hquotient := (Nat.div_le_self x.ratio.1 x.ratio.2).trans hratio
    split
    · rw [Int.natAbs_neg]
      exact hquotient
    · exact hquotient
  | _ => cases h

theorem brief_readLoose? {s : String} {n : Int} (h : Text.readLoose? s = some (.ok n)) :
    Brief n := by
  have hread (negative : Bool) (ds : List Char) (h : (if Text.readLoose?.grouped ds then
      some ((Text.readDigits (ds.filter (· != '_'))).map fun n =>
        if negative then -(n : Int) else n)
      else none) = some (.ok n)) : Brief n := by
    split at h
    · obtain ⟨m, hm, rfl⟩ := map_eq_ok (Option.some.inj h)
      obtain ⟨k, hk, hm⟩ := bind_eq_ok hm
      cases hm
      exact brief_of_readDigits hk negative
    · cases h
  unfold Text.readLoose? at h
  dsimp only at h
  split at h
  · exact hread true _ h
  · exact hread false _ h
  · exact hread false _ h

theorem brief_whole {j : Json} (hj : j.writable = true) {n : Int} (h : whole j = .ok n) :
    Brief n := by
  cases j with
  | int m =>
    cases h
    exact writable_int.mp hj
  | bool b =>
    cases h
    exact brief_bool b
  | float x =>
    unfold whole at h
    cases ht : x.truncate? with
    | some m =>
      simp only [ht] at h
      cases h
      exact brief_truncate? ht
    | none =>
      simp only [ht] at h
      split at h <;> simp_all
  | str s =>
    unfold whole at h
    dsimp only at h
    split at h
    · next m hm =>
      cases h
      exact brief_readLoose? hm
    · cases h
  | _ => cases h

/-- The identifier and the document of a definition can be written. -/
def Moved.Legible (m : Moved) : Prop := m.id.writable = true ∧ m.document.writable = true

theorem legible_moveDefinition {now : Int} (hnow : Brief now) {i : Nat} {j : Json}
    (hj : j.writable = true) {m : Moved} (h : moveDefinition now i j = .ok (some m)) :
    m.Legible := by
  unfold moveDefinition at h
  split at h
  · next fields =>
    dsimp only at h
    split at h
    · cases h
    · obtain ⟨name, -, h⟩ := bind_eq_ok h
      split at h
      · cases h
      · cases h
        have hid := writable_orElse (writable_get hj "id")
          (writable_str ("var_v1_" ++ Text.natText i))
        have htag := writable_orElse (writable_get hj "tag")
          (writable_str ("[" ++ Text.trimmed name ++ "]"))
        have hcreated : ((Json.find? fields "createdAt").getD (.int now)).writable = true := by
          cases hf : Json.find? fields "createdAt" with
          | none => exact writable_int.mpr hnow
          | some c => exact writable_find? hj hf
        refine ⟨hid, ?_⟩
        simp [hid, htag, hcreated, hnow]
  · cases h

theorem legible_moveDefinitions {now : Int} (hnow : Brief now) {items : List (Nat × Json)}
    {done ms : List Moved} (h : moveDefinitions now items done = .ok ms)
    (hitems : ∀ x ∈ items, x.2.writable = true) (hdone : ∀ m ∈ done, m.Legible) :
    ∀ m ∈ ms, m.Legible := by
  induction items generalizing done with
  | nil =>
    cases h
    exact hdone
  | cons x r ih =>
    obtain ⟨i, j⟩ := x
    have hrest : ∀ x ∈ r, x.2.writable = true := fun x hx => hitems x (List.mem_cons_of_mem _ hx)
    unfold moveDefinitions at h
    split at h
    · cases h
    · exact ih h hrest hdone
    · next m hm =>
      have hlegible := legible_moveDefinition hnow (hitems _ List.mem_cons_self) hm
      refine ih h hrest fun a ha => ?_
      rcases mem_place ha with rfl | ha | ⟨b, hb, -, rfl⟩
      · exact hlegible
      · exact hdone a ha
      · exact ⟨(hdone b hb).1, hlegible.2⟩

theorem writable_itemsOf {j : Json} (hj : j.writable = true) {items : List Json}
    (h : itemsOf j = .ok items) : ∀ j ∈ items, j.writable = true := by
  unfold itemsOf at h
  split at h
  · cases h
    exact writableItems_iff.mp hj
  · cases h
    exact List.forall_mem_map.mpr fun c _ => writable_str _
  · cases h
    exact List.forall_mem_map.mpr fun f _ => writable_str _
  · cases h

/-- The trigger of the suite that stands for the trigger of version 1. -/
def triggerOf (auto : Json) : Except Fault Json := do
  if (← field auto "enabled").truthy then
    let n ← whole (orElse (← field auto "messageCount") (.int 10))
    return .obj [("type", .str "interval"), ("interval", .int n)]
  else return .obj [("type", .str "manual")]

/-- The messages that this suite sends. -/
def rangeOf (context : Json) : Except Fault Json := do
  if (← field context "includeAll").truthy then
    return .obj [("type", .str "fixed"), ("start", .int 1)]
  else
    let n ← whole (orElse (← field context "messageCount") (.int 50))
    return .obj [("type", .str "latest"), ("count", .int n)]

/-- The suite with this trigger and these messages. -/
def suiteWith (trigger range : Json) (moved : List Moved) (now : Int) : Json :=
  let chat := Json.obj [("type", .str "chat-content"), ("id", .str "item_migrated_v1_chat"),
    ("name", .str "Chat history"), ("enabled", .bool true), ("rangeConfig", range),
    ("excludeUser", .bool false)]
  let slots := moved.map fun v =>
    Json.obj [("type", .str "variable"), ("id", v.id), ("enabled", .bool true)]
  .obj [("id", .str suiteId), ("name", .str "Migrated suite"), ("enabled", .bool true),
    ("trigger", trigger), ("items", .arr (chat :: slots)), ("createdAt", .int now),
    ("updatedAt", .int now)]

/-- The trigger and the messages are found out one after the other. -/
theorem suiteOf_eq (settings : Json) (moved : List Moved) (now : Int) :
    suiteOf settings moved now = do
      let auto ← field settings "autoTrigger"
      let context ← field settings "contextSettings"
      let trigger ← triggerOf (orElse auto (.obj []))
      let range ← rangeOf (orElse context (.obj []))
      return suiteWith trigger range moved now := by
  unfold suiteOf triggerOf rangeOf suiteWith
  simp only [bind_assoc]
  refine bind_congr fun auto => bind_congr fun context => bind_congr fun fires => ?_
  cases fires.truthy <;>
    simp only [Bool.false_eq_true, if_false, if_true, pure_bind, bind_assoc]
  · refine bind_congr fun everything => ?_
    cases everything.truthy <;>
      simp only [Bool.false_eq_true, if_false, if_true, pure_bind, bind_assoc]
  · refine bind_congr fun found => bind_congr fun n => bind_congr fun everything => ?_
    cases everything.truthy <;>
      simp only [Bool.false_eq_true, if_false, if_true, pure_bind, bind_assoc]

theorem writable_triggerOf {auto : Json} (ha : auto.writable = true) {j : Json}
    (h : triggerOf auto = .ok j) : j.writable = true := by
  unfold triggerOf at h
  obtain ⟨fires, -, h⟩ := bind_eq_ok h
  split at h
  · obtain ⟨found, hfound, h⟩ := bind_eq_ok h
    obtain ⟨n, hn, h⟩ := bind_eq_ok h
    have hbrief := brief_whole (writable_orElse (writable_field ha hfound) (by decide)) hn
    cases h
    simp [hbrief]
  · cases h
    rfl

theorem writable_rangeOf {context : Json} (hc : context.writable = true) {j : Json}
    (h : rangeOf context = .ok j) : j.writable = true := by
  unfold rangeOf at h
  obtain ⟨everything, -, h⟩ := bind_eq_ok h
  split at h
  · cases h
    rfl
  · obtain ⟨found, hfound, h⟩ := bind_eq_ok h
    obtain ⟨n, hn, h⟩ := bind_eq_ok h
    have hbrief := brief_whole (writable_orElse (writable_field hc hfound) (by decide)) hn
    cases h
    simp [hbrief]

theorem writable_moveSuites {settings : Json} (hs : settings.writable = true) {moved : List Moved}
    (hm : ∀ m ∈ moved, m.Legible) {now : Int} (hnow : Brief now) {suites : List (String × Json)}
    (h : moveSuites settings moved now = .ok suites) : (obj suites).writable = true := by
  unfold moveSuites at h
  split at h
  · cases h
    rfl
  · obtain ⟨j, hj, rfl⟩ := map_eq_ok h
    rw [suiteOf_eq] at hj
    obtain ⟨auto, hauto, hj⟩ := bind_eq_ok hj
    obtain ⟨context, hcontext, hj⟩ := bind_eq_ok hj
    obtain ⟨trigger, htrigger, hj⟩ := bind_eq_ok hj
    obtain ⟨range, hrange, hj⟩ := bind_eq_ok hj
    cases hj
    have htrigger := writable_triggerOf (writable_orElse (writable_field hs hauto) rfl) htrigger
    have hrange := writable_rangeOf (writable_orElse (writable_field hs hcontext) rfl) hrange
    have hslots : (arr (moved.map fun v =>
        obj [("type", .str "variable"), ("id", v.id), ("enabled", .bool true)])).writable = true :=
      writable_arr fun v hv => by simp [(hm v hv).1]
    have hitems {first : Json} (hfirst : first.writable = true) {rest : List Json}
        (hrest : (arr rest).writable = true) : (arr (first :: rest)).writable = true :=
      writableItems_iff.mpr (List.forall_mem_cons.mpr ⟨hfirst, writableItems_iff.mp hrest⟩)
    simp [suiteWith, htrigger, hnow, hitems _ hslots, hrange]

theorem writable_moveSettings {enabled api : Json} (hapi : api.writable = true)
    (moved : List Moved) : (moveSettings enabled api moved).writable = true := by
  unfold moveSettings
  cases api with
  | obj fields => cases moved <;> simp [hapi]
  | _ => cases moved <;> simp

theorem legible_bare (hnow : Brief ctx.now) (content : String) :
    (Value.stack (Stack.empty.push content "" ctx.now)).document.writable = true ∧
      (Value.slot { Slot.empty with current := content }).document.writable = true := by
  have hone : Brief 1 := by decide
  have htwo : Brief 2 := by decide
  have hend : Brief (-1) := by decide
  have hentry : (Entry.document ⟨1, content, "", ctx.now, false⟩).writable = true :=
    Entry.writable_document.mpr ⟨hone, hnow⟩
  have hentries : (arr [Entry.document ⟨1, content, "", ctx.now, false⟩]).writable = true :=
    writableItems_iff.mpr (List.forall_mem_singleton.mpr hentry)
  have hnone : (arr []).writable = true := rfl
  constructor
  · simp [Value.document, Stack.document, Stack.push, Stack.empty, hentries, htwo]
  · simp [Value.document, Slot.document, Slot.fieldsWith, Slot.floorField, Slot.empty,
      Json.ofOption, hnone, hend]

theorem legible_moveValue (hnow : Brief ctx.now) {mode : Mode} {raw : Json}
    (hraw : raw.writable = true) {v : Value} (h : moveValue ctx mode raw = .ok (some v)) :
    v.document.writable = true := by
  have hshown {j : Json} {f : String → Option Value} (hf : ∀ content, f content =
      match mode with
      | .stack => some (.stack (Stack.empty.push content "" ctx.now))
      | .replace => some (.slot { Slot.empty with current := content }))
      (h : (shown j).map f = .ok (some v)) : v.document.writable = true := by
    obtain ⟨content, -, hv⟩ := map_eq_ok h
    obtain ⟨hstack, hslot⟩ := legible_bare hnow content
    rw [hf] at hv
    cases mode with
    | stack =>
      cases hv
      exact hstack
    | replace =>
      cases hv
      exact hslot
  unfold moveValue at h
  split at h
  · next hread =>
    cases h
    exact Value.legible hnow hraw hread
  · cases h
  · dsimp only at h
    repeat' split at h
    all_goals first
      | cases h
      | exact hshown (fun content => by cases mode <;> rfl) h

theorem legible_moveValues (hnow : Brief ctx.now) {moved : List Moved}
    {fields : List (String × Json)} (hfields : writableFields fields = true) {vs : ChatValues}
    (h : moveValues ctx moved fields = .ok vs) : ∀ v ∈ vs, v.2.document.writable = true := by
  induction fields generalizing vs with
  | nil =>
    cases h
    exact nofun
  | cons f r ih =>
    obtain ⟨id, raw⟩ := f
    obtain ⟨hraw, hr⟩ := (Bool.and_eq_true _ _).mp hfields
    unfold moveValues at h
    split at h
    · exact ih hr h
    · split at h
      · cases h
      · exact ih hr h
      · next v hv =>
        obtain ⟨rest, hrest, rfl⟩ := map_eq_ok h
        exact List.forall_mem_cons.mpr ⟨legible_moveValue hnow hraw hv, ih hr hrest⟩

theorem legible_moveChats (hnow : Brief ctx.now) {moved : List Moved}
    {fields : List (String × Json)} (hfields : writableFields fields = true)
    {chats : List (String × ChatValues)} (h : moveChats ctx moved fields = .ok chats) :
    ∀ c ∈ chats, ∀ v ∈ c.2, v.2.document.writable = true := by
  induction fields generalizing chats with
  | nil =>
    cases h
    exact nofun
  | cons f r ih =>
    obtain ⟨chat, j⟩ := f
    obtain ⟨hj, hr⟩ := (Bool.and_eq_true _ _).mp hfields
    unfold moveChats at h
    split at h
    · next hcons => cases hcons
    · next hcons =>
      cases hcons
      split at h
      · cases h
      · exact ih hr h
      · next hvalues =>
        obtain ⟨rest, hrest, rfl⟩ := map_eq_ok h
        exact List.forall_mem_cons.mpr ⟨legible_moveValues hnow hj hvalues, ih hr hrest⟩
    · next hcons =>
      cases hcons
      exact ih hr h

/-- What a document of version 1 becomes can be written if the document can. -/
theorem legible_fromFirst (hnow : Brief ctx.now) {fields : List (String × Json)}
    (hfields : writableFields fields = true) {m : Result} (h : fromFirst ctx fields = .ok m) :
    m.root.writable = true ∧ ∀ c ∈ m.chats, ∀ v ∈ c.2, v.2.document.writable = true := by
  have hget := writable_get hfields
  have hempty : (Json.obj []).writable = true := rfl
  unfold fromFirst at h
  dsimp only at h
  obtain ⟨items, hitems, h⟩ := bind_eq_ok h
  obtain ⟨moved, hmoved, h⟩ := bind_eq_ok h
  obtain ⟨enabled, -, h⟩ := bind_eq_ok h
  obtain ⟨api, hapi, h⟩ := bind_eq_ok h
  obtain ⟨suites, hsuites, h⟩ := bind_eq_ok h
  obtain ⟨chats, hchats, h⟩ := bind_eq_ok h
  cases h
  have hsettings := writable_orElse (hget "settings") hempty
  have hall := writable_itemsOf (writable_orElse (hget "definitions") rfl) hitems
  have hlegible := legible_moveDefinitions hnow hmoved
    (fun x hx => hall x.2 (mem_of_mem_numbered hx)) nofun
  constructor
  · have hvariables : (obj (moved.map fun v => (keyText v.id, v.document))).writable = true :=
      writableFields_iff.mpr (List.forall_mem_map.mpr fun v hv => (hlegible v hv).2)
    have hversion : Brief Root.currentVersion := by decide
    simp [hversion, writable_moveSuites hsettings hlegible hnow hsuites, hvariables,
      writable_moveSettings (writable_field hsettings hapi)]
  · unfold moveAllValues at hchats
    split at hchats
    · next values he =>
      have hvalues := writable_orElse (hget "values") hempty
      rw [he] at hvalues
      exact legible_moveChats hnow hvalues hchats
    · cases hchats

/-- The version of a document as a number: a truth value counts as zero or one. -/
def versionNumber (fields : List (String × Json)) : Int :=
  match detectVersion fields with
  | .int n => n
  | .bool true => 1
  | _ => 0

theorem migrate_obj (fields : List (String × Json)) : migrate ctx (.obj fields) =
    if versionNumber fields = Root.currentVersion then
      .ok ⟨.obj fields, [], none, orderOf fields⟩
    else if versionNumber fields = 1 then fromFirst ctx fields
    else .error (.version (detectVersion fields).display) := rfl

/-- What a document becomes can be written if the document can. -/
theorem legible_migrate (hnow : Brief ctx.now) {fields : List (String × Json)}
    (hfields : writableFields fields = true) {m : Result}
    (h : migrate ctx (.obj fields) = .ok m) :
    m.root.writable = true ∧ ∀ c ∈ m.chats, ∀ v ∈ c.2, v.2.document.writable = true := by
  rw [migrate_obj] at h
  split at h
  · cases h
    exact ⟨hfields, List.forall_mem_nil _⟩
  · split at h
    · exact legible_fromFirst hnow hfields h
    · cases h

end Migration

theorem ChatValues.writable_document {chat : String} {vs : ChatValues}
    (h : ∀ v ∈ vs, v.2.document.writable = true) :
    (ChatValues.document chat vs).writable = true := by
  simp [ChatValues.document, writable_ofMap h]

open Storage in
/-- What the text of a root document gives can be written, the values that it held included. -/
theorem legible_ofText (hnow : Brief ctx.now) {text : String} {r : Root}
    {moved : Option (List (String × ChatValues))}
    (h : RootReading.ofText ctx text = .root r moved) :
    r.document.writable = true ∧ ∀ chats, moved = some chats →
      ∀ c ∈ chats, (ChatValues.document c.1 c.2).writable = true := by
  unfold RootReading.ofText at h
  split at h
  · next fields hparse =>
    have hfields := writable_of_parseText hparse
    split at h
    · next m hm =>
      split at h
      · next r' hr =>
        cases h
        have hmigrated := Migration.legible_migrate hnow hfields hm
        refine ⟨Root.legible hnow _ hmigrated.1 r hr, fun chats hchats c hc => ?_⟩
        obtain ⟨_, -, rfl⟩ := Option.map_eq_some_iff.mp hchats
        exact ChatValues.writable_document (hmigrated.2 c hc)
      · cases h
    · cases h
    · cases h
    · cases h
  · cases h

end TagLedger
