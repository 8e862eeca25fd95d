import TagLedger.Proofs.Legible

/-!
# Documents of the wrong shape

A document of version 1 is trusted to have parts of the right kind. The definitions, the settings,
the suite that is made of them and the values of the chats are looked at in this order, and where
one of those that are needed has another kind, the fault of that part is met: the first one. What
has the right kind and still cannot be used, a count that is no number or a value that does not fit,
is a fault that loading expects.

    fromFirst ctx fields fails with a fault that is not expected ↔ Misshapen      (fromFirst_fails)
-/

namespace TagLedger

namespace Migration

variable {ctx : Schema.Context} {fields old part : List (String × Json)} {e : Fault}
  {moved : List Moved}

/-! ## Parts of version 1 -/

/-- The value under a key, or what stands for one that does not count as present. -/
def valueOr (fields : List (String × Json)) (key : String) (default : Json) : Json :=
  orElse ((Json.find? fields key).getD .null) default

/-- The fault is none that makes a document useless: loading does not expect it. -/
def Fault.Unexpected (e : Fault) : Prop := e ≠ .badNumber ∧ ∀ issues, e ≠ .invalid issues

/-- The value is an object. -/
def IsObject (j : Json) : Prop := ∃ fields, j = .obj fields

/-- A count that is a collection, or infinite. -/
inductive Uncountable (j : Json) : Fault → Prop where
  | collection : isCollection j = true → Uncountable j .wrongKind
  | infinite {negative : Bool} : j = .float (.infinite negative) → Uncountable j .infinite

/-- The trigger can be taken over: it is an object, and its count a number if it fires. -/
def Triggers (old : List (String × Json)) : Prop :=
  ∃ auto, valueOr old "autoTrigger" (.obj []) = .obj auto ∧
    (((Json.find? auto "enabled").getD .null).truthy = true →
      ∃ n, whole (valueOr auto "messageCount" (.int 10)) = .ok n)

/-- What is wrong with the settings that a suite is made of, the trigger first. -/
inductive Unsuitable (old : List (String × Json)) : Fault → Prop where
  | trigger : ¬ IsObject (valueOr old "autoTrigger" (.obj [])) → Unsuitable old .noFields
  | interval {auto : List (String × Json)} {e : Fault} :
      valueOr old "autoTrigger" (.obj []) = .obj auto →
      ((Json.find? auto "enabled").getD .null).truthy = true →
      Uncountable (valueOr auto "messageCount" (.int 10)) e → Unsuitable old e
  | messages : Triggers old → ¬ IsObject (valueOr old "contextSettings" (.obj [])) →
      Unsuitable old .noFields
  | count {context : List (String × Json)} {e : Fault} : Triggers old →
      valueOr old "contextSettings" (.obj []) = .obj context →
      ((Json.find? context "includeAll").getD .null).truthy = false →
      Uncountable (valueOr context "messageCount" (.int 50)) e → Unsuitable old e

/-- A definition that is not passed over. -/
def Named (j : Json) : Prop :=
  ∃ fields, j = .obj fields ∧ ((Json.find? fields "name").getD .null).truthy = true

/-- The identifier of a definition is a collection. -/
def Unidentified (j : Json) : Prop :=
  ∃ fields, j = .obj fields ∧ isCollection (valueOr fields "id" (.bool false)) = true

/-- The definitions are a collection, and each that has a name has an identifier. -/
def Lists (fields : List (String × Json)) (items : List Json) : Prop :=
  itemsOf (valueOr fields "definitions" (.arr [])) = .ok items ∧
    ∀ j ∈ items, Named j → ¬ Unidentified j

/-- What is wrong with a document of version 1: the first part that is not of the kind it should
be. -/
inductive Misshapen (fields : List (String × Json)) : Fault → Prop where
  | definitions : (∀ items, itemsOf (valueOr fields "definitions" (.arr [])) ≠ .ok items) →
      Misshapen fields .wrongKind
  | identifier {items : List Json} :
      itemsOf (valueOr fields "definitions" (.arr [])) = .ok items →
      (∃ j ∈ items, Named j ∧ Unidentified j) → Misshapen fields .wrongKind
  | settings {items : List Json} : Lists fields items →
      ¬ IsObject (valueOr fields "settings" (.obj [])) → Misshapen fields .noFields
  | suite {items : List Json} {old : List (String × Json)} {e : Fault} : Lists fields items →
      valueOr fields "settings" (.obj []) = .obj old → (∃ j ∈ items, Named j) →
      Unsuitable old e → Misshapen fields e
  | values {items : List Json} {old : List (String × Json)} : Lists fields items →
      valueOr fields "settings" (.obj []) = .obj old →
      ((∃ j ∈ items, Named j) → Triggers old ∧
        ∃ range, rangeOf (valueOr old "contextSettings" (.obj [])) = .ok range) →
      ¬ IsObject (valueOr fields "values" (.obj [])) → Misshapen fields .noFields

/-! ## What the parts do -/

theorem isObject_obj (fields : List (String × Json)) : IsObject (.obj fields) := ⟨fields, rfl⟩

theorem valueOr_ne_null {default : Json} (hd : default ≠ .null) (key : String) :
    valueOr fields key default ≠ .null := by
  unfold valueOr orElse
  split
  · next ht =>
    intro hnull
    rw [hnull] at ht
    cases ht
  · exact hd

theorem field_error {j : Json} {key : String} :
    field j key = .error e ↔ ¬ IsObject j ∧ e = .noFields := by
  cases j with
  | obj fields => exact ⟨nofun, fun h => absurd (isObject_obj fields) h.1⟩
  | _ =>
    refine ⟨fun h => ⟨?_, (Except.error.inj h).symm⟩, ?_⟩
    · rintro ⟨fields, h⟩
      cases h
    · rintro ⟨-, rfl⟩
      rfl

/-- Only a collection and an infinite number are counts that loading does not expect. -/
theorem whole_error {j : Json} (hj : j ≠ .null) :
    whole j = .error e ∧ e.Unexpected ↔ Uncountable j e := by
  constructor
  · rintro ⟨h, hnumber, -⟩
    cases j with
    | null => exact absurd rfl hj
    | arr items =>
      cases h
      exact .collection rfl
    | obj fields =>
      cases h
      exact .collection rfl
    | float x =>
      cases x with
      | infinite negative =>
        cases h
        exact .infinite rfl
      | finite x => cases h
      | nan =>
        cases h
        exact absurd rfl hnumber
    | str s =>
      unfold whole at h
      dsimp only at h
      split at h
      · cases h
      · cases h
        exact absurd rfl hnumber
    | _ => cases h
  · rintro (hc | rfl)
    · refine ⟨?_, nofun, nofun⟩
      cases j with
      | arr items => rfl
      | obj fields => rfl
      | _ => cases hc
    · exact ⟨rfl, nofun, nofun⟩

/-! ### Definitions -/

theorem isCollection_id (fields : List (String × Json)) (default : String) :
    isCollection (orElse ((Json.find? fields "id").getD .null) (.str default)) =
      isCollection (valueOr fields "id" (.bool false)) := by
  unfold valueOr orElse
  split <;> rfl

theorem shown_get (h : Json.writableFields fields = true) (key : String) :
    shown ((Json.find? fields key).getD .null) =
      .ok ((Json.find? fields key).getD .null).display := by
  unfold shown
  rw [if_pos (writable_get h key)]

theorem moveDefinition_unnamed {j : Json} (h : ¬ Named j) (now : Int) (i : Nat) :
    moveDefinition now i j = .ok none := by
  cases j with
  | obj fields =>
    have hname : ((Json.find? fields "name").getD .null).truthy = false :=
      Bool.eq_false_iff.mpr fun ht => h ⟨fields, rfl, ht⟩
    unfold moveDefinition
    simp only [hname, Bool.not_false, if_true]
  | _ => rfl

theorem moveDefinition_unidentified {j : Json} (hj : j.writable = true) (hn : Named j)
    (hu : Unidentified j) (now : Int) (i : Nat) : moveDefinition now i j = .error .wrongKind := by
  obtain ⟨fields, rfl, hname⟩ := hn
  obtain ⟨_, heq, hid⟩ := hu
  cases heq
  unfold moveDefinition
  simp only [hname, shown_get hj, isCollection_id, hid, Bool.not_true, Bool.false_eq_true, if_false,
    if_true]
  rfl

theorem moveDefinition_identified {j : Json} (hj : j.writable = true) (hn : Named j)
    (hu : ¬ Unidentified j) (now : Int) (i : Nat) :
    ∃ m, moveDefinition now i j = .ok (some m) := by
  obtain ⟨fields, rfl, hname⟩ := hn
  have hid : isCollection (valueOr fields "id" (.bool false)) = false :=
    Bool.eq_false_iff.mpr fun hid => hu ⟨fields, rfl, hid⟩
  unfold moveDefinition
  simp only [hname, shown_get hj, isCollection_id, hid, Bool.not_true, Bool.false_eq_true, if_false]
  exact ⟨_, rfl⟩

theorem place_ne_nil (m : Moved) (ms : List Moved) : place m ms ≠ [] := by
  cases ms with
  | nil => exact List.cons_ne_nil _ _
  | cons a ms =>
    unfold place
    split <;> exact List.cons_ne_nil _ _

/-- Definitions are taken over if none that has a name lacks an identifier, and else none is. -/
theorem moveDefinitions_eq {items : List (Nat × Json)} (hitems : ∀ x ∈ items, x.2.writable = true)
    (now : Int) (done : List Moved) :
    ((∃ x ∈ items, Named x.2 ∧ Unidentified x.2) →
      moveDefinitions now items done = .error .wrongKind) ∧
    ((∀ x ∈ items, Named x.2 → ¬ Unidentified x.2) →
      ∃ moved, moveDefinitions now items done = .ok moved ∧
        (moved ≠ [] ↔ done ≠ [] ∨ ∃ x ∈ items, Named x.2)) := by
  induction items generalizing done with
  | nil =>
    refine ⟨?_, fun _ => ⟨done, rfl, Or.inl, ?_⟩⟩
    · rintro ⟨x, hx, -⟩
      cases hx
    · rintro (h | ⟨x, hx, -⟩)
      · exact h
      · cases hx
  | cons x items ih =>
    obtain ⟨i, j⟩ := x
    obtain ⟨hj, hitems⟩ := List.forall_mem_cons.mp hitems
    by_cases hn : Named j
    · by_cases hu : Unidentified j
      · have hstep : moveDefinitions now ((i, j) :: items) done = .error .wrongKind := by
          rw [moveDefinitions, moveDefinition_unidentified hj hn hu]
        exact ⟨fun _ => hstep, fun h => absurd hu (h _ List.mem_cons_self hn)⟩
      · obtain ⟨m, hm⟩ := moveDefinition_identified hj hn hu now i
        have hstep : moveDefinitions now ((i, j) :: items) done =
            moveDefinitions now items (place m done) := by
          rw [moveDefinitions, hm]
        obtain ⟨hfails, hmoves⟩ := ih hitems (place m done)
        rw [hstep]
        constructor
        · rintro ⟨x, hx, hnamed, hbad⟩
          rcases List.mem_cons.mp hx with rfl | hx
          · exact absurd hbad hu
          · exact hfails ⟨x, hx, hnamed, hbad⟩
        · intro h
          obtain ⟨moved, hmoved, hiff⟩ := hmoves fun x hx => h x (List.mem_cons_of_mem _ hx)
          have hne : moved ≠ [] := hiff.mpr (Or.inl (place_ne_nil m done))
          exact ⟨moved, hmoved, fun _ => Or.inr ⟨_, List.mem_cons_self, hn⟩, fun _ => hne⟩
    · have hstep : moveDefinitions now ((i, j) :: items) done = moveDefinitions now items done := by
        rw [moveDefinitions, moveDefinition_unnamed hn]
      obtain ⟨hfails, hmoves⟩ := ih hitems done
      rw [hstep]
      constructor
      · rintro ⟨x, hx, hnamed, hbad⟩
        rcases List.mem_cons.mp hx with rfl | hx
        · exact absurd hnamed hn
        · exact hfails ⟨x, hx, hnamed, hbad⟩
      · intro h
        obtain ⟨moved, hmoved, hiff⟩ := hmoves fun x hx => h x (List.mem_cons_of_mem _ hx)
        refine ⟨moved, hmoved, hiff.trans (or_congr_right ?_)⟩
        simp only [List.mem_cons, exists_eq_or_imp, hn, false_or]

/-! ### The suite -/

/-- A part that is made with a count if a switch asks for it. -/
theorem counted_error {c : Bool} {key : String} {n : Int} {f : Int → Json} {d : Json} :
    (if c then (whole (valueOr part key (.int n))).map f else .ok d) = .error e ∧ e.Unexpected ↔
      c = true ∧ Uncountable (valueOr part key (.int n)) e := by
  have hint : Json.int n ≠ .null := nofun
  have hpresent : valueOr part key (.int n) ≠ .null := valueOr_ne_null hint key
  have hcount := whole_error (e := e) hpresent
  cases c with
  | false => exact ⟨nofun, nofun⟩
  | true =>
    rw [if_pos rfl, map_eq_error, hcount]
    exact ⟨fun h => ⟨rfl, h⟩, fun h => h.2⟩

theorem counted_ok {c : Bool} {j : Json} {f : Int → Json} {d : Json} :
    (∃ a, (if c then (whole j).map f else .ok d) = .ok a) ↔ (c = true → ∃ n, whole j = .ok n) := by
  cases c with
  | false => exact ⟨fun _ => nofun, fun _ => ⟨d, rfl⟩⟩
  | true =>
    rw [if_pos rfl]
    constructor
    · rintro ⟨a, h⟩ -
      obtain ⟨n, hn, -⟩ := map_eq_ok h
      exact ⟨n, hn⟩
    · intro h
      obtain ⟨n, hn⟩ := h rfl
      exact ⟨f n, by rw [hn]; rfl⟩

theorem triggerOf_obj (auto : List (String × Json)) : triggerOf (.obj auto) =
    if ((Json.find? auto "enabled").getD .null).truthy then
      (whole (valueOr auto "messageCount" (.int 10))).map fun n =>
        .obj [("type", .str "interval"), ("interval", .int n)]
    else .ok (.obj [("type", .str "manual")]) := rfl

theorem rangeOf_obj (context : List (String × Json)) : rangeOf (.obj context) =
    if !((Json.find? context "includeAll").getD .null).truthy then
      (whole (valueOr context "messageCount" (.int 50))).map fun n =>
        .obj [("type", .str "latest"), ("count", .int n)]
    else .ok (.obj [("type", .str "fixed"), ("start", .int 1)]) := by
  unfold rangeOf field
  dsimp only [bind, Except.bind]
  cases ((Json.find? context "includeAll").getD .null).truthy <;> rfl

theorem triggerOf_other {j : Json} (h : ¬ IsObject j) : triggerOf j = .error .noFields := by
  unfold triggerOf
  rw [field_error.mpr ⟨h, rfl⟩]
  rfl

theorem rangeOf_other {j : Json} (h : ¬ IsObject j) : rangeOf j = .error .noFields := by
  unfold rangeOf
  rw [field_error.mpr ⟨h, rfl⟩]
  rfl

theorem triggers_iff : Triggers old ↔
    ∃ j, triggerOf (valueOr old "autoTrigger" (.obj [])) = .ok j := by
  unfold Triggers
  constructor
  · rintro ⟨auto, hauto, hcount⟩
    rw [hauto, triggerOf_obj]
    exact counted_ok.mpr hcount
  · rintro ⟨j, hj⟩
    by_cases hobject : IsObject (valueOr old "autoTrigger" (.obj []))
    · obtain ⟨auto, hauto⟩ := hobject
      rw [hauto, triggerOf_obj] at hj
      exact ⟨auto, hauto, counted_ok.mp ⟨j, hj⟩⟩
    · rw [triggerOf_other hobject] at hj
      cases hj

theorem suiteOf_obj (old : List (String × Json)) (moved : List Moved) (now : Int) :
    suiteOf (.obj old) moved now = do
      let trigger ← triggerOf (valueOr old "autoTrigger" (.obj []))
      let range ← rangeOf (valueOr old "contextSettings" (.obj []))
      return suiteWith trigger range moved now := suiteOf_eq _ moved now

theorem suiteOf_error {now : Int} : suiteOf (.obj old) moved now = .error e ∧ e.Unexpected ↔
    Unsuitable old e := by
  rw [suiteOf_obj]
  constructor
  · rintro ⟨h, hunexpected⟩
    rcases bind_eq_error.mp h with h | ⟨trigger, htrigger, h⟩
    · by_cases hobject : IsObject (valueOr old "autoTrigger" (.obj []))
      · obtain ⟨auto, hauto⟩ := hobject
        rw [hauto, triggerOf_obj] at h
        obtain ⟨hfires, hcount⟩ := counted_error.mp ⟨h, hunexpected⟩
        exact .interval hauto hfires hcount
      · rw [triggerOf_other hobject] at h
        cases h
        exact .trigger hobject
    · have htriggers : Triggers old := triggers_iff.mpr ⟨trigger, htrigger⟩
      rcases bind_eq_error.mp h with h | ⟨range, -, h⟩
      · by_cases hobject : IsObject (valueOr old "contextSettings" (.obj []))
        · obtain ⟨context, hcontext⟩ := hobject
          rw [hcontext, rangeOf_obj] at h
          obtain ⟨hall, hcount⟩ := counted_error.mp ⟨h, hunexpected⟩
          exact .count htriggers hcontext ((Bool.not_eq_true' _).mp hall) hcount
        · rw [rangeOf_other hobject] at h
          cases h
          exact .messages htriggers hobject
      · cases h
  · intro h
    cases h with
    | trigger hobject =>
      rw [triggerOf_other hobject]
      exact ⟨rfl, nofun, nofun⟩
    | interval hauto hfires hcount =>
      obtain ⟨h, hunexpected⟩ := counted_error.mpr ⟨hfires, hcount⟩
      rw [hauto, triggerOf_obj, h]
      exact ⟨rfl, hunexpected⟩
    | messages htriggers hobject =>
      obtain ⟨trigger, htrigger⟩ := triggers_iff.mp htriggers
      rw [htrigger, rangeOf_other hobject]
      exact ⟨rfl, nofun, nofun⟩
    | count htriggers hcontext hall hcount =>
      obtain ⟨trigger, htrigger⟩ := triggers_iff.mp htriggers
      obtain ⟨h, hunexpected⟩ := counted_error.mpr ⟨(Bool.not_eq_true' _).mpr hall, hcount⟩
      rw [htrigger, hcontext, rangeOf_obj, h]
      exact ⟨rfl, hunexpected⟩

theorem suiteOf_ok {now : Int} : (∃ j, suiteOf (.obj old) moved now = .ok j) ↔
    Triggers old ∧ ∃ range, rangeOf (valueOr old "contextSettings" (.obj [])) = .ok range := by
  rw [suiteOf_obj, triggers_iff]
  constructor
  · rintro ⟨j, hj⟩
    obtain ⟨trigger, htrigger, hj⟩ := bind_eq_ok hj
    obtain ⟨range, hrange, -⟩ := bind_eq_ok hj
    exact ⟨⟨trigger, htrigger⟩, range, hrange⟩
  · rintro ⟨⟨trigger, htrigger⟩, range, hrange⟩
    rw [htrigger, hrange]
    exact ⟨_, rfl⟩

/-! ### Values -/

theorem moveValue_expected {mode : Mode} {raw : Json} (h : moveValue ctx mode raw = .error e) :
    ¬ e.Unexpected := by
  have hshown {j : Json} {f : String → Option Value} (h : (shown j).map f = .error e) :
      ¬ e.Unexpected := by
    have h := map_eq_error.mp h
    unfold shown at h
    split at h
    · cases h
    · cases h
      exact fun hunexpected => hunexpected.1 rfl
  unfold moveValue at h
  split at h
  · cases h
  · cases h
    exact fun hunexpected => hunexpected.2 _ rfl
  · dsimp only at h
    repeat' split at h
    all_goals first
      | cases h
      | exact hshown h

theorem moveValues_expected {values : List (String × Json)}
    (h : moveValues ctx moved values = .error e) : ¬ e.Unexpected := by
  induction values with
  | nil => cases h
  | cons v values ih =>
    unfold moveValues at h
    split at h
    · exact ih h
    · split at h
      · next hv =>
        cases h
        exact moveValue_expected hv
      · exact ih h
      · exact ih (map_eq_error.mp h)

theorem moveChats_expected {chats : List (String × Json)}
    (h : moveChats ctx moved chats = .error e) : ¬ e.Unexpected := by
  induction chats with
  | nil => cases h
  | cons c chats ih =>
    unfold moveChats at h
    split at h
    · cases h
    · next hcons =>
      cases hcons
      split at h
      · next hvalues =>
        cases h
        exact moveValues_expected hvalues
      · exact ih h
      · exact ih (map_eq_error.mp h)
    · next hcons =>
      cases hcons
      exact ih h

theorem moveAllValues_error {j : Json} :
    moveAllValues ctx moved j = .error e ∧ e.Unexpected ↔ ¬ IsObject j ∧ e = .noFields := by
  cases j with
  | obj chats =>
    constructor
    · rintro ⟨h, hunexpected⟩
      exact absurd hunexpected (moveChats_expected h)
    · rintro ⟨h, -⟩
      exact absurd (isObject_obj chats) h
  | _ =>
    constructor
    · rintro ⟨h, -⟩
      cases h
      exact ⟨nofun, rfl⟩
    · rintro ⟨-, rfl⟩
      exact ⟨rfl, nofun, nofun⟩

/-! ## Whole documents -/

theorem itemsOf_error {j : Json} (h : itemsOf j = .error e) : e = .wrongKind := by
  cases j with
  | arr items => cases h
  | str s => cases h
  | obj fields => cases h
  | _ => exact (Except.error.inj h).symm

/-- The definitions, then the settings, the suite and the values of the chats are taken over. -/
theorem fromFirst_eq : fromFirst ctx fields = do
    let items ← itemsOf (valueOr fields "definitions" (.arr []))
    let moved ← moveDefinitions ctx.now (Schema.numbered 0 items) []
    let enabled ← field (valueOr fields "settings" (.obj [])) "enabled"
    let api ← field (valueOr fields "settings" (.obj [])) "apiConfig"
    let suites ← moveSuites (valueOr fields "settings" (.obj [])) moved ctx.now
    let chats ← moveAllValues ctx moved (valueOr fields "values" (.obj []))
    return ⟨.obj [("version", .int Root.currentVersion), ("suites", .obj suites),
      ("variables", .obj (moved.map fun v => (keyText v.id, v.document))),
      ("settings", moveSettings enabled api moved)], chats, some 1, moved.map (·.id)⟩ := rfl

theorem writable_definitions (hfields : Json.writableFields fields = true) {items : List Json}
    (h : itemsOf (valueOr fields "definitions" (.arr [])) = .ok items) :
    ∀ j ∈ items, j.writable = true :=
  writable_itemsOf (writable_orElse (writable_get hfields "definitions") rfl) h

theorem exists_numbered {P : Json → Prop} {items : List Json} {n : Nat} :
    (∃ x ∈ Schema.numbered n items, P x.2) ↔ ∃ j ∈ items, P j := by
  induction items generalizing n with
  | nil => simp [Schema.numbered]
  | cons j items ih =>
    simp only [Schema.numbered, List.mem_cons, exists_eq_or_imp, ih]

/-- The definitions are taken over one after the other; with one that has a name comes a suite. -/
theorem moves_of_lists {items : List Json} (h : Lists fields items)
    (hfields : Json.writableFields fields = true) (now : Int) :
    ∃ moved, moveDefinitions now (Schema.numbered 0 items) [] = .ok moved ∧
      (moved ≠ [] ↔ ∃ j ∈ items, Named j) := by
  have hitems := writable_definitions hfields h.1
  obtain ⟨moved, hmoved, hiff⟩ := (moveDefinitions_eq
    (fun x hx => hitems x.2 (Schema.mem_of_mem_numbered hx)) now []).2
      fun x hx => h.2 x.2 (Schema.mem_of_mem_numbered hx)
  refine ⟨moved, hmoved, hiff.trans ?_⟩
  rw [exists_numbered]
  exact or_iff_right fun hne => hne rfl

theorem moveSuites_error {now : Int} : moveSuites (.obj old) moved now = .error e ∧ e.Unexpected ↔
    moved ≠ [] ∧ Unsuitable old e := by
  unfold moveSuites
  cases moved with
  | nil => exact ⟨nofun, fun h => absurd rfl h.1⟩
  | cons m moved =>
    rw [List.isEmpty_cons, if_neg Bool.false_ne_true, map_eq_error, suiteOf_error]
    exact ⟨fun h => ⟨List.cons_ne_nil _ _, h⟩, fun h => h.2⟩

theorem moveSuites_ok {now : Int} : (∃ suites, moveSuites (.obj old) moved now = .ok suites) ↔
    (moved ≠ [] → Triggers old ∧
      ∃ range, rangeOf (valueOr old "contextSettings" (.obj [])) = .ok range) := by
  unfold moveSuites
  cases moved with
  | nil => exact ⟨fun _ h => absurd rfl h, fun _ => ⟨[], rfl⟩⟩
  | cons m moved =>
    have hsuite : (∃ j, suiteOf (.obj old) (m :: moved) now = .ok j) ↔ _ := suiteOf_ok
    rw [List.isEmpty_cons, if_neg Bool.false_ne_true, ← hsuite]
    constructor
    · rintro ⟨suites, h⟩ -
      obtain ⟨j, hj, -⟩ := map_eq_ok h
      exact ⟨j, hj⟩
    · intro h
      obtain ⟨j, hj⟩ := h (List.cons_ne_nil _ _)
      exact ⟨[(suiteId, j)], by rw [hj]; rfl⟩

/-- A document of version 1 is not brought to the current version, for a reason that loading does
not expect, exactly if one of its parts has the wrong shape. -/
theorem fromFirst_fails (hfields : Json.writableFields fields = true) :
    fromFirst ctx fields = .error e ∧ e.Unexpected ↔ Misshapen fields e := by
  rw [fromFirst_eq]
  constructor
  · rintro ⟨h, hunexpected⟩
    rcases bind_eq_error.mp h with h | ⟨items, hitems, h⟩
    · obtain rfl := itemsOf_error h
      exact .definitions fun items hi => nomatch h.symm.trans hi
    by_cases hbad : ∃ j ∈ items, Named j ∧ Unidentified j
    · have hall := writable_definitions hfields hitems
      rw [(moveDefinitions_eq (fun x hx => hall x.2 (Schema.mem_of_mem_numbered hx)) _ _).1
        (exists_numbered.mpr hbad)] at h
      cases h
      exact .identifier hitems hbad
    have hlists : Lists fields items := ⟨hitems, fun j hj hn hu => hbad ⟨j, hj, hn, hu⟩⟩
    obtain ⟨moved, hmoved, hnamed⟩ := moves_of_lists hlists hfields ctx.now
    rw [hmoved] at h
    by_cases hobject : IsObject (valueOr fields "settings" (.obj []))
    · obtain ⟨old, hold⟩ := hobject
      rw [hold] at h
      change (moveSuites (.obj old) moved ctx.now >>= _) = _ at h
      rcases bind_eq_error.mp h with h | ⟨suites, hsuites, h⟩
      · obtain ⟨hne, hunsuitable⟩ := moveSuites_error.mp ⟨h, hunexpected⟩
        exact .suite hlists hold (hnamed.mp hne) hunsuitable
      · rcases bind_eq_error.mp h with h | ⟨chats, -, h⟩
        · obtain ⟨hvalues, rfl⟩ := moveAllValues_error.mp ⟨h, hunexpected⟩
          refine .values hlists hold (fun hn => ?_) hvalues
          exact moveSuites_ok.mp ⟨suites, hsuites⟩ (hnamed.mpr hn)
        · cases h
    · rw [field_error.mpr ⟨hobject, rfl⟩] at h
      cases h
      exact .settings hlists hobject
  · intro h
    cases h with
    | definitions hitems =>
      cases hfound : itemsOf (valueOr fields "definitions" (.arr [])) with
      | ok items => exact absurd hfound (hitems items)
      | error e =>
        obtain rfl := itemsOf_error hfound
        exact ⟨rfl, nofun, nofun⟩
    | identifier hitems hbad =>
      have hall := writable_definitions hfields hitems
      rw [hitems]
      refine ⟨bind_eq_error.mpr (Or.inr ⟨_, rfl, ?_⟩), nofun, nofun⟩
      rw [(moveDefinitions_eq (fun x hx => hall x.2 (Schema.mem_of_mem_numbered hx)) _ _).1
        (exists_numbered.mpr hbad)]
      rfl
    | settings hlists hobject =>
      obtain ⟨moved, hmoved, -⟩ := moves_of_lists hlists hfields ctx.now
      refine ⟨bind_eq_error.mpr (Or.inr ⟨_, hlists.1, ?_⟩), nofun, nofun⟩
      rw [hmoved, field_error.mpr ⟨hobject, rfl⟩]
      rfl
    | suite hlists hold hn hunsuitable =>
      obtain ⟨moved, hmoved, hnamed⟩ := moves_of_lists hlists hfields ctx.now
      obtain ⟨hsuites, hunexpected⟩ := moveSuites_error.mpr ⟨hnamed.mpr hn, hunsuitable⟩
      refine ⟨bind_eq_error.mpr (Or.inr ⟨_, hlists.1, ?_⟩), hunexpected⟩
      rw [hmoved, hold]
      change (moveSuites _ moved ctx.now >>= _) = _
      exact bind_eq_error.mpr (Or.inl hsuites)
    | values hlists hold hsuite hvalues =>
      obtain ⟨moved, hmoved, hnamed⟩ := moves_of_lists hlists hfields ctx.now
      obtain ⟨suites, hsuites⟩ := moveSuites_ok.mpr fun hne => hsuite (hnamed.mp hne)
      obtain ⟨hchats, hunexpected⟩ := moveAllValues_error.mpr ⟨hvalues, rfl⟩
      refine ⟨bind_eq_error.mpr (Or.inr ⟨_, hlists.1, ?_⟩), hunexpected⟩
      rw [hmoved, hold]
      change (moveSuites _ moved ctx.now >>= _) = _
      refine bind_eq_error.mpr (Or.inr ⟨suites, hsuites, ?_⟩)
      exact bind_eq_error.mpr (Or.inl hchats)

end Migration

end TagLedger
