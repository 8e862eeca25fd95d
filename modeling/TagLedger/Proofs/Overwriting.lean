import TagLedger.Proofs.Projecting

/-!
# Fragments that are overwritten

The document of a chat has a fragment for each variable. When the chat is read, a fragment that has
the shape of no value is passed over, and nothing of it is in memory. So the next time that anything
of the chat is written, the document is written without it.

    other values are set, entries are appended  →  the chat came of the fragment    (Came.run)
    everything was written  →  the document still has the fragment ↔ it is read as a value that
      takes the entries, or it is read as none and the document was not written      (stillHas_iff)
-/

namespace TagLedger

open Schema

/-! ## Reading at different times -/

namespace Schema

variable {α β : Type}

/-- Both are valid, or none is. -/
def Checked.Alike (x y : Checked α) : Prop := x.toOption.isSome = y.toOption.isSome

namespace Checked

variable {x y : Checked α}

theorem isSome_map (f : α → β) (x : Checked α) :
    (f <$> x).toOption.isSome = x.toOption.isSome := by
  cases x <;> rfl

theorem isSome_seq (f : Checked (α → β)) (x : Checked α) :
    (f <*> x).toOption.isSome = (f.toOption.isSome && x.toOption.isSome) := by
  cases f <;> cases x <;> rfl

theorem isSome_below (step : Step) (x : Checked α) :
    (x.below step).toOption.isSome = x.toOption.isSome := by
  cases x <;> rfl

namespace Alike

theorem map (f : α → β) (h : Alike x y) : Alike (f <$> x) (f <$> y) := by
  unfold Alike
  rw [isSome_map, isSome_map, h]

theorem seq {f g : Checked (α → β)} (hf : Alike f g) (h : Alike x y) :
    Alike (f <*> x) (g <*> y) := by
  unfold Alike
  rw [isSome_seq, isSome_seq, hf, h]

theorem below (step : Step) (h : Alike x y) : Alike (x.below step) (y.below step) := by
  unfold Alike
  rw [isSome_below, isSome_below, h]

/-- What does not look at the value is the same of both. -/
theorem map_eq {γ : Type} (h : Alike x y) {f : α → β} {g : β → γ} (hg : ∀ a b, g (f a) = g (f b)) :
    (x.map f).toOption.map g = (y.map f).toOption.map g := by
  cases x with
  | valid a =>
    cases y with
    | valid b => exact congrArg some (hg a b)
    | invalid _ => cases h
  | invalid _ =>
    cases y with
    | valid b => cases h
    | invalid _ => rfl

theorem all {f g : β → Step × Checked α} (h : ∀ b, (f b).1 = (g b).1 ∧ Alike (f b).2 (g b).2)
    (l : List β) : Alike (Checked.all f l) (Checked.all g l) := by
  induction l with
  | nil => rfl
  | cons b l ih =>
    unfold Checked.all
    rw [(h b).1]
    exact (((h b).2.below _).map List.cons).seq ih

end Alike

end Checked

/-- Whether a document is taken does not depend on the time. -/
def Decoder.Timeless (d : Decoder α) : Prop :=
  ∀ now now' fieldsOnly j, Checked.Alike (d ⟨now, fieldsOnly⟩ j) (d ⟨now', fieldsOnly⟩ j)

namespace Decoder.Timeless

variable {d : Decoder α} {entries : List (String × Json)} {now now' : Int} {fieldsOnly : Bool}

theorem required (h : d.Timeless) (name : FieldName) :
    Checked.Alike (Fields.required ⟨entries, ⟨now, fieldsOnly⟩⟩ name d)
      (Fields.required ⟨entries, ⟨now', fieldsOnly⟩⟩ name d) := by
  have hsame : Fields.get? ⟨entries, ⟨now', fieldsOnly⟩⟩ name =
      Fields.get? ⟨entries, ⟨now, fieldsOnly⟩⟩ name := rfl
  unfold Fields.required
  rw [hsame]
  cases Fields.get? ⟨entries, ⟨now, fieldsOnly⟩⟩ name with
  | none => rfl
  | some x => exact (h _ _ _ _).below _

theorem optional (h : d.Timeless) (name : FieldName) (default default' : α) :
    Checked.Alike (Fields.optional ⟨entries, ⟨now, fieldsOnly⟩⟩ name default d)
      (Fields.optional ⟨entries, ⟨now', fieldsOnly⟩⟩ name default' d) := by
  have hsame : Fields.get? ⟨entries, ⟨now', fieldsOnly⟩⟩ name =
      Fields.get? ⟨entries, ⟨now, fieldsOnly⟩⟩ name := rfl
  unfold Fields.optional
  rw [hsame]
  cases Fields.get? ⟨entries, ⟨now, fieldsOnly⟩⟩ name with
  | none => rfl
  | some x => exact (h _ _ _ _).below _

theorem record {name : String} {build : Fields → Checked α}
    (h : ∀ entries now now' fieldsOnly, Checked.Alike (build ⟨entries, ⟨now, fieldsOnly⟩⟩)
      (build ⟨entries, ⟨now', fieldsOnly⟩⟩)) : (Schema.record name build).Timeless :=
  fun now now' fieldsOnly j => by
    cases j with
    | obj entries => exact h entries now now' fieldsOnly
    | _ => rfl

theorem list (h : d.Timeless) : (Schema.list d).Timeless := fun now now' fieldsOnly j => by
  cases j with
  | arr items => exact .all (fun ⟨i, j⟩ => ⟨rfl, h now now' fieldsOnly j⟩) _
  | _ => rfl

theorem nullable (h : d.Timeless) : (Schema.nullable d).Timeless := fun now now' fieldsOnly j => by
  cases j with
  | null => rfl
  | _ => exact (h now now' fieldsOnly _).map some

theorem text : Timeless Schema.text := fun _ _ _ j => by cases j <;> rfl

theorem truth : Timeless Schema.truth := fun _ _ _ j => by cases j <;> rfl

theorem integer : Timeless Schema.integer := fun _ _ _ j => by cases j <;> rfl

end Decoder.Timeless

end Schema

open Decoder (Timeless)

theorem Entry.timeless : Timeless Entry.decode :=
  .record fun _ now now' _ => ((((Timeless.integer.required _).map _).seq
    (Timeless.text.required _)).seq (Timeless.text.optional _ _ _)).seq
    (Timeless.integer.optional _ now now') |>.seq (Timeless.truth.optional _ _ _)

theorem Stack.timeless : Timeless Stack.decode :=
  .record fun _ _ _ _ => ((Entry.timeless.list.optional _ _ _).map _).seq
    (Timeless.integer.optional _ _ _)

theorem Slot.timeless : Timeless Slot.decode :=
  .record fun _ _ _ _ => ((((Timeless.text.optional _ _ _).map _).seq
    (Timeless.text.nullable.optional _ _ _)).seq (Timeless.integer.nullable.optional _ _ _)).seq
    (Entry.timeless.list.optional _ _ _) |>.seq (Timeless.integer.optional _ _ _)

/-! ## Values of fragments -/

/-- The value that a fragment is read as at some time. -/
def Value.of? (now : Int) (j : Json) : Option Value :=
  (Value.read ⟨now, false⟩ j).bind Checked.toOption

/-- A value takes entries at its end: any takes none, and a stack takes all. -/
def Value.Takes (v : Value) (es : List Entry) : Prop := es = [] ∨ v.fits .stack = true

/-- The value of a variable after entries were appended. What is no stack makes place for one. -/
def Value.appended (v? : Option Value) (es : List Entry) : Option Value :=
  if es = [] then v? else
    let s := (v?.map stackOf).getD .empty
    some (.stack ⟨s.entries ++ es, s.nextId + es.length⟩)

namespace Value

variable {j : Json} {v : Value} {v? : Option Value} {es : List Entry}

/-- Whether a fragment is read as a stack, as a slot or as no value does not depend on the time. -/
theorem fits_of? (now now' : Int) (j : Json) (m : Mode) :
    (of? now j).map (·.fits m) = (of? now' j).map (·.fits m) := by
  unfold of? read
  cases j with
  | obj fields =>
    dsimp only
    split
    · exact (Stack.timeless now now' false (.obj fields)).map_eq fun _ _ => by cases m <;> rfl
    · split
      · exact (Slot.timeless now now' false (.obj fields)).map_eq fun _ _ => by cases m <;> rfl
      · rfl
  | _ => rfl

theorem of?_document (now : Int) (v : Value) : of? now v.document = some v := by
  unfold of?
  rw [v.read_document]
  rfl

theorem appended_ne_nil (v? : Option Value) {es : List Entry} (h : es ≠ []) :
    appended v? es = some (.stack ⟨((v?.map stackOf).getD .empty).entries ++ es,
      ((v?.map stackOf).getD .empty).nextId + es.length⟩) := if_neg h

/-- One more entry is appended. -/
theorem appended_append (v? : Option Value) (es : List Entry) (content floors : String)
    (time : Int) :
    let s := ((appended v? es).map stackOf).getD .empty
    some (.stack (s.push content floors time)) =
      appended v? (es ++ [⟨s.nextId, content, floors, time, false⟩]) := by
  intro s
  rw [appended_ne_nil v? (List.append_ne_nil_of_right_ne_nil es (List.cons_ne_nil _ _))]
  by_cases hes : es = []
  · subst hes
    rfl
  · have hs : s = ⟨((v?.map stackOf).getD .empty).entries ++ es,
        ((v?.map stackOf).getD .empty).nextId + es.length⟩ := by
      change ((appended v? es).map stackOf).getD .empty = _
      rw [appended_ne_nil v? hes]
      rfl
    rw [hs]
    unfold Stack.push
    rw [List.length_append, List.length_singleton, List.append_assoc, Nat.cast_add, Int.add_assoc]
    rfl

end Value

/-- A variable is read from the one fragment it has. -/
theorem Storage.find?_readValues {raw : List (String × Json)} (hk : (Json.keys raw).Nodup)
    (now : Int) (id : String) :
    Json.find? (readValues ⟨now, false⟩ raw) id = (Json.find? raw id).bind (Value.of? now) :=
  Json.find?_filterMap hk (Value.of? now) id

/-- The text of a document still has what a fragment said: the value it is read as, with the entries
that were appended, or the fragment as it was if it is read as none. -/
def StillHas (id : String) (j : Json) (es : List Entry) (text? : Option String) : Prop :=
  ∃ raw j', Storage.rawValues? text? = some raw ∧ Json.find? raw id = some j' ∧ ∃ now,
    match Value.of? now j with
    | some v => v.Takes es ∧ Value.of? now j' = Value.appended (some v) es
    | none => j' = j

/-! ## What comes of a fragment -/

variable {N : Naming} {s t u : Storage} {r : Root} {chat id : String} {vs : ChatValues} {j : Json}
  {first : Option String} {es : List Entry} {v? : Option Value} {f g : ChatFile}
  {gone : String → Bool}

/-- A chat has these values in memory, among them what comes of a fragment that was read as `v?`.
The document is as it was first, or has what was written for the variable. If entries came after
that, then it is to be written again, unless the values are too long for that. -/
structure ChatFile.Held (chat id : String) (v? : Option Value) (first : Option String)
    (es : List Entry) (f : ChatFile) (vs : ChatValues) : Prop where
  keys : (Json.keys vs).Nodup
  value : Json.find? vs id = Value.appended v? es
  saved : ∃ es', (f.text = first ∧ es' = [] ∨ ∃ raw, Storage.rawValues? f.text = some raw ∧
      Json.find? raw id = (Value.appended v? es').map Value.document) ∧
    (es' = es ∨ f.waits ∨ (ChatValues.document chat vs).writable = false)

/-- A chat came of a document with the fragment `j` for a variable, and these entries were appended
to it. -/
structure ChatFile.Came (chat id : String) (j : Json) (first : Option String) (es : List Entry)
    (f : ChatFile) : Prop where
  unread : f.served = none → f.text = first ∧ es = []
  read : ∃ now, ∀ vs, f.served = some vs → Held chat id (Value.of? now j) first es f vs

namespace ChatFile

/-- Whatever else waits to be written does so. -/
theorem Held.mono (h : Held chat id v? first es f vs) (htext : g.text = f.text)
    (hwaits : f.waits → g.waits) : Held chat id v? first es g vs where
  keys := h.keys
  value := h.value
  saved := by
    obtain ⟨es', hsaved, hlast⟩ := h.saved
    exact ⟨es', by rwa [htext], hlast.imp_right (Or.imp_left hwaits)⟩

namespace Came

section Steps

variable (hraw : ∀ raw, Storage.rawValues? first = some raw → Json.find? raw id = some j)
  (hgone : gone id = false)

include hraw hgone

theorem step (h : Came chat id j first es f) (hstep : Step chat gone (· ≠ id) f g) :
    Came chat id j first es g := by
  obtain ⟨now, hread⟩ := h.read
  cases hstep with
  | read now hunread hvalues hwaits =>
    obtain ⟨htext, rfl⟩ := h.unread hunread
    refine ⟨nofun, now, fun vs hvs => ?_⟩
    obtain rfl := Option.some.inj hvs
    have hk := nodup_keys_rawValues? hvalues
    have hfragment := hraw _ (htext ▸ hvalues)
    refine ⟨(hk.sublist (keys_readValues _)).sublist (List.filter_sublist.map _), ?_,
      [], .inl ⟨htext, rfl⟩, .inl rfl⟩
    rw [Json.find?_filter fun id => !gone id, hgone, Storage.find?_readValues hk, hfragment]
    rfl
  | @set vs other v hserved hne =>
    have hheld := hread vs hserved
    obtain ⟨es', hsaved, -⟩ := hheld.saved
    refine ⟨nofun, now, fun ws hws => ?_⟩
    obtain rfl := Option.some.inj hws
    refine ⟨Json.nodup_keys_insert hheld.keys other v, ?_, es', hsaved, .inr (.inl trivial)⟩
    rw [Json.find?_insert, if_neg hne]
    exact hheld.value
  | await => exact ⟨h.unread, now, fun vs hvs => (hread vs hvs).mono rfl fun _ => trivial⟩
  | @write vs hserved hw =>
    refine ⟨fun hnone => absurd (hserved.symm.trans hnone) nofun, now, fun ws hws => ?_⟩
    obtain rfl := Option.some.inj (hserved.symm.trans hws)
    have hheld := hread vs hserved
    refine ⟨hheld.keys, hheld.value, es, .inr ?_, .inl rfl⟩
    dsimp only
    split
    · next hempty =>
      -- the document is removed, so the variable had no value
      subst hempty
      exact ⟨[], rfl, by rw [← hheld.value]; rfl⟩
    · next hne =>
      refine ⟨_, rawValues?_text hheld.keys chat (hw.resolve_left hne), ?_⟩
      rw [← hheld.value]
      exact Json.find?_map Value.document vs id
  | @giveUp vs hserved hw =>
    refine ⟨h.unread, now, fun ws hws => ?_⟩
    obtain rfl := Option.some.inj (hserved.symm.trans hws)
    have hheld := hread vs hserved
    obtain ⟨es', hsaved, -⟩ := hheld.saved
    exact ⟨hheld.keys, hheld.value, es', hsaved, .inr (.inr hw)⟩

theorem steps (h : Came chat id j first es f) (hsteps : f.Steps chat gone (· ≠ id) g) :
    Came chat id j first es g := by
  induction hsteps with
  | refl => exact h
  | tail _ hstep ih => exact step hraw hgone ih hstep

end Steps

/-- An entry joins the stack of the variable in memory. -/
theorem append (h : Came chat id j first es f) (hserved : f.served = some vs)
    (content floors : String) (time : Int) :
    Came chat id j first (es ++ [⟨(vs.stack id).nextId, content, floors, time, false⟩])
      ⟨some (Json.insert vs id (.stack ((vs.stack id).push content floors time))), f.text,
        True⟩ := by
  obtain ⟨now, hread⟩ := h.read
  have hheld := hread vs hserved
  obtain ⟨es', hsaved, -⟩ := hheld.saved
  refine ⟨nofun, now, fun ws hws => ?_⟩
  obtain rfl := Option.some.inj hws
  refine ⟨Json.nodup_keys_insert hheld.keys id _, ?_, es', hsaved, .inr (.inl trivial)⟩
  rw [Json.find?_insert, if_pos rfl]
  unfold ChatValues.stack
  rw [hheld.value]
  exact Value.appended_append _ es content floors time

end Came

end ChatFile

/-! ## Runs -/

/-- What comes of a storage while other values of the chat are set, entries are appended to a
variable, time passes, the clock is set, and the shelf begins or stops to refuse accesses. -/
inductive Appending (N : Naming) (id chat : String) (s : Storage) :
    List Entry → Storage → Prop where
  | refl : Appending N id chat s [] s
  | ask {es : List Entry} {t : Storage} (op : Operation) (hop : op.Setting N chat (· ≠ id)) :
      Appending N id chat s es t → Appending N id chat s es (ended op.perform t).2
  | append {es : List Entry} {t u : Storage} {e : Entry} (content floors : String)
      (hadd : ended (Variables.addEntry id chat content floors) t = (.ok e, u)) :
      Appending N id chat s es t → Appending N id chat s (es ++ [e]) u
  | refused {es : List Entry} {t u : Storage} {e : Failure} (content floors : String)
      (hadd : ended (Variables.addEntry id chat content floors) t = (.error e, u)) :
      Appending N id chat s es t → Appending N id chat s es u
  | elapse {es : List Entry} {t : Storage} (time : Nat) :
      Appending N id chat s es t → Appending N id chat s es (exec (Storage.elapse time) t).2
  | around {es : List Entry} {t : Storage} (clock : Clock) (refuses : Access → Bool) :
      Appending N id chat s es t →
        Appending N id chat s es
          { t with clock := clock, shelf := { t.shelf with refuses := refuses } }

/-- A storage serves values under a root that defines the variable, and the chat came of the
fragment. -/
structure Cared (N : Naming) (r : Root) (chat id : String) (j : Json) (first : Option String)
    (es : List Entry) (s : Storage) : Prop where
  covers : N.Covers s
  blank : s.Blank
  root : s.store.root = some r
  notGone : s.store.isGone r id = false
  came : (s.file N chat).Came chat id j first es

namespace Cared

theorem files (h : Cared N r chat id j first es s) (sets : String → Prop) :
    Files N r chat (s.store.isGone r) sets (s.file N chat) s :=
  .refl h.covers h.blank h.root chat sets

section Steps

variable (hraw : ∀ raw, Storage.rawValues? first = some raw → Json.find? raw id = some j)

include hraw

/-- What only sets other values leaves the chat as what came of the fragment. -/
theorem ofFiles (h : Cared N r chat id j first es s)
    (ht : Files N r chat (s.store.isGone r) (· ≠ id) (s.file N chat) t) :
    Cared N r chat id j first es t where
  covers := ht.covers
  blank := ht.blank
  root := ht.root
  notGone := (ht.drops id).trans h.notGone
  came := .steps hraw h.notGone h.came ht.steps

theorem addEntry (hchat : N.used chat) (h : Cared N r chat id j first es s)
    {content floors : String} {a : Except Failure Entry}
    (hadd : ended (Variables.addEntry id chat content floors) s = (a, t)) :
    Cared N r chat id j first (es ++ (a.toOption.toList)) t := by
  rcases Variables.addEntry_cases (Files.loadValues hchat) (h.files (· ≠ id)) hadd with
    ⟨e, rfl, ht⟩ | ⟨u, vs, hu, hready, rfl, rfl⟩
  · -- refused: the chat was read at most
    have ht := ofFiles hraw h ht
    rwa [← List.append_nil es] at ht
  · -- stored: the one change of the variable itself, which `Files` does not allow
    have hcared := ofFiles hraw h hu
    have hstored := (hcared.files (· = id)).stored hready (fun _ => Eq.refl id)
      (.stack ((vs.stack id).push content floors u.clock.now))
    exact
      { covers := hstored.covers
        blank := hstored.blank
        root := hstored.root
        notGone := (hstored.drops id).trans hcared.notGone
        came := by
          rw [Storage.file_stored hready, if_pos rfl]
          exact hcared.came.append hready content floors u.clock.now }

theorem run (hchat : N.used chat) (h : Cared N r chat id j first [] s)
    (hrun : Appending N id chat s es t) : Cared N r chat id j first es t := by
  induction hrun with
  | refl => exact h
  | ask op hop _ ih =>
    exact ofFiles hraw ih (Meets.iff_left.mp (Files.perform hchat hop) _ (ih.files _))
  | append content floors hadd _ ih => exact addEntry hraw hchat ih hadd
  | refused content floors hadd _ ih =>
    have ht : Cared N r chat id j first (_ ++ []) _ := addEntry hraw hchat ih hadd
    rwa [List.append_nil] at ht
  | elapse time _ ih =>
    exact ofFiles hraw ih ((Files.writing hchat).elapse time none _ (ih.files _))
  | around clock refuses _ ih => exact ofFiles hraw ih ((ih.files _).around clock refuses)

end Steps

end Cared

/-! ## What is left -/

/-- After everything was written, the document is as it was first, or has what comes of the
fragment. -/
theorem Cared.flushed (h : Cared N r chat id j first es u)
    (hclean : ∀ c ∈ u.store.dirty, u.store.cached? c = none)
    (hwritable : ∀ vs, u.store.usable? chat = some vs →
      (ChatValues.document chat vs).writable = true) :
    (u.shelf.find? (Store.valuesName N.valuesStart chat) = first ∧ es = []) ∨ ∃ now raw,
      Storage.rawValues? (u.shelf.find? (Store.valuesName N.valuesStart chat)) = some raw ∧
        Json.find? raw id = (Value.appended (Value.of? now j) es).map Value.document := by
  obtain ⟨now, hread⟩ := h.came.read
  cases hu : u.store.usable? chat with
  | none => exact .inl (h.came.unread hu)
  | some vs =>
    have hcached := hu
    rw [Store.usable?_of_not_degraded (Store.not_degraded_of_usable hu)] at hcached
    obtain ⟨es', hsaved, hlast⟩ := (hread vs hu).saved
    have hes : es' = es := by
      rcases hlast with hes | hwaits | hlong
      · exact hes
      · exact absurd (hcached.symm.trans (hclean chat hwaits)) nofun
      · exact absurd (hlong.symm.trans (hwritable vs hu)) nofun
    subst hes
    exact hsaved.imp_right fun ⟨raw, hraw, hfind⟩ => ⟨now, raw, hraw, hfind⟩

/-- A document that was not written has the fragment. -/
theorem stillHas_first {raw : List (String × Json)} {text? : Option String}
    (hraw : Storage.rawValues? text? = some raw) (hj : Json.find? raw id = some j) :
    StillHas id j [] text? := by
  refine ⟨raw, j, hraw, hj, 0, ?_⟩
  split
  · next v hv => exact ⟨.inl rfl, hv⟩
  · rfl

/-- A document that was written has the fragment if it is read as a value that takes the entries. -/
theorem stillHas_written {raw : List (String × Json)} {text? : Option String} {now : Int}
    (hraw : Storage.rawValues? text? = some raw)
    (hfind : Json.find? raw id = (Value.appended (Value.of? now j) es).map Value.document) :
    StillHas id j es text? ↔ ∃ now v, Value.of? now j = some v ∧ v.Takes es := by
  constructor
  · rintro ⟨raw', j', hraw', hj', now', hsame⟩
    obtain rfl := Option.some.inj (hraw.symm.trans hraw')
    obtain ⟨w, -, rfl⟩ := Option.map_eq_some_iff.mp (hfind.symm.trans hj')
    cases hv : Value.of? now' j with
    | some v =>
      rw [hv] at hsame
      exact ⟨now', v, hv, hsame.1⟩
    | none =>
      rw [hv] at hsame
      rw [← hsame, Value.of?_document] at hv
      cases hv
  · rintro ⟨now', v, hv, htakes⟩
    have hfits := Value.fits_of? now now' j .stack
    rw [hv] at hfits
    obtain ⟨w, hw, hsame⟩ := Option.map_eq_some_iff.mp hfits
    have htakes' : w.Takes es := htakes.imp_right hsame.trans
    obtain ⟨x, hx⟩ : ∃ x, Value.appended (some w) es = some x := by
      unfold Value.appended
      split
      · exact ⟨w, rfl⟩
      · exact ⟨_, rfl⟩
    rw [hw, hx] at hfind
    refine ⟨raw, x.document, hraw, hfind, now, ?_⟩
    rw [hw]
    exact ⟨htakes', (Value.of?_document now x).trans hx.symm⟩

/-- A fragment that is read as a value is never lost to what is asked of other variables, and a stack
is not lost to new entries either. A fragment that is read as no value is lost with the first thing
that is written, whatever that is, and a slot is lost with the first entry. -/
theorem stillHas_iff (hcovers : N.Covers s) (hblank : s.Blank) (hroot : s.store.root = some r)
    (hdefined : (Json.find? r.definitions id).isSome = true) (hremoved : id ∉ s.store.removed)
    (hchat : N.used chat) (hunread : s.store.usable? chat = none) {raw : List (String × Json)}
    (hraw : Storage.rawValues? (s.shelf.find? (Store.valuesName N.valuesStart chat)) = some raw)
    (hj : Json.find? raw id = some j) (hrun : Appending N id chat s es t)
    (hflush : exec Storage.flush t = (.ok (), u))
    (hwritable : ∀ vs, u.store.usable? chat = some vs →
      (ChatValues.document chat vs).writable = true) :
    StillHas id j es (u.shelf.find? (Store.valuesName N.valuesStart chat)) ↔
      (∃ now v, Value.of? now j = some v ∧ v.Takes es) ∨
        (∀ now, Value.of? now j = none) ∧
          u.shelf.find? (Store.valuesName N.valuesStart chat) =
            s.shelf.find? (Store.valuesName N.valuesStart chat) := by
  have hfirst (raw' : List (String × Json)) (hraw' : Storage.rawValues?
      (s.shelf.find? (Store.valuesName N.valuesStart chat)) = some raw') :
      Json.find? raw' id = some j := Option.some.inj (hraw.symm.trans hraw') ▸ hj
  have hnotGone : s.store.isGone r id = false := by
    unfold Store.isGone
    rw [Option.isNone_eq_false_iff.mpr hdefined, Bool.and_false, Bool.or_false]
    exact Bool.eq_false_iff.mpr fun hmem => hremoved (List.contains_iff_mem.mp hmem)
  have hcared : Cared N r chat id j _ es t := Cared.run hfirst hchat
    ⟨hcovers, hblank, hroot, hnotGone, fun _ => ⟨rfl, rfl⟩,
      0, fun _ hvs => absurd (hunread.symm.trans hvs) nofun⟩ hrun
  have hleft := Cared.ofFiles hfirst hcared ((Files.writing hchat).flush none t (hcared.files _))
  rw [hflush] at hleft
  rcases hleft.flushed (Storage.clean_of_flush hflush).2 hwritable with
    ⟨hsame, rfl⟩ | ⟨now, raw', hraw', hfind⟩
  · -- nothing was written, and nothing was appended
    rw [hsame]
    refine iff_of_true (stillHas_first hraw hj) ?_
    by_cases hvalue : ∃ now v, Value.of? now j = some v
    · obtain ⟨now, v, hv⟩ := hvalue
      exact .inl ⟨now, v, hv, .inl rfl⟩
    · refine .inr ⟨fun now => Option.eq_none_iff_forall_ne_some.mpr fun v hv => ?_, rfl⟩
      exact hvalue ⟨now, v, hv⟩
  · -- what was written for the variable, if anything, is read as a value
    refine (stillHas_written hraw' hfind).trans (or_iff_left ?_).symm
    rintro ⟨hnone, hsame⟩
    rw [hfirst raw' (hsame ▸ hraw')] at hfind
    obtain ⟨w, -, hw⟩ := Option.map_eq_some_iff.mp hfind.symm
    have hread := Value.of?_document now w
    rw [hw, hnone] at hread
    cases hread

/-- A root with two variables. -/
def Root.ofTwo : Root :=
  { Root.standard with definitions :=
    [("v", ⟨"v", "log", "[log]", .stack, 0, 0⟩), ("w", ⟨"w", "mood", "[mood]", .stack, 0, 0⟩)] }

/-- A fragment with entries that are none. -/
def Json.garbled : Json := .obj [("entries", .str "calm")]

/-- A storage that serves this root, and has a chat with such a fragment. -/
def Storage.garbled : Storage :=
  ⟨{ Store.empty "root" "values-" 0 0 with root := some .ofTwo },
    .ofDocuments [("root", Root.ofTwo.text),
      ("values-c.json", Json.render .page (.obj [("values", .obj [("v", .garbled)])]))],
    ⟨0, 0⟩, .start⟩

theorem Storage.rawValues?_garbled :
    rawValues? (garbled.shelf.find? (Store.valuesName "values-" "c")) = some [("v", .garbled)] := by
  have hkeyed : (Json.obj [("values", .obj [("v", .garbled)])]).Keyed :=
    ⟨List.nodup_singleton _, ⟨List.nodup_singleton _, ⟨List.nodup_singleton _, trivial, trivial⟩,
      trivial⟩, trivial⟩
  have hparse : Json.parseText (Json.render .page (.obj [("values", .obj [("v", .garbled)])])) =
      .ok (.obj [("values", .obj [("v", .garbled)])]) :=
    Json.parseText_render rfl hkeyed (by decide)
  change rawValues? (some (Json.render .page (.obj [("values", .obj [("v", .garbled)])]))) = _
  unfold rawValues?
  simp only [hparse]
  rfl

/-- One entry is added to `w`, and then nothing is left of the fragment of `v`. -/
theorem stillHas_iff_garbled : ∃ (N : Naming) (t u : Storage) (e : Entry),
    Appending N "v" "c" .garbled [] t ∧
      ended (Variables.addEntry "w" "c" "tense" "1") .garbled = (.ok e, t) ∧
      exec Storage.flush t = (.ok (), u) ∧
      StillHas "v" .garbled [] (Storage.garbled.shelf.find? (Store.valuesName "values-" "c")) ∧
      ¬ StillHas "v" .garbled [] (u.shelf.find? (Store.valuesName "values-" "c")) := by
  let N := Naming.ofChat "root" "values-" "c" (by decide)
  have hadded : (ended (Variables.addEntry "w" "c" "tense" "1") .garbled).1.isOk = true := by
    decide +kernel
  have hflushed : (exec Storage.flush
      (ended (Variables.addEntry "w" "c" "tense" "1") .garbled).2).1.isOk = true := by
    decide +kernel
  have hwritable : ((exec Storage.flush
      (ended (Variables.addEntry "w" "c" "tense" "1") .garbled).2).2.store.usable? "c").all
        (fun vs => (ChatValues.document "c" vs).writable) = true := by decide +kernel
  have hchanged : (exec Storage.flush
      (ended (Variables.addEntry "w" "c" "tense" "1") .garbled).2).2.shelf.find?
        (Store.valuesName "values-" "c") ≠
      Storage.garbled.shelf.find? (Store.valuesName "values-" "c") := by decide +kernel
  rcases hadd : ended (Variables.addEntry "w" "c" "tense" "1") .garbled with ⟨e | e, t⟩
  · rw [hadd] at hadded
    cases hadded
  rw [hadd] at hflushed hwritable hchanged
  rcases hflush : exec Storage.flush t with ⟨e' | ⟨⟩, u⟩
  · rw [hflush] at hflushed
    cases hflushed
  rw [hflush] at hwritable hchanged
  have hrun : Appending N "v" "c" .garbled [] t := by
    have hask : Appending N "v" "c" .garbled []
        (ended (Operation.perform (.ofVariables (.addEntry "w" "c" "tense" "1"))) .garbled).2 :=
      .ask _ ⟨rfl, rfl, fun _ => by decide⟩ .refl
    have hleft : (ended (Operation.perform (.ofVariables (.addEntry "w" "c" "tense" "1")))
        .garbled).2 = t := (ended_silent _ _).trans (by rw [hadd])
    rwa [hleft] at hask
  refine ⟨N, t, u, e, hrun, rfl, hflush,
    stillHas_first Storage.rawValues?_garbled rfl, fun hstill => ?_⟩
  have hread := (stillHas_iff (N := N) (r := .ofTwo) (s := .garbled)
    (.ofKeys rfl rfl nofun) ⟨nofun, nofun⟩ rfl rfl nofun rfl rfl Storage.rawValues?_garbled rfl
    hrun hflush fun vs hvs => by
      rw [hvs] at hwritable
      exact hwritable).mp hstill
  rcases hread with ⟨now, v, hv, -⟩ | ⟨-, hsame⟩
  · cases hv
  · exact hchanged hsame

end TagLedger
