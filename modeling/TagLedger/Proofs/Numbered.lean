import TagLedger.Proofs.StoredTexts
import TagLedger.Variable.Operation

/-!
# Numbered stacks

The identifiers in a stack are distinct, and all of them lie below the one that comes next. Every
change of a stack keeps it so: entries join at the end with the next identifier, leave, or change
their places. A document that is written with such stacks gives such stacks when it is read.

    s.Numbered → (s.push content floors time).Numbered                           (Numbered.push)
    s.Numbered → ((s.reorder? ids).isSome ↔ ids.Perm (s.entries.map (·.id)))  (reorder?_isSome_iff)
    vs.Numbered → NumberedText (ChatValues.text chat vs)                        (numberedText_values)
-/

namespace TagLedger

open Schema Storage

/-! ## Stacks -/

/-- The identifiers are distinct, and all below the next one. -/
structure Stack.Numbered (s : Stack) : Prop where
  distinct : (s.entries.map (·.id)).Nodup
  below : ∀ id ∈ s.entries.map (·.id), id < s.nextId

namespace Stack

variable {s t : Stack} {ids : List Int}

theorem numbered_empty : empty.Numbered := ⟨List.nodup_nil, nofun⟩

theorem Numbered.push (h : s.Numbered) (content floors : String) (time : Int) :
    (s.push content floors time).Numbered := by
  have hids : (s.push content floors time).entries.map (·.id) =
      s.entries.map (·.id) ++ [s.nextId] := List.map_append
  refine ⟨?_, fun id hid => ?_⟩
  · rw [hids]
    refine List.nodup_append'.mpr ⟨h.distinct, List.nodup_singleton _, fun id hid hnew => ?_⟩
    exact absurd (h.below id hid) (by rw [List.mem_singleton.mp hnew]; exact lt_irrefl _)
  · rw [hids, List.mem_append, List.mem_singleton] at hid
    rw [nextId_push]
    rcases hid with hid | rfl
    · exact Int.lt_add_one_of_le (le_of_lt (h.below id hid))
    · exact Int.lt_succ _

theorem ids_modify (s : Stack) (id : Int) {f : Entry → Entry} (hf : ∀ e, (f e).id = e.id) :
    (s.modify id f).entries.map (·.id) = s.entries.map (·.id) := by
  have hgo (l : List Entry) : (modify.go id f l).map (·.id) = l.map (·.id) := by
    induction l with
    | nil => rfl
    | cons e l ih =>
      unfold modify.go
      split
      · rw [List.map_cons, List.map_cons, hf]
      · rw [List.map_cons, List.map_cons, ih]
  exact hgo s.entries

theorem Numbered.modify (h : s.Numbered) (id : Int) {f : Entry → Entry}
    (hf : ∀ e, (f e).id = e.id) : (s.modify id f).Numbered := by
  refine ⟨?_, ?_⟩
  · rw [ids_modify s id hf]
    exact h.distinct
  · rw [ids_modify s id hf]
    exact h.below

/-- Entries may leave. -/
theorem Numbered.sublist (h : s.Numbered) {l : List Entry} (hl : l.Sublist s.entries) :
    Numbered { s with entries := l } :=
  ⟨h.distinct.sublist (hl.map _), fun id hid => h.below id ((hl.map _).subset hid)⟩

theorem Numbered.erase (h : s.Numbered) (id : Int) : (s.erase id).Numbered :=
  h.sublist List.eraseP_sublist

/-- Entries may change their places. -/
theorem Numbered.perm (h : s.Numbered) (hperm : t.entries.Perm s.entries)
    (hnext : t.nextId = s.nextId) : t.Numbered :=
  ⟨(hperm.map _).nodup_iff.mpr h.distinct, fun id hid =>
    hnext ▸ h.below id ((hperm.map _).subset hid)⟩

/-! ### Other orders -/

theorem findLast?_id (h : s.Numbered) {e : Entry} (he : e ∈ s.entries) :
    s.findLast? e.id = some e := by
  have hdistinct : (s.entries.reverse.map (·.id)).Nodup := by
    rw [List.map_reverse]
    exact List.nodup_reverse.mpr h.distinct
  have hmem : e ∈ s.entries.reverse := List.mem_reverse.mpr he
  have hfound : (s.entries.reverse.find? fun x => x.id == e.id).isSome = true :=
    List.find?_isSome.mpr ⟨e, hmem, beq_self_eq_true _⟩
  obtain ⟨x, hx⟩ := Option.isSome_iff_exists.mp hfound
  have hsaid := List.find?_some hx
  have hid : x.id = e.id := beq_iff_eq.mp hsaid
  have hsame := List.inj_on_of_nodup_map hdistinct (List.mem_of_find?_eq_some hx) hmem hid
  exact hx.trans (congrArg some hsame)

/-- An order of the identifiers gives the entries in this order. -/
theorem of_perm (h : s.Numbered) (hperm : ids.Perm (s.entries.map (·.id))) :
    (ids.filterMap s.findLast?).map (·.id) = ids ∧
      (ids.filterMap s.findLast?).Perm s.entries := by
  have hkept {l : List Entry} (hl : ∀ e ∈ l, e ∈ s.entries) :
      (l.map (·.id)).filterMap s.findLast? = l := by
    induction l with
    | nil => rfl
    | cons e l ih =>
      rw [List.forall_mem_cons] at hl
      rw [List.map_cons, List.filterMap_cons, findLast?_id h hl.1, ih hl.2]
  have hall : (ids.filterMap s.findLast?).Perm s.entries := by
    have hsame := hperm.filterMap s.findLast?
    rwa [hkept fun _ he => he] at hsame
  refine ⟨?_, hall⟩
  have hids {l : List Int} (hl : ∀ id ∈ l, id ∈ s.entries.map (·.id)) :
      (l.filterMap s.findLast?).map (·.id) = l := by
    induction l with
    | nil => rfl
    | cons id l ih =>
      rw [List.forall_mem_cons] at hl
      obtain ⟨e, he, rfl⟩ := List.mem_map.mp hl.1
      rw [List.filterMap_cons, findLast?_id h he, List.map_cons, ih hl.2]
  exact hids fun id hid => hperm.subset hid

/-- A new order is taken exactly if it is an order of the identifiers. -/
theorem reorder?_eq_some_iff (h : s.Numbered) : s.reorder? ids = some t ↔
    ids.Perm (s.entries.map (·.id)) ∧ t = { s with entries := ids.filterMap s.findLast? } := by
  have hkept {l : List Int} (hl : l.Nodup) : l.eraseDups = l := by
    induction l with
    | nil => rfl
    | cons id l ih =>
      rw [List.nodup_cons] at hl
      have hothers : l.filter (fun x => !x == id) = l := List.filter_eq_self.mpr fun x hx => by
        rw [Bool.not_eq_true', beq_eq_false_iff_ne]
        exact fun e => hl.1 (e ▸ hx)
      rw [List.eraseDups_cons, hothers, ih hl.2]
  have hdistinct := hkept h.distinct
  unfold reorder?
  dsimp only
  rw [hdistinct]
  have hcond : (ids.length = (s.entries.map (·.id)).length ∧
      (∀ i ∈ ids, i ∈ s.entries.map (·.id)) ∧ ∀ i ∈ s.entries.map (·.id), i ∈ ids) ↔
        ids.Perm (s.entries.map (·.id)) := by
    constructor
    · rintro ⟨hlength, -, hsub⟩
      exact ((h.distinct.subperm hsub).perm_of_length_le hlength.le).symm
    · intro hperm
      exact ⟨hperm.length_eq, hperm.subset, hperm.symm.subset⟩
  split
  · next hc => exact ⟨fun ht => ⟨hcond.mp hc, (Option.some.inj ht).symm⟩, fun ht => ht.2 ▸ rfl⟩
  · next hc => exact ⟨nofun, fun ht => absurd (hcond.mpr ht.1) hc⟩

theorem reorder?_isSome_iff (h : s.Numbered) :
    (s.reorder? ids).isSome = true ↔ ids.Perm (s.entries.map (·.id)) := by
  rw [Option.isSome_iff_exists]
  exact ⟨fun ⟨_, ht⟩ => ((reorder?_eq_some_iff h).mp ht).1,
    fun hperm => ⟨_, (reorder?_eq_some_iff h).mpr ⟨hperm, rfl⟩⟩⟩

end Stack

/-! ## Values -/

/-- A stack is numbered, and other values have no numbers. -/
def Value.Numbered : Value → Prop
  | .stack s => s.Numbered
  | .slot _ => True

theorem Value.Numbered.branch {v w : Value} {floor : Option Int} (h : v.Numbered)
    (hw : v.branch floor = .ok (some w)) : w.Numbered := by
  have hsublist {f : Int} (es : List Entry) {kept : List Entry}
      (hkept : entriesUpTo f es = .ok kept) : kept.Sublist es := by
    induction es generalizing kept with
    | nil =>
      cases hkept
      exact List.Sublist.slnil
    | cons e es ih =>
      unfold entriesUpTo at hkept
      split at hkept
      · cases hkept
      · next keep _ =>
        obtain ⟨rest, hrest, rfl⟩ := map_eq_ok hkept
        cases keep with
        | true => exact (ih hrest).cons_cons e
        | false => exact (ih hrest).cons e
  unfold Value.branch at hw
  cases floor with
  | none =>
    cases hw
    exact h
  | some f =>
    cases v with
    | stack s =>
      obtain ⟨es, hes, hv⟩ := map_eq_ok hw
      split at hv
      · cases hv
      · cases hv
        exact Stack.Numbered.sublist h (hsublist s.entries hes)
    | slot s =>
      dsimp only at hw
      split at hw
      · cases hw
      · obtain ⟨keep, -, hv⟩ := map_eq_ok hw
        cases keep with
        | true =>
          cases hv
          exact trivial
        | false => cases hv

namespace ChatValues

/-- Every stack among the values of a chat is numbered. -/
def Numbered (vs : ChatValues) : Prop := ∀ v ∈ vs, v.2.Numbered

/-- The stack of a variable among the values of a chat, if only an empty one. -/
def stack (vs : ChatValues) (id : String) : Stack :=
  ((Json.find? vs id).map Value.stackOf).getD .empty

variable {vs : ChatValues} {id : String}

theorem Numbered.stack (h : vs.Numbered) (id : String) : (vs.stack id).Numbered := by
  unfold ChatValues.stack
  cases hv : Json.find? vs id with
  | none => exact Stack.numbered_empty
  | some v =>
    have hnumbered := h _ (Json.mem_of_find? hv)
    cases v with
    | stack s => exact hnumbered
    | slot s => exact Stack.numbered_empty

theorem Numbered.insert (h : vs.Numbered) (id : String) {v : Value} (hv : v.Numbered) :
    Numbered (Json.insert vs id v) := fun x hx =>
  (Json.mem_insert hx).elim (fun e => e ▸ hv) (h x)

theorem stack_insert (vs : ChatValues) (id other : String) (s : Stack) :
    ChatValues.stack (Json.insert vs id (.stack s)) other =
      if id = other then s else vs.stack other := by
  unfold ChatValues.stack
  rw [Json.find?_insert]
  split <;> rfl

end ChatValues

/-! ## Texts -/

/-- Whoever reads the text, as the values of a chat or as an older root, gets numbered stacks. -/
structure NumberedText (t : String) : Prop where
  values : ∀ now raw, rawValues? (some t) = some raw →
    ChatValues.Numbered (readValues ⟨now, false⟩ raw)
  moved : ∀ now r chats, RootReading.ofText ⟨now, false⟩ t = .root r (some chats) →
    ∀ c ∈ chats, ChatValues.Numbered c.2

theorem numberedText_values {vs : ChatValues} (hk : (Json.keys vs).Nodup) (h : vs.Numbered)
    {chat : String} (hw : (ChatValues.document chat vs).writable = true) :
    NumberedText (ChatValues.text chat vs) where
  values now raw hraw := by
    rw [rawValues?_text hk chat hw] at hraw
    obtain rfl := Option.some.inj hraw
    rw [readValues_documents]
    exact h
  moved now r chats hof := by
    obtain ⟨fields, m, hparse, hversion, -⟩ := older_of_ofText hof
    have htext : Json.parseText (ChatValues.text chat vs) = .ok (ChatValues.document chat vs) :=
      Json.parseText_render rfl (ChatValues.keyed_document hk chat) hw
    rw [htext] at hparse
    cases hparse
    exact absurd rfl hversion

theorem numberedText_root {r : Root} (h : { r with version := Root.currentVersion }.Sound)
    (hw : r.document.writable = true) : NumberedText r.text := by
  have hkeyed : r.document.Keyed := by
    have hdocument := Root.keyed_document h
    unfold Root.document at hdocument ⊢
    simp only [Json.Keyed, Json.KeyedFields] at hdocument ⊢
    exact hdocument
  have htext : Json.parseText r.text = .ok r.document := Json.parseText_render rfl hkeyed hw
  refine ⟨fun now raw hraw => ?_, fun now r' chats hof c hc => ?_⟩
  · unfold rawValues? at hraw
    dsimp only at hraw
    rw [htext] at hraw
    cases hraw
    exact fun v hv => by cases hv
  · obtain ⟨fields, m, hparse, -, hfirst, -, rfl⟩ := older_of_ofText hof
    rw [htext] at hparse
    cases hparse
    unfold Migration.fromFirst at hfirst
    simp only at hfirst
    obtain ⟨items, -, hfirst⟩ := bind_eq_ok hfirst
    obtain ⟨moved, -, hfirst⟩ := bind_eq_ok hfirst
    obtain ⟨enabled, -, hfirst⟩ := bind_eq_ok hfirst
    obtain ⟨api, -, hfirst⟩ := bind_eq_ok hfirst
    obtain ⟨suites, -, hfirst⟩ := bind_eq_ok hfirst
    obtain ⟨none', hchats, hfirst⟩ := bind_eq_ok hfirst
    cases hfirst
    cases hchats
    cases hc

end TagLedger
