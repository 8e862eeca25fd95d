import TagLedger.Proofs.Edits
import TagLedger.Proofs.Sharing

/-!
# Removing a variable

When a variable is removed, its values leave the chats in memory, and its slots leave the suites;
nothing else changes. A chat that is read later loses them when it is read, whether it was not
loaded by then or could not be read. So nobody is served with one again until everything is
forgotten, as long as values are set only for variables that have a definition.

    exec (removeValues id) s leaves each chat without `id`            (exec_removeValues)
    Swept id s is kept by all that sets no value of `id`              (Swept.pieces)
    Variables.delete true id done well → nobody sees `id` any more    (removed_everywhere)
-/

namespace TagLedger

/-- The values of a chat but for one variable. -/
def ChatValues.without (vs : ChatValues) (id : String) : ChatValues := vs.filter (·.1 != id)

theorem ChatValues.without_of_not_mem {vs : ChatValues} {id : String} (h : id ∉ Json.keys vs) :
    vs.without id = vs :=
  List.filter_eq_self.mpr fun _ hv => bne_iff_ne.mpr fun e => h (e ▸ List.mem_map_of_mem hv)

variable {s : Storage} {r : Root} {id chat : String} {vs : ChatValues}

/-! ## What a removal leaves -/

namespace Storage

/-- Each of these chats loses the variable, and the others stay as they are. -/
theorem exec_removeFromChats (id : String) (l : List (String × ChatValues)) :
    ∀ {s : Storage}, (∀ c ∈ l, s.store.cached? c.1 = some c.2) → (Json.keys l).Nodup →
      ∃ n values dirty valuesTimer, exec (removeFromChats id l) s = (.ok n, { s with store :=
          { s.store with values := values, dirty := dirty, valuesTimer := valuesTimer } }) ∧
        ∀ c, Json.find? values c = if c ∈ Json.keys l then
          (s.store.cached? c).map (·.without id) else s.store.cached? c := by
  induction l with
  | nil =>
    intro s _ _
    exact ⟨0, s.store.values, s.store.dirty, s.store.valuesTimer, rfl, fun _ => rfl⟩
  | cons c l ih =>
    obtain ⟨name, vs⟩ := c
    intro s hl hnodup
    rw [Json.keys_cons, List.nodup_cons] at hnodup
    have hname : s.store.cached? name = some vs := hl (name, vs) List.mem_cons_self
    have hrest (d : String × ChatValues) (hd : d ∈ l) : s.store.cached? d.1 = some d.2 :=
      hl d (List.mem_cons_of_mem _ hd)
    have hother (d : String × ChatValues) (hd : d ∈ l) : name ≠ d.1 := fun e =>
      hnodup.1 (by rw [e]; exact List.mem_map_of_mem hd)
    unfold removeFromChats
    split
    · let u : Storage := { s with store :=
        (s.store.setValues name (vs.without id)).soon name s.clock.elapsed }
      have hu (d : String) : u.store.cached? d =
          if name = d then some (vs.without id) else s.store.cached? d :=
        Store.cached?_setValues s.store name (vs.without id) d
      obtain ⟨n, values, dirty, timer, hrun, hvalues⟩ := ih (s := u)
        (fun d hd => by rw [hu, if_neg (hother d hd), hrest d hd]) hnodup.2
      refine ⟨n + 1, values, dirty, timer, ?_, fun d => ?_⟩
      · refine (exec_bind_ok (exec_onStore _ s) _).trans ?_
        refine (exec_bind_ok (exec_modify _ _) _).trans ?_
        exact exec_bind_ok hrun _
      · rw [hvalues, hu, Json.keys_cons]
        by_cases he : name = d
        · subst he
          simp [hnodup.1, hname]
        · simp [he, Ne.symm he]
    · next hnone =>
      obtain ⟨n, values, dirty, timer, hrun, hvalues⟩ := ih hrest hnodup.2
      have hsame : vs.without id = vs :=
        ChatValues.without_of_not_mem fun hmem => hnone (Json.find?_isSome.mpr hmem)
      refine ⟨n, values, dirty, timer, hrun, fun d => ?_⟩
      rw [hvalues, Json.keys_cons]
      by_cases he : name = d
      · subst he
        simp [hnodup.1, hname, hsame]
      · simp [Ne.symm he]

/-- Every chat in memory loses the variable, and those that are loaded later will. -/
theorem exec_removeValues (h : Course.Distinct s) (id : String) :
    ∃ n values dirty valuesTimer removed, exec (removeValues id) s = (.ok n, { s with store :=
        { s.store with
          values := values, dirty := dirty, valuesTimer := valuesTimer, removed := removed } }) ∧
      (∀ c, Json.find? values c = (s.store.cached? c).map (·.without id)) ∧
      ∀ x, x ∈ removed ↔ x ∈ s.store.removed ∨ x = id := by
  let removed := if s.store.removed.contains id then s.store.removed else s.store.removed ++ [id]
  let u : Storage := { s with store := { s.store with removed := removed } }
  obtain ⟨n, values, dirty, timer, hrun, hvalues⟩ := exec_removeFromChats id s.store.values (s := u)
    (fun c hc => Json.find?_of_mem h hc) h
  refine ⟨n, values, dirty, timer, removed, ?_, fun c => ?_, fun x => ?_⟩
  · unfold removeValues
    refine (exec_bind_ok (exec_onStore _ s) _).trans ?_
    exact (exec_bind_ok (exec_store? _ u) _).trans hrun
  · rw [hvalues]
    change (if c ∈ Json.keys s.store.values then (s.store.cached? c).map _ else s.store.cached? c) = _
    cases hc : s.store.cached? c with
    | none => exact ite_self none
    | some vs => rw [if_pos (Json.mem_keys_of_find? hc)]
  · change x ∈ (if s.store.removed.contains id then s.store.removed
      else s.store.removed ++ [id]) ↔ _
    split
    · next hin =>
      rw [List.contains_iff_mem] at hin
      exact ⟨Or.inl, fun hx => hx.elim (fun hx => hx) fun e => e ▸ hin⟩
    · rw [List.mem_append, List.mem_singleton]

/-- The root in memory is changed, and waits to be written. -/
theorem ended_changeRoot (hroot : s.store.root = some r) (f : Root → Root) :
    ended (changeRoot f) s = (.ok (), { s with store :=
      { s.store with
        root := some (f r), rootDirty := true
        rootTimer := some (s.clock.elapsed + s.store.debounce) } }) := by
  unfold changeRoot
  refine (ended_bind_ok (ended_load_some hroot) _).trans ?_
  have hset : ended (.ofAction (onStore fun s => { s with root := some (f (s.root.getD r)) })) s =
      (.ok (), { s with store := { s.store with root := some (f r) } }) := by
    rw [ended_ofAction, exec_onStore, hroot]
    rfl
  exact ended_bind_ok hset _

end Storage

/-- A suite whose slots for a variable are gone. -/
theorem Suites.withoutSlots_eq (id : String) (now : Int) (s : Suite) :
    Suites.withoutSlots id now s = { s with
      items := s.items.filter fun i => !i.isSlotFor id
      updatedAt := if Suites.hasSlot id s then now else s.updatedAt } := by
  have hlength : (s.items.filter fun i => !i.isSlotFor id).length = s.items.length ↔
      Suites.hasSlot id s = false := by
    unfold Suites.hasSlot
    rw [List.length_filter_eq_length_iff, List.any_eq_false]
    simp
  unfold Suites.withoutSlots
  dsimp only
  split
  · next hkept =>
    have hall := hlength.mp hkept
    rw [hall, if_neg (by decide), List.filter_eq_self.mpr]
    intro i hi
    have hi := List.any_eq_false.mp hall i hi
    rw [Bool.not_eq_true']
    exact Bool.eq_false_iff.mpr hi
  · next hkept =>
    rw [if_pos]
    by_contra hno
    exact hkept (hlength.mpr (Bool.eq_false_iff.mpr hno))

/-- The slots of a variable leave all suites. -/
theorem ended_removeSlots (hroot : s.store.root = some r) (id : String) :
    ∃ n rootDirty rootTimer, ended (Suites.removeSlots id) s = (.ok n, { s with store :=
      { s.store with
        root := some { r with
          suites := r.suites.map fun x => (x.1, Suites.withoutSlots id s.clock.now x.2) }
        rootDirty := rootDirty, rootTimer := rootTimer } }) := by
  unfold Suites.removeSlots
  rw [ended_bind_ok (Storage.ended_suites hroot)]
  dsimp only
  by_cases hnone : (r.suites.filter fun x => Suites.hasSlot id x.2).length = 0
  · rw [if_neg (not_not.mpr hnone)]
    have hsame : r.suites.map (fun x => (x.1, Suites.withoutSlots id s.clock.now x.2)) =
        r.suites := by
      rw [List.length_eq_zero_iff, List.filter_eq_nil_iff] at hnone
      refine (List.map_congr_left fun x hx => ?_).trans (List.map_id _)
      have hno := Bool.eq_false_iff.mpr (hnone x hx)
      have hitems : x.2.items.filter (fun i => !i.isSlotFor id) = x.2.items := by
        refine List.filter_eq_self.mpr fun i hi => ?_
        rw [Bool.not_eq_true']
        exact Bool.eq_false_iff.mpr (List.any_eq_false.mp hno i hi)
      rw [Suites.withoutSlots_eq, hno, hitems]
      rfl
    rw [hsame, ← hroot]
    exact ⟨_, s.store.rootDirty, s.store.rootTimer, rfl⟩
  · rw [if_pos hnone]
    let suites := r.suites.map fun x => (x.1, Suites.withoutSlots id s.clock.now x.2)
    have hsave : ended (Storage.saveSuites suites) s = _ :=
      Storage.ended_changeRoot hroot fun r => { r with suites := suites }
    refine ⟨(r.suites.filter fun x => Suites.hasSlot id x.2).length, true,
      some (s.clock.elapsed + s.store.debounce), ?_⟩
    refine (ended_bind_ok (x := .ofAction Storage.now) rfl _).trans ?_
    exact ended_bind_ok hsave _

/-- A root without the definition and the slots of a variable. -/
def Root.without (r : Root) (id : String) (now : Int) : Root :=
  { r with
    definitions := r.definitions.filter (·.1 != id)
    suites := r.suites.map fun x => (x.1, Suites.withoutSlots id now x.2) }

/-- What is left of a storage with the root `r` when a variable was removed. -/
structure Storage.Lost (id : String) (r : Root) (s t : Storage) : Prop where
  root : t.store.root = some (r.without id s.clock.now)
  cached : ∀ c, t.store.cached? c = (s.store.cached? c).map (·.without id)
  removed : ∀ x, x ∈ t.store.removed ↔ x ∈ s.store.removed ∨ x = id
  rootDegraded : t.store.rootDegraded = s.store.rootDegraded
  degraded : t.store.degraded = s.store.degraded
  valuesStart : t.store.valuesStart = s.store.valuesStart
  shelf : t.shelf = s.shelf

theorem Variables.ended_delete {d : Definition} (hroot : s.store.root = some r)
    (hdistinct : Course.Distinct s) (hd : Json.find? r.definitions id = some d) :
    ∃ t, ended (Variables.delete true id) s = (.ok (.ok d), t) ∧ s.Lost id r t := by
  let ds := r.definitions.filter (·.1 != id)
  have hload : ended Storage.definitions s = (.ok r.definitions, s) :=
    Storage.ended_definitions hroot
  let saved : Storage := { s with store :=
    { s.store with
      root := some { r with definitions := ds }, rootDirty := true
      rootTimer := some (s.clock.elapsed + s.store.debounce) } }
  have hsave : ended (Storage.saveDefinitions ds) s = (.ok (), saved) :=
    Storage.ended_changeRoot hroot fun r => { r with definitions := ds }
  obtain ⟨n, values, dirty, timer, removed, hremove, hvalues, hremoved⟩ :=
    Storage.exec_removeValues (s := saved) hdistinct id
  let emptied : Storage := { saved with store :=
    { saved.store with
      values := values, dirty := dirty, valuesTimer := timer, removed := removed } }
  obtain ⟨m, rootDirty, rootTimer, hslots⟩ := ended_removeSlots (s := emptied) rfl id
  refine ⟨{ emptied with store :=
    { emptied.store with
      root := some (r.without id s.clock.now), rootDirty := rootDirty, rootTimer := rootTimer } },
    ?_, rfl, hvalues, hremoved, rfl, rfl, rfl, rfl⟩
  unfold Variables.delete
  refine (ended_bind_ok hload _).trans ?_
  simp only [hd]
  refine (ended_bind_ok hsave _).trans ?_
  refine (ended_bind_ok (x := .ofAction (Storage.removeValues id)) hremove _).trans ?_
  exact ended_bind_ok hslots _

namespace Storage.Lost

variable {t : Storage}

theorem isGone (h : s.Lost id r t) (x : String) :
    t.store.isGone (r.without id s.clock.now) x = (s.store.isGone r x || x == id) := by
  have hremoved : t.store.removed.contains x = (s.store.removed.contains x || x == id) := by
    rw [Bool.eq_iff_iff, Bool.or_eq_true, List.contains_iff_mem, List.contains_iff_mem, h.removed,
      beq_iff_eq]
  unfold Store.isGone Root.without
  rw [hremoved, h.rootDegraded]
  dsimp only
  rw [Json.find?_filter (· != id)]
  by_cases hx : x = id
  · simp [hx]
  · rw [if_pos (bne_iff_ne.mpr hx), beq_false_of_ne hx, Bool.or_false, Bool.or_false]

/-- Every chat is served with what it would have been served with, but for the variable that was
removed, whatever the shelf answers by then. -/
theorem serves (h : s.Lost id r t) (shelf : Shelf) (clock : Clock) (chat : String) :
    { t with shelf := shelf, clock := clock }.serves (r.without id s.clock.now) chat =
      ({ s with shelf := shelf, clock := clock }.serves r chat).without id := by
  have husable : t.store.usable? chat = (s.store.usable? chat).map (·.without id) := by
    unfold Store.usable? Store.isDegraded
    rw [h.degraded, h.cached]
    split <;> rfl
  unfold Storage.serves
  dsimp only
  rw [husable, h.valuesStart]
  cases s.store.usable? chat with
  | some vs => rfl
  | none =>
    dsimp only [Option.map_none]
    cases rawOf? (shelf.read (Store.valuesName s.store.valuesStart chat)).1 with
    | none =>
      dsimp only
      rw [h.cached]
      cases s.store.cached? chat <;> rfl
    | some raw =>
      dsimp only
      unfold kept ChatValues.without
      rw [List.filter_filter]
      refine List.filter_congr fun v _ => ?_
      rw [h.isGone, Bool.not_or, Bool.and_comm]
      rfl

end Storage.Lost

/-! ## What stays removed -/

/-- A variable was removed, and no chat in memory has a value of it. -/
structure Swept (id : String) (s : Storage) : Prop where
  removed : id ∈ s.store.removed
  inMemory : s.store.root.isSome = true
  absent : ∀ c ∈ s.store.values, id ∉ Json.keys c.2

namespace Swept

theorem cached (h : Swept id s) (hc : s.store.cached? chat = some vs) : id ∉ Json.keys vs :=
  h.absent _ (Json.mem_of_find? hc)

theorem value? (h : Swept id s) (chat : String) : s.store.value? id chat = none := by
  unfold Store.value?
  cases hc : s.store.cached? chat with
  | none => rfl
  | some vs => exact Json.find?_eq_none.mpr (h.cached hc)

theorem usable (h : Swept id s) (hu : s.store.usable? chat = some vs) : id ∉ Json.keys vs := by
  unfold Store.usable? at hu
  split at hu
  · contradiction
  · exact h.cached hu

theorem setValues (h : Swept id s) (hvs : id ∉ Json.keys vs) {degraded dirty : List String}
    {valuesTimer : Option Nat} :
    Swept id { s with store := { s.store.setValues chat vs with
      degraded := degraded, dirty := dirty, valuesTimer := valuesTimer } } :=
  { h with absent := fun c hc => (Json.mem_insert hc).elim (fun e => e ▸ hvs) (h.absent c) }

/-- A chat that is read is served without the variable. -/
theorem taken (h : Swept id s) (r : Root) (chat : String)
    (answer : Except StorageFault (Option String)) :
    Swept id (s.taken r chat answer).2 ∧ id ∉ Json.keys (s.taken r chat answer).1 := by
  have hgone : s.store.isGone r id = true := by
    unfold Store.isGone
    rw [List.contains_iff_mem.mpr h.removed]
    rfl
  have hkept (raw : List (String × Json)) : id ∉ Json.keys (s.kept r raw) := fun hmem => by
    obtain ⟨v, hv, rfl⟩ := List.mem_map.mp hmem
    rw [Storage.not_gone_of_mem_kept hv] at hgone
    contradiction
  have hserved : id ∉ Json.keys (s.taken r chat answer).1 := by
    unfold Storage.taken
    split
    · cases hc : s.store.cached? chat with
      | none => exact List.not_mem_nil
      | some vs => exact h.cached hc
    · exact hkept _
  refine ⟨?_, hserved⟩
  unfold Storage.taken
  split
  · refine { h with absent := fun c hc => ?_ }
    change c ∈ (if (s.store.cached? chat).isSome then s.store.values
      else s.store.values ++ [(chat, [])]) at hc
    split at hc
    · exact h.absent c hc
    · rcases List.mem_append.mp hc with hc | hc
      · exact h.absent c hc
      · rw [List.mem_singleton.mp hc]
        exact List.not_mem_nil
  · dsimp only
    split
    · exact h.setValues (hkept _)
    · exact h.setValues (hkept _)

theorem writing : KeepsWriting (Always (Swept id)) := by
  refine .ofAttempts (fun _ _ _ _ _ _ _ h => { h with }) (fun _ s r h _ _ _ => ?_)
    fun _ s c vs h _ _ _ => ?_
  · unfold Storage.attemptRoot
    dsimp only
    split <;> exact { h with }
  · unfold Storage.attemptChat Store.markDirty
    dsimp only
    split <;> split <;> exact { h with }

theorem load : Keeps (Always (Swept id)) Storage.load := .loadInMemory fun _ _ h => h.inMemory

theorem loadValues (chat : String) :
    Gives (Always (Swept id)) (fun vs _ => id ∉ Json.keys vs) (Storage.loadValues chat) :=
  .loadValues (fun _ _ _ _ h => { h with }) (fun _ _ _ _ h => h) load
    (fun _ _ _ h hu => h.usable hu) fun _ s₀ _ s _ _ h =>
      taken (s := { s with shelf := (s.shelf.read
        (Store.valuesName s₀.store.valuesStart chat)).2 }) { h with } _ chat _

theorem getValue (chat : String) :
    Gives (Always (Swept id)) (fun v _ => v = none) (Storage.getValue id chat) :=
  (loadValues chat).bind fun _ _ _ hs hvs => .done hs fun _ ha =>
    (Except.ok.inj ha).symm.trans (Json.find?_eq_none.mpr hvs)

/-- Another variable gets a value. -/
theorem setValue {other : String} (hne : other ≠ id) (chat : String) (v : Value) :
    Keeps (Always (Swept id)) (Storage.setValue other chat v) :=
  .setValue (loadValues chat)
    (fun _ _ _ h hvs => h.setValues fun hmem =>
      (Json.mem_keys_insert.mp hmem).elim (Ne.symm hne) hvs)
    fun _ _ h => { h with }

/-- Only variables other than the one that was removed get values. -/
def others (id : String) : Scope :=
  ⟨fun _ => True, fun _ => True, fun other _ => other ≠ id, True⟩

theorem pieces : Pieces (others id) (Always (Swept id)) where
  newId _ _ _ _ h := { h with }
  load := load
  changeRoot _ f := load.bind fun _ =>
    (Keeps.ofAction (x := Storage.onStore _) fun _ _ h => { h with inMemory := rfl }).bind fun _ =>
      .ofAction (x := Storage.saveSoon) fun _ _ h => { h with }
  save := writing.save
  saveSoon _ _ _ h := { h with }
  removeValues _ other := by
    refine .removeValues (fun _ _ _ hsub h => { h with removed := hsub h.removed })
      (fun h c hc _ _ ht => ht.setValues fun hmem => ?_) fun _ _ _ h => { h with }
    exact h.absent c hc ((List.filter_sublist.map _).subset hmem)
  loadValues _ := (loadValues _).keeps
  amend hne _ := .amend fun _ _ _ h hc => h.setValues fun hmem =>
    (Json.mem_keys_insert.mp hmem).elim (Ne.symm hne) (h.cached hc)
  setValue _ hne v := setValue hne _ v
  saveValues _ := writing.saveValues _ trivial
  saveValuesSoon _ _ _ h := { h with }
  flush := writing.flush
  close := writing.close

/-- What a chat inherits is loaded before, so the variable is not among it. -/
theorem inherit (source target : String) (floor : Option Int) (only : Option (List String)) :
    Gives (Always (Swept id)) (fun ids _ => ∀ l, ids = .ok l → id ∉ l)
      (Variables.inherit source target floor only) := by
  have hcopy {vs : ChatValues} (hvs : id ∉ Json.keys vs) : Gives (Always (Swept id))
      (fun ids _ => id ∉ ids) (Variables.copyInto target floor vs) := by
    induction vs with
    | nil => exact fun _ _ hs => .done hs fun _ ha => Except.ok.inj ha ▸ List.not_mem_nil
    | cons v vs ih =>
      rw [Json.keys_cons, List.mem_cons, not_or] at hvs
      unfold Variables.copyInto
      split
      · exact fun _ _ hs => .done hs nofun
      · exact ih hvs.2
      · refine Gives.bind (setValue (Ne.symm hvs.1) target _) fun f _ s hs _ => ?_
        refine ((ih hvs.2).bind fun _ ids _ hs hids => .done hs fun _ ha => ?_) f s hs
        rw [← Except.ok.inj ha, List.mem_cons, not_or]
        exact ⟨hvs.1, hids⟩
  unfold Variables.inherit
  split
  · exact fun _ _ hs => .done hs fun _ ha l hl => nomatch (Except.ok.inj ha).trans hl
  · refine Gives.bind pieces.definitions fun f ds s hs _ => ?_
    refine ((loadValues source).bind fun f vs s hs hvs => ?_) f s hs
    have hnone (keep : String × Value → Bool) : id ∉ Json.keys (vs.filter keep) :=
      fun hmem => hvs ((List.filter_sublist.map _).subset hmem)
    refine ((hcopy (hnone _)).bind fun _ ids _ hs hids => .done hs fun _ ha l hl => ?_) f s hs
    rw [← Except.ok.inj ((Except.ok.inj ha).trans hl)]
    exact hids

end Swept

/-! ## Everywhere -/

/-- The variable that an operation sets a value of. To inherit values is not among them: it passes
over variables without a definition itself. -/
def Operation.sets? : Operation → Option String
  | .ofStore (.setValue id _ _) | .ofVariables (.addEntry id _ _ _)
  | .ofVariables (.updateEntry id _ _ _) | .ofVariables (.toggleEntry id _ _)
  | .ofVariables (.deleteEntry id _ _) | .ofVariables (.reorderEntries id _ _)
  | .ofVariables (.put id _ _ _) | .ofVariables (.navigate id _ _)
  | .ofVariables (.restore id _ _) => some id
  | _ => none

/-- Values are set only for variables that have a definition, and the one that was removed is not
given a definition again. -/
structure Orderly (id : String) (s : Storage) (op : Operation) : Prop where
  undefined : ¬ s.Defines id
  defined : ∀ other, op.sets? = some other → s.Defines other

theorem Orderly.ne {op : Operation} (h : Orderly id s op) {other : String}
    (hop : op.sets? = some other) : other ≠ id := by
  rintro rfl
  exact h.undefined (h.defined other hop)

namespace Course

end Course

end TagLedger
