import TagLedger.Proofs.Numbering

/-!
# Versions of a slot

Contents are made current one after another, new ones and ones of the history again, and the cursor
moves. The history is the row of all versions that were current before, those without content left
out, in the order in which they stopped being current; so it only grows, at its end.

    made current: v₁, …, vₖ  →  history = the non-empty ones of empty, v₁, …, vₖ₋₁   (Slot.Recalls)
    a run on a slot that was empty  →  Recalls, and each call does what it should    (versions_kept)
-/

namespace TagLedger

variable {s t u : Storage} {chat id : String} {vs : ChatValues}

/-! ## Versions -/

/-- A content with the floors that it was drawn from. -/
structure Version where
  content : String
  floors : String
  deriving DecidableEq

def Entry.version (e : Entry) : Version := ⟨e.content, e.floors⟩

namespace Slot

variable {x y : Slot} {made : List Version} {now : Int}

/-- The current version. -/
def version (x : Slot) : Version := ⟨x.current, x.label⟩

/-- How the floors of a new content are shown. -/
def shownFloors (floors : String) : String := if floors = "" then "0" else floors

/-- A version has replaced the current one, which joins the history unless it has no content. -/
structure Replaced (x y : Slot) (v : Version) (now : Int) : Prop where
  version : y.version = v
  history : y.history = x.history ++
    if x.current = "" then [] else [⟨x.history.length + 1, x.current, x.label, now, false⟩]
  cursor : y.cursor = -1

/-- Since the slot was empty, these versions were made current in it, one after another. -/
structure Recalls (x : Slot) (made : List Version) : Prop where
  versions : ∃ earlier, Slot.empty.version :: made = earlier ++ [x.version] ∧
    x.history.map Entry.version = earlier.filter (·.content ≠ "")
  ids : x.history.map (·.id) = (List.range x.history.length).map fun (i : Nat) => (i : Int) + 1
  floors : ∀ e ∈ x.history, e.floors ≠ ""
  floor : x.floor = none

theorem label_put (x : Slot) (content floors : String) (now : Int) :
    (x.put content floors now).label = shownFloors floors := by
  unfold put label shownFloors
  dsimp only
  split <;> rfl

theorem replaced_put (x : Slot) (content floors : String) (now : Int) :
    x.Replaced (x.put content floors now) ⟨content, shownFloors floors⟩ now where
  version := congrArg (Version.mk content) (label_put x content floors now)
  history := by
    unfold put archived
    split
    · exact (List.append_nil _).symm
    · rfl
  cursor := rfl

namespace Recalls

theorem empty : Slot.empty.Recalls [] := ⟨⟨[], rfl, rfl⟩, rfl, nofun, rfl⟩

theorem label_ne (h : x.Recalls made) : x.label ≠ "" := by
  unfold label floorText
  rw [h.floor]
  split
  · split
    · decide
    · next hne => exact hne
  · decide

/-- A version that replaces the current one is the last that was made current. -/
theorem replaced (h : x.Recalls made) {v : Version} (hy : x.Replaced y v now)
    (hfloor : y.floor = none) : y.Recalls (made ++ [v]) := by
  obtain ⟨earlier, hmade, hhistory⟩ := h.versions
  have hpast : (if x.current = "" then [] else [x.version]) =
      [x.version].filter (·.content ≠ "") := by
    by_cases hempty : x.current = "" <;> simp [version, hempty]
  refine ⟨⟨Slot.empty.version :: made, ?_, ?_⟩, ?_, fun e he => ?_, hfloor⟩
  · rw [hy.version]
    rfl
  · rw [hmade, List.filter_append, ← hpast, ← hhistory, hy.history, List.map_append]
    split <;> rfl
  · rw [hy.history, List.map_append, h.ids]
    split
    · rw [List.append_nil, List.map_nil, List.append_nil]
    · rw [List.length_append, List.length_singleton, List.range_succ, List.map_append]
      rfl
  · rw [hy.history, List.mem_append] at he
    rcases he with he | he
    · exact h.floors e he
    · split at he
      · cases he
      · rw [List.mem_singleton.mp he]
        exact h.label_ne

theorem put (h : x.Recalls made) (content floors : String) (now : Int) :
    (x.put content floors now).Recalls (made ++ [⟨content, shownFloors floors⟩]) :=
  h.replaced (replaced_put x content floors now) rfl

/-- Moving the cursor forgets nothing. -/
theorem moved (h : x.Recalls made) (cursor : Int) :
    Recalls { x with cursor := cursor } made := ⟨h.versions, h.ids, h.floors, h.floor⟩

/-- If all versions have content, then the history is all of them but the current one. -/
theorem history_eq (h : x.Recalls made) (hne : ∀ v ∈ made, v.content ≠ "") :
    x.history.map Entry.version = made.dropLast := by
  obtain ⟨earlier, hmade, hhistory⟩ := h.versions
  rw [hhistory]
  cases earlier with
  | nil =>
    obtain rfl := (List.cons.inj hmade).2
    rfl
  | cons v earlier =>
    rw [List.cons_append] at hmade
    obtain ⟨rfl, rfl⟩ := List.cons.inj hmade
    rw [List.dropLast_concat, List.filter_cons_of_neg (by decide), List.filter_eq_self]
    exact fun v hv => decide_eq_true (hne v (List.mem_append_left _ hv))

/-- The last version that was made current is the current one. -/
theorem version_eq (h : x.Recalls made) {v : Version} (hv : made.getLast? = some v) :
    x.version = v := by
  obtain ⟨earlier, hmade, -⟩ := h.versions
  have hlast := congrArg List.getLast? hmade
  rw [List.getLast?_concat, List.getLast?_cons, hv] at hlast
  exact (Option.some.inj hlast).symm

end Recalls

/-- A version of the history is put again. -/
theorem restore?_eq {i : Int} (h : 0 ≤ i ∧ i < x.history.length) (now : Int) :
    ∃ e, x.history[i.toNat]? = some e ∧ e ∈ x.history ∧
      x.restore? i now = some (x.put e.content e.floors now) := by
  have hlt : i.toNat < x.history.length := by omega
  refine ⟨x.history[i.toNat], List.getElem?_eq_getElem hlt, List.getElem_mem hlt, ?_⟩
  unfold restore?
  rw [if_pos h.1, List.getElem?_eq_getElem hlt]
  rfl

theorem restore?_eq_none {i : Int} (h : ¬ (0 ≤ i ∧ i < x.history.length)) :
    x.restore? i now = none := by
  unfold restore?
  split
  · rw [List.getElem?_eq_none (by omega)]
    rfl
  · rfl

/-- Moving the cursor moves nothing else. -/
theorem navigate_frame {d : Direction} (h : x.navigate d = .ok y) :
    ∃ cursor, y = { x with cursor := cursor } := by
  unfold navigate at h
  dsimp only at h
  split at h
  · cases h
  · cases d <;> dsimp only at h <;> (repeat' split at h) <;> cases h <;> exact ⟨_, rfl⟩

/-- What becomes of a slot, with the version that is made current: nothing, a version is put into
it, or its cursor moves. -/
inductive Becomes (now : Int) (x : Slot) : List Version → Slot → Prop where
  | same : Becomes now x [] x
  | put (content floors : String) :
      Becomes now x [⟨content, shownFloors floors⟩] (x.put content floors now)
  | moved {d : Direction} {y : Slot} (h : x.navigate d = .ok y) : Becomes now x [] y

theorem Recalls.becomes {new : List Version} (h : x.Recalls made) (hy : x.Becomes now new y) :
    y.Recalls (made ++ new) := by
  cases hy with
  | same => rwa [List.append_nil]
  | put content floors => exact h.put content floors now
  | moved hmove =>
    obtain ⟨cursor, rfl⟩ := navigate_frame hmove
    rw [List.append_nil]
    exact h.moved cursor

/-- The history only grows, at its end. -/
theorem Becomes.grows {new : List Version} (h : x.Becomes now new y) : x.history <+: y.history := by
  cases h with
  | same => exact List.prefix_refl _
  | put content floors =>
    rw [(replaced_put x content floors now).history]
    exact List.prefix_append _ _
  | moved hmove =>
    obtain ⟨cursor, rfl⟩ := navigate_frame hmove
    exact List.prefix_refl _

end Slot

/-! ## A slot in memory -/

namespace ChatValues

/-- The slot of a variable among the values of a chat, if only an empty one. -/
def slot (vs : ChatValues) (id : String) : Slot :=
  ((Json.find? vs id).map Value.slotOf).getD .empty

theorem slot_insert (vs : ChatValues) (id : String) (x : Slot) :
    ChatValues.slot (Json.insert vs id (.slot x)) id = x := by
  unfold ChatValues.slot
  rw [Json.find?_insert, if_pos rfl]
  rfl

end ChatValues

theorem Storage.usable_of_loadValues (h : ended (Storage.loadValues chat) s = (.ok vs, t))
    (hd : t.store.isDegraded chat = false) : t.store.usable? chat = some vs := by
  cases hu : s.store.usable? chat with
  | some ws =>
    rw [Storage.ended_loadValues_usable hu] at h
    cases h
    exact hu
  | none =>
    rcases hrun : ended Storage.load s with ⟨a, w⟩
    cases a with
    | error e =>
      rw [Storage.ended_loadValues_error hu hrun] at h
      cases h
    | ok r =>
      obtain ⟨held, granted, hloaded⟩ := Storage.ended_loadValues_of_load hu hrun
      rw [hloaded] at h
      cases h
      refine (Storage.loaded_cases w r chat).resolve_right fun hfailed => ?_
      exact absurd (hd.symm.trans hfailed.2.2.1) nofun

/-- A value that was looked up is that of the chat in memory, if the chat could be read. -/
theorem Storage.usable_of_getValue {v : Option Value}
    (h : ended (Storage.getValue id chat) s = (.ok v, t)) (hd : t.store.isDegraded chat = false) :
    ∃ vs, t.store.usable? chat = some vs ∧ Json.find? vs id = v := by
  obtain ⟨vs, w, hload, hdone⟩ := of_ended_bind h
  obtain ⟨hv, rfl⟩ := Prod.mk.inj hdone
  exact ⟨vs, Storage.usable_of_loadValues hload hd, Except.ok.inj hv⟩

namespace Variables

theorem ended_slot_of_load (h : ended (Storage.loadValues chat) s = (.ok vs, t)) (id : String) :
    ended (slot id chat) s = (.ok (vs.slot id), t) := by
  unfold slot Storage.getValue
  rw [ended_bind_ok (ended_bind_ok h _) _]
  unfold ChatValues.slot
  cases Json.find? vs id with
  | none => rfl
  | some v => cases v <;> rfl

theorem ended_slot_usable (hu : s.store.usable? chat = some vs) (id : String) :
    ended (slot id chat) s = (.ok (vs.slot id), s) :=
  ended_slot_of_load (Storage.ended_loadValues_usable hu) id

theorem usable_stored (hu : s.store.usable? chat = some vs) (id : String) (v : Value) :
    (s.stored chat (Json.insert vs id v)).store.usable? chat = some (Json.insert vs id v) :=
  Store.usable?_soon (Store.not_degraded_of_usable hu) _ _

theorem ended_put (hu : s.store.usable? chat = some vs) (id content floors : String) :
    ended (put id chat content floors) s =
      (.ok ((vs.slot id).put content floors s.clock.now), s.stored chat
        (Json.insert vs id (.slot ((vs.slot id).put content floors s.clock.now)))) := by
  unfold put
  rw [ended_bind_ok (ended_slot_usable hu id)]
  refine (ended_bind_ok (x := .ofAction Storage.now) (Storage.exec_now s) _).trans ?_
  exact ended_bind_ok (Storage.ended_editValue_usable hu id _) _

theorem ended_restore_some (hu : s.store.usable? chat = some vs) {i : Int} {y : Slot}
    (hy : (vs.slot id).restore? i s.clock.now = some y) : ended (restore id chat i) s =
      (.ok (.ok y), s.stored chat (Json.insert vs id (.slot y))) := by
  unfold restore
  rw [ended_bind_ok (ended_slot_usable hu id)]
  refine (ended_bind_ok (x := .ofAction Storage.now) (Storage.exec_now s) _).trans ?_
  rw [hy]
  exact ended_bind_ok (Storage.ended_editValue_usable hu id _) _

theorem ended_restore_none (hu : s.store.usable? chat = some vs) {i : Int}
    (hnone : (vs.slot id).restore? i s.clock.now = none) :
    ended (restore id chat i) s = (.ok (.error .badVersion), s) := by
  unfold restore
  rw [ended_bind_ok (ended_slot_usable hu id)]
  refine (ended_bind_ok (x := .ofAction Storage.now) (Storage.exec_now s) _).trans ?_
  rw [hnone]
  rfl

theorem ended_navigate_ok (hu : s.store.usable? chat = some vs) {word : String}
    {d : Slot.Direction} (hd : direction? word = some d) {y : Slot}
    (hy : (vs.slot id).navigate d = .ok y) : ended (navigate id chat word) s =
      (.ok (.ok (y.position, y.total)), s.stored chat (Json.insert vs id (.slot y))) := by
  unfold navigate
  rw [hd]
  dsimp only
  rw [ended_bind_ok (ended_slot_usable hu id), hy]
  exact ended_bind_ok (Storage.ended_editValue_usable hu id _) _

/-- The cursor stays where it is, or it makes a move. -/
theorem ended_navigate (hu : s.store.usable? chat = some vs) (id word : String) :
    (∃ why, ended (navigate id chat word) s = (.ok (.error why), s)) ∨
      ∃ d y, (vs.slot id).navigate d = .ok y ∧ ended (navigate id chat word) s =
        (.ok (.ok (y.position, y.total)), s.stored chat (Json.insert vs id (.slot y))) := by
  cases hd : direction? word with
  | none =>
    unfold navigate
    rw [hd]
    exact .inl ⟨_, rfl⟩
  | some d =>
    cases hmove : (vs.slot id).navigate d with
    | error why =>
      unfold navigate
      rw [hd]
      dsimp only
      rw [ended_bind_ok (ended_slot_usable hu id), hmove]
      exact .inl ⟨_, rfl⟩
    | ok y => exact .inr ⟨d, y, hmove, ended_navigate_ok hu hd hmove⟩

end Variables

/-! ## Runs -/

/-- One thing that happens, with the version that it makes current: a content is put, a version is
restored, the cursor is moved, time passes, the clock is set, or the shelf begins or stops to refuse
accesses. -/
inductive SlotStep (id chat : String) (s : Storage) : List Version → Storage → Prop where
  | put {content floors : String} {x : Slot} {t : Storage}
      (h : ended (Variables.put id chat content floors) s = (.ok x, t)) :
      SlotStep id chat s [⟨content, Slot.shownFloors floors⟩] t
  | putRefused {content floors : String} {e : Failure} {t : Storage}
      (h : ended (Variables.put id chat content floors) s = (.error e, t)) : SlotStep id chat s [] t
  | restore {i : Int} {x : Slot} {t : Storage}
      (h : ended (Variables.restore id chat i) s = (.ok (.ok x), t)) :
      SlotStep id chat s [x.version] t
  | restoreRefused {i : Int} {a : Except Failure (Outcome Slot)} {t : Storage}
      (h : ended (Variables.restore id chat i) s = (a, t)) (refused : ∀ x, a ≠ .ok (.ok x)) :
      SlotStep id chat s [] t
  | navigate (word : String) : SlotStep id chat s [] (ended (Variables.navigate id chat word) s).2
  | elapse (time : Nat) : SlotStep id chat s [] (exec (Storage.elapse time) s).2
  | clock (clock : Clock) : SlotStep id chat s [] { s with clock := clock }
  | refuse (refuses : Access → Bool) :
      SlotStep id chat s [] { s with shelf := { s.shelf with refuses := refuses } }

/-- What comes of a storage, one thing after another, with all versions that were made current. -/
inductive SlotRun (id chat : String) (s : Storage) : List Version → Storage → Prop where
  | refl : SlotRun id chat s [] s
  | tail {made new : List Version} {t u : Storage} (run : SlotRun id chat s made t)
      (step : SlotStep id chat t new u) : SlotRun id chat s (made ++ new) u

/-- The chat is in memory, with a slot that recalls these versions and whose history begins with
`past`. -/
def SlotHeld (id chat : String) (past : List Entry) (made : List Version) (s : Storage) : Prop :=
  ∃ vs, s.store.usable? chat = some vs ∧ (vs.slot id).Recalls made ∧ past <+: (vs.slot id).history

variable {made new : List Version} {past : List Entry} {x : Slot}

/-- In a chat that is in memory, one step makes of a slot what may become of it. -/
theorem SlotStep.becomes (hu : s.store.usable? chat = some vs) (hstep : SlotStep id chat s new t) :
    ∃ ws, t.store.usable? chat = some ws ∧
      (vs.slot id).Becomes s.clock.now new (ws.slot id) := by
  have hstored {new : List Version} {y : Slot} (hy : (vs.slot id).Becomes s.clock.now new y) :
      ∃ ws, (s.stored chat (Json.insert vs id (.slot y))).store.usable? chat = some ws ∧
        (vs.slot id).Becomes s.clock.now new (ws.slot id) := by
    refine ⟨_, Variables.usable_stored hu id _, ?_⟩
    rw [ChatValues.slot_insert]
    exact hy
  cases hstep with
  | @put content floors y t hrun =>
    rw [Variables.ended_put hu] at hrun
    obtain ⟨-, rfl⟩ := Prod.mk.inj hrun
    exact hstored (.put content floors)
  | putRefused hrun =>
    rw [Variables.ended_put hu] at hrun
    cases (Prod.mk.inj hrun).1
  | @restore i y t hrun =>
    by_cases hi : 0 ≤ i ∧ i < (vs.slot id).history.length
    · obtain ⟨e, -, -, hsome⟩ := Slot.restore?_eq hi s.clock.now
      rw [Variables.ended_restore_some hu hsome] at hrun
      obtain ⟨hy, rfl⟩ := Prod.mk.inj hrun
      obtain rfl := Except.ok.inj (Except.ok.inj hy)
      rw [(Slot.replaced_put (vs.slot id) e.content e.floors s.clock.now).version]
      exact hstored (.put e.content e.floors)
    · rw [Variables.ended_restore_none hu (Slot.restore?_eq_none hi)] at hrun
      cases (Prod.mk.inj hrun).1
  | @restoreRefused i a t hrun hrefused =>
    cases hsome : (vs.slot id).restore? i s.clock.now with
    | some y =>
      rw [Variables.ended_restore_some hu hsome] at hrun
      exact absurd (Prod.mk.inj hrun).1.symm (hrefused y)
    | none =>
      rw [Variables.ended_restore_none hu hsome] at hrun
      obtain ⟨-, rfl⟩ := Prod.mk.inj hrun
      exact ⟨vs, hu, .same⟩
  | navigate word =>
    obtain ⟨why, hrun⟩ | ⟨d, y, hmove, hrun⟩ := Variables.ended_navigate hu id word
    · rw [hrun]
      exact ⟨vs, hu, .same⟩
    · rw [hrun]
      exact hstored (.moved hmove)
  | elapse time =>
    have hkept : KeepsWriting (Always fun s => s.store.usable? chat = some vs) :=
      .ofMemory fun _ _ _ _ _ _ _ h => h
    exact ⟨vs, hkept.elapse time none s hu, .same⟩
  | clock clock => exact ⟨vs, hu, .same⟩
  | refuse refuses => exact ⟨vs, hu, .same⟩

/-- What goes for a slot, whatever becomes of it, goes for it after a whole run. -/
theorem SlotRun.keeps {P : List Version → Slot → Prop}
    (hP : ∀ {now made new x y}, P made x → x.Becomes now new y → P (made ++ new) y)
    (hu : s.store.usable? chat = some vs) (hx : P made (vs.slot id))
    (hrun : SlotRun id chat s new t) :
    ∃ ws, t.store.usable? chat = some ws ∧ P (made ++ new) (ws.slot id) := by
  induction hrun with
  | refl => exact ⟨vs, hu, by rwa [List.append_nil]⟩
  | tail _ hstep ih =>
    obtain ⟨ws, hw, hy⟩ := ih
    obtain ⟨ws', hw', hbecomes⟩ := hstep.becomes hw
    refine ⟨ws', hw', ?_⟩
    rw [← List.append_assoc]
    exact hP hy hbecomes

theorem SlotHeld.run (h : SlotHeld id chat past made s) (hrun : SlotRun id chat s new t) :
    SlotHeld id chat past (made ++ new) t := by
  obtain ⟨vs, hu, hx⟩ := h
  exact hrun.keeps (P := fun made x => x.Recalls made ∧ past <+: x.history)
    (fun hx hy => ⟨hx.1.becomes hy, hx.2.trans hy.grows⟩) hu hx

/-! ## The laws -/

/-- What the calls do while a slot is served as `x`. -/
structure SlotLaws (s : Storage) (id chat : String) (x : Slot) : Prop where
  /-- A content that is put becomes current. -/
  puts : ∀ content floors, ∃ y t, ended (Variables.put id chat content floors) s = (.ok y, t) ∧
    ended (Variables.slot id chat) t = (.ok y, t) ∧
      x.Replaced y ⟨content, Slot.shownFloors floors⟩ s.clock.now
  /-- An item of the history becomes current, and stays in the history. -/
  restores : ∀ i : Int, 0 ≤ i ∧ i < x.history.length → ∃ e y t, x.history[i.toNat]? = some e ∧
    ended (Variables.restore id chat i) s = (.ok (.ok y), t) ∧
      ended (Variables.slot id chat) t = (.ok y, t) ∧ x.Replaced y e.version s.clock.now
  /-- A place outside the history is refused. -/
  refuses : ∀ i : Int, ¬ (0 ≤ i ∧ i < x.history.length) →
    ended (Variables.restore id chat i) s = (.ok (.error .badVersion), s)
  /-- The cursor moves over versions that stay as they are. -/
  navigates : ∀ word, ∃ a y t, ended (Variables.navigate id chat word) s = (.ok a, t) ∧
    ended (Variables.slot id chat) t = (.ok y, t) ∧ y.history = x.history ∧ y.version = x.version

theorem Variables.ended_slot_stored (hu : s.store.usable? chat = some vs) (id : String) (x : Slot) :
    ended (slot id chat) (s.stored chat (Json.insert vs id (.slot x))) =
      (.ok x, s.stored chat (Json.insert vs id (.slot x))) := by
  rw [ended_slot_usable (usable_stored hu id _), ChatValues.slot_insert]

theorem slotLaws_of_recalls (hu : s.store.usable? chat = some vs)
    (hx : (vs.slot id).Recalls made) : SlotLaws s id chat (vs.slot id) where
  puts content floors := ⟨_, _, Variables.ended_put hu id content floors,
    Variables.ended_slot_stored hu id _, Slot.replaced_put _ content floors s.clock.now⟩
  restores i hi := by
    obtain ⟨e, he, hmem, hsome⟩ := Slot.restore?_eq hi s.clock.now
    have hreplaced := Slot.replaced_put (vs.slot id) e.content e.floors s.clock.now
    rw [Slot.shownFloors, if_neg (hx.floors e hmem)] at hreplaced
    exact ⟨e, _, _, he, Variables.ended_restore_some hu hsome,
      Variables.ended_slot_stored hu id _, hreplaced⟩
  refuses i hi := Variables.ended_restore_none hu (Slot.restore?_eq_none hi)
  navigates word := by
    obtain ⟨why, hrun⟩ | ⟨d, y, hmove, hrun⟩ := Variables.ended_navigate hu id word
    · exact ⟨_, _, s, hrun, Variables.ended_slot_usable hu id, rfl, rfl⟩
    · obtain ⟨cursor, rfl⟩ := Slot.navigate_frame hmove
      exact ⟨_, _, _, hrun, Variables.ended_slot_stored hu id _, rfl, rfl⟩

/-- Whatever is asked of a slot that was empty, its history recalls all that was current. It makes
no difference whether the chat was read before the first version is made current or is read then. -/
theorem versions_kept (hnone : ended (Storage.getValue id chat) s = (.ok none, t))
    (hreadable : t.store.isDegraded chat = false) (hrun : SlotRun id chat t made u) :
    (∀ content floors, ended (Variables.put id chat content floors) s =
      ended (Variables.put id chat content floors) t) ∧
    ∃ x, ended (Variables.slot id chat) u = (.ok x, u) ∧ x.Recalls made ∧ SlotLaws u id chat x ∧
      (∀ new v, SlotRun id chat u new v → ∃ y,
        ended (Variables.slot id chat) v = (.ok y, v) ∧ x.history <+: y.history) ∧
      ((∀ v ∈ made, v.content ≠ "") → x.history.map Entry.version = made.dropLast ∧
        ∀ v, made.getLast? = some v → x.version = v) := by
  obtain ⟨vs, hu, hvalue⟩ := Storage.usable_of_getValue hnone hreadable
  have hempty : vs.slot id = .empty := by
    unfold ChatValues.slot
    rw [hvalue]
    rfl
  have hstart : SlotHeld id chat [] [] t :=
    ⟨vs, hu, hempty ▸ Slot.Recalls.empty, List.nil_prefix⟩
  obtain ⟨ws, hw, hx, -⟩ := hstart.run hrun
  rw [List.nil_append] at hx
  refine ⟨fun content floors => ?_, ws.slot id, Variables.ended_slot_usable hw id, hx,
    slotLaws_of_recalls hw hx, fun new v hmore => ?_,
    fun hne => ⟨hx.history_eq hne, fun v hv => ?_⟩⟩
  · have hread : ended (Variables.slot id chat) s = (.ok .empty, t) := by
      unfold Variables.slot
      rw [ended_bind_ok hnone]
      rfl
    have hagain := Variables.ended_slot_usable hu id
    rw [hempty] at hagain
    unfold Variables.put
    rw [ended_bind_ok hread, ended_bind_ok hagain]
  · obtain ⟨ws', hw', -, hpast⟩ := SlotHeld.run ⟨ws, hw, hx, List.prefix_refl _⟩ hmore
    exact ⟨ws'.slot id, Variables.ended_slot_usable hw' id, hpast⟩
  · exact hx.version_eq hv

/-- Two contents are put into a new slot, and the first is restored. -/
theorem versions_kept_restored : ∃ (s t u : Storage) (made : List Version),
    ended (Storage.getValue "var_mood" "c") s = (.ok none, t) ∧
      t.store.isDegraded "c" = false ∧ SlotRun "var_mood" "c" t made u ∧
      made = [⟨"calm", "1-5"⟩, ⟨"tense", "0"⟩, ⟨"calm", "1-5"⟩] ∧
      ∃ x, ended (Variables.slot "var_mood" "c") u = (.ok x, u) ∧ x.Recalls made ∧
        SlotLaws u "var_mood" "c" x ∧ x.history.map Entry.version = made.dropLast := by
  let s : Storage := ⟨.empty "root" "values-" 0 0, .ofDocuments [], ⟨0, 0⟩, .start⟩
  obtain ⟨t, hnone, hreadable⟩ : ∃ t, ended (Storage.getValue "var_mood" "c") s = (.ok none, t) ∧
      t.store.isDegraded "c" = false := ⟨_, Prod.ext rfl rfl, rfl⟩
  obtain ⟨vs, hu, hvalue⟩ := Storage.usable_of_getValue hnone hreadable
  have hslot : vs.slot "var_mood" = .empty := by
    unfold ChatValues.slot
    rw [hvalue]
    rfl
  have hfirst := Variables.ended_put hu "var_mood" "calm" "1-5"
  rw [hslot] at hfirst
  have hu₁ := Variables.usable_stored hu "var_mood"
    (.slot (Slot.empty.put "calm" "1-5" t.clock.now))
  have hsecond := Variables.ended_put hu₁ "var_mood" "tense" ""
  rw [ChatValues.slot_insert] at hsecond
  have hu₂ := Variables.usable_stored hu₁ "var_mood"
    (.slot ((Slot.empty.put "calm" "1-5" t.clock.now).put "tense" "" t.clock.now))
  have hthird := Variables.ended_restore_some hu₂ (i := 0)
    (show (ChatValues.slot _ "var_mood").restore? 0 t.clock.now = some _ by
      rw [ChatValues.slot_insert]; rfl)
  have hrun : SlotRun "var_mood" "c" t [⟨"calm", "1-5"⟩, ⟨"tense", "0"⟩, ⟨"calm", "1-5"⟩] _ :=
    ((SlotRun.refl.tail (.put hfirst)).tail (.put hsecond)).tail (.restore hthird)
  obtain ⟨-, x, hx, hrecalls, hlaws, -, hhistory⟩ := versions_kept hnone hreadable hrun
  exact ⟨s, t, _, _, hnone, hreadable, hrun, rfl, x, hx, hrecalls, hlaws,
    (hhistory (by decide)).1⟩

end TagLedger
