import TagLedger.Proofs.Legible
import TagLedger.Proofs.Patching
import TagLedger.Proofs.Remaining

/-!
# The active suite

Suites and settings are saved apart, but between two operations they agree: there is an active suite
unless there are no suites at all, and it is one of them. The first suite that is created becomes
active, and when the active one is deleted, the first that is left. Whatever else is changed in the
settings is changed in a copy of what they are at that moment, so the active suite stays the same.

    one operation on suites makes r' of r, r.Led  →  r'.Led                   (SuiteStep.led)
    a document of version 1 is read as r          →  r.Led                   (led_of_ofText)
    ManagedRun s t, s holds a root that is led    →  so does t              (active_suite_valid)
-/

namespace TagLedger

open Suites
open Schema (yields_map yields_seq_any)

variable {r r' : Root} {now : Int} {s t : Session}

/-! ## The suite that is active -/

/-- There is an active suite unless there are no suites; it is one of them, and all are stored under
their own identifiers. -/
structure Root.Led (r : Root) : Prop where
  keys : (Json.keys r.suites).Nodup
  own : ∀ x ∈ r.suites, x.2.id = x.1
  none_iff : r.settings.activeSuite = none ↔ r.suites = []
  active : ∀ id, r.settings.activeSuite = some id → id ∈ Json.keys r.suites

/-- The root without a suite. If that one was active, the first that is left is. -/
def Root.deleting (r : Root) (id : String) : Root :=
  let suites := r.suites.filter (·.1 != id)
  if r.settings.activeSuite = some id
  then Root.activating { r with suites := suites } (suites.head?.map (·.1))
  else { r with suites := suites }

namespace Root.Led

theorem standard : Root.standard.Led := ⟨List.nodup_nil, nofun, iff_of_true rfl rfl, nofun⟩

theorem ne_nil {suites : List (String × Suite)} {id : String} (hid : id ∈ Json.keys suites) :
    suites ≠ [] := by
  rintro rfl
  cases hid

/-- A suite that there is can be made active. -/
theorem activating (h : r.Led) {id : String} (hid : id ∈ Json.keys r.suites) :
    (r.activating (some id)).Led where
  keys := h.keys
  own := h.own
  none_iff := iff_of_false nofun (ne_nil hid)
  active _ hother := Option.some.inj hother ▸ hid

/-- The settings may change, but for the active suite. -/
theorem withSettings (h : r.Led) {x : Settings} (hx : x.activeSuite = r.settings.activeSuite) :
    Root.Led { r with settings := x } where
  keys := h.keys
  own := h.own
  none_iff := by rw [hx, h.none_iff]
  active id hid := h.active id (hx ▸ hid)

/-- The suites may change, but for their identifiers. -/
theorem mapSuites (h : r.Led) {f : String × Suite → String × Suite} (hkey : ∀ x, (f x).1 = x.1)
    (hid : ∀ x, (f x).2.id = x.2.id) : Root.Led { r with suites := r.suites.map f } := by
  have hkeys : Json.keys (r.suites.map f) = Json.keys r.suites := by
    simp [Json.keys, Function.comp_def, hkey]
  refine ⟨hkeys ▸ h.keys, List.forall_mem_map.mpr fun x hx => ?_, ?_, fun id hactive => ?_⟩
  · rw [hid, hkey, h.own x hx]
  · rw [h.none_iff, List.map_eq_nil_iff]
  · rw [hkeys]
    exact h.active id hactive

/-- A suite may be replaced by one with the same identifier. -/
theorem insert (h : r.Led) {id : String} (hid : id ∈ Json.keys r.suites) {x : Suite}
    (hx : x.id = id) : Root.Led { r with suites := Json.insert r.suites id x } where
  keys := Json.nodup_keys_insert h.keys id x
  own y hy := (Json.mem_insert hy).elim (fun e => e ▸ hx) (h.own y)
  none_iff := by
    rw [h.none_iff]
    exact iff_of_false (ne_nil hid) (ne_nil (Json.mem_keys_insert.mpr (.inl rfl)))
  active i hi := Json.mem_keys_insert.mpr (.inr (h.active i hi))

/-- A new suite becomes active if it is the only one. -/
theorem created (h : r.Led) {id : String} {x : Suite} {suites : List (String × Suite)}
    (hsuites : suites = Json.insert r.suites id x) (hx : x.id = id) :
    (if suites.length = 1 then Root.activating { r with suites := suites } (some id)
      else { r with suites := suites }).Led := by
  have hmem : id ∈ Json.keys suites := hsuites ▸ Json.mem_keys_insert.mpr (.inl rfl)
  have hkeys : (Json.keys suites).Nodup := hsuites ▸ Json.nodup_keys_insert h.keys id x
  have hown : ∀ y ∈ suites, y.2.id = y.1 := fun y hy => by
    rw [hsuites] at hy
    exact (Json.mem_insert hy).elim (fun e => e ▸ hx) (h.own y)
  split
  · exact ⟨hkeys, hown, iff_of_false nofun (ne_nil hmem),
      fun _ hother => Option.some.inj hother ▸ hmem⟩
  · next hmore =>
    have hbefore : r.suites ≠ [] := fun hnil => hmore (by rw [hsuites, hnil]; rfl)
    refine ⟨hkeys, hown, ?_, fun i hi => ?_⟩
    · exact iff_of_false (fun hnone => hbefore (h.none_iff.mp hnone))
        (ne_nil hmem)
    · exact hsuites ▸ Json.mem_keys_insert.mpr (.inr (h.active i hi))

/-- There is nothing to delete under an identifier that no suite has. -/
theorem deleting_of_not_mem (h : r.Led) {id : String} (hid : id ∉ Json.keys r.suites) :
    r.deleting id = r := by
  have hsame : r.suites.filter (·.1 != id) = r.suites := List.filter_eq_self.mpr fun x hx =>
    bne_iff_ne.mpr fun he => hid (he ▸ List.mem_map_of_mem hx)
  have hother : r.settings.activeSuite ≠ some id := fun hactive => hid (h.active id hactive)
  unfold Root.deleting
  rw [hsame, if_neg hother]

/-- The first suite that is left becomes active if the active one is deleted. -/
theorem deleted (h : r.Led) {id : String} (hid : id ∈ Json.keys r.suites) :
    (r.deleting id).Led := by
  have hkeys : (Json.keys (r.suites.filter (·.1 != id))).Nodup :=
    Json.nodup_keys_filter h.keys _
  have hown : ∀ x ∈ r.suites.filter (·.1 != id), x.2.id = x.1 := fun x hx =>
    h.own x (List.mem_filter.mp hx).1
  unfold Root.deleting
  split
  · refine ⟨hkeys, hown, ?_, fun i hi => ?_⟩
    · exact Option.map_eq_none_iff.trans List.head?_eq_none_iff
    · obtain ⟨x, hx, rfl⟩ := Option.map_eq_some_iff.mp hi
      exact List.mem_map_of_mem (List.mem_of_head? hx)
  · next hother =>
    have hsome : r.settings.activeSuite ≠ none := fun hnone => ne_nil hid (h.none_iff.mp hnone)
    obtain ⟨i, hi⟩ := Option.ne_none_iff_exists'.mp hsome
    have hleft (j : String) (hj : r.settings.activeSuite = some j) :
        j ∈ Json.keys (r.suites.filter (·.1 != id)) := by
      obtain ⟨x, hx, rfl⟩ := List.mem_map.mp (h.active j hj)
      refine List.mem_map_of_mem (List.mem_filter.mpr ⟨hx, bne_iff_ne.mpr fun he => ?_⟩)
      exact hother (he ▸ hj)
    exact ⟨hkeys, hown, iff_of_false hsome (ne_nil (hleft i hi)), hleft⟩

end Root.Led

/-! ## What operations do -/

/-- An edited suite keeps its identifier. -/
theorem edit_id (old : Suite) (updates : List (String × Json)) (ctx : Schema.Context) :
    Schema.Yields (fun new => new.id = old.id) (edit old updates ctx) := by
  iterate 4 refine yields_seq_any ?_
  exact yields_map fun _ _ _ _ _ _ => rfl

theorem id_withoutSlots (variableId : String) (now : Int) (x : Suite) :
    (withoutSlots variableId now x).id = x.id := by
  unfold withoutSlots
  dsimp only
  split <;> rfl

/-- The suite that is to be active is not just handed over. -/
def SuiteOperation.Chosen (op : SuiteOperation) : Prop := ∀ id, op ≠ .setActive id

theorem SuiteStep.led {op : SuiteOperation} (hop : op.Chosen) (h : r.Led)
    (hstep : SuiteStep now r op r') : r'.Led := by
  cases hstep with
  | active id => exact absurd rfl (hop id)
  | activated hs => exact h.activating (Json.mem_keys_of_find? hs)
  | created id title name enabled trigger useSnapshot hsuites hnew =>
    rw [hnew]
    exact h.created hsuites rfl
  | deleted hs hsuites hnew =>
    rw [hnew, hsuites]
    exact h.deleted (Json.mem_keys_of_find? hs)
  | updated hold hnew =>
    refine h.insert (Json.mem_keys_of_find? hold) ?_
    rw [edit_id _ _ _ _ hnew]
    exact h.own _ (Json.mem_of_find? hold)
  | items hop hs hitems =>
    refine h.mapSuites (fun x => ?_) fun x => ?_
    · split <;> rfl
    · split <;> rfl
  | unslotted variableId =>
    exact h.mapSuites (fun _ => rfl) fun x => id_withoutSlots variableId now x.2

/-! ## Documents of version 1 -/

namespace Migration

open Schema

variable {ctx : Context}

/-- The suite of version 1 is read under the identifier that it is stored under. -/
theorem own_moveSuites {old : Json} {moved : List Moved} {suites : List (String × Json)}
    (h : moveSuites old moved now = .ok suites) : Schema.Yields (fun l => (l = [] ↔ moved = []) ∧
      (moved ≠ [] → suiteId ∈ Json.keys l) ∧ ∀ x ∈ l, x.2.id = x.1)
      (mapping Suite.decode ctx (.obj suites)) := fun l hl => by
  have hkeys := yields_mapping_keys _ l hl
  unfold moveSuites at h
  split at h
  · next hempty =>
    cases h
    cases hl
    exact ⟨iff_of_true rfl (List.isEmpty_iff.mp hempty), fun hne =>
      absurd (List.isEmpty_iff.mp hempty) hne, nofun⟩
  · next hfull =>
    obtain ⟨j, hj, rfl⟩ := map_eq_ok h
    rw [suiteOf_eq] at hj
    obtain ⟨auto, -, hj⟩ := bind_eq_ok hj
    obtain ⟨context, -, hj⟩ := bind_eq_ok hj
    obtain ⟨trigger, -, hj⟩ := bind_eq_ok hj
    obtain ⟨range, -, hj⟩ := bind_eq_ok hj
    cases hj
    have hmem : suiteId ∈ Json.keys l := hkeys ▸ List.mem_singleton_self suiteId
    refine ⟨iff_of_false (Root.Led.ne_nil hmem) fun hnil => hfull (List.isEmpty_iff.mpr hnil),
      fun _ => hmem, ?_⟩
    refine yields_mapping (P := fun x : String × Suite => x.2.id = x.1) (fun x hx => ?_) l hl
    obtain rfl := List.mem_singleton.mp hx
    refine yields_record fun entries he => ?_
    cases he
    iterate 7 refine yields_seq_any ?_
    refine yields_map (yields_required fun key j hj => ?_)
    cases hj
    intro id hid _ _ _ _ _ _ _
    cases hid
    rfl

/-- The suite of version 1 is active, if there is one. -/
theorem active_moveSettings (enabled api : Json) (moved : List Moved) :
    Schema.Yields (fun x => x.activeSuite = if moved.isEmpty then none else some suiteId)
      (Settings.decode ctx (moveSettings enabled api moved)) := by
  refine yields_record fun entries he => ?_
  iterate 2 refine yields_seq_any ?_
  refine yields_seq (Q := fun a => a = if moved.isEmpty then none else some suiteId)
    (yields_map fun _ _ a ha _ _ => ha) ?_
  cases he
  cases moved with
  | nil =>
    intro a ha
    cases ha
    rfl
  | cons m moved =>
    intro a ha
    cases ha
    rfl

end Migration

/-- What is read of a document of version 1 is led. -/
theorem led_of_ofText {ctx : Schema.Context} {text : String} {chats : List (String × ChatValues)}
    (h : Storage.RootReading.ofText ctx text = .root r (some chats)) : r.Led := by
  have hkeys := (migrated_of_ofText h).sound.suiteKeys
  obtain ⟨fields, m, -, -, hfirst, hr, -⟩ := older_of_ofText h
  unfold Migration.fromFirst at hfirst
  simp only at hfirst
  obtain ⟨items, -, hfirst⟩ := bind_eq_ok hfirst
  obtain ⟨moved, -, hfirst⟩ := bind_eq_ok hfirst
  obtain ⟨enabled, -, hfirst⟩ := bind_eq_ok hfirst
  obtain ⟨api, -, hfirst⟩ := bind_eq_ok hfirst
  obtain ⟨suites, hsuites, hfirst⟩ := bind_eq_ok hfirst
  obtain ⟨values, -, hfirst⟩ := bind_eq_ok hfirst
  cases hfirst
  obtain ⟨-, hread, -, hsettings⟩ := Root.decode_parts hr
  obtain ⟨hnil, hmem, hown⟩ := Migration.own_moveSuites hsuites _ hread
  have hactive := Migration.active_moveSettings _ _ _ _ hsettings
  refine ⟨hkeys, hown, ?_, fun id hid => ?_⟩
  · rw [hactive, hnil]
    cases moved <;> simp
  · rw [hactive] at hid
    cases moved with
    | nil => cases hid
    | cons m moved =>
      cases hid
      exact hmem (List.cons_ne_nil m moved)

namespace Storage.Holds

/-- A store that finds nothing, or a document of version 1, holds a root that is led. -/
theorem led_load {s : Storage} (hroot : s.store.root = none)
    (hfound : ∀ text, s.shelf.find? s.store.rootName = some text → ∃ r chats,
      RootReading.ofText ⟨s.clock.now, false⟩ text = .root r (some chats)) :
    (ended Storage.load s).2.Holds Root.Led := by
  refine load_takes unlocked hroot fun held granted => ?_
  have hflush (r : Root) :
      KeepsNow (Always (Holds Root.Led)) (flushQuietly >>= fun _ => rootOr r) :=
    writing.flushQuietly.bind fun _ => .rootOr r
  cases hanswer : (s.shelf.read s.store.rootName).1 with
  | error e => exact ⟨.standard, rfl, .standard⟩
  | ok text? =>
    cases text? with
    | none =>
      have hset : Holds Root.Led { s with
          store := { s.store with
            held := held, granted := granted, root := some .standard, rootDirty := true }
          shelf := (s.shelf.read s.store.rootName).2 } := ⟨.standard, rfl, .standard⟩
      exact hflush .standard none _ hset
    | some text =>
      obtain ⟨r, chats, hof⟩ := hfound text (find?_of_read hanswer)
      have htaken : KeepsNow (Always (Holds Root.Led)) (do
          adopt chats
          onStore fun s => { s with rootDirty := true }
          flushQuietly
          rootOr r) :=
        (KeepsNow.adopt fun _ _ _ _ h => h).bind fun _ =>
          KeepsNow.bind (x := onStore _) (fun _ _ h => h) fun _ => hflush r
      unfold takeRoot
      rw [exec_bind_ok (exec_context _)]
      dsimp only [lined]
      rw [hof]
      exact htaken none _ ⟨r, rfl, led_of_ofText hof⟩

end Storage.Holds

/-! ## What is asked for -/

/-- The suites, the settings and the suite that is to be active are not just handed over. -/
def Operation.Managing : Operation → Prop
  | .ofStore (.saveSuites _) | .ofStore (.saveSettings _) | .ofSuites (.setActive _) => False
  | _ => True

namespace Storage.Holds

theorem led_suites {op : SuiteOperation} (hop : op.Chosen) :
    Keeps (Always (Holds Root.Led)) op.perform :=
  ofComposes (fun _ _ => Composes.perform op) fun _ _ _ h hstep => hstep.led hop h

theorem led_perform {op : Operation} (hop : op.Managing) :
    Keeps (Always (Holds Root.Led)) op.perform := by
  by_cases hsuites : ∃ suiteOp, op = .ofSuites suiteOp
  · obtain ⟨suiteOp, rfl⟩ := hsuites
    refine led_suites fun id he => ?_
    rw [he] at hop
    exact hop
  · refine aside (fun _ _ h => { h with }) (fun id => ?_) (fun suites he => ?_) (fun x he => ?_)
      fun suiteOp he => hsuites ⟨suiteOp, he⟩
    · have hop : (SuiteOperation.removeSlots id).Chosen := fun _ => nofun
      exact ofComposes (fun _ _ => Composes.removeSlots id) fun _ _ _ h hstep => hstep.led hop h
    · rw [he] at hop
      exact hop.elim
    · rw [he] at hop
      exact hop.elim

/-- Settings that keep the active suite are saved. -/
theorem led_saveSettings (h : r.Led) {x : Settings}
    (hx : x.activeSuite = r.settings.activeSuite) :
    Leaves (Holds Root.Led) r now (Storage.saveSettings x) :=
  .changing fun _ hs => ⟨_, hs.root, h.withSettings hx⟩

/-- The counts go into the settings as they are at that moment. -/
theorem led_saveCounts : Upholds (Holds Root.Led) Session.saveCounts := by
  rintro s ⟨r, hr, h⟩
  have hcounts : AtOnce (Holds Root.Led ∘ Session.storage)
      (Storage.Has r s.storage.clock.now ∘ Session.storage) Session.saveCounts
      fun _ => Holds Root.Led ∘ Session.storage := by
    refine AtOnce.bind Learns.settings.stored fun x => ?_
    refine AtOnce.assuming (P := Storage.Has r s.storage.clock.now ∘ Session.storage) ?_
    rintro rfl
    exact fun t ht => (led_saveSettings h
      (x := { r.settings with counts := t.counter.counts }) rfl).stored t ht
  rcases hcounts s ⟨hr, rfl⟩ with ⟨a, t, hrun, ht⟩ | ⟨e, t, hrun, ht⟩
  · rw [hrun]
    exact .done ht
  · rw [hrun]
    exact .done ht

theorem led_tended : Tended (Holds Root.Led) where
  unlocked := unlocked
  pieces := pieces
  saveCounts := led_saveCounts

end Storage.Holds

/-! ## Sessions -/

/-- The same of what a session is asked for. -/
def SessionOperation.Managing : SessionOperation → Prop
  | .ofStorage op => op.Managing
  | _ => True

/-- One thing that happens to a session: something is asked for, another endpoint is set, automatic
triggers are switched, time passes, the clock is set, or the shelf begins or stops to refuse
accesses. -/
inductive Session.Managed (s : Session) : Session → Prop where
  | ask (op : SessionOperation) (h : op.Managing) : Managed s (ended op.perform s).2
  | override (api : ApiOverride) : Managed s (ended (Service.setOverride api).run s).2
  | enable (enabled : Bool) : Managed s (ended (Service.setEnabled enabled).run s).2
  | elapse (time : Nat) :
      Managed s { s with storage := (exec (Storage.elapse time) s.storage).2 }
  | clock (clock : Clock) : Managed s { s with storage := { s.storage with clock := clock } }
  | refuse (refuses : Access → Bool) : Managed s { s with
      storage := { s.storage with shelf := { s.storage.shelf with refuses := refuses } } }

/-- What comes of a session, one thing after another. -/
abbrev ManagedRun : Session → Session → Prop := Relation.ReflTransGen Session.Managed

theorem SessionOperation.Managing.led {op : SessionOperation} (hop : op.Managing) :
    Upholds (Storage.Holds Root.Led) op.perform := by
  have htended := Storage.Holds.led_tended
  cases op with
  | ofStorage op => exact htended.stored (Storage.Holds.led_perform hop)
  | newMessage c => exact (htended.newMessage c).bind fun _ => .pure _
  | trigger suiteId c cause => exact (htended.trigger suiteId c cause).bind fun _ => .pure _
  | resetCount suiteId chat =>
    refine .getThen fun s => .ite ?_ (.pure _)
    exact Upholds.bind (.modify fun _ => rfl) fun _ => htended.saveCounts
  | assign chat floors results => exact (htended.assign chat floors results).bind fun _ => .pure _

/-- Settings are saved that are, but for what is set, those of that moment. -/
theorem Service.Concludes.led_set {f : Settings → Settings}
    (hf : ∀ x, (f x).activeSuite = x.activeSuite) (h : r.Led) (j : Json) :
    Concludes (Storage.Holds Root.Led) (Storage.Has r now) (do
      let x ← Service.stored Storage.settings
      Service.stored (Storage.saveSettings (f x))
      return j) fun _ => Storage.Holds Root.Led := by
  refine (Concludes.stored Learns.settings).bind fun x => .assuming ?_
  rintro rfl
  refine (Concludes.stored (Storage.Holds.led_saveSettings h (hf _))).bind fun _ => ?_
  exact .pure fun _ hs => hs

theorem Session.Managed.led (h : Managed s t) (hs : s.storage.Holds Root.Led) :
    t.storage.Holds Root.Led := by
  have hserved {x : Service.Serving Json} (hx : ∀ r now, r.Led → Service.Concludes
      (Storage.Holds Root.Led) (Storage.Has r now) x fun _ => Storage.Holds Root.Led) :
      (ended x.run s).2.storage.Holds Root.Led := by
    obtain ⟨r, hr, hled⟩ := hs
    unfold ended
    rcases hx r s.storage.clock.now hled s ⟨hr, rfl⟩ with ⟨a, t, hrun, ht⟩ | ⟨e, t, hrun, ht⟩
    · rw [hrun]
      cases a <;> exact ht
    · rw [hrun]
      exact ht
  cases h with
  | ask op hop => exact (hop.led s hs).finish
  | override api =>
    exact hserved fun r now h => .led_set (f := fun x => { x with api := api }) (fun _ => rfl) h _
  | enable enabled =>
    exact hserved fun r now h =>
      .led_set (f := fun x => { x with enabled := enabled }) (fun _ => rfl) h _
  | elapse time => exact Storage.Holds.writing.elapse time none _ hs
  | clock clock => exact hs
  | refuse refuses => exact hs

/-! ## Deleting -/

theorem Suites.ended_setActive {s : Storage} (hr : s.store.root = some r) (id : Option String) :
    ∃ u, ended (Suites.setActive id) s = (.ok (), u) ∧ u.store.root = some (r.activating id) := by
  unfold Suites.setActive Storage.saveSettings
  rw [ended_bind_ok (Storage.ended_settings hr)]
  exact ⟨_, Storage.ended_changeRoot hr _, rfl⟩

/-- Deleting a suite never fails. -/
theorem Root.Led.ended_delete {s : Storage} (h : r.Led) (hr : s.store.root = some r)
    (id : String) : ∃ found u, ended (Suites.delete id) s = (.ok found, u) ∧
      u.store.root = some (r.deleting id) := by
  unfold Suites.delete
  rw [ended_bind_ok (Storage.ended_suites hr)]
  split
  · next hnone =>
    have hid : id ∉ Json.keys r.suites := fun hmem => by
      rw [← Json.find?_isSome, hnone] at hmem
      cases hmem
    exact ⟨false, s, rfl, by rw [hr, h.deleting_of_not_mem hid]⟩
  · let left : Root := { r with suites := r.suites.filter (·.1 != id) }
    obtain ⟨u, hsave, hu⟩ : ∃ u, ended (Storage.saveSuites left.suites) s = (.ok (), u) ∧
        u.store.root = some left := ⟨_, Storage.ended_changeRoot hr _, rfl⟩
    rw [ended_bind_ok hsave, ended_bind_ok (Storage.ended_settings hu)]
    unfold Root.deleting
    dsimp only
    split
    · obtain ⟨v, hset, hv⟩ := Suites.ended_setActive hu (left.suites.head?.map (·.1))
      exact ⟨true, v, ended_bind_ok hset _, hv⟩
    · exact ⟨true, u, rfl, hu⟩

/-- In every state that is reached from an empty installation, or from a document of version 1 that
can be read, there is an active suite unless there are no suites. It is one of them, and every suite
is stored under its own identifier. Deleting another suite leaves the active one as it is; when that
one is deleted, the first that is left becomes active. -/
theorem active_suite_valid (hnew : s.storage.store.root = none)
    (hfound : ∀ text, s.storage.shelf.find? s.storage.store.rootName = some text → ∃ r chats,
      Storage.RootReading.ofText ⟨s.storage.clock.now, false⟩ text = .root r (some chats))
    (hrun : ManagedRun (ended (Session.stored Storage.load) s).2 t) :
    ∃ r, t.storage.store.root = some r ∧ (r.suites = [] ↔ r.settings.activeSuite = none) ∧
      (∀ id, r.settings.activeSuite = some id → ∃ x, Json.find? r.suites id = some x) ∧
      (∀ id x, Json.find? r.suites id = some x → x.id = id) ∧
      ∀ id, ∃ found u r', ended (Suites.delete id) t.storage = (.ok found, u) ∧
        u.store.root = some r' ∧ r'.suites = r.suites.filter (·.1 != id) ∧
        (r.settings.activeSuite ≠ some id →
          r'.settings.activeSuite = r.settings.activeSuite) ∧
        (r.settings.activeSuite = some id →
          r'.settings.activeSuite = r'.suites.head?.map (·.1)) := by
  have hstart : (ended (Session.stored Storage.load) s).2.storage.Holds Root.Led := by
    rw [ended_stored]
    exact Storage.Holds.led_load hnew hfound
  have hreached : t.storage.Holds Root.Led := by
    induction hrun with
    | refl => exact hstart
    | tail _ hstep ih => exact hstep.led ih
  obtain ⟨r, hr, hled⟩ := hreached
  refine ⟨r, hr, hled.none_iff.symm, fun id hid => ?_, fun id x hx => ?_, fun id => ?_⟩
  · exact Option.isSome_iff_exists.mp (Json.find?_isSome.mpr (hled.active id hid))
  · exact hled.own _ (Json.mem_of_find? hx)
  · obtain ⟨found, u, hdelete, hroot⟩ := hled.ended_delete hr id
    refine ⟨found, u, r.deleting id, hdelete, hroot, ?_, fun hother => ?_, fun hactive => ?_⟩
    · unfold Root.deleting
      split <;> rfl
    · unfold Root.deleting
      rw [if_neg hother]
    · unfold Root.deleting
      rw [if_pos hactive]
      rfl

/-- A session that finds a document of version 1. -/
def Session.older : Session :=
  .ofConfig .standard (.ofDocuments [("dynvar-root.json", olderRoot)]) 0 (.ofReplies [])

/-- What comes of it when a second suite is created, and automatic triggers are switched off. -/
def Session.grown : Session :=
  let s := (ended (stored Storage.load) older).2
  let t := (ended (SessionOperation.ofStorage
    (.ofSuites (.create (some "Daily") true none none))).perform s).2
  (ended (Service.setEnabled false).run t).2

theorem managedRun_grown :
    ManagedRun (ended (Session.stored Storage.load) .older).2 .grown :=
  .tail (.tail .refl (.ask
    (.ofStorage (.ofSuites (.create (some "Daily") true none none))) trivial)) (.enable false)

/-- The suite of version 1 stays active when another one is created. When it is deleted, that one
is left, and becomes active. -/
theorem active_suite_valid_older : ∃ (s t : Session) (r : Root), s.storage.store.root = none ∧
    (∃ text r chats, s.storage.shelf.find? s.storage.store.rootName = some text ∧
      Storage.RootReading.ofText ⟨s.storage.clock.now, false⟩ text = .root r (some chats)) ∧
    ManagedRun (ended (Session.stored Storage.load) s).2 t ∧ t.storage.store.root = some r ∧
    Json.keys r.suites = ["suite_migrated_v1", "suite_0qyxjj"] ∧
    r.settings.activeSuite = some "suite_migrated_v1" ∧
    ∃ found u r', ended (Suites.delete "suite_migrated_v1") t.storage = (.ok found, u) ∧
      u.store.root = some r' ∧ r'.settings.activeSuite = some "suite_0qyxjj" := by
  obtain ⟨old, hold⟩ := ofText_olderRoot
  have hfound : ∀ text, Session.older.storage.shelf.find? Session.older.storage.store.rootName =
      some text → ∃ r chats, Storage.RootReading.ofText
        ⟨Session.older.storage.clock.now, false⟩ text = .root r (some chats) := by
    intro text htext
    cases htext
    exact ⟨old, _, hold⟩
  obtain ⟨r, hr, -, -, -, hdelete⟩ := active_suite_valid rfl hfound managedRun_grown
  have hshape : (Session.grown.storage.store.root.map fun r =>
      (Json.keys r.suites, r.settings.activeSuite)) =
      some (["suite_migrated_v1", "suite_0qyxjj"], some "suite_migrated_v1") := by decide +kernel
  rw [hr] at hshape
  obtain ⟨hkeys, hactive⟩ := Prod.mk.inj (Option.some.inj hshape)
  obtain ⟨found, u, r', hdeleted, hroot, hleft, -, hnext⟩ := hdelete "suite_migrated_v1"
  refine ⟨.older, .grown, r, rfl, ⟨_, old, _, rfl, hold⟩, managedRun_grown, hr, hkeys, hactive,
    found, u, r', hdeleted, hroot, ?_⟩
  rw [hnext hactive, hleft, ← List.head?_map]
  have hkept : ((Json.keys r.suites).filter (· != "suite_migrated_v1")).head? =
      some "suite_0qyxjj" := by rw [hkeys]; decide
  rwa [Json.keys, List.filter_map] at hkept

end TagLedger
