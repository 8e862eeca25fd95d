import TagLedger.Proofs.Versions
import TagLedger.Proofs.Counting

/-!
# Values of version 1 and modes

A value of version 1 that is bare becomes a value of the kind that the mode of its variable keeps. A
value that has the shape of a stack or of a slot is read as such, whatever the mode is. So a value
that has moved is of the kind of its variable, unless it had the shape of the other kind. It is then
served until new content is stored under the variable, and is lost with that: what is stored begins
with an empty value of the right kind.

    the value that moved fits the mode  ↔  it was bare, or had the shape that goes with the mode
                                        ↔  the first new content extends it       (fits_moved_iff)
-/

namespace TagLedger

open Schema (Checked Context Decoder)

variable {ctx : Context}

/-! ## Shapes -/

namespace Value

/-- The mode whose values have this shape, if it is the shape of a value. -/
def shape? (raw : Json) : Option Mode :=
  match raw with
  | .obj fields =>
    let has (key : String) : Bool := (Json.find? fields key).isSome
    if has "entries" then some .stack
    else if has "currentValue" || has "current_value" || has "history" then some .replace
    else none
  | _ => none

/-- The mode that keeps values of this kind. -/
def mode : Value → Mode
  | .stack _ => .stack
  | .slot _ => .replace

theorem fits_iff {v : Value} {mode : Mode} : v.fits mode = true ↔ v.mode = mode := by
  cases v <;> cases mode <;> simp [fits, Value.mode]

/-- A value is read as its shape tells. -/
theorem read_eq (raw : Json) : read ctx raw = (shape? raw).map fun
    | .stack => (Stack.decode ctx raw).map .stack
    | .replace => (Slot.decode ctx raw).map .slot := by
  unfold read shape?
  cases raw with
  | obj fields =>
    dsimp only
    split
    · rfl
    · split <;> rfl
  | _ => rfl

end Value

/-! ## Values that move -/

namespace Migration

/-- A value that moved is of the kind that its shape tells, or else of the kind that goes with the
mode. -/
theorem mode_moveValue {mode : Mode} {raw : Json} {v : Value}
    (h : moveValue ctx mode raw = .ok (some v)) : v.mode = (Value.shape? raw).getD mode := by
  unfold moveValue at h
  rw [Value.read_eq] at h
  cases hshape : Value.shape? raw with
  | some told =>
    rw [hshape, Option.map_some] at h
    cases told with
    | stack =>
      cases hx : Stack.decode ctx raw with
      | valid x => rw [hx] at h; cases h; rfl
      | invalid issues => rw [hx] at h; cases h
    | replace =>
      cases hx : Slot.decode ctx raw with
      | valid x => rw [hx] at h; cases h; rfl
      | invalid issues => rw [hx] at h; cases h
  | none =>
    rw [hshape, Option.map_none] at h
    dsimp only at h
    split at h
    · cases h
    · obtain ⟨content, -, hv⟩ := map_eq_ok h
      cases hv
      cases mode <;> rfl

theorem of_mem_moveValues {moved : List Moved} {fields : List (String × Json)} {vs : ChatValues}
    (h : moveValues ctx moved fields = .ok vs) {x : String × Value} (hx : x ∈ vs) :
    ∃ raw v, (x.1, raw) ∈ fields ∧ v ∈ moved ∧ v.id = .str x.1 ∧
      moveValue ctx v.mode raw = .ok (some x.2) := by
  induction fields generalizing vs with
  | nil =>
    cases h
    cases hx
  | cons f fields ih =>
    obtain ⟨id, raw⟩ := f
    have hlater {vs : ChatValues} (h : moveValues ctx moved fields = .ok vs) (hx : x ∈ vs) :
        ∃ raw' v, (x.1, raw') ∈ (id, raw) :: fields ∧ v ∈ moved ∧ v.id = .str x.1 ∧
          moveValue ctx v.mode raw' = .ok (some x.2) := by
      obtain ⟨raw', v, hmem, hv⟩ := ih h hx
      exact ⟨raw', v, List.mem_cons_of_mem _ hmem, hv⟩
    unfold moveValues at h
    split at h
    · exact hlater h hx
    · next v hv =>
      have hsame := List.find?_some hv
      split at h
      · cases h
      · exact hlater h hx
      · next y hmoved =>
        obtain ⟨rest, hrest, rfl⟩ := map_eq_ok h
        rcases List.mem_cons.mp hx with rfl | hx
        · exact ⟨raw, v, List.mem_cons_self, List.mem_of_find?_eq_some hv, eq_of_sameId hsame, hmoved⟩
        · exact hlater hrest hx

theorem of_mem_moveChats {moved : List Moved} {fields : List (String × Json)}
    {chats : List (String × ChatValues)} (h : moveChats ctx moved fields = .ok chats)
    {c : String × ChatValues} (hc : c ∈ chats) :
    ∃ values, (c.1, .obj values) ∈ fields ∧ moveValues ctx moved values = .ok c.2 := by
  induction fields generalizing chats with
  | nil =>
    cases h
    cases hc
  | cons f fields ih =>
    obtain ⟨chat, j⟩ := f
    have hlater {chats : List (String × ChatValues)} (h : moveChats ctx moved fields = .ok chats)
        (hc : c ∈ chats) : ∃ values, (c.1, .obj values) ∈ (chat, j) :: fields ∧
          moveValues ctx moved values = .ok c.2 := by
      obtain ⟨values, hmem, hvalues⟩ := ih h hc
      exact ⟨values, List.mem_cons_of_mem _ hmem, hvalues⟩
    cases j with
    | obj values =>
      unfold moveChats at h
      split at h
      · cases h
      · exact hlater h hc
      · next hvalues =>
        obtain ⟨rest, hrest, rfl⟩ := map_eq_ok h
        rcases List.mem_cons.mp hc with rfl | hc
        · exact ⟨values, List.mem_cons_self, hvalues⟩
        · exact hlater hrest hc
    | _ => exact hlater h hc

/-! ## Variables that move -/

/-- The document of a definition tells its mode. -/
def Moved.Told (m : Moved) : Prop :=
  ∃ fields, m.document = .obj fields ∧ Json.find? fields "mode" = some (.str m.mode.text)

theorem told_moveDefinition {now : Int} {i : Nat} {j : Json} {m : Moved}
    (h : moveDefinition now i j = .ok (some m)) : m.Told := by
  unfold moveDefinition at h
  split at h
  · dsimp only at h
    split at h
    · cases h
    · obtain ⟨name, -, h⟩ := bind_eq_ok h
      split at h
      · cases h
      · cases h
        exact ⟨_, rfl, rfl⟩
  · cases h

theorem told_moveDefinitions {now : Int} {items : List (Nat × Json)} {done moved : List Moved}
    (h : moveDefinitions now items done = .ok moved) (hdone : ∀ v ∈ done, v.Told) :
    ∀ v ∈ moved, v.Told := by
  induction items generalizing done with
  | nil =>
    cases h
    exact hdone
  | cons x items ih =>
    unfold moveDefinitions at h
    split at h
    · cases h
    · exact ih h hdone
    · next m hm =>
      -- what `m` replaces keeps its identifier, of which nothing is said here
      refine ih h fun v hv => ?_
      have htold : m.Told := told_moveDefinition hm
      rcases mem_place hv with rfl | hv | ⟨b, -, -, rfl⟩
      · exact htold
      · exact hdone v hv
      · exact htold

theorem eq_of_sameId_left {s : String} {j : Json} (h : sameId (.str s) j) : j = .str s := by
  cases j with
  | str t => rw [beq_iff_eq.mp h]
  | _ => cases h

/-- The document of a definition carries the identifier of the definition, if either is a text. -/
theorem Moved.Labelled.id_iff {v : Moved} (h : v.Labelled) {fields : List (String × Json)}
    (hdoc : v.document = .obj fields) (id : String) :
    Json.find? fields "id" = some (.str id) ↔ v.id = .str id := by
  obtain ⟨j, rest, hlabel, hid⟩ := h
  obtain rfl : fields = ("id", j) :: rest := Json.obj.inj (hdoc.symm.trans hlabel)
  rw [Json.find?_cons, if_pos rfl, Option.some.injEq]
  constructor
  · rintro rfl
    exact hid.elim (fun h => h) eq_of_sameId
  · intro hv
    rcases hid with hid | hid
    · exact hid.symm.trans hv
    · rw [hv] at hid
      exact eq_of_sameId_left hid

/-- Of definitions whose identifiers are apart, one has an identifier. -/
theorem eq_of_apart {moved : List Moved} (h : Apart (moved.map (·.id))) {v w : Moved} {id : String}
    (hv : v ∈ moved) (hw : w ∈ moved) (hvid : v.id = .str id) (hwid : w.id = .str id) : v = w := by
  have hsame {a b : Moved} (ha : a.id = .str id) (hb : b.id = .str id) : sameId a.id b.id = true := by
    rw [ha, hb]
    exact beq_self_eq_true id
  unfold Apart at h
  rw [List.pairwise_map] at h
  induction moved with
  | nil => cases hv
  | cons a moved ih =>
    obtain ⟨ha, hrest⟩ := List.pairwise_cons.mp h
    rcases List.mem_cons.mp hv with rfl | hv' <;> rcases List.mem_cons.mp hw with rfl | hw'
    · rfl
    · exact absurd (hsame hvid hwid) (by rw [ha w hw']; decide)
    · exact absurd (hsame hwid hvid) (by rw [ha v hv']; decide)
    · exact ih hrest hv' hw'

end Migration

open Migration

/-! ## Documents that move -/

/-- A value of a variable in a chat stands in a root document of version 1. -/
def Json.HoldsOld (doc : Json) (chat id : String) (raw : Json) : Prop :=
  ∃ fields chats values, doc = .obj fields ∧ Json.find? fields "values" = some (.obj chats) ∧
    (chat, .obj values) ∈ chats ∧ (id, raw) ∈ values

/-- A variable with this identifier and mode stands in a root document. -/
def Json.HasVariable (root : Json) (id : String) (mode : Mode) : Prop :=
  ∃ fields ds d, root = .obj fields ∧ Json.find? fields "variables" = some (.obj ds) ∧
    (id, .obj d) ∈ ds ∧ Json.find? d "id" = some (.str id) ∧
    Json.find? d "mode" = some (.str mode.text)

theorem Mode.text_injective : Function.Injective Mode.text := fun a b h => by
  cases a <;> cases b <;> first | rfl | exact absurd h (by decide)

/-- A document that gives values of chats is of version 1. -/
theorem fromFirst_of_migrate {doc : Json} {m : Migration.Result} (h : migrate ctx doc = .ok m)
    (hchats : m.chats ≠ []) : ∃ fields, doc = .obj fields ∧ fromFirst ctx fields = .ok m := by
  have hn {fields : List (String × Json)} {v : Json} (n : Int)
      (hm : (if n = Root.currentVersion then Except.ok ⟨doc, [], none, orderOf fields⟩
        else if n = 1 then fromFirst ctx fields else .error (.version v.display)) = .ok m) :
      fromFirst ctx fields = .ok m := by
    split at hm
    · cases hm
      exact absurd rfl hchats
    · split at hm
      · exact hm
      · cases hm
  cases doc with
  | obj fields => exact ⟨fields, rfl, hn _ h⟩
  | _ => cases h

variable {moved : List Moved} {fields : List (String × Json)}

/-- A variable of the new root has the mode of the definition that moved. -/
theorem hasVariable_iff {version suites settings : Json} (hlabelled : ∀ v ∈ moved, v.Labelled)
    (htold : ∀ v ∈ moved, v.Told) (hapart : Apart (moved.map (·.id))) {w : Moved} {id : String}
    (hw : w ∈ moved) (hwid : w.id = .str id) (mode : Mode) :
    (Json.obj [("version", version), ("suites", suites),
      ("variables", .obj (moved.map fun v => (keyText v.id, v.document))),
      ("settings", settings)]).HasVariable id mode ↔ mode = w.mode := by
  constructor
  · rintro ⟨_, _, d, hroot, hds, hmem, hid, hmode⟩
    cases hroot
    cases hds
    obtain ⟨x, hx, hsame⟩ := List.mem_map.mp hmem
    obtain ⟨-, hdoc⟩ := Prod.mk.inj hsame
    have hxid := ((hlabelled x hx).id_iff hdoc id).mp hid
    obtain rfl := eq_of_apart hapart hx hw hxid hwid
    obtain ⟨_, hdoc', htext⟩ := htold x hx
    obtain rfl := Json.obj.inj (hdoc.symm.trans hdoc')
    exact Mode.text_injective (Json.str.inj (Option.some.inj (hmode.symm.trans htext)))
  · rintro rfl
    obtain ⟨d, hdoc, htext⟩ := htold w hw
    have hkey : keyText w.id = id := congrArg keyText hwid
    refine ⟨_, _, d, rfl, rfl, List.mem_map.mpr ⟨w, hw, ?_⟩,
      ((hlabelled w hw).id_iff hdoc id).mpr hwid, htext⟩
    rw [hkey, hdoc]

/-- The collection that a field holds, or an empty one, has an item: so it stands in the field. -/
theorem find?_of_orElse {key : String} {all : List (String × Json)} {f : String × Json}
    (hall : orElse ((Json.find? fields key).getD .null) (.obj []) = .obj all) (hf : f ∈ all) :
    Json.find? fields key = some (.obj all) := by
  unfold orElse at hall
  split at hall
  · cases hfound : Json.find? fields key with
    | none => rw [hfound] at hall; cases hall
    | some j => rw [hfound] at hall; exact congrArg some hall
  · cases hall
    cases hf

/-- A value that moved stood in the document, and belongs to one variable of the new root. It is of
the kind that its shape tells, or else of the kind that goes with the mode of the variable. -/
theorem of_moved {doc : Json} {m : Migration.Result} (h : migrate ctx doc = .ok m) {chat id : String}
    {vs : ChatValues} {v : Value} (hvs : (chat, vs) ∈ m.chats) (hv : (id, v) ∈ vs) :
    ∃ mode raw, (∀ other, m.root.HasVariable id other ↔ other = mode) ∧ doc.HoldsOld chat id raw ∧
      v.mode = (Value.shape? raw).getD mode := by
  obtain ⟨fields, rfl, hfirst⟩ := fromFirst_of_migrate h (List.ne_nil_of_mem hvs)
  obtain ⟨items, moved, _, enabled, api, suites, hmoved, -, -, -, hchats, hroot⟩ :=
    steps_of_fromFirst hfirst
  obtain ⟨hlabelled, hapart⟩ := of_moveDefinitions hmoved (fun a ha => by cases ha) List.Pairwise.nil
  have htold := told_moveDefinitions hmoved (fun a ha => by cases ha)
  unfold moveAllValues at hchats
  split at hchats
  · next all hall =>
    obtain ⟨values, hchat, hmove⟩ := of_mem_moveChats hchats hvs
    obtain ⟨raw, w, hraw, hw, hwid, hvalue⟩ := of_mem_moveValues hmove hv
    refine ⟨w.mode, raw, fun other => ?_, ?_, mode_moveValue hvalue⟩
    · rw [hroot]
      exact hasVariable_iff hlabelled htold hapart hw hwid other
    · exact ⟨fields, all, values, rfl, find?_of_orElse hall hchat, hchat, hraw⟩
  · cases hchats

/-! ## New content -/

variable {s : Storage} {chat id : String} {vs : ChatValues} {v : Value}

/-- What a value holds is kept, and a new content comes after it. -/
inductive Value.ExtendedBy (content : String) : Value → Value → Prop where
  | stack {a b : Stack} {e : Entry} (hentries : b.entries = a.entries ++ [e])
      (hcontent : e.content = content) : ExtendedBy content (.stack a) (.stack b)
  | slot {a b : Slot} {floors : String} {now : Int} (h : a.Replaced b ⟨content, floors⟩ now) :
      ExtendedBy content (.slot a) (.slot b)

/-- Stores a content under a variable of a mode. -/
def Mode.store (mode : Mode) (id chat content floors : String) : Activity Storage Unit :=
  match mode with
  | .stack => do
    let _ ← Variables.addEntry id chat content floors
  | .replace => do
    let _ ← Variables.put id chat content floors

/-- The value of a mode that holds nothing. -/
def Mode.empty : Mode → Value
  | .stack => .stack .empty
  | .replace => .slot .empty

/-- New content is stored whatever value the variable has: after a value of the kind of the mode, and
in place of a value of the other kind. -/
theorem ended_store (hu : s.store.usable? chat = some vs) (hv : Json.find? vs id = some v)
    (mode : Mode) (content floors : String) : ∃ t w,
      ended (mode.store id chat content floors) s = (.ok (), t) ∧
      t.store.usable? chat = some (Json.insert vs id w) ∧
      (if v.fits mode then v else mode.empty).ExtendedBy content w ∧
      (v.ExtendedBy content w ↔ v.fits mode = true) := by
  cases mode with
  | stack =>
    have hadd := Variables.ended_addEntry (Variables.ended_stack_usable hu id) hu content floors
    refine ⟨_, _, ended_bind_ok hadd _, Variables.usable_stored hu id _, ?_⟩
    unfold ChatValues.stack
    rw [hv]
    cases v with
    | stack a => exact ⟨.stack rfl rfl, fun _ => rfl, fun _ => .stack rfl rfl⟩
    | slot a => exact ⟨.stack rfl rfl, nofun, nofun⟩
  | replace =>
    have hput := Variables.ended_put hu id content floors
    refine ⟨_, _, ended_bind_ok hput _, Variables.usable_stored hu id _, ?_⟩
    unfold ChatValues.slot
    rw [hv]
    cases v with
    | stack a => exact ⟨.slot (Slot.replaced_put .empty content floors _), nofun, nofun⟩
    | slot a =>
      have hput := Slot.replaced_put a content floors s.clock.now
      exact ⟨.slot hput, fun _ => rfl, fun _ => .slot hput⟩

/-- A store that was not used before has loaded a root document of version 1, which held these values
of chats. -/
def Storage.HasMoved (chats : List (String × ChatValues)) (t : Storage) : Prop :=
  ∃ s name start debounce epoch text r, s.store = .empty name start debounce epoch ∧
    (s.shelf.read name).1 = .ok (some text) ∧
    RootReading.ofText ⟨s.clock.now, false⟩ text = .root r (some chats) ∧
    t = (ended Storage.load s).2

/-- Values that moved are in memory, whatever was refused when they were written. -/
theorem Storage.HasMoved.usable {chats : List (String × ChatValues)} (h : s.HasMoved chats)
    (hvs : (chat, vs) ∈ chats) : s.store.usable? chat = some vs := by
  obtain ⟨s, name, start, debounce, epoch, text, r, hnew, htext, hread, rfl⟩ := h
  have hname : s.store.rootName = name := by rw [hnew]; rfl
  have hroot : s.store.root = none := by rw [hnew]; rfl
  have hheld : s.store.held = [] := by rw [hnew]; rfl
  let looked : Storage := { s with
    store := { s.store with held := [(.root s.store.epoch, 0)] }
    shelf := (s.shelf.read s.store.rootName).2 }
  have hvalues : looked.store.values = [] := by simp only [looked, hnew]; rfl
  have hdistinct := (migrated_of_ofText hread).distinct
  obtain ⟨dirty, -, htake⟩ := exec_takeRoot_moved (s := looked) hread hvalues hdistinct
  let taken : Storage := { looked with store := { looked.store with
    root := some r, values := chats, rootDirty := true, dirty := dirty } }
  -- what is taken over is written at once, and that changes no values
  let Kept (t : Storage) : Prop :=
    t.store.usable? chat = some vs ∧ t.store.held = [(.root s.store.epoch, 0)]
  have htaken : Kept taken := by
    have hunmarked : taken.store.isDegraded chat = false := by
      simp only [taken, looked, hnew]
      rfl
    refine ⟨(Store.usable?_of_not_degraded hunmarked).trans ?_, rfl⟩
    exact Json.find?_of_mem hdistinct hvs
  have hwriting : KeepsWriting (Always Kept) := .ofMemory fun _ _ _ _ _ _ _ h => h
  have hkept : Kept (exec flushQuietly taken).2 := hwriting.flushQuietly none _ htaken
  have hrun : ∃ result, exec (takeRoot (s.shelf.read s.store.rootName).1) looked =
      (result, (exec flushQuietly taken).2) := by
    rw [hname, htext, htake, exec_bind]
    rcases exec flushQuietly taken with ⟨_ | _, t⟩
    · exact ⟨_, rfl⟩
    · exact ⟨_, rfl⟩
  obtain ⟨result, hrun⟩ := hrun
  rw [ended_load hroot hheld hrun hkept.2]
  exact hkept.1

/-- Each value that moved belongs to one variable of the new root, and is of the kind of its mode
unless it stood in the document in the shape of the other kind. If it is of this kind, the first
content that is stored under the variable extends it; if not, nothing of it is left then. -/
theorem fits_moved_iff {doc : Json} {m : Migration.Result} (h : migrate ctx doc = .ok m)
    (hvs : Json.find? m.chats chat = some vs) (hv : Json.find? vs id = some v) :
    ∃ mode raw, (∀ other, m.root.HasVariable id other ↔ other = mode) ∧
      doc.HoldsOld chat id raw ∧
      (v.fits mode = true ↔ ∀ told, Value.shape? raw = some told → told = mode) ∧
      ∀ s : Storage, s.HasMoved m.chats ∨ s.store.usable? chat = some vs →
        ∀ content floors, ∃ t w, ended (mode.store id chat content floors) s = (.ok (), t) ∧
          t.store.usable? chat = some (Json.insert vs id w) ∧
          (if v.fits mode then v else mode.empty).ExtendedBy content w ∧
          (v.ExtendedBy content w ↔ v.fits mode = true) := by
  have hchat := Json.mem_of_find? hvs
  obtain ⟨mode, raw, hvariable, hold, hkind⟩ := of_moved h hchat (Json.mem_of_find? hv)
  refine ⟨mode, raw, hvariable, hold, ?_, fun s hs content floors => ?_⟩
  · rw [Value.fits_iff, hkind]
    cases Value.shape? raw with
    | none => exact ⟨fun _ => nofun, fun _ => rfl⟩
    | some told => exact ⟨fun hsame _ hother => Option.some.inj hother ▸ hsame, fun hsame => hsame _ rfl⟩
  · have hu : s.store.usable? chat = some vs := hs.elim (fun hmoved => hmoved.usable hchat) fun h => h
    exact ended_store hu hv mode content floors

/-- A document of version 1 with a stack variable, whose value has the shape of a slot. -/
def Json.mixed : Json :=
  .obj [("version", .int 1),
    ("definitions", .arr [.obj [("id", .str "v"), ("name", .str "log"), ("mode", .str "stack")]]),
    ("values", .obj [("c", .obj [("v", .obj [("currentValue", .str "Day one")])])])]

/-- A new storage whose root is this document. -/
def Storage.ofMixed : Storage :=
  ⟨.empty "root" "values-" 0 0, .ofDocuments [("root", Json.render .page Json.mixed)], ⟨7, 0⟩, .start⟩

theorem hasMoved_mixed : (ended Storage.load .ofMixed).2.HasMoved
    [("c", [("v", .slot { Slot.empty with current := "Day one" })])] := by
  have hkeyed : Json.mixed.Keyed := by
    simp [Json.mixed, Json.Keyed, Json.KeyedFields, Json.KeyedItems]
  have hparse : Json.parseText (Json.render .page Json.mixed) = .ok Json.mixed :=
    Json.parseText_render rfl hkeyed (by decide)
  have hread : ∃ r, Storage.RootReading.ofText ⟨7, false⟩ (Json.render .page Json.mixed) =
      .root r (some [("c", [("v", .slot { Slot.empty with current := "Day one" })])]) := by
    unfold Storage.RootReading.ofText
    simp only [hparse]
    exact ⟨_, rfl⟩
  obtain ⟨r, hr⟩ := hread
  exact ⟨.ofMixed, "root", "values-", 0, 0, _, r, rfl, rfl, hr, rfl⟩

/-- The value becomes a slot. The first entry that is added is alone in its stack. -/
theorem fits_moved_iff_mixed : ∃ (m : Migration.Result) (vs : ChatValues) (v w : Value) (t : Storage),
    migrate ⟨7, false⟩ Json.mixed = .ok m ∧ Json.find? m.chats "c" = some vs ∧
      Json.find? vs "v" = some v ∧ m.root.HasVariable "v" .stack ∧ v.fits .stack = false ∧
      ended (Mode.stack.store "v" "c" "Day two" "6") (ended Storage.load .ofMixed).2 = (.ok (), t) ∧
      t.store.usable? "c" = some (Json.insert vs "v" w) ∧
      (Mode.empty .stack).ExtendedBy "Day two" w ∧ ¬ v.ExtendedBy "Day two" w := by
  let v : Value := .slot { Slot.empty with current := "Day one" }
  have hmove : migrate ⟨7, false⟩ Json.mixed = .ok _ := rfl
  have hvs : Json.find? [("c", [("v", v)])] "c" = some [("v", v)] := rfl
  have hv : Json.find? [("v", v)] "v" = some v := rfl
  obtain ⟨mode, raw, hvariable, -, -, hstore⟩ := fits_moved_iff hmove hvs hv
  have hmode : Mode.stack = mode :=
    (hvariable .stack).mp ⟨_, _, _, rfl, rfl, List.mem_singleton_self _, rfl, rfl⟩
  subst hmode
  obtain ⟨t, w, hrun, hu, hfirst, hextended⟩ := hstore _ (.inl hasMoved_mixed) "Day two" "6"
  exact ⟨_, _, v, w, t, hmove, hvs, hv, (hvariable .stack).mpr rfl, rfl, hrun, hu, hfirst,
    fun h => absurd (hextended.mp h) (by decide)⟩

end TagLedger
