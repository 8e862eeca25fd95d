import TagLedger.Proofs.Failing
import TagLedger.Proofs.Numbered

/-!
# Runs on stacks

Entries join stacks, change, leave and change places, values are inherited, documents are written,
time passes, the shelf refuses what it likes, and a new store takes over the documents. All stacks
stay numbered, in memory and in the documents.

    Tracks used copies I → every operation on stacks keeps I                       (Tracks.perform)
    StackRun OnStacks s t, and s is new with numbered documents → StackLaws t       (stack_laws)
-/

namespace TagLedger

variable {s t : Storage} {r : Root} {chat id : String} {vs : ChatValues}

/-! ## What is kept -/

/-- All stacks are numbered, in memory and in the documents. -/
structure Storage.Numbered (s : Storage) : Prop where
  values : ∀ c ∈ s.store.values, c.2.Numbered ∧ (Json.keys c.2).Nodup
  root : ∀ r, s.store.root = some r → { r with version := Root.currentVersion }.Sound
  documents : ∀ d ∈ s.shelf.documents, NumberedText d.2

/-- Nothing is in memory before the root is, and nothing of a chat that could not be read. -/
structure Storage.Blank (s : Storage) : Prop where
  unloaded : s.store.root = none → s.store.values = [] ∧ s.store.degraded = []
  degraded : ∀ chat, s.store.isDegraded chat = true → s.store.cached? chat = some []

/-- While the root is read, no chat is. -/
structure Opening (s : Storage) : Prop where
  numbered : s.Numbered
  empty : s.store.root = none → s.store.values = []
  readable : s.store.degraded = []

namespace Storage.Numbered

theorem cached (h : s.Numbered) (hc : s.store.cached? chat = some vs) :
    vs.Numbered ∧ (Json.keys vs).Nodup := h.values _ (Json.mem_of_find? hc)

theorem usable (h : s.Numbered) (hu : s.store.usable? chat = some vs) : vs.Numbered := by
  unfold Store.usable? at hu
  split at hu
  · contradiction
  · exact (h.cached hu).1

theorem setValues (h : s.Numbered) (hvs : vs.Numbered) (hk : (Json.keys vs).Nodup)
    {degraded dirty : List String} {valuesTimer : Option Nat} :
    Storage.Numbered { s with store := { s.store.setValues chat vs with
      degraded := degraded, dirty := dirty, valuesTimer := valuesTimer } } :=
  { h with values := fun c hc => (Json.mem_insert hc).elim (fun e => e ▸ ⟨hvs, hk⟩) (h.values c) }

theorem stored (h : s.Numbered) (hu : s.store.usable? chat = some vs) {v : Value}
    (hv : v.Numbered) : (s.stored chat (Json.insert vs id v)).Numbered := by
  rw [Store.usable?_of_not_degraded (Store.not_degraded_of_usable hu)] at hu
  obtain ⟨hvs, hk⟩ := h.cached hu
  exact h.setValues (hvs.insert id hv) (Json.nodup_keys_insert hk id v)

theorem setRoot (h : s.Numbered) (hr : { r with version := Root.currentVersion }.Sound)
    {degraded dirty : Bool} : Storage.Numbered { s with store := { s.store with
      root := some r, rootDegraded := degraded, rootDirty := dirty } } :=
  { h with root := fun _ hr' => Option.some.inj hr' ▸ hr }

theorem answer (h : s.Numbered) {name text : String} (ha : (s.shelf.read name).1 = .ok (some text)) :
    NumberedText text := h.documents _ (Json.mem_of_find? (Storage.find?_of_read ha))

theorem kept (h : s.Numbered) {name : String} {raw : List (String × Json)}
    (hraw : Storage.rawOf? (s.shelf.read name).1 = some raw) (r : Root) :
    ChatValues.Numbered (s.kept r raw) ∧ (Json.keys (s.kept r raw)).Nodup := by
  have hraw := Storage.rawValues?_of_rawOf? hraw
  have hnumbered : ChatValues.Numbered (Storage.readValues ⟨s.clock.now, false⟩ raw) := by
    cases htext : s.shelf.find? name with
    | none =>
      rw [htext] at hraw
      cases hraw
      exact nofun
    | some text =>
      rw [htext] at hraw
      exact (h.documents _ (Json.mem_of_find? htext)).values _ _ hraw
  refine ⟨fun v hv => hnumbered v (List.mem_filter.mp hv).1, ?_⟩
  have hsub : (s.kept r raw).Sublist (Storage.readValues ⟨s.clock.now, false⟩ raw) :=
    List.filter_sublist
  exact (nodup_keys_rawValues? hraw).sublist ((hsub.map _).trans (keys_readValues raw))

/-- What was read is taken over numbered. -/
theorem looked (h : s.Numbered) (r : Root) (chat name : String) :
    (s.looked r chat name).2.Numbered := by
  unfold Storage.looked Storage.taken
  split
  · refine { h with values := fun c hc => ?_ }
    change c ∈ (if (s.store.cached? chat).isSome then s.store.values
      else s.store.values ++ [(chat, [])]) at hc
    split at hc
    · exact h.values c hc
    · rcases List.mem_append.mp hc with hc | hc
      · exact h.values c hc
      · rw [List.mem_singleton.mp hc]
        exact ⟨nofun, List.nodup_nil⟩
  · next raw hraw =>
    obtain ⟨hvs, hk⟩ := h.kept hraw r
    have hread : Storage.Numbered { s with shelf := (s.shelf.read name).2 } := { h with }
    dsimp only
    split
    · exact hread.setValues hvs hk
    · exact hread.setValues hvs hk

theorem writing : KeepsWriting (Always Storage.Numbered) := by
  refine .ofAttempts (fun _ _ _ _ _ _ _ h => { h with }) (fun _ s r h hr _ hw => ?_)
    fun _ s c vs h hc _ hw => ?_
  · obtain ⟨_, shelf, hrun, -, hdocs⟩ := s.attemptRoot_cases r
    rw [hrun]
    refine { h with documents := fun d hd => ?_ }
    rcases hdocs with ⟨-, hsame⟩ | ⟨-, hwritten⟩
    · exact h.documents d (hsame ▸ hd)
    · rw [hwritten] at hd
      exact (Json.mem_insert hd).elim (fun e => e ▸ numberedText_root (h.root r hr) hw)
        (h.documents d)
  · obtain ⟨_, shelf, hrun, -, -, hdocs⟩ := s.attemptChat_cases c vs
    rw [hrun]
    refine { h with documents := fun d hd => ?_ }
    rcases hdocs with ⟨-, hsame⟩ | ⟨-, -, hdropped⟩ | ⟨-, hfull, hwritten⟩
    · exact h.documents d (hsame ▸ hd)
    · rw [hdropped] at hd
      exact h.documents d (List.mem_filter.mp hd).1
    · obtain ⟨hvs, hk⟩ := h.cached hc
      rw [hwritten] at hd
      exact (Json.mem_insert hd).elim
        (fun e => e ▸ numberedText_values hk hvs (hw.resolve_left hfull)) (h.documents d)

end Storage.Numbered

/-- A root that a store finds is sound, but for its version. -/
theorem Root.Found.sound {r : Root} (h : r.Found) :
    { r with version := Root.currentVersion }.Sound := by
  rcases h with rfl | ⟨ctx, text, moved, hread⟩
  · exact Synced.sound_standard
  · exact sound_of_ofText hread

namespace Opening

/-- With a root in memory, documents are written, and values of an older root are taken over. -/
theorem writing : KeepsWriting (Always fun s =>
    s.Numbered ∧ s.store.root.isSome = true ∧ s.store.degraded = []) :=
  Storage.Numbered.writing.and (.ofMemory fun _ _ _ _ _ _ _ h => h)

theorem ofRoot (h : s.Numbered ∧ s.store.root.isSome = true ∧ s.store.degraded = []) :
    Opening s where
  numbered := h.1
  empty hroot := absurd h.2.1 (by rw [hroot]; decide)
  readable := h.2.2

theorem takeRoot (h : Opening s) (name : String) : Opening
    (exec (Storage.takeRoot (s.shelf.read name).1) { s with shelf := (s.shelf.read name).2 }).2 := by
  let read : Storage := { s with shelf := (s.shelf.read name).2 }
  have hread : read.Numbered := { h.numbered with }
  have hadopt (now : Int) (text : String) (r : Root) (chats : List (String × ChatValues))
      (ha : (s.shelf.read name).1 = .ok (some text))
      (hof : Storage.RootReading.ofText ⟨now, false⟩ text = .root r (some chats)) :
      KeepsNow (Always fun s => s.Numbered ∧ s.store.root.isSome = true ∧ s.store.degraded = [])
        (Storage.adopt chats) := .adopt fun c hc _ t ht =>
    ⟨ht.1.setValues ((h.numbered.answer ha).moved _ _ _ hof c hc)
      ((migrated_of_ofText hof).values c hc).keys, ht.2⟩
  have hleft := Storage.takeRoot_leaves (s := read) writing
    (fun r _ _ hr => ⟨hread.setRoot hr.sound, rfl, h.readable⟩) hadopt
    fun _ ht => ⟨{ ht.1 with }, ht.2⟩
  rcases hleft with hsame | hroot
  · rw [hsame]
    exact { numbered := hread, empty := h.empty, readable := h.readable }
  · exact ofRoot hroot

theorem load : Keeps (Always Opening) Storage.load :=
  .load (fun _ _ _ _ h =>
      { numbered := { h.numbered with }, empty := h.empty, readable := h.readable })
    fun _ s₀ _ _ _ h => h.takeRoot s₀.store.rootName

end Opening

namespace Storage.Blank

theorem writing : KeepsWriting (Always Storage.Blank) :=
  .ofMemory fun _ _ _ _ _ _ _ h => { unloaded := h.unloaded, degraded := h.degraded }

theorem cached (h : s.Blank) (hu : s.store.usable? chat = none) :
    (s.store.cached? chat).getD [] = [] := by
  cases hd : s.store.isDegraded chat with
  | true =>
    rw [h.degraded chat hd]
    rfl
  | false =>
    rw [← Store.usable?_of_not_degraded hd, hu]
    rfl

theorem looked (h : s.Blank) (hroot : s.store.root = some r) (hu : s.store.usable? chat = none)
    (name : String) : (s.looked r chat name).2.Blank := by
  have hcached := Storage.cached?_looked s r chat name
  have hmarked := Storage.isDegraded_looked s r chat name
  obtain ⟨values, degraded, dirty, timer, hframe⟩ := Storage.looked_frame s r chat name
  refine ⟨fun hnone => ?_, fun other hd => ?_⟩
  · rw [hframe] at hnone
    exact absurd (hroot.symm.trans hnone) nofun
  · have hd := (hmarked other).symm.trans hd
    refine (hcached other).trans ?_
    split at hd
    · next he =>
      rw [if_pos he]
      unfold Storage.looked Storage.taken
      cases hraw : Storage.rawOf? (s.shelf.read name).1 with
      | none => exact congrArg some (h.cached hu)
      | some raw =>
        rw [hraw] at hd
        cases hd
    · next he =>
      rw [if_neg he]
      exact h.degraded other hd

theorem stored (h : s.Blank) (hu : s.store.usable? chat = some vs) (new : ChatValues) :
    (s.stored chat new).Blank := by
  have hreadable := Store.not_degraded_of_usable hu
  refine ⟨fun hroot => ?_, fun other hd => ?_⟩
  · rw [Store.usable?_of_not_degraded hreadable] at hu
    unfold Store.cached? at hu
    rw [(h.unloaded hroot).1] at hu
    contradiction
  · have hne : chat ≠ other := by
      rintro rfl
      exact absurd (hreadable.symm.trans hd) nofun
    refine (Store.cached?_setValues s.store chat new other).trans ?_
    rw [if_neg hne]
    exact h.degraded other hd

end Storage.Blank

/-! ## What operations do -/

/-- The stack has changed by one operation. -/
structure Stack.Follows (old new : Stack) : Prop where
  numbered : old.Numbered → new.Numbered
  nextId : old.nextId ≤ new.nextId

namespace Stack.Follows

variable {old new : Stack}

theorem push (old : Stack) (content floors : String) (time : Int) :
    old.Follows (old.push content floors time) :=
  ⟨fun h => h.push content floors time, Int.le_add_one (le_refl _)⟩

theorem modify (old : Stack) (id : Int) {f : Entry → Entry} (hf : ∀ e, (f e).id = e.id) :
    old.Follows (old.modify id f) :=
  ⟨fun h => h.modify id hf, le_refl _⟩

theorem erase (old : Stack) (id : Int) : old.Follows (old.erase id) :=
  ⟨fun h => h.erase id, le_refl _⟩

theorem reorder {ids : List Int} (h : old.reorder? ids = some new) : old.Follows new := by
  refine ⟨fun hold => ?_, ?_⟩
  · obtain ⟨hperm, rfl⟩ := (Stack.reorder?_eq_some_iff hold).mp h
    exact hold.perm (Stack.of_perm hold hperm).2 rfl
  · unfold Stack.reorder? at h
    dsimp only at h
    split at h
    · obtain rfl := Option.some.inj h
      exact le_refl _
    · contradiction

end Stack.Follows

/-- A chat is in memory with these values, with none if it could not be read. -/
def Storage.Ready (s : Storage) (chat : String) (vs : ChatValues) : Prop :=
  s.store.usable? chat = some vs ∨
    s.store.isDegraded chat = true ∧ s.store.cached? chat = some [] ∧ vs = []

/-- `I` is kept when chats for which `reads` holds are read and their stacks are changed, and when
values are put into those for which `copies` holds. -/
structure Tracks (reads copies : String → Prop) (I : Storage → Prop) : Prop where
  unlocked : Unlocked I
  tidy : ∀ {s}, I s → s.Numbered ∧ s.Blank
  writing : KeepsWriting (Always I)
  load : ∀ {s}, I s → I (ended Storage.load s).2
  looked : ∀ {s r chat}, I s → s.store.root = some r → reads chat →
    s.store.usable? chat = none →
      I (s.looked r chat (Store.valuesName s.store.valuesStart chat)).2
  changed : ∀ {s chat vs id new}, I s → s.store.usable? chat = some vs →
    (vs.stack id).Follows new → I (s.stored chat (Json.insert vs id (.stack new)))
  copied : ∀ {s chat vs id v}, I s → copies chat → s.store.usable? chat = some vs →
    v.Numbered → I (s.stored chat (Json.insert vs id v))
  soon : ∀ {s chat}, I s → I { s with store := s.store.soon chat s.clock.elapsed }
  rootSoon : ∀ {s rootTimer}, I s →
    I { s with store := { s.store with rootDirty := true, rootTimer := rootTimer } }
  around : ∀ {s} clock refuses, I s →
    I { s with clock := clock, shelf := { s.shelf with refuses := refuses } }

/-- What stacks are asked for, and chats that values are inherited from. -/
def Operation.OnStacks (reads copies : String → Prop) : Operation → Prop
  | .ofStore .load | .ofStore .save | .ofStore .saveSoon | .ofStore .flush | .ofStore .close => True
  | .ofStore (.loadValues chat) | .ofStore (.getValue _ chat) | .ofStore (.saveValues chat)
  | .ofStore (.saveValuesSoon chat) | .ofVariables (.stack _ chat)
  | .ofVariables (.addEntry _ chat _ _) | .ofVariables (.updateEntry _ chat _ _)
  | .ofVariables (.toggleEntry _ chat _) | .ofVariables (.deleteEntry _ chat _)
  | .ofVariables (.reorderEntries _ chat _) => reads chat
  | .ofVariables (.inherit source target _ _) => reads source ∧ reads target ∧ copies target
  | _ => False

/-- What was loaded is ready. -/
theorem Storage.Blank.ready (h : (s.loaded r chat).2.Blank) :
    (s.loaded r chat).2.Ready chat (s.loaded r chat).1 := by
  rcases Storage.loaded_cases s r chat with husable | ⟨-, -, hd, hcached⟩
  · exact Or.inl husable
  · have hblank := h.degraded chat hd
    exact Or.inr ⟨hd, hblank, Option.some.inj (hcached.symm.trans hblank)⟩

namespace Meets

theorem ofAction {α : Type} {I : Storage → Prop} {x : Action Storage α}
    (hx : KeepsNow (Always I) x) : Meets I I (.ofAction x) fun _ => I :=
  Meets.iff_left.mpr fun s hs => hx none s hs

variable {I : Storage → Prop}
  (hload : Meets I I (Storage.loadValues chat) fun vs s => I s ∧ s.Ready chat vs)

include hload

theorem stack (id : String) : Meets I I (Variables.stack id chat) fun old s =>
    I s ∧ ∃ vs, s.Ready chat vs ∧ vs.stack id = old := by
  unfold Variables.stack Storage.getValue
  refine Meets.bind (Q := fun v s => I s ∧ ∃ vs, s.Ready chat vs ∧ Json.find? vs id = v)
    (hload.bind fun vs => .pure fun s hs => ⟨hs.1, vs, hs.2, rfl⟩) fun v => ?_
  split
  · next old =>
    refine .pure fun s ⟨hs, vs, hready, hv⟩ => ⟨hs, vs, hready, ?_⟩
    unfold ChatValues.stack
    rw [hv]
    rfl
  · next hother =>
    refine .pure fun s ⟨hs, vs, hready, hv⟩ => ⟨hs, vs, hready, ?_⟩
    unfold ChatValues.stack
    rw [hv]
    cases v with
    | none => rfl
    | some v =>
      cases v with
      | stack old => exact absurd rfl (hother old)
      | slot x => rfl

theorem setValue {v : Value} (hstored : ∀ s vs, I s → s.store.usable? chat = some vs →
    I (s.stored chat (Json.insert vs id v))) :
    Meets I I (Storage.setValue id chat v) fun _ => I := by
  have hcheck {P : Storage → Prop} (hP : ∀ s, P s → I s) :
      Meets I P (.ofAction (Storage.checkWritable chat)) fun _ s =>
        P s ∧ s.store.isDegraded chat = false := fun s hs => by
    rw [ended_ofAction, Storage.exec_checkWritable]
    cases hd : s.store.isDegraded chat with
    | true => exact hP s hs
    | false => exact ⟨hs, hd⟩
  unfold Storage.setValue
  refine (hcheck fun _ hs => hs).bind fun _ => ?_
  refine Meets.bind (hload.mono (fun _ hs => hs.1) fun _ _ hs => hs) fun vs => ?_
  refine (hcheck fun _ hs => hs.1).bind fun _ => .ok ?_
  rintro s ⟨⟨hs, hu | ⟨hd, -⟩⟩, hreadable⟩
  · exact ⟨(), s.stored chat (Json.insert vs id v), rfl, hstored s vs hs hu⟩
  · exact absurd (hreadable.symm.trans hd) nofun

/-- In a chat that could not be read there is nothing to change where it lies. -/
theorem editValue (hblank : ∀ s, I s → s.Blank) {v : Value}
    (hstored : ∀ s vs, I s → s.store.usable? chat = some vs →
      I (s.stored chat (Json.insert vs id v))) :
    Meets I I (Storage.editValue id chat v) fun _ => I := fun s hs => by
  cases hd : s.store.isDegraded chat with
  | false =>
    have hsame : ended (Storage.editValue id chat v) s = ended (Storage.setValue id chat v) s :=
      congrArg Progress.finish (Storage.editValue_eq hd id v)
    rw [hsame]
    exact Meets.setValue hload hstored s hs
  | true =>
    have hnone : s.store.value? id chat = none := by
      unfold Store.value?
      rw [(hblank s hs).degraded chat hd]
      rfl
    rw [Storage.ended_editValue_refused hd hnone]
    exact hs

end Meets

/-- Begun in a state as `I` says, `x` leaves such a state, also when it fails. -/
abbrev Preserves {α : Type} (I : Storage → Prop) (x : Activity Storage α) : Prop :=
  Meets I I x fun _ => I

theorem Preserves.compositional {I : Storage → Prop} : Compositional fun _ x => Preserves I x where
  pure _ := .pure fun _ hs => hs
  throw e := .throw e fun _ hs => hs
  bind hx hf := hx.bind hf
  now := .ofAction .now

namespace Tracks

variable {reads copies : String → Prop} {I : Storage → Prop} (h : Tracks reads copies I)

include h

theorem loadRoot : Meets I I Storage.load fun _ => I := Meets.iff_left.mpr fun _ hs => h.load hs

theorem loadValues (hc : reads chat) :
    Meets I I (Storage.loadValues chat) fun vs s => I s ∧ s.Ready chat vs := fun s hs => by
  cases hu : s.store.usable? chat with
  | some vs =>
    rw [Storage.ended_loadValues_usable hu]
    exact ⟨hs, Or.inl hu⟩
  | none =>
    have hload := h.load hs
    rcases hrun : ended Storage.load s with ⟨a, t⟩
    rw [hrun] at hload
    cases a with
    | error e =>
      rw [Storage.ended_loadValues_error hu hrun]
      exact hload
    | ok r =>
      obtain ⟨held, granted, hloaded⟩ := Storage.ended_loadValues_of_load hu hrun
      rw [hloaded]
      have hI : I (t.loaded r chat).2 := by
        cases hut : t.store.usable? chat with
        | some vs =>
          rw [Storage.loaded_usable hut]
          exact hload
        | none =>
          rw [Storage.loaded_unusable hut]
          exact h.looked hload (Storage.root_of_load hrun) hc hut
      exact ⟨h.unlocked _ held granted hI, (h.tidy hI).2.ready⟩

theorem stack (hc : reads chat) (id : String) : Meets I I (Variables.stack id chat) fun old s =>
    I s ∧ ∃ vs, s.Ready chat vs ∧ vs.stack id = old := Meets.stack (h.loadValues hc) id

/-- A changed stack is stored, or refused if the chat could not be read. -/
theorem edit {old new : Stack} (hnew : old.Follows new) :
    Meets I (fun s => I s ∧ ∃ vs, s.Ready chat vs ∧ vs.stack id = old)
      (Storage.editValue id chat (.stack new)) fun _ => I := by
  rintro s ⟨hs, vs, hu | ⟨hd, hcached, -⟩, rfl⟩
  · rw [Storage.ended_editValue_usable hu]
    exact h.changed hs hu hnew
  · have hnone : s.store.value? id chat = none := by
      unfold Store.value?
      rw [hcached]
      rfl
    rw [Storage.ended_editValue_refused hd hnone]
    exact hs

theorem addEntry (hc : reads chat) (id content floors : String) :
    Meets I I (Variables.addEntry id chat content floors) fun _ => I := by
  unfold Variables.addEntry
  refine (h.stack hc id).bind fun old => ?_
  refine Meets.bind (Q := fun _ s => I s ∧ ∃ vs, s.Ready chat vs ∧ vs.stack id = old)
    (.ok fun s hs => ⟨s.clock.now, s, rfl, hs⟩) fun now => ?_
  exact (h.edit (.push old content floors now)).bind fun _ => .pure fun _ hs => hs

theorem changeEntry (hc : reads chat) (id : String) (entry : Int) {f : Entry → Entry}
    (hf : ∀ e, (f e).id = e.id) : Meets I I (Variables.changeEntry id chat entry f) fun _ => I := by
  unfold Variables.changeEntry
  refine (h.stack hc id).bind fun old => ?_
  split
  · exact .pure fun _ hs => hs.1
  · exact (h.edit (.modify old entry hf)).bind fun _ => .pure fun _ hs => hs

theorem deleteEntry (hc : reads chat) (id : String) (entry : Int) :
    Meets I I (Variables.deleteEntry id chat entry) fun _ => I := by
  unfold Variables.deleteEntry
  refine (h.stack hc id).bind fun old => ?_
  split
  · exact .pure fun _ hs => hs.1
  · exact (h.edit (.erase old entry)).bind fun _ => .pure fun _ hs => hs

theorem reorderEntries (hc : reads chat) (id : String) (order : List Int) :
    Meets I I (Variables.reorderEntries id chat order) fun _ => I := by
  unfold Variables.reorderEntries
  refine (h.stack hc id).bind fun old => ?_
  split
  · exact .pure fun _ hs => hs.1
  split
  · exact .pure fun _ hs => hs.1
  · next new hnew =>
    exact (h.edit (.reorder hnew)).bind fun _ => .pure fun _ hs => hs

theorem setValue (hc : reads chat) (hcopy : copies chat) (id : String) {v : Value}
    (hv : v.Numbered) : Meets I I (Storage.setValue id chat v) fun _ => I :=
  Meets.setValue (h.loadValues hc) fun _ _ hs hu => h.copied hs hcopy hu hv

theorem copyInto (hc : reads chat) (hcopy : copies chat) (floor : Option Int)
    {l : List (String × Value)} (hl : ∀ v ∈ l, v.2.Numbered) :
    Meets I I (Variables.copyInto chat floor l) fun _ => I := by
  induction l with
  | nil => exact .pure fun _ hs => hs
  | cons v l ih =>
    rw [List.forall_mem_cons] at hl
    unfold Variables.copyInto
    split
    · exact .throw _ fun _ hs => hs
    · exact ih hl.2
    · next w hw =>
      refine (h.setValue hc hcopy v.1 (hl.1.branch hw)).bind fun _ => ?_
      exact (ih hl.2).bind fun _ => .pure fun _ hs => hs

theorem inherit {source target : String} (hsource : reads source) (htarget : reads target)
    (hcopy : copies target) (floor : Option Int) (only : Option (List String)) :
    Meets I I (Variables.inherit source target floor only) fun _ => I := by
  unfold Variables.inherit
  split
  · exact .pure fun _ hs => hs
  · have hdefinitions : Meets I I Storage.definitions fun _ => I :=
      h.loadRoot.bind fun _ => .pure fun _ hs => hs
    refine hdefinitions.bind fun ds => ?_
    refine Meets.bind (Q := fun vs s => (∀ v ∈ vs, v.2.Numbered) ∧ I s)
      ((h.loadValues hsource).mono (fun _ hs => hs) ?_) fun vs => .assuming fun hvs => ?_
    · rintro vs s ⟨hs, hu | ⟨-, -, rfl⟩⟩
      · exact ⟨(h.tidy hs).1.usable hu, hs⟩
      · exact ⟨nofun, hs⟩
    · refine (h.copyInto htarget hcopy floor fun v hv => ?_).bind fun _ => .pure fun _ hs => hs
      exact hvs v (List.mem_filter.mp hv).1

/-- Every operation on stacks keeps what its pieces keep. -/
theorem perform {op : Operation} (hop : op.OnStacks reads copies) :
    Meets I I op.perform fun _ => I := by
  have hsilent {α : Type} {x : Activity Storage α} (hx : Meets I I x fun _ => I) :
      Meets I I x.silent fun _ => I := hx.silent
  cases op with
  | ofStore op =>
    cases op with
    | load => exact hsilent h.loadRoot
    | save => exact Meets.ofAction (h.writing.save trivial)
    | saveSoon => exact Meets.ofAction (x := Storage.saveSoon) fun _ _ hs => h.rootSoon hs
    | flush => exact Meets.ofAction h.writing.flush
    | close => exact Meets.ofAction h.writing.close
    | loadValues chat => exact hsilent ((h.loadValues hop).mono (fun _ hs => hs) fun _ _ hs => hs.1)
    | getValue id chat =>
      exact hsilent ((h.loadValues hop).bind fun _ => .pure fun _ hs => hs.1)
    | saveValues chat => exact Meets.ofAction (h.writing.saveValues chat trivial)
    | saveValuesSoon chat =>
      exact Meets.ofAction (x := Storage.saveValuesSoon chat) fun _ _ hs => h.soon hs
    | _ => exact hop.elim
  | ofVariables op =>
    cases op with
    | stack id chat => exact hsilent ((h.stack hop id).mono (fun _ hs => hs) fun _ _ hs => hs.1)
    | addEntry id chat content floors => exact hsilent (h.addEntry hop id content floors)
    | updateEntry id chat entry content =>
      exact hsilent (h.changeEntry hop id entry fun _ => rfl)
    | toggleEntry id chat entry =>
      have hchange := h.changeEntry hop id entry (f := fun e => { e with hidden := !e.hidden })
        fun _ => rfl
      exact hsilent (hchange.bind fun _ => .pure fun _ hs => hs)
    | deleteEntry id chat entry => exact hsilent (h.deleteEntry hop id entry)
    | reorderEntries id chat order => exact hsilent (h.reorderEntries hop id order)
    | inherit source target floor only =>
      exact hsilent (h.inherit hop.1 hop.2.1 hop.2.2 floor only)
    | _ => exact hop.elim
  | ofSuites op => exact hop.elim

end Tracks

/-! ## Runs -/

/-- One thing that happens: something is asked for, time passes, the clock is set, the shelf begins or
stops to refuse accesses, or a new store takes over the documents that `leaves` says. -/
inductive StackStep (asks : Operation → Prop) (leaves : Storage → Storage → Prop) (s : Storage) :
    Storage → Prop where
  | ask (op : Operation) (h : asks op) : StackStep asks leaves s (ended op.perform s).2
  | elapse (time : Nat) : StackStep asks leaves s (exec (Storage.elapse time) s).2
  | clock (clock : Clock) : StackStep asks leaves s { s with clock := clock }
  | refuse (refuses : Access → Bool) :
      StackStep asks leaves s { s with shelf := { s.shelf with refuses := refuses } }
  | renew {t : Storage} (debounce epoch : Nat) (h : leaves s t) :
      StackStep asks leaves s (t.anew debounce epoch)

/-- What comes of a storage, one thing after another. -/
abbrev StackRun (asks : Operation → Prop) (leaves : Storage → Storage → Prop) :
    Storage → Storage → Prop := Relation.ReflTransGen (StackStep asks leaves)

theorem Tracks.step {reads copies : String → Prop} {I : Storage → Prop}
    {leaves : Storage → Storage → Prop} (h : Tracks reads copies I)
    (hleaves : ∀ {s t} debounce epoch, I s → leaves s t → I (t.anew debounce epoch)) (hs : I s)
    (hstep : StackStep (Operation.OnStacks reads copies) leaves s t) : I t := by
  cases hstep with
  | ask op hop => exact Meets.iff_left.mp (h.perform hop) s hs
  | elapse time => exact h.writing.elapse time none s hs
  | clock clock => exact h.around clock s.shelf.refuses hs
  | refuse refuses => exact h.around s.clock refuses hs
  | renew debounce epoch hleave => exact hleaves debounce epoch hs hleave

theorem Tracks.run {reads copies : String → Prop} {I : Storage → Prop}
    {leaves : Storage → Storage → Prop} (h : Tracks reads copies I)
    (hleaves : ∀ {s t} debounce epoch, I s → leaves s t → I (t.anew debounce epoch)) (hs : I s)
    (hrun : StackRun (Operation.OnStacks reads copies) leaves s t) : I t := by
  induction hrun with
  | refl => exact hs
  | tail _ hstep ih => exact h.step hleaves ih hstep

/-! ## Numbered stacks -/

/-- Stacks stay numbered, whatever is asked. -/
theorem tracks_numbered : Tracks (fun _ => True) (fun _ => True) fun s => s.Numbered ∧ s.Blank where
  unlocked _ _ _ hs := ⟨{ hs.1 with }, { unloaded := hs.2.unloaded, degraded := hs.2.degraded }⟩
  tidy hs := hs
  writing := Storage.Numbered.writing.and Storage.Blank.writing
  load := fun {s} hs => by
    cases hroot : s.store.root with
    | some r =>
      rw [Storage.ended_load_some hroot]
      exact hs
    | none =>
      obtain ⟨hvalues, hdegraded⟩ := hs.2.unloaded hroot
      have hopening : Opening s := ⟨hs.1, fun _ => hvalues, hdegraded⟩
      have hunlocked : Unlocked Opening := fun _ _ _ ho =>
        ⟨{ ho.numbered with }, ho.empty, ho.readable⟩
      have hend := (Opening.load.finish hunlocked hopening).1
      refine ⟨hend.numbered, fun hnone => ⟨hend.empty hnone, hend.readable⟩, fun chat hd => ?_⟩
      unfold Store.isDegraded at hd
      rw [hend.readable] at hd
      contradiction
  looked hs hroot _ hu := ⟨hs.1.looked _ _ _, hs.2.looked hroot hu _⟩
  changed hs hu hnew :=
    ⟨hs.1.stored hu (v := .stack _) (hnew.numbered ((hs.1.usable hu).stack _)), hs.2.stored hu _⟩
  copied hs _ hu hv := ⟨hs.1.stored hu hv, hs.2.stored hu _⟩
  soon hs := ⟨{ hs.1 with }, { unloaded := hs.2.unloaded, degraded := hs.2.degraded }⟩
  rootSoon hs := ⟨{ hs.1 with }, { unloaded := hs.2.unloaded, degraded := hs.2.degraded }⟩
  around _ _ hs := ⟨{ hs.1 with }, { unloaded := hs.2.unloaded, degraded := hs.2.degraded }⟩

/-- A new store on numbered documents is tidy. -/
theorem Storage.Numbered.anew (h : ∀ d ∈ s.shelf.documents, NumberedText d.2) (debounce epoch : Nat) :
    (s.anew debounce epoch).Numbered ∧ (s.anew debounce epoch).Blank :=
  ⟨⟨nofun, nofun, h⟩, ⟨fun _ => ⟨rfl, rfl⟩, nofun⟩⟩

end TagLedger
