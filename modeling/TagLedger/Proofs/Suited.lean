import TagLedger.Proofs.Defining

/-!
# Values in the mode of their variable

Variables are created under identifiers that are not in use and get other names, and values are
changed in the mode of their variable. Then a stack variable has stacks for values and a replace
variable slots, in every chat, in memory and in the documents.

    op.InMode s, s.Suited ds  →  op comes to a storage that is suited again        (Grows.perform)
    ModedRun s t, s.Suited []  →  the definitions of t come from none, t suits them     (Suited.run)
-/

namespace TagLedger

variable {ds es : List (String × Definition)} {s t : Storage} {r : Root} {chat id : String}
  {vs : ChatValues}

/-! ## What is kept -/

/-- A value of a variable that is defined, of the kind that its mode keeps. -/
def FitsIn (ds : List (String × Definition)) (x : String × Value) : Prop :=
  ∃ d, Json.find? ds x.1 = some d ∧ x.2.fits d.mode = true

structure ChatValues.Suited (ds : List (String × Definition)) (vs : ChatValues) : Prop where
  keys : (Json.keys vs).Nodup
  fits : ∀ x ∈ vs, FitsIn ds x

/-- Whoever reads the text as the values of a chat gets values that fit. -/
def SuitedText (ds : List (String × Definition)) (text : String) : Prop :=
  ∀ now raw, Storage.rawValues? (some text) = some raw →
    ∀ x ∈ Storage.readValues ⟨now, false⟩ raw, FitsIn ds x

/-- A root with these definitions is in memory, and all values fit them. -/
structure Storage.Suited (ds : List (String × Definition)) (s : Storage) : Prop where
  root : ∃ r, s.store.root = some r ∧ r.definitions = ds ∧ r.Sound
  values : ∀ c ∈ s.store.values, c.2.Suited ds
  documents : ∀ d ∈ s.shelf.documents, SuitedText ds d.2

/-- No definition is lost, and none changes its mode. -/
def Extends (ds es : List (String × Definition)) : Prop :=
  ∀ id d, Json.find? ds id = some d → ∃ e, Json.find? es id = some e ∧ e.mode = d.mode

theorem FitsIn.mono {x : String × Value} (h : Extends ds es) (hx : FitsIn ds x) : FitsIn es x := by
  obtain ⟨d, hd, hfits⟩ := hx
  obtain ⟨e, he, hmode⟩ := h x.1 d hd
  exact ⟨e, he, hmode ▸ hfits⟩

namespace ChatValues.Suited

theorem nil : ChatValues.Suited ds [] := ⟨List.nodup_nil, nofun⟩

theorem mono (h : Extends ds es) (hvs : vs.Suited ds) : vs.Suited es :=
  ⟨hvs.keys, fun x hx => (hvs.fits x hx).mono h⟩

theorem insert (h : vs.Suited ds) {v : Value} (hv : FitsIn ds (id, v)) :
    ChatValues.Suited ds (Json.insert vs id v) :=
  ⟨Json.nodup_keys_insert h.keys id v, fun x hx =>
    (Json.mem_insert hx).elim (fun e => e ▸ hv) (h.fits x)⟩

end ChatValues.Suited

/-! ## Documents -/

theorem suitedText_values (h : vs.Suited ds)
    (hw : (ChatValues.document chat vs).writable = true) :
    SuitedText ds (ChatValues.text chat vs) := fun now raw hraw => by
  rw [rawValues?_text h.keys chat hw] at hraw
  obtain rfl := Option.some.inj hraw
  rw [readValues_documents]
  exact h.fits

theorem suitedText_root (h : r.Sound) (hw : r.document.writable = true) :
    SuitedText ds r.text := fun now raw hraw => by
  have hparse : Json.parseText r.text = .ok r.document :=
    Json.parseText_render rfl (Root.keyed_document h) hw
  unfold Storage.rawValues? at hraw
  dsimp only at hraw
  rw [hparse] at hraw
  cases hraw
  exact nofun

namespace Storage.Suited

theorem lists (h : s.Suited ds) : s.Lists ds := by
  obtain ⟨r, hr, hds, -⟩ := h.root
  exact ⟨r, hr, hds⟩

theorem unlocked : Unlocked (Suited ds) := fun _ _ _ h => { h with }

theorem cached (h : s.Suited ds) (hc : s.store.cached? chat = some vs) : vs.Suited ds :=
  h.values _ (Json.mem_of_find? hc)

theorem usable (h : s.Suited ds) (hu : s.store.usable? chat = some vs) : vs.Suited ds := by
  rw [Store.usable?_of_not_degraded (Store.not_degraded_of_usable hu)] at hu
  exact h.cached hu

theorem setValues (h : s.Suited ds) (hvs : vs.Suited ds) {degraded dirty : List String}
    {valuesTimer : Option Nat} :
    Storage.Suited ds { s with store := { s.store.setValues chat vs with
      degraded := degraded, dirty := dirty, valuesTimer := valuesTimer } } :=
  { h with values := fun c hc => (Json.mem_insert hc).elim (fun e => e ▸ hvs) (h.values c) }

theorem kept (h : s.Suited ds) {name : String} {raw : List (String × Json)}
    (hraw : Storage.rawOf? (s.shelf.read name).1 = some raw) (r : Root) :
    ChatValues.Suited ds (s.kept r raw) := by
  have hraw := Storage.rawValues?_of_rawOf? hraw
  have hfits : ∀ x ∈ Storage.readValues ⟨s.clock.now, false⟩ raw, FitsIn ds x := by
    cases htext : s.shelf.find? name with
    | none =>
      rw [htext] at hraw
      cases hraw
      exact nofun
    | some text =>
      rw [htext] at hraw
      exact h.documents _ (Json.mem_of_find? htext) _ _ hraw
  have hsub : (s.kept r raw).Sublist (Storage.readValues ⟨s.clock.now, false⟩ raw) :=
    List.filter_sublist
  exact ⟨(nodup_keys_rawValues? hraw).sublist ((hsub.map _).trans (keys_readValues raw)),
    fun x hx => hfits x (List.mem_filter.mp hx).1⟩

/-- What was read is taken over as it suits. -/
theorem looked (h : s.Suited ds) (r : Root) (chat name : String) :
    (s.looked r chat name).2.Suited ds ∧ (s.looked r chat name).1.Suited ds := by
  have hcached : ChatValues.Suited ds ((s.store.cached? chat).getD []) := by
    cases hc : s.store.cached? chat with
    | none => exact .nil
    | some vs => exact h.cached hc
  unfold Storage.looked Storage.taken
  split
  · refine ⟨{ h with values := fun c hc => ?_ }, hcached⟩
    change c ∈ (if (s.store.cached? chat).isSome then s.store.values
      else s.store.values ++ [(chat, [])]) at hc
    split at hc
    · exact h.values c hc
    · rcases List.mem_append.mp hc with hc | hc
      · exact h.values c hc
      · rw [List.mem_singleton.mp hc]
        exact .nil
  · next raw hraw =>
    have hvs := h.kept hraw r
    have hread : Storage.Suited ds { s with shelf := (s.shelf.read name).2 } := { h with }
    dsimp only
    refine ⟨?_, hvs⟩
    split
    · exact hread.setValues hvs
    · exact hread.setValues hvs

theorem writing : KeepsWriting (Always (Suited ds)) := by
  refine .ofAttempts (fun _ _ _ _ _ _ _ h => { h with }) (fun _ s r h hr _ hw => ?_)
    fun _ s c vs h hc _ hw => ?_
  · obtain ⟨_, shelf, hrun, -, hdocs⟩ := s.attemptRoot_cases r
    rw [hrun]
    refine { h with documents := fun d hd => ?_ }
    rcases hdocs with ⟨-, hsame⟩ | ⟨-, hwritten⟩
    · exact h.documents d (hsame ▸ hd)
    · rw [hwritten] at hd
      refine (Json.mem_insert hd).elim (fun e => e ▸ ?_) (h.documents d)
      obtain ⟨r', hr', -, hsound⟩ := h.root
      obtain rfl := Option.some.inj (hr.symm.trans hr')
      exact suitedText_root hsound hw
  · obtain ⟨_, shelf, hrun, -, -, hdocs⟩ := s.attemptChat_cases c vs
    rw [hrun]
    refine { h with documents := fun d hd => ?_ }
    rcases hdocs with ⟨-, hsame⟩ | ⟨-, -, hdropped⟩ | ⟨-, hfull, hwritten⟩
    · exact h.documents d (hsame ▸ hd)
    · rw [hdropped] at hd
      exact h.documents d (List.mem_filter.mp hd).1
    · rw [hwritten] at hd
      exact (Json.mem_insert hd).elim
        (fun e => e ▸ suitedText_values (h.cached hc) (hw.resolve_left hfull)) (h.documents d)

/-- A new store on a shelf without documents suits no definitions. -/
theorem ofNew (hroot : s.store.root = none) (hvalues : s.store.values = [])
    (hdocuments : s.shelf.documents = []) : (ended Storage.load s).2.Suited [] := by
  have hnone : ∀ name, s.shelf.find? name = none := fun name => by
    unfold Shelf.find?
    rw [hdocuments]
    rfl
  refine Storage.load_new unlocked writing hroot hnone fun held granted shelf _ _ hsame => ?_
  refine ⟨⟨.standard, rfl, rfl, Synced.sound_standard⟩, fun c hc => ?_, fun d hd => ?_⟩
  · rw [hvalues] at hc
    cases hc
  · rw [hsame, hdocuments] at hd
    cases hd

theorem load : Keeps (Always (Suited ds)) Storage.load :=
  .loadInMemory fun _ _ h => Option.isSome_iff_exists.mpr (h.root.imp fun _ hr => hr.1)

theorem loadValues (chat : String) :
    Gives (Always (Suited ds)) (fun vs _ => vs.Suited ds) (Storage.loadValues chat) :=
  .loadValues (fun _ => unlocked) (fun _ _ _ _ h => h) load (fun _ _ _ h hu => h.usable hu)
    fun _ _ _ _ _ _ h => h.looked _ _ _

end Storage.Suited

/-! ## Values -/

/-- Chats are read, and everything may be written, but nothing is changed. -/
def Scope.ofReads : Scope := ⟨fun _ => True, fun _ => True, fun _ _ => False, False⟩

theorem Value.fits_branch {v w : Value} {floor : Option Int} {mode : Mode}
    (hv : v.fits mode = true) (hw : v.branch floor = .ok (some w)) : w.fits mode = true := by
  unfold Value.branch at hw
  cases floor with
  | none =>
    cases hw
    exact hv
  | some f =>
    cases v with
    | stack x =>
      obtain ⟨es, -, hw⟩ := map_eq_ok hw
      split at hw
      · cases hw
      · cases hw
        cases mode <;> exact hv
    | slot x =>
      dsimp only at hw
      split at hw
      · cases hw
      · obtain ⟨keep, -, hw⟩ := map_eq_ok hw
        cases keep with
        | true =>
          cases hw
          cases mode <;> exact hv
        | false => cases hw

/-- The variable is defined, and in this mode. -/
def HasMode (ds : List (String × Definition)) (id : String) (mode : Mode) : Prop :=
  ∃ d, Json.find? ds id = some d ∧ d.mode = mode

theorem HasMode.stack (h : HasMode ds id .stack) (x : Stack) : FitsIn ds (id, .stack x) := by
  obtain ⟨d, hd, hmode⟩ := h
  exact ⟨d, hd, by rw [hmode]; rfl⟩

theorem HasMode.slot (h : HasMode ds id .replace) (x : Slot) : FitsIn ds (id, .slot x) := by
  obtain ⟨d, hd, hmode⟩ := h
  exact ⟨d, hd, by rw [hmode]; rfl⟩

namespace Storage.Suited

theorem pieces : Pieces .ofReads (Always (Suited ds)) where
  newId _ _ _ _ h := { h with }
  load := load
  changeRoot h := h.elim
  save h := h.elim
  saveSoon h := h.elim
  removeValues h := h.elim
  loadValues _ := (loadValues _).keeps
  amend h := h.elim
  setValue _ h := h.elim
  saveValues _ := writing.saveValues _ trivial
  saveValuesSoon _ _ _ h := { h with }
  flush := writing.flush
  close := writing.close

theorem setValue {v : Value} (hv : FitsIn ds (id, v)) (chat : String) :
    Keeps (Always (Suited ds)) (Storage.setValue id chat v) :=
  .setValue (loadValues chat) (fun _ _ _ h hvs => h.setValues (hvs.insert hv))
    fun _ _ h => { h with }

theorem editValue {v : Value} (hv : FitsIn ds (id, v)) (chat : String) :
    Keeps (Always (Suited ds)) (Storage.editValue id chat v) :=
  (Keeps.ofAction (.amend fun _ _ _ h hc => h.setValues ((h.cached hc).insert hv))).bind fun _ =>
    setValue hv chat

theorem editStack (h : HasMode ds id .stack) (chat : String) (x : Stack) :
    Keeps (Always (Suited ds)) (Storage.editValue id chat (.stack x)) := editValue (h.stack x) chat

theorem editSlot (h : HasMode ds id .replace) (chat : String) (x : Slot) :
    Keeps (Always (Suited ds)) (Storage.editValue id chat (.slot x)) := editValue (h.slot x) chat

theorem copyInto (chat : String) (floor : Option Int) {l : List (String × Value)}
    (hl : ∀ x ∈ l, FitsIn ds x) : Keeps (Always (Suited ds)) (Variables.copyInto chat floor l) :=
  Compositional.keeps.copyInto floor fun x hx w hw => by
    obtain ⟨d, hd, hfits⟩ := hl x hx
    have hbranch : FitsIn ds (x.1, w) := ⟨d, hd, Value.fits_branch hfits hw⟩
    exact setValue hbranch chat

theorem inherit (source target : String) (floor : Option Int) (only : Option (List String)) :
    Keeps (Always (Suited ds)) (Variables.inherit source target floor only) := by
  unfold Variables.inherit
  split
  · exact .pure _
  refine pieces.definitions.bind fun _ => ?_
  refine Gives.bind (loadValues source) fun f vs s h hvs => ?_
  refine (Keeps.bind (copyInto target floor fun x hx => ?_) fun _ => .pure _) f s h
  exact hvs.fits x (List.mem_filter.mp hx).1

end Storage.Suited

/-! ## Definitions -/

/-- The identifier that a new variable would get is not in use. -/
def Storage.Fresh (s : Storage) : Prop :=
  Json.find? s.store.definitions (Identifier.generate "var" 5 s.clock.now s.random).1 = none

/-- The definitions have changed by one step at most, and the values fit them. -/
def Storage.Grown (ds : List (String × Definition)) (s : Storage) : Prop :=
  ∃ es, Relation.ReflGen DefinitionStep ds es ∧ s.Suited es

theorem Extends.insert {d : Definition} (h : ∀ e, Json.find? ds id = some e → e.mode = d.mode) :
    Extends ds (Json.insert ds id d) := fun i e he => by
  by_cases hi : id = i
  · subst hi
    exact ⟨d, by rw [Json.find?_insert, if_pos rfl], (h e he).symm⟩
  · exact ⟨e, by rw [Json.find?_insert, if_neg hi, he], rfl⟩

/-- A changed definition is taken over with the values that there are. -/
theorem Storage.Suited.saveDefinitions {α : Type} {a : α} {d : Definition} (h : s.Suited ds)
    (hmode : ∀ e, Json.find? ds id = some e → e.mode = d.mode)
    (hstep : DefinitionStep ds (Json.insert ds id d)) :
    (ended (Storage.saveDefinitions (Json.insert ds id d) >>= fun _ => pure a :
      Activity Storage α) s).2.Grown ds := by
  obtain ⟨r, hr, rfl, hsound⟩ := h.root
  have hextends := Extends.insert hmode
  unfold Storage.saveDefinitions
  rw [ended_bind_ok (Storage.ended_changeRoot hr _)]
  refine ⟨_, .single hstep, ⟨_, rfl, rfl, ?_⟩, fun c hc => (h.values c hc).mono hextends,
    fun x hx now raw hraw y hy => (h.documents x hx now raw hraw y hy).mono hextends⟩
  exact hsound.withDefinitions (Json.nodup_keys_insert hsound.definitionKeys _ _)

namespace Storage.Grown

theorem same (h : s.Suited ds) : s.Grown ds := ⟨ds, .refl, h⟩

theorem create (name tag : Option String) (mode : Option Mode) (h : s.Suited ds) (hs : s.Fresh) :
    (ended (Variables.create name tag mode) s).2.Grown ds := by
  obtain ⟨r, hr, rfl, -⟩ := h.root
  have hdefinitions : s.store.definitions = r.definitions := by
    unfold Store.definitions
    rw [hr]
  unfold Variables.create
  split
  · exact same h
  next hproblem =>
  have hname : nameProblem? name = none := by
    cases hn : nameProblem? name with
    | none => rfl
    | some p =>
      rw [hn] at hproblem
      cases hproblem
  have htag : tagProblem? tag = none := by
    rw [hname] at hproblem
    exact hproblem
  rw [ended_bind_ok (Storage.ended_definitions hr)]
  split
  · exact same h
  next hnamed =>
  split
  · exact same h
  next htagged =>
  split
  · exact same h
  next mode =>
  -- the identifier is the one that is not in use
  have hfresh : Json.find? r.definitions (Identifier.generate "var" 5 s.clock.now s.random).1 =
      none := hdefinitions ▸ hs
  obtain ⟨id, u, hid, hu, hnew⟩ : ∃ id u,
      ended (liftM (Storage.newId "var" 5) : Activity Storage String) s = (.ok id, u) ∧
        u.Suited r.definitions ∧ Json.find? r.definitions id = none := by
    generalize hdrawn : Identifier.generate "var" 5 s.clock.now s.random = drawn at hfresh
    refine ⟨drawn.1, { s with random := drawn.2 }, ?_, { h with }, hfresh⟩
    rw [← hdrawn]
    rfl
  have hnow : ended (liftM Storage.now : Activity Storage Int) u = (.ok u.clock.now, u) := rfl
  rw [ended_bind_ok hid, ended_bind_ok hnow]
  refine hu.saveDefinitions ?_ ?_
  · intro e he
    rw [hnew] at he
    cases he
  · exact .created _ mode _ hname htag (Option.not_isSome_iff_eq_none.mp hnamed)
      (Option.not_isSome_iff_eq_none.mp htagged)

theorem rename (id : String) (name : Option String) (h : s.Suited ds) :
    (ended (Variables.rename id name) s).2.Grown ds := by
  obtain ⟨r, hr, rfl, -⟩ := h.root
  unfold Variables.rename
  rw [ended_bind_ok (Storage.ended_definitions hr)]
  split
  · exact same h
  next d hd =>
  split
  · exact same h
  next hname =>
  refine Storage.Suited.saveDefinitions h ?_ (.renamed hd hname _)
  intro e he
  rw [hd] at he
  cases he
  rfl

end Storage.Grown

/-! ## Operations -/

/-- The operation reads, writes what there is, creates a variable under a new identifier, renames
one, or gives a variable a value of its mode. -/
def Operation.InMode (s : Storage) : Operation → Prop
  | .ofVariables (.create _ _ _) => s.Fresh
  | .ofVariables (.rename _ _) | .ofVariables (.inherit _ _ _ _) => True
  | .ofVariables (.addEntry id _ _ _) | .ofVariables (.updateEntry id _ _ _)
  | .ofVariables (.toggleEntry id _ _) | .ofVariables (.deleteEntry id _ _)
  | .ofVariables (.reorderEntries id _ _) => HasMode s.store.definitions id .stack
  | .ofVariables (.put id _ _ _) | .ofVariables (.navigate id _ _)
  | .ofVariables (.restore id _ _) => HasMode s.store.definitions id .replace
  | .ofStore (.setValue id _ v) => FitsIn s.store.definitions (id, v)
  | op => op.Within .ofReads

theorem Storage.Suited.perform {op : Operation} (h : s.Suited ds) (hop : op.InMode s) :
    (ended op.perform s).2.Grown ds := by
  obtain ⟨r, hr, hds, -⟩ := h.root
  have hdefinitions : s.store.definitions = ds := by
    unfold Store.definitions
    rw [hr]
    exact hds
  have hkeeps {x : Activity Storage Unit} (hx : Keeps (Always (Storage.Suited ds)) x) :
      (ended x s).2.Grown ds := .same (hx.finish unlocked h).1
  have hreads {op : Operation} (hop : op.Within .ofReads) : (ended op.perform s).2.Grown ds :=
    hkeeps (pieces.perform op hop)
  have hsilent {α : Type} {x : Activity Storage α} (hx : (ended x s).2.Grown ds) :
      (ended x.silent s).2.Grown ds := by
    rw [ended_silent]
    exact hx
  have hc : Compositional fun _ x => Keeps (Always (Suited ds)) x := .keeps
  have hread (chat : String) : Keeps (Always (Suited ds)) (Storage.loadValues chat) :=
    (loadValues chat).keeps
  subst hdefinitions
  cases op with
  | ofStore op =>
    cases op with
    | setValue id chat v => exact hkeeps (setValue hop chat)
    | _ => exact hreads hop
  | ofVariables op =>
    cases op with
    | create name tag mode => exact hsilent (.create name tag mode h hop)
    | rename id name => exact hsilent (.rename id name h)
    | addEntry id chat content floors =>
      exact hkeeps (hc.silent (hc.addEntry (hread chat) (editStack hop chat) content floors))
    | updateEntry id chat entry content =>
      exact hkeeps (hc.silent (hc.changeEntry (hread chat) (editStack hop chat) entry _))
    | toggleEntry id chat entry =>
      exact hkeeps (hc.silent (hc.toggleEntry (hread chat) (editStack hop chat) entry))
    | deleteEntry id chat entry =>
      exact hkeeps (hc.silent (hc.deleteEntry (hread chat) (editStack hop chat) entry))
    | reorderEntries id chat order =>
      exact hkeeps (hc.silent (hc.reorderEntries (hread chat) (editStack hop chat) order))
    | put id chat content floors =>
      exact hkeeps (hc.silent (hc.put (hread chat) (editSlot hop chat) content floors))
    | navigate id chat word =>
      exact hkeeps (hc.silent (hc.navigate (hread chat) (editSlot hop chat) word))
    | restore id chat version =>
      exact hkeeps (hc.silent (hc.restore (hread chat) (editSlot hop chat) version))
    | inherit source target floor only => exact hkeeps (inherit source target floor only).silent
    | _ => exact hreads hop
  | ofSuites op => exact hreads hop

/-! ## Runs -/

/-- What comes of a storage that is asked for operations in the modes of variables. -/
abbrev ModedRun : Storage → Storage → Prop :=
  Relation.ReflTransGen fun s t => StackStep (Operation.InMode s) (fun _ _ => False) s t

theorem Storage.Suited.step (h : s.Suited ds)
    (hstep : StackStep (Operation.InMode s) (fun _ _ => False) s t) : t.Grown ds := by
  cases hstep with
  | ask op hop => exact h.perform hop
  | elapse time => exact .same (writing.elapse time none s h)
  | clock clock => exact .same { h with }
  | refuse refuses => exact .same { h with }
  | renew debounce epoch hnever => exact hnever.elim

theorem Storage.Suited.run (h : s.Suited ds) (hrun : ModedRun s t) :
    ∃ es, Relation.ReflTransGen DefinitionStep ds es ∧ t.Suited es := by
  induction hrun with
  | refl => exact ⟨ds, .refl, h⟩
  | tail _ hstep ih =>
    obtain ⟨es, hsteps, hes⟩ := ih
    obtain ⟨fs, hstep, hfs⟩ := hes.step hstep
    exact ⟨fs, hsteps.trans hstep.to_reflTransGen, hfs⟩

end TagLedger
