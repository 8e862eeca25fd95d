import TagLedger.Proofs.Versions

/-!
# Browsing the history

A document may hold any number as the cursor of a slot. A cursor after the history shows the current
content, as one at -1 does, but one before the whole history shows nothing: looking it up fails.
Moving never fails. A move from a cursor far outside the history gives a place that there is no
version at.

      cursor   … -n-1 │  -n … -2  │ -1 │ 0 … n-1 │  n, n+1  │  n+2 …
      shown        ✗  │     ✓     │ ✓  │    ✓    │    ✓     │    ✓        (Slot.Showable)
      places       ✗  │ ✗ … ✗  ✓  │ ✓  │    ✓    │    ✓     │    ✗        (Slot.Walkable)
-/

namespace TagLedger

variable {s t : Storage} {chat id : String} {x y : Slot} {d : Slot.Direction}

/-! ## One slot -/

namespace Slot

/-- The cursor does not lie before the whole history. -/
def Showable (x : Slot) : Prop := x.cursor = -1 ∨ -(x.history.length : Int) ≤ x.cursor

/-- The cursor does not lie far outside the history, if there is one. -/
def Walkable (x : Slot) : Prop :=
  x.history = [] ∨ -2 ≤ x.cursor ∧ x.cursor ≤ x.history.length + 1

theorem isSome_item? {i : Int} :
    (x.item? i).isSome ↔ -(x.history.length : Int) ≤ i ∧ i < x.history.length := by
  unfold item?
  split
  · rw [isSome_getElem?]
    omega
  · split
    · rw [isSome_getElem?]
      omega
    · exact iff_of_false nofun (by omega)

theorem isSome_shown? : x.shown?.isSome ↔ x.Showable := by
  unfold shown? Showable
  split
  · next hcurrent => exact iff_of_true rfl (by omega)
  · next hpast =>
    rw [Option.isSome_map, isSome_item?]
    omega

/-- What a move does to the cursor. -/
theorem cursor_of_navigate (h : x.navigate d = .ok y) :
    x.history ≠ [] ∧ y.history = x.history ∧ match d with
      | .older => x.cursor = -1 ∧ y.cursor = x.history.length - 1 ∨
          0 < x.cursor ∧ y.cursor = x.cursor - 1
      | .newer => x.cursor ≠ -1 ∧ x.cursor < x.history.length - 1 ∧ y.cursor = x.cursor + 1 ∨
          x.history.length - 1 ≤ x.cursor ∧ y.cursor = -1 := by
  unfold navigate at h
  dsimp only at h
  split at h
  · cases h
  · next hsome =>
    refine ⟨fun hnil => hsome (List.isEmpty_iff.mpr hnil), ?_⟩
    cases d <;> dsimp only at h ⊢ <;> repeat' split at h
    all_goals cases h
    all_goals exact ⟨rfl, by dsimp only; omega⟩

theorem Showable.navigate (h : x.Showable) (hmove : x.navigate d = .ok y) : y.Showable := by
  obtain ⟨-, hhistory, hcursor⟩ := cursor_of_navigate hmove
  unfold Showable at h ⊢
  rw [hhistory]
  cases d <;> dsimp only at hcursor <;> omega

/-- A move from a cursor that is not far outside gives the place of a version. -/
theorem Walkable.navigate (h : x.Walkable) (hmove : x.navigate d = .ok y) :
    y.Walkable ∧ 1 ≤ y.position ∧ y.position ≤ y.total := by
  obtain ⟨hsome, hhistory, hcursor⟩ := cursor_of_navigate hmove
  have hbounds := h.resolve_left hsome
  have hlength := List.length_pos_iff.mpr hsome
  unfold Walkable position total
  rw [hhistory]
  cases d <;> dsimp only at hcursor
  · refine ⟨.inr (by omega), ?_⟩
    split <;> omega
  · refine ⟨.inr (by omega), ?_⟩
    split <;> omega

/-- From a cursor far outside, a move gives a place that there is no version at. -/
theorem exists_misplaced (h : ¬ x.Walkable) :
    ∃ d y, x.navigate d = .ok y ∧ ¬ (1 ≤ y.position ∧ y.position ≤ y.total) := by
  obtain ⟨hsome, hfar⟩ := not_or.mp h
  have hlength := List.length_pos_iff.mpr hsome
  have hfull : ¬ x.history.isEmpty = true := fun he => hsome (List.isEmpty_iff.mp he)
  by_cases hbefore : x.cursor < -2
  · refine ⟨.newer, { x with cursor := x.cursor + 1 }, ?_, ?_⟩
    · unfold navigate
      dsimp only
      rw [if_neg hfull, if_neg (by omega), if_pos (by omega)]
    · unfold position total
      dsimp only
      rw [if_neg (by omega)]
      omega
  · refine ⟨.older, { x with cursor := x.cursor - 1 }, ?_, ?_⟩
    · unfold navigate
      dsimp only
      rw [if_neg hfull, if_neg (by omega), if_pos (by omega)]
    · unfold position total
      dsimp only
      rw [if_neg (by omega)]
      omega

end Slot

/-! ## Runs -/

/-- What navigating answers. -/
abbrev MoveAnswer : Type := Except Failure (Outcome (Int × Int))

/-- One thing that happens while a history is browsed, with what is answered: the cursor is moved,
time passes, the clock is set, or the shelf begins or stops to refuse accesses. -/
inductive BrowseStep (id chat : String) (s : Storage) : List MoveAnswer → Storage → Prop where
  | navigate (word : String) : BrowseStep id chat s
      [(ended (Variables.navigate id chat word) s).1] (ended (Variables.navigate id chat word) s).2
  | elapse (time : Nat) : BrowseStep id chat s [] (exec (Storage.elapse time) s).2
  | clock (clock : Clock) : BrowseStep id chat s [] { s with clock := clock }
  | refuse (refuses : Access → Bool) :
      BrowseStep id chat s [] { s with shelf := { s.shelf with refuses := refuses } }

/-- What comes of a storage, one thing after another, with all that is answered. -/
inductive BrowseRun (id chat : String) (s : Storage) : List MoveAnswer → Storage → Prop where
  | refl : BrowseRun id chat s [] s
  | tail {answers new : List MoveAnswer} {t u : Storage} (run : BrowseRun id chat s answers t)
      (step : BrowseStep id chat t new u) : BrowseRun id chat s (answers ++ new) u

/-- The chat is in memory, with a slot of which this can be said. -/
def Browsed (P : Slot → Prop) (id chat : String) (s : Storage) : Prop :=
  ∃ vs, s.store.usable? chat = some vs ∧ P (vs.slot id)

/-- The cursor made a move from a slot of which this can be said, or stayed where it was. -/
def MoveAnswer.Told (P : Slot → Prop) (a : MoveAnswer) : Prop :=
  (∃ why, a = .ok (.error why)) ∨
    ∃ x d y, P x ∧ x.navigate d = .ok y ∧ a = .ok (.ok (y.position, y.total))

namespace Browsed

variable {P : Slot → Prop} {answers : List MoveAnswer}

theorem step (hP : ∀ x d y, P x → x.navigate d = .ok y → P y) (h : Browsed P id chat s)
    (hstep : BrowseStep id chat s answers t) : Browsed P id chat t ∧ ∀ a ∈ answers, a.Told P := by
  cases hstep with
  | navigate word =>
    obtain ⟨vs, hu, hx⟩ := h
    obtain ⟨why, hrun⟩ | ⟨d, y, hmove, hrun⟩ := Variables.ended_navigate hu id word
    · rw [hrun]
      exact ⟨⟨vs, hu, hx⟩, List.forall_mem_singleton.mpr (.inl ⟨why, rfl⟩)⟩
    · rw [hrun]
      refine ⟨⟨_, Variables.usable_stored hu id _, ?_⟩,
        List.forall_mem_singleton.mpr (.inr ⟨_, d, y, hx, hmove, rfl⟩)⟩
      rw [ChatValues.slot_insert]
      exact hP _ d y hx hmove
  | elapse time =>
    have hkept : KeepsWriting (Always (Browsed P id chat)) :=
      .ofMemory fun _ _ _ _ _ _ _ ⟨vs, hu, hx⟩ => ⟨vs, hu, hx⟩
    exact ⟨hkept.elapse time none s h, nofun⟩
  | clock clock => exact ⟨h, nofun⟩
  | refuse refuses => exact ⟨h, nofun⟩

theorem run (hP : ∀ x d y, P x → x.navigate d = .ok y → P y) (h : Browsed P id chat s)
    (hrun : BrowseRun id chat s answers t) : Browsed P id chat t ∧ ∀ a ∈ answers, a.Told P := by
  induction hrun with
  | refl => exact ⟨h, nofun⟩
  | tail _ hstep ih =>
    obtain ⟨hkept, htold⟩ := ih
    obtain ⟨hafter, hnew⟩ := hkept.step hP hstep
    exact ⟨hafter, fun a ha => (List.mem_append.mp ha).elim (htold a) (hnew a)⟩

end Browsed

/-! ## What is loaded -/

/-- What browsing a slot that is served as `x` can come to. -/
structure BrowseLaws (s : Storage) (id chat : String) (x : Slot) : Prop where
  /-- The cursor moves, or it is said why it does not. -/
  moves : ∀ answers t, BrowseRun id chat s answers t → ∀ a ∈ answers, ∃ o, a = .ok o
  /-- Something is shown at once, unless the cursor lies before the whole history. -/
  shows : (∃ a, ended (Variables.shown id chat) s = (.ok a, s)) ↔ x.Showable
  /-- Then it is also shown after every move. -/
  showsAfter : x.Showable → ∀ answers t, BrowseRun id chat s answers t →
    ∃ a, ended (Variables.shown id chat) t = (.ok a, t)
  /-- All places are those of versions, unless the cursor lies far outside the history. -/
  places : (∀ answers t, BrowseRun id chat s answers t → ∀ place total,
    .ok (.ok (place, total)) ∈ answers → 1 ≤ place ∧ place ≤ total) ↔ x.Walkable

theorem Variables.ended_shown {vs : ChatValues} (hu : s.store.usable? chat = some vs)
    (id : String) : (∃ a, ended (shown id chat) s = (.ok a, s)) ↔ (vs.slot id).Showable := by
  rw [← Slot.isSome_shown?]
  unfold shown
  rw [ended_bind_ok (ended_slot_usable hu id)]
  cases (vs.slot id).shown? with
  | none => exact iff_of_false nofun nofun
  | some a => exact iff_of_true ⟨a, rfl⟩ rfl

theorem browseLaws_of_usable {vs : ChatValues} (hu : s.store.usable? chat = some vs)
    (id : String) : BrowseLaws s id chat (vs.slot id) where
  moves answers t hrun a ha := by
    have hserved : Browsed (fun _ => True) id chat s := ⟨vs, hu, trivial⟩
    obtain ⟨why, rfl⟩ | ⟨x, d, y, -, -, rfl⟩ := (hserved.run (fun _ _ _ _ _ => trivial) hrun).2 a ha
    · exact ⟨_, rfl⟩
    · exact ⟨_, rfl⟩
  shows := Variables.ended_shown hu id
  showsAfter hx answers t hrun := by
    have hserved : Browsed Slot.Showable id chat s := ⟨vs, hu, hx⟩
    obtain ⟨ws, hw, hy⟩ := (hserved.run (fun _ _ _ h hmove => h.navigate hmove) hrun).1
    exact (Variables.ended_shown hw id).mpr hy
  places := by
    refine ⟨fun hplaces => ?_, fun hx answers t hrun place total ha => ?_⟩
    · by_contra hfar
      obtain ⟨d, y, hmove, hmisplaced⟩ := Slot.exists_misplaced hfar
      obtain ⟨word, hword⟩ : ∃ word, Variables.direction? word = some d := by
        cases d
        · exact ⟨"prev", rfl⟩
        · exact ⟨"next", rfl⟩
      have hstep : BrowseStep id chat s [(ended (Variables.navigate id chat word) s).1]
          (ended (Variables.navigate id chat word) s).2 := .navigate word
      rw [Variables.ended_navigate_ok hu hword hmove] at hstep
      exact hmisplaced (hplaces _ _ (.tail .refl hstep) _ _ (List.mem_singleton_self _))
    · have hserved : Browsed Slot.Walkable id chat s := ⟨vs, hu, hx⟩
      obtain ⟨why, he⟩ | ⟨x, d, y, hx, hmove, he⟩ :=
        (hserved.run (fun _ _ _ h hmove => (h.navigate hmove).1) hrun).2 _ ha
      · cases he
      · cases he
        exact (hx.navigate hmove).2

/-- Whatever the document of a chat is, loading the chat succeeds if the root can be loaded. A slot
that is served then can be shown unless its cursor lies before the whole history, and browsing it
gives places of versions unless the cursor lies far outside. -/
theorem browseLaws_of_load {r : Root} (hload : ended Storage.load s = (.ok r, t))
    (hnone : t.store.isDegraded chat = true → t.store.cached? chat = some []) :
    ∃ vs u, ended (Storage.loadValues chat) s = (.ok vs, u) ∧
      ∀ id x, Json.find? vs id = some (.slot x) → BrowseLaws u id chat x := by
  have hserved {vs : ChatValues} {u : Storage} (hu : u.store.usable? chat = some vs) (id : String)
      (x : Slot) (hx : Json.find? vs id = some (.slot x)) : BrowseLaws u id chat x := by
    have hslot : vs.slot id = x := by
      unfold ChatValues.slot
      rw [hx]
      rfl
    exact hslot ▸ browseLaws_of_usable hu id
  cases hu : s.store.usable? chat with
  | some vs => exact ⟨vs, s, Storage.ended_loadValues_usable hu, hserved hu⟩
  | none =>
    obtain ⟨held, granted, hloaded⟩ := Storage.ended_loadValues_of_load hu hload
    refine ⟨_, _, hloaded, ?_⟩
    rcases Storage.loaded_cases t r chat with hcached | ⟨hmissing, hraw, -, -⟩
    · exact hserved hcached
    · have hempty : (t.loaded r chat).1 = [] := by
        rw [Storage.loaded_fst]
        unfold Storage.serves
        rw [hmissing, hraw]
        dsimp only
        cases hd : t.store.isDegraded chat with
        | true => rw [hnone hd]; rfl
        | false => rw [← Store.usable?_of_not_degraded hd, hmissing]; rfl
      rw [hempty]
      exact nofun

/-- A slot with one item in its history, and a cursor far before that. -/
def misplacedSlot : Slot := ⟨"tense", some "6", none, [⟨1, "calm", "1-5", 1, false⟩], -5⟩

/-- A storage with a document that has this slot. -/
def Storage.misplaced : Storage :=
  let root := "\x7b\"variables\":\x7b" ++
    "\"v\":\x7b\"id\":\"v\",\"name\":\"a\",\"tag\":\"a\"\x7d\x7d\x7d"
  let values := "\x7b\"values\":\x7b\"v\":\x7b" ++
    "\"currentValue\":\"tense\",\"currentFloorRange\":\"6\"," ++
    "\"history\":[\x7b\"id\":1,\"content\":\"calm\",\"floorRange\":\"1-5\",\"timestamp\":1\x7d]," ++
    "\"historyIndex\":-5\x7d\x7d\x7d"
  ⟨.empty "root" "values-" 0 0, .ofDocuments [("root", root), ("values-c.json", values)], ⟨0, 0⟩,
    .start⟩

/-- A slot with a cursor far before its history is loaded. Showing it fails, and moving its cursor
gives a place that there is no version at. -/
theorem browseLaws_of_load_misplaced : ∃ (s t u : Storage) (r : Root) (vs : ChatValues),
    ended Storage.load s = (.ok r, t) ∧ t.store.isDegraded "c" = false ∧
      ended (Storage.loadValues "c") s = (.ok vs, u) ∧
      Json.find? vs "v" = some (.slot misplacedSlot) ∧ BrowseLaws u "v" "c" misplacedSlot ∧
      (¬ ∃ a, ended (Variables.shown "v" "c") u = (.ok a, u)) ∧
      ∃ answers v place total, BrowseRun "v" "c" u answers v ∧
        .ok (.ok (place, total)) ∈ answers ∧ ¬ (1 ≤ place ∧ place ≤ total) := by
  have hloads : (ended Storage.load .misplaced).1.isOk = true := by decide +kernel
  have hread : (ended Storage.load .misplaced).2.store.isDegraded "c" = false := by decide +kernel
  have hslot : (ended (Storage.loadValues "c") .misplaced).1.toOption.bind (Json.find? · "v") =
      some (.slot misplacedSlot) := by decide +kernel
  rcases hload : ended Storage.load .misplaced with ⟨e | r, t⟩
  · rw [hload] at hloads
    cases hloads
  rw [hload] at hread
  have hnone : t.store.isDegraded "c" = true → t.store.cached? "c" = some [] := fun hdegraded =>
    absurd (hread.symm.trans hdegraded) nofun
  obtain ⟨vs, u, hvalues, hlaws⟩ := browseLaws_of_load hload hnone
  rw [hvalues] at hslot
  have hx := hlaws "v" misplacedSlot hslot
  have hfar : ¬ misplacedSlot.Walkable := by unfold Slot.Walkable; decide
  have hbefore : ¬ misplacedSlot.Showable := by unfold Slot.Showable; decide
  refine ⟨.misplaced, t, u, r, vs, hload, hread, hvalues, hslot, hx,
    fun hshown => hbefore (hx.shows.mp hshown), ?_⟩
  by_contra hnone
  refine hfar (hx.places.mp fun answers v hrun place total ha => ?_)
  by_contra hplace
  exact hnone ⟨answers, v, place, total, hrun, ha, hplace⟩

end TagLedger
