import TagLedger.Proofs.Browsing

/-!
# The cursor as a position

A slot shows one of its versions: those of the history, and after them the current one. Its cursor
is the place of the version that is shown, where -1 stands for the last place. In a slot that only
had versions put and restored, and its cursor moved, the cursor is always at a version. A move goes
one version on if there is one, and the opposite move goes back.

      position    1  2  …  n  n + 1
      cursor      0  1  …  n-1   -1          (n versions in the history)

    x.CanMove d → x.navigate d = .ok (x.atPosition (x.position + d.shift))    (navigate_eq)
    a run on a slot that was empty  →  CursorLaws                             (cursor_exact)
-/

namespace TagLedger

variable {s t u : Storage} {chat id : String} {vs : ChatValues} {made new : List Version} {now : Int}

namespace Slot

variable {x y : Slot} {d : Direction}

/-! ## Positions -/

/-- The cursor is at a version of the history, or at the current one. -/
def Placed (x : Slot) : Prop := x.cursor = -1 ∨ 0 ≤ x.cursor ∧ x.cursor < x.history.length

/-- All versions, the current one last. -/
def versions (x : Slot) : List Version := x.history.map Entry.version ++ [x.version]

/-- The slot with its cursor at a position. -/
def atPosition (x : Slot) (p : Int) : Slot := { x with cursor := if p = x.total then -1 else p - 1 }

/-- There is a version in this direction. -/
def CanMove (x : Slot) : Direction → Prop
  | .older => 1 < x.position
  | .newer => x.position ≤ x.history.length

namespace Direction

/-- How far a move goes. -/
def shift : Direction → Int
  | .older => -1
  | .newer => 1

def opposite : Direction → Direction
  | .older => .newer
  | .newer => .older

/-- The word by which a move is asked for. -/
def word : Direction → String
  | .older => "prev"
  | .newer => "next"

theorem direction?_word (d : Direction) : Variables.direction? d.word = some d := by
  cases d <;> rfl

end Direction

theorem Placed.bounds (h : x.Placed) : 1 ≤ x.position ∧ x.position ≤ x.total := by
  unfold Placed at h
  unfold position total
  split <;> omega

theorem placed_atPosition {p : Int} (hp : 1 ≤ p ∧ p ≤ x.total) : (x.atPosition p).Placed := by
  unfold Placed atPosition total at *
  dsimp only
  split <;> omega

theorem position_atPosition {p : Int} (hp : 1 ≤ p) : (x.atPosition p).position = p := by
  unfold position atPosition total
  dsimp only
  split <;> split at * <;> omega

theorem atPosition_position (h : x.Placed) : x.atPosition x.position = x := by
  have hcursor : (if x.position = x.total then -1 else x.position - 1) = x.cursor := by
    unfold Placed at h
    unfold position total
    split <;> split at * <;> omega
  unfold atPosition
  rw [hcursor]

/-! ## Moves -/

/-- A move that is possible ends at a version. -/
theorem CanMove.bounds (h : x.CanMove d) (hx : x.Placed) :
    1 ≤ x.position + d.shift ∧ x.position + d.shift ≤ x.total := by
  have hbounds := hx.bounds
  cases d <;> unfold CanMove at h <;> unfold Direction.shift total at * <;> dsimp only at * <;> omega

/-- A move is made only where it is possible, and goes one version on. -/
theorem of_navigate (hx : x.Placed) (h : x.navigate d = .ok y) :
    x.CanMove d ∧ y = x.atPosition (x.position + d.shift) := by
  obtain ⟨hsome, -, hcursor⟩ := cursor_of_navigate h
  obtain ⟨cursor, rfl⟩ := navigate_frame h
  have hlength := List.length_pos_iff.mpr hsome
  unfold Placed at hx
  have hplace : cursor =
      if x.position + d.shift = x.total then -1 else x.position + d.shift - 1 := by
    unfold position total
    cases d <;> unfold Direction.shift <;> dsimp only at hcursor ⊢ <;> split <;> split <;> omega
  refine ⟨?_, ?_⟩
  · cases d <;> unfold CanMove position total <;> dsimp only at hcursor ⊢ <;> split <;> omega
  · unfold atPosition
    rw [← hplace]

/-- Where a move is possible, it is made. -/
theorem navigate_eq (hx : x.Placed) (h : x.CanMove d) :
    x.navigate d = .ok (x.atPosition (x.position + d.shift)) := by
  cases hmove : x.navigate d with
  | ok y => rw [(of_navigate hx hmove).2]
  | error why =>
    exfalso
    have hbounds := h.bounds hx
    unfold Placed at hx
    unfold CanMove position total at h
    unfold navigate at hmove
    dsimp only at hmove
    split at hmove
    · next hempty =>
      rw [List.isEmpty_iff.mp hempty] at h hx
      cases d <;> dsimp only [List.length_nil] at h hx <;> split at h <;> omega
    · cases d <;> dsimp only at h hmove <;> (repeat' split at hmove) <;> cases hmove <;>
        split at h <;> omega

theorem navigate_error (hx : x.Placed) (h : ¬ x.CanMove d) : ∃ why, x.navigate d = .error why := by
  cases hmove : x.navigate d with
  | ok y => exact absurd (of_navigate hx hmove).1 h
  | error why => exact ⟨why, rfl⟩

/-- The opposite move goes back. -/
theorem navigate_back (hx : x.Placed) (h : x.CanMove d) :
    (x.atPosition (x.position + d.shift)).navigate d.opposite = .ok x := by
  have hbounds := h.bounds hx
  have hposition : (x.atPosition (x.position + d.shift)).position = x.position + d.shift :=
    position_atPosition hbounds.1
  have hback : (x.atPosition (x.position + d.shift)).CanMove d.opposite := by
    have hhere := hx.bounds
    unfold total at hbounds hhere
    cases d <;> unfold CanMove Direction.opposite <;> rw [hposition] <;>
      unfold Direction.shift <;> unfold atPosition <;> dsimp only <;> omega
  have hshift : x.position + d.shift + d.opposite.shift = x.position := by
    cases d <;> unfold Direction.opposite Direction.shift <;> dsimp only <;> omega
  rw [navigate_eq (placed_atPosition hbounds) hback, hposition, hshift]
  exact congrArg _ (atPosition_position hx)

/-! ## What is shown -/

/-- The version at the position is shown, and whether it is one of the history. -/
theorem shown?_eq (hx : x.Placed) (hfloors : ∀ e ∈ x.history, e.floors ≠ "") :
    ∃ v, x.versions[(x.position - 1).toNat]? = some v ∧
      x.shown? = some ⟨v.content, v.floors, decide (x.position ≤ x.history.length)⟩ := by
  unfold versions shown? position total
  rcases hx with hcurrent | ⟨hfirst, hlast⟩
  · refine ⟨x.version, ?_, ?_⟩
    · rw [if_pos hcurrent, List.getElem?_append_right (by rw [List.length_map]; omega)]
      simp
    · rw [if_pos (.inl hcurrent), if_pos hcurrent, decide_eq_false (by omega)]
      rfl
  · have hlt : x.cursor.toNat < x.history.length := by omega
    have hcursor : x.cursor ≠ -1 := by omega
    have hplace : (x.cursor + 1 - 1).toNat = x.cursor.toNat := by omega
    refine ⟨(x.history[x.cursor.toNat]).version, ?_, ?_⟩
    · rw [if_neg hcursor, hplace, List.getElem?_append_left (by rwa [List.length_map]),
        List.getElem?_map, List.getElem?_eq_getElem hlt]
      rfl
    · unfold item?
      rw [if_neg (by omega), if_neg hcursor, if_pos hfirst, List.getElem?_eq_getElem hlt,
        decide_eq_true (by omega), Option.map_some, if_neg (hfloors _ (List.getElem_mem hlt))]
      rfl

/-! ## What becomes of a slot -/

theorem Placed.becomes (h : x.Placed) (hy : x.Becomes now new y) : y.Placed := by
  cases hy with
  | same => exact h
  | put content floors => exact .inl rfl
  | moved hmove =>
    obtain ⟨hcan, rfl⟩ := of_navigate h hmove
    exact placed_atPosition (hcan.bounds h)

end Slot

/-! ## The laws -/

/-- What the calls do while a slot is served as `x`. -/
structure CursorLaws (s : Storage) (id chat : String) (x : Slot) : Prop where
  /-- The position is that of a version. -/
  placed : 1 ≤ x.position ∧ x.position ≤ x.total
  /-- A move that is possible goes one version on and tells the new position, and the opposite move
  makes the slot what it was. -/
  moves : ∀ d, x.CanMove d → ∃ y t u,
    ended (Variables.navigate id chat d.word) s = (.ok (.ok (y.position, y.total)), t) ∧
      y.position = x.position + d.shift ∧ y.versions = x.versions ∧ y.total = x.total ∧
      ended (Variables.slot id chat) t = (.ok y, t) ∧
      ended (Variables.navigate id chat d.opposite.word) t =
        (.ok (.ok (x.position, x.total)), u) ∧
      ended (Variables.slot id chat) u = (.ok x, u)
  /-- Any other move is refused, and changes nothing. -/
  stays : ∀ d, ¬ x.CanMove d →
    ∃ why, ended (Variables.navigate id chat d.word) s = (.ok (.error why), s)
  /-- The version at the position is shown, and whether it is one of the history. -/
  shows : ∃ v, x.versions[(x.position - 1).toNat]? = some v ∧
    ended (Variables.shown id chat) s =
      (.ok ⟨v.content, v.floors, decide (x.position ≤ x.history.length)⟩, s)

theorem Variables.ended_navigate_error (hu : s.store.usable? chat = some vs) {d : Slot.Direction}
    {why : Slot.NoMove} (h : (vs.slot id).navigate d = .error why) :
    ended (navigate id chat d.word) s = (.ok (.error (.noMove why)), s) := by
  unfold navigate
  rw [d.direction?_word]
  dsimp only
  rw [ended_bind_ok (ended_slot_usable hu id), h]
  rfl

theorem cursorLaws_of_placed (hu : s.store.usable? chat = some vs) (hx : (vs.slot id).Placed)
    (hfloors : ∀ e ∈ (vs.slot id).history, e.floors ≠ "") :
    CursorLaws s id chat (vs.slot id) where
  placed := hx.bounds
  moves d hcan := by
    have hbounds := hcan.bounds hx
    have hthere := Variables.ended_navigate_ok hu d.direction?_word (Slot.navigate_eq hx hcan)
    let moved := (vs.slot id).atPosition ((vs.slot id).position + d.shift)
    have hu' := Variables.usable_stored hu id (.slot moved)
    have hopposite : (ChatValues.slot (Json.insert vs id (.slot moved)) id).navigate d.opposite =
        .ok (vs.slot id) := by
      rw [ChatValues.slot_insert]
      exact Slot.navigate_back hx hcan
    have hback := Variables.ended_navigate_ok hu' d.opposite.direction?_word hopposite
    exact ⟨_, _, _, hthere, Slot.position_atPosition hbounds.1, rfl, rfl,
      Variables.ended_slot_stored hu id _, hback, Variables.ended_slot_stored hu' id _⟩
  stays d hcannot := by
    obtain ⟨why, hwhy⟩ := Slot.navigate_error hx hcannot
    exact ⟨_, Variables.ended_navigate_error hu hwhy⟩
  shows := by
    obtain ⟨v, hv, hshown⟩ := Slot.shown?_eq hx hfloors
    refine ⟨v, hv, ?_⟩
    unfold Variables.shown
    rw [ended_bind_ok (Variables.ended_slot_usable hu id), hshown]
    rfl

/-- Whatever was asked of a slot that was empty, its cursor is at one of its versions, moves from
one to the next, and shows the one it is at. -/
theorem cursor_exact (hnone : ended (Storage.getValue id chat) s = (.ok none, t))
    (hreadable : t.store.isDegraded chat = false) (hrun : SlotRun id chat t made u) :
    ∃ x, ended (Variables.slot id chat) u = (.ok x, u) ∧ CursorLaws u id chat x := by
  obtain ⟨vs, hu, hvalue⟩ := Storage.usable_of_getValue hnone hreadable
  have hempty : vs.slot id = .empty := by
    unfold ChatValues.slot
    rw [hvalue]
    rfl
  have hstart : (vs.slot id).Recalls [] ∧ (vs.slot id).Placed :=
    hempty ▸ ⟨Slot.Recalls.empty, .inl rfl⟩
  obtain ⟨ws, hw, hrecalls, hplaced⟩ := hrun.keeps (P := fun made x => x.Recalls made ∧ x.Placed)
    (fun hx hy => ⟨hx.1.becomes hy, hx.2.becomes hy⟩) hu hstart
  exact ⟨ws.slot id, Variables.ended_slot_usable hw id,
    cursorLaws_of_placed hw hplaced hrecalls.floors⟩

/-- Whatever may become of a slot, a run comes to it. -/
theorem SlotRun.reaches {y : Slot} (hrun : SlotRun id chat t made u)
    (hu : u.store.usable? chat = some vs) (hy : (vs.slot id).Becomes u.clock.now new y) :
    ∃ v ws, SlotRun id chat t (made ++ new) v ∧ v.store.usable? chat = some ws ∧ ws.slot id = y := by
  cases hy with
  | same => exact ⟨u, vs, by rwa [List.append_nil], hu, rfl⟩
  | put content floors =>
    exact ⟨_, _, hrun.tail (.put (Variables.ended_put hu id content floors)),
      Variables.usable_stored hu id _, ChatValues.slot_insert vs id _⟩
  | @moved d y hmove =>
    have hstep : SlotStep id chat u [] _ := .navigate d.word
    rw [Variables.ended_navigate_ok hu d.direction?_word hmove] at hstep
    exact ⟨_, _, hrun.tail hstep, Variables.usable_stored hu id _, ChatValues.slot_insert vs id _⟩

/-- Two contents are put into a new slot, and the cursor goes back to the first. -/
theorem cursor_exact_older : ∃ (s t u : Storage) (made : List Version) (x : Slot),
    ended (Storage.getValue "var_mood" "c") s = (.ok none, t) ∧
      t.store.isDegraded "c" = false ∧ SlotRun "var_mood" "c" t made u ∧
      ended (Variables.slot "var_mood" "c") u = (.ok x, u) ∧ CursorLaws u "var_mood" "c" x ∧
      x.position = 1 ∧ x.total = 2 ∧
      ended (Variables.shown "var_mood" "c") u = (.ok ⟨"calm", "1-5", true⟩, u) := by
  let s : Storage := ⟨.empty "root" "values-" 0 0, .ofDocuments [], ⟨0, 0⟩, .start⟩
  obtain ⟨t, hnone, hreadable⟩ : ∃ t, ended (Storage.getValue "var_mood" "c") s = (.ok none, t) ∧
      t.store.isDegraded "c" = false := ⟨_, Prod.ext rfl rfl, rfl⟩
  obtain ⟨vs, hu, hvalue⟩ := Storage.usable_of_getValue hnone hreadable
  have hempty : vs.slot "var_mood" = .empty := by
    unfold ChatValues.slot
    rw [hvalue]
    rfl
  obtain ⟨u₁, vs₁, hrun₁, hu₁, hx₁⟩ := SlotRun.refl.reaches hu (.put "calm" "1-5")
  obtain ⟨u₂, vs₂, hrun₂, hu₂, hx₂⟩ := hrun₁.reaches hu₁ (.put "tense" "6")
  rw [hempty] at hx₁
  rw [hx₁] at hx₂
  obtain ⟨u₃, vs₃, hrun₃, hu₃, hx₃⟩ := hrun₂.reaches hu₂
    (.moved (d := .older) (y := { vs₂.slot "var_mood" with cursor := 0 }) (by rw [hx₂]; rfl))
  rw [hx₂] at hx₃
  obtain ⟨x, hx, hlaws⟩ := cursor_exact hnone hreadable hrun₃
  have hserved := Variables.ended_slot_usable hu₃ "var_mood"
  rw [hx₃, hx] at hserved
  obtain rfl := Except.ok.inj (Prod.mk.inj hserved).1
  obtain ⟨v, hv, hshown⟩ := hlaws.shows
  obtain rfl : (⟨"calm", "1-5"⟩ : Version) = v := Option.some.inj hv
  exact ⟨s, t, _, _, _, hnone, hreadable, hrun₃, hx, hlaws, rfl, rfl, hshown⟩

end TagLedger
