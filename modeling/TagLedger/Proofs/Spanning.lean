import TagLedger.Proofs.Branching
import TagLedger.Proofs.Labelling
import TagLedger.Proofs.Selecting

/-!
# Labels that are read back

A prompt covers the floors that its items take of the chat, as long as they give text, and a label
says from where to where. The number that is read of the label is the greatest of these floors, or
the length of the chat if none is covered.

    prompt suiteId c = (text, floors)  →  floors = r.spanIn suiteId format c     (prompt_done)
    EndsAt (r.spanIn suiteId format c) (highest format c items)                 (endsAt_spanIn)
-/

namespace TagLedger

open Text (NamesFloors digitsValue natDigits)
open Json (Brief)

variable {r : Root} {floors : String} {f last : Int} {fs : List Int}

/-! ## Labels -/

theorem toList_intText_natCast (n : Nat) : (Text.intText n).toList = natDigits n := by
  unfold Text.intText
  rw [String.toList_ofList]
  rfl

theorem digits_natDigits (n : Nat) : Text.Digits (natDigits n) where
  ne_nil := Nat.toDigits_ne_nil
  digit c hc := by
    unfold Text.isDigit
    rw [Text.digitValue?_of_isAsciiDigit (Text.isAsciiDigit_of_mem_toDigits hc)]
    rfl

theorem blanks_nil : Text.Blanks [] := fun _ hc => absurd hc List.not_mem_nil

theorem namesFloors_one (n : Nat) : NamesFloors (natDigits n) (natDigits n) := by
  have h := NamesFloors.one blanks_nil (digits_natDigits n) blanks_nil
  rwa [List.nil_append, List.append_nil] at h

theorem namesFloors_two (m n : Nat) :
    NamesFloors (natDigits m ++ '-' :: natDigits n) (natDigits n) := by
  have h := NamesFloors.two blanks_nil (digits_natDigits m) blanks_nil blanks_nil
    (digits_natDigits n) blanks_nil
  simpa using h

theorem le_foldl_min {k : Int} (hf : k ≤ f) (hfs : ∀ x ∈ fs, k ≤ x) : k ≤ fs.foldl min f := by
  induction fs generalizing f with
  | nil => exact hf
  | cons x fs ih =>
    obtain ⟨hx, hfs⟩ := List.forall_mem_cons.mp hfs
    exact ih (le_min hf hx) hfs

theorem le_foldl_max {k : Int} (hf : k ≤ f) (fs : List Int) : k ≤ fs.foldl max f := by
  induction fs generalizing f with
  | nil => exact hf
  | cons x fs ih => exact ih (hf.trans (le_max_left f x))

/-- The last floor that a text names is this one, written without blanks or zeros before it. -/
def EndsAt (floors : String) (m : Int) : Prop :=
  ∃ n : Nat, n = m ∧ NamesFloors floors.toList (natDigits n)

namespace EndsAt

variable {m : Int}

/-- The last floor is read. -/
theorem lastFloor?_eq (h : EndsAt floors m) (hbrief : Brief m) :
    lastFloor? floors = .ok (some m) := by
  obtain ⟨n, rfl, hnames⟩ := h
  have hvalue : digitsValue (natDigits n) = n := Text.digitsValue_toDigits n
  rw [Text.lastFloor?_eq, Text.lastNumeral?_of_names hnames]
  dsimp only
  rw [Text.readDigits_of_le (show (natDigits n).length ≤ _ from hbrief), hvalue]
  rfl

theorem writtenBy_iff (h : EndsAt floors m) : WrittenBy floors f ↔ m ≤ f := by
  obtain ⟨n, rfl, hnames⟩ := h
  have hvalue : digitsValue (natDigits n) = n := Text.digitsValue_toDigits n
  constructor
  · rintro ⟨ds, hds, hle⟩
    have hsame := (Text.lastNumeral?_of_names hds).symm.trans (Text.lastNumeral?_of_names hnames)
    rw [Option.some.inj hsame, hvalue] at hle
    exact hle
  · intro hle
    exact ⟨_, hnames, by rwa [hvalue]⟩

end EndsAt

/-- The label of floors ends at the greatest. -/
theorem endsAt_spanText (last : Nat) (hfs : ∀ x ∈ fs, 1 ≤ x) :
    EndsAt (Session.spanText last fs) (fs.max?.getD last) := by
  cases fs with
  | nil =>
    refine ⟨last, rfl, ?_⟩
    unfold Session.spanText
    rw [toList_intText_natCast]
    exact namesFloors_one last
  | cons x fs =>
    obtain ⟨hx, hfs⟩ := List.forall_mem_cons.mp hfs
    have hmax : (x :: fs).max? = some (fs.foldl max x) := List.max?_cons'
    obtain ⟨low, hlow⟩ := Int.eq_ofNat_of_zero_le
      ((by decide : (0 : Int) ≤ 1).trans (le_foldl_min hx hfs))
    obtain ⟨high, hhigh⟩ := Int.eq_ofNat_of_zero_le
      ((by decide : (0 : Int) ≤ 1).trans (le_foldl_max hx fs))
    refine ⟨high, by rw [hmax, hhigh]; rfl, ?_⟩
    unfold Session.spanText
    dsimp only
    rw [hlow, hhigh]
    split
    · next heq =>
      rw [heq, toList_intText_natCast]
      exact namesFloors_one high
    · rw [String.toList_append, String.toList_append, toList_intText_natCast,
        toList_intText_natCast]
      have h := namesFloors_two low high
      simpa using h

/-! ## Floors that items cover -/

theorem RangeRule.one_le_of_mem_floors {rule : RangeRule} {n : Int} (h : f ∈ rule.floors n) :
    1 ≤ f := by
  rcases Int.lt_or_le 0 n with hn | hn
  case inr =>
    unfold RangeRule.floors at h
    rw [if_pos hn] at h
    exact absurd h List.not_mem_nil
  have hinterval {a b : Int} (hf : f ∈ interval (max 1 a) b) : 1 ≤ f :=
    (le_max_left 1 a).trans (mem_interval.mp hf).1
  have hwhole {b : Int} (hf : f ∈ interval 1 b) : 1 ≤ f := (mem_interval.mp hf).1
  rw [RangeRule.floors_of_pos hn] at h
  split at h
  · exact hinterval h
  · exact hinterval h
  · split at h
    · exact absurd h List.not_mem_nil
    · exact hinterval h
  · exact (le_max_left 1 _).trans (mem_intervalBy (by omega) h).1
  · split at h
    · exact hwhole h
    · exact hinterval h
  · exact hwhole (List.mem_of_mem_filter h)
  · exact absurd h List.not_mem_nil

theorem ChatItem.one_le_of_mem_floorsOf {item : ChatItem} {messages : List Message}
    (h : f ∈ item.floorsOf messages) : 1 ≤ f := by
  unfold ChatItem.floorsOf RangeRule.select at h
  dsimp only at h
  split at h
  · exact RangeRule.one_le_of_mem_floors (List.mem_of_mem_filter h)
  · exact RangeRule.one_le_of_mem_floors h

/-- The floors that an item takes of a chat, if that gives text. -/
def Item.covers (format : String) (c : Chat) : Item → List Int
  | .chat item =>
    match item.render format c.messages with
    | .ok rendered => if rendered.text = "" then [] else item.floorsOf c.messages
    | .error _ => []
  | _ => []

/-- The greatest floor that items cover, or the last floor of the chat if they cover none. -/
def highest (format : String) (c : Chat) (items : List Item) : Int :=
  (items.flatMap (Item.covers format c)).max?.getD c.length

/-- Every floor that is taken counts, rendered or not. -/
theorem ChatItem.floors_of_render {item : ChatItem} {format : String} {messages : List Message}
    {a : Rendered} (h : item.render format messages = .ok a) : a.floors = item.floorsOf messages := by
  obtain ⟨b, -, rfl⟩ := map_eq_ok h
  rfl

theorem Item.covers_chat {item : ChatItem} {format : String} {c : Chat} {a : Rendered}
    (h : item.render format c.messages = .ok a) :
    (Item.chat item).covers format c = if a.text = "" then [] else a.floors := by
  rw [ChatItem.floors_of_render h]
  unfold covers
  dsimp only
  rw [h]

theorem one_le_of_mem_covers {format : String} {c : Chat} {i : Item} (h : f ∈ i.covers format c) :
    1 ≤ f := by
  unfold Item.covers at h
  split at h
  · split at h
    · split at h
      · exact absurd h List.not_mem_nil
      · exact ChatItem.one_le_of_mem_floorsOf h
    · exact absurd h List.not_mem_nil
  · exact absurd h List.not_mem_nil

/-! ## Prompts -/

namespace Session

variable {x y : Session} {c : Chat} {suiteId : String}

/-- An item is rendered, and what it covers is noted. -/
theorem itemText_covers {i : Item} {text : Option Rendered}
    (h : ended (itemText c i) x = (.ok text, y)) :
    y = x ∧ text.toList.flatMap (·.floors) = i.covers x.templates.floorFormat c := by
  have hsame : y = x := by
    obtain ⟨a, ha⟩ := Glances.itemText (x := x) c i
    have hrun : ended (itemText c i) x = (a, x) := ha x.analyzer
    exact (Prod.mk.inj (h.symm.trans hrun)).2
  refine ⟨hsame, ?_⟩
  cases i with
  | prompt p =>
    obtain ⟨t, z, -, hdone⟩ := of_ended_bind h
    cases hdone
    rfl
  | chat item =>
    unfold itemText at h
    rw [ended_get_bind] at h
    obtain ⟨rendered, z, hrender, hdone⟩ := of_ended_bind h
    cases hdone
    cases hitem : item.render x.templates.floorFormat c.messages with
    | error e =>
      rw [hitem] at hrender
      cases hrender
    | ok a =>
      rw [hitem] at hrender
      cases hrender
      rw [Item.covers_chat hitem]
      split
      · rfl
      · exact List.append_nil _
  | character item =>
    unfold itemText at h
    dsimp only at h
    split at h
    · cases h
      rfl
    · rw [ended_get_bind] at h
      cases h
      cases x.host.characterText? item c with
      | none => rfl
      | some t =>
        rw [Option.bind_some]
        split <;> rfl
  | _ =>
    cases h
    rfl

theorem itemTexts_covers {items : List Item} {texts : List Rendered}
    (h : ended (itemTexts c items) x = (.ok texts, y)) :
    y = x ∧
      texts.flatMap (·.floors) = items.flatMap (Item.covers x.templates.floorFormat c) := by
  induction items generalizing texts y with
  | nil =>
    cases h
    exact ⟨rfl, rfl⟩
  | cons i items ih =>
    obtain ⟨text, z, hone, hmore⟩ := of_ended_bind h
    obtain ⟨rfl, htext⟩ := itemText_covers hone
    obtain ⟨rest, z', hrest, hdone⟩ := of_ended_bind hmore
    obtain ⟨rfl, hrest⟩ := ih hrest
    cases hdone
    rw [List.flatMap_append, List.flatMap_cons, htext, hrest]
    exact ⟨rfl, rfl⟩

end Session

/-- The visible items of a suite, none if it is unknown. -/
def Root.visibleIn (r : Root) (suiteId : String) : List Item :=
  ((Json.find? r.suites suiteId).map (·.visibleItems)).getD []

/-- The label of what the visible items of a suite cover. -/
def Root.spanIn (r : Root) (suiteId format : String) (c : Chat) : String :=
  Session.spanText c.length ((r.visibleIn suiteId).flatMap (Item.covers format c))

theorem Root.endsAt_spanIn (r : Root) (suiteId format : String) (c : Chat) :
    EndsAt (r.spanIn suiteId format c) (highest format c (r.visibleIn suiteId)) := by
  refine endsAt_spanText c.length fun x hx => ?_
  obtain ⟨i, -, hi⟩ := List.mem_flatMap.mp hx
  exact one_le_of_mem_covers hi

-- what the user wrote last is left out, and so the prompt ends before it
example : highest "\x7btext\x7d" ⟨"c", [⟨"", "a", true⟩, ⟨"", "b", false⟩, ⟨"", "c", true⟩], none⟩
    [.chat ⟨"", "", true, .standard, true, .empty⟩] = 2 := by cbv

theorem Suites.find_done {s t : Storage} {suiteId : String} {found : Option Suite}
    (h : ended (Suites.find? suiteId) s = (.ok found, t)) :
    ∃ r, ended Storage.load s = (.ok r, t) ∧ found = Json.find? r.suites suiteId := by
  obtain ⟨suites, t', hsuites, hdone⟩ := of_ended_bind h
  obtain ⟨r, t'', hload, hroot⟩ := of_ended_bind hsuites
  cases hroot
  cases hdone
  exact ⟨r, hload, rfl⟩

/-- The label of a prompt is that of what the visible items cover. -/
theorem Session.prompt_done {x y : Session} {c : Chat} {suiteId text : String}
    (h : ended (prompt suiteId c) x = (.ok (text, floors), y)) :
    ∃ r u, ended Storage.load x.storage = (.ok r, u) ∧ y = { x with storage := u } ∧
      floors = r.spanIn suiteId x.templates.floorFormat c := by
  obtain ⟨items, z, hitems, hmore⟩ := of_ended_bind h
  obtain ⟨texts, z', htexts, hdone⟩ := of_ended_bind hmore
  rw [ended_stored] at hitems
  obtain ⟨hanswer, rfl⟩ := Prod.mk.inj hitems
  obtain ⟨found, u, hfind, hvisible⟩ := of_ended_bind (Prod.ext hanswer rfl)
  obtain ⟨r, hload, rfl⟩ := Suites.find_done hfind
  cases hvisible
  obtain ⟨rfl, hcovers⟩ := itemTexts_covers htexts
  cases hdone
  exact ⟨r, _, hload, rfl, congrArg (spanText c.length) hcovers⟩

end TagLedger
