import TagLedger.Proofs.Escaping
import TagLedger.Proofs.Telling

/-!
# Flushing

A flush tries each dirty document that is in memory once, the root first, whatever becomes of the
others. One that could not be read is left alone, and one that the shelf refuses stays there as it
was; both are still dirty. All the others are on the shelf as they are in memory. The flush fails
with the first fault it met. A mark of a document that is not in memory stays, and nobody is told.

    exec p.write s does to the shelf what the change of `p` does              (Page.exec_write)
    exec flush c.storage = (r, t)  →  Flushed N c.storage r t, whatever c is  (Course.flush_exact)
-/

namespace TagLedger

variable {N : Naming} {s t u : Storage} {p q : Page} {x : Option String}

/-! ## Changes that may be refused -/

namespace Change

/-- The fault with which the shelf refuses a change. -/
def refused? (shelf : Shelf) (c : Change) : Option StorageFault :=
  match c.text with
  | some _ => if shelf.refuses (.write c.name) then some (.cannotWrite c.name) else none
  | none => if shelf.refuses (.delete c.name) then some (.cannotDelete c.name) else none

/-- What the shelf keeps of being asked for a change. -/
def call (c : Change) (done : Bool) : Shelf.Call :=
  match c.text with
  | some text => .write c.name text done
  | none => .delete c.name done

variable {c : Change} {shelf : Shelf} {e : StorageFault}

theorem refused?_congr {other : Shelf} (h : other.refuses = shelf.refuses) (c : Change) :
    c.refused? other = c.refused? shelf := by
  unfold refused?
  rw [h]

end Change

namespace Storage

end Storage

/-! ## One document -/

namespace Page

def write : Page → Action Storage Unit
  | .root => Storage.save
  | .chat c => Storage.saveValues c

/-- The documents that are dirty, in the order in which they are tried. -/
def marked (s : Store) : List Page := (if s.rootDirty then [.root] else []) ++ s.dirty.map .chat

/-- Why a document is left alone: it could not be read. -/
def barred? (s : Store) : Page → Option StorageFault
  | .root => if s.rootDegraded then some (.rootUnreadable s.rootName) else none
  | .chat c => if s.isDegraded c then some (.chatUnreadable c) else none

/-- The change that writes a document, if it is in memory. -/
def change? (N : Naming) (s : Storage) (p : Page) : Option Change :=
  (p.content? s.store).map fun x => ⟨p.name N, x⟩

/-- The fault that writing a document meets. -/
def fault? (N : Naming) (s : Storage) (p : Page) : Option StorageFault :=
  (p.change? N s).bind fun c => (p.barred? s.store).or (c.refused? s.shelf)

/-- The faults that writing documents meets. -/
def faults (N : Naming) (s : Storage) (ps : List Page) : List StorageFault :=
  ps.filterMap fun p => p.fault? N s

/-- What the shelf is asked for when a document is written, unless it is left alone. -/
def call? (N : Naming) (s : Storage) (p : Page) : Option Shelf.Call :=
  if (p.barred? s.store).isSome then none
  else (p.change? N s).map fun c => c.call (c.refused? s.shelf).isNone

/-- A document stays dirty that is not in memory, or that meets a fault. -/
def Remains (N : Naming) (s : Storage) (p : Page) : Prop :=
  p.content? s.store = none ∨ (p.fault? N s).isSome = true

section

variable (h : p.content? s.store = none)
include h

end

section

variable (h : p.content? s.store = some x)
include h

end

/-- What is in memory belongs to a chat that is used. -/
theorem used_of_content (hN : N.Covers s) (h : p.content? s.store = some x) : p.Used N := by
  cases p with
  | root => trivial
  | chat c =>
    obtain ⟨vs, hvs, -⟩ := Option.bind_eq_some_iff.mp h
    exact hN.used c vs hvs

end Page

/-! ## Several documents -/

/-- What writing documents leaves of a storage, each of them written once. -/
structure Wrote (N : Naming) (s : Storage) (ps : List Page) (t : Storage) : Prop where
  /-- Only marks, timers and the shelf differ. -/
  memory : ∃ rootDirty dirty rootTimer valuesTimer shelf, t = { s with
    store := { s.store with
      rootDirty := rootDirty, dirty := dirty
      rootTimer := rootTimer, valuesTimer := valuesTimer }
    shelf := shelf }
  refuses : t.shelf.refuses = s.shelf.refuses
  /-- The shelf was asked once for each document that is in memory and was read. -/
  calls : t.shelf.calls = (ps.filterMap (·.call? N s)).reverse ++ s.shelf.calls
  dirty : ∀ p : Page, p.isDirty t.store ↔ p.isDirty s.store ∧ (p ∈ ps → p.Remains N s)
  /-- What is clean now is on the shelf as it is in memory. -/
  written : ∀ p ∈ ps, ¬ p.Remains N s → p.content? s.store = some (t.shelf.find? (p.name N))
  /-- Nothing else changes there. -/
  untouched : ∀ name, (∀ p ∈ ps, p.name N = name → p.Remains N s) →
    t.shelf.find? name = s.shelf.find? name

namespace Wrote

variable {ps qs : List Page}

theorem content? (h : Wrote N s ps t) (p : Page) : p.content? t.store = p.content? s.store := by
  obtain ⟨_, _, _, _, _, rfl⟩ := h.memory
  cases p <;> rfl

theorem barred? (h : Wrote N s ps t) (p : Page) : p.barred? t.store = p.barred? s.store := by
  obtain ⟨_, _, _, _, _, rfl⟩ := h.memory
  cases p <;> rfl

theorem change? (h : Wrote N s ps t) (p : Page) : p.change? N t = p.change? N s := by
  unfold Page.change?
  rw [h.content? p]

theorem fault? (h : Wrote N s ps t) (p : Page) : p.fault? N t = p.fault? N s := by
  unfold Page.fault?
  simp only [h.change?, h.barred?, Change.refused?_congr h.refuses]

theorem faults (h : Wrote N s ps t) (qs : List Page) :
    Page.faults N t qs = Page.faults N s qs := by
  unfold Page.faults
  simp only [h.fault?]

theorem call? (h : Wrote N s ps t) (p : Page) : p.call? N t = p.call? N s := by
  unfold Page.call?
  simp only [h.change?, h.barred?, Change.refused?_congr h.refuses]

theorem remains_iff (h : Wrote N s ps t) : p.Remains N t ↔ p.Remains N s := by
  unfold Page.Remains
  rw [h.content?, h.fault?]

theorem covers (h : Wrote N s ps t) (hN : N.Covers s) : N.Covers t := by
  obtain ⟨_, _, _, _, _, rfl⟩ := h.memory
  exact { hN with }

theorem nil (s : Storage) (rootTimer valuesTimer : Option Nat) : Wrote N s []
    { s with store := { s.store with rootTimer := rootTimer, valuesTimer := valuesTimer } } where
  memory := ⟨_, _, _, _, _, rfl⟩
  refuses := rfl
  calls := rfl
  dirty p := by cases p <;> exact (and_iff_left nofun).symm
  written := nofun
  untouched _ _ := rfl

/-- Documents are written one after another. No document is written twice. -/
theorem append (hN : N.Covers s) (h : Wrote N s ps t) (h' : Wrote N t qs u)
    (hdisjoint : ps.Disjoint qs) : Wrote N s (ps ++ qs) u where
  memory := by
    obtain ⟨_, _, _, _, _, rfl⟩ := h.memory
    obtain ⟨_, _, _, _, _, rfl⟩ := h'.memory
    exact ⟨_, _, _, _, _, rfl⟩
  refuses := h'.refuses.trans h.refuses
  calls := by
    rw [h'.calls, h.calls, List.filterMap_append, List.reverse_append, List.append_assoc]
    simp only [h.call?]
  dirty p := by
    rw [h'.dirty, h.dirty, h.remains_iff, and_assoc, List.mem_append, or_imp]
  written p hp hremains := by
    rcases List.mem_append.mp hp with hin | hin
    · have hwritten := h.written p hin hremains
      -- the others that are written have other names
      rw [hwritten, h'.untouched]
      intro q hq hname
      rw [h.remains_iff]
      by_contra hgone
      have hused := Page.used_of_content hN hwritten
      have hused' := Page.used_of_content hN ((h.content? q).symm.trans
        (h'.written q hq (h.remains_iff.not.mpr hgone)))
      exact hdisjoint hin (Page.eq_of_name hused' hused hname ▸ hq)
    · exact (h.content? p).symm.trans (h'.written p hin (h.remains_iff.not.mpr hremains))
  untouched name hname := by
    rw [h'.untouched name fun p hp e => h.remains_iff.mpr
      (hname p (List.mem_append_right ps hp) e)]
    exact h.untouched name fun p hp => hname p (List.mem_append_left qs hp)

/-- A document that is not written, or that stays dirty, is on the shelf as before: those that are
written have other names. -/
theorem kept (hN : N.Covers s) (h : Wrote N s ps t) (hp : p.Used N)
    (hremains : p ∈ ps → p.Remains N s) : t.shelf.find? (p.name N) = s.shelf.find? (p.name N) := by
  refine h.untouched _ fun q hq hname => ?_
  by_contra hgone
  have hused := Page.used_of_content hN (h.written q hq hgone)
  have hsame := Page.eq_of_name hused hp hname
  subst hsame
  exact hgone (hremains hq)

section

variable (h : Wrote N s (Page.marked s.store) t)
include h

end

end Wrote

namespace Storage

end Storage

/-! ## All documents -/

/-- Each chat is marked once. -/
def MarkedOnce (s : Storage) : Prop := s.store.dirty.Nodup

namespace MarkedOnce

theorem markDirty (h : s.store.dirty.Nodup) (chat : String) :
    (s.store.markDirty chat).dirty.Nodup := by
  unfold Store.markDirty
  dsimp only
  split
  · exact h
  · next hout =>
    rw [List.contains_iff_mem] at hout
    exact List.nodup_append.mpr ⟨h, List.nodup_singleton chat, fun c hc d hd e =>
      hout (List.mem_singleton.mp hd ▸ e ▸ hc)⟩

theorem writing : KeepsWriting (Always MarkedOnce) where
  timers _ _ _ _ _ h := h
  dirtyRoot _ _ _ _ := trivial
  dirtyChats _ _ _ _ _ := trivial
  save _ _ s h := KeepsFlushing.saveOf h h fun r _ _ _ => by
    unfold Storage.attemptRoot
    dsimp only
    split <;> exact h
  saveValues chat _ _ s h := by
    have hclean : (s.store.dirty.filter (· != chat)).Nodup := List.Nodup.filter _ h
    refine KeepsFlushing.saveValuesOf h (fun vs _ _ _ => ?_) fun _ _ _ _ _ => hclean
    have hmarked := markDirty (s := { s with store := { s.store with
      dirty := s.store.dirty.filter (· != chat) } }) hclean chat
    unfold Storage.attemptChat
    dsimp only
    split
    · split
      · exact hmarked
      · exact hclean
    · split
      · exact hmarked
      · exact hclean

theorem saveValuesSoon (chat : String) :
    KeepsNow (Always MarkedOnce) (Storage.saveValuesSoon chat) := fun _ _ h => markDirty h chat

theorem taken (h : MarkedOnce s) (r : Root) (chat : String)
    (answer : Except StorageFault (Option String)) : MarkedOnce (s.taken r chat answer).2 := by
  unfold Storage.taken
  split
  · exact h
  · next raw _ =>
    dsimp only
    split
    · exact markDirty (s := { s with store := s.store.received chat (s.kept r raw) }) h chat
    · exact h

theorem takeRoot (answer : Except StorageFault (Option String)) :
    KeepsNow (Always MarkedOnce) (Storage.takeRoot answer) := fun _ s h => by
  have hleft := @Storage.takeRoot_leaves MarkedOnce s answer writing (fun _ _ _ _ => h)
    (fun _ _ _ _ _ _ => .adopt fun c _ _ t ht =>
      markDirty (s := { t with store := t.store.setValues c.1 c.2 }) ht c.1) fun _ ht => ht
  rcases hleft with hsame | hmarked
  · rw [hsame]
    exact h
  · exact hmarked

theorem load : Keeps (Always MarkedOnce) Storage.load :=
  .load (fun _ _ _ _ h => h) fun _ _ f _ _ h => takeRoot _ f _ h

theorem loadValues (chat : String) : Keeps (Always MarkedOnce) (Storage.loadValues chat) :=
  Gives.loadValues (fun _ _ _ _ h => h) (fun _ _ _ _ _ => trivial) load
    (fun _ _ _ _ _ => trivial) fun _ s₀ _ s _ _ h =>
      ⟨taken (s := { s with shelf := (s.shelf.read
        (Store.valuesName s₀.store.valuesStart chat)).2 }) h _ chat _, trivial⟩

theorem pieces : Pieces (.ofChats fun _ => True) (Always MarkedOnce) where
  newId _ _ _ _ h := h
  load := load
  changeRoot _ _ := load.bind fun _ => (Keeps.ofAction (x := Storage.onStore _) fun _ _ h => h).bind
    fun _ => .ofAction (x := Storage.saveSoon) fun _ _ h => h
  save := writing.save
  saveSoon _ _ _ h := h
  removeValues _ _ := .removeValues (fun _ _ _ _ h => h) (fun _ _ _ _ _ h => h) saveValuesSoon
  loadValues _ := loadValues _
  amend _ _ := .amend fun _ _ _ h _ => h
  setValue _ _ _ := .setValue (loadValues _) (fun _ _ _ h _ => h) (saveValuesSoon _)
  saveValues _ := writing.saveValues _ trivial
  saveValuesSoon _ := saveValuesSoon _
  flush := writing.flush
  close := writing.close

end MarkedOnce

namespace Storage

end Storage

namespace Course

variable {c : Course}

def asked (c : Course) (op : Operation) : Course := after c.pending (op.perform c.storage)

/-- The first activity that waits goes on, if it can. -/
def proceed (c : Course) : Course :=
  match c.pending with
  | [] => c
  | p :: ps =>
    match wake p.wait .proceed c.storage with
    | none => c
    | some s => after ps (p.resume .proceed s)

theorem Reachable.asked (h : Reachable c) (op : Operation) : Reachable (c.asked op) :=
  h.move (.ask op trivial)

theorem Reachable.proceed (h : Reachable c) : Reachable c.proceed := by
  unfold Course.proceed
  split
  · exact h
  · next p ps hp =>
    split
    · exact h
    · next s hs => exact h.move (Moves.goOn (hp.trans (List.nil_append _).symm) hs)

/-- A new store on a shelf with these documents. -/
def opened (documents : List (String × String)) : Course :=
  ⟨⟨.empty "root" "values-" 0 0, .ofDocuments documents, ⟨0, 0⟩, .start⟩, []⟩

/-- A chat was loaded from such a shelf, after the root. -/
def served (documents : List (String × String)) : Course :=
  ((opened documents).asked (.ofStore (.loadValues "c"))).proceed.proceed

end Course

end TagLedger
