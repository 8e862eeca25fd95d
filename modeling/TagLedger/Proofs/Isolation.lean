import TagLedger.Proofs.Alike
import TagLedger.Proofs.Operations
import TagLedger.Proofs.Reopening

/-!
# Chats do not disturb each other

Whatever is asked of one chat, another chat with a document of its own is served with the same values
after the store was closed and opened anew. All that can become of the document of the other chat is
that its values are written that waited to be written before, and so it is with the root.

    what is asked of c, relative to where it began, leaves d aside       (Aside.pieces)
    two runs that are about c, and close well  →  d is served the same   (served_same_of_closed)

Without documents of their own they do.

    c and d have one document, neither is in memory  →  both are served the same   (served_alike_of_name)
-/

namespace TagLedger

variable {N : Naming} {a s t : Storage} {r : Root} {c d : String} {vs : ChatValues}

/-! ## Documents that wait to be written -/

/-- A document began as `old`, and is `now`. If it was dirty then what it is to become is written and
nothing else, and as long as that was not done, it is dirty still. -/
structure Trails (dirty dirty' : Prop) (new : Option String → Prop) (old now : Option String) :
    Prop where
  only : dirty' → dirty
  text : now = old ∨ dirty ∧ new now
  waits : dirty → (∃ text, new text) → dirty' ∨ new now

namespace Trails

variable {dirty dirty' dirty'' : Prop} {new : Option String → Prop} {old now now' : Option String}

theorem refl (dirty : Prop) (new : Option String → Prop) (old : Option String) :
    Trails dirty dirty new old old := ⟨id, Or.inl rfl, fun h _ => Or.inl h⟩

theorem write (h : dirty) (hnew : new now) : Trails dirty dirty' new old now :=
  ⟨fun _ => h, Or.inr ⟨h, hnew⟩, fun _ _ => Or.inr hnew⟩

/-- The document is tried, or something else is written. -/
theorem mono (h : Trails dirty dirty' new old now) (hmore : dirty' → dirty'')
    (hdirty : dirty'' → dirty) : Trails dirty dirty'' new old now :=
  ⟨hdirty, h.text, fun hd hnew => (h.waits hd hnew).imp_left hmore⟩

/-- There is nothing that could be written. -/
theorem never (h : Trails dirty dirty' new old now) (hnever : ∀ text, ¬ new text)
    (hdirty : dirty'' → dirty) : Trails dirty dirty'' new old now :=
  ⟨hdirty, h.text, fun _ ⟨text, hnew⟩ => absurd hnew (hnever text)⟩

/-- Two documents that are not dirty any more are the same. -/
theorem same (h : Trails dirty dirty' new old now) (h' : Trails dirty dirty'' new old now')
    (hunique : ∀ x y, new x → new y → x = y) (hclean : ∀ text, new text → ¬ dirty')
    (hclean' : ∀ text, new text → ¬ dirty'') : now = now' := by
  by_cases hnew : dirty ∧ ∃ text, new text
  · obtain ⟨hdirty, text, htext⟩ := hnew
    exact hunique _ _ ((h.waits hdirty ⟨text, htext⟩).resolve_left (hclean text htext))
      ((h'.waits hdirty ⟨text, htext⟩).resolve_left (hclean' text htext))
  · have hold {x : Option String} (hx : x = old ∨ dirty ∧ new x) : x = old :=
      hx.resolve_right fun hw => hnew ⟨hw.1, x, hw.2⟩
    exact (hold h.text).trans (hold h'.text).symm

end Trails

/-- What is written as the root. -/
def Storage.RootText (a : Storage) (text? : Option String) : Prop :=
  ∃ r, a.store.root = some r ∧ text? = some r.text

/-- What is written as the values of a chat. -/
def Storage.ChatText (a : Storage) (d : String) (text? : Option String) : Prop :=
  ∃ vs, a.store.usable? d = some vs ∧ (vs = [] ∧ text? = none ∨
    vs ≠ [] ∧ (ChatValues.document d vs).writable = true ∧ text? = some (ChatValues.text d vs))

/-! ## Left aside -/

/-- What was asked since `a` left the chat `d` aside, and the root. -/
structure Aside (N : Naming) (d : String) (a s : Storage) : Prop where
  covers : N.Covers s
  root : s.store.root = a.store.root
  rootDegraded : s.store.rootDegraded = a.store.rootDegraded
  removed : s.store.removed = a.store.removed
  served : ∀ vs, a.store.usable? d = some vs → s.store.usable? d = some vs
  unread : d ∈ a.store.dirty → a.store.usable? d = none → s.store.usable? d = none
  rootTrail : Trails (a.store.rootDirty = true) (s.store.rootDirty = true) a.RootText
    (a.shelf.find? N.rootName) (s.shelf.find? N.rootName)
  chatTrail : Trails (d ∈ a.store.dirty) (d ∈ s.store.dirty) (a.ChatText d)
    (a.shelf.find? (Store.valuesName N.valuesStart d))
    (s.shelf.find? (Store.valuesName N.valuesStart d))

namespace Aside

theorem refl (h : N.Covers a) : Aside N d a a :=
  ⟨h, rfl, rfl, rfl, fun _ h => h, fun _ h => h, .refl _ _ _, .refl _ _ _⟩

theorem unlocked : Unlocked (Aside N d a) := fun _ _ _ h => { h with covers := { h.covers with } }

/-- What `d` is served with in a storage that is written from is what it was served with before. -/
theorem usable_of_dirty (h : Aside N d a s) (hdirty : d ∈ a.store.dirty)
    (hu : s.store.usable? d = some vs) : a.store.usable? d = some vs := by
  cases ha : a.store.usable? d with
  | none => exact absurd ((h.unread hdirty ha).symm.trans hu) nofun
  | some ws => exact (h.served ws ha).symm.trans hu

/-- Documents are written, and neither the root nor the chat goes astray. -/
theorem wrote (h : Aside N d a s) (rootDirty : Bool) (rootTimer : Option Nat) (dirty : List String)
    (shelf : Shelf)
    (hroot : Trails (a.store.rootDirty = true) (rootDirty = true) a.RootText
      (a.shelf.find? N.rootName) (shelf.find? N.rootName))
    (hchat : Trails (d ∈ a.store.dirty) (d ∈ dirty) (a.ChatText d)
      (a.shelf.find? (Store.valuesName N.valuesStart d))
      (shelf.find? (Store.valuesName N.valuesStart d))) :
    Aside N d a { s with
      store := { s.store with rootDirty := rootDirty, rootTimer := rootTimer, dirty := dirty }
      shelf := shelf } :=
  { h with covers := { h.covers with }, rootTrail := hroot, chatTrail := hchat }

theorem writing (hd : N.used d) :
    KeepsFlushing (a.store.rootDirty = true) (fun x => x = d → d ∈ a.store.dirty)
      (Always (Aside N d a)) where
  timers _ _ _ _ _ h := { h with covers := { h.covers with } }
  dirtyRoot _ _ h hdirty := h.rootTrail.only hdirty
  dirtyChats _ _ h x hx he := h.chatTrail.only (he ▸ hx)
  save hdirty f s h := by
    refine KeepsFlushing.saveOf h { h with covers := { h.covers with } } fun r hroot _ _ => ?_
    obtain ⟨rootDirty, shelf, hrun, hsame, htext⟩ := s.attemptRoot_texts r
    rw [h.covers.rootName] at hsame htext
    rw [hrun]
    refine h.wrote _ _ s.store.dirty _ ?_ ?_
    · rcases htext with ⟨rfl, htext⟩ | ⟨-, htext⟩
      · rw [htext]
        exact h.rootTrail.mono (fun _ => rfl) fun _ => hdirty
      · rw [htext]
        exact .write hdirty ⟨r, h.root.symm.trans hroot, rfl⟩
    · rw [hsame _ (Ne.symm (N.apart d hd))]
      exact h.chatTrail
  saveValues x hx f s h := by
    refine KeepsFlushing.saveValuesOf h (fun vs hc hm hw => ?_) fun vs hc hm hne hw => ?_
    · have hx' := h.covers.used x vs hc
      obtain ⟨dirty, shelf, hrun, hothers, hsame, htext⟩ := s.attemptChat_texts x vs
      rw [h.covers.valuesStart] at hsame htext
      rw [hrun]
      refine h.wrote s.store.rootDirty s.store.rootTimer _ _ ?_ ?_
      · rw [hsame _ (N.apart x hx')]
        exact h.rootTrail
      · by_cases he : x = d
        · subst he
          have hdirty := hx rfl
          have hu := h.usable_of_dirty hdirty ((Store.usable?_of_not_degraded hm).trans hc)
          rcases htext with ⟨hstays, htext⟩ | ⟨-, htext⟩
          · rw [htext]
            exact h.chatTrail.mono (fun _ => hstays) fun _ => hdirty
          · rw [htext]
            refine .write hdirty ⟨vs, hu, ?_⟩
            split
            · next hempty => exact Or.inl ⟨hempty, rfl⟩
            · next hfull => exact Or.inr ⟨hfull, hw.resolve_left hfull, rfl⟩
        · rw [hsame _ fun e => he (N.distinct _ _ hx' hd e)]
          exact h.chatTrail.mono (hothers d (Ne.symm he)).mpr fun hmem =>
            h.chatTrail.only ((hothers d (Ne.symm he)).mp hmem)
    · refine h.wrote s.store.rootDirty s.store.rootTimer _ s.shelf h.rootTrail ?_
      by_cases he : x = d
      · subst he
        have hu := h.usable_of_dirty (hx rfl) ((Store.usable?_of_not_degraded hm).trans hc)
        refine h.chatTrail.never (fun text ⟨ws, hws, hfits⟩ => ?_) fun _ => hx rfl
        obtain rfl := Option.some.inj (hu.symm.trans hws)
        rcases hfits with ⟨hempty, -⟩ | ⟨-, hwritable, -⟩
        · exact hne hempty
        · exact absurd (hw.symm.trans hwritable) nofun
      · refine h.chatTrail.mono (fun hmem => ?_) fun hmem =>
          h.chatTrail.only (List.mem_filter.mp hmem).1
        exact List.mem_filter.mpr ⟨hmem, bne_iff_ne.mpr (Ne.symm he)⟩

/-! ### Reading -/

/-- Another chat than `d` may be read, or `d` if that changes nothing in its document: it is served
from memory, or it does not wait to be written, and none of its values would be dropped. -/
structure Harmless (N : Naming) (d : String) (a : Storage) (x : String) : Prop where
  used : N.used x
  undropped : x = d → (∃ vs, a.store.usable? d = some vs) ∨
    d ∉ a.store.dirty ∧ ∀ r raw now, a.store.root = some r →
      Storage.rawValues? (a.shelf.find? (Store.valuesName N.valuesStart d)) = some raw →
        ∀ v ∈ Storage.readValues ⟨now, false⟩ raw, a.store.isGone r v.1 = false

theorem loadRoot (hroot : a.store.root.isSome = true) :
    Keeps (Always (Aside N d a)) Storage.load :=
  .loadInMemory fun _ _ h => h.root ▸ hroot

theorem looked (hroot : a.store.root = some r) {x : String} (hx : Harmless N d a x)
    (hunread : x = d → a.store.usable? d = none) (h : Aside N d a s) :
    Aside N d a (s.looked r x (Store.valuesName N.valuesStart x)).2 := by
  let name := Store.valuesName N.valuesStart x
  have hothers (hne : x ≠ d) := Storage.usable?_looked_other (s := s) (r := r) hne name
  have hdirty : d ∈ (s.looked r x name).2.store.dirty ↔ _ := Storage.mem_dirty_looked
  obtain ⟨values, degraded, dirty, timer, hframe⟩ := Storage.looked_frame s r x name
  have hcovers : N.Covers (s.looked r x name).2 := h.covers.looked hx.used r name
  have hstays : d ∈ (s.looked r x name).2.store.dirty → d ∈ a.store.dirty := fun hmem => by
    rcases hdirty.mp hmem with hmem | ⟨rfl, raw, hraw, hdrops⟩
    · exact h.chatTrail.only hmem
    · by_contra hclean
      rcases hx.undropped rfl with ⟨vs, hvs⟩ | ⟨-, hkept⟩
      · exact absurd (hvs.symm.trans (hunread rfl)) nofun
      · have hsame := h.chatTrail.text.resolve_right fun hw => hclean hw.1
        have hraw := Storage.rawValues?_of_rawOf? hraw
        rw [hsame] at hraw
        obtain ⟨v, hv, hgone⟩ := List.any_eq_true.mp hdrops
        have hkept := hkept r raw _ hroot hraw v hv
        unfold Store.isGone at hgone hkept
        rw [h.removed, h.rootDegraded, hkept] at hgone
        contradiction
  have hserved : ∀ vs, a.store.usable? d = some vs →
      (s.looked r x name).2.store.usable? d = some vs := fun vs hvs => by
    by_cases he : x = d
    · exact absurd (hvs.symm.trans (hunread he)) nofun
    · exact (hothers he).trans (h.served vs hvs)
  have hnever : d ∈ a.store.dirty → a.store.usable? d = none →
      (s.looked r x name).2.store.usable? d = none := fun hmem hnone => by
    by_cases he : x = d
    · rcases hx.undropped he with ⟨vs, hvs⟩ | ⟨hclean, -⟩
      · exact absurd (hvs.symm.trans hnone) nofun
      · exact absurd hmem hclean
    · exact (hothers he).trans (h.unread hmem hnone)
  have hmore : d ∈ s.store.dirty → d ∈ (s.looked r x name).2.store.dirty := fun hmem =>
    hdirty.mpr (Or.inl hmem)
  change Aside N d a (s.looked r x name).2
  rw [hframe] at hcovers hstays hserved hnever hmore ⊢
  exact
    { covers := hcovers
      root := h.root
      rootDegraded := h.rootDegraded
      removed := h.removed
      served := hserved
      unread := hnever
      rootTrail := h.rootTrail
      chatTrail := h.chatTrail.mono hmore hstays }

theorem loadValues (hroot : a.store.root.isSome = true) {x : String} (hx : Harmless N d a x) :
    Keeps (Always (Aside N d a)) (Storage.loadValues x) := by
  obtain ⟨r, hr⟩ := Option.isSome_iff_exists.mp hroot
  by_cases hserved : x = d ∧ ∃ vs, a.store.usable? d = some vs
  · obtain ⟨rfl, vs, hvs⟩ := hserved
    intro f s h
    rw [Storage.loadValues_usable (h.served vs hvs)]
    exact .done h fun _ _ => trivial
  · have hunread (he : x = d) : a.store.usable? d = none :=
      Option.eq_none_iff_forall_ne_some.mpr fun vs hvs => hserved ⟨he, vs, hvs⟩
    refine Gives.loadValues (fun _ => unlocked) (fun _ _ _ _ _ => trivial) (loadRoot hroot)
      (fun _ _ _ _ _ => trivial) fun _ s₀ _ s root h₀ h => ⟨?_, trivial⟩
    rw [h.root, hr, h₀.covers.valuesStart]
    exact h.looked hr hx hunread

/-! ### Changing values -/

/-- The values of another chat are changed. -/
theorem setValues (hne : c ≠ d) (hc : N.used c) (h : Aside N d a s) (vs : ChatValues) :
    Aside N d a { s with store := s.store.setValues c vs } := by
  have hothers : (s.store.setValues c vs).usable? d = s.store.usable? d :=
    Store.usable?_setValues_other hne vs
  exact
    { h with
      covers := h.covers.setValues hc vs
      served := fun ws hws => hothers.trans (h.served ws hws)
      unread := fun hmem hnone => hothers.trans (h.unread hmem hnone) }

/-- Another chat waits to be written. -/
theorem soon (hne : c ≠ d) (h : Aside N d a s) (time : Nat) :
    Aside N d a { s with store := s.store.soon c time } := by
  have hdirty : d ∈ (s.store.soon c time).dirty ↔ d ∈ s.store.dirty :=
    (Store.mem_markDirty d).trans (or_iff_left hne.symm)
  exact
    { h with
      covers := { h.covers with }
      chatTrail := h.chatTrail.mono hdirty.mpr fun hmem => h.chatTrail.only (hdirty.mp hmem) }

end Aside

/-- What may be asked that is about one chat, and other chats that may be read. -/
def Scope.ofChat (c : String) (sources : String → Prop) : Scope :=
  ⟨fun x => x = c ∨ sources x, (· = c), fun _ x => x = c, False⟩

/-- What is asked about one chat leaves another one aside. -/
theorem Aside.pieces (hne : c ≠ d) (hc : N.used c) (hd : N.used d)
    (hroot : a.store.root.isSome = true) :
    Pieces (.ofChat c (Aside.Harmless N d a)) (Always (Aside N d a)) where
  newId _ _ _ _ h := { h with covers := { h.covers with } }
  load := loadRoot hroot
  changeRoot h := h.elim
  save h := h.elim
  saveSoon h := h.elim
  removeValues h := h.elim
  loadValues := fun {x} hx => loadValues hroot <| hx.elim
    (fun he => he ▸ ⟨hc, fun hsame => absurd hsame hne⟩) id
  amend := fun {id x} he _ => by
    obtain rfl : x = c := he
    exact .amend fun _ _ _ h _ => h.setValues hne hc _
  setValue := fun {id x} _ he v => by
    obtain rfl : x = c := he
    exact .setValue (loadValues hroot ⟨hc, fun hsame => absurd hsame hne⟩)
      (fun _ _ _ h _ => h.setValues hne hc _) fun _ _ h => h.soon hne _
  saveValues := fun {x} he => (Aside.writing hd).saveValues x fun hsame =>
    absurd (Eq.trans (Eq.symm he) hsame) hne
  saveValuesSoon := fun {x} he f s h => by
    obtain rfl : x = c := he
    exact h.soon hne _
  flush := (Aside.writing hd).flush
  close := (Aside.writing hd).close

/-! ## Sessions -/

/-- A session does nothing with values that is out of scope, and nothing else. -/
def SessionOperation.Within (S : Scope) : SessionOperation → Prop
  | .ofStorage op => op.Within S
  | .assign chat _ _ => S.reads chat ∧ ∀ id, S.sets id chat
  | _ => False

/-- One thing that happens to a session: something is asked for that is within a scope, time passes,
the clock is set, or the shelf begins or stops to refuse accesses. -/
inductive SessionStep (S : Scope) (s : Session) : Session → Prop where
  | ask (op : SessionOperation) (h : op.Within S) : SessionStep S s (ended op.perform s).2
  | elapse (time : Nat) :
      SessionStep S s { s with storage := (exec (Storage.elapse time) s.storage).2 }
  | clock (clock : Clock) :
      SessionStep S s { s with storage := { s.storage with clock := clock } }
  | refuse (refuses : Access → Bool) : SessionStep S s { s with
      storage := { s.storage with shelf := { s.storage.shelf with refuses := refuses } } }

/-- What comes of a session, one thing after another. -/
abbrev SessionRun (S : Scope) : Session → Session → Prop := Relation.ReflTransGen (SessionStep S)

/-- What the pieces keep, a session keeps that does nothing out of scope. -/
theorem Pieces.session {S : Scope} {P : Storage → Prop} (h : Pieces S (Always P))
    (hP : Unlocked P) {op : SessionOperation} (hop : op.Within S) :
    Meets (P ∘ Session.storage) (P ∘ Session.storage) op.perform fun _ => P ∘ Session.storage := by
  have hstored {α : Type} {x : Activity Storage α} (hx : Keeps (Always P) x) :
      Meets (P ∘ Session.storage) (P ∘ Session.storage) (Session.stored x)
        fun _ => P ∘ Session.storage := Meets.iff_left.mpr fun s hs => by
    rw [ended_stored]
    exact (Gives.finish hP hx hs).1
  cases op with
  | ofStorage op => exact hstored (h.perform op hop)
  | assign chat floors results =>
    refine Meets.silent ?_
    induction results with
    | nil => exact .pure fun _ hs => hs
    | cons t results ih =>
      refine (hstored (h.assignOne hop.1 hop.2 floors t)).bind fun _ => ?_
      exact (ih hop).bind fun _ => .pure fun _ hs => hs
  | _ => exact hop.elim

theorem Aside.run {b s : Session} (hne : c ≠ d) (hc : N.used c) (hd : N.used d)
    (hroot : a.store.root.isSome = true) (h : Aside N d a b.storage)
    (hrun : SessionRun (.ofChat c (Aside.Harmless N d a)) b s) : Aside N d a s.storage := by
  induction hrun with
  | refl => exact h
  | tail _ hstep ih =>
    cases hstep with
    | ask op hop =>
      exact Meets.iff_left.mp ((Aside.pieces hne hc hd hroot).session Aside.unlocked hop) _ ih
    | elapse time => exact (Aside.writing hd).elapse time none _ ih
    | clock clock => exact { ih with covers := { ih.covers with } }
    | refuse refuses => exact { ih with covers := { ih.covers with } }

/-! ## Served after closing -/

/-- A later session on the documents of a storage, at another time, and with other refusals. -/
def Storage.later (s : Storage) (debounce epoch : Nat) (clock : Clock) (refuses : Access → Bool) :
    Storage :=
  { s.anew debounce epoch with clock := clock, shelf := { s.shelf with refuses := refuses } }

/-- Two storages that left the chat aside and were closed have the same root and the same values of
the chat on their shelves. -/
theorem Aside.alike {s' t' : Storage} (hroot : a.store.root.isSome = true) (hs : Aside N d a s')
    (ht : Aside N d a t') (hsclosed : exec Storage.close s = (.ok (), s'))
    (htclosed : exec Storage.close t = (.ok (), t')) (debounce epoch : Nat) (clock : Clock)
    (refuses : Access → Bool) :
    Alike d (s'.later debounce epoch clock refuses) (t'.later debounce epoch clock refuses) := by
  have hrootClean {u v : Storage} (h : Aside N d a v) (hclosed : exec Storage.close u = (.ok (), v)) :
      ¬ v.store.rootDirty = true := by
    rw [(Storage.clean_of_close hclosed).1 (by rw [h.root, hroot])]
    decide
  have hchatClean {u v : Storage} (h : Aside N d a v) (hclosed : exec Storage.close u = (.ok (), v))
      (text : Option String) (htext : a.ChatText d text) : d ∉ v.store.dirty := by
    obtain ⟨vs, hvs, -⟩ := htext
    intro hmem
    have husable := h.served vs hvs
    have hcached := Store.usable?_of_not_degraded (Store.not_degraded_of_usable husable)
    have hnone := (Storage.clean_of_close hclosed).2 d hmem
    exact absurd (hnone.symm.trans (hcached.symm.trans husable)) nofun
  have hrootSame : s'.shelf.find? N.rootName = t'.shelf.find? N.rootName :=
    hs.rootTrail.same ht.rootTrail
      (fun _ _ ⟨_, hr, hx⟩ ⟨_, hr', hy⟩ => by
        rw [hx, hy, Option.some.inj (hr.symm.trans hr')])
      (fun _ _ => hrootClean hs hsclosed) fun _ _ => hrootClean ht htclosed
  have hchatSame : s'.shelf.find? (Store.valuesName N.valuesStart d) =
      t'.shelf.find? (Store.valuesName N.valuesStart d) :=
    hs.chatTrail.same ht.chatTrail
      (fun _ _ ⟨vs, hvs, hx⟩ ⟨ws, hws, hy⟩ => by
        obtain rfl := Option.some.inj (hvs.symm.trans hws)
        rcases hx with ⟨hempty, hx⟩ | ⟨hfull, -, hx⟩
        · exact hx.trans (hy.resolve_right fun h => h.1 hempty).2.symm
        · exact hx.trans (hy.resolve_left fun h => hfull h.1).2.2.symm)
      (hchatClean hs hsclosed) (hchatClean ht htclosed)
  exact
    { store := by
        change Store.empty _ _ _ _ = Store.empty _ _ _ _
        rw [hs.covers.rootName, hs.covers.valuesStart, ht.covers.rootName, ht.covers.valuesStart]
      clock := rfl
      refuses := rfl
      root := by
        change t'.shelf.find? s'.store.rootName = s'.shelf.find? s'.store.rootName
        rw [hs.covers.rootName]
        exact hrootSame.symm
      values := by
        change t'.shelf.find? (Store.valuesName s'.store.valuesStart d) =
          s'.shelf.find? (Store.valuesName s'.store.valuesStart d)
        rw [hs.covers.valuesStart]
        exact hchatSame.symm }

/-- Of two chats with documents of their own, what is asked of the one makes no difference for what
the other is served with by a later session, if the session was closed and could write everything. -/
theorem served_same_of_closed {b s t s' t' : Session} (hne : c ≠ d) (hc : N.used c) (hd : N.used d)
    (hcovers : N.Covers b.storage) (hroot : b.storage.store.root.isSome = true)
    (hs : SessionRun (.ofChat c (Aside.Harmless N d b.storage)) b s)
    (ht : SessionRun (.ofChat c (Aside.Harmless N d b.storage)) b t)
    (hsclosed : ended (Session.stored (.ofAction Storage.close)) s = (.ok (), s'))
    (htclosed : ended (Session.stored (.ofAction Storage.close)) t = (.ok (), t'))
    (debounce epoch : Nat) (clock : Clock) (refuses : Access → Bool) :
    (ended (Storage.loadValues d) (s'.storage.later debounce epoch clock refuses)).1 =
      (ended (Storage.loadValues d) (t'.storage.later debounce epoch clock refuses)).1 := by
  have hclosed {u v : Session} (hrun : SessionRun (.ofChat c (Aside.Harmless N d b.storage)) b u)
      (h : ended (Session.stored (.ofAction Storage.close)) u = (.ok (), v)) :
      exec Storage.close u.storage = (.ok (), v.storage) ∧ Aside N d b.storage v.storage := by
    have hkept := (Aside.writing hd).close none _ (.run hne hc hd hroot (.refl hcovers) hrun)
    rw [ended_stored, ended_ofAction] at h
    rcases hexec : exec Storage.close u.storage with ⟨a, w⟩
    rw [hexec] at h hkept
    obtain ⟨rfl, rfl⟩ := Prod.mk.inj h
    exact ⟨rfl, hkept⟩
  obtain ⟨hs, hsaside⟩ := hclosed hs hsclosed
  obtain ⟨ht, htaside⟩ := hclosed ht htclosed
  exact (hsaside.alike hroot htaside hs ht debounce epoch clock refuses).loadValues.symm

/-- A chat has an entry that waits to be written, and an entry of another chat is added. -/
theorem served_same_of_closed_entry : ∃ (N : Naming) (b s s' t' : Session),
    "c" ≠ "d" ∧ N.used "c" ∧ N.used "d" ∧ N.Covers b.storage ∧
      b.storage.store.root.isSome = true ∧ b.storage.store.dirty = ["d"] ∧
      SessionRun (.ofChat "c" (Aside.Harmless N "d" b.storage)) b s ∧
      s.storage.store.dirty = ["d", "c"] ∧
      ended (Session.stored (.ofAction Storage.close)) s = (.ok (), s') ∧
      ended (Session.stored (.ofAction Storage.close)) b = (.ok (), t') ∧
      (ended (Storage.loadValues "d") (s'.storage.later 0 0 ⟨0, 0⟩ fun _ => false)).1 =
        (ended (Storage.loadValues "d") (t'.storage.later 0 0 ⟨0, 0⟩ fun _ => false)).1 := by
  let N : Naming :=
    { rootName := "dynvar-root.json"
      valuesStart := "dynvar-values-"
      used := fun x => x = "c" ∨ x = "d"
      distinct := fun x y hx hy h => by
        rcases hx with rfl | rfl <;> rcases hy with rfl | rfl
        · rfl
        · exact absurd h (by decide)
        · exact absurd h (by decide)
        · rfl
      apart := fun x hx => by rcases hx with rfl | rfl <;> decide }
  let add : SessionOperation := .ofStorage (.ofVariables (.addEntry "var_log" "c" "two" "2"))
  let close : Activity Session Unit := Session.stored (.ofAction Storage.close)
  obtain ⟨b, hname, hstart, hkeys, hroot, hdirty, hdirty', hclosed, hclosed'⟩ : ∃ b : Session,
      b.storage.store.rootName = "dynvar-root.json" ∧
        b.storage.store.valuesStart = "dynvar-values-" ∧
        Json.keys b.storage.store.values = ["d"] ∧ b.storage.store.root.isSome = true ∧
        b.storage.store.dirty = ["d"] ∧
        (ended add.perform b).2.storage.store.dirty = ["d", "c"] ∧
        (ended close (ended add.perform b).2).1 = .ok () ∧ (ended close b).1 = .ok () := by
    exact ⟨(ended (SessionOperation.perform
        (.ofStorage (.ofVariables (.addEntry "var_log" "d" "one" "1"))))
      (ended (SessionOperation.perform (.ofStorage (.ofStore (.saveDefinitions
        [("var_log", ⟨"var_log", "log", "[log]", .stack, 0, 0⟩)]))))
      (ended (Session.stored Storage.load)
        (.ofConfig .standard (.ofDocuments []) 0 (.ofReplies []))).2).2).2,
      rfl, rfl, rfl, rfl, rfl, rfl, rfl, rfl⟩
  have hne : "c" ≠ "d" := by decide
  have hcovers : N.Covers b.storage := by
    refine .ofKeys hname hstart fun x hx => ?_
    rw [hkeys] at hx
    exact Or.inr (List.mem_singleton.mp hx)
  have hrun : SessionRun (.ofChat "c" (Aside.Harmless N "d" b.storage)) b (ended add.perform b).2 :=
    .single (.ask add ⟨Or.inl rfl, rfl⟩)
  have hend : ended close (ended add.perform b).2 = (.ok (), (ended close _).2) :=
    Prod.ext hclosed rfl
  have hend' : ended close b = (.ok (), (ended close b).2) := Prod.ext hclosed' rfl
  exact ⟨N, b, _, _, _, hne, Or.inl rfl, Or.inr rfl, hcovers, hroot, hdirty, hrun, hdirty', hend,
    hend', served_same_of_closed hne (Or.inl rfl) (Or.inr rfl) hcovers hroot hrun .refl hend hend'
      0 0 ⟨0, 0⟩ fun _ => false⟩

/-- Chats whose documents have the same name are served with the same values, once they have to be
read. -/
theorem served_alike_of_name (hroot : s.store.root = some r) (hc : s.store.cached? c = none)
    (hd : s.store.cached? d = none)
    (hname : Store.valuesName s.store.valuesStart c = Store.valuesName s.store.valuesStart d) :
    (ended (Storage.loadValues c) s).1 = (ended (Storage.loadValues d) s).1 := by
  have hunread {x : String} (hx : s.store.cached? x = none) : s.store.usable? x = none := by
    unfold Store.usable?
    rw [hx]
    split <;> rfl
  rw [Storage.loadValues_answer hroot, Storage.loadValues_answer hroot]
  unfold Storage.serves
  rw [hunread hc, hunread hd, hc, hd, hname]

end TagLedger
