import TagLedger.Proofs.Misshapen
import TagLedger.Proofs.Reading

/-!
# Loading always answers

Loading the root gives a root, whatever stands in its place: the standard one where nothing was,
where the shelf refuses to read, and where a text is of no use. A version that is not supported is
reported. The one other way to fail is a document of version 1 of which a part has the wrong shape.
After a document of version 1 was brought to the current version it is written, and that it can be
written follows from its having been read.

    loading fails with e ↔ there is a text, and it escapes with e                  (load_fails_iff)
-/

namespace TagLedger

open Migration Storage

variable {ctx : Schema.Context} {text : String} {f : Failure}

/-! ## Texts of root documents -/

/-- How loading a root document with this text fails. -/
inductive Escapes (text : String) : Failure → Prop where
  | version {fields : List (String × Json)} : Json.parseText text = .ok (.obj fields) →
      versionNumber fields ≠ Root.currentVersion → versionNumber fields ≠ 1 →
      Escapes text (.version (detectVersion fields).display)
  | misshapen {fields : List (String × Json)} {e : Fault} :
      Json.parseText text = .ok (.obj fields) → versionNumber fields = 1 → Misshapen fields e →
      Escapes text (.ofMigration e)

theorem ofText_failed {fields : List (String × Json)}
    (hparse : Json.parseText text = .ok (.obj fields)) : RootReading.ofText ctx text = .failed f ↔
      ∃ e, migrate ctx (.obj fields) = .error e ∧ e.Unexpected ∧ .ofMigration e = f := by
  unfold RootReading.ofText
  simp only [hparse]
  cases hm : migrate ctx (.obj fields) with
  | ok m =>
    refine ⟨fun h => ?_, nofun⟩
    dsimp only at h
    split at h <;> cases h
  | error e =>
    constructor
    · intro h
      cases e with
      | badNumber => cases h
      | invalid issues => cases h
      | _ =>
        cases h
        exact ⟨_, rfl, ⟨nofun, nofun⟩, rfl⟩
    · rintro ⟨_, he, ⟨hnumber, hinvalid⟩, rfl⟩
      cases he
      cases e with
      | badNumber => exact absurd rfl hnumber
      | invalid issues => exact absurd rfl (hinvalid issues)
      | _ => rfl

/-- A text is not read as a root and not refused either exactly if it escapes. -/
theorem ofText_failed_iff : RootReading.ofText ctx text = .failed f ↔ Escapes text f := by
  constructor
  · intro h
    have hobject : ∃ fields, Json.parseText text = .ok (.obj fields) := by
      unfold RootReading.ofText at h
      split at h
      · next fields hparse => exact ⟨fields, hparse⟩
      · cases h
    obtain ⟨fields, hparse⟩ := hobject
    obtain ⟨e, he, hunexpected, rfl⟩ := (ofText_failed hparse).mp h
    rw [migrate_obj] at he
    split at he
    · cases he
    · next hcurrent =>
      split at he
      · next hfirst =>
        exact .misshapen hparse hfirst
          ((fromFirst_fails (Json.writable_of_parseText hparse)).mp ⟨he, hunexpected⟩)
      · next hother =>
        cases he
        exact .version hparse hcurrent hother
  · intro h
    cases h with
    | version hparse hcurrent hother =>
      refine (ofText_failed hparse).mpr ⟨.version _, ?_, ⟨nofun, nofun⟩, rfl⟩
      rw [migrate_obj, if_neg hcurrent, if_neg hother]
    | @misshapen fields e hparse hfirst hshape =>
      have hfails : Migration.fromFirst ctx fields = .error e ∧ e.Unexpected ↔ _ :=
        fromFirst_fails (Json.writable_of_parseText hparse)
      obtain ⟨he, hunexpected⟩ := hfails.mpr hshape
      refine (ofText_failed hparse).mpr ⟨_, ?_, hunexpected, rfl⟩
      rw [migrate_obj, hfirst, if_neg (by decide), if_pos rfl]
      exact he

/-! ## Writing what can be written -/

/-- All that is in memory can be written. -/
def Storage.Printable (s : Storage) : Prop :=
  (∀ r, s.store.root = some r → r.document.writable = true) ∧
    ∀ c vs, s.store.cached? c = some vs → (ChatValues.document c vs).writable = true

/-- An action that keeps `P` and does not fail. -/
def Succeeds {α : Type} (P : Storage → Prop) (x : Action Storage α) : Prop :=
  ∀ s, P s → (∃ a, (exec x s).1 = .ok a) ∧ P (exec x s).2

namespace Succeeds

variable {α β : Type} {P : Storage → Prop}

theorem pure (a : α) : Succeeds P (pure a : Action Storage α) := fun _ hs => ⟨⟨a, rfl⟩, hs⟩

theorem bind {x : Action Storage α} {k : α → Action Storage β} (hx : Succeeds P x)
    (hk : ∀ a, Succeeds P (k a)) : Succeeds P (x >>= k) := by
  intro s hs
  obtain ⟨⟨a, ha⟩, ht⟩ := hx s hs
  have hrun : exec x s = (.ok a, (exec x s).2) := Prod.ext ha rfl
  rw [exec_bind_ok hrun]
  exact hk a _ ht

/-- What only fails because a document cannot be kept is reported instead. -/
theorem noting {x : Action Storage Unit} (hx : KeepsNow (Always P) x)
    (hfault : ∀ s, P s → ∀ e, (exec x s).1 = .error e → ∃ d, e = .storage d) :
    Succeeds P (Storage.noting x) := by
  intro s hs
  have ht := hx none s hs
  have herror := hfault s hs
  unfold Storage.noting
  rw [exec_tryCatch, exec_seqRight]
  rcases hrun : exec x s with ⟨r, t⟩
  rw [hrun] at ht herror
  cases r with
  | ok a => exact ⟨⟨none, rfl⟩, ht⟩
  | error e =>
    obtain ⟨d, rfl⟩ := herror e rfl
    exact ⟨⟨some d, rfl⟩, ht⟩

section

variable (hw : KeepsWriting (Always P)) (hp : ∀ s, P s → s.Printable)

include hp

theorem fault_of_save {s : Storage} (hs : P s) {e : Failure} (h : (exec save s).1 = .error e) :
    ∃ d, e = .storage d := by
  cases hr : s.store.root with
  | none =>
    rw [exec_save_none hr] at h
    cases h
  | some r =>
    cases hd : s.store.rootDegraded with
    | true =>
      rw [exec_save_degraded hr hd] at h
      exact ⟨_, (Except.error.inj h).symm⟩
    | false =>
      rw [exec_save_root hr hd ((hp s hs).1 r hr)] at h
      unfold attemptRoot at h
      dsimp only at h
      split at h
      · exact ⟨_, (Except.error.inj h).symm⟩
      · cases h

theorem fault_of_saveValues (chat : String) {s : Storage} (hs : P s) {e : Failure}
    (h : (exec (saveValues chat) s).1 = .error e) : ∃ d, e = .storage d := by
  cases hc : s.store.cached? chat with
  | none =>
    rw [exec_saveValues_none hc] at h
    cases h
  | some vs =>
    cases hd : s.store.isDegraded chat with
    | true =>
      rw [exec_saveValues_degraded hc hd] at h
      exact ⟨_, (Except.error.inj h).symm⟩
    | false =>
      rw [exec_saveValues_chat hc hd (Or.inr ((hp s hs).2 chat vs hc))] at h
      unfold attemptChat at h
      dsimp only at h
      split at h
      · split at h
        · exact ⟨_, (Except.error.inj h).symm⟩
        · cases h
      · split at h
        · exact ⟨_, (Except.error.inj h).symm⟩
        · cases h

include hw

theorem saveEach (chats : List String) : Succeeds P (Storage.saveEach chats) := by
  induction chats with
  | nil => exact .pure _
  | cons chat chats ih =>
    have hchat := noting (hw.saveValues chat trivial) fun s hs e => fault_of_saveValues hp chat hs
    exact hchat.bind fun _ => ih.bind fun _ => .pure _

/-- What can be written is written, or stays for later. -/
theorem flushQuietly : Succeeds P Storage.flushQuietly := by
  have hroot : Succeeds P flushRoot := by
    intro s hs
    unfold flushRoot
    rw [exec_bind, exec_get]
    dsimp only
    split
    · exact noting (hw.save trivial) (fun s hs e => fault_of_save hp hs) s hs
    · exact pure none s hs
  have hvalues : Succeeds P flushValues := by
    intro s hs
    have ht := hw.timers none s s.store.rootTimer none s.clock hs
    unfold flushValues
    rw [exec_bind, exec_onStore]
    dsimp only
    rw [exec_bind, exec_store?]
    exact saveEach hw hp _ _ ht
  exact (hroot.bind fun _ => hvalues.bind fun _ => .pure _).bind fun _ => .pure _

end

end Succeeds

/-! ## Loading -/

/-- What was read in place of the root is of no use: the shelf refused, or the text is no root. -/
def Unserved (ctx : Schema.Context) : Except StorageFault (Option String) → Prop
  | .error _ => True
  | .ok none => False
  | .ok (some text) => RootReading.ofText ctx text = .unusable

/-- The root `r` is served for what was read in its place. -/
structure Storage.Loads (ctx : Schema.Context) (answer : Except StorageFault (Option String))
    (r : Root) (t : Storage) : Prop where
  root : t.store.root = some r
  degraded : t.store.rootDegraded = true ↔ Unserved ctx answer
  standard : Unserved ctx answer ∨ answer = .ok none → r = .standard
  read : ∀ text, answer = .ok (some text) → ¬ Unserved ctx answer →
    ∃ moved, RootReading.ofText ctx text = .root r moved

variable {s : Storage} {r : Root} {held : List (Lock × Nat)}

/-- A root is in memory, and what is in memory can be written. -/
def Storage.Prepared (r : Root) (held : List (Lock × Nat)) (s : Storage) : Prop :=
  s.store.root = some r ∧ s.store.rootDegraded = false ∧ s.store.held = held ∧ s.Printable

theorem Storage.Prepared.flushed (h : s.Prepared r held) (d : Root) :
    ∃ t, exec (flushQuietly >>= fun _ => rootOr d) s = (.ok r, t) ∧ t.Prepared r held := by
  have hwriting : KeepsWriting (Always (Prepared r held)) := .ofMemory fun _ _ _ _ _ _ _ h => h
  obtain ⟨⟨u, hu⟩, ht⟩ := Succeeds.flushQuietly hwriting (fun s hs => hs.2.2.2) s h
  have hrun : exec flushQuietly s = (.ok u, (exec flushQuietly s).2) := Prod.ext hu rfl
  refine ⟨(exec flushQuietly s).2, ?_, ht⟩
  rw [exec_bind_ok hrun]
  change (Except.ok ((exec flushQuietly s).2.store.root.getD d), _) = _
  rw [ht.1]
  rfl

theorem printable_of_values {s : Storage} (hr : s.store.root = some r)
    (hroot : r.document.writable = true)
    (hvalues : ∀ c ∈ s.store.values, (ChatValues.document c.1 c.2).writable = true) :
    s.Printable := by
  constructor
  · intro r' hr'
    rw [hr] at hr'
    cases hr'
    exact hroot
  · intro c vs hc
    exact hvalues (c, vs) (Json.mem_of_find? hc)

/-- What comes of a reading of the root document. -/
def Storage.takeReading : RootReading → Action Storage Root
  | .unusable => degradeRoot
  | .failed e => throw e
  | .root r none => do
    onStore fun s => { s with root := some r }
    return r
  | .root r (some chats) => do
    onStore fun s => { s with root := some r }
    adopt chats
    onStore fun s => { s with rootDirty := true }
    flushQuietly
    rootOr r

/-- What is read in place of the root is taken over, unless it escapes. -/
theorem exec_takeRoot_total {answer : Except StorageFault (Option String)}
    (hdegraded : s.store.rootDegraded = false) (hvalues : s.store.values = [])
    (hnow : Json.Brief s.clock.now) :
    ∃ result t, exec (takeRoot answer) s = (result, t) ∧ t.store.held = s.store.held ∧
      match result with
      | .ok r => t.Loads ⟨s.clock.now, false⟩ answer r
      | .error e => ∃ text, answer = .ok (some text) ∧ Escapes text e := by
  have hempty : ∀ c ∈ s.store.values, (ChatValues.document c.1 c.2).writable = true := by
    rw [hvalues]
    exact nofun
  cases answer with
  | error fault =>
    refine ⟨.ok .standard, _, rfl, rfl, rfl, ⟨fun _ => trivial, fun _ => rfl⟩, fun _ => rfl, nofun⟩
  | ok text? =>
    cases text? with
    | none =>
      have hready : Storage.Prepared .standard s.store.held { s with store :=
          { s.store with root := some .standard, rootDirty := true } } :=
        ⟨rfl, hdegraded, rfl, printable_of_values rfl (by decide) hempty⟩
      obtain ⟨t, hrun, ht, hd, hh, -⟩ := hready.flushed .standard
      refine ⟨.ok .standard, t, ?_, hh, ht, ?_, fun _ => rfl, nofun⟩
      · unfold takeRoot
        rw [← hrun]
        rfl
      · rw [hd]
        exact ⟨nofun, False.elim⟩
    | some text =>
      have htake {reading : RootReading}
          (h : RootReading.ofText ⟨s.clock.now, false⟩ text = reading) :
          exec (takeRoot (.ok (some text))) s = exec (takeReading reading) s := by
        subst h
        exact exec_bind_ok (exec_context s) _
      cases htext : RootReading.ofText ⟨s.clock.now, false⟩ text with
      | unusable =>
        rw [htake htext]
        refine ⟨.ok .standard, _, rfl, rfl, rfl, ⟨fun _ => htext, fun _ => rfl⟩, fun _ => rfl, ?_⟩
        intro _ h hserved
        cases h
        exact absurd htext hserved
      | failed e =>
        rw [htake htext]
        exact ⟨.error e, s, rfl, rfl, text, rfl, ofText_failed_iff.mp htext⟩
      | root r moved =>
        have hserved : ¬ Unserved ⟨s.clock.now, false⟩ (.ok (some text)) := fun h =>
          nomatch htext.symm.trans h
        have hloads {t : Storage} (ht : t.store.root = some r) (hd : t.store.rootDegraded = false) :
            t.Loads ⟨s.clock.now, false⟩ (.ok (some text)) r := by
          refine ⟨ht, ⟨fun h => (nomatch hd.symm.trans h), fun h => absurd h hserved⟩, ?_, ?_⟩
          · rintro (h | h)
            · exact absurd h hserved
            · cases h
          · intro _ h _
            cases h
            exact ⟨moved, htext⟩
        obtain ⟨hwritable, hmoved⟩ := legible_ofText hnow htext
        cases moved with
        | none =>
          rw [htake htext]
          exact ⟨.ok r, _, rfl, rfl, hloads rfl hdegraded⟩
        | some chats =>
          obtain ⟨dirty, -, hadopted⟩ :=
            exec_takeRoot_moved htext hvalues (migrated_of_ofText htext).distinct
          have hready : Storage.Prepared r s.store.held { s with store := { s.store with
              root := some r, values := chats, rootDirty := true, dirty := dirty } } :=
            ⟨rfl, hdegraded, rfl, printable_of_values rfl hwritable (hmoved chats rfl)⟩
          obtain ⟨t, hrun, ht, hd, hh, -⟩ := hready.flushed r
          exact ⟨.ok r, t, hadopted.trans hrun, hh, hloads ht hd⟩

/-- Loading the root for the first time gives a root, which is in memory then: the standard one
where nothing could be read, marked as such. It fails exactly where the text escapes: with the
version where that is not supported, and else with the fault of a part of the wrong shape. -/
theorem load_fails_iff {name start : String} {debounce epoch : Nat}
    (hnew : s.store = .empty name start debounce epoch) (hnow : Json.Brief s.clock.now) :
    (∀ e, (ended Storage.load s).1 = .error e ↔
      ∃ text, (s.shelf.read name).1 = .ok (some text) ∧ Escapes text e) ∧
    ∀ r, (ended Storage.load s).1 = .ok r →
      (ended Storage.load s).2.Loads ⟨s.clock.now, false⟩ (s.shelf.read name).1 r := by
  have hname : s.store.rootName = name := by rw [hnew]; rfl
  have hroot : s.store.root = none := by rw [hnew]; rfl
  have hheld : s.store.held = [] := by rw [hnew]; rfl
  let looked : Storage := { s with
    store := { s.store with held := [(.root s.store.epoch, 0)] }
    shelf := (s.shelf.read s.store.rootName).2 }
  have hdegraded : looked.store.rootDegraded = false := by simp only [looked, hnew]; rfl
  have hvalues : looked.store.values = [] := by simp only [looked, hnew]; rfl
  obtain ⟨result, t, htake, hkept, hresult⟩ :=
    exec_takeRoot_total (s := looked) hdegraded hvalues hnow
  rw [ended_load hroot hheld htake hkept, ← hname]
  cases result with
  | ok r =>
    have hserved (text : String) (htext : (s.shelf.read s.store.rootName).1 = .ok (some text))
        (e : Failure) : ¬ Escapes text e := by
      intro h
      have hfailed : RootReading.ofText ⟨s.clock.now, false⟩ text = .failed e :=
        ofText_failed_iff.mpr h
      have hserved : ¬ Unserved ⟨s.clock.now, false⟩ (s.shelf.read s.store.rootName).1 := by
        rw [htext]
        exact fun hunusable => nomatch hfailed.symm.trans hunusable
      obtain ⟨moved, hroot⟩ := hresult.read text htext hserved
      exact nomatch hfailed.symm.trans hroot
    constructor
    · intro e
      refine ⟨nofun, ?_⟩
      rintro ⟨text, htext, h⟩
      exact absurd h (hserved text htext e)
    · intro r' h
      cases h
      exact ⟨hresult.root, hresult.degraded, hresult.standard, hresult.read⟩
  | error e =>
    obtain ⟨text, htext, hescapes⟩ := hresult
    refine ⟨fun e' => ⟨?_, ?_⟩, nofun⟩
    · rintro h
      cases h
      exact ⟨text, htext, hescapes⟩
    · rintro ⟨text', htext', h⟩
      rw [htext] at htext'
      cases htext'
      have hfailed : RootReading.ofText ⟨s.clock.now, false⟩ text = .failed e :=
        ofText_failed_iff.mpr hescapes
      rw [ofText_failed_iff.mpr h] at hfailed
      cases hfailed
      rfl

/-- A root of version 1 whose settings are a number: loading fails, as a number has no fields. -/
theorem load_fails_iff_settings :
    let text := "\x7b\"version\": 1, \"settings\": 5\x7d"
    let s : Storage :=
      ⟨.empty "root" "values-" 0 0, .ofDocuments [("root", text)], ⟨0, 0⟩, .start⟩
    s.store = .empty "root" "values-" 0 0 ∧ Json.Brief s.clock.now ∧
      (s.shelf.read "root").1 = .ok (some text) ∧ Escapes text .noFields ∧
      (ended Storage.load s).1 = .error .noFields := by
  intro text s
  have hnow : Json.Brief s.clock.now := by decide
  let document := Json.obj [("version", .int 1), ("settings", .int 5)]
  have hkeyed : document.Keyed := ⟨by decide, trivial, trivial, trivial⟩
  have htext : document.render .wideLine = text := by
    have hone : Text.intDigits 1 = ['1'] := rfl
    have hfive : Text.intDigits 5 = ['5'] := rfl
    simp only [document, Json.render, Json.write, Json.writeFields, hone, hfive]
    rfl
  have hparse : Json.parseText text = .ok document := by
    rw [← htext]
    exact Json.parseText_render rfl hkeyed rfl
  have hescapes : Escapes text .noFields := by
    have hlists : Migration.Lists [("version", .int 1), ("settings", .int 5)] [] := ⟨rfl, nofun⟩
    refine .misshapen hparse rfl (.settings hlists ?_)
    rintro ⟨fields, h⟩
    cases h
  exact ⟨rfl, hnow, rfl, hescapes,
    ((load_fails_iff (s := s) rfl hnow).1 _).mpr ⟨text, rfl, hescapes⟩⟩

end TagLedger
