import TagLedger.Proofs.Agreeing
import TagLedger.Store.Traffic

/-!
# Changes without delay

What the steps of a change do to the store, case by case. If every change is made before anybody
else goes on, documents are written as they are where nobody waits for them.

    exec startRoot t = (.ok (some n), u)          if the root may be written       (exec_startRoot)
    ended save t does to the storage what exec Storage.save does, and so on           (Mirrors.save)
-/

namespace TagLedger

variable {α β : Type} {r : Root} {chat : String}

namespace Traffic

variable {t : Traffic}

/-! ## Steps of a change -/

theorem exec_onStorage (x : Action Storage α) (t : Traffic) : exec (onStorage x) t =
    ((exec x t.storage).1, { t with storage := (exec x t.storage).2 }) := rfl

theorem exec_startRoot_none (h : t.storage.store.root = none) :
    exec startRoot t = (.ok none, t) := by
  unfold startRoot
  rw [exec_bind, exec_get]
  simp only [h]
  rfl

theorem exec_startRoot_degraded (h : t.storage.store.root = some r)
    (hd : t.storage.store.rootDegraded = true) : exec startRoot t =
      (.error (.storage (.rootUnreadable t.storage.store.rootName)), { t with storage :=
        { t.storage with store := { t.storage.store with rootTimer := none } } }) := by
  unfold startRoot
  rw [exec_bind, exec_get]
  simp only [h, hd, if_true, exec_bind, exec_onStorage, Storage.exec_onStore, exec_throw]

theorem exec_startRoot_long (h : t.storage.store.root = some r)
    (hd : t.storage.store.rootDegraded = false) (hw : r.document.writable = false) :
    exec startRoot t = (.error .badValue, { t with storage :=
      { t.storage with store := { t.storage.store with rootTimer := none } } }) := by
  unfold startRoot
  rw [exec_bind, exec_get]
  simp only [h, hd, exec_bind, exec_onStorage, Storage.exec_onStore, Bool.false_eq_true, if_false,
    Storage.exec_pageText, hw]

theorem exec_startRoot (h : t.storage.store.root = some r)
    (hd : t.storage.store.rootDegraded = false) (hw : r.document.writable = true) :
    exec startRoot t = (.ok (some t.begun.length),
      { t with
        storage := { t.storage with
          store := { t.storage.store with rootTimer := none, rootDirty := false } }
        begun := t.begun ++ [⟨t.storage.store.rootName, some r.text⟩] }) := by
  unfold startRoot
  rw [exec_bind, exec_get]
  simp only [h, hd, exec_bind, exec_onStorage, Storage.exec_onStore, Bool.false_eq_true, if_false,
    Storage.exec_pageText, hw, if_true]
  rfl

theorem exec_startChat_none (h : t.storage.store.cached? chat = none) :
    exec (startChat chat) t = (.ok none, t) := by
  unfold startChat
  rw [exec_bind, exec_get]
  simp only [h]
  rfl

theorem exec_startChat_degraded {vs : ChatValues} (h : t.storage.store.cached? chat = some vs)
    (hd : t.storage.store.isDegraded chat = true) : exec (startChat chat) t =
      (.error (.storage (.chatUnreadable chat)), t) := by
  unfold startChat
  rw [exec_bind, exec_get]
  simp only [h, exec_bind, exec_onStorage, Storage.exec_checkWritable, hd, if_true]

theorem exec_startChat_long {vs : ChatValues} (h : t.storage.store.cached? chat = some vs)
    (hd : t.storage.store.isDegraded chat = false) (hne : vs ≠ [])
    (hw : (ChatValues.document chat vs).writable = false) :
    exec (startChat chat) t = (.error .badValue, { t with storage := { t.storage with store :=
      { t.storage.store with dirty := t.storage.store.dirty.filter (· != chat) } } }) := by
  have hempty : vs.isEmpty = false := List.isEmpty_eq_false_iff.mpr hne
  unfold startChat
  rw [exec_bind, exec_get]
  simp only [h, exec_bind, exec_onStorage, Storage.exec_checkWritable, hd, Storage.exec_onStore,
    Bool.false_eq_true, if_false, hempty, Storage.exec_pageText, hw]

/-- The text that the document of a chat should have; none if it should not be there. -/
def chatText (chat : String) (vs : ChatValues) : Option String :=
  if vs = [] then none else some (ChatValues.text chat vs)

theorem exec_startChat {vs : ChatValues} (h : t.storage.store.cached? chat = some vs)
    (hd : t.storage.store.isDegraded chat = false)
    (hw : vs = [] ∨ (ChatValues.document chat vs).writable = true) :
    exec (startChat chat) t = (.ok (some t.begun.length),
      { t with
        storage := { t.storage with store :=
          { t.storage.store with dirty := t.storage.store.dirty.filter (· != chat) } }
        begun := t.begun ++ [⟨Store.valuesName t.storage.store.valuesStart chat,
          chatText chat vs⟩] }) := by
  unfold startChat chatText
  rw [exec_bind, exec_get]
  by_cases hempty : vs = []
  · subst hempty
    simp only [h, exec_bind, exec_onStorage, Storage.exec_checkWritable, hd, Storage.exec_onStore,
      Bool.false_eq_true, if_false, List.isEmpty_nil, if_true]
    rfl
  · have hdoc := hw.resolve_left hempty
    have hempty' : vs.isEmpty = false := List.isEmpty_eq_false_iff.mpr hempty
    simp only [h, exec_bind, exec_onStorage, Storage.exec_checkWritable, hd, Storage.exec_onStore,
      Bool.false_eq_true, if_false, hempty, hempty', Storage.exec_pageText, hdoc, if_true]
    rfl

theorem exec_make_none {n : Nat} (h : t.begun[n]? = none) :
    exec (make n) t = (.ok (.ok ()), t) := by
  change (Except.ok _, _) = _
  rw [h]

/-- A change is made once. -/
theorem exec_make_made {n : Nat} (h : n ∈ t.made) : exec (make n) t = (.ok (.ok ()), t) := by
  change (Except.ok _, _) = _
  cases t.begun[n]? with
  | none => rfl
  | some c =>
    dsimp only
    rw [if_pos h]

theorem exec_make {n : Nat} {c : Change} (h : t.begun[n]? = some c) (hnew : n ∉ t.made) :
    exec (make n) t = (.ok (c.apply t.storage.shelf).1,
      { t with
        storage := { t.storage with shelf := (c.apply t.storage.shelf).2 }
        made := if (c.apply t.storage.shelf).1.isOk then t.made ++ [n] else t.made }) := by
  change (Except.ok _, _) = _
  rw [h]
  dsimp only
  rw [if_neg hnew]

theorem ended_complete (spoil : Store → Store) (n : Nat) (t : Traffic) :
    ended (complete spoil (some n)) t = match exec (make n) t with
      | (.ok (.ok _), u) => (.ok (), u)
      | (.ok (.error e), u) => (.error (.storage e),
          { u with storage := { u.storage with store := spoil u.storage.store } })
      | (.error e, u) => (.error e, u) := by
  unfold complete
  have hlift : ended (liftM (make n)) t = exec (make n) t := rfl
  have hpause : ended (Activity.pause .turn) t = (.ok (), t) := rfl
  rw [ended_bind_ok hpause, ended_bind, hlift]
  rcases exec (make n) t with ⟨e | (e | _), u⟩ <;> rfl

/-! ## Without delay -/

/-- The changes that were made were begun. -/
def Listed (t : Traffic) : Prop := ∀ n ∈ t.made, n < t.begun.length

theorem Listed.fresh (h : t.Listed) : t.begun.length ∉ t.made := fun hmem =>
  Nat.lt_irrefl _ (h _ hmem)

/-- If nobody waits for anything, `x` does to the storage what `y` does at once. -/
def Mirrors (x : Activity Traffic α) (y : Action Storage α) : Prop :=
  ∀ t, t.Listed → ∃ begun made,
    ended x t = ((exec y t.storage).1, ⟨(exec y t.storage).2, begun, made⟩) ∧
      Listed ⟨(exec y t.storage).2, begun, made⟩

namespace Mirrors

variable {x : Activity Traffic α} {y : Action Storage α}

theorem pure (a : α) : Mirrors (pure a) (pure a) := fun t ht => ⟨t.begun, t.made, rfl, ht⟩

theorem throw (e : Failure) : Mirrors (throw e : Activity Traffic α) (throw e) :=
  fun t ht => ⟨t.begun, t.made, rfl, ht⟩

theorem onStorage (y : Action Storage α) : Mirrors (liftM (onStorage y)) y :=
  fun t ht => ⟨t.begun, t.made, rfl, ht⟩

theorem bind {f : α → Activity Traffic β} {g : α → Action Storage β} (hx : Mirrors x y)
    (hf : ∀ a, Mirrors (f a) (g a)) : Mirrors (x >>= f) (y >>= g) := fun t ht => by
  obtain ⟨begun, made, hrun, hlisted⟩ := hx t ht
  rw [ended_bind, exec_bind, hrun]
  rcases hy : exec y t.storage with ⟨e | a, s⟩
  · rw [hy] at hlisted
    exact ⟨begun, made, rfl, hlisted⟩
  · rw [hy] at hlisted
    exact hf a ⟨s, begun, made⟩ hlisted

theorem tryCatch {f : Failure → Activity Traffic α} {g : Failure → Action Storage α}
    (hx : Mirrors x y) (hf : ∀ e, Mirrors (f e) (g e)) :
    Mirrors (tryCatch x f) (tryCatch y g) := fun t ht => by
  obtain ⟨begun, made, hrun, hlisted⟩ := hx t ht
  rw [ended_tryCatch, exec_tryCatch, hrun]
  rcases hy : exec y t.storage with ⟨e | a, s⟩
  · rw [hy] at hlisted
    exact hf e ⟨s, begun, made⟩ hlisted
  · rw [hy] at hlisted
    exact ⟨begun, made, rfl, hlisted⟩

/-- What looks at the storage finds the same. -/
theorem getThen {f : Traffic → Activity Traffic α} {g : Storage → Action Storage α}
    (h : ∀ t, Mirrors (f t) (g t.storage)) : Mirrors (get >>= f) (get >>= g) :=
  fun t ht => h t t ht

theorem ite {c : Prop} [Decidable c] {x' : Activity Traffic α} {y' : Action Storage α}
    (h : Mirrors x y) (h' : Mirrors x' y') :
    Mirrors (if c then x else x') (if c then y else y') := by
  split
  · exact h
  · exact h'

/-- Nobody waits long for a turn. -/
theorem paused {f : Unit → Activity Traffic α} (h : Mirrors (f ()) y) :
    Mirrors (Activity.pause .turn >>= f) y := fun t ht => h t ht

/-- How a change begins, and what `y` does at once. -/
inductive Begins (y : Action Storage Unit) (spoil : Store → Store) (t : Traffic) :
    Except Failure (Option Nat) × Traffic → Prop where
  | nothing (h : exec y t.storage = (.ok (), t.storage)) : Begins y spoil t (.ok none, t)
  | fails {e : Failure} {s : Storage} (h : exec y t.storage = (.error e, s)) :
      Begins y spoil t (.error e, { t with storage := s })
  | change {c : Change} {s : Storage} (h : exec y t.storage =
        match c.apply s.shelf with
        | (.ok _, shelf) => (.ok (), { s with shelf := shelf })
        | (.error e, shelf) =>
          (.error (.storage e), { s with shelf := shelf, store := spoil s.store })) :
      Begins y spoil t
        (.ok (some t.begun.length), { t with storage := s, begun := t.begun ++ [c] })

theorem ofBegins {begin : Action Traffic (Option Nat)} {y : Action Storage Unit}
    {spoil : Store → Store} (h : ∀ t, Begins y spoil t (exec begin t)) :
    Mirrors (liftM begin >>= complete spoil) y := fun t ht => by
  have hlift : ended (liftM begin) t = exec begin t := rfl
  rw [ended_bind, hlift]
  rcases hrun : exec begin t with ⟨result, u⟩
  have hbegins := h t
  rw [hrun] at hbegins
  cases hbegins with
  | nothing hy =>
    rw [hy]
    exact ⟨t.begun, t.made, rfl, ht⟩
  | fails hy =>
    rw [hy]
    exact ⟨t.begun, t.made, rfl, ht⟩
  | @change c s hy =>
    let u : Traffic := { t with storage := s, begun := t.begun ++ [c] }
    have hmake : exec (make t.begun.length) u = _ :=
      exec_make List.getElem?_concat_length ht.fresh
    have hlater : ∀ n ∈ t.made, n < (t.begun ++ [c]).length := fun n hn => by
      rw [List.length_append]
      exact Nat.lt_add_right _ (ht n hn)
    have hnow : ∀ n ∈ t.made ++ [t.begun.length], n < (t.begun ++ [c]).length := fun n hn => by
      rcases List.mem_append.mp hn with hn | hn
      · exact hlater n hn
      · rw [List.mem_singleton.mp hn, List.length_append]
        exact Nat.lt_succ_self _
    dsimp only
    rw [ended_complete, hmake, hy]
    rcases c.apply s.shelf with ⟨e | _, shelf⟩
    · exact ⟨t.begun ++ [c], t.made, rfl, hlater⟩
    · exact ⟨t.begun ++ [c], t.made ++ [t.begun.length], rfl, hnow⟩

theorem save : Mirrors save Storage.save := ofBegins fun t => by
  cases hr : t.storage.store.root with
  | none =>
    rw [exec_startRoot_none hr]
    exact .nothing (Storage.exec_save_none hr)
  | some r =>
    cases hd : t.storage.store.rootDegraded with
    | true =>
      rw [exec_startRoot_degraded hr hd]
      exact .fails (Storage.exec_save_degraded hr hd)
    | false =>
      cases hw : r.document.writable with
      | false =>
        rw [exec_startRoot_long hr hd hw]
        exact .fails (Storage.exec_save_long hr hd hw)
      | true =>
        rw [exec_startRoot hr hd hw]
        refine .change ((Storage.exec_save_root hr hd hw).trans ?_)
        unfold Storage.attemptRoot Change.apply Shelf.write
        dsimp only
        split <;> rfl

theorem saveValues (chat : String) : Mirrors (saveValues chat) (Storage.saveValues chat) :=
  ofBegins fun t => by
    cases hc : t.storage.store.cached? chat with
    | none =>
      rw [exec_startChat_none hc]
      exact .nothing (Storage.exec_saveValues_none hc)
    | some vs =>
      cases hd : t.storage.store.isDegraded chat with
      | true =>
        rw [exec_startChat_degraded hc hd]
        exact .fails (Storage.exec_saveValues_degraded hc hd)
      | false =>
        by_cases hw : vs = [] ∨ (ChatValues.document chat vs).writable = true
        · rw [exec_startChat hc hd hw]
          refine .change ((Storage.exec_saveValues_chat hc hd hw).trans ?_)
          unfold Storage.attemptChat Change.apply chatText
          dsimp only
          split
          · unfold Shelf.delete
            split <;> rfl
          · unfold Shelf.write
            split <;> rfl
        · obtain ⟨hne, hw⟩ := not_or.mp hw
          have hlong := Bool.eq_false_iff.mpr hw
          rw [exec_startChat_long hc hd hne hlong]
          exact .fails (Storage.exec_saveValues_long hc hd hne hlong)

theorem noting {x : Activity Traffic Unit} {y : Action Storage Unit} (h : Mirrors x y) :
    Mirrors (noting x) (Storage.noting y) := by
  unfold Traffic.noting Storage.noting
  rw [seqRight_eq_bind]
  refine (h.bind fun _ => .pure none).tryCatch fun e => ?_
  cases e with
  | storage e => exact .pure _
  | _ => exact .throw _

theorem saveEach (l : List String) : Mirrors (saveEach l) (Storage.saveEach l) := by
  induction l with
  | nil => exact .pure _
  | cons chat l ih => exact (saveValues chat).noting.bind fun _ => ih.bind fun _ => .pure _

theorem flushing : Mirrors flushing Storage.flushing := by
  have hroot : Mirrors flushRoot Storage.flushRoot :=
    .getThen fun _ => .ite save.noting (.pure none)
  have hvalues : Mirrors flushValues Storage.flushValues :=
    (onStorage _).bind fun _ => (onStorage _).bind saveEach
  exact hroot.bind fun _ => hvalues.bind fun _ => .pure _

theorem flush : Mirrors flush Storage.flush := flushing.bind fun faults => by
  cases faults with
  | nil => exact .pure ()
  | cons e faults => exact .throw _

theorem close : Mirrors close Storage.close := (onStorage _).bind fun _ => flush.paused

theorem saveInTurn : Mirrors saveInTurn Storage.saveInTurn :=
  (onStorage _).bind fun _ => .getThen fun _ => .ite (save.tryCatch fun _ => .pure ()) (.pure ())

theorem saveValuesInTurn : Mirrors saveValuesInTurn Storage.saveValuesInTurn :=
  (onStorage _).bind fun _ => .tryCatch
    ((onStorage _).bind fun dirty => (saveEach dirty).bind fun _ => .pure ()) fun _ => .pure ()

end Mirrors

end Traffic

end TagLedger
