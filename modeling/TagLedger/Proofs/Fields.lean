import TagLedger.Json.Basic

/-!
# Ordered fields

What looking up, setting and dropping a key do to fields in order, and to their keys.

    find? (insert fields k v) key = if k = key then some v else find? fields key     (find?_insert)
    keys (insert fields k v) ⊆ k :: keys fields                                      (mem_keys_insert)
-/

namespace TagLedger.Json

variable {α β : Type}

/-- The keys in order. -/
def keys (fields : List (String × α)) : List String := fields.map (·.1)

@[simp] theorem keys_nil : keys ([] : List (String × α)) = [] := rfl

@[simp] theorem keys_cons (k : String) (v : α) (r : List (String × α)) :
    keys ((k, v) :: r) = k :: keys r := rfl

@[simp] theorem keys_append (a b : List (String × α)) : keys (a ++ b) = keys a ++ keys b := by
  simp [keys]

@[simp] theorem find?_nil (key : String) : find? ([] : List (String × α)) key = none := rfl

@[simp] theorem find?_cons (k : String) (v : α) (r : List (String × α)) (key : String) :
    find? ((k, v) :: r) key = if k = key then some v else find? r key := by
  unfold find?
  by_cases h : k = key <;> simp [h]

theorem mem_of_find? {fields : List (String × α)} {key : String} {v : α}
    (h : find? fields key = some v) : (key, v) ∈ fields := by
  induction fields with
  | nil => simp at h
  | cons f r ih =>
    obtain ⟨k, w⟩ := f
    rw [find?_cons] at h
    split at h
    · next hk =>
      rw [hk, Option.some.inj h]
      exact List.mem_cons_self
    · exact List.mem_cons_of_mem _ (ih h)

theorem find?_isSome {fields : List (String × α)} {key : String} :
    (find? fields key).isSome = true ↔ key ∈ keys fields := by
  induction fields with
  | nil => simp
  | cons f r ih =>
    obtain ⟨k, w⟩ := f
    rw [find?_cons, keys_cons, List.mem_cons]
    split
    · next hk => simp [hk]
    · next hk => rw [ih]; simp [Ne.symm hk]

theorem mem_keys_of_find? {fields : List (String × α)} {key : String} {v : α}
    (h : find? fields key = some v) : key ∈ keys fields := by
  rw [← find?_isSome, h]
  rfl

theorem find?_eq_none {fields : List (String × α)} {key : String} :
    find? fields key = none ↔ key ∉ keys fields := by
  rw [← find?_isSome]
  simp

/-- With distinct keys a key has one value. -/
theorem find?_of_mem {fields : List (String × α)} (hd : (keys fields).Nodup) {key : String} {v : α}
    (h : (key, v) ∈ fields) : find? fields key = some v := by
  induction fields with
  | nil => simp at h
  | cons f r ih =>
    obtain ⟨k, w⟩ := f
    rw [keys_cons, List.nodup_cons] at hd
    rw [find?_cons]
    rcases List.mem_cons.mp h with he | hr
    · obtain ⟨rfl, rfl⟩ := Prod.mk.inj he
      simp
    · have hk : key ∈ keys r := List.mem_map.mpr ⟨(key, v), hr, rfl⟩
      have hne : k ≠ key := by
        rintro rfl
        exact hd.1 hk
      rw [if_neg hne]
      exact ih hd.2 hr

/-! ## Setting a key -/

theorem find?_insert (fields : List (String × α)) (k : String) (v : α) (key : String) :
    find? (insert fields k v) key = if k = key then some v else find? fields key := by
  induction fields with
  | nil => simp [insert]
  | cons f r ih =>
    obtain ⟨k', w⟩ := f
    by_cases h : k' = k
    · subst h
      simp only [insert, beq_self_eq_true, if_true, find?_cons]
      split <;> rfl
    · simp only [insert, beq_iff_eq, h, if_false, find?_cons, ih]
      by_cases h' : k' = key
      · rw [if_pos h', if_neg (fun e => h (h'.trans e.symm)), if_pos h']
      · rw [if_neg h', if_neg h']

/-- Of two values that a key is set to, the last counts. -/
theorem insert_insert (fields : List (String × α)) (k : String) (v w : α) :
    insert (insert fields k v) k w = insert fields k w := by
  induction fields with
  | nil => simp [insert]
  | cons f r ih =>
    obtain ⟨k', u⟩ := f
    by_cases h : k' = k
    · simp [insert, h]
    · simp only [insert, beq_iff_eq, h, if_false, ih]

theorem mem_insert {fields : List (String × α)} {k : String} {v : α} {f : String × α}
    (h : f ∈ insert fields k v) : f = (k, v) ∨ f ∈ fields := by
  induction fields with
  | nil => simpa [insert] using h
  | cons g r ih =>
    obtain ⟨k', w⟩ := g
    unfold insert at h
    split at h
    · next hk =>
      rcases List.mem_cons.mp h with h | h
      · exact Or.inl (h.trans (by rw [beq_iff_eq.mp hk]))
      · exact Or.inr (List.mem_cons_of_mem _ h)
    · rcases List.mem_cons.mp h with h | h
      · exact Or.inr (h ▸ List.mem_cons_self)
      · exact (ih h).imp id (List.mem_cons_of_mem _)

/-- A key in use stays at its place, a new one comes last. -/
theorem keys_insert (fields : List (String × α)) (k : String) (v : α) :
    keys (insert fields k v) = if k ∈ keys fields then keys fields else keys fields ++ [k] := by
  induction fields with
  | nil => simp [insert]
  | cons g r ih =>
    obtain ⟨k', w⟩ := g
    by_cases h : k' = k
    · subst h
      simp [insert]
    · have h' : k ≠ k' := Ne.symm h
      simp only [insert, beq_iff_eq, h, if_false, keys_cons, ih, List.mem_cons, h', false_or]
      split <;> rfl

theorem mem_keys_insert {fields : List (String × α)} {k key : String} {v : α} :
    key ∈ keys (insert fields k v) ↔ key = k ∨ key ∈ keys fields := by
  rw [keys_insert]
  split
  · next h => exact ⟨Or.inr, fun h' => h'.elim (fun e => e ▸ h) id⟩
  · rw [List.mem_append, List.mem_singleton]
    exact Or.comm

theorem nodup_keys_insert {fields : List (String × α)} (hd : (keys fields).Nodup) (k : String)
    (v : α) : (keys (insert fields k v)).Nodup := by
  rw [keys_insert]
  split
  · exact hd
  · next h =>
    rw [List.nodup_append]
    refine ⟨hd, by simp, fun a ha b hb e => ?_⟩
    rw [List.mem_singleton] at hb
    exact h (hb ▸ e ▸ ha)

/-- A new key goes to the end. -/
theorem insert_of_not_mem {fields : List (String × α)} {k : String} (h : k ∉ keys fields) (v : α) :
    insert fields k v = fields ++ [(k, v)] := by
  induction fields with
  | nil => rfl
  | cons g r ih =>
    obtain ⟨k', w⟩ := g
    rw [keys_cons, List.mem_cons, not_or] at h
    simp only [insert, beq_iff_eq, Ne.symm h.1, if_false, ih h.2, List.cons_append]

/-! ## Dropping keys -/

theorem find?_filter (p : String → Bool) (fields : List (String × α)) (key : String) :
    find? (fields.filter fun f => p f.1) key = if p key then find? fields key else none := by
  induction fields with
  | nil => simp
  | cons g r ih =>
    obtain ⟨k, w⟩ := g
    rw [List.filter_cons]
    by_cases hp : p k
    · rw [if_pos hp, find?_cons, find?_cons, ih]
      by_cases h : k = key
      · subst h; simp [hp]
      · simp [h]
    · rw [if_neg hp, ih, find?_cons]
      by_cases h : k = key
      · subst h; simp [hp]
      · simp [h]

theorem nodup_keys_filter {fields : List (String × α)} (hd : (keys fields).Nodup)
    (p : String × α → Bool) : (keys (fields.filter p)).Nodup :=
  hd.sublist (List.filter_sublist.map _)

/-! ## Changing values -/

theorem find?_mapKeyed (f : String → α → β) (fields : List (String × α)) (key : String) :
    find? (fields.map fun x => (x.1, f x.1 x.2)) key = (find? fields key).map (f key) := by
  induction fields with
  | nil => rfl
  | cons g r ih =>
    obtain ⟨k, v⟩ := g
    rw [List.map_cons, find?_cons, find?_cons, ih]
    split
    · next hk => rw [hk, Option.map_some]
    · rfl

theorem find?_map (f : α → β) (fields : List (String × α)) (key : String) :
    find? (fields.map fun x => (x.1, f x.2)) key = (find? fields key).map f :=
  find?_mapKeyed (fun _ => f) fields key

/-- With distinct keys, what is left of a value does not depend on the others. -/
theorem find?_filterMap {fields : List (String × α)} (hd : (keys fields).Nodup)
    (f : α → Option β) (key : String) :
    find? (fields.filterMap fun x => (f x.2).map fun b => (x.1, b)) key =
      (find? fields key).bind f := by
  induction fields with
  | nil => rfl
  | cons g r ih =>
    obtain ⟨k, v⟩ := g
    rw [keys_cons, List.nodup_cons] at hd
    have ih := ih hd.2
    rw [List.filterMap_cons, find?_cons]
    dsimp only
    cases hf : f v with
    | none =>
      rw [Option.map_none]
      dsimp only
      rw [ih]
      split
      · next hk =>
        subst hk
        rw [find?_eq_none.mpr hd.1, Option.bind_none, Option.bind_some, hf]
      · rfl
    | some b =>
      rw [Option.map_some]
      dsimp only
      rw [find?_cons, ih]
      split
      · rw [Option.bind_some, hf]
      · rfl

theorem keys_map (f : String → α → β) (fields : List (String × α)) :
    keys (fields.map fun x => (x.1, f x.1 x.2)) = keys fields := by
  simp [keys, Function.comp_def]

end TagLedger.Json
