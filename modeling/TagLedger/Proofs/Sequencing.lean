import Mathlib.Data.List.Nodup
import Mathlib.Data.List.Perm.Basic
import TagLedger.Proofs.Fields
import TagLedger.Transcript.Script

/-!
# Scripts in their order

The scripts that an order names run first, by the first appearance of their identifiers there, and
all others after them, as they stand. An identifier in the order is looked up among the enabled
scripts, and the last script that has it is found. The others that have it too are not run at all.
Nothing keeps two scripts from having one identifier; as long as the order does not name it, all of
them run.

    s.ordered runs by s.order what is left of s.enabled     (nothing is repeated)
    s.ordered.Perm s.enabled ↔ the order names no identifier of two of them        (ordered_exact)
-/

namespace TagLedger.ScriptSet

variable {order : List String} {scripts out : List Script} {m : List (String × Script)} {id : String}

/-! ## What the order asks for -/

/-- The scripts that the order names come first, by the first appearance of their identifiers, and
the others after them, as they stand. -/
def RunsBy (order : List String) (scripts out : List Script) : Prop :=
  ∃ named, out = named ++ scripts.filter (·.id ∉ order) ∧
    named.Perm (scripts.filter (·.id ∈ order)) ∧
    named.Pairwise fun x y => order.idxOf x.id ≤ order.idxOf y.id

/-- No two scripts have one identifier that the order names. -/
def NamedApart (order : List String) (scripts : List Script) : Prop :=
  scripts.Pairwise fun x y => x.id = y.id → x.id ∉ order

/-- The scripts without those that the order names and that stand before another one with their
identifier. -/
def unshadowed (order : List String) : List Script → List Script
  | [] => []
  | x :: r =>
    if x.id ∈ order ∧ x.id ∈ r.map (·.id) then unshadowed order r else x :: unshadowed order r

/-- All scripts run, each as often as it stands in the list. -/
theorem RunsBy.perm (h : RunsBy order scripts out) : out.Perm scripts := by
  obtain ⟨named, rfl, hperm, -⟩ := h
  have hparts := List.filter_append_perm (fun x : Script => decide (x.id ∈ order)) scripts
  simp only [← decide_not] at hparts
  exact (hperm.append_right _).trans hparts

theorem unshadowed_sublist (order : List String) (scripts : List Script) :
    (unshadowed order scripts).Sublist scripts := by
  induction scripts with
  | nil => exact .slnil
  | cons x r ih =>
    unfold unshadowed
    split
    · exact ih.cons x
    · exact ih.cons_cons x

/-- Of scripts with one identifier that the order names, one is left. -/
theorem namedApart_unshadowed (order : List String) (scripts : List Script) :
    NamedApart order (unshadowed order scripts) := by
  induction scripts with
  | nil => exact .nil
  | cons x r ih =>
    unfold unshadowed
    split
    · exact ih
    · next hfree =>
      refine List.pairwise_cons.mpr ⟨fun y hy hsame hnamed => hfree ⟨hnamed, ?_⟩, ih⟩
      rw [hsame]
      exact List.mem_map_of_mem ((unshadowed_sublist order r).subset hy)

theorem unshadowed_eq_self (h : NamedApart order scripts) : unshadowed order scripts = scripts := by
  induction scripts with
  | nil => rfl
  | cons x r ih =>
    obtain ⟨hx, hr⟩ := List.pairwise_cons.mp h
    unfold unshadowed
    rw [if_neg, ih hr]
    rintro ⟨hnamed, hlater⟩
    obtain ⟨y, hy, hsame⟩ := List.mem_map.mp hlater
    exact hx y hy hsame.symm hnamed

/-- Only what the order names may be left out. -/
theorem filter_unshadowed (order : List String) (scripts : List Script) :
    (unshadowed order scripts).filter (·.id ∉ order) = scripts.filter (·.id ∉ order) := by
  induction scripts with
  | nil => rfl
  | cons x r ih =>
    unfold unshadowed
    split
    · next hshadowed =>
      rw [ih, List.filter_cons_of_neg]
      simpa using hshadowed.1
    · rw [List.filter_cons, List.filter_cons, ih]

/-- What is left for an identifier in the order is the last script that has it. -/
theorem mem_unshadowed {x : Script} (hx : x.id ∈ order) :
    x ∈ unshadowed order scripts ↔ scripts.reverse.find? (·.id == x.id) = some x := by
  induction scripts with
  | nil => exact iff_of_false nofun nofun
  | cons y r ih =>
    rw [List.reverse_cons, List.find?_append]
    unfold unshadowed
    by_cases hlater : x.id ∈ r.map (·.id)
    · -- a later script has the identifier, so it makes no difference whether `y` has it
      have hfound : (r.reverse.find? (·.id == x.id)).isSome := by
        obtain ⟨z, hz, hsame⟩ := List.mem_map.mp hlater
        exact List.find?_isSome.mpr ⟨z, List.mem_reverse.mpr hz, beq_iff_eq.mpr hsame⟩
      rw [Option.or_of_isSome hfound, ← ih]
      split
      · rfl
      · next hfree =>
        rw [List.mem_cons, or_iff_right]
        rintro rfl
        exact hfree ⟨hx, hlater⟩
    · have hnone : r.reverse.find? (·.id == x.id) = none := by
        refine List.find?_eq_none.mpr fun z hz hsame => hlater ?_
        exact List.mem_map.mpr ⟨z, List.mem_reverse.mp hz, beq_iff_eq.mp hsame⟩
      have hout : x ∉ unshadowed order r := fun hmem =>
        hlater (List.mem_map_of_mem ((unshadowed_sublist order r).subset hmem))
      rw [hnone, Option.none_or, List.find?_singleton]
      by_cases hsame : y.id = x.id
      · rw [if_neg (fun hshadowed => hlater (hsame ▸ hshadowed.2)), List.mem_cons,
          or_iff_left hout, if_pos (beq_iff_eq.mpr hsame), Option.some_inj]
        exact eq_comm
      · have hother : ¬ (y.id == x.id) = true := by simpa using hsame
        rw [if_neg hother]
        refine iff_of_false (fun hmem => ?_) nofun
        split at hmem
        · exact hout hmem
        · exact (List.mem_cons.mp hmem).elim (fun hxy => hsame (hxy ▸ rfl)) hout

/-! ## Scripts by identifier -/

theorem find?_byId (scripts : List Script) (id : String) :
    Json.find? (byId scripts) id = scripts.reverse.find? (·.id == id) := by
  have hfrom (m : List (String × Script)) :
      Json.find? (scripts.foldl (fun m s => Json.insert m s.id s) m) id =
        (scripts.reverse.find? (·.id == id)).or (Json.find? m id) := by
    induction scripts generalizing m with
    | nil => rfl
    | cons x r ih =>
      rw [List.foldl_cons, ih, Json.find?_insert, List.reverse_cons, List.find?_append,
        Option.or_assoc, List.find?_singleton]
      congr 1
      by_cases hsame : x.id = id
      · rw [if_pos hsame, if_pos (beq_iff_eq.mpr hsame), Option.some_or]
      · rw [if_neg hsame, if_neg (by simpa using hsame), Option.none_or]
  exact (hfrom []).trans (Option.or_none)

/-- A map of scripts that stand under their own identifiers, each identifier once. -/
structure Indexed (m : List (String × Script)) : Prop where
  keys : (Json.keys m).Nodup
  own : ∀ e ∈ m, e.2.id = e.1

namespace Indexed

theorem filter (h : Indexed m) (p : String × Script → Bool) : Indexed (m.filter p) :=
  ⟨Json.nodup_keys_filter h.keys p, fun e he => h.own e (List.mem_of_mem_filter he)⟩

theorem map_id (h : Indexed m) : (m.map (·.2)).map (·.id) = Json.keys m := by
  rw [List.map_map]
  exact List.map_congr_left h.own

theorem insert (h : Indexed m) (x : Script) : Indexed (Json.insert m x.id x) :=
  ⟨Json.nodup_keys_insert h.keys _ _, fun e he =>
    (Json.mem_insert he).elim (fun heq => heq ▸ rfl) (h.own e)⟩

theorem byId (scripts : List Script) : Indexed (byId scripts) :=
  List.foldlRecOn (motive := Indexed) scripts _ ⟨List.nodup_nil, nofun⟩ fun _ hm x _ => hm.insert x

theorem find?_iff (h : Indexed m) {x : Script} :
    Json.find? m x.id = some x ↔ x ∈ m.map (·.2) := by
  refine ⟨fun hx => List.mem_map.mpr ⟨_, Json.mem_of_find? hx, rfl⟩, fun hx => ?_⟩
  obtain ⟨e, he, rfl⟩ := List.mem_map.mp hx
  exact Json.find?_of_mem h.keys (h.own e he ▸ he)

/-- A script that is found stands beside the scripts with other identifiers. -/
theorem perm_cons (h : Indexed m) {x : Script} (hx : Json.find? m id = some x) :
    m.Perm ((id, x) :: m.filter (·.1 != id)) := by
  have hm : m.Nodup := List.Nodup.of_map Prod.fst h.keys
  refine (List.perm_ext_iff_of_nodup hm (List.nodup_cons.mpr ⟨?_, hm.filter _⟩)).mpr fun e => ?_
  · intro hmem
    exact bne_iff_ne.mp (List.mem_filter.mp hmem).2 rfl
  · rw [List.mem_cons, List.mem_filter]
    refine ⟨fun he => ?_, fun he => ?_⟩
    · by_cases hid : e.1 = id
      · have hfound := Json.find?_of_mem h.keys he
        rw [hid, hx] at hfound
        exact .inl (Prod.ext hid (Option.some.inj hfound).symm)
      · exact .inr ⟨he, bne_iff_ne.mpr hid⟩
    · rcases he with rfl | he
      · exact Json.mem_of_find? hx
      · exact he.1

/-- One script is taken out, and the others that are named. -/
theorem perm_take (h : Indexed m) {x : Script} (hx : Json.find? m id = some x)
    (order : List String) :
    (x :: ((m.filter (·.1 != id)).filter (·.1 ∈ order)).map (·.2)).Perm
      ((m.filter (·.1 ∈ id :: order)).map (·.2)) := by
  have hnamed : (m.filter (·.1 != id)).filter (·.1 ∈ id :: order) =
      (m.filter (·.1 != id)).filter (·.1 ∈ order) :=
    List.filter_congr fun e he => by
      have hne : e.1 ≠ id := bne_iff_ne.mp (List.mem_filter.mp he).2
      simp [hne]
  have hperm := ((h.perm_cons hx).filter (·.1 ∈ id :: order)).map (·.2)
  rw [List.filter_cons_of_pos (by simp), hnamed] at hperm
  exact hperm.symm

end Indexed

/-! ## Taking scripts in order -/

/-- What is taken out of a map of scripts by an order, and what is left. -/
structure Taken (order : List String) (m : List (String × Script))
    (taken : List Script × List (String × Script)) : Prop where
  rest : taken.2 = m.filter (·.1 ∉ order)
  perm : taken.1.Perm ((m.filter (·.1 ∈ order)).map (·.2))
  sorted : taken.1.Pairwise fun x y => order.idxOf x.id ≤ order.idxOf y.id

theorem taken_takeOrdered (h : Indexed m) (order : List String) :
    Taken order m (takeOrdered order m) := by
  induction order generalizing m with
  | nil => exact ⟨by simp [takeOrdered], by simp [takeOrdered], .nil⟩
  | cons i order ih =>
    -- scripts with other identifiers come one later in the longer order
    have hlater {l : List Script} (hl : ∀ x ∈ l, x.id ≠ i)
        (hsorted : l.Pairwise fun x y => order.idxOf x.id ≤ order.idxOf y.id) :
        l.Pairwise fun x y => (i :: order).idxOf x.id ≤ (i :: order).idxOf y.id :=
      hsorted.imp_of_mem fun hx hy hle => by
        rw [List.idxOf_cons_ne order (hl _ hx).symm, List.idxOf_cons_ne order (hl _ hy).symm]
        exact Nat.succ_le_succ hle
    unfold takeOrdered
    cases hfound : Json.find? m i with
    | some x =>
      obtain ⟨hrest, hperm, hsorted⟩ := ih (h.filter (·.1 != i))
      have hid : x.id = i := h.own _ (Json.mem_of_find? hfound)
      have hothers : ∀ y ∈ (takeOrdered order (m.filter (·.1 != i))).1, y.id ≠ i := fun y hy => by
        obtain ⟨e, he, rfl⟩ := List.mem_map.mp (hperm.mem_iff.mp hy)
        obtain ⟨hmem, hne⟩ := List.mem_filter.mp (List.mem_of_mem_filter he)
        rw [h.own e hmem]
        exact bne_iff_ne.mp hne
      refine ⟨?_, (hperm.cons x).trans (h.perm_take hfound order),
        List.pairwise_cons.mpr ⟨fun y _ => ?_, hlater hothers hsorted⟩⟩
      · rw [hrest, List.filter_filter]
        refine List.filter_congr fun e _ => ?_
        rw [Bool.eq_iff_iff]
        simp [and_comm]
      · rw [hid, List.idxOf_cons_self]
        exact Nat.zero_le _
    | none =>
      obtain ⟨hrest, hperm, hsorted⟩ := ih h
      have hne : ∀ e ∈ m, e.1 ≠ i := fun e he hei =>
        Json.find?_eq_none.mp hfound (List.mem_map.mpr ⟨e, he, hei⟩)
      have hothers : ∀ y ∈ (takeOrdered order m).1, y.id ≠ i := fun y hy => by
        obtain ⟨e, he, rfl⟩ := List.mem_map.mp (hperm.mem_iff.mp hy)
        rw [h.own e (List.mem_of_mem_filter he)]
        exact hne e (List.mem_of_mem_filter he)
      have hnamed : m.filter (·.1 ∈ i :: order) = m.filter (·.1 ∈ order) :=
        List.filter_congr fun e he => by simp [hne e he]
      refine ⟨?_, hnamed ▸ hperm, hlater hothers hsorted⟩
      rw [hrest]
      exact List.filter_congr fun e he => by simp [hne e he]

/-! ## What runs -/

/-- The scripts under identifiers that the order names are what is left for these identifiers. -/
theorem perm_named (order : List String) (scripts : List Script) :
    (((byId scripts).filter (·.1 ∈ order)).map (·.2)).Perm
      ((unshadowed order scripts).filter (·.id ∈ order)) := by
  have hindexed := (Indexed.byId scripts).filter (·.1 ∈ order)
  have hids : (((byId scripts).filter (·.1 ∈ order)).map (·.2)).Nodup := by
    refine List.Nodup.of_map (·.id) ?_
    rw [hindexed.map_id]
    exact hindexed.keys
  have hleft : ((unshadowed order scripts).filter (·.id ∈ order)).Nodup := by
    refine ((namedApart_unshadowed order scripts).sublist List.filter_sublist).imp_of_mem ?_
    rintro x y hx hy hapart rfl
    exact hapart rfl (of_decide_eq_true (List.mem_filter.mp hx).2)
  refine (List.perm_ext_iff_of_nodup hids hleft).mpr fun x => ?_
  rw [← hindexed.find?_iff, Json.find?_filter (fun k => decide (k ∈ order)), List.mem_filter,
    find?_byId]
  by_cases hx : x.id ∈ order
  · rw [if_pos (decide_eq_true hx), mem_unshadowed hx, and_iff_left (decide_eq_true hx)]
  · rw [if_neg (by simpa using hx)]
    exact iff_of_false nofun fun hmem => hx (of_decide_eq_true hmem.2)

theorem runsBy_ordered (s : ScriptSet) :
    RunsBy s.order (unshadowed s.order s.enabled) s.ordered := by
  unfold ordered
  split
  · next hempty =>
    rw [List.isEmpty_iff.mp hempty]
    refine ⟨[], ?_, by simp, .nil⟩
    rw [filter_unshadowed]
    simp
  · have htaken := taken_takeOrdered (Indexed.byId s.enabled) s.order
    refine ⟨_, ?_, htaken.perm.trans (perm_named s.order s.enabled), htaken.sorted⟩
    rw [filter_unshadowed]
    refine congrArg _ (List.filter_congr fun x hx => ?_)
    have hkey : (Json.find? (byId s.enabled) x.id).isSome := by
      rw [find?_byId]
      exact List.find?_isSome.mpr ⟨x, List.mem_reverse.mpr hx, beq_self_eq_true _⟩
    rw [htaken.rest, Json.find?_filter (fun k => decide (k ∉ s.order))]
    by_cases hnamed : x.id ∈ s.order <;> simp [hnamed, hkey]

/-- The enabled scripts that run are those that the order names, of each identifier the last, by the
first appearance of their identifiers, and then the others, as they stand. These are all of them,
each once, if and only if the order names no identifier of two of them. -/
theorem ordered_exact (s : ScriptSet) :
    RunsBy s.order (unshadowed s.order s.enabled) s.ordered ∧
      (s.ordered.Perm s.enabled ↔ NamedApart s.order s.enabled) ∧
      (NamedApart s.order s.enabled → RunsBy s.order s.enabled s.ordered) := by
  have hruns := runsBy_ordered s
  refine ⟨hruns, ⟨fun hperm => ?_, fun hapart => ?_⟩, fun hapart => ?_⟩
  · have hlength : (unshadowed s.order s.enabled).length = s.enabled.length :=
      (hruns.perm.symm.trans hperm).length_eq
    rw [← (unshadowed_sublist s.order s.enabled).eq_of_length hlength]
    exact namedApart_unshadowed s.order s.enabled
  · rw [unshadowed_eq_self hapart] at hruns
    exact hruns.perm
  · rw [unshadowed_eq_self hapart] at hruns
    exact hruns

/-- Of two scripts with an identifier that the order names, one is not run. -/
example : ScriptSet.ordered ⟨true, [⟨"a", "", "x", "", false⟩, ⟨"a", "", "y", "", false⟩], ["a"]⟩ =
    [⟨"a", "", "y", "", false⟩] := by decide

end TagLedger.ScriptSet
