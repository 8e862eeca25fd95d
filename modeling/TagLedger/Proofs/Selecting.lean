import TagLedger.Proofs.Ranging

/-!
# Floors that a checked rule selects

A rule that passes the check for a chat takes some of its floors, each once and in order. One that
passes the check without a length takes floors of every chat in this way, if only none. It makes no
difference to how many floors a percentage is rounded. The floors of the user are left out on
request, as long as there are messages that tell which they are.

    r.problem? (some n) = none  →  r.floors n ≠ [], and increasing from 1 to n
    r.problem? none = none      →  r.floors n increasing from 1 to n            (select_checked)
-/

namespace TagLedger

variable {a b f n step : Int} {fs : List Int}

/-! ## Rows of floors -/

/-- Floors of a chat that has `n` floors, each once and in order. -/
structure FloorsOf (n : Int) (fs : List Int) : Prop where
  increasing : fs.Pairwise (· < ·)
  inside : ∀ f ∈ fs, 1 ≤ f ∧ f ≤ n

theorem mem_interval : f ∈ interval a b ↔ a ≤ f ∧ f ≤ b := by
  unfold interval
  rw [List.mem_map]
  constructor
  · rintro ⟨k, hk, rfl⟩
    rw [List.mem_range] at hk
    omega
  · intro h
    refine ⟨(f - a).toNat, ?_, by omega⟩
    rw [List.mem_range]
    omega

theorem pairwise_interval (a b : Int) : (interval a b).Pairwise (· < ·) := by
  unfold interval
  rw [List.pairwise_map]
  exact List.pairwise_lt_range.imp fun h => by omega

theorem mem_intervalBy (hstep : 0 < step) (h : f ∈ intervalBy a b step) : a ≤ f ∧ f ≤ b := by
  obtain ⟨k, hk, rfl⟩ := List.mem_map.mp h
  rw [List.mem_range] at hk
  have hlast : ((k : Int) + 1) * step ≤ b - a + step :=
    (Int.le_ediv_iff_mul_le hstep).mp (by omega)
  rw [Int.add_mul, Int.one_mul] at hlast
  have hpos : 0 ≤ (k : Int) * step := Int.mul_nonneg (Int.natCast_nonneg k) hstep.le
  omega

theorem pairwise_intervalBy (hstep : 0 < step) (a b : Int) :
    (intervalBy a b step).Pairwise (· < ·) := by
  unfold intervalBy
  rw [List.pairwise_map]
  refine List.pairwise_lt_range.imp fun h => ?_
  exact Int.add_lt_add_left (Int.mul_lt_mul_of_pos_right (Int.ofNat_lt.mpr h) hstep) a

theorem first_mem_intervalBy (hstep : 0 < step) (h : a ≤ b) : a ∈ intervalBy a b step := by
  refine List.mem_map.mpr ⟨0, ?_, by simp⟩
  have hone : 1 ≤ (b - a + step) / step := (Int.le_ediv_iff_mul_le hstep).mpr (by omega)
  rw [List.mem_range]
  omega

namespace FloorsOf

theorem nil : FloorsOf n [] := ⟨List.Pairwise.nil, nofun⟩

theorem interval (ha : 1 ≤ a) (hb : b ≤ n) : FloorsOf n (interval a b) where
  increasing := pairwise_interval a b
  inside f hf := by
    obtain ⟨hlow, hhigh⟩ := mem_interval.mp hf
    exact ⟨ha.trans hlow, hhigh.trans hb⟩

theorem intervalBy (ha : 1 ≤ a) (hstep : 0 < step) : FloorsOf n (intervalBy a n step) where
  increasing := pairwise_intervalBy hstep a n
  inside f hf := by
    obtain ⟨hlow, hhigh⟩ := mem_intervalBy hstep hf
    exact ⟨ha.trans hlow, hhigh⟩

theorem filter (h : FloorsOf n fs) (p : Int → Bool) : FloorsOf n (fs.filter p) where
  increasing := h.increasing.filter p
  inside f hf := h.inside f (List.mem_of_mem_filter hf)

end FloorsOf

/-! ## Numbers that are missing or zero -/

theorem nonzeroOr_zero (k : Option Int) : nonzeroOr k 0 = k.getD 0 := by
  unfold nonzeroOr
  rcases k with _ | k
  · rfl
  · dsimp only [Option.getD_some]
    split
    · next hzero => exact hzero.symm
    · rfl

/-- A check that the number is positive speaks of the number that is used. -/
theorem nonzeroOr_of_pos {k : Option Int} {d : Int} (h : 0 < k.getD d) :
    nonzeroOr k d = k.getD d := by
  unfold nonzeroOr
  rcases k with _ | k
  · rfl
  · exact if_neg (ne_of_gt h)

namespace RangeRule

variable {r : RangeRule}

/-! ## Percentages -/

/-- The floors that the rule takes of a chat if it takes a percentage, and that is rounded to `part`
floors. Other rules take what they take. -/
def floorsWith (r : RangeRule) (length part : Int) : List Int :=
  if length ≤ 0 then []
  else
    match r.kind with
    | .percentage =>
      match r.side with
      | .start => interval 1 (min (max 1 part) length)
      | .tail => interval (max 1 (length - max 1 part + 1)) length
    | _ => r.floors length

theorem floorsWith_of_pos (h : 0 < n) (part : Int) : r.floorsWith n part =
    match r.kind with
    | .percentage =>
      match r.side with
      | .start => interval 1 (min (max 1 part) n)
      | .tail => interval (max 1 (n - max 1 part + 1)) n
    | _ => r.floors n := if_neg (by omega)

theorem floors_of_pos (h : 0 < n) : r.floors n =
    match r.kind with
    | .fixed => interval (max 1 (nonzeroOr r.start 1)) (min n (nonzeroOr r.stop n))
    | .latest => interval (max 1 (n - min (nonzeroOr r.count 20) n + 1)) n
    | .relative =>
      if n - nonzeroOr r.skip 0 < 1 then []
      else interval (max 1 (n - nonzeroOr r.skip 0 - nonzeroOr r.count 20 + 1))
        (n - nonzeroOr r.skip 0)
    | .interval => intervalBy (max 1 (nonzeroOr r.start 1)) n (max 1 (nonzeroOr r.step 5))
    | .percentage =>
      match r.side with
      | .start => interval 1 (min (share r.clampedPercent n) n)
      | .tail => interval (max 1 (n - share r.clampedPercent n + 1)) n
    | .exclude => (interval 1 n).filter fun i =>
        i < nonzeroOr r.excludeStart 1 ||
          nonzeroOr r.excludeStop (nonzeroOr r.excludeStart 1) < i
    | .unknown _ => [] := if_neg (by omega)

/-- What is taken of a percentage is what comes of rounding it in one way. -/
theorem floorsWith_share (r : RangeRule) (n : Int) :
    r.floorsWith n (share r.clampedPercent n) = r.floors n := by
  rcases Int.lt_or_le 0 n with hn | hn
  · have hshare : max 1 (share r.clampedPercent n) = share r.clampedPercent n :=
      max_eq_right (le_max_left _ _)
    rw [floorsWith_of_pos hn]
    cases hkind : r.kind with
    | percentage =>
      rw [floors_of_pos hn, hkind]
      dsimp only
      rw [hshare]
    | _ => rfl
  · unfold floorsWith floors
    rw [if_pos hn, if_pos hn]

/-! ## Rules without a problem -/

theorem beyond_some (length : ChatLength) (p : ChatLength → Bool) :
    beyond (some length) p = p length := rfl

theorem lt_whole (n f : Int) : (ChatLength.whole n).lt f = decide (n < f) := rfl

theorem le_whole (n f : Int) : (ChatLength.whole n).le f = decide (n ≤ f) := rfl

/-- Only floors of the chat are taken by a rule that is of use. -/
theorem Useful.floorsOf (h : r.Useful) (n part : Int) : FloorsOf n (r.floorsWith n part) := by
  rcases Int.lt_or_le 0 n with hn | hn
  case inr =>
    unfold floorsWith
    rw [if_pos hn]
    exact .nil
  rw [floorsWith_of_pos hn]
  cases hkind : r.kind with
  | percentage =>
    dsimp only
    split
    · exact .interval (le_refl 1) (min_le_right _ _)
    · exact .interval (le_max_left _ _) (le_refl n)
  | fixed =>
    rw [floors_of_pos hn, hkind]
    exact .interval (le_max_left _ _) (min_le_left _ _)
  | latest =>
    rw [floors_of_pos hn, hkind]
    exact .interval (le_max_left _ _) (le_refl n)
  | relative =>
    -- a skip below zero would go on past the end of the chat
    have hskip : ¬ r.skip.getD 0 < 0 := by
      unfold Useful problem? at h
      rw [beyond_none, if_neg Bool.false_ne_true] at h
      simp only [hkind, firstFailing_eq_none, List.forall_mem_cons] at h
      exact of_decide_eq_false h.1
    rw [floors_of_pos hn, hkind]
    dsimp only
    rw [nonzeroOr_zero]
    split
    · exact .nil
    · exact .interval (le_max_left _ _) (by omega)
  | interval =>
    rw [floors_of_pos hn, hkind]
    exact .intervalBy (le_max_left _ _) (by omega)
  | exclude =>
    rw [floors_of_pos hn, hkind]
    exact (FloorsOf.interval (le_refl 1) (le_refl n)).filter _
  | unknown name =>
    rw [floors_of_pos hn, hkind]
    exact .nil

/-- A rule without a problem for a chat takes some floor of it. -/
theorem floorsWith_ne_nil (h : r.problem? (some (.whole n)) = none) (part : Int) :
    r.floorsWith n part ≠ [] := by
  unfold problem? at h
  simp only [beyond_some, le_whole, lt_whole, decide_eq_true_eq] at h
  split at h
  · cases h
  next hle =>
  have hn : 0 < n := by omega
  have hmem {a b f : Int} (hlow : a ≤ f) (hhigh : f ≤ b) : interval a b ≠ [] :=
    List.ne_nil_of_mem (mem_interval.mpr ⟨hlow, hhigh⟩)
  rw [floorsWith_of_pos hn]
  cases hkind : r.kind with
  | percentage =>
    dsimp only
    split
    · exact hmem (le_refl 1) (by omega)
    · exact hmem (f := n) (by omega) (le_refl n)
  | fixed =>
    simp only [hkind, firstFailing_eq_none, List.forall_mem_cons, decide_eq_false_iff_not] at h
    obtain ⟨hstart, hbound, -, hstop, -⟩ := h
    rw [floors_of_pos hn, hkind]
    dsimp only
    rw [nonzeroOr_of_pos (by omega)]
    refine hmem (f := r.start.getD 1) (by omega) (le_min (by omega) ?_)
    unfold nonzeroOr
    rcases hs : r.stop with _ | stop
    · dsimp only
      omega
    · simp only [hs] at hstop
      dsimp only
      split
      · omega
      · next hne =>
        rw [if_neg hne, beyond_some, lt_whole, decide_eq_false_iff_not] at hstop
        omega
  | latest =>
    simp only [hkind, firstFailing_eq_none, List.forall_mem_cons, decide_eq_false_iff_not] at h
    rw [floors_of_pos hn, hkind]
    dsimp only
    rw [nonzeroOr_of_pos (by omega)]
    exact hmem (f := n) (by omega) (le_refl n)
  | relative =>
    simp only [hkind, firstFailing_eq_none, List.forall_mem_cons, decide_eq_false_iff_not] at h
    obtain ⟨hskip, hcount, hbound, -⟩ := h
    rw [floors_of_pos hn, hkind]
    dsimp only
    rw [nonzeroOr_zero, nonzeroOr_of_pos (by omega), if_neg (by omega)]
    exact hmem (f := n - r.skip.getD 0) (by omega) (le_refl _)
  | interval =>
    simp only [hkind, firstFailing_eq_none, List.forall_mem_cons, decide_eq_false_iff_not] at h
    obtain ⟨hstart, hbound, -⟩ := h
    rw [floors_of_pos hn, hkind]
    dsimp only
    rw [nonzeroOr_of_pos (k := r.start) (by omega)]
    exact List.ne_nil_of_mem (first_mem_intervalBy (by omega) (by omega))
  | exclude =>
    simp only [hkind, firstFailing_eq_none, List.forall_mem_cons, decide_eq_false_iff_not,
      Bool.and_eq_false_iff, beq_eq_false_iff_ne] at h
    obtain ⟨hstart, -, hall, -⟩ := h
    rw [floors_of_pos hn, hkind]
    dsimp only
    rw [nonzeroOr_of_pos (k := r.excludeStart) (by omega)]
    -- the first floor is left if it is not excluded, and else the last
    rcases hall with hfirst | hlast
    · refine List.ne_nil_of_mem (a := 1) (List.mem_filter.mpr ⟨mem_interval.mpr (by omega), ?_⟩)
      rw [Bool.or_eq_true, decide_eq_true_eq]
      exact .inl (by omega)
    · refine List.ne_nil_of_mem (a := n) (List.mem_filter.mpr ⟨mem_interval.mpr (by omega), ?_⟩)
      rw [Bool.or_eq_true, decide_eq_true_eq, decide_eq_true_eq]
      exact .inr (by omega)
  | unknown name =>
    rw [hkind] at h
    cases h

/-! ## Floors that are not the user's -/

/-- The message of the floor is there, and is not the user's. -/
def isOthers (messages : List Message) (f : Int) : Bool :=
  (messageAt? messages f).any fun m => !m.isUser

theorem select_others {messages : List Message} (h : messages ≠ []) (r : RangeRule) (n : Int) :
    r.select n true messages = (r.floors n).filter (isOthers messages) := by
  unfold select
  rw [Bool.true_and, List.isEmpty_eq_false_iff.mpr h]
  refine List.filter_congr fun f _ => ?_
  unfold isOthers
  cases messageAt? messages f <;> rfl

/-- What the check of a rule says about the floors that are taken, however percentages are rounded. -/
theorem select_checked (r : RangeRule) :
    (∀ n : Int, r.problem? (some n) = none → ∀ part,
      r.floorsWith n part ≠ [] ∧ FloorsOf n (r.floorsWith n part)) ∧
    (r.problem? none = none → ∀ n part : Int, FloorsOf n (r.floorsWith n part)) ∧
    (r.problem? none ≠ none → ∀ n : Int, r.problem? (some n) ≠ none) ∧
    (∀ n : Int, ∃ part, r.floors n = r.floorsWith n part) ∧
    ∀ (n : Int) (messages : List Message), r.select n false messages = r.floors n ∧
      r.select n true messages =
        if messages = [] then r.floors n else (r.floors n).filter (isOthers messages) := by
  refine ⟨fun n h part => ⟨floorsWith_ne_nil h part, (useful_of h).floorsOf n part⟩,
    fun h => Useful.floorsOf h, fun h n hnone => h (useful_of hnone),
    fun n => ⟨_, (floorsWith_share r n).symm⟩, fun n messages => ⟨rfl, ?_⟩⟩
  split
  · next hnil =>
    rw [hnil]
    rfl
  · next hne => exact select_others hne r n

/-- Two rules that pass, for a chat of ten floors and for every chat, and one that never does. -/
theorem select_checked_relative :
    ({ ofKind .relative with skip := some 2, count := some 3 } : RangeRule).floors 10 ≠ [] ∧
      FloorsOf 2 (({ ofKind .latest with count := some 5 } : RangeRule).floorsWith 2 7) ∧
      ({ ofKind .interval with step := some 0 } : RangeRule).problem? (some (.whole 4)) ≠ none := by
  obtain ⟨hsome, -, -, hshare, -⟩ :=
    select_checked { ofKind .relative with skip := some 2, count := some 3 }
  obtain ⟨part, hpart⟩ := hshare 10
  refine ⟨hpart ▸ (hsome 10 (by decide) part).1, ?_, ?_⟩
  · exact (select_checked { ofKind .latest with count := some 5 }).2.1 (by decide) 2 7
  · exact (select_checked { ofKind .interval with step := some 0 }).2.2.1 (by decide) 4

/-- The floors of the user are not left out where no message tells which they are. -/
theorem select_unread :
    (ofKind .fixed).problem? (some (.whole 4)) = none ∧
      (ofKind .fixed).select 4 true [] ≠ ((ofKind .fixed).floors 4).filter (isOthers []) := by
  decide

end RangeRule

end TagLedger
