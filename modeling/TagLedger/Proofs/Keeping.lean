import Mathlib.Logic.Relation
import TagLedger.Proofs.Converging
import TagLedger.Proofs.Spanning

/-!
# Texts without double braces

A text without a double brace has no builtin and no reference, and none is made in it, so that it is
resolved without looking at the chat or the variables. Sums are not looked for in ranges alone: one
that stands in the text is added up like any other. So the text is left as it is exactly if there is
no round or no sum in it; else sums are replaced by what they come to, and nothing else.

    resolve env rounds t = .ok t    ↔  rounds ≤ 0 ∨ no sum is written in t
    resolve env rounds t = .ok out  →  t becomes out by adding up sums                (resolve_plain)
-/

namespace TagLedger.Template

open Text (Digits digitLimit digitsValue natDigits isDigit)
open Relation (ReflTransGen)

variable {s t u v : List Char} {q : Sum} {last last' : Int} {rounds : Nat}

/-! ## Sums -/

/-- A sum is written in the text. -/
def HoldsSum (s : List Char) : Prop :=
  ∃ a d, Digits a ∧ isDigit d = true ∧ '@' :: (a ++ ['+', d]) <:+: s

/-- One sum is replaced by what it comes to. -/
inductive AddsUp : List Char → List Char → Prop
  | sum {u a b v : List Char} (left : Digits a) (right : Digits b)
      (ends : ∀ c ∈ v.head?, isDigit c = false) :
      AddsUp (u ++ '@' :: (a ++ '+' :: (b ++ v)))
        (u ++ '@' :: (natDigits (digitsValue a + digitsValue b) ++ v))

theorem AddsUp.append_left (w : List Char) (h : AddsUp s t) : AddsUp (w ++ s) (w ++ t) := by
  cases h with
  | sum left right ends =>
    rw [← List.append_assoc, ← List.append_assoc]
    exact .sum left right ends

theorem not_mem_natDigits (n : Nat) {c : Char} (hc : isDigit c = false) : c ∉ natDigits n := by
  intro hmem
  rw [(digits_natDigits n).digit c hmem] at hc
  cases hc

theorem AddsUp.count_plus_lt (h : AddsUp s t) : t.count '+' < s.count '+' := by
  cases h with
  | sum =>
    have hsum (n : Nat) : (natDigits n).count '+' = 0 :=
      List.count_eq_zero.mpr (not_mem_natDigits n (by decide))
    simp only [List.count_append, List.count_cons, hsum, beq_self_eq_true, if_true]
    omega

theorem count_plus_le (h : ReflTransGen AddsUp s t) : t.count '+' ≤ s.count '+' := by
  induction h with
  | refl => exact Nat.le_refl _
  | tail _ hstep ih => exact hstep.count_plus_lt.le.trans ih

theorem Sum.text_eq (h : q.text = .ok t) :
    t = '@' :: natDigits (digitsValue q.left + digitsValue q.right) := by
  have hread {ds : List Char} {n : Nat} (h : Text.readDigits ds = .ok n) : n = digitsValue ds := by
    unfold Text.readDigits at h
    split at h
    · exact (Except.ok.inj h).symm
    · cases h
  obtain ⟨a, ha, h⟩ := bind_eq_ok h
  obtain ⟨b, hb, h⟩ := bind_eq_ok h
  obtain ⟨w, hw, h⟩ := bind_eq_ok h
  cases h
  rw [hread ha, hread hb] at hw
  obtain ⟨text, htext, rfl⟩ := map_eq_ok hw
  unfold Text.writeInt at htext
  split at htext
  · cases htext
    exact congrArg _ (toList_intText_natCast _)
  · cases htext

/-- Sums are replaced one by one. -/
theorem reflTransGen_of_filled (h : Text.Filled sumMark Sum.text s t) :
    ReflTransGen AddsUp s t := by
  induction h with
  | nil => exact .refl
  | @char c s t _ _ ih => exact ih.lift ([c] ++ ·) fun _ _ => AddsUp.append_left [c]
  | @mark m s v t q hmark hv _ ih =>
    obtain ⟨hleft, hright, hlen, r, hr, hends⟩ := sum_of_sumMark hmark
    have hcut : m ++ s = ('@' :: (q.left ++ '+' :: q.right)) ++ r := by
      rw [hr]
      simp
    have hm : m.length = ('@' :: (q.left ++ '+' :: q.right)).length := by
      simp
      omega
    obtain ⟨rfl, rfl⟩ := List.append_inj hcut hm
    rw [Sum.text_eq hv]
    have hrest := ih.lift (('@' :: natDigits (digitsValue q.left + digitsValue q.right)) ++ ·)
      fun _ _ => AddsUp.append_left _
    refine .head ?_ hrest
    have hsum := AddsUp.sum (u := []) ⟨hleft.1, hleft.2⟩ ⟨hright.1, hright.2⟩ hends
    simpa using hsum

/-! ## Rounds -/

/-- The text has no double brace. -/
def Unbraced (s : List Char) : Prop := ¬ ['\x7b', '\x7b'] <:+: s

theorem Unbraced.no_builtin (h : Unbraced s) : Text.Unmarked builtinMark s [] := by
  rw [unmarked_builtins_iff]
  intro name hname hinfix
  have hbraces : ∀ name ∈ builtinNames, ['\x7b', '\x7b'] <+: name := by decide
  exact h ((hbraces name hname).isInfix.trans hinfix)

theorem Unbraced.expandOnce (h : Unbraced s) (last : Int) :
    expandOnce last s = Text.fill Sum.text (Text.scan sumMark s) := by
  unfold Template.expandOnce
  rw [Text.fill_unmarked _ h.no_builtin]
  rfl

theorem Unbraced.sums (h : Unbraced s) (ht : Text.fill Sum.text (Text.scan sumMark s) = .ok t) :
    Unbraced t := by
  intro hbraces
  obtain ⟨u, hu, hpre, -⟩ := (filled_sums ht).written_before (List.cons_ne_nil _ _) (fun q w hw => by
    rw [Sum.text_eq hw]
    refine ⟨List.cons_ne_nil _ _, fun c hc hmem => ?_⟩
    have hbrace : c = '\x7b' := by simpa using hmem
    rw [hbrace] at hc
    exact not_mem_natDigits _ (by decide) ((List.mem_cons.mp hc).resolve_left (by decide))) hbraces
  exact h (hpre.isInfix.trans hu.isInfix)

/-- What rounds make of the text does not depend on the chat. -/
theorem Unbraced.expand_eq (h : Unbraced s) (rounds : Nat) (last last' : Int) :
    expand rounds last s = expand rounds last' s := by
  induction rounds generalizing s with
  | zero => rfl
  | succ rounds ih =>
    rw [expand, expand, h.expandOnce, h.expandOnce]
    cases ht : Text.fill Sum.text (Text.scan sumMark s) with
    | error e => rfl
    | ok t =>
      dsimp only
      rw [ih (h.sums ht)]

/-- Rounds add up sums, and leave a text without double braces. -/
theorem Unbraced.expand (h : Unbraced s) (ht : expand rounds last s = .ok t) :
    Unbraced t ∧ ReflTransGen AddsUp s t := by
  induction rounds generalizing s with
  | zero =>
    cases ht
    exact ⟨h, .refl⟩
  | succ rounds ih =>
    rw [Template.expand, h.expandOnce] at ht
    cases hu : Text.fill Sum.text (Text.scan sumMark s) with
    | error e =>
      rw [hu] at ht
      cases ht
    | ok u =>
      rw [hu] at ht
      dsimp only at ht
      split at ht
      · cases ht
        exact ⟨h, .refl⟩
      · obtain ⟨hbraces, hrest⟩ := ih (h.sums hu) ht
        exact ⟨hbraces, (reflTransGen_of_filled (filled_sums hu)).trans hrest⟩

theorem unmarked_sums_iff : Text.Unmarked sumMark s [] ↔ ¬ HoldsSum s := by
  constructor
  · rintro h ⟨a, d, ha, hd, hinfix⟩
    exact not_sum_of_unmarked h ha.ne_nil ha.digit hd hinfix
  · intro h b hb _
    rw [List.append_nil]
    cases hmark : sumMark b with
    | none => rfl
    | some found =>
      obtain ⟨q, n⟩ := found
      obtain ⟨hleft, hright, -, v, rfl, -⟩ := sum_of_sumMark hmark
      obtain ⟨d, r, hd⟩ := List.exists_cons_of_ne_nil hright.1
      have hdigit := hright.2 d (hd ▸ List.mem_cons_self)
      have hpre : '@' :: (q.left ++ ['+', d]) <+: '@' :: (q.left ++ '+' :: (q.right ++ v)) :=
        ⟨r ++ v, by simp [hd]⟩
      exact absurd ⟨q.left, d, ⟨hleft.1, hleft.2⟩, hdigit, hpre.isInfix.trans hb.isInfix⟩ h

/-- A text is left by rounds only if there is no sum in it, or no round. -/
theorem Unbraced.expand_self (h : Unbraced s) :
    Template.expand rounds last s = .ok s ↔ rounds = 0 ∨ ¬ HoldsSum s := by
  constructor
  · intro hs
    cases rounds with
    | zero => exact .inl rfl
    | succ rounds =>
      refine .inr fun hsum => ?_
      rw [Template.expand, h.expandOnce] at hs
      cases hu : Text.fill Sum.text (Text.scan sumMark s) with
      | error e =>
        rw [hu] at hs
        cases hs
      | ok u =>
        have hlt : u.count '+' < s.count '+' := (unmarked_or_count_plus_lt hu).resolve_left
          fun hnone => unmarked_sums_iff.mp hnone hsum
        rw [hu] at hs
        dsimp only at hs
        split at hs
        · next hsame =>
          rw [hsame] at hlt
          exact Nat.lt_irrefl _ hlt
        · have hle := count_plus_le ((h.sums hu).expand hs).2
          omega
  · rintro (rfl | hnone)
    · rfl
    · refine expand_settled rounds ?_
      rw [h.expandOnce]
      exact Text.fill_unmarked _ (unmarked_sums_iff.mpr hnone)

/-! ## Templates -/

theorem Unbraced.references (h : Unbraced s) (env : Environment) :
    resolveReferences env s = .ok s := by
  refine Text.fill_unmarked _ fun b hb _ => ?_
  rw [List.append_nil]
  cases hmark : referenceMark b with
  | none => rfl
  | some found =>
    obtain ⟨t, rfl⟩ := exists_open hmark
    exact absurd ((List.prefix_append ['\x7b', '\x7b'] t).isInfix.trans hb.isInfix) h

theorem Unbraced.resolve (env : Environment) (rounds : Int) {template : String}
    (h : Unbraced template.toList) : resolve env rounds template =
      (liftNumeral (Template.expand rounds.toNat env.lastFloor template.toList)).map String.ofList := by
  unfold Template.resolve resolveBuiltins
  cases ht : Template.expand rounds.toNat env.lastFloor template.toList with
  | error e => rfl
  | ok t =>
    change (resolveReferences env t >>= fun s => .ok (String.ofList s)) = _
    rw [(h.expand ht).1.references]
    rfl

/-- A template without double braces is left as it is exactly if there is no round, or no sum is
written in it. Nothing but sums is ever replaced, neither the chat nor the variables are looked at,
and a result there is unless numerals are too long. -/
theorem resolve_plain (env : Environment) (rounds : Int) (template : String)
    (h : Unbraced template.toList) :
    (resolve env rounds template = .ok template ↔ rounds ≤ 0 ∨ ¬ HoldsSum template.toList) ∧
      (∀ out, resolve env rounds template = .ok out →
        ReflTransGen AddsUp template.toList out.toList) ∧
      (∀ env', resolve env' rounds template = resolve env rounds template) ∧
      (template.toList.length ≤ digitLimit → ∃ out, resolve env rounds template = .ok out) := by
  have hplain (env : Environment) := h.resolve env rounds
  have hok (out : String) : resolve env rounds template = .ok out ↔
      Template.expand rounds.toNat env.lastFloor template.toList = .ok out.toList := by
    rw [hplain]
    cases Template.expand rounds.toNat env.lastFloor template.toList with
    | error e => exact ⟨nofun, nofun⟩
    | ok t =>
      change Except.ok (String.ofList t) = .ok out ↔ _
      rw [Except.ok.injEq, Except.ok.injEq]
      exact ⟨fun heq => by rw [← heq, String.toList_ofList], fun heq => by
        rw [heq, String.ofList_toList]⟩
  refine ⟨?_, fun out hout => (h.expand ((hok out).mp hout)).2, fun env' => ?_, fun hshort => ?_⟩
  · have hnone : rounds.toNat = 0 ↔ rounds ≤ 0 := by omega
    rw [hok, h.expand_self, hnone]
  · rw [hplain, hplain, h.expand_eq _ env'.lastFloor env.lastFloor]
  · -- the floor is of no account, so that it may be zero
    have hlast : (0 : Int).natAbs < 10 ^ 16 := by decide
    obtain ⟨t, ht, -⟩ := expand_short rounds.toNat hlast hshort
    refine ⟨String.ofList t, (hok _).mpr ?_⟩
    rw [String.toList_ofList, h.expand_eq _ env.lastFloor 0]
    exact ht

/-- A sum behind an at sign is added up, also where no range is meant. -/
theorem resolve_plain_address :
    resolve ⟨9, [], ["chat"], standardFloorFormat, fun _ => none⟩ 10 "write to a@3+2 today" ≠
        .ok "write to a@3+2 today" ∧
      resolve ⟨9, [], ["chat"], standardFloorFormat, fun _ => none⟩ 10 "3+2 is 5" =
        .ok "3+2 is 5" := by
  have hunbraced (s : List Char) (hs : '\x7b' ∉ s) : Unbraced s := fun hbraces =>
    hs (hbraces.subset List.mem_cons_self)
  constructor
  · rw [Ne, (resolve_plain _ 10 "write to a@3+2 today" (hunbraced _ (by decide))).1, not_or, not_not]
    have hdigits : Digits ['3'] := ⟨by decide, List.forall_mem_singleton.mpr (by decide)⟩
    exact ⟨by decide, ['3'], '2', hdigits, by decide, by decide⟩
  · refine ((resolve_plain _ 10 "3+2 is 5" (hunbraced _ (by decide))).1).mpr (.inr ?_)
    exact unmarked_sums_iff.mp (unmarked_sums (.inl (by decide)))

end TagLedger.Template
