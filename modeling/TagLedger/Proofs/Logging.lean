import Mathlib.Data.List.DropRight
import TagLedger.Analysis.CallLog
import TagLedger.Proofs.Fields

/-!
# Chats that share a log

A log has a folder for each chat, under the name of the chat in safe characters. What is noted for a
chat is read again, in order, until its log is cleared. But two chats may have one safe name, and then
each reads what is noted for the other, and clearing the log of one clears that of the other. The
folder of the chat without a name holds all others, so clearing its log clears every log.

    (l.run requests).read d = what was noted for chats of d's folder since that folder was removed
    every request for c leaves the log of d alone  ↔  Apart c d                         (logs_exact)
-/

namespace TagLedger.CallLog

open Store (safeName)

variable {l : CallLog} {c d : String} {r : CallRecord}

/-! ## Requests -/

/-- What is asked of a log. -/
inductive Request where
  | note (chat : String) (r : CallRecord)
  | clear (chat : String)

namespace Request

def chat : Request → String
  | .note chat _ => chat
  | .clear chat => chat

def perform (l : CallLog) : Request → CallLog
  | .note chat r => l.note chat r
  | .clear chat => (l.clear chat).2

/-- The record that is noted, if it is for one of these chats. -/
def record? (ours : String → Bool) : Request → Option CallRecord
  | .note chat r => if ours chat then some r else none
  | .clear _ => none

/-- The log of one of these chats is cleared. -/
def clears (ours : String → Bool) : Request → Bool
  | .note _ _ => false
  | .clear chat => ours chat

end Request

def run (l : CallLog) (requests : List Request) : CallLog := requests.foldl Request.perform l

/-- What was noted for the chats `ours` since the log of one of `clearing` was last cleared, and
before that what was there at first if none was. -/
def notedSince (ours clearing : String → Bool) (old : List CallRecord) (requests : List Request) :
    List CallRecord :=
  (if requests.any (·.clears clearing) then [] else old) ++
    (requests.rtakeWhile fun x => !x.clears clearing).filterMap (·.record? ours)

/-- What was noted for a chat since its log was last cleared. -/
def notedFor (chat : String) (old : List CallRecord) (requests : List Request) : List CallRecord :=
  notedSince (· == chat) (· == chat) old requests

/-- What is asked of the log of `c` leaves that of `d` alone: they have folders of their own, and
that of `c` does not hold the other. -/
def Apart (c d : String) : Prop := safeName c ≠ safeName d ∧ c ≠ ""

/-- The log is switched on, and no file is in the way of a folder. -/
structure Usable (l : CallLog) : Prop where
  enabled : l.enabled = true
  free : ∀ p ∈ l.places, p.2 ≠ .inTheWay

theorem Request.clears_congr {ours ours' : String → Bool} {x : Request}
    (h : ours x.chat = ours' x.chat) : x.clears ours = x.clears ours' :=
  match x, h with
  | .note _ _, _ => rfl
  | .clear _, h => h

theorem Request.record?_congr {ours ours' : String → Bool} {x : Request}
    (h : ours x.chat = ours' x.chat) : x.record? ours = x.record? ours' :=
  match x, h with
  | .note _ r, h => congrArg (fun b : Bool => if b then some r else none) h
  | .clear _, _ => rfl

/-! ## One request -/

theorem safeName_ne (hc : c ≠ "") : safeName c ≠ safeName "" := fun hsame => by
  have hempty : safeName c = "" := hsame
  rw [safeName, ← String.toList_eq_nil_iff, String.toList_ofList, List.map_eq_nil_iff,
    String.toList_eq_nil_iff] at hempty
  exact hc hempty

/-- The records in a place. -/
def records : Option LogPlace → List CallRecord
  | some (.folder rs) => rs
  | _ => []

theorem read_of_name (hd : d ≠ "") : l.read d = records (Json.find? l.places (safeName d)) := by
  rw [read, if_neg hd]
  rfl

theorem Usable.not_inTheWay (h : Usable l) (name : String) :
    Json.find? l.places name ≠ some .inTheWay := fun hname => h.free _ (Json.mem_of_find? hname) rfl

theorem Usable.create (root : String) : Usable (create root true) := ⟨rfl, nofun⟩

theorem Usable.note (h : Usable l) (c : String) (r : CallRecord) : Usable (l.note c r) := by
  unfold CallLog.note
  rw [h.enabled]
  split
  · exact h
  · split
    · exact ⟨rfl, h.free⟩
    · split
      · exact h
      · refine ⟨rfl, fun p hp => ?_⟩
        rcases Json.mem_insert hp with rfl | hp
        · exact nofun
        · exact h.free p hp

theorem Usable.clear (h : Usable l) (c : String) : Usable (l.clear c).2 := by
  unfold CallLog.clear
  split
  · exact ⟨h.enabled, nofun⟩
  · split
    · exact ⟨h.enabled, fun p hp => h.free p (List.mem_of_mem_filter hp)⟩
    · exact h
    · exact h

theorem Usable.perform (h : Usable l) (x : Request) : Usable (x.perform l) :=
  match x with
  | .note c r => h.note c r
  | .clear c => h.clear c

/-- A record that is noted is read by the chats of its folder. -/
theorem read_note (h : Usable l) (c d : String) (r : CallRecord) :
    (l.note c r).read d = if safeName c = safeName d then l.read d ++ [r] else l.read d := by
  unfold note
  rw [h.enabled, if_neg (by decide)]
  by_cases hc : c = ""
  · subst hc
    rw [if_pos rfl]
    by_cases hd : d = ""
    · subst hd
      rfl
    · rw [if_neg (safeName_ne hd).symm, read_of_name hd, read_of_name hd]
  · rw [if_neg hc]
    split
    · next hway => exact absurd hway (h.not_inTheWay _)
    · by_cases hd : d = ""
      · subst hd
        rw [if_neg (safeName_ne hc)]
        rfl
      · rw [read_of_name hd, Json.find?_insert, read_of_name hc, read_of_name hd]
        split
        · next hsame =>
          rw [hsame]
          rfl
        · rfl

/-- Clearing a log removes a folder, and all that is in it. -/
theorem read_clear (h : Usable l) (c d : String) :
    (l.clear c).2.read d = if c = "" ∨ safeName c = safeName d then [] else l.read d := by
  unfold clear
  by_cases hc : c = ""
  · rw [if_pos hc, if_pos (.inl hc)]
    by_cases hd : d = ""
    · subst hd
      rfl
    · rw [read_of_name hd]
      rfl
  · rw [if_neg hc, if_congr (or_iff_right hc) rfl rfl]
    by_cases hd : d = ""
    · subst hd
      rw [if_neg (safeName_ne hc)]
      split <;> rfl
    · rw [read_of_name hd]
      split
      · rw [read_of_name hd, Json.find?_filter (fun k => k != safeName c)]
        by_cases hsame : safeName c = safeName d
        · rw [if_pos hsame, if_neg (by simp [hsame])]
          rfl
        · rw [if_neg hsame, if_pos (bne_iff_ne.mpr (Ne.symm hsame))]
      · next hway => exact absurd hway (h.not_inTheWay _)
      · next hnone =>
        rw [read_of_name hd]
        split
        · next hsame =>
          rw [← hsame, hnone]
          rfl
        · rfl

/-! ## A run of requests -/

/-- The chats of one folder. -/
def sharing (d : String) (c : String) : Bool := safeName c == safeName d

/-- The chats whose folder is, or holds, the one of `d`. -/
def reaching (d : String) (c : String) : Bool := c == "" || safeName c == safeName d

theorem run_concat (l : CallLog) (requests : List Request) (x : Request) :
    l.run (requests ++ [x]) = x.perform (l.run requests) := List.foldl_append

theorem Usable.run (h : Usable l) (requests : List Request) : Usable (l.run requests) :=
  List.foldlRecOn (motive := Usable) requests _ h fun _ hl x _ => hl.perform x

theorem notedSince_concat (ours clearing : String → Bool) (old : List CallRecord)
    (requests : List Request) (x : Request) :
    notedSince ours clearing old (requests ++ [x]) =
      if x.clears clearing then []
      else notedSince ours clearing old requests ++ (x.record? ours).toList := by
  unfold notedSince
  rw [List.any_append, List.any_cons, List.any_nil, Bool.or_false, List.rtakeWhile_concat]
  cases hx : x.clears clearing with
  | true => simp
  | false => cases hrecord : x.record? ours <;> simp [hrecord]

theorem read_run (h : Usable l) (requests : List Request) (d : String) :
    (l.run requests).read d = notedSince (sharing d) (reaching d) (l.read d) requests := by
  induction requests using List.reverseRecOn with
  | nil => exact (List.append_nil _).symm
  | append_singleton requests x ih =>
    rw [run_concat, notedSince_concat, ← ih]
    cases x with
    | note c r =>
      refine (read_note (h.run requests) c d r).trans ?_
      by_cases hsame : safeName c = safeName d <;> simp [Request.clears, Request.record?, sharing, hsame]
    | clear c =>
      refine (read_clear (h.run requests) c d).trans ?_
      simp [Request.clears, Request.record?, reaching]

theorem notedSince_congr {ours ours' clearing clearing' : String → Bool} {requests : List Request}
    (hours : ∀ x ∈ requests, ours x.chat = ours' x.chat)
    (hclearing : ∀ x ∈ requests, clearing x.chat = clearing' x.chat) (old : List CallRecord) :
    notedSince ours clearing old requests = notedSince ours' clearing' old requests := by
  induction requests using List.reverseRecOn with
  | nil => rfl
  | append_singleton requests x ih =>
    obtain ⟨hours, hx⟩ := List.forall_mem_append.mp hours
    obtain ⟨hclearing, hx'⟩ := List.forall_mem_append.mp hclearing
    rw [notedSince_concat, notedSince_concat, ih hours hclearing,
      Request.record?_congr (hx x List.mem_cons_self),
      Request.clears_congr (hx' x List.mem_cons_self)]

/-! ## Chats that are apart -/

/-- As long as all other chats are apart from a chat, it reads what was noted for it. -/
theorem read_run_apart (h : Usable l) {requests : List Request}
    (hapart : ∀ x ∈ requests, x.chat = d ∨ Apart x.chat d) :
    (l.run requests).read d = notedFor d (l.read d) requests := by
  rw [read_run h]
  refine notedSince_congr (fun x hx => ?_) (fun x hx => ?_) _ <;>
    rcases hapart x hx with hsame | ⟨hname, hempty⟩
  · simp [sharing, hsame]
  · rw [sharing, beq_false_of_ne hname, beq_false_of_ne (ne_of_apply_ne safeName hname)]
  · simp [reaching, hsame]
  · rw [reaching, beq_false_of_ne hname, beq_false_of_ne hempty,
      beq_false_of_ne (ne_of_apply_ne safeName hname)]
    rfl

/-- Two chats that are not apart: what is noted for one is read by the other, or gone when the log of
the other is cleared. -/
theorem exists_read_ne (h : Usable l) (hne : c ≠ d) (hmixed : ¬ Apart c d) (r : CallRecord) :
    ∃ requests : List Request, (∀ x ∈ requests, x.chat = c ∨ x.chat = d) ∧
      (l.run requests).read d ≠ notedFor d (l.read d) requests := by
  by_cases hname : safeName c = safeName d
  · refine ⟨[.note c r], by simp [Request.chat], ?_⟩
    rw [read_run h]
    simp [notedFor, notedSince, Request.clears, Request.record?, sharing, hname, hne,
      List.rtakeWhile]
  · have hempty : c = "" := not_not.mp fun hc => hmixed ⟨hname, hc⟩
    refine ⟨[.note d r, .clear c], by simp [Request.chat], ?_⟩
    rw [read_run h]
    simp [notedFor, notedSince, Request.clears, Request.record?, reaching, hempty, List.rtakeWhile,
      hempty ▸ hne]

/-- What a chat reads after any requests. -/
structure Reads (l : CallLog) (d : String) : Prop where
  /-- What was noted for the chats of its folder since that was last removed. -/
  shared : ∀ requests, (l.run requests).read d =
    notedSince (sharing d) (reaching d) (l.read d) requests
  /-- What was noted for it since its log was last cleared, if all other chats are apart from it. -/
  own : ∀ requests : List Request, (∀ x ∈ requests, x.chat = d ∨ Apart x.chat d) →
    (l.run requests).read d = notedFor d (l.read d) requests
  /-- Only then does another chat never make a difference. -/
  apart_iff : ∀ c, c ≠ d → ((∀ requests : List Request, (∀ x ∈ requests, x.chat = c ∨ x.chat = d) →
    (l.run requests).read d = notedFor d (l.read d) requests) ↔ Apart c d)

/-- In a log that is switched on and where nothing is in the way, a chat reads exactly what was noted
for it since its log was last cleared, if and only if all other chats have another safe name and a
name at all; otherwise it reads what was noted for the chats with its safe name since one of them, or
the chat without a name, was last cleared. -/
theorem logs_exact (h : Usable l) (d : String) : Reads l d where
  shared := fun requests => read_run h requests d
  own := fun _ hapart => read_run_apart h hapart
  apart_iff := fun c hne => by
    refine ⟨fun hall => ?_, fun hapart requests hchats => ?_⟩
    · by_contra hmixed
      obtain ⟨requests, hchats, hread⟩ :=
        exists_read_ne h hne hmixed ⟨"", "", "", "", "", "", none, none⟩
      exact hread (hall requests hchats)
    · refine read_run_apart h fun x hx => (hchats x hx).symm.imp id ?_
      rintro rfl
      exact hapart

/-- Two chats with one safe name, the chat without a name, and a chat that is apart from another. -/
theorem logs_exact_slash : ∃ (l : CallLog) (r : CallRecord), Usable l ∧
    (l.run [.note "a/b" r]).read "a_b" = [r] ∧ notedFor "a_b" (l.read "a_b") [.note "a/b" r] = [] ∧
      (l.run [.note "c" r, .clear ""]).read "c" = [] ∧
      notedFor "c" (l.read "c") [.note "c" r, .clear ""] = [r] ∧
      (l.run [.note "c" r, .note "a/b" r, .clear "a_b"]).read "c" = [r] := by
  have h := Usable.create "logs"
  exact ⟨create "logs" true, ⟨"analysis", "s", "Daily", "m", "1-3", "Go.", some "Done.", none⟩, h,
    (logs_exact h "a_b").shared _, rfl, (logs_exact h "c").shared _, rfl,
    (logs_exact h "c").own _ (by simp [Request.chat, Apart]; decide)⟩

end TagLedger.CallLog
