import TagLedger.Number.Shortest
import TagLedger.Suite.Basic
import TagLedger.Text.Numeral
import TagLedger.Transcript.Message

/-!
# Floors that a rule selects

`floors` lists the floors that a rule takes of a chat of a given length, in increasing order.
`problem?` says why a rule is no use, by itself or for that length.

    r.problem? (some (.whole n)) = none → r.floors n ≠ []
-/

namespace TagLedger

/-- The integers from `a` to `b`. -/
def interval (a b : Int) : List Int :=
  (List.range (b - a + 1).toNat).map fun (k : Nat) => a + (k : Int)

/-- The integers `a`, `a + step`, ... up to `b`, for a positive step. -/
def intervalBy (a b step : Int) : List Int :=
  (List.range ((b - a + step) / step).toNat).map fun (k : Nat) => a + (k : Int) * step

/-- The number if it is there and not zero, or a default. -/
def nonzeroOr (n : Option Int) (default : Int) : Int :=
  match n with
  | some k => if k = 0 then default else k
  | none => default

/-- The length of a chat as it is told: a number of floors, or a truth value or a number with a point
in its place. -/
inductive ChatLength where
  | whole (n : Int)
  | truth (b : Bool)
  | number (x : Binary64)
  deriving DecidableEq

namespace ChatLength

instance : Coe Int ChatLength := ⟨whole⟩

def text : ChatLength → String
  | whole n => Text.intText n
  | truth b => if b then "True" else "False"
  | number x => Number.text .plain x

/-- Strictly less than a floor. -/
def lt (length : ChatLength) (floor : Int) : Bool :=
  match length with
  | whole n => n < floor
  | truth b => (if b then 1 else 0) < floor
  | number (.finite x) => x.value.1 < floor * (x.value.2 : Int)
  | number (.infinite negative) => negative
  | number .nan => false

/-- At most a floor. -/
def le (length : ChatLength) (floor : Int) : Bool :=
  match length with
  | whole n => n ≤ floor
  | truth b => (if b then 1 else 0) ≤ floor
  | number (.finite x) => x.value.1 ≤ floor * (x.value.2 : Int)
  | number (.infinite negative) => negative
  | number .nan => false

end ChatLength

/-- The message on a floor. -/
def messageAt? (messages : List Message) (floor : Int) : Option Message :=
  if 1 ≤ floor then messages[(floor - 1).toNat]? else none

namespace RangeRule

/-! ## Floors -/

/-- A percentage of a chat's length, rounded half up, at least one. -/
def share (percent : Binary64) (length : Int) : Int :=
  let hundred := Binary64.ofNat 100
  let x := ((Binary64.ofInt length).mul percent).div hundred
  max 1 (((x.add (Binary64.ofDecimal false 5 (-1))).truncate?).getD 0)

/-- The percentage between zero and one hundred; thirty if there is none. -/
def clampedPercent (r : RangeRule) : Binary64 :=
  let hundred := Binary64.ofNat 100
  let zero := Binary64.ofNat 0
  let p := match r.percent with
    | some p => if p.isZero then Binary64.ofNat 30 else p
    | none => Binary64.ofNat 30
  let low := if p.lt hundred then p else hundred
  if zero.lt low then low else zero

/-- The floors that the rule takes of a chat with `length` floors. -/
def floors (r : RangeRule) (length : Int) : List Int :=
  if length ≤ 0 then []
  else
    match r.kind with
    | .fixed => interval (max 1 (nonzeroOr r.start 1)) (min length (nonzeroOr r.stop length))
    | .latest =>
      let count := min (nonzeroOr r.count 20) length
      interval (max 1 (length - count + 1)) length
    | .relative =>
      let last := length - nonzeroOr r.skip 0
      if last < 1 then [] else interval (max 1 (last - nonzeroOr r.count 20 + 1)) last
    | .interval => intervalBy (max 1 (nonzeroOr r.start 1)) length (max 1 (nonzeroOr r.step 5))
    | .percentage =>
      let count := share r.clampedPercent length
      match r.side with
      | .start => interval 1 (min count length)
      | .tail => interval (max 1 (length - count + 1)) length
    | .exclude =>
      let a := nonzeroOr r.excludeStart 1
      let b := nonzeroOr r.excludeStop a
      (interval 1 length).filter fun i => i < a || b < i
    | .unknown _ => []

/-- The floors of a rule, on request without those written by the user. -/
def select (r : RangeRule) (length : Int) (excludeUser : Bool) (messages : List Message) :
    List Int :=
  let floors := r.floors length
  if excludeUser && !messages.isEmpty then
    floors.filter fun f =>
      match messageAt? messages f with
      | some m => !m.isUser
      | none => false
  else floors

/-! ## Problems -/

/-- Why a rule cannot be used. -/
inductive Problem where
  | noMessages
  | startTooLow
  | startTooHigh (length : ChatLength)
  | stopTooHigh (length : ChatLength)
  | startAfterStop
  | countTooLow
  | skipNegative
  | skipTooHigh (length : ChatLength)
  | stepTooLow
  | badPercent
  | excludeStartTooLow
  | excludeReversed
  | excludesAll
  | unknownKind (name : String)
  deriving DecidableEq

def Problem.message : Problem → String
  | .noMessages => "The chat has no messages yet"
  | .startTooLow => "Start floor must be greater than 0"
  | .startTooHigh n => "Start floor is out of range, the last floor is " ++ n.text
  | .stopTooHigh n => "End floor is out of range, the last floor is " ++ n.text
  | .startAfterStop => "Start floor cannot be after end floor"
  | .countTooLow => "Floor count must be greater than 0"
  | .skipNegative => "Skip count cannot be negative"
  | .skipTooHigh n => "Skip count is out of range, the last floor is " ++ n.text
  | .stepTooLow => "Step must be greater than 0"
  | .badPercent => "Percentage must be between 1 and 100"
  | .excludeStartTooLow => "Excluded start floor must be greater than 0"
  | .excludeReversed => "Excluded start floor cannot be after excluded end floor"
  | .excludesAll => "Cannot exclude every floor"
  | .unknownKind name => "Unknown range type: " ++ name

/-- The first test that fails. -/
def firstFailing (tests : List (Bool × Problem)) : Option Problem :=
  (tests.find? (·.1)).map (·.2)

/-- Tests that need the length of the chat hold back while it is unknown. -/
def beyond (length : Option ChatLength) (p : ChatLength → Bool) : Bool :=
  match length with
  | some n => p n
  | none => false

/-- Why the rule is no use, for a chat of a given length if one is given. -/
def problem? (r : RangeRule) (length : Option ChatLength) : Option Problem :=
  let n := length.getD (0 : Int)
  if beyond length (·.le 0) then some .noMessages
  else
    match r.kind with
    | .fixed =>
      let start := r.start.getD 1
      let stop : Option ChatLength := match r.stop with
        | some s => if s = 0 then length else some s
        | none => length
      firstFailing [(start < 1, .startTooLow), (beyond length (·.lt start), .startTooHigh n),
        (beyond length fun n => r.stop.any fun s => s ≠ 0 && n.lt s, .stopTooHigh n),
        (beyond stop (·.lt start), .startAfterStop)]
    | .latest => firstFailing [(r.count.getD 20 ≤ 0, .countTooLow)]
    | .relative =>
      let skip := r.skip.getD 0
      firstFailing [(skip < 0, .skipNegative), (r.count.getD 20 ≤ 0, .countTooLow),
        (beyond length (·.le skip), .skipTooHigh n)]
    | .interval =>
      let start := r.start.getD 1
      firstFailing [(start < 1, .startTooLow), (beyond length (·.lt start), .startTooHigh n),
        (r.step.getD 5 ≤ 0, .stepTooLow)]
    | .percentage =>
      let p := r.percent.getD (Binary64.ofNat 30)
      firstFailing [(p.le (Binary64.ofNat 0) || (Binary64.ofNat 100).lt p, .badPercent)]
    | .exclude =>
      let start := r.excludeStart.getD 1
      let stop := nonzeroOr r.excludeStop start
      firstFailing [(start < 1, .excludeStartTooLow), (stop < start, .excludeReversed),
        (beyond length fun n => start == 1 && n.le stop, .excludesAll)]
    | .unknown name => some (.unknownKind name)

end RangeRule

/-! ## Preview -/

/-- A short description of a selection of floors. -/
def preview (floors : List Int) : String :=
  match floors with
  | [] => "(no floors selected)"
  | f :: r =>
    if floors.length ≤ 10 then
      "Floors " ++ String.intercalate ", " (floors.map Text.intText)
    else
      let low := r.foldl min f
      let high := r.foldl max f
      let span := Text.intText low ++ "-" ++ Text.intText high
      if high - low + 1 = floors.length then
        "Floors " ++ span ++ " (" ++ Text.natText floors.length ++ " total)"
      else Text.natText floors.length ++ " floors within " ++ span

end TagLedger
