import Scratchpad.Number.Digits
import Scratchpad.Number.Powers
import Scratchpad.Toml.Flaw

/-!
# Dates and times

A moment is a date, a time, or both, and then perhaps with the distance from universal time. Seconds may
be left out, and their fraction counts up to nine digits.

## Main definitions

* `Date`, `Time`, `Offset`, `Moment`: what can be written.
* `Moment.ofText`: reads a moment, or tells which part of it is wrong.
* `Moment.text`: the one way to write it.
-/

namespace Scratchpad.Toml

structure Date where
  year : Nat
  month : Nat
  day : Nat
deriving DecidableEq, Inhabited, Repr

structure Time where
  hour : Nat
  minute : Nat
  second : Option Nat
  /-- The fraction of a second, in parts of a thousand million. -/
  fraction : Option Nat
deriving DecidableEq, Inhabited, Repr

/-- How far a clock is ahead of universal time. -/
inductive Offset where
  | universal
  | minutes (ahead : Int)
deriving DecidableEq, Inhabited, Repr

/-- A date, a time, or both. -/
structure Moment where
  date : Option Date
  time : Option Time
  offset : Option Offset
deriving DecidableEq, Inhabited, Repr

namespace Moment

/-! ## Reading -/

/-- What a moment is written with. -/
inductive Sign where
  | digits (ds : List Char)
  | mark (c : Char)
  /-- Everything from a character on that has no place in a moment. -/
  | foreign
deriving DecidableEq, Inhabited, Repr

/-- The signs of a text. Letters count in both cases. -/
def signs : (run : List Char) → List Char → List Sign
  | run, c :: cs =>
    if c.isDigit then signs (run ++ [c]) cs
    else
      let rest :=
        if "-:.+ ".toList.contains c then .mark c :: signs [] cs
        else if c = 'T' ∨ c = 't' then .mark 'T' :: signs [] cs
        else if c = 'Z' ∨ c = 'z' then .mark 'Z' :: signs [] cs
        else [.foreign]
      if run.isEmpty then rest else .digits run :: rest
  | run, [] => if run.isEmpty then [] else [.digits run]

/-- Reads from signs. -/
abbrev Reader (α : Type) := StateT (List Sign) (Except Flaw) α

variable {α : Type}

/-- A part is wrong. -/
def wrong (part expected : String) : Reader α := throw (.moment part (some expected))

/-- Takes digits. -/
def digits (part expected : String) : Reader (List Char) := do
  match ← get with
  | .digits ds :: rest => do set rest; return ds
  | _ => wrong part expected

/-- Takes a mark. -/
def mark (c : Char) (part expected : String) : Reader Unit := do
  match ← get with
  | .mark d :: rest => if c = d then set rest else wrong part expected
  | _ => wrong part expected

/-- Whether the next sign is a mark, which is then taken. -/
def takesMark (c : Char) : Reader Bool := do
  match ← get with
  | .mark d :: rest => if c = d then do set rest; return true else return false
  | _ => return false

/-- Digits have to be as many as expected. -/
def counted (n : Nat) (ds : List Char) (part expected : String) : Reader Unit :=
  if ds.length = n then return else wrong part expected

/-- The number of days of a month. -/
def daysOf (year month : Nat) : Nat :=
  if month = 2 then
    if year % 4 = 0 ∧ (year % 100 ≠ 0 ∨ year % 400 = 0) then 29 else 28
  else if month = 4 ∨ month = 6 ∨ month = 9 ∨ month = 11 then 30
  else 31

/-- What separates a year from a month. -/
def separators : String := inAccents "-" ++ " (YYYY-MM) or " ++ inAccents ":" ++ " (HH:MM)"

/-- A date, of which the year and the mark behind it are taken already. -/
def dateFrom (year : List Char) : Reader Date := do
  let month ← digits "date" "month"
  mark '-' "date" (inAccents "-" ++ " (MM-DD)")
  let day ← digits "date" "day"
  counted 4 year "date" "a four-digit year (YYYY)"
  counted 2 month "date" "a two-digit month (MM)"
  counted 2 day "date" "a two-digit day (DD)"
  let d : Date := ⟨Number.natOfDigits year, Number.natOfDigits month, Number.natOfDigits day⟩
  if d.month < 1 ∨ 12 < d.month then wrong "date" "month between 01 and 12"
  else
    let days := daysOf d.year d.month
    if d.day < 1 ∨ days < d.day then wrong "date" ("day between 01 and " ++ toString days)
    else return d

/-- A fraction of a second in parts of a thousand million. -/
def fractionOf (ds : List Char) : Nat :=
  let kept := ds.take 9
  Number.natOfDigits kept * Number.tenTo (9 - kept.length)

/-- A time. -/
def clockTime : Reader Time := do
  let hour ← digits "time" "hour"
  mark ':' "time" (inAccents ":" ++ " (HH:MM)")
  let minute ← digits "time" "minute"
  let second ← if ← takesMark ':' then some <$> digits "time" "second" else pure none
  let fraction ←
    if second.isSome then
      if ← takesMark '.' then some <$> digits "time" "nanosecond" else pure none
    else pure none
  counted 2 hour "time" "a two-digit hour (HH)"
  counted 2 minute "time" "a two-digit minute (MM)"
  if let some s := second then counted 2 s "time" "a two-digit second (SS)"
  let t : Time := ⟨Number.natOfDigits hour, Number.natOfDigits minute, second.map Number.natOfDigits,
    fraction.map fractionOf⟩
  if 23 < t.hour then wrong "time" "hour between 00 and 23"
  else if 59 < t.minute then wrong "time" "minute between 00 and 59"
  else if t.second.any (60 < ·) then wrong "time" "second between 00 and 60"
  else return t

/-- The distance from universal time, behind its sign. -/
def offsetFrom (isAhead : Bool) : Reader Offset := do
  let hours ← digits "offset" "hour"
  mark ':' "offset" (inAccents ":" ++ " (HH:MM)")
  let minutes ← digits "offset" "minute"
  counted 2 hours "offset" "a two-digit hour (HH)"
  counted 2 minutes "offset" "a two-digit minute (MM)"
  let (h, m) := (Number.natOfDigits hours, Number.natOfDigits minutes)
  if 23 < h then wrong "offset" "hours between 00 and 23"
  else if 59 < m then wrong "offset" "minutes between 00 and 59"
  else
    let distance : Int := (h * 60 + m : Nat)
    return .minutes (if isAhead then distance else -distance)

/-- The distance from universal time, if one follows. -/
def offset? : Reader (Option Offset) := do
  match ← get with
  | [] => return none
  | .mark 'Z' :: rest => do set rest; return some .universal
  | .mark '+' :: rest => do set rest; some <$> offsetFrom true
  | .mark '-' :: rest => do set rest; some <$> offsetFrom false
  | _ => wrong "offset" (inAccents "Z" ++ ", +OFFSET, -OFFSET")

/-- Everything has to be taken. -/
def finished : Reader Unit := do
  if !(← get).isEmpty then throw (.moment "datetime" none)

/-- A moment. -/
def moment : Reader Moment := do
  let start ← get
  let first ← digits "datetime" "year or hour"
  match ← get with
  | .mark '-' :: rest =>
    set rest
    let d ← dateFrom first
    match ← get with
    | [] => return ⟨some d, none, none⟩
    | .mark 'T' :: rest | .mark ' ' :: rest =>
      set rest
      let t ← clockTime
      let o ← offset?
      finished
      return ⟨some d, some t, o⟩
    | _ => wrong "date-time" (inAccents "T" ++ " between date and time")
  | .mark ':' :: _ =>
    set start
    let t ← clockTime
    finished
    return ⟨none, some t, none⟩
  | _ => wrong "datetime" separators

/-- The moment that a text stands for. -/
def ofText (cs : List Char) : Except Flaw Moment := moment.run' (signs [] cs)

/-! ## Writing -/

/-- A number with at least so many digits. -/
def padded (width n : Nat) : String :=
  let ds := Nat.toDigits 10 n
  String.ofList (List.replicate (width - ds.length) '0' ++ ds)

def dateText (d : Date) : String :=
  padded 4 d.year ++ "-" ++ padded 2 d.month ++ "-" ++ padded 2 d.day

/-- A fraction of a second, without zeros at its end. -/
def fractionText (n : Nat) : String :=
  let ds := (padded 9 n).toList
  "." ++ String.ofList (ds.reverse.dropWhile (· == '0')).reverse

def timeText (t : Time) : String :=
  padded 2 t.hour ++ ":" ++ padded 2 t.minute ++
    (match t.second with
      | none => ""
      | some s => ":" ++ padded 2 s) ++
    (match t.fraction with
      | none => ""
      | some n => fractionText n)

def offsetText : Offset → String
  | .universal => "Z"
  | .minutes ahead =>
    (if ahead < 0 then "-" else "+") ++ padded 2 (ahead.natAbs / 60) ++ ":" ++ padded 2 (ahead.natAbs % 60)

/-- The one way to write a moment. -/
def text (m : Moment) : String :=
  ((m.date.map dateText).getD "") ++
    (if m.date.isSome && m.time.isSome then "T" else "") ++
    ((m.time.map timeText).getD "") ++ ((m.offset.map offsetText).getD "")

end Moment

end Scratchpad.Toml
