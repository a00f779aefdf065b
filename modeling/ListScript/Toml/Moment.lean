import ListScript.Text.Decimal

/-!
# Points in time in TOML

A date is written `yyyy-mm-dd` and a time of day `hh:mm:ss`, with an optional fraction of the second. A time of day
that follows a date may end in an offset from universal time.
-/
namespace ListScript.Toml.Moment

/-- A number written with the given number of digits. -/
def fixed? (width : Nat) (cs : List Char) : Option Nat :=
  if cs.length = width then Decimal.toNat? cs else none

def isLeap (year : Nat) : Bool := year % 4 == 0 && (year % 100 != 0 || year % 400 == 0)

def daysIn (year month : Nat) : Nat :=
  if month = 2 then if isLeap year then 29 else 28
  else if month = 4 ∨ month = 6 ∨ month = 9 ∨ month = 11 then 30
  else 31

def isDate (cs : List Char) : Bool :=
  match (cs.splitOn '-') with
  | [y, m, d] =>
    match fixed? 4 y, fixed? 2 m, fixed? 2 d with
    | some year, some month, some day =>
      1 ≤ month && month ≤ 12 && 1 ≤ day && day ≤ daysIn year month
    | _, _, _ => false
  | _ => false

/-- Seconds may be 60, for a leap second, and may have a fraction. -/
def isSecond (cs : List Char) : Bool :=
  match cs.splitOn '.' with
  | [s] => (fixed? 2 s).any (· ≤ 60)
  | [s, fraction] => (fixed? 2 s).any (· ≤ 60) && (Decimal.toNat? fraction).isSome
  | _ => false

def isTime (cs : List Char) : Bool :=
  match cs.splitOn ':' with
  | [h, m, s] => (fixed? 2 h).any (· ≤ 23) && (fixed? 2 m).any (· ≤ 59) && isSecond s
  | _ => false

def isOffset : List Char → Bool
  | ['Z'] | ['z'] => true
  | c :: cs =>
    (c == '+' || c == '-') &&
      match cs.splitOn ':' with
      | [h, m] => (fixed? 2 h).any (· ≤ 23) && (fixed? 2 m).any (· ≤ 59)
      | _ => false
  | [] => false

/-- A time of day, with an offset or without. -/
def isOffsetTime (cs : List Char) : Bool :=
  let isClock (c : Char) : Bool := c.isDigit || c == ':' || c == '.'
  let offset := cs.dropWhile isClock
  isTime (cs.takeWhile isClock) && (offset.isEmpty || isOffset offset)

/-- A date, a time of day, or both with a letter in between. -/
def isMoment (cs : List Char) : Bool :=
  isDate cs || isTime cs ||
    (isDate (cs.take 10) &&
      match cs.drop 10 with
      | c :: time => (c == 'T' || c == 't') && isOffsetTime time
      | [] => false)

end ListScript.Toml.Moment
