import PeerMesh.Text.Reader

/-! Dates and times of a TOML document: how they are read, and the one form in which each of them
is shown. Between a date and a time may stand a space or a small letter where the shown form has a
`T`, and a fraction of a second may have any number of digits, of which nine count. -/

namespace PeerMesh.Toml
set_option autoImplicit false
open Text (Reader)
open Text.Reader (char ofDigits)

structure Date where
  year : Nat
  month : Nat
  day : Nat
  deriving DecidableEq

structure Time where
  hour : Nat
  minute : Nat
  second : Nat
  nanosecond : Nat
  deriving DecidableEq

/-- How far the time of a place is ahead of the time of the world. -/
inductive Offset
  | utc
  | minutes (isBehind : Bool) (n : Nat)
  deriving DecidableEq

inductive Moment
  | date (d : Date)
  | time (t : Time)
  | instant (d : Date) (t : Time) (offset : Option Offset)
  deriving DecidableEq

/-! ### The shown form -/

/-- The digits of a number, with zeros in front up to a width. -/
def padded (width n : Nat) : List Char :=
  let digits := Nat.toDigits 10 n
  List.replicate (width - digits.length) '0' ++ digits

def Date.text (d : Date) : List Char :=
  padded 4 d.year ++ '-' :: padded 2 d.month ++ '-' :: padded 2 d.day

/-- The digits of a fraction of a second, without zeros at the end. -/
def fractionText (nanosecond : Nat) : List Char :=
  if nanosecond = 0 then []
  else '.' :: ((padded 9 nanosecond).reverse.dropWhile (· = '0')).reverse

def Time.text (t : Time) : List Char :=
  padded 2 t.hour ++ ':' :: padded 2 t.minute ++ ':' :: padded 2 t.second ++
    fractionText t.nanosecond

/-- A place that is behind by nothing is shown as one that is ahead by nothing. -/
def Offset.text : Offset → List Char
  | utc => ['Z']
  | minutes isBehind n =>
    (if isBehind && n ≠ 0 then '-' else '+') :: (padded 2 (n / 60) ++ ':' :: padded 2 (n % 60))

def Moment.text : Moment → String
  | date d => String.ofList d.text
  | time t => String.ofList t.text
  | instant d t offset =>
    String.ofList (d.text ++ 'T' :: t.text ++ (offset.map (·.text)).getD [])

/-! ### Reading -/

/-- Reads a number of so many digits that lies between two others. -/
def readField (width least most : Nat) : Reader Nat := fun cs =>
  let digits := cs.take width
  let n := ofDigits 10 digits
  if digits.length = width && digits.all Char.isDigit && least ≤ n && n ≤ most then
    some (n, cs.drop width)
  else none

def isLeapYear (year : Nat) : Bool := year % 4 = 0 && (year % 100 ≠ 0 || year % 400 = 0)

def daysInMonth (year month : Nat) : Nat :=
  if month = 2 then if isLeapYear year then 29 else 28
  else if [4, 6, 9, 11].contains month then 30
  else 31

def readDate : Reader Date := fun cs => do
  let (year, rest) ← readField 4 0 9999 cs
  let (month, rest) ← readField 2 1 12 (← char '-' rest)
  let (day, rest) ← readField 2 1 (daysInMonth year month) (← char '-' rest)
  return (⟨year, month, day⟩, rest)

/-- Reads a point with digits after it, in nanoseconds; there may be none. -/
def readFraction (cs : List Char) : Nat × List Char :=
  match cs with
  | '.' :: rest =>
    let digits := rest.takeWhile Char.isDigit
    let counted := digits.take 9
    if digits.isEmpty then (0, cs)
    else (ofDigits 10 counted * Nat.pow 10 (9 - counted.length), rest.drop digits.length)
  | _ => (0, cs)

/-- Reads a time. A minute may have a leap second. -/
def readTime : Reader Time := fun cs => do
  let (hour, rest) ← readField 2 0 23 cs
  let (minute, rest) ← readField 2 0 59 (← char ':' rest)
  let (second, rest) ← readField 2 0 60 (← char ':' rest)
  let (nanosecond, rest) := readFraction rest
  return (⟨hour, minute, second, nanosecond⟩, rest)

/-- Reads an offset, if there is one; a sign has to be followed by one. -/
def readOffset : Reader (Option Offset)
  | [] => some (none, [])
  | c :: rest =>
    if c = 'Z' || c = 'z' then some (some .utc, rest)
    else if c = '+' || c = '-' then do
      let (hours, rest) ← readField 2 0 23 rest
      let (minutes, rest) ← readField 2 0 59 (← char ':' rest)
      return (some (.minutes (c = '-') (60 * hours + minutes)), rest)
    else some (none, c :: rest)

/-- Reads a date, a time or both. What follows a date is left if it is no time. -/
def readMoment : Reader Moment := fun cs =>
  match readDate cs with
  | none => (readTime cs).map fun (t, rest) => (.time t, rest)
  | some (d, rest) =>
    let time := match rest with
      | c :: more => if c = 'T' || c = 't' || c = ' ' then readTime more else none
      | [] => none
    match time with
    | none => some (.date d, rest)
    | some (t, rest) => (readOffset rest).map fun (offset, rest) => (.instant d t offset, rest)

end PeerMesh.Toml
