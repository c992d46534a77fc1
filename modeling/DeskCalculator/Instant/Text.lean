import DeskCalculator.Decimal.Numeral
import DeskCalculator.Instant.Basic
import DeskCalculator.Text.Blank

/-!
# DeskCalculator.Instant.Text — instants as texts of RFC 3339

An instant is written in universal time, with as many groups of three decimals as it needs.  Reading
is more generous: numbers may be shorter, blanks may stand before them, and the offset from
universal time may be any.  The second 60 is a leap second.
-/

namespace DeskCalculator.Instant

/-! ## Writing -/

/-- The digits of `n`, with zeros before them up to a width. -/
def padded (width n : Nat) : List Char :=
  let digits := Nat.toDigits 10 n
  List.replicate (width - digits.length) '0' ++ digits

/-- The text of a year; one that has not four digits is written with its sign. -/
def yearChars (year : Int) : List Char :=
  if 0 ≤ year ∧ year ≤ 9999 then padded 4 year.natAbs
  else (if year < 0 then '-' else '+') :: padded 4 year.natAbs

/-- The text of a fraction of a second: no, three, six or nine decimals. -/
def fractionChars (nanos : Nat) : List Char :=
  if nanos = 0 then []
  else if nanos % 1000000 = 0 then '.' :: padded 3 (nanos / 1000000)
  else if nanos % 1000 = 0 then '.' :: padded 6 (nanos / 1000)
  else '.' :: padded 9 nanos

/-- The seconds of a day. -/
def secondsPerDay : Nat := 86400

/-- The text of an instant. -/
def chars (t : Instant) : List Char :=
  let date := Date.ofDays (t.seconds / secondsPerDay)
  let second := (t.seconds % secondsPerDay).toNat
  let leap := t.nanos / nanosPerSecond
  yearChars date.year ++ '-' :: padded 2 date.month ++ '-' :: padded 2 date.day
    ++ 'T' :: padded 2 (second / 3600) ++ ':' :: padded 2 (second / 60 % 60)
    ++ ':' :: padded 2 (second % 60 + leap) ++ fractionChars (t.nanos % nanosPerSecond) ++ ['Z']

/-- The text of an instant. -/
def write (t : Instant) : String := .ofList t.chars

/-! ## Reading -/

/-- A step of reading: it takes something from the start of a text, or fails. -/
abbrev Scan (α : Type) := StateT (List Char) Option α

/-- Blanks, any number of them. -/
def scanBlanks : Scan Unit := modify Text.trimStart

/-- One of some characters. -/
def scanOneOf (allowed : List Char) : Scan Char := do
  match ← get with
  | c :: cs => if allowed.contains c then do set cs; return c else failure
  | [] => failure

/-- A number of at least one digit and, where there is a bound, at most that many. -/
def scanDigits (bound : Option Nat) : Scan (List Char) := do
  let cs ← get
  let run := cs.takeWhile Char.isDigit
  let digits := (bound.elim run run.take)
  if digits.isEmpty then failure
  set (cs.drop digits.length)
  return digits

/-- A number of one or two digits between two bounds, after blanks. -/
def scanPair (least greatest : Nat) : Scan Nat := do
  scanBlanks
  let n := digitsValue (← scanDigits (some 2))
  if least ≤ n ∧ n ≤ greatest then return n else failure

/-- A year: up to four digits, or a sign and any number of them. -/
def scanYear : Scan Int := do
  scanBlanks
  match scanSign (← get) with
  | (none, _) => return digitsValue (← scanDigits (some 4))
  | (sign, rest) =>
    set rest
    return signedValue sign (digitsValue (← scanDigits none))

/-- The fraction of a second in nanoseconds, if there is one; of its digits nine count. -/
def scanFraction : Scan Nat := do
  match ← get with
  | '.' :: rest =>
    set rest
    let digits := (← scanDigits none).take 9
    return digitsValue (digits ++ List.replicate (9 - digits.length) '0')
  | _ => return 0

/-- An offset from universal time in seconds. -/
def scanOffset : Scan Int := do
  let cs ← get
  let start := (cs.take 3).map Char.toUpper
  if start = ['U', 'T', 'C'] then
    set (cs.drop 3)
    return 0
  let sign ← scanOneOf ['Z', 'z', '+', '-', '\u2212']
  if sign = 'Z' ∨ sign = 'z' then return 0
  let hours ← scanDigits (some 2)
  modify (List.dropWhile fun c => c == ':' || Text.isBlank c)
  let minutes ← scanDigits (some 2)
  let offset := (digitsValue hours * 60 + digitsValue minutes) * 60
  if hours.length = 2 ∧ minutes.length = 2 ∧ digitsValue minutes < 60 ∧ offset < secondsPerDay then
    return if sign = '+' then offset else -(offset : Int)
  else failure

/-- The years whose instants are taken. -/
def yearIsTaken (year : Int) : Bool := decide (-262143 ≤ year ∧ year ≤ 262142)

/-- An instant and the blanks behind it. -/
def scan : Scan Instant := do
  let year ← scanYear
  scanBlanks
  let _ ← scanOneOf ['-']
  let month ← scanPair 1 12
  scanBlanks
  let _ ← scanOneOf ['-']
  let day ← scanPair 1 31
  let _ ← scanOneOf ['T', 't', ' ']
  let hour ← scanPair 0 23
  scanBlanks
  let _ ← scanOneOf [':']
  let minute ← scanPair 0 59
  scanBlanks
  let _ ← scanOneOf [':']
  let second ← scanPair 0 60
  let nanos ← scanFraction
  scanBlanks
  let offset ← scanOffset
  scanBlanks
  let date : Date := ⟨year, month, day⟩
  let leap := second / 60
  let secondOfDay := (hour * 60 + minute) * 60 + (second - leap)
  let seconds := date.toDays * secondsPerDay + (secondOfDay - offset)
  let written := Date.ofDays (seconds / secondsPerDay)
  if date.Valid ∧ yearIsTaken year ∧ yearIsTaken written.year then
    return ⟨seconds, leap * nanosPerSecond + nanos⟩
  else failure

/-- The instant of a text. -/
def read? (text : String) : Option Instant :=
  match scan.run text.toList with
  | some (t, []) => some t
  | _ => none

end DeskCalculator.Instant
