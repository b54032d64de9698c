import NodeProvisioner.Text.Blank

/-! Points in time written as a date, a letter `T` or a blank, a time of day, and the distance from
universal time. Blanks may stand between the parts, and numbers may lack their leading zeros. -/
namespace NodeProvisioner.Text.Timestamp

/-- One digit or more, at most `most`, and the rest of the text. -/
def number? (most : Nat) (cs : List Char) : Option (Nat × List Char) :=
  match (cs.take most).takeWhile Char.isDigit with
  | [] => none
  | d :: ds => some ((d :: ds).foldl (fun n c => 10 * n + (c.toNat - '0'.toNat)) 0,
      cs.drop (d :: ds).length)

def mark? (c : Char) : List Char → Option (List Char)
  | [] => none
  | x :: xs => if x = c then some xs else none

/-- A year with a sign has any number of digits, a year without one has at most four. -/
def year? : List Char → Option (Int × List Char)
  | '-' :: cs => (number? cs.length cs).map fun r => (-(r.1 : Int), r.2)
  | '+' :: cs => (number? cs.length cs).map fun r => ((r.1 : Int), r.2)
  | cs => (number? 4 cs).map fun r => ((r.1 : Int), r.2)

def isLeap (year : Int) : Bool := year % 4 == 0 && (year % 100 != 0 || year % 400 == 0)

def daysIn? (year : Int) (month : Nat) : Option Nat :=
  if month = 2 then some (if isLeap year then 29 else 28)
  else if [4, 6, 9, 11].contains month then some 30
  else if 1 ≤ month && month ≤ 12 then some 31
  else none

structure Date where
  year : Int
  month : Nat
  day : Nat
  deriving DecidableEq

namespace Date

def first : Date := { year := -262143, month := 1, day := 1 }

def last : Date := { year := 262142, month := 12, day := 31 }

def isReal (d : Date) : Bool :=
  first.year ≤ d.year && d.year ≤ last.year && 1 ≤ d.day &&
    (daysIn? d.year d.month).any (d.day ≤ ·)

/-- The calendar has the second that comes so long after the start of the day, less than a day
before it or after its end. -/
def reaches (d : Date) (seconds : Int) : Bool :=
  (d != first || 0 ≤ seconds) && (d != last || seconds < 86400)

end Date

def date? (cs : List Char) : Option (Date × List Char) := do
  let (year, cs) ← year? (trimStart cs)
  let cs ← mark? '-' (trimStart cs)
  let (month, cs) ← number? 2 (trimStart cs)
  let cs ← mark? '-' (trimStart cs)
  let (day, cs) ← number? 2 (trimStart cs)
  let date : Date := { year, month, day }
  if date.isReal then some (date, cs) else none

def middle? : List Char → Option (List Char)
  | 'T' :: cs => some cs
  | 't' :: cs => some cs
  | ' ' :: cs => some cs
  | _ => none

def fraction? : List Char → Option (List Char)
  | '.' :: cs => (number? cs.length cs).map (·.2)
  | cs => some cs

/-- A time of day in seconds. A minute may have one second more, which counts as the one before. -/
def timeOfDay? (cs : List Char) : Option (Nat × List Char) := do
  let (hour, cs) ← number? 2 (trimStart cs)
  let cs ← mark? ':' (trimStart cs)
  let (minute, cs) ← number? 2 (trimStart cs)
  let cs ← mark? ':' (trimStart cs)
  let (second, cs) ← number? 2 (trimStart cs)
  guard (hour < 24 && minute < 60 && second ≤ 60)
  return (3600 * hour + 60 * minute + min second 59, ← fraction? cs)

def twoDigits? : List Char → Option (Nat × List Char)
  | a :: b :: cs =>
    if a.isDigit && b.isDigit then
      some (10 * (a.toNat - '0'.toNat) + (b.toNat - '0'.toNat), cs)
    else none
  | _ => none

/-- Hours and minutes in seconds, less than a day together. -/
def distance? (cs : List Char) : Option (Int × List Char) := do
  let (hours, cs) ← twoDigits? cs
  let (minutes, cs) ← twoDigits? (cs.dropWhile fun c => c == ':' || isBlank c)
  if hours < 24 && minutes < 60 then some (3600 * hours + 60 * minutes, cs) else none

def zone? : List Char → Option (Int × List Char)
  | 'Z' :: cs => some (0, cs)
  | 'z' :: cs => some (0, cs)
  | '+' :: cs => distance? cs
  | '-' :: cs => (distance? cs).map fun r => (-r.1, r.2)
  | '\u2212' :: cs => (distance? cs).map fun r => (-r.1, r.2)
  | u :: t :: c :: cs =>
    if [u, t, c].map Char.toUpper = ['U', 'T', 'C'] then some (0, cs) else none
  | _ => none

def all? (cs : List Char) : Option (List Char) := do
  let (date, cs) ← date? cs
  let (seconds, cs) ← timeOfDay? (← middle? cs)
  let (ahead, cs) ← zone? (trimStart cs)
  if date.reaches (seconds - ahead) then some cs else none

end Timestamp

/-- The text is a point in time, with blanks around it or without. -/
def isTimestamp (s : String) : Bool := (Timestamp.all? s.toList).any (·.all isBlank)

example : isTimestamp "2024-02-29T23:59:60.5+05:30" = true ∧
    isTimestamp "2023-02-29T00:00:00Z" = false ∧ isTimestamp "2024-01-01" = false := by decide

/-! The ends of the calendar are ends in universal time. -/

example : isTimestamp "-262143-01-01T00:01:00+00:01" = true ∧
    isTimestamp "-262143-01-01T00:00:59+00:01" = false := by decide

example : isTimestamp "+262142-12-31T23:58:59-00:01" = true ∧
    isTimestamp "+262142-12-31T23:59:00-00:01" = false := by decide

end NodeProvisioner.Text
