import SpotGateway.Text.Blank
import SpotGateway.Time.Timestamp

/-!
# Reading instants

RFC 3339 date and time with an offset, read leniently: months, days, hours, minutes and seconds may
have one digit, blanks may stand before numbers and separators, the date ends with `T`, `t` or a
blank, a fraction is cut to nanoseconds, and the offset is `Z`, `UTC` or hours and minutes with or
without a colon.  A sixtieth second is a leap second.

* `Rfc3339.clock`, `Rfc3339.offset` — the parts;
* `Timestamp.ofText?` — the whole.
-/

set_option autoImplicit false

namespace SpotGateway

namespace Rfc3339

/-- Between one and `most` digits. -/
def number (most : Nat) (cs : List Char) : Option (Nat × List Char) :=
  match Text.takeDigits (cs.take most) with
  | ([], _) => none
  | (ds, _) => some (Text.valueOf ds, cs.drop ds.length)

/-- A number of up to two digits after blanks. -/
def twoDigits (cs : List Char) : Option (Nat × List Char) := number 2 (Text.trimStart cs)

/-- The separator `c` after blanks. -/
def separator (c : Char) (cs : List Char) : Option (List Char) :=
  match Text.trimStart cs with
  | [] => none
  | d :: rest => if d = c then some rest else none

/-- A year: up to four digits, or a sign and any number of digits. -/
def year (cs : List Char) : Option (Int × List Char) :=
  match Text.trimStart cs with
  | '-' :: rest => (number rest.length rest).map fun (n, r) => (-(n : Int), r)
  | '+' :: rest => (number rest.length rest).map fun (n, r) => ((n : Int), r)
  | rest => (number 4 rest).map fun (n, r) => ((n : Int), r)

/-- A date. -/
def date (cs : List Char) : Option (Date × List Char) := do
  let (y, cs) ← year cs
  let cs ← separator '-' cs
  let (m, cs) ← twoDigits cs
  let cs ← separator '-' cs
  let (d, cs) ← twoDigits cs
  let date : Date := ⟨y, m, d⟩
  if date.isValid then some (date, cs) else none

/-- Nanoseconds after a point; none if there is no point. -/
def fraction : List Char → Option (Nat × List Char)
  | '.' :: cs =>
    match Text.takeDigits cs with
    | ([], _) => none
    | (ds, rest) =>
      let kept := ds.take 9
      some (Text.valueOf kept * tenPow (9 - kept.length), rest)
  | cs => some (0, cs)

/-- A time of day: seconds of the day, nanoseconds, and whether it is a leap second. -/
def clock (cs : List Char) : Option ((Nat × Nat × Bool) × List Char) := do
  let (h, cs) ← twoDigits cs
  let cs ← separator ':' cs
  let (m, cs) ← twoDigits cs
  let cs ← separator ':' cs
  let (s, cs) ← twoDigits cs
  let (n, cs) ← fraction cs
  if h < 24 ∧ m < 60 ∧ s ≤ 60 then some ((h * 3600 + m * 60 + s, n, s == 60), Text.trimStart cs)
  else none

/-- Hours and minutes of an offset, in seconds. -/
def hoursMinutes : List Char → Option (Nat × List Char)
  | h₁ :: h₂ :: cs => do
    let h := (← Text.digit? h₁) * 10 + (← Text.digit? h₂)
    match cs.dropWhile fun c => c == ':' || Text.isBlank c with
    | m₁ :: m₂ :: rest =>
      let m := (← Text.digit? m₁) * 10 + (← Text.digit? m₂)
      if m < 60 ∧ h < 24 then some (h * 3600 + m * 60, rest) else none
    | _ => none
  | _ => none

/-- The offset from UTC in seconds. -/
def offset : List Char → Option (Int × List Char)
  | [] => none
  | c :: cs =>
    if c = 'Z' ∨ c = 'z' then some (0, cs)
    else if (c :: cs.take 2).map Char.toUpper = ['U', 'T', 'C'] then some (0, cs.drop 2)
    else if c = '+' then (hoursMinutes cs).map fun (n, r) => ((n : Int), r)
    else if c = '-' ∨ c = '−' then (hoursMinutes cs).map fun (n, r) => (-(n : Int), r)
    else none

end Rfc3339

/-- The instant that a date and time with its offset stands for. -/
def Timestamp.ofText? (s : String) : Option Timestamp := do
  let (date, cs) ← Rfc3339.date s.toList
  let cs ← match cs with
    | 't' :: r => some r
    | 'T' :: r => some r
    | ' ' :: r => some r
    | _ => none
  let ((second, fraction, leap), cs) ← Rfc3339.clock cs
  let (shift, rest) ← Rfc3339.offset cs
  if Text.trimStart rest = [] then
    let nanos := (date.toDays * 86400 + second) * perSecond + fraction
    let nominal := if leap then nanos - perSecond else nanos
    let shift := shift * perSecond
    if inRange nominal ∧ inRange (nominal - shift) then some ⟨nanos - shift, leap⟩ else none
  else none

end SpotGateway
