import SpotGateway.Power

/-!
# Digits

Reading and writing of natural numbers by their digits.

* `valueOf` — the number a run of digits stands for;
* `decimal`, `signed`, `padded`, `paddedHexadecimal` — text of a number;
* `digit?`, `hexDigit?` — the value of one character;
* `takeDigits` — the run of decimal digits that text starts with.
-/

set_option autoImplicit false

namespace SpotGateway.Text

/-- The value of an ASCII decimal digit. -/
def digit? (c : Char) : Option Nat :=
  if '0' ≤ c ∧ c ≤ '9' then some (c.toNat - '0'.toNat) else none

/-- The value of an ASCII hexadecimal digit of either case. -/
def hexDigit? (c : Char) : Option Nat :=
  if '0' ≤ c ∧ c ≤ '9' then some (c.toNat - '0'.toNat)
  else if 'a' ≤ c ∧ c ≤ 'f' then some (c.toNat - 'a'.toNat + 10)
  else if 'A' ≤ c ∧ c ≤ 'F' then some (c.toNat - 'A'.toNat + 10)
  else none

/-- The number written by digits, most significant first. -/
def valueOf (ds : List Nat) : Nat := ds.foldl (fun n d => n * 10 + d) 0

/-- Split off the decimal digits that the text starts with. -/
def takeDigits : List Char → List Nat × List Char
  | [] => ([], [])
  | c :: cs =>
    match digit? c with
    | some d => let (ds, rest) := takeDigits cs; (d :: ds, rest)
    | none => ([], c :: cs)

/-- Decimal text of a number. -/
def decimal (n : Nat) : String := String.ofList (Nat.toDigits 10 n)

/-- Decimal text of an integer. -/
def signed (i : Int) : String :=
  if i < 0 then "-" ++ decimal i.natAbs else decimal i.natAbs

/-- Decimal text of at least `width` digits, filled up with zeros in front. -/
def padded (width n : Nat) : String :=
  let ds := Nat.toDigits 10 n
  String.ofList (List.replicate (width - ds.length) '0' ++ ds)

/-- Lower-case hexadecimal text of at least `width` digits, filled up with zeros in front. -/
def paddedHexadecimal (width n : Nat) : String :=
  let ds := Nat.toDigits 16 n
  String.ofList (List.replicate (width - ds.length) '0' ++ ds)

/-- An unsigned number below `2 ^ bits` as text: an optional plus sign and at least one digit. -/
def natural? (bits : Nat) (cs : List Char) : Option Nat :=
  let body := match cs with
    | '+' :: rest => rest
    | _ => cs
  match takeDigits body with
  | ([], _) => none
  | (ds, []) => if valueOf ds < twoPow bits then some (valueOf ds) else none
  | (_, _ :: _) => none

end SpotGateway.Text
