/-!
# Trading pairs

A pair is written as base asset, hyphen, quote asset.

* `Pair.combine` — the pair of two assets;
* `Pair.split?` — the assets of a pair, where there are two, divided by the only hyphen.
-/

set_option autoImplicit false

namespace SpotGateway.Pair

def separator : Char := '-'

/-- `BASE-QUOTE`. -/
def combine (base quote : String) : String := base ++ String.singleton separator ++ quote

/-- Base and quote: both non-empty, and only one separator in all. -/
def split? (pair : String) : Option (String × String) :=
  let base := pair.toList.takeWhile (· ≠ separator)
  match pair.toList.dropWhile (· ≠ separator) with
  | [] => none
  | _ :: quote =>
    if base = [] ∨ quote = [] ∨ separator ∈ quote then none
    else some (String.ofList base, String.ofList quote)

end SpotGateway.Pair
