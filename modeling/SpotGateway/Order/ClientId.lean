import SpotGateway.Error
import SpotGateway.Order.Side
import SpotGateway.Text.Ascii

/-!
# Client order ids

The gateway names its orders itself: a fixed head, the letter of the side, and random hexadecimal
digits, cut to what the exchange takes.

* `ClientId.make` — the id from a head, a side and random digits;
* `ClientId.check` — what the exchange takes.
-/

set_option autoImplicit false

namespace SpotGateway.ClientId

/-- Letters, digits and hyphens. -/
def isAllowed (c : Char) : Bool := Text.isAlphanumeric c || c == '-'

/-- Head, side and random digits, cut to length. -/
def make (head : String) (side : Side) (nonce : String) : String :=
  String.ofList ((head.toList ++ side.tag :: nonce.toList).take Exchange.maxIdLength)

/-- Ids have at least one character and no more bytes than the exchange takes, and each character
is allowed. -/
def check (clientId : String) : Except GatewayError Unit :=
  if clientId.utf8ByteSize = 0 ∨ Exchange.maxIdLength < clientId.utf8ByteSize then
    .error (.invalidOrder (.idLength clientId))
  else if clientId.toList.all isAllowed then .ok ()
  else .error (.invalidOrder (.idCharacters clientId))

end SpotGateway.ClientId
