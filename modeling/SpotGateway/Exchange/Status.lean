import SpotGateway.Error
import SpotGateway.Order.State
import SpotGateway.Text.Ascii
import SpotGateway.Text.Blank

/-!
# Order statuses of the exchange

* `Status.known` — the statuses that the exchange reports, and the states they mean;
* `Status.normalize` — the state of a status, in any case and with blanks around it.
-/

set_option autoImplicit false

namespace SpotGateway.Status

/-- The statuses that the exchange reports. -/
def known : List (String × OrderState) :=
  [("PENDING", .pendingCreate),
    ("OPEN", .open),
    ("FILLED", .filled),
    ("PARTIAL", .partiallyFilled),
    ("CANCELLED", .canceled),
    ("REJECTED", .failed),
    ("EXPIRED", .failed),
    ("COMPLETED", .filled)]

/-- The state that a status means.  There is no guessing about a status that is not known. -/
def normalize (raw : String) : Except GatewayError OrderState :=
  let status := String.ofList (Text.trim raw.toList)
  match known.find? fun entry => Text.sameIgnoringCase entry.1 status with
  | some (_, state) => .ok state
  | none => .error (.unrecognizedStatus raw)

end SpotGateway.Status
