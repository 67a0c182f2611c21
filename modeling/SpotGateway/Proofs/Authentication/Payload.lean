import SpotGateway.Authentication
import SpotGateway.Proofs.Http.Query
import SpotGateway.Proofs.Text.Digits

/-!
# What a signature stands for

Time, method, path, parameters and body are signed one right behind the other.  The time and the
method can be told from what is signed, and so can the text that the other three make together, but
not where one of them ends and the next begins.

* `Http.Request.signedPart` — path, parameters and body as they are signed;
* `Authenticator.payload_eq_iff` — which requests are signed alike;
* `Authenticator.payload_eq_of_moved` — a body that moves into the path.
-/

set_option autoImplicit false

namespace SpotGateway

namespace Http

/-- No method is the beginning of another, and none begins with a digit. -/
theorem Method.text_append_inj {m m' : Method} {xs ys : List Char}
    (h : m.text.toList ++ xs = m'.text.toList ++ ys) : m = m' ∧ xs = ys := by
  cases m <;> cases m' <;> simp_all [Method.text]

theorem Method.head_text_append (m : Method) (xs : List Char) :
    ∀ c ∈ (m.text.toList ++ xs).head?, c.isDigit = false := by
  intro c hc
  cases m <;> simp [Method.text] at hc <;> subst hc <;> rfl

/-- What is signed of a request besides its method: path, parameters and body, one right behind the
other. -/
def Request.signedPart (r : Request) : String := r.path ++ r.queryString ++ r.body.getD ""

end Http

namespace Authenticator

variable {r r' : Http.Request} {millis millis' : Int}

theorem toList_payload (r : Http.Request) (millis : Int) : (payload r millis).toList =
    (Text.signed millis).toList ++ (r.method.text.toList ++ r.signedPart.toList) := by
  simp [payload, Http.Request.signedPart]

/-- Requests are signed alike exactly if time, method, and path, parameters and body taken together
are the same. -/
theorem payload_eq_iff : payload r millis = payload r' millis' ↔
    millis = millis' ∧ r.method = r'.method ∧ r.signedPart = r'.signedPart := by
  rw [← String.toList_inj, toList_payload, toList_payload]
  constructor
  · intro h
    obtain ⟨hmillis, hrest⟩ := Text.signed_append_inj (Http.Method.head_text_append _ _)
      (Http.Method.head_text_append _ _) h
    obtain ⟨hmethod, hpart⟩ := Http.Method.text_append_inj hrest
    exact ⟨hmillis, hmethod, String.toList_inj.mp hpart⟩
  · rintro ⟨rfl, hmethod, hpart⟩
    rw [hmethod, hpart]

/-- A body at the end of the path is signed like one that is sent. -/
theorem payload_eq_of_moved (r : Http.Request) (hquery : r.query = []) (body : String)
    (hbody : r.body = some body) (millis : Int) :
    payload r millis = payload { r with path := r.path ++ body, body := none } millis := by
  refine payload_eq_iff.mpr ⟨rfl, rfl, ?_⟩
  simp [Http.Request.signedPart, Http.Request.queryString, hquery, hbody]

end Authenticator

end SpotGateway
