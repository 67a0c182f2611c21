import SpotGateway.Http.Request

/-!
# Headers made blank

A request without what stands in some of its headers.  Requests that are the same when they are made
blank have the same headers, in the same order, and differ at most in the values of those.

* `Http.Request.blank` — headers of the given names made blank;
* `Http.Request.blank_setHeader`, `Http.Request.blank_setHeader_of_not_mem` — a header that is set.
-/

set_option autoImplicit false

namespace SpotGateway.Http.Request

/-- The request with nothing in the headers of the given names. -/
def blank (names : List String) (r : Request) : Request :=
  { r with headers := r.headers.map fun h => (h.1, if h.1 ∈ names then "" else h.2) }

theorem insertMember_map {α β : Type} (f : String → α → β) (name : String) (value : α)
    (headers : List (String × α)) :
    (Json.insertMember name value headers).map (fun h => (h.1, f h.1 h.2)) =
      Json.insertMember name (f name value) (headers.map fun h => (h.1, f h.1 h.2)) := by
  induction headers with
  | nil => rfl
  | cons h rest ih =>
    simp only [Json.insertMember, List.map_cons]
    split
    · rfl
    · split
      · rfl
      · rw [List.map_cons, ih]

/-- What is put into a header that is made blank does not matter. -/
theorem blank_setHeader {names : List String} {name : String} (hname : name ∈ names)
    (r : Request) (value : String) :
    (r.setHeader name value).blank names = (r.blank names).setHeader name "" := by
  have hmap := insertMember_map (fun name value => if name ∈ names then "" else value) name value
    (r.headers.filter fun h => !Text.sameIgnoringCase h.1 name)
  simp only [blank, setHeader, hmap, if_pos hname, List.filter_map]
  rfl

theorem blank_setHeader_of_not_mem {names : List String} {name : String} (hname : name ∉ names)
    (r : Request) (value : String) :
    (r.setHeader name value).blank names = (r.blank names).setHeader name value := by
  have hmap := insertMember_map (fun name value => if name ∈ names then "" else value) name value
    (r.headers.filter fun h => !Text.sameIgnoringCase h.1 name)
  simp only [blank, setHeader, hmap, if_neg hname, List.filter_map]
  rfl

end SpotGateway.Http.Request
