import SpotGateway.Http.Request
import SpotGateway.Proofs.Decimal.Binary
import SpotGateway.Proofs.Json.Rendering
import SpotGateway.Wire.Orders

/-!
# What the document of an order says

Read as a document, the text that submits an order has a member for each part of the order, and
nothing else.  Amounts are said by numbers that are near to them, and that are the amounts themselves
if they have few digits.

* `Json.Document.keys?`, `Json.Document.said?` — the members of a text that is an object;
* `Json.Literal.Tells`, `Decimal.tells_numberText` — numbers that say an amount;
* `OrderBody.SaidBy`, `OrderBody.read_text`, `OrderBody.saidBy_text` — the document of an order;
* `Http.Request.Submits` — a request that submits it.
-/

set_option autoImplicit false

namespace SpotGateway

namespace Json.Document

/-- The keys of a text that is an object, in its order. -/
def keys? (text : String) : Option (List Chars) :=
  match read text with
  | (.object members, true) => some (members.map Prod.fst)
  | _ => none

/-- What a text that is an object says under a key. -/
def said? (text key : String) : Option Node :=
  match read text with
  | (.object members, true) => (members.find? fun m => m.1 = some key).map Prod.snd
  | _ => none

theorem keys?_of_read {text : String} {members : List (Chars × Node)}
    (h : read text = (.object members, true)) : keys? text = some (members.map Prod.fst) := by
  rw [keys?, h]

theorem said?_of_read {text : String} {members : List (Chars × Node)}
    (h : read text = (.object members, true)) (key : String) :
    said? text key = (members.find? fun m => m.1 = some key).map Prod.snd := by
  rw [said?, h]

end Json.Document

/-- The number is the amount, but for a last part in `2 ^ 48`, and exactly the amount if this has few
digits. -/
structure Json.Literal.Tells (l : Json.Literal) (d : Decimal) : Prop where
  near : |l.value - d.value| ≤ |d.value| / 2 ^ 48
  exact : d.Short → l.value = d.value

open Json.Document

/-- **The number of an amount tells the amount.** -/
theorem Decimal.tells_numberText (d : Decimal) : ∃ l : Json.Literal,
    number? d.numberText.toList = some (l, []) ∧ l.Tells d := by
  obtain ⟨x, hx, hshows⟩ := d.shows_of_toBinary64?
  obtain ⟨l, hl, hvalue⟩ := x.number?_text
  have htext : d.numberText = x.text .json := by
    rw [numberText, hx]
  refine ⟨l, htext ▸ hl, ?_, ?_⟩
  · rw [hvalue]
    exact hshows.near
  · rw [hvalue]
    exact hshows.exact

/-- The text is an object that says what the order is, and nothing else. -/
structure OrderBody.SaidBy (b : OrderBody) (text : String) : Prop where
  keys : keys? text = some ((["market", "bid", "size"] ++ (if b.price.isSome then ["price"] else []) ++
    ["type", "clientOrderId"]).map some)
  market : said? text "market" = some (.string (some b.market))
  bid : said? text "bid" = some (.bool b.bid)
  size : ∃ l, said? text "size" = some (.number l) ∧ l.Tells b.size
  price : ∀ price, b.price = some price → ∃ l, said? text "price" = some (.number l) ∧ l.Tells price
  kind : said? text "type" = some (.string (some b.kind))
  clientId : said? text "clientOrderId" = some (.string (some b.clientId))

namespace OrderBody

/-- The members of the document, with the numbers of its amounts. -/
def nodes (b : OrderBody) (size : Json.Literal) (price : Option Json.Literal) :
    List (Json.Chars × Json.Node) :=
  [(some "market", .string (some b.market)), (some "bid", .bool b.bid),
    (some "size", .number size)] ++
  (price.toList.map fun l => (some "price", .number l)) ++
  [(some "type", .string (some b.kind)), (some "clientOrderId", .string (some b.clientId))]

/-- The document is read member by member. -/
theorem read_text (b : OrderBody) : ∃ size price,
    read b.text = (.object (b.nodes size price), true) ∧ size.Tells b.size ∧
      Option.Rel Json.Literal.Tells price b.price := by
  obtain ⟨size, hsize, hsized⟩ := b.size.tells_numberText
  have hhead : List.Forall₂ SpellsMember
      [("market", Json.stringText b.market), ("bid", boolText b.bid), ("size", b.size.numberText)]
      [(some "market", .string (some b.market)), (some "bid", .bool b.bid),
        (some "size", .number size)] :=
    .cons ⟨rfl, spells_string b.market⟩
      (.cons ⟨rfl, spells_bool b.bid⟩ (.cons ⟨rfl, spells_number hsize⟩ .nil))
  have hlast : List.Forall₂ SpellsMember
      [("type", Json.stringText b.kind), ("clientOrderId", Json.stringText b.clientId)]
      [(some "type", .string (some b.kind)), (some "clientOrderId", .string (some b.clientId))] :=
    .cons ⟨rfl, spells_string b.kind⟩ (.cons ⟨rfl, spells_string b.clientId⟩ .nil)
  obtain ⟨price, hprice, hpriced⟩ : ∃ price : Option Json.Literal,
      List.Forall₂ SpellsMember (b.price.toList.map fun d => ("price", d.numberText))
        (price.toList.map fun l => (some "price", .number l)) ∧
      Option.Rel Json.Literal.Tells price b.price := by
    cases b.price with
    | none => exact ⟨none, .nil, .none⟩
    | some d =>
      obtain ⟨l, hl, htells⟩ := d.tells_numberText
      exact ⟨some l, .cons ⟨rfl, spells_number hl⟩ .nil, .some htells⟩
  exact ⟨size, price, read_objectText (List.rel_append (List.rel_append hhead hprice) hlast), hsized,
    hpriced⟩

/-- **The document of an order says what the order is.** -/
theorem saidBy_text (b : OrderBody) : b.SaidBy b.text := by
  obtain ⟨size, price, hread, hsized, hpriced⟩ := b.read_text
  have hsaid := said?_of_read hread
  have hkeys := keys?_of_read hread
  cases hprice : b.price with
  | none =>
    rw [hprice] at hpriced
    cases hpriced
    exact {
      keys := by rw [hkeys, hprice]; rfl
      market := hsaid _
      bid := hsaid _
      size := ⟨size, hsaid _, hsized⟩
      price := fun price h => by rw [hprice] at h; cases h
      kind := hsaid _
      clientId := hsaid _ }
  | some d =>
    rw [hprice] at hpriced
    cases hpriced with
    | some htells =>
      exact {
        keys := by rw [hkeys, hprice]; rfl
        market := hsaid _
        bid := hsaid _
        size := ⟨size, hsaid _, hsized⟩
        price := fun price h => by
          rw [hprice] at h
          cases h
          exact ⟨_, hsaid _, htells⟩
        kind := hsaid _
        clientId := hsaid _ }

end OrderBody

/-- The request submits the order: its body is the document of the order, which says what the order
is. -/
structure Http.Request.Submits (r : Http.Request) (b : OrderBody) : Prop where
  body : r.body = some b.text
  said : b.SaidBy b.text

theorem Http.Request.Submits.of_body {r : Http.Request} {b : OrderBody} (h : r.body = some b.text) :
    r.Submits b :=
  ⟨h, b.saidBy_text⟩

end SpotGateway
