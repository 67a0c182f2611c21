import SpotGateway.Proofs.Json.Document
import SpotGateway.Proofs.Wire.Levels

/-!
# Envelopes

Frames of a combined stream are objects with the name of a channel and the content that the channel
would have sent by itself.  What is read from such a frame is what is read from its content, be that
an event, another object, or no object at all.

* `Stream.Envelope`, `Stream.Envelope.wrap` — envelopes, and their text around a content;
* `Stream.Envelope.read_wrap` — the document of a frame in an envelope;
* `GatewayError.requoted` — errors with another frame quoted in them;
* `Stream.eventOf_of_dataOf` — messages with the same data;
* `Stream.read_of_envelope` — frames within envelopes and without.
-/

set_option autoImplicit false

namespace SpotGateway

open Json

/-- The error with another text quoted as that of the frame. -/
def GatewayError.requoted (frame : String) : GatewayError → GatewayError
  | .parse (.event kind _) => .parse (.event kind frame)
  | error => error

namespace Stream

/-! ## The text of an envelope -/

/-- Blanks between two tokens. -/
abbrev Blanks := { gap : List Char // ∀ c ∈ gap, isBlank c = true }

/-- Text behind an opening quote that stands for a string. -/
abbrev Spelling (s : String) := { text : List Char // Document.string? text = some (some s, []) }

/-- How a frame is put into an envelope: with the name of a channel, in some spelling, and with blanks
before each token and at the end. -/
structure Envelope where
  channel : String
  name : Spelling channel
  gap : Fin 8 → Blanks

namespace Envelope

open Document

/-- The text of the envelope with its content. -/
def wrap (e : Envelope) (content : String) : String := String.ofList <|
  (e.gap 0).1 ++ '\x7b' :: (e.gap 1).1 ++ '"' :: "stream\"".toList ++ (e.gap 2).1 ++ ':' ::
    (e.gap 3).1 ++ '"' :: e.name.1 ++ (e.gap 4).1 ++ ',' :: (e.gap 5).1 ++ '"' :: "data\"".toList ++
    (e.gap 6).1 ++ ':' :: content.toList ++ '\x7d' :: (e.gap 7).1

/-- The envelope of a channel without blanks, its name written as every string. -/
def plain (channel : String) : Envelope :=
  ⟨channel, ⟨_, string?_stringText channel []⟩, fun _ => ⟨[], by simp⟩⟩

theorem wrap_plain (channel content : String) : (plain channel).wrap content =
    "\x7b\"stream\":" ++ stringText channel ++ ",\"data\":" ++ content ++ "\x7d" := by
  rw [← String.toList_inj]
  simp [wrap, plain, stringText]

variable {e : Envelope} {content : String} {n : Node}

/-- The envelope is an object with the name and the content. -/
theorem value_wrap {fuel fuel' : Nat} {rest : List Char}
    (hvalue : value fuel content.toList = (n, some rest)) (hrest : skipBlanks rest = [])
    (hfuel : fuel ≤ fuel') :
    value (fuel' + 3) (e.wrap content).toList =
      (.object [(some "stream", .string (some e.channel)), (some "data", n)], some (e.gap 7).1) := by
  have hstream : string? "stream\"".toList = some (some "stream", []) := by decide +kernel
  have hdata : string? "data\"".toList = some (some "data", []) := by decide +kernel
  have hcontent := (steady (ends_brace (e.gap 7).1) hfuel).value hvalue
  have hend : skipBlanks (rest ++ '\x7d' :: (e.gap 7).1) = '\x7d' :: (e.gap 7).1 :=
    skipBlanks_token (skipBlanks_eq_nil_iff.mp hrest) (by decide) _
  rw [wrap, String.toList_ofList]
  simp only [List.append_assoc, List.cons_append]
  refine value_eq_some_iff.mpr (.members (skipBlanks_token (e.gap 0).2 (by decide) _)
    (skipBlanks_token (e.gap 1).2 (by decide) _) (by decide) ?_)
  -- the name, and then the content
  refine members_eq_some_iff.mpr ⟨_, some "stream", _, _, _, _, rfl, string?_continues _ hstream,
    skipBlanks_token (e.gap 2).2 (by decide) _,
    value_eq_some_iff.mpr (.string (skipBlanks_token (e.gap 3).2 (by decide) _)
      (string?_continues _ e.name.2)),
    .inr ⟨_, _, skipBlanks_token (e.gap 4).2 (by decide) _, ?_, rfl⟩⟩
  exact members_eq_some_iff.mpr ⟨_, some "data", _, _, n, _,
    skipBlanks_token (e.gap 5).2 (by decide) _, string?_continues _ hdata,
    skipBlanks_token (e.gap 6).2 (by decide) _, hcontent, .inl ⟨hend, rfl⟩⟩

theorem read_wrap (e : Envelope) (h : Document.read content = (n, true)) :
    Document.read (e.wrap content) =
      (.object [(some "stream", .string (some e.channel)), (some "data", n)], true) := by
  obtain ⟨rest, hvalue, hrest⟩ := read_eq_iff.mp h
  refine read_eq_iff.mpr ⟨(e.gap 7).1, ?_, skipBlanks_eq_nil_iff.mpr (e.gap 7).2⟩
  have hlength : content.toList.length + 2 ≤ (e.wrap content).toList.length := by
    simp only [wrap, String.toList_ofList, List.length_append, List.length_cons]
    omega
  obtain ⟨fuel, hfuel⟩ : ∃ fuel, 2 * (e.wrap content).toList.length + 2 = fuel + 3 :=
    ⟨2 * (e.wrap content).toList.length - 1, by omega⟩
  rw [hfuel]
  exact value_wrap hvalue hrest (by omega)

/-- The content has one array or object more around it. -/
theorem value?_wrapped (channel : String) (hdepth : n.depth + 1 < fullRoom) :
    (Node.object [(some "stream", .string (some channel)), (some "data", n)]).value? fullRoom =
      (n.value? fullRoom).map fun v => .ofMembers [("stream", .string channel), ("data", v)] := by
  have hroom : n.value? fullRoom = n.value? (fullRoom - 1) :=
    Node.value?_of_depth n (Nat.lt_of_succ_lt hdepth) (Nat.lt_sub_of_add_lt hdepth)
  rw [hroom]
  simp only [Node.value?, Node.memberValues?, Option.map_some, Option.bind_eq_bind, Option.bind_some]
  cases n.value? (fullRoom - 1) <;> rfl

end Envelope

/-! ## Messages -/

theorem dataOf_of_bare {message : Value} (h : message.get? "data" = none) :
    dataOf message = message := by
  rw [dataOf, h, Option.getD_none]

theorem dataOf_wrapped (channel : String) (v : Value) :
    dataOf (.ofMembers [("stream", .string channel), ("data", v)]) = v := by
  have horder : "data" < "stream" := by decide
  have hsorted : Value.ofMembers [("stream", .string channel), ("data", v)] =
      .object [("data", v), ("stream", .string channel)] := by
    simp only [Value.ofMembers, sortMembers, List.foldl_cons, List.foldl_nil, insertMember,
      if_pos horder]
  rw [hsorted]
  rfl

/-- Messages with the same data are the same event, or the same error but for the frame that it
quotes. -/
theorem eventOf_of_dataOf {message message' : Value} (h : dataOf message' = dataOf message)
    (frame frame' : String) (m : SymbolMap) : eventOf message' frame' m =
      (eventOf message frame m).mapError (GatewayError.requoted frame') := by
  simp only [eventOf, h]
  cases ((dataOf message).get? "e").bind Value.string? with
  | none => rfl
  | some kind =>
    simp only
    cases reader? kind with
    | none => rfl
    | some read =>
      simp only
      cases read (dataOf message) with
      | none => rfl
      | some told =>
        obtain ⟨symbol, event⟩ := told
        simp only [SymbolMap.pairOf]
        cases m.ofSymbol? symbol <;> rfl

/-! ## Frames -/

theorem decode_value_of_read {text : String} {n : Node} (h : Document.read text = (n, true)) :
    decode Decoder.value text = Decoder.ofOption (n.value? fullRoom) := by
  rw [decode, h]
  show (Decoder.ofOption (n.value? fullRoom) >>= fun v => .ok v) = _
  cases n.value? fullRoom <;> rfl

/-- **Envelopes are transparent.**  Take any text that is a JSON document, not an object with a member
`data`, and small enough in depth for an object around it.  What is read from it in an envelope, under
whatever name, is what is read from it alone: the same event, no event, or the same error, but that an
error about a malformed event quotes the whole frame. -/
theorem read_of_envelope (e : Envelope) (content : String) (m : SymbolMap)
    (hvalid : (Document.read content).2 = true)
    (hdepth : (Document.read content).1.depth + 1 < fullRoom)
    (hbare : ∀ v, decode Decoder.value content = .ok v → v.get? "data" = none) :
    read (e.wrap content) m = (read content m).mapError (GatewayError.requoted (e.wrap content)) := by
  obtain ⟨n, hn⟩ : ∃ n, Document.read content = (n, true) := ⟨_, Prod.ext rfl hvalid⟩
  rw [hn] at hdepth
  have hcontent := decode_value_of_read hn
  have hwrapped := decode_value_of_read (e.read_wrap hn)
  rw [Envelope.value?_wrapped e.channel hdepth] at hwrapped
  cases hvalue : n.value? fullRoom with
  | none =>
    rw [hvalue] at hcontent hwrapped
    simp only [read, hcontent, hwrapped]
    rfl
  | some v =>
    rw [hvalue] at hcontent hwrapped
    rw [read_of_decode hcontent, read_of_decode hwrapped]
    exact eventOf_of_dataOf (by rw [dataOf_wrapped, dataOf_of_bare (hbare v hcontent)]) _ _ m

theorem bare_of_all {content : String} (h : ((decode Decoder.value content).toOption.all fun v =>
    (v.get? "data").isNone) = true) :
    ∀ v, decode Decoder.value content = .ok v → v.get? "data" = none := by
  intro v hv
  rw [hv] at h
  exact Option.isNone_iff_eq_none.mp h

/-- A trade. -/
def tradeFrame : String :=
  "\x7b\"e\":\"trade\",\"s\":\"BTCUSDT\",\"t\":12,\"p\":\"50000.5\",\"q\":0.001,\"T\":7,\"m\":true\x7d"

/-- A trade of which nothing is told but its symbol. -/
def brokenTradeFrame : String := "\x7b\"e\":\"trade\",\"s\":\"BTCUSDT\"\x7d"

/-- The envelope of trades in bitcoin. -/
def tradeEnvelope : Envelope := .plain "btcusdt@trade"

/-- The one is an event in an envelope, too, and the other an error that quotes the envelope. -/
theorem trades_of_envelope : ∃ price amount : Decimal,
    Decimal.ofText? "50000.5" = some price ∧ Decimal.ofText? "0.001" = some amount ∧
    read (tradeEnvelope.wrap tradeFrame) btcOnly =
      .ok (some (.trade ⟨"BTC-USDT", 12, price, amount, 7, true⟩)) ∧
    read (tradeEnvelope.wrap brokenTradeFrame) btcOnly =
      .error (.parse (.event "trade" (tradeEnvelope.wrap brokenTradeFrame))) := by
  have htrade : read tradeFrame btcOnly = .ok (some (.trade ⟨"BTC-USDT", 12,
      ⟨false, 500005, 1, by decide, by decide⟩, ⟨false, 1, 3, by decide, by decide⟩, 7, true⟩)) := by
    decide +kernel
  have hbroken : read brokenTradeFrame btcOnly =
      .error (.parse (.event "trade" brokenTradeFrame)) := by decide +kernel
  refine ⟨⟨false, 500005, 1, by decide, by decide⟩, ⟨false, 1, 3, by decide, by decide⟩,
    by decide +kernel, by decide +kernel, ?_, ?_⟩
  · rw [read_of_envelope tradeEnvelope tradeFrame btcOnly (by decide +kernel) (by decide +kernel)
      (bare_of_all (by decide +kernel)), htrade]
    rfl
  · rw [read_of_envelope tradeEnvelope brokenTradeFrame btcOnly (by decide +kernel)
      (by decide +kernel) (bare_of_all (by decide +kernel)), hbroken]
    rfl

end Stream

end SpotGateway
