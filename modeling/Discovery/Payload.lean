import Discovery.Json.Decode

/-!
# Payloads

A payload is the data that is published for an endpoint and handed to its consumers: a table of
texts.  A node stores it as a JSON object.  A node may also hold nothing, which is the empty
payload, or other JSON values, which are handed on as their JSON text.
-/

namespace Discovery

abbrev Payload := Table String

namespace Payload

/-- The bytes that a node stores for a payload. -/
def encode (p : Payload) : Bytes :=
  Bytes.ofText (Json.ofTexts p).render

/-- A member's value as a text. -/
def textOf : Json → String
  | .text s => s
  | j => j.render

/-- The payload that the bytes of a node stand for. -/
def decode (bs : Bytes) : Except Json.Category Payload :=
  if bs.isEmpty then .ok ∅
  else (Json.decode (Json.readTable Json.readAny) bs).map fun t =>
    t.filterMap fun _ j => some (textOf j)

end Payload

end Discovery
