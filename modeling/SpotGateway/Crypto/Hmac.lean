import SpotGateway.Crypto.Sha256

/-!
# Keyed hashes

HMAC with SHA-256: a hash that only the holder of a key can make.

* `blockKey` — a key of any length as one block;
* `hmac` — the keyed hash of a message as bytes;
* `signature` — the keyed hash of a text as hexadecimal text.
-/

set_option autoImplicit false

namespace SpotGateway.Crypto

/-- The key filled up with zeros to a block; a longer key is hashed first. -/
def blockKey (key : List UInt8) : List UInt8 :=
  let key := if 64 < key.length then sha256 key else key
  key ++ List.replicate (64 - key.length) 0

/-- The keyed hash of a message. -/
def hmac (key message : List UInt8) : List UInt8 :=
  let key := blockKey key
  let inner := sha256 (key.map (· ^^^ 0x36) ++ message)
  sha256 (key.map (· ^^^ 0x5c) ++ inner)

/-- The bytes of a text. -/
def utf8 (s : String) : List UInt8 := s.toUTF8.toList

/-- The keyed hash of a text, in hexadecimal. -/
def signature (key payload : String) : String := hexText (hmac (utf8 key) (utf8 payload))

end SpotGateway.Crypto
