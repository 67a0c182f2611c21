import Mathlib.Data.List.Basic
import SpotGateway.Authentication
import SpotGateway.Proofs.Text.Digits

/-!
# Signatures

A signature is the keyed hash of what is signed, written as 64 hexadecimal digits that tell every bit
of the hash.  Of the credentials only the secret has a part in it, as the block that it fills, and of
the request only what is signed.

* `Crypto.length_sha256`, `Crypto.length_blockKey`, `Crypto.length_hmac` — hashes, keys and keyed
  hashes have their sizes, whatever is hashed;
* `Crypto.blockKey_of_filled`, `Crypto.blockKey_of_long` — keys that fill the same block;
* `Crypto.hexText_spec`, `Crypto.hexText_injective` — bytes as hexadecimal text;
* `Authenticator.sign_spec`, `Authenticator.sign_eq_iff`, `Authenticator.sign_eq_of_blockKey` — the
  signature of a request.
-/

set_option autoImplicit false

namespace SpotGateway

namespace Crypto

/-! ## Sizes -/

theorem length_toBigEndian (count n : Nat) : (toBigEndian count n).length = count := by
  simp [toBigEndian]

theorem length_sha256 (message : List UInt8) : (sha256 message).length = 32 := by
  simp [sha256, State.words, length_toBigEndian]

theorem length_hmac (key message : List UInt8) : (hmac key message).length = 32 :=
  length_sha256 _

/-- A key of any length becomes one block. -/
theorem length_blockKey (key : List UInt8) : (blockKey key).length = 64 := by
  unfold blockKey
  split
  · simp [length_sha256]
  · rename_i hshort
    rw [List.length_append, List.length_replicate]
    omega

/-! ## Keys of the same block -/

/-- Zeros at the end of a key do not count, as long as it fits into a block. -/
theorem blockKey_of_filled {key : List UInt8} {zeros : Nat} (h : key.length + zeros ≤ 64) :
    blockKey (key ++ List.replicate zeros 0) = blockKey key := by
  have hfilled : (key ++ List.replicate zeros (0 : UInt8)).length = key.length + zeros := by simp
  have hlong : ¬ 64 < (key ++ List.replicate zeros (0 : UInt8)).length := by omega
  have hshort : ¬ 64 < key.length := by omega
  simp only [blockKey, if_neg hlong, if_neg hshort]
  rw [hfilled, List.append_assoc, List.replicate_append_replicate]
  congr 2
  omega

/-- A key that is longer than a block is as good as its hash. -/
theorem blockKey_of_long {key : List UInt8} (h : 64 < key.length) :
    blockKey key = blockKey (sha256 key) := by
  have hshort : ¬ 64 < (sha256 key).length := by rw [length_sha256]; omega
  simp only [blockKey, if_pos h, if_neg hshort]

theorem hmac_of_blockKey {key key' : List UInt8} (h : blockKey key = blockKey key')
    (message : List UInt8) : hmac key message = hmac key' message := by
  simp only [hmac, h]

/-! ## Hexadecimal text -/

theorem toList_hexText (bytes : List UInt8) : (hexText bytes).toList =
    bytes.flatMap fun b => (Text.paddedHexadecimal 2 b.toNat).toList := by
  induction bytes with
  | nil => rfl
  | cons b rest ih => simpa [hexText, String.join_cons] using ih

/-- The two digits of a byte are read back one by one. -/
theorem hexDigits_of_byte : ∀ n < 256,
    (Text.paddedHexadecimal 2 n).toList.map Text.hexDigit? = [some (n / 16), some (n % 16)] := by
  decide +kernel

theorem length_hexDigits (b : UInt8) : (Text.paddedHexadecimal 2 b.toNat).toList.length = 2 := by
  have h := congrArg List.length (hexDigits_of_byte b.toNat b.toNat_lt)
  simpa using h

/-- Two digits for each byte. -/
theorem hexText_spec (bytes : List UInt8) : (hexText bytes).toList.length = 2 * bytes.length ∧
    ∀ c ∈ (hexText bytes).toList, Text.isHexadecimal c = true := by
  rw [toList_hexText]
  constructor
  · induction bytes with
    | nil => rfl
    | cons b rest ih =>
      rw [List.flatMap_cons, List.length_append, ih, length_hexDigits, List.length_cons]
      omega
  · intro c hc
    obtain ⟨b, _, hc⟩ := List.mem_flatMap.mp hc
    have hbyte : b.toNat < 16 ^ 2 := b.toNat_lt
    obtain ⟨cs, hcs, hdigits, _⟩ := Text.paddedHexadecimal_spec (by decide) hbyte
    rw [hcs, String.toList_ofList] at hc
    exact hdigits c hc

/-- The text of bytes tells the bytes. -/
theorem hexText_injective : Function.Injective hexText := by
  intro xs
  induction xs with
  | nil =>
    intro ys h
    have hlength := (hexText_spec ys).1
    rw [← h, (hexText_spec []).1, List.length_nil] at hlength
    exact (List.length_eq_zero_iff.mp (by omega)).symm
  | cons x xs ih =>
    intro ys h
    cases ys with
    | nil =>
      have hlength := (hexText_spec (x :: xs)).1
      rw [h, (hexText_spec []).1, List.length_nil, List.length_cons] at hlength
      omega
    | cons y ys =>
      rw [← String.toList_inj, toList_hexText, toList_hexText, List.flatMap_cons,
        List.flatMap_cons] at h
      obtain ⟨hdigits, hrest⟩ := List.append_inj h (by rw [length_hexDigits, length_hexDigits])
      rw [← toList_hexText, ← toList_hexText, String.toList_inj] at hrest
      have hread := congrArg (List.map Text.hexDigit?) hdigits
      rw [hexDigits_of_byte _ x.toNat_lt, hexDigits_of_byte _ y.toNat_lt] at hread
      simp only [List.cons.injEq, Option.some.injEq, and_true] at hread
      have hbyte : x = y := UInt8.toNat_inj.mp (by omega)
      rw [hbyte, ih hrest]

end Crypto

namespace Authenticator

open Crypto

variable (a a' : Authenticator) (r r' : Http.Request) (millis millis' : Int)

/-- A signature is 64 hexadecimal digits in lower case, whatever is signed. -/
theorem sign_spec : (a.sign r millis).toList.length = 64 ∧
    ∀ c ∈ (a.sign r millis).toList, Text.isHexadecimal c = true := by
  obtain ⟨hlength, hdigits⟩ :=
    hexText_spec (hmac (utf8 a.credentials.secret) (utf8 (payload r millis)))
  rw [length_hmac] at hlength
  exact ⟨hlength, hdigits⟩

/-- Signatures are the same exactly if the keyed hashes of what is signed are. -/
theorem sign_eq_iff : a.sign r millis = a'.sign r' millis' ↔
    hmac (utf8 a.credentials.secret) (utf8 (payload r millis)) =
      hmac (utf8 a'.credentials.secret) (utf8 (payload r' millis')) :=
  hexText_injective.eq_iff

variable {a a' r r' millis millis'}

/-- Of the credentials only the secret has a part in a signature, as the block that it fills, and of
the request only what is signed. -/
theorem sign_eq_of_blockKey
    (hsecret : blockKey (utf8 a.credentials.secret) = blockKey (utf8 a'.credentials.secret))
    (hpayload : payload r millis = payload r' millis') : a.sign r millis = a'.sign r' millis' := by
  rw [sign_eq_iff, hpayload]
  exact hmac_of_blockKey hsecret _

end Authenticator

/-- The keyed hash of a text that is known. -/
example : Crypto.signature "Jefe" "what do ya want for nothing?" =
    "5bdcc146bf60754e6a042426089575c75a003f089d2739839dec58b964ec3843" := by
  decide +kernel

end SpotGateway
