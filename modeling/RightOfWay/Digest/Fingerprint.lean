import RightOfWay.Digest.Sha256

/-!
# Fingerprints

A `Fingerprint` identifies a program text: it is the SHA-256 hash of its UTF-8 bytes.  It tags every
compiled set of facts and every entry of the program log.
-/

set_option autoImplicit false

namespace RightOfWay

/-- The hash that identifies a program text. -/
structure Fingerprint where
  bytes : List UInt8
  deriving DecidableEq

namespace Fingerprint

/-- The fingerprint of a text. -/
def ofText (text : String) : Fingerprint := ⟨sha256 text.toUTF8.toList⟩

/-- Two lower-case hexadecimal digits per byte. -/
def hex (f : Fingerprint) : String :=
  String.ofList <| f.bytes.flatMap fun b ↦
    [Nat.digitChar (b.toNat / 16), Nat.digitChar (b.toNat % 16)]

/-- The first eight hexadecimal digits, as log lines show them. -/
def short (f : Fingerprint) : String := String.ofList (f.hex.toList.take 8)

/-- The full hash under the name of its function. -/
def text (f : Fingerprint) : String := "sha256:" ++ f.hex

end Fingerprint
end RightOfWay
