/-
Entity tags of documents.

A document is tagged by the beginning of its digest, so that a client can tell whether it has
changed.  The tag is weak: it promises nothing about the bytes that carry the document.

* `Digest.hex` — bytes in hexadecimal digits;
* `Digest.weakTag` — the tag of a text.
-/

import OData.Digest.Blake3

set_option relaxedAutoImplicit false
set_option autoImplicit false

namespace OData.Digest

/-- The two hexadecimal digits of each byte. -/
def hex (bytes : List UInt8) : List Char :=
  bytes.flatMap fun byte => [Nat.digitChar (byte.toNat / 16), Nat.digitChar (byte.toNat % 16)]

/-- The weak tag of a text: the first sixteen hexadecimal digits of its digest. -/
def weakTag (text : String) : String :=
  let digits := hex (Blake3.digest text.toUTF8.data.toList)
  "W/\"" ++ String.ofList (digits.take 16) ++ "\""

end OData.Digest
