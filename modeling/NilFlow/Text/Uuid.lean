import NilFlow.Text.Quoted
import NilFlow.Text.Sha1

/-!
# Name-based identifiers

* `Uuid`: sixteen bytes, with the written form `Uuid.text`.
* `Uuid.ofName`: the version-5 identifier of a name within a namespace.
-/

namespace NilFlow

structure Uuid where
  bytes : List UInt8
deriving DecidableEq, Repr, Inhabited

namespace Uuid

def urlNamespace : Uuid :=
  ⟨[0x6b, 0xa7, 0xb8, 0x11, 0x9d, 0xad, 0x11, 0xd1, 0x80, 0xb4, 0x00, 0xc0, 0x4f, 0xd4, 0x30, 0xc8]⟩

/-- The version-5 identifier of a name: the digest of namespace and name, with version and variant set. -/
def ofName (space : Uuid) (name : String) : Uuid :=
  let bytes := (Sha1.digest (space.bytes ++ name.toUTF8.toList)).take 16
  ⟨bytes.zipIdx.map fun (b, i) =>
    if i = 6 then (b &&& 0x0f) ||| 0x50 else if i = 8 then (b &&& 0x3f) ||| 0x80 else b⟩

def text (u : Uuid) : String :=
  String.ofList (u.bytes.zipIdx.flatMap fun (b, i) =>
    (if i = 4 || i = 6 || i = 8 || i = 10 then ['-'] else []) ++ hexDigits 2 b.toNat)

end Uuid

end NilFlow
