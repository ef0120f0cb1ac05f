import TxStore.Identifier

/-!
# Hashes of table names

The identifier of a table is the 64-bit FNV-1a hash of its name's UTF-8 bytes: starting from an
offset basis, each byte is combined by exclusive or and the result is multiplied by a prime, modulo
`2^64`. A database may be built with another `Hasher`; two names may then have one identifier.
-/

namespace TxStore

namespace Fnv1a

/-- The hash of no bytes. -/
def basis : UInt64 := 0xcbf29ce484222325

/-- The multiplier. -/
def prime : UInt64 := 0x100000001b3

/-- Takes one byte into the hash. -/
def step (h : UInt64) (b : UInt8) : UInt64 :=
  (h ^^^ b.toUInt64) * prime

/-- The hash of a byte string. -/
def hash (data : List UInt8) : UInt64 :=
  data.foldl step basis

/-- The hash of a text's UTF-8 bytes. -/
def hashText (s : String) : UInt64 :=
  hash s.toUTF8.data.toList

/-- A hash of a longer string goes on from the hash of its beginning. -/
theorem hash_append (p s : List UInt8) :
    hash (p ++ s) = s.foldl step (hash p) :=
  List.foldl_append

end Fnv1a

/-- A way to derive table identifiers from table names. -/
structure Hasher where
  /-- How listings call it. -/
  label : String
  /-- The identifier of a name. -/
  tableId : String → TableId

namespace Hasher

/-- FNV-1a of the name. -/
def fnv1a : Hasher where
  label := "Fnv1aHasher"
  tableId name := ⟨Fnv1a.hashText name⟩

/-- FNV-1a of the name modulo `n`, so that names share identifiers. -/
def reduced (n : UInt64) : Hasher where
  label := "ModHasher(" ++ toString n.toNat ++ ")"
  tableId name := ⟨Fnv1a.hashText name % n⟩

/-- The hasher that databases use unless told otherwise. -/
instance : Inhabited Hasher := ⟨fnv1a⟩

end Hasher

end TxStore
