import AdmissionFabric.Library.LittleEndian

/-!
# Content fingerprints

The digest is 64-bit FNV-1a over a byte stream. A fingerprint is built here as the stream of
bytes that the source feeds to the hash, followed by one fold over that stream, so that the
stream itself can be reasoned about.

Source: `include/naf/core/hash.hpp`.
-/

namespace AdmissionFabric

namespace Fingerprint

/-- The state of the hash before any byte. -/
def offsetBasis : UInt64 := 0xCBF29CE484222325

/-- The hash state after one more byte. -/
def byte (value : UInt64) (v : UInt8) : UInt64 := (value ^^^ v.toUInt64) * 0x100000001B3

/-- The digest of a byte stream. -/
def ofStream (stream : List UInt8) : UInt64 := stream.foldl byte offsetBasis

/-- The stream of a 16-bit value. -/
def u16 (v : UInt16) : List UInt8 := LittleEndian.leBytes 2 v.toNat

/-- The stream of one 64-bit value. -/
def u64 (v : UInt64) : List UInt8 := LittleEndian.leBytes 8 v.toNat

/-- The stream of a container size. -/
def size (n : Nat) : List UInt8 := LittleEndian.leBytes 8 n

/-- The stream of a flag. -/
def boolean (v : Bool) : List UInt8 := [if v then 1 else 0]

/-- The domain separation bytes between groups of fields. -/
def separator (tag : UInt8) : List UInt8 := [tag, 0x5A]

end Fingerprint

end AdmissionFabric
