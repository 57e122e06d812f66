import CertKeeper.Bytes

/-!
# FNV-1a

A hash of 64 bits. Each byte is mixed into what has been hashed before it.
-/

namespace CertKeeper.Digest.Fnv1a

def offset : UInt64 := 0xCBF29CE484222325

def prime : UInt64 := 0x100000001B3

def hash (b : Bytes) : UInt64 := b.foldl (fun h x => (h ^^^ x.toUInt64) * prime) offset

end CertKeeper.Digest.Fnv1a
