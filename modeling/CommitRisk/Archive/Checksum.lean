/-!
# Checksums

The thirty-two bit cyclic redundancy check of archives: the remainder of the
bytes, lowest bit first, by the polynomial that Ethernet uses, with the bits
turned over before and after.

## Main definitions

* `crcBit`, `crcByte`: The remainder after one more bit and one more byte.
* `crc32`: The checksum of some bytes.
-/

namespace CommitRisk

/-- Takes one bit out of the remainder. -/
def crcBit (r : UInt32) : UInt32 :=
  if r &&& 1 == 1 then (r >>> 1) ^^^ 0xedb88320 else r >>> 1

/-- The remainder after one more byte. -/
def crcByte (r : UInt32) (b : UInt8) : UInt32 :=
  crcBit (crcBit (crcBit (crcBit (crcBit (crcBit (crcBit (crcBit (r ^^^ b.toUInt32))))))))

/-- The checksum of some bytes. -/
def crc32 (bytes : List UInt8) : UInt32 :=
  bytes.foldl crcByte 0xffffffff ^^^ 0xffffffff

end CommitRisk
