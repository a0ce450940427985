import Mathlib.Logic.Function.Iterate

/-!
# Checksums

`zlib.crc32` and `zlib.adler32` of a sequence of bytes, without a starting value.
-/

namespace Zlib

/-- One bit of the remainder. -/
def crcBit (c : BitVec 32) : BitVec 32 :=
  if c.getLsbD 0 then (c >>> 1) ^^^ 0xEDB88320#32 else c >>> 1

/-- One byte of the remainder. -/
def crcByte (c : BitVec 32) (b : ℕ) : BitVec 32 := crcBit^[8] (c ^^^ BitVec.ofNat 32 b)

/-- `crc32` -/
def crc32 (bytes : List ℕ) : ℕ := (bytes.foldl crcByte 0xFFFFFFFF#32 ^^^ 0xFFFFFFFF#32).toNat

/-- `adler32` -/
def adler32 (bytes : List ℕ) : ℕ :=
  let sums := bytes.foldl (fun s b => ((s.1 + b) % 65521, (s.2 + s.1 + b) % 65521)) (1, 0)
  sums.2 * 65536 + sums.1

end Zlib
