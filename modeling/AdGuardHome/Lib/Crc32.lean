import Mathlib.Data.List.Basic
import Mathlib.Data.Nat.Notation

/-!
# CRC-32 with the IEEE polynomial

A running checksum: feeding it the bytes of two texts one after the other is feeding it the bytes of both
(`update_append`).
-/

namespace AdGuardHome.Lib.Crc32

/-- The polynomial, with the lowest power at the highest bit. -/
def poly : UInt32 := 0xedb88320

/-- One bit of the division. -/
def shift (crc : UInt32) : UInt32 := if crc &&& 1 = 1 then (crc >>> 1) ^^^ poly else crc >>> 1

/-- The entry of the table for a byte. -/
def table (b : UInt8) : UInt32 := Nat.repeat shift 8 b.toUInt32

def step (crc : UInt32) (b : UInt8) : UInt32 := table (crc.toUInt8 ^^^ b) ^^^ (crc >>> 8)

/-- The checksum after more bytes. -/
def update (crc : UInt32) (bs : List UInt8) : UInt32 := ~~~ bs.foldl step (~~~ crc)

@[simp] theorem update_nil (crc : UInt32) : update crc [] = crc := UInt32.not_not

theorem update_append (crc : UInt32) (bs cs : List UInt8) : update crc (bs ++ cs) = update (update crc bs) cs := by
  rw [update, update, update, List.foldl_append, UInt32.not_not]

/-- The checksum of the nine digits. -/
example : update 0 [49, 50, 51, 52, 53, 54, 55, 56, 57] = 0xcbf43926 := by decide +kernel

end AdGuardHome.Lib.Crc32
