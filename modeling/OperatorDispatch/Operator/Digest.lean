/-!
# A 64-bit digest of bytes

The digest of the identities is XXH64 with seed zero: four lanes take in stripes of 32 bytes, the
lanes are merged, the remaining bytes are mixed in by words of eight, four and one, and a last
round spreads the bits.  All arithmetic wraps at 64 bits.
-/

namespace OperatorDispatch
namespace Digest

def prime₁ : UInt64 := 0x9E3779B185EBCA87
def prime₂ : UInt64 := 0xC2B2AE3D27D4EB4F
def prime₃ : UInt64 := 0x165667B19E3779F9
def prime₄ : UInt64 := 0x85EBCA77C2B2AE63
def prime₅ : UInt64 := 0x27D4EB2F165667C5

/-- Rotation to the left by an amount between 1 and 63. -/
def rotate (word amount : UInt64) : UInt64 :=
  word <<< amount ||| word >>> (64 - amount)

/-- The word whose lowest byte comes first. -/
def littleEndian (bytes : List UInt8) : UInt64 :=
  bytes.foldr (fun byte word => word <<< 8 ||| byte.toUInt64) 0

/-- Takes one word into a lane. -/
def round (lane word : UInt64) : UInt64 :=
  rotate (lane + word * prime₂) 31 * prime₁

/-- The state while stripes are taken in. -/
structure Lanes where
  first : UInt64
  second : UInt64
  third : UInt64
  fourth : UInt64

namespace Lanes

/-- The lanes before the first stripe. -/
def start : Lanes :=
  ⟨prime₁ + prime₂, prime₂, 0, 0 - prime₁⟩

/-- Takes in the first 32 of the given bytes. -/
def absorb (lanes : Lanes) (bytes : List UInt8) : Lanes where
  first := round lanes.first (littleEndian (bytes.take 8))
  second := round lanes.second (littleEndian ((bytes.drop 8).take 8))
  third := round lanes.third (littleEndian ((bytes.drop 16).take 8))
  fourth := round lanes.fourth (littleEndian ((bytes.drop 24).take 8))

/-- Takes in a number of stripes and returns the bytes after them. -/
def absorbStripes (lanes : Lanes) (bytes : List UInt8) : Nat → Lanes × List UInt8
  | 0 => (lanes, bytes)
  | stripes + 1 => (lanes.absorb bytes).absorbStripes (bytes.drop 32) stripes

/-- Mixes one lane into the merged word. -/
def mergeLane (word lane : UInt64) : UInt64 :=
  (word ^^^ round 0 lane) * prime₁ + prime₄

/-- One word from the four lanes. -/
def merge (lanes : Lanes) : UInt64 :=
  let word := rotate lanes.first 1 + rotate lanes.second 7 + rotate lanes.third 12 +
    rotate lanes.fourth 18
  [lanes.first, lanes.second, lanes.third, lanes.fourth].foldl mergeLane word

end Lanes

/-- Mixes in the bytes after the last stripe: by words of eight, one word of four, then singly. -/
def mixRest (word : UInt64) : List UInt8 → UInt64
  | a :: b :: c :: d :: e :: f :: g :: h :: rest =>
      let lane := round 0 (littleEndian [a, b, c, d, e, f, g, h])
      mixRest (rotate (word ^^^ lane) 27 * prime₁ + prime₄) rest
  | a :: b :: c :: d :: rest =>
      let half := littleEndian [a, b, c, d]
      mixRest (rotate (word ^^^ half * prime₁) 23 * prime₂ + prime₃) rest
  | a :: rest => mixRest (rotate (word ^^^ a.toUInt64 * prime₅) 11 * prime₁) rest
  | [] => word

/-- The last round, which lets every bit touch every other. -/
def finish (word : UInt64) : UInt64 :=
  let word := (word ^^^ word >>> 33) * prime₂
  let word := (word ^^^ word >>> 29) * prime₃
  word ^^^ word >>> 32

/-- The digest of a list of bytes. -/
def ofBytes (bytes : List UInt8) : UInt64 :=
  let length := bytes.length
  if length < 32 then
    finish (mixRest (prime₅ + length.toUInt64) bytes)
  else
    let (lanes, rest) := Lanes.start.absorbStripes bytes (length / 32)
    finish (mixRest (lanes.merge + length.toUInt64) rest)

/-- The digest of the UTF-8 bytes of a text. -/
def ofText (text : String) : UInt64 :=
  ofBytes text.toUTF8.data.toList

end Digest
end OperatorDispatch
