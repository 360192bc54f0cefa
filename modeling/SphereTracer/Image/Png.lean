import SphereTracer.Image.Resolve

/-!
# Pictures as PNG

The data of a picture is stored without compression: a zlib stream of stored blocks inside the
chunks of the format.
-/

namespace SphereTracer.Png

/-- The four bytes of a word, most significant first. -/
def bigEndian (n : UInt32) : List UInt8 := (bytesOfUInt32 n).reverse

/-- The polynomial of the checksum of chunks, lowest power first. -/
def polynomial : UInt32 := 0xedb88320

/-- One step of polynomial division. -/
def shift (c : UInt32) : UInt32 := if c &&& 1 = 1 then (c >>> 1) ^^^ polynomial else c >>> 1

/-- A byte more of the checksum of chunks. -/
def crcStep (c : UInt32) (b : UInt8) : UInt32 := Nat.repeat shift 8 (c ^^^ b.toUInt32)

/-- The checksum of chunks. -/
def crc (bytes : List UInt8) : UInt32 := bytes.foldl crcStep 0xffffffff ^^^ 0xffffffff

/-- The checksum of zlib streams: the sum of the bytes and the sum of those sums. -/
def adler (bytes : List UInt8) : UInt32 :=
  let (a, b) := bytes.foldl (fun (a, b) byte =>
    let a := (a + byte.toNat) % 65521
    (a, (b + a) % 65521)) (1, 0)
  UInt32.ofNat (b * 65536 + a)

/-- The greatest length of a stored block. -/
def maxBlock : Nat := 65535

def block (last : Bool) (bytes : List UInt8) : List UInt8 :=
  let length := UInt32.ofNat bytes.length
  (if last then 1 else 0) :: (bytesOfUInt32 length).take 2 ++ (bytesOfUInt32 (~~~length)).take 2 ++
    bytes

/-- Blocks one after the other; there is at least one. -/
def blocks : List (List UInt8) → List UInt8
  | [] => block true []
  | [last] => block true last
  | first :: rest => block false first ++ blocks rest

def stream (bytes : List UInt8) : List UInt8 :=
  [0x78, 0x01] ++ blocks (chunks maxBlock bytes) ++ bigEndian (adler bytes)

def chunk (type : String) (data : List UInt8) : List UInt8 :=
  let body := type.toUTF8.data.toList ++ data
  bigEndian (UInt32.ofNat data.length) ++ body ++ bigEndian (crc body)

/-- The rows of a picture, each behind the number of its filter, which is none. -/
def scanlines (p : Picture) : List UInt8 :=
  (chunks (4 * p.width.toNat) p.rgba).flatMap fun row => 0 :: row

def encode (p : Picture) : List UInt8 :=
  [0x89, 0x50, 0x4e, 0x47, 0x0d, 0x0a, 0x1a, 0x0a] ++
    -- Eight bits per channel, colours with opacity, no interlacing.
    chunk "IHDR" (bigEndian p.width ++ bigEndian p.height ++ [8, 6, 0, 0, 0]) ++
    chunk "IDAT" (stream (scanlines p)) ++ chunk "IEND" []

end SphereTracer.Png
