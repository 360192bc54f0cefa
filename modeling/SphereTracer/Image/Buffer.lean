import SphereTracer.Trace.Uniforms

/-!
# Buffers

Images as bytes: a pixel is four binary32 lanes, the light in three of them and the number of
samples in the last.  A view states the shape of its bytes, and the shape can be checked against
them and against a frame.
-/

namespace SphereTracer

/-- A pixel's lanes by their bits. -/
abbrev Pixel := Vec4 Word

/-- The bytes of one pixel. -/
def pixelBytes : UInt64 := 16

namespace Pixel

def encode (p : Pixel) : List UInt8 :=
  bytesOfUInt32 p.x.bits ++ bytesOfUInt32 p.y.bits ++ bytesOfUInt32 p.z.bits ++
    bytesOfUInt32 p.w.bits

/-- The pixels of a string of bytes; a rest that is no full pixel is dropped. -/
def decode : List UInt8 → List Pixel
  | a₀ :: a₁ :: a₂ :: a₃ :: b₀ :: b₁ :: b₂ :: b₃ :: c₀ :: c₁ :: c₂ :: c₃ :: d₀ :: d₁ :: d₂ :: d₃ ::
      rest =>
    ⟨⟨uint32OfBytes a₀ a₁ a₂ a₃⟩, ⟨uint32OfBytes b₀ b₁ b₂ b₃⟩, ⟨uint32OfBytes c₀ c₁ c₂ c₃⟩,
      ⟨uint32OfBytes d₀ d₁ d₂ d₃⟩⟩ :: decode rest
  | _ => []

def ofBytes (bytes : ByteArray) : List Pixel := decode bytes.data.toList

def toBytes (pixels : List Pixel) : ByteArray := (pixels.flatMap encode).toByteArray

end Pixel

/-- Why a buffer does not fit. -/
inductive ShapeFault where
  /-- The length of the data is not what the shape says. -/
  | length
  /-- An image without pixels. -/
  | empty
  /-- Not the layout of the frame's image. -/
  | layout
  /-- A result that is longer or shorter than its image. -/
  | result
  deriving DecidableEq, Repr

def ShapeFault.reason : ShapeFault → String
  | length => "buffer data length does not match product of shape dimensions and element size"
  | empty => "resolution must be non-zero"
  | layout => "previous buffer must be [height, width] vec4<f32>"
  | result => "backend returned a buffer of the wrong size"

/-- Bytes with the sizes of their dimensions, the outermost first, and of an element. -/
structure BufferView where
  data : ByteArray
  shape : List UInt64
  elementSize : UInt64

namespace BufferView

/-- The length that a shape asks for, in the arithmetic of the machine. -/
def expected (view : BufferView) : UInt64 := view.shape.foldl (· * ·) 1 * view.elementSize

/-- The data has to be as long as the shape says. -/
def validate (view : BufferView) : Except ShapeFault Unit :=
  if view.data.size = view.expected.toNat then .ok () else .error .length

/-- The view has to be the image of a frame: valid, with at least one pixel, and of the frame's
size. -/
def checkFor (view : BufferView) (u : Uniforms) : Except ShapeFault Unit := do
  view.validate
  let (width, height) := u.dimensions
  if width = 0 ∨ height = 0 then throw .empty
  if view.elementSize ≠ pixelBytes ∨ view.shape ≠ [height.toUInt64, width.toUInt64] then
    throw .layout

end BufferView

end SphereTracer
