import SphereTracer.Image.Backend

/-!
# Accumulation

A progressive render keeps two images.  Each frame reads one and writes the other, so that no frame
reads what it writes, and a frame that fails leaves both as they were.
-/

namespace SphereTracer

/-- The inputs that change from frame to frame. -/
structure FrameInput where
  mouse : Vec2 Word
  time : Word
  clicked : Bool
  seed : UInt32
  deriving DecidableEq, Repr

/-- Two images of one size, and the number of frames since they were cleared.  Frame `n` reads image
`n % 2`. -/
structure Accumulator where
  width : UInt32
  height : UInt32
  frame : UInt32
  first : ByteArray
  second : ByteArray

namespace Accumulator

/-- The bytes of an image, in the arithmetic of the machine. -/
def imageBytes (width height : UInt32) : UInt64 :=
  width.toUInt64 * height.toUInt64 * pixelBytes

/-- An image of zeros. -/
def blank (bytes : Nat) : ByteArray := bytes.repeat (·.push 0) .empty

theorem size_blank (bytes : Nat) : (blank bytes).size = bytes := by
  induction bytes with
  | zero => rfl
  | succ n ih => simpa [blank, Nat.repeat] using ih

/-- Two blank images; they have at least one pixel. -/
def new (width height : UInt32) : Except RenderError Accumulator :=
  if width = 0 ∨ height = 0 then .error (.shape .empty)
  else
    let bytes := (imageBytes width height).toNat
    .ok ⟨width, height, 0, blank bytes, blank bytes⟩

/-- The image that the next frame reads, which is the one that was written last. -/
def readIndex (acc : Accumulator) : Nat := acc.frame.toNat % 2

/-- The image that the next frame writes. -/
def writeIndex (acc : Accumulator) : Nat := 1 - acc.readIndex

def buffer (acc : Accumulator) (i : Nat) : ByteArray := if i = 0 then acc.first else acc.second

def setBuffer (acc : Accumulator) (i : Nat) (data : ByteArray) : Accumulator :=
  if i = 0 then { acc with first := data } else { acc with second := data }

/-- The uniforms of the next frame. -/
def uniforms (acc : Accumulator) (input : FrameInput) : Uniforms :=
  { Uniforms.ofSize acc.width acc.height with
    mouse := input.mouse
    time := input.time
    frame := acc.frame
    clicked := if input.clicked then 1 else 0
    seed := input.seed }

/-- The image that the next frame reads, as a backend gets it. -/
def previous (acc : Accumulator) : BufferView :=
  ⟨acc.buffer acc.readIndex, [acc.height.toUInt64, acc.width.toUInt64], pixelBytes⟩

/-- Renders one frame in place and swaps the images.  An error keeps what has been written before
it. -/
def advance (backend : Backend) (kernel : Kernel) (input : FrameInput) :
    ExceptT RenderError (StateM Accumulator) Unit := do
  let acc ← get
  let previous := acc.previous
  let next ← MonadExcept.ofExcept (backend.dispatch kernel (acc.uniforms input) previous
    (workgroups acc.width acc.height))
  -- No backend is trusted with the size of an image.
  if next.size ≠ previous.data.size then throw (.shape .result)
  modify fun acc => acc.setBuffer acc.writeIndex next
  modify fun acc => { acc with frame := acc.frame + 1 }

/-- The accumulator after one more frame. -/
def render (acc : Accumulator) (backend : Backend) (kernel : Kernel) (input : FrameInput) :
    Except RenderError Accumulator :=
  match (advance backend kernel input).run.run acc with
  | (.ok (), acc) => .ok acc
  | (.error e, _) => .error e

/-- Clears both images and the count of frames. -/
def reset (acc : Accumulator) : Accumulator :=
  let bytes := acc.first.size
  { acc with frame := 0, first := blank bytes, second := blank bytes }

/-- The light and the number of samples of each pixel, row by row from the top. -/
def pixels (acc : Accumulator) : List Pixel := Pixel.ofBytes (acc.buffer acc.readIndex)

end Accumulator

end SphereTracer
