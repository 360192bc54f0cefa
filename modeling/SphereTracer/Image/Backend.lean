import SphereTracer.Image.Buffer
import SphereTracer.Trace.Worker
import SphereTracer.Kernel

/-!
# Backends

A backend runs one frame of a kernel: from the bytes of the previous image it makes those of the
next. The one given here traces every pixel itself, in bands of rows that could be traced side by
side.
-/

namespace SphereTracer

/-- The slots to which a kernel's buffers are bound. -/
inductive Binding where
  | uniforms
  | previous
  | accumulated
  deriving DecidableEq, Repr

def Binding.slot : Binding → UInt32
  | uniforms => 0
  | previous => 1
  | accumulated => 2

/-- Whether a slot holds a buffer that is only read. -/
def isReadOnlySlot (slot : UInt32) : Bool := slot = Binding.previous.slot

/-- Whether a slot holds uniforms instead of storage. -/
def isUniformSlot (slot : UInt32) : Bool := slot = Binding.uniforms.slot

/-- Why a frame could not be rendered. -/
inductive RenderError where
  | shape (fault : ShapeFault)
  | unavailable
  /-- The backend has refused the kernel's source. -/
  | rejected (reason source : String)
  | dispatch (reason : String)
  deriving DecidableEq, Repr

def RenderError.message : RenderError → String
  | shape fault => "buffer shape mismatch: " ++ fault.reason
  | unavailable => "backend not available"
  | rejected reason _ => "kernel failed to compile: " ++ reason
  | dispatch reason => "dispatch failed: " ++ reason

/-- The workgroups that cover an image, in three dimensions. -/
def workgroups (width height : UInt32) : Vec3 UInt32 :=
  let cover (n : UInt32) : UInt32 :=
    if n % Shader.workgroupSize = 0 then n / Shader.workgroupSize
    else n / Shader.workgroupSize + 1
  ⟨cover width, cover height, 1⟩

/-- Something that runs kernels: given the uniforms, the previous image and the workgroups, it gives
the bytes of the next image. -/
structure Backend where
  name : String
  dispatch : Kernel → Uniforms → BufferView → Vec3 UInt32 → Except RenderError ByteArray

/-- A list in pieces of `n`, of which the last may be shorter. -/
def chunks {α : Type} (n : Nat) (xs : List α) : List (List α) :=
  if n = 0 ∨ xs = [] then []
  else xs.take n :: chunks n (xs.drop n)
termination_by xs.length
decreasing_by
  rename_i h
  have := List.length_pos_iff.2 (not_or.1 h).2
  have := (not_or.1 h).1
  simp only [List.length_drop]
  omega

namespace Cpu

/-- The next value of a pixel, and the worker after it. -/
def pixel (worker : Worker Float32) (x y : Nat) (history : Pixel) : Pixel × Worker Float32 :=
  let (next, worker) :=
    worker.accumulate (UInt32.ofNat x) (UInt32.ofNat y) (history.map Word.toFloat)
  (next.map Word.ofFloat, worker)

/-- Appends the next pixel to what a worker has traced of a band that starts in row `first` of an
image of the given width. -/
def extend (width first : Nat) (traced : Array Pixel × Worker Float32) (old : Pixel) :
    Array Pixel × Worker Float32 :=
  let (pixels, worker) := traced
  let i := pixels.size
  let (next, worker) := pixel worker (i % width) (first + i / width) old
  (pixels.push next, worker)

/-- The pixels of a band, one after the other by one worker. -/
def band (program : Program) (u : Uniforms) (width first : Nat) (history : List Pixel) :
    List Pixel :=
  (history.foldl (extend width first) (#[], Worker.new program u)).1.toList

/-- How many rows a band has, for a number of threads. -/
def rowsPerBand (threads height : Nat) : Nat := (height + threads - 1) / threads

/-- The next image, band by band. -/
def frame (threads : Nat) (program : Program) (u : Uniforms) (history : List Pixel) : List Pixel :=
  let width := u.dimensions.1.toNat
  let rows := rowsPerBand threads u.dimensions.2.toNat
  ((chunks (rows * width) history).mapIdx fun i piece =>
    band program u width (i * rows) piece).flatten

/-- Checks the previous image and traces the next. -/
def dispatch (threads : Nat) (kernel : Kernel) (u : Uniforms) (previous : BufferView) :
    Except RenderError ByteArray := do
  (previous.checkFor u).mapError RenderError.shape
  return Pixel.toBytes (frame threads kernel.program u (Pixel.ofBytes previous.data))

end Cpu

/-- The backend that traces on `threads` processors, at least one. -/
def cpuBackend (threads : Nat) : Backend where
  name := "cpu"
  dispatch kernel u previous _ := Cpu.dispatch (max threads 1) kernel u previous

end SphereTracer
