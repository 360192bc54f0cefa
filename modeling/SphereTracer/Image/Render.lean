import SphereTracer.Image.Resolve

/-!
# Rendering

A picture is rendered by accumulating a number of frames with the same inputs.
-/

namespace SphereTracer

/-- What to render and for how long. -/
structure RenderSettings where
  width : UInt32
  height : UInt32
  frames : UInt32
  seed : UInt32
  time : Word
  mouse : Vec2 Word
  deriving DecidableEq, Repr

/-- Settings for a small picture. -/
def RenderSettings.standard : RenderSettings := ⟨320, 240, 16, 0, ⟨0⟩, ⟨⟨0⟩, ⟨0⟩⟩⟩

/-- The inputs of every frame. -/
def RenderSettings.input (s : RenderSettings) : FrameInput := ⟨s.mouse, s.time, false, s.seed⟩

/-- Where rendering has failed. -/
inductive RenderFailure where
  /-- There is no image to accumulate in. -/
  | start (e : RenderError)
  /-- A frame, counted from zero, has failed. -/
  | frame (n : Nat) (e : RenderError)
  deriving DecidableEq, Repr

/-- Renders `n` frames, of which the first has the number `frame`. -/
def renderFrames (backend : Backend) (kernel : Kernel) (input : FrameInput) :
    Nat → Nat → Accumulator → Except RenderFailure Accumulator
  | _, 0, acc => .ok acc
  | frame, n + 1, acc =>
    match acc.render backend kernel input with
    | .error e => .error (.frame frame e)
    | .ok acc => renderFrames backend kernel input (frame + 1) n acc

/-- Accumulates the frames of the settings. -/
def render (backend : Backend) (kernel : Kernel) (settings : RenderSettings) :
    Except RenderFailure Accumulator :=
  match Accumulator.new settings.width settings.height with
  | .error e => .error (.start e)
  | .ok acc => renderFrames backend kernel settings.input 0 settings.frames.toNat acc

end SphereTracer
