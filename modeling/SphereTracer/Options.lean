import SphereTracer.Binary32

/-!
# Kernel options

The numbers that are baked into a kernel, and the ranges they must lie in.
-/

namespace SphereTracer

structure Options (α : Type) where
  /-- The distance below which a march counts as a hit. -/
  epsilon : α
  /-- The offset with which distances are differentiated for normals. -/
  normalEpsilon : α
  /-- March steps per segment of a path. -/
  steps : UInt32
  /-- Segments per path. -/
  bounces : UInt32
  /-- Paths per pixel and frame. -/
  iterations : UInt32
  /-- A factor on every march step, below one for fields that overestimate. -/
  stepFactor : α
  /-- The decay of the accumulated history per frame. -/
  memory : α
  /-- The display gamma. -/
  gamma : α
  /-- Four-tap normals instead of six-tap central differences. -/
  cheapNormals : Bool
  deriving DecidableEq, Repr, Inhabited

/-- What can be wrong with an option. -/
inductive OptionFault where
  | notPositive
  | zero
  | tooLarge
  | stepFactorRange
  | memoryRange
  deriving DecidableEq, Repr

namespace OptionFault

def reason : OptionFault → String
  | notPositive => "must be positive and finite"
  | zero => "must be at least one"
  | tooLarge => "must fit in an i32"
  | stepFactorRange => "must be in (0, 1]"
  | memoryRange => "must be in [0, 1]"

end OptionFault

/-- An option and what is wrong with it. -/
structure OptionError where
  name : String
  fault : OptionFault
  deriving DecidableEq, Repr

def OptionError.message (e : OptionError) : String :=
  "invalid option `" ++ e.name ++ "`: " ++ e.fault.reason

namespace Options

def standard : Options Word where
  epsilon := 1e-5
  normalEpsilon := 1e-4
  steps := 100
  bounces := 8
  iterations := 1
  stepFactor := 1.0
  memory := 1.0
  gamma := 2.2
  cheapNormals := false

/-- The options with other numbers. -/
def map {α β : Type} (f : α → β) (o : Options α) : Options β where
  epsilon := f o.epsilon
  normalEpsilon := f o.normalEpsilon
  steps := o.steps
  bounces := o.bounces
  iterations := o.iterations
  stepFactor := f o.stepFactor
  memory := f o.memory
  gamma := f o.gamma
  cheapNormals := o.cheapNormals

/-- The greatest count that a signed word holds. -/
def maxCount : UInt32 := 2147483647

/-- A number has to be positive and finite. -/
def checkPositive (name : String) (w : Word) : Except OptionError Unit :=
  if w.isFinite && decide (0.0 < w.toFloat) then .ok () else .error ⟨name, .notPositive⟩

/-- A count has to be positive and to fit into a signed word. -/
def checkCount (name : String) (n : UInt32) : Except OptionError Unit :=
  if n = 0 then .error ⟨name, .zero⟩
  else if n > maxCount then .error ⟨name, .tooLarge⟩
  else .ok ()

/-- The first option that is out of range. -/
def validate (o : Options Word) : Except OptionError Unit := do
  checkPositive "epsilon" o.epsilon
  checkPositive "normal_epsilon" o.normalEpsilon
  checkPositive "gamma" o.gamma
  checkCount "steps" o.steps
  checkCount "bounces" o.bounces
  checkCount "iterations" o.iterations
  -- A NaN fails every comparison, so it is refused here too.
  if !(decide (0.0 < o.stepFactor.toFloat) && decide (o.stepFactor.toFloat ≤ 1.0)) then
    throw ⟨"step_factor", .stepFactorRange⟩
  if !(decide (0.0 ≤ o.memory.toFloat) && decide (o.memory.toFloat ≤ 1.0)) then
    throw ⟨"memory", .memoryRange⟩

end Options

end SphereTracer
