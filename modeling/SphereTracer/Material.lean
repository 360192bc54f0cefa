import SphereTracer.Expr.Term

/-!
# Materials

Optical properties of a surface and of the medium behind it.  `Material (Term κ)` describes a
material, `Material Handle` is one whose fields are nodes of an arena.
-/

namespace SphereTracer

/-- The six properties, in the order in which kernels list them. -/
structure Material (α : Type) where
  /-- The probability in `[0, 1]` that a hit refracts instead of reflecting. -/
  transmittance : α
  /-- `0` is fully diffuse, `1` is a perfect mirror. -/
  smoothness : α
  /-- The index of refraction. -/
  refraction : α
  /-- The mean free path inside the medium; from `maxDistance` on it never scatters. -/
  scatter : α
  color : α
  emissivity : α
  deriving DecidableEq, Repr, Inhabited

namespace Material

variable {α β : Type}

def toList (m : Material α) : List α :=
  [m.transmittance, m.smoothness, m.refraction, m.scatter, m.color, m.emissivity]

/-- Acts on the fields in order. -/
def mapM {M : Type → Type} [Monad M] (f : α → M β) (m : Material α) : M (Material β) := do
  let transmittance ← f m.transmittance
  let smoothness ← f m.smoothness
  let refraction ← f m.refraction
  let scatter ← f m.scatter
  let color ← f m.color
  let emissivity ← f m.emissivity
  return ⟨transmittance, smoothness, refraction, scatter, color, emissivity⟩

def map (f : α → β) (m : Material α) : Material β :=
  ⟨f m.transmittance, f m.smoothness, f m.refraction, f m.scatter, f m.color, f m.emissivity⟩

section
variable {κ : Type} [OfScientific κ]

/-- White, diffuse, opaque and dark. -/
def plain : Material (Term κ) where
  transmittance := 0.0
  smoothness := 0.0
  refraction := 1.0
  scatter := .splat maxDistance
  color := 1.0
  emissivity := 0.0

end

end Material

/-- A light that shines from afar in one direction. -/
structure Spotlight (α : Type) where
  direction : α
  color : α
  /-- Near `0` the beam is narrow, at `1` the light is uniform. -/
  spread : α
  ambient : α

namespace Spotlight

variable {κ : Type} [OfScientific κ]

/-- White light from above. -/
def standard : Spotlight (Term κ) where
  direction := .constant (Axis.unit .y)
  color := 1.0
  spread := 0.5
  ambient := 0.0

/-- Radiance that falls off with the angle between the point, seen from the origin, and the
direction of the light. -/
def emissivity (light : Spotlight (Term κ)) : Term κ :=
  let cosine :=
    .binary .dot (.unary .normalize (.var .position)) (.unary .normalize light.direction)
  let falloff := cosine * 0.5 + 0.5
  let s := .component light.spread .x
  let shaped := .binary .pow falloff (.after s (1.0 / s - 1.0))
  .after shaped (light.color / s * shaped + light.ambient)

/-- A black surface that emits the light. -/
def material (light : Spotlight (Term κ)) : Material (Term κ) :=
  { Material.plain with color := 0.0, emissivity := light.emissivity }

end Spotlight

end SphereTracer
