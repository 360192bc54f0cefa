import SphereTracer.Proofs.Shape.Assembled
import SphereTracer.Shape.Library

/-!
# The library captures nothing

Shapes made of shapes refer to no arena, as long as the shapes and parameters that they are made of
do not.
-/

namespace SphereTracer.Shape

variable {a : Shape Word} {t : Term Word}

theorem empty_closed : (empty : Shape Word).Closed := trivial

theorem solid_closed : (solid : Shape Word).Closed := trivial

theorem rotateX_closed (ht : t.Closed) (ha : a.Closed) : (rotateX t a).Closed := ⟨trivial, ht, ha⟩

theorem rotateY_closed (ht : t.Closed) (ha : a.Closed) : (rotateY t a).Closed := ⟨trivial, ht, ha⟩

theorem rotateZ_closed (ht : t.Closed) (ha : a.Closed) : (rotateZ t a).Closed := ⟨trivial, ht, ha⟩

theorem twist_closed (axis : Axis) (ht : t.Closed) (ha : a.Closed) : (twist axis t a).Closed :=
  ⟨trivial, ⟨trivial, ht⟩, ha⟩

theorem smoothBox_closed {dimensions radius : Term Word} (hd : dimensions.Closed)
    (hr : radius.Closed) : (smoothBox dimensions radius).Closed := by
  have hinset : (dimensions - radius).Closed := ⟨hd, hr⟩
  exact ⟨trivial, trivial, trivial, ⟨hinset, trivial, hinset⟩, hr, trivial⟩

theorem polyhedron_closed (normals : List (Vec3 Word)) : (polyhedron normals).Closed := by
  have hfold {s : Shape Word} (hs : s.Closed) :
      (normals.foldl (fun s n => intersection s (plane (.constant n) (.splat (-0.5))))
        s).Closed := by
    induction normals generalizing s with
    | nil => exact hs
    | cons n rest ih => exact ih ⟨hs, trivial, trivial⟩
  exact hfold solid_closed

theorem cube_closed : (cube : Shape Word).Closed := polyhedron_closed _

theorem tetrahedron_closed : tetrahedron.Closed := polyhedron_closed _

theorem octahedron_closed : octahedron.Closed := polyhedron_closed _

theorem dodecahedron_closed : dodecahedron.Closed := polyhedron_closed _

theorem truchet_closed : truchet.Closed := by
  have hring : (torus 0.5 0.1 : Shape Word).Closed := ⟨trivial, trivial⟩
  have hbase {x z : Term Word} (hx : x.Closed) (hz : z.Closed) :
      (intersection cube (union
        (union (translate (.constant ⟨0.5, 0.0, 0.5⟩) (torus 0.5 0.1))
          (translate (.constant ⟨-0.5, 0.5, 0.0⟩) (rotateX x (torus 0.5 0.1))))
        (translate (.constant ⟨0.0, -0.5, -0.5⟩) (rotateZ z (torus 0.5 0.1))))).Closed :=
    ⟨cube_closed, ⟨⟨trivial, hring⟩, trivial, rotateX_closed hx hring⟩, trivial,
      rotateZ_closed hz hring⟩
  refine ⟨trivial, trivial, trivial, fun i => ?_⟩
  match i with
  | 0 => exact hbase trivial trivial
  | 1 => exact rotateX_closed trivial (hbase trivial trivial)
  | 2 => exact rotateX_closed trivial (hbase trivial trivial)
  | 3 => exact rotateX_closed trivial (hbase trivial trivial)

theorem bar_closed : Tree.bar.Closed := smoothBox_closed trivial trivial

theorem grow_closed (ha : a.Closed) : ∀ n, (Tree.grow a n).Closed
  | 0 => ha
  | 1 => ha
  | n + 2 => by
    have htrunk := grow_closed ha (n + 1)
    have hturned (lean : Word) :
        (rotateY (.splat (-0.1)) (rotateZ (.splat lean) (Tree.grow a (n + 1)))).Closed :=
      rotateY_closed trivial (rotateZ_closed trivial htrunk)
    exact ⟨trivial, htrunk, trivial, trivial, trivial, trivial, hturned _⟩

theorem treeWith_closed (levels : UInt32) (ha : a.Closed) : (treeWith levels a).Closed :=
  grow_closed ha _

theorem tree_closed (levels : UInt32) : (tree levels).Closed := treeWith_closed levels bar_closed

end SphereTracer.Shape
