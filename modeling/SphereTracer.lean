import SphereTracer.Binary32
import SphereTracer.Expr.Flatten
import SphereTracer.Decimal.Style
import SphereTracer.Decimal.Nearest
import SphereTracer.Shape.Library
import SphereTracer.Trace.Tracer
import SphereTracer.Image.Resolve
import SphereTracer.Demo
import SphereTracer.Shape.Value
import SphereTracer.Options.Reading
import SphereTracer.Command.Pointer
import SphereTracer.Main
import SphereTracer.Proofs.Graph.Flattened
import SphereTracer.Proofs.Numbers.Bits
import SphereTracer.Proofs.Expr.Denotes
import SphereTracer.Proofs.Expr.Evaluated
import SphereTracer.Proofs.Expr.Transcript
import SphereTracer.Proofs.Shape.Assembled
import SphereTracer.Proofs.Shape.Meaning
import SphereTracer.Proofs.Shape.Compiled
import SphereTracer.Proofs.Graph.Alike
import SphereTracer.Proofs.Expr.Same
import SphereTracer.Proofs.Scene.Built
import SphereTracer.Proofs.Shader.Canonical
import SphereTracer.Proofs.Program.Checked
import SphereTracer.Proofs.Program.Lookup
import SphereTracer.Proofs.Program.Accepted
import SphereTracer.Proofs.Kernel.Compositional
import SphereTracer.Proofs.Expr.Repeated
import SphereTracer.Proofs.Session.Steps
import SphereTracer.Proofs.Expr.Grown
import SphereTracer.Proofs.Session.Canonical
import SphereTracer.Proofs.Shape.Library
import SphereTracer.Proofs.Session.Addressed
import SphereTracer.Proofs.Expr.Names
import SphereTracer.Proofs.Program.Lowered
import SphereTracer.Proofs.Program.Arranged
import SphereTracer.Proofs.Program.Refused
import SphereTracer.Proofs.Interpreter.Memory
import SphereTracer.Proofs.Interpreter.Nearest
import SphereTracer.Proofs.Shader.Agreement
import SphereTracer.Proofs.Interpreter.Scope
import SphereTracer.Proofs.Image.Progress
import SphereTracer.Proofs.Image.Bands
import SphereTracer.Proofs.Trace.Hits
import SphereTracer.Proofs.Shape.LowerBound
import SphereTracer.Proofs.Trace.Marching
import SphereTracer.Proofs.Image.Valid
import SphereTracer.Proofs.Shader.Dispatch
import SphereTracer.Proofs.Trace.Events
import SphereTracer.Proofs.Trace.Radiance
import SphereTracer.Proofs.Trace.Energy
import SphereTracer.Proofs.Image.Average
import SphereTracer.Proofs.Shape.Blend
import SphereTracer.Proofs.Trace.Media
import SphereTracer.Proofs.Numbers.Counts
import SphereTracer.Proofs.Image.Size
import SphereTracer.Proofs.Shape.FirstLanes
import SphereTracer.Proofs.Numbers.Patterns
import SphereTracer.Proofs.Numbers.Differences
import SphereTracer.Proofs.Numbers.Lengths
import SphereTracer.Proofs.Shape.Computed
import SphereTracer.Proofs.Shape.Choice
import SphereTracer.Proofs.Shape.Cells
import SphereTracer.Proofs.Shape.Unrolled
import SphereTracer.Proofs.Shader.Loop
import SphereTracer.Proofs.Shader.Fold
import SphereTracer.Proofs.Trace.Headings
import SphereTracer.Proofs.Interpreter.Normals
import SphereTracer.Proofs.Image.Wrapping
import SphereTracer.Proofs.Shader.Constants
import SphereTracer.Proofs.Scene.Numbered
import SphereTracer.Proofs.Program.Collisions
import SphereTracer.Proofs.Kernel.Key
import SphereTracer.Proofs.Shader.Operands
