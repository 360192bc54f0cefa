import SphereTracer.Command.Run
import SphereTracer.Image.Png

/-!
# The command line program

Renders a built-in scene to a picture.
-/

namespace SphereTracer

def Artifact.bytes : Artifact → ByteArray
  | text s => s.toUTF8
  | picture p => (Png.encode p).toByteArray
  | empty => .empty

/-- What the operating system has refused. -/
def DiskFault.ofError : IO.Error → DiskFault
  | .noFileOrDirectory .. => .missing
  | .inappropriateType _ code details =>
    if code = 21 then .isDirectory else if code = 20 then .notDirectory else .other details
  | e => .other (toString e)

/-- The disk of the machine. -/
def machineDisk : Disk IO where
  read path := do
    try
      match String.fromUTF8? (← IO.FS.readBinFile path) with
      | some s => return .ok s
      | none => return .error .notText
    catch e => return .error (.ofError e)
  write path a := do
    try
      IO.FS.writeBinFile path a.bytes
      return .ok ()
    catch e => return .error (.ofError e)

/-- A line of help for each option. -/
def usage : String :=
  "Usage: sphere-tracer [OPTIONS]\n\n" ++
    String.join (Flag.all.map fun flag =>
      "  --" ++ flag.name ++ " <value>: " ++ flag.purpose ++ "\n")

end SphereTracer

open SphereTracer in
/-- Runs the command that the arguments give. -/
def main (arguments : List String) : IO UInt32 := do
  let outcome ← execute machineDisk arguments
  match outcome with
  | .done => pure ()
  | .help => IO.print usage
  | .rejected => IO.eprint ("error: invalid arguments\n\n" ++ usage)
  | .failed report => IO.eprint report.text
  return outcome.exitCode.toUInt32
