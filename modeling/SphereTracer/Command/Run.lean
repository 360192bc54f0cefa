import SphereTracer.Options.Reading
import SphereTracer.Image.Format
import SphereTracer.Command.Arguments
import SphereTracer.Command.Disk
import SphereTracer.Command.Report

/-!
# Commands

A command compiles a scene, writes the kernel's text if that is asked for, renders, and writes the
picture.  The first failure ends it.
-/

namespace SphereTracer

/-- Why a picture could not be written. -/
inductive SaveFault where
  | format (fault : FormatFault)
  | disk (fault : DiskFault)
  deriving DecidableEq, Repr

def SaveFault.message : SaveFault → String
  | format fault => fault.message
  | disk fault => fault.message

/-- Why options could not be loaded. -/
inductive LoadFault where
  | disk (fault : DiskFault)
  | json (error : Json.Error)

/-- Why a command has failed. -/
inductive CommandError where
  | load (path : String) (fault : LoadFault)
  | compile (scene : Demo) (error : CompileError)
  | save (path : String) (fault : SaveFault)
  /-- The backend is not part of the program. -/
  | noBackend
  | render (failure : RenderFailure)

/-- What is told about a failed rendering. -/
def RenderFailure.report : RenderFailure → Report
  | start e => ⟨e.message, []⟩
  | frame n e => ⟨"frame " ++ toString n ++ " failed", [e.message]⟩

/-- What is told about a failed command. -/
def CommandError.report : CommandError → Report
  | load path (.disk fault) => ⟨"failed to read " ++ path, [fault.message]⟩
  | load path (.json error) => ⟨"invalid options in " ++ path, [error.message]⟩
  | compile scene error => ⟨"failed to compile scene " ++ scene.title, [error.message]⟩
  | save path fault => ⟨"failed to write " ++ path, [fault.message]⟩
  | noBackend => ⟨"built without the `gpu` feature", []⟩
  | render failure => failure.report

section
variable {m : Type → Type} [Monad m]

def loadOptions (disk : Disk m) (path : String) : ExceptT LoadFault m (Options Word) := do
  match ← disk.read path with
  | .error fault => throw (.disk fault)
  | .ok text =>
    match Options.ofJson text with
    | .error error => throw (.json error)
    | .ok options => return options

def save (disk : Disk m) (path : String) (a : Artifact) : ExceptT SaveFault m Unit := do
  match ← disk.write path a with
  | .error fault => throw (.disk fault)
  | .ok () => return ()

/-- Writes a picture in the format of the path.  For a format that cannot be written an empty file
is left behind. -/
def savePicture (disk : Disk m) (path : String) (p : Picture) : ExceptT SaveFault m Unit := do
  match ImageFormat.ofPath path with
  | .error fault => throw (.format fault)
  | .ok .png => save disk path (.picture p)
  | .ok format => do
    save disk path .empty
    throw (.format (.unsupported format))

/-- A command's options: those of a file or of the scene, with the counts of the command line. -/
def Arguments.loadOptions (disk : Disk m) (a : Arguments) :
    ExceptT CommandError m (Options Word) := do
  let base ← match a.optionsFile with
    | some path => (SphereTracer.loadOptions disk path).adapt (.load path)
    | none => pure a.scene.options
  return a.override base

def Arguments.run (disk : Disk m) (a : Arguments) : ExceptT CommandError m Unit := do
  let options ← a.loadOptions disk
  let kernel ← MonadExcept.ofExcept
    ((Kernel.ofScene a.scene.scene options).mapError (CommandError.compile a.scene))
  -- The text is kept even if rendering fails later.
  match a.kernelFile with
  | some path => (save disk path (.text kernel.source)).adapt (.save path)
  | none => pure ()
  if a.backend = .gpu then throw .noBackend
  let acc ← MonadExcept.ofExcept
    ((SphereTracer.render (cpuBackend 1) kernel a.settings).mapError CommandError.render)
  (savePicture disk a.output (acc.picture options.gamma)).adapt (.save a.output)

end

/-- How a command line has ended. -/
inductive Outcome where
  | done
  | help
  /-- The command line was not understood. -/
  | rejected
  | failed (report : Report)
  deriving DecidableEq, Repr

/-- The exit code that tells an outcome. -/
def Outcome.exitCode : Outcome → UInt8
  | done | help => 0
  | failed _ => 1
  | rejected => 2

/-- Carries a command line out. -/
def execute {m : Type → Type} [Monad m] (disk : Disk m) (arguments : List String) : m Outcome := do
  match Request.ofArguments arguments with
  | .help => return .help
  | .rejected => return .rejected
  | .run a =>
    match ← (a.run disk).run with
    | .ok () => return .done
    | .error e => return .failed e.report

end SphereTracer
