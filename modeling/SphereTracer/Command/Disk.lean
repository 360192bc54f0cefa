import SphereTracer.Image.Resolve

/-!
# Disks

What a command reads and writes.  A disk is given by its two operations, so that a command can be
run on the machine's disk and on a directory in memory.
-/

namespace SphereTracer

/-- The content of a file. -/
inductive Artifact where
  | text (s : String)
  | picture (p : Picture)
  /-- An empty file. -/
  | empty
  deriving DecidableEq, Repr

/-- Why a disk refuses. -/
inductive DiskFault where
  | missing
  | isDirectory
  | notDirectory
  /-- The file's bytes are no text. -/
  | notText
  | other (reason : String)
  deriving DecidableEq, Repr

def DiskFault.message : DiskFault → String
  | missing => "No such file or directory (os error 2)"
  | isDirectory => "Is a directory (os error 21)"
  | notDirectory => "Not a directory (os error 20)"
  | notText => "stream did not contain valid UTF-8"
  | other reason => reason

structure Disk (m : Type → Type) where
  read : String → m (Except DiskFault String)
  write : String → Artifact → m (Except DiskFault Unit)

/-- A directory and everything below it.  Files are named by the steps that lead to them, and every
directory on the way exists. -/
structure Directory where
  files : List (List String × Artifact)

namespace Directory

def file? (d : Directory) (place : List String) : Option Artifact := d.files.lookup place

/-- Whether a place is the directory itself or one below it that holds a file. -/
def isDirectory (d : Directory) (place : List String) : Bool :=
  place.isEmpty || d.files.any fun (p, _) => place.isPrefixOf p && p != place

/-- Puts a file in place of what was there. -/
def put (d : Directory) (place : List String) (a : Artifact) : Directory :=
  ⟨(place, a) :: d.files.filter (·.1 ≠ place)⟩

/-- Follows steps from a place.  Every place on the way has to be a directory. -/
def locate (d : Directory) (place : List String) : List String → Except DiskFault (List String)
  | [] => .ok place
  | step :: steps =>
    if d.isDirectory place then
      if step = "" ∨ step = "." then d.locate place steps
      else if step ≠ ".." then d.locate (place ++ [step]) steps
      else if place.isEmpty then .error .missing
      else d.locate place.dropLast steps
    else if (d.file? place).isSome then .error .notDirectory
    else .error .missing

/-- The place of a path.  Nothing exists outside of the directory. -/
def resolve (d : Directory) (path : String) : Except DiskFault (List String) :=
  if path.startsWith "/" then .error .missing else d.locate [] (path.splitOn "/")

def readText (d : Directory) (path : String) : Except DiskFault String := do
  let place ← d.resolve path
  if d.isDirectory place then throw .isDirectory
  match d.file? place with
  | some (.text s) => return s
  | some .empty => return ""
  | some (.picture _) => throw .notText
  | none => throw .missing

/-- The directory with a file more. -/
def writeFile (d : Directory) (path : String) (a : Artifact) : Except DiskFault Directory := do
  let place ← d.resolve path
  if d.isDirectory place then throw .isDirectory
  return d.put place a

/-- The directory that a command changes, as a disk. -/
def disk : Disk (StateM Directory) where
  read path := return (← get).readText path
  write path a := do
    match (← get).writeFile path a with
    | .ok d => do
      set d
      return .ok ()
    | .error fault => return .error fault

end Directory

end SphereTracer
