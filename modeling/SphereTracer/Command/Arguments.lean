import SphereTracer.Demo
import SphereTracer.Image.Render
import SphereTracer.Command.Pointer

/-!
# Arguments

The command line: options with a value each, read from left to right.  An option may be given once;
its value follows it as the next argument or behind an equals sign.
-/

namespace SphereTracer

/-- What renders the frames. -/
inductive BackendChoice where
  | cpu
  | gpu
  deriving DecidableEq, Repr

/-- What a command line asks for. -/
structure Arguments where
  scene : Demo
  settings : RenderSettings
  /-- A file with options, in place of those of the scene. -/
  optionsFile : Option String
  steps : Option UInt32
  bounces : Option UInt32
  iterations : Option UInt32
  backend : BackendChoice
  output : String
  /-- A file for the text of the kernel. -/
  kernelFile : Option String
  deriving DecidableEq, Repr

namespace Arguments

/-- What is meant without any argument. -/
def standard : Arguments where
  scene := .spheres
  settings := .standard
  optionsFile := none
  steps := none
  bounces := none
  iterations := none
  backend := .cpu
  output := "render.png"
  kernelFile := none

/-- The options with the counts that the command line gives. -/
def override (a : Arguments) (o : Options Word) : Options Word :=
  { o with
    steps := a.steps.getD o.steps
    bounces := a.bounces.getD o.bounces
    iterations := a.iterations.getD o.iterations }

end Arguments

/-- An option of the command line. -/
inductive Flag where
  | scene
  | width
  | height
  | frames
  | seed
  | time
  | mouse
  | options
  | steps
  | bounces
  | iterations
  | backend
  | output
  | kernel
  deriving DecidableEq, Repr

namespace Flag

def all : List Flag :=
  [scene, width, height, frames, seed, time, mouse, options, steps, bounces, iterations, backend,
    output, kernel]

/-- The name behind two dashes. -/
def name : Flag → String
  | scene => "scene"
  | width => "width"
  | height => "height"
  | frames => "frames"
  | seed => "seed"
  | time => "time"
  | mouse => "mouse"
  | options => "options"
  | steps => "steps"
  | bounces => "bounces"
  | iterations => "iterations"
  | backend => "backend"
  | output => "output"
  | kernel => "emit-wgsl"

/-- What the option's value is. -/
def purpose : Flag → String
  | scene => "the scene: " ++ ", ".intercalate (Demo.all.map Demo.name)
  | width => "width of the picture"
  | height => "height of the picture"
  | frames => "frames to accumulate"
  | seed => "seed of the random numbers"
  | time => "value of the time uniform"
  | mouse => "position of the pointer, as x,y"
  | options => "a JSON file with options"
  | steps => "march steps per segment"
  | bounces => "segments per path"
  | iterations => "paths per pixel and frame"
  | backend => "what renders: cpu or gpu"
  | output => "the file for the picture, also -o"
  | kernel => "a file for the text of the kernel"

def ofName? (name : String) : Option Flag := all.find? (·.name = name)

/-- A count, written in decimal digits; a sign is allowed where it changes nothing. -/
def count? (text : String) : Option UInt32 :=
  let (negative, ds) := match text.toList with
    | '-' :: ds => (true, ds)
    | '+' :: ds => (false, ds)
    | ds => (false, ds)
  let n := Decimal.ofDigits ds
  if ds.isEmpty || !ds.all Char.isDigit then none
  else if n < UInt32.size ∧ (negative → n = 0) then some (UInt32.ofNat n)
  else none

/-- A path has at least one character. -/
def path? (text : String) : Option String := if text = "" then none else some text

def backend? : String → Option BackendChoice
  | "cpu" => some .cpu
  | "gpu" => some .gpu
  | _ => none

/-- Takes an option's value over, if it is one. -/
def set? (a : Arguments) (value : String) : Flag → Option Arguments
  | scene => (Demo.ofName? value).map fun scene => { a with scene }
  | width => (count? value).map fun width => { a with settings.width := width }
  | height => (count? value).map fun height => { a with settings.height := height }
  | frames => (count? value).map fun frames => { a with settings.frames := frames }
  | seed => (count? value).map fun seed => { a with settings.seed := seed }
  | time => (Word.ofChars value.toList).toOption.map fun time => { a with settings.time := time }
  | mouse => (Pointer.ofText value).toOption.map fun mouse => { a with settings.mouse := mouse }
  | options => (path? value).map fun path => { a with optionsFile := some path }
  | steps => (count? value).map fun n => { a with steps := some n }
  | bounces => (count? value).map fun n => { a with bounces := some n }
  | iterations => (count? value).map fun n => { a with iterations := some n }
  | backend => (backend? value).map fun backend => { a with backend }
  | output => (path? value).map fun output => { a with output }
  | kernel => (path? value).map fun path => { a with kernelFile := some path }

end Flag

/-- What an argument that is no value can be. -/
inductive Token where
  /-- Two dashes: only values may follow, and none is left to be given. -/
  | terminator
  | help
  /-- An option, with the value that is attached to it. -/
  | flag (flag : Flag) (value : Option String)
  | unknown
  deriving DecidableEq, Repr

namespace Token

/-- An argument that begins with a dash and has more to it is never a value. -/
def isOption (argument : String) : Bool :=
  match argument.toList with
  | '-' :: _ :: _ => true
  | _ => false

/-- An option behind two dashes. -/
def ofLong (cs : List Char) : Token :=
  let name := String.ofList (cs.takeWhile (· ≠ '='))
  let value := match cs.dropWhile (· ≠ '=') with
    | [] => none
    | _ :: value => some (String.ofList value)
  match Flag.ofName? name with
  | some f => .flag f value
  | none => if name = "help" ∧ value = none then .help else .unknown

/-- Letters behind one dash: a value may follow the letter of its option at once or behind an equals
sign. -/
def ofShort : List Char → Token
  | 'h' :: _ => .help
  | ['o'] => .flag .output none
  | 'o' :: '=' :: value => .flag .output (some (String.ofList value))
  | 'o' :: value => .flag .output (some (String.ofList value))
  | _ => .unknown

def ofArgument (argument : String) : Token :=
  match argument.toList with
  | ['-', '-'] => .terminator
  | '-' :: '-' :: cs => ofLong cs
  | '-' :: cs => ofShort cs
  | _ => .unknown

end Token

/-- The meaning of a command line. -/
inductive Request where
  | run (arguments : Arguments)
  | help
  /-- A command line that is not understood. -/
  | rejected
  deriving DecidableEq, Repr

namespace Request

/-- Reads arguments from left to right, with the options that were given before. -/
def read (a : Arguments) (given : List Flag) : List String → Request
  | [] => .run a
  | argument :: rest =>
    let take (flag : Flag) (value : String) (go : Arguments → Request) : Request :=
      if flag ∈ given then .rejected
      else
        match flag.set? a value with
        | some a => go a
        | none => .rejected
    match Token.ofArgument argument with
    | .terminator => if rest.isEmpty then .run a else .rejected
    | .help => .help
    | .unknown => .rejected
    | .flag flag (some value) => take flag value fun a => read a (flag :: given) rest
    | .flag flag none =>
      match rest with
      | [] => .rejected
      | value :: rest =>
        if Token.isOption value then .rejected
        else take flag value fun a => read a (flag :: given) rest

def ofArguments (arguments : List String) : Request := read .standard [] arguments

end Request

end SphereTracer
