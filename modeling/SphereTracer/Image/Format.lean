import SphereTracer.Text.Quoted

/-!
# Image formats

The format of an image file follows from the extension of its name.  Many formats are known by name;
only one of them can be written.
-/

namespace SphereTracer

inductive ImageFormat where
  | avif
  | jpeg
  | png
  | gif
  | webP
  | tiff
  | tga
  | dds
  | bmp
  | ico
  | hdr
  | openExr
  | pnm
  | farbfeld
  | qoi
  deriving DecidableEq, Repr

/-- Why a file's name is no place for an image. -/
inductive FormatFault where
  /-- The name has no extension. -/
  | undetermined
  | unknown (extension : String)
  /-- A format that cannot be written. -/
  | unsupported (format : ImageFormat)
  deriving DecidableEq, Repr

namespace ImageFormat

/-- The format of an extension in small letters. -/
def ofExtension? : String → Option ImageFormat
  | "avif" => some avif
  | "jpg" | "jpeg" => some jpeg
  | "png" => some png
  | "gif" => some gif
  | "webp" => some webP
  | "tif" | "tiff" => some tiff
  | "tga" => some tga
  | "dds" => some dds
  | "bmp" => some bmp
  | "ico" => some ico
  | "hdr" => some hdr
  | "exr" => some openExr
  | "pbm" | "pam" | "ppm" | "pgm" => some pnm
  | "ff" | "farbfeld" => some farbfeld
  | "qoi" => some qoi
  | _ => none

/-- What a format is called in messages. -/
def name : ImageFormat → String
  | avif => "Avif"
  | jpeg => "Jpeg"
  | png => "Png"
  | gif => "Gif"
  | webP => "WebP"
  | tiff => "Tiff"
  | tga => "Tga"
  | dds => "Dds"
  | bmp => "Bmp"
  | ico => "Ico"
  | hdr => "Hdr"
  | openExr => "OpenExr"
  | pnm => "Pnm"
  | farbfeld => "Farbfeld"
  | qoi => "Qoi"

/-- The last name of a path, unless it leads upward. -/
def fileName? (path : String) : Option String :=
  match ((path.splitOn "/").filter fun s => s ≠ "" ∧ s ≠ ".").getLast? with
  | some ".." => none
  | name => name

/-- What follows the last point of a path's last name, if something stands before that point. -/
def extension? (path : String) : Option String := do
  let cs := (← fileName? path).toList.reverse
  let after := cs.takeWhile (· ≠ '.')
  -- There is no point, or only the one that the name begins with.
  if cs.length ≤ after.length + 1 then none
  else some (String.ofList after.reverse)

/-- The format of a file; the extension may have capital letters. -/
def ofPath (path : String) : Except FormatFault ImageFormat :=
  match extension? path with
  | none => .error .undetermined
  | some extension =>
    match ofExtension? extension.toLower with
    | some format => .ok format
    | none => .error (.unknown extension)

end ImageFormat

def FormatFault.message : FormatFault → String
  | undetermined => "The image format could not be determined"
  | unknown extension =>
    "The file extension `." ++ Text.quotedName extension.toList ++
      "` was not recognized as an image format"
  | unsupported format => "The image format `" ++ format.name ++ "` is not supported"

end SphereTracer
