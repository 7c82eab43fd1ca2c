import ReleaseBuild.Path
import ReleaseBuild.Text
import ReleaseBuild.Glob.Pattern
/-!
# Artifact categories

The external build leaves three kinds of files that a release ships: executables, driver
images and debug symbols. Each kind is found by its extension directly inside an output
directory, through a pattern whose directory part is escaped so that brackets, stars and
question marks in the directory name stand for themselves. Executables and driver images go
to `build_files`, debug symbols to `debug_symbols`; the compiler's own `vc90.pdb` symbols are
left out.
-/

namespace ReleaseBuild

/-- A kind of file produced by the external build. -/
inductive ArtifactCategory where
  | executable
  | driverImage
  | debugSymbol
  deriving DecidableEq, Repr

namespace ArtifactCategory

/-- The file extension, without the dot. -/
def extension : ArtifactCategory → String
  | executable => "exe"
  | driverImage => "sys"
  | debugSymbol => "pdb"

/-- The build root subdirectory the category is staged into. -/
def subdir : ArtifactCategory → String
  | executable => "build_files"
  | driverImage => "build_files"
  | debugSymbol => "debug_symbols"

/-- The pattern matching the category's files directly inside `dir`. -/
def pattern (c : ArtifactCategory) (dir : String) : String :=
  Path.join (GlobPattern.escape dir) ("*." ++ c.extension)

/-- The name ending of the compiler's own symbol files. -/
def excludedSymbolSuffix : String := "vc90.pdb"

/-- Whether a matched file is still left out: only debug symbols whose file name ends in
`vc90.pdb`. -/
def excludes (c : ArtifactCategory) (path : String) : Bool :=
  match c, Path.fileName path with
  | debugSymbol, some name => excludedSymbolSuffix.toList.isSuffixOf name.toList
  | _, _ => false

end ArtifactCategory

end ReleaseBuild
