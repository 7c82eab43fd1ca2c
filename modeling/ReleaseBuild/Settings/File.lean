import ReleaseBuild.Toml.Document
import ReleaseBuild.Machine
/-!
# The settings file

The settings of a release may be overridden by a TOML file named `hone-release.toml` next to
the build scripts. A missing file means the defaults. A file that cannot be read, does not
parse or holds a value of the wrong type is reported as a warning, and the defaults are used.

The text of a file is read as settings through `SettingsFormat`, whose instance is the TOML
reading of this library, so that what is proved of loading holds for every reading of the text.
-/

namespace ReleaseBuild

/-- Why a settings file could not be used. -/
inductive SettingsError where
  /-- The file could not be read. -/
  | unreadable (path : String) (e : IoError)
  /-- The file's text is not valid settings; the text is kept to show the error in it. -/
  | malformed (path text : String) (e : Toml.TomlError)
  deriving DecidableEq, Repr

namespace SettingsError

/-- How the failure is reported: what was attempted on which file, then the cause. -/
def message : SettingsError → String
  | unreadable path e => "failed to read settings file: " ++ path ++ ": " ++ e.message
  | malformed path text e =>
    "failed to parse settings file: " ++ path ++ ": " ++ e.render text.toList.toArray

end SettingsError

namespace FileTree

/-- The text of a file. A directory opens but cannot be read. -/
def readFile (t : FileTree) (cwd : Location) (path : String) : Except IoError String :=
  match t.lookup cwd path with
  | .ok (_, .file c _) => .ok c
  | .ok (_, .directory) => .error .isADirectory
  | .error e => .error e

end FileTree

namespace Settings

/-- Settings out of the text of a settings file. -/
def ofToml (text : String) : Except Toml.TomlError Settings := do
  let doc ← Toml.parse text
  match read (doc, none) with
  | .ok s => .ok s
  | .error e => .error ⟨e.message, e.span⟩

end Settings

/-- A reader of settings files, as the program uses the toml crate with serde: the settings the
text of a file describes, or the error in it. -/
class SettingsFormat where
  read : String → Except Toml.TomlError Settings

/-- The reading this library implements: TOML, then the settings document. -/
instance : SettingsFormat := ⟨Settings.ofToml⟩

namespace Settings

/-- Load settings from a file. -/
def load [SettingsFormat] (t : FileTree) (cwd : Location) (path : String) : Except SettingsError Settings :=
  match t.readFile cwd path with
  | .error e => .error (.unreadable path e)
  | .ok text => (SettingsFormat.read text).mapError (.malformed path text)

/-- Load settings from a file when it exists; a file that cannot be used is reported as a
warning. Otherwise the defaults. -/
def loadOrDefault [SettingsFormat] (path : String) : ReleaseM Settings := do
  let m ← get
  if m.files.exists? m.cwdLocation path then
    match load m.files m.cwdLocation path with
    | .ok s => pure s
    | .error e =>
      ReleaseM.warn .settings ("Failed to load settings from " ++ path ++ ": " ++ e.message)
      pure {}
  else pure {}

/-- The path of the settings file of a script directory. -/
def filePath (scriptDir : String) : String := Path.join scriptDir settingsFileName

/-- Load the settings that live next to the build scripts. -/
def loadFrom [SettingsFormat] (scriptDir : String) : ReleaseM Settings := loadOrDefault (filePath scriptDir)

end Settings

end ReleaseBuild
