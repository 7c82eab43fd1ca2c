/-!
# Release settings

A script directory may hold a settings file, `hone-release.toml`, with three sections:

* `[build]`: `helper`, the build helper run once per architecture, relative to the script
  directory (default `build_helper.bat`);
* `[installer]`: `platform_tag`, the platform named in the installer's file name (default
  `win7`);
* `[signing]`: `timestamp_servers`, the servers tried in order when timestamping a signature
  (default: six public servers).

Every key and every section may be left out, and keys the release does not know are ignored.
-/

namespace ReleaseBuild

/-- The name of the settings file in the script directory. -/
def settingsFileName : String := "hone-release.toml"

/-- The timestamp servers used when the settings name none. -/
def defaultTimestampServers : List String :=
  ["http://timestamp.comodoca.com/authenticode",
    "http://timestamp.digicert.com",
    "http://timestamp.entrust.net/TSS/AuthenticodeTS",
    "http://timestamp.globalsign.com/scripts/timestamp.dll",
    "http://timestamp.verisign.com/scripts/timstamp.dll",
    "http://tsa.starfieldtech.com"]

/-- The `[build]` section. -/
structure BuildSection where
  helper : String := "build_helper.bat"
  deriving DecidableEq, Repr

/-- The `[installer]` section. -/
structure InstallerSection where
  platformTag : String := "win7"
  deriving DecidableEq, Repr

/-- The `[signing]` section. -/
structure SigningSection where
  timestampServers : List String := defaultTimestampServers
  deriving DecidableEq, Repr

/-- All release settings. -/
structure Settings where
  build : BuildSection := {}
  installer : InstallerSection := {}
  signing : SigningSection := {}
  deriving DecidableEq, Repr

namespace Settings

/-- The settings used when there is no settings file. -/
def defaults : Settings := {}

/-- Whether the settings are the defaults. -/
def isDefault (s : Settings) : Bool := s == defaults

end Settings

end ReleaseBuild
