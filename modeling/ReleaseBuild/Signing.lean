import ReleaseBuild.Command
import ReleaseBuild.Configuration
import ReleaseBuild.Machine
/-!
# Signing

A file is signed with the driver kit's signing tool, passing the certificate and its
password; the password is never shown. A signature is then timestamped: the servers are tried
in order, and the first one that answers with success ends the search. A server that fails is
reported as a warning and the next one is tried; a tool that cannot be launched ends
timestamping at once; when every server has failed, timestamping fails with the list of
servers tried.
-/

namespace ReleaseBuild

namespace Signing

open ReleaseM

/-- The tool name used when signing. -/
def signToolName : String := "Signing"

/-- The tool name used when timestamping. -/
def timestampToolName : String := "Timestamping"

/-- The command that signs a file. -/
def signCommand (s : SigningConfig) (file : String) : Invocation :=
  ((Invocation.ofProgram s.signTool).withArgs ["sign", "/v", "/f", s.certificate, "/p"]
    |>.secretArg s.password).arg file

/-- The command that timestamps a file using one server. -/
def timestampCommand (s : SigningConfig) (server file : String) : Invocation :=
  (Invocation.ofProgram s.signTool).withArgs ["timestamp", "/t", server, file]

/-- Sign a file. -/
def sign (s : SigningConfig) (file : String) : ReleaseM Unit := do
  info .signing ("Signing " ++ file)
  runChecked signToolName (signCommand s file)

/-- Try the servers in order; `true` once one succeeded. -/
def tryServers (s : SigningConfig) (file : String) : List String → ReleaseM Bool
  | [] => pure false
  | server :: rest => do
    info .signing ("Timestamping " ++ file ++ " using " ++ server)
    let status ← runTool timestampToolName (timestampCommand s server file)
    if status.success then pure true
    else
      warn .signing ("timestamp server " ++ server ++ " failed with " ++ status.display)
      tryServers s file rest

/-- Timestamp a signed file, failing over between servers. -/
def timestamp (s : SigningConfig) (servers : List String) (file : String) : ReleaseM Unit := do
  if !(← tryServers s file servers) then fail (.timestampExhausted file servers)

/-- Sign a file, then timestamp it. -/
def signAndTimestamp (s : SigningConfig) (servers : List String) (file : String) :
    ReleaseM Unit := do
  sign s file
  timestamp s servers file

end Signing

end ReleaseBuild
