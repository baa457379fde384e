import ContractCheck.Host.Logging
import ContractCheck.Document
import ContractCheck.Toolchain.Fetch
import ContractCheck.Toolchain.Version
import ContractCheck.Compression.Gzip
import ContractCheck.Json.Bytes

/-! # Components of the toolchain

A component is a program or a data file that is installed below a home directory when it is first
needed.  It is downloaded compressed, and the version that was installed stands in a file beside it.
A program tells its version itself; a data file has the version it was downloaded under, and shares
the list of versions with the program that it belongs to.
-/
namespace ContractCheck

/-- Where what tools write is shown. -/
inductive Terminal where
  /-- Nowhere. -/
  | silent
  /-- In the host's transcript. -/
  | keeping
  /-- On the standard outputs. -/
  | echoing
deriving DecidableEq

namespace Terminal

/-- A message about what is done. -/
def log (t : Terminal) (message : Text) : Action Unit :=
  match t with
  | .silent => pure ()
  | .keeping => modify fun h => { h with transcript := h.transcript ++ [message ++ ['\n']] }
  | .echoing => Action.print (message ++ ['\n'])

/-- What a tool wrote. -/
def write (t : Terminal) (text : Text) : Action Unit :=
  match t with
  | .silent => pure ()
  | .keeping => modify fun h => { h with transcript := h.transcript ++ [text] }
  | .echoing => Action.print text

/-- What a tool complained about. -/
def complain (t : Terminal) (text : Text) : Action Unit :=
  match t with
  | .echoing => Action.complain text
  | t => t.write text

/-- What a tool wrote and what it complained about, if anything. -/
def present (t : Terminal) (out errors : Text) : Action Unit := do
  if !out.isEmpty then t.write out
  if !errors.isEmpty then t.complain errors

end Terminal

/-- How a program tells its version. -/
inductive VersionMark where
  /-- Digits and dots after the word `Version:`. -/
  | labelled
  /-- The first digit and the digits and dots after it. -/
  | leading
deriving DecidableEq

namespace VersionMark

/-- A character of a version. -/
def isVersionChar (c : Char) : Bool := c.isDigit || c == '.'

/-- The version after the first label that has one. -/
def labelled? : Text → Option Text
  | [] => none
  | c :: r =>
    let label : Text := "Version:".toList
    let version :=
      if Text.startsWith (c :: r) label then
        (Text.trimStart ((c :: r).drop label.length)).takeWhile isVersionChar
      else []
    if version.isEmpty then labelled? r else some version

/-- The version in what a program wrote. -/
def read? (mark : VersionMark) (t : Text) : Option Text :=
  match mark with
  | .labelled => labelled? t
  | .leading =>
    match t.dropWhile fun c => !c.isDigit with
    | [] => if t.contains '.' then some ['.'] else none
    | r => some (r.takeWhile isVersionChar)

end VersionMark

/-- A program or data file of the toolchain. -/
structure Component where
  family : Text
  name : Text
  executable : Bool := false
  mark : VersionMark := .labelled
  /-- The name of the installed file, if it is not the component's own. -/
  fileName : Option Text := none
  home : Text
  source : Text
  /-- The program that a data file belongs to. -/
  partOf : Option Text := none

namespace Component

/-- The name that components log under. -/
def owner (c : Component) : String :=
  if c.partOf.isSome then "StdlibComponent" else "Component"

/-- The name of the platform that programs run on. -/
def hostPlatform : Text := "linux".toList

/-- The address that components come from when none is given. -/
def defaultSource : Text := "https://binaries.tonlabs.io".toList

/-- The directory of components when none is given. -/
def defaultHome (h : Host) : Text := Path.Posix.child h.home ".solcheck/toolchain".toList

variable (c : Component)

/-- The path of the installed file on a platform. -/
def pathOn (platform : Text) : Text :=
  let file := match c.fileName with
    | some (a :: r) => a :: r
    | _ => c.name
  let file :=
    if c.executable && platform == "win32".toList && !Text.endsWith file ".exe".toList then
      file ++ ".exe".toList
    else file
  Path.Posix.child (Path.Posix.child c.home c.family) file

/-- The path of the installed file. -/
def path : Text := c.pathOn hostPlatform

/-- The path of the file with the installed version. -/
def versionPath : Text := Path.Posix.tidy (c.path ++ ".version".toList)

/-- The component as messages show it. -/
def display : Text :=
  "Component(".toList ++ Text.quote c.family ++ ", ".toList ++ Text.quote c.name ++ [')']

/-- The name of the download of a version for a platform. -/
def download (version : Points) (platform : Text) : Points :=
  let v := version.map fun p => if p = .char '.' then .char '_' else p
  let back := match c.partOf with
    | some _ => ".tvm.gz".toList
    | none => '_' :: platform ++ ".gz".toList
  .ofText (c.name ++ ['_']) ++ v ++ .ofText back

/-- The name of the download of a version for a platform, as it shows. -/
def downloadName (version platform : Text) : Text := (c.download (.ofText version) platform).shown

/-- The address of the download of a version. -/
def archiveAddress (version : Points) : Points :=
  .ofText (c.source ++ ['/']) ++ c.download version hostPlatform

/-- Whether the component is installed. -/
def isInstalled : Action Bool := Action.look FileSystem.isThere c.path

/-- The version that was installed, if one was noted. -/
def installedVersion : Action (Option Text) :=
  Action.orSystem
    (do
      let t := Text.trim (← Action.readText c.versionPath)
      pure (if t.isEmpty then none else some t))
    fun _ => pure none

/-- The state of the component. -/
def info : Action ComponentInfo := do
  let installed ← c.isInstalled
  let version ← c.installedVersion
  let raw : ComponentInfo :=
    { family := c.family, name := c.name, executable := c.executable, path := c.path, installed,
      version }
  match ComponentInfo.read (.table raw.toFields) with
  | .valid i => pure i
  | .invalid issues => throw (.invalid issues)

/-! ## Running -/

/-- The failure of a run. -/
def runFailure (message : Text) (facts : Fields) : Fault :=
  .failure ((Failure.build? .toolRun message facts).getD (.of .toolRun message []))

/-- Shows what a run of the program wrote, and gives it unless the run failed. -/
def conclude (t : Terminal) (command : Text) (finished : Finished) : Action Text := do
  let out := Utf8.readLenient finished.output
  let errors := Utf8.readLenient finished.errors
  t.present out errors
  Log.debug c.owner ("Exited with code ".toList ++ Text.ofInt finished.status)
    [("component".toList, .text c.name)]
  if finished.status = 0 then pure out
  else
    throw (runFailure (c.name ++ " exited with code ".toList ++ Text.ofInt finished.status)
      [("exit_code".toList, .int finished.status), ("command".toList, .text command),
       ("output".toList, .text (out ++ errors))])

/-- What an attempt to start the program comes to. -/
def settle (t : Terminal) (command : Text) : Except FileError Finished → Action Text
  | .error e =>
    if e.fromSystem then
      throw (runFailure ("Failed to start ".toList ++ c.name) [("command".toList, .text command)])
    else throw (.file e c.path)
  | .ok finished => c.conclude t command finished

/-- Runs the program in a directory and gives what it wrote to its standard output. -/
def run (t : Terminal) (directory : Text) (arguments : List Text) : Action Text := do
  let program := c.path
  if !(← c.isInstalled) then
    throw (.failure (.of .componentMissing (c.name ++ " is not installed".toList)
      ((if c.name.isEmpty then [] else [("component".toList, .text c.name)]) ++
        [("path".toList, .text program)])))
  Log.debug c.owner ("Running ".toList ++ program ++ [' '] ++
    (Value.list (arguments.map .text)).display ++ " in ".toList ++ directory)
  c.settle t (Text.join [' '] (program :: arguments))
    (← Action.runTool { program, arguments, directory })

/-- The version that the installed program tells, or the one it was downloaded under. -/
def resolveVersion (downloaded : Text) : Action Text := do
  if c.partOf.isSome then pure downloaded
  else
    let out ← tryCatch (c.run .silent c.home ["--version".toList]) fun e =>
      match e with
      | .failure f =>
        if f.kind = .toolRun then
          pure (match f.output with
            | .text t => t
            | _ => [])
        else throw e
      | e => throw e
    pure ((c.mark.read? out).getD downloaded)

/-! ## Installing -/

/-- A failure to install. -/
def installFailure (message : Text) (address : Option Text) : Fault :=
  .failure (.of .installation message
    ((if c.name.isEmpty then [] else [("component".toList, .text c.name)]) ++
      (match address with
        | some a => [("url".toList, .text a)]
        | none => [])))

/-- The versions that can be installed, the newest first. -/
def availableVersions : Action (List Points) := do
  let listed := { c with name := c.partOf.getD c.name }
  let address := listed.source ++ '/' :: listed.name ++ ".json".toList
  let unreadable := listed.installFailure
    ("Failed to load available versions of ".toList ++ listed.name) (some address)
  let bytes ← tryCatch (Fetch.read (.ofText address)) fun e =>
    match e with
    | .badValue _ => throw unreadable
    | .file .. => throw unreadable
    | e => if e.fromSystem then throw unreadable else throw e
  match Json.readBytes? bytes with
  | none => throw unreadable
  | some v =>
    let versions := match v with
      | .table fs => (Fields.get? fs listed.name).getD (.list [])
      | v => v
    match versions with
    | .list vs =>
      match Version.newestFirst? (vs.map Value.points) with
      | some sorted => pure sorted
      | none => throw (.badValue "Exceeds the limit for integer string conversion".toList)
    | _ =>
      throw (listed.installFailure ("Malformed version index for ".toList ++ listed.name)
        (some address))

/-- Tells about the installation of a version.  If it is no text, the outputs of the program do not
take the message, and no log takes the record. -/
def announce (t : Terminal) (version : Points) : Action Unit := do
  let address := (c.archiveAddress version).shown
  let message :=
    "Downloading ".toList ++ c.name ++ [' '] ++ version.shown ++ " from ".toList ++ address
  match version.text? with
  | some v =>
    t.log message
    Log.info c.owner ("Installing ".toList ++ v) [("component".toList, .text c.name),
      ("url".toList, .text address)]
  | none =>
    if t = .echoing then throw .unencodable
    else do
      t.log message
      Log.open_

/-- The unpacked download of a version. -/
def unpacked (version : Points) : Action Bytes := do
  let address := c.archiveAddress version
  let failed := c.installFailure ("Failed to download ".toList ++ c.name ++ [' '] ++ version.shown)
    (some address.shown)
  let compressed ← Action.orSystem (Fetch.read address) fun _ => throw failed
  match Compression.unpack compressed with
  | .ok bytes => pure bytes
  | .error .corrupt => throw .corrupt
  | .error _ => throw failed

/-- Writes the component. -/
def place (bytes : Bytes) : Action Unit := do
  Action.makeDirectories (Path.Posix.parent c.path)
  Action.writeFile c.path bytes
  if c.executable then Action.change FileSystem.makeExecutable c.path

/-- Writes the component, and notes which version it is.  A version that is no text cannot be noted,
but then a program may tell its own. -/
def settleIn (t : Terminal) (version : Points) (bytes : Bytes) : Action Unit := do
  Action.orSystem (c.place bytes) fun _ =>
    throw (c.installFailure ("Failed to write ".toList ++ c.name ++ " to ".toList ++ c.path) none)
  let resolved ← c.resolveVersion (version.text?.getD [])
  if version.text?.isNone && resolved.isEmpty then do
    Action.writeFile c.versionPath []
    throw .unencodable
  else do
    Action.writeText c.versionPath resolved
    t.log (c.name ++ [' '] ++ resolved ++ " installed".toList)

/-- Downloads a version, unpacks it and notes it. -/
def install (t : Terminal) (version : Points) : Action Unit := do
  c.announce t version
  let bytes ← c.unpacked version
  c.settleIn t version bytes

/-- Whether the component is there in the version that is asked for.  Without a version any one will
do. -/
def fits (version : Text) : Action Bool := do
  if !(← c.isInstalled) then pure false
  else if version.isEmpty then pure true
  else pure ((← c.installedVersion) == some version)

/-- Installs the component unless it is there in the version that is asked for; whether it was
installed.  Without a version the newest one is taken. -/
def ensure (t : Terminal) (version : Text) : Action Bool := do
  if ← c.fits version then pure false
  else if version.isEmpty then
    match ← c.availableVersions with
    | [] =>
      throw (c.installFailure ("No versions of ".toList ++ c.name ++ " are available".toList) none)
    | newest :: _ =>
      c.install t newest
      pure true
  else
    c.install t (.ofText version)
    pure true

end Component
end ContractCheck
