import Regesta.Program
import Std.Time.DateTime.Timestamp

namespace Regesta

/-- The number of a system error, which may be given negated. -/
def errorNumber (code : UInt32) : UInt32 := if code < 0x80000000 then code else 0 - code

def faultOf (error : IO.Error) : FileFault :=
  match error with
  | .noFileOrDirectory .. => .missing
  | .inappropriateType _ code _ => if errorNumber code = 20 then .notDirectory else .isDirectory
  | .invalidArgument _ code _ =>
    if errorNumber code = 36 then .nameTooLong else .other (toString error)
  | error => .other (toString error)

def readText (path : String) : IO (Except FileFault String) := do
  try
    let bytes ← IO.FS.readBinFile path
    match String.fromUTF8? bytes with
    | none => return .error .notText
    | some text => return .ok text
  catch error => return .error (faultOf error)

def momentOf (time : IO.FS.SystemTime) : Moment := time.sec * 1000000000 + time.nsec.toNat

/-- Stands for the bytes of a file that cannot be read; they are no text. -/
def unreadable : ByteArray := ⟨#[0xFF]⟩

def readBytes (entry : IO.FS.DirEntry) : IO ByteArray := do
  if Collection.isXmlName entry.fileName then
    try IO.FS.readBinFile entry.path
    catch _ => return unreadable
  else return .empty

partial def readDirectory (entries : Array IO.FS.DirEntry) : IO Directory :=
  entries.toList.mapM fun entry => do
    if ← entry.path.isDir then
      let inner ← entry.path.readDir
      return (entry.fileName, .directory (← readDirectory inner))
    else
      let metadata ← entry.path.metadata
      return (entry.fileName, .file ⟨← readBytes entry, momentOf metadata.modified⟩)

def readContents (path : String) : IO (Option Directory) := do
  try
    let real ← IO.FS.realPath path
    if ← real.isDir then return some (← readDirectory (← real.readDir))
    else return none
  catch _ => return none

def now : IO Moment := do
  let time ← Std.Time.Timestamp.now
  return time.toNanosecondsSinceUnixEpoch.val

def fileAccess : Access IO where
  readText := readText
  contents := readContents
  now := now

def report (warnings : List Warning) : IO Unit :=
  warnings.forM fun warning => IO.eprintln ("WARN " ++ warning.message)

partial def wait (milliseconds : Nat) : IO Unit := do
  IO.sleep (min milliseconds 1000000).toUInt32
  if 1000000 < milliseconds then wait (milliseconds - 1000000)

partial def watch (interval : Nat) (watcher : Watcher) : IO Unit := do
  wait interval
  let time ← now
  let contents ← readContents watcher.service.collection.directory
  let (watcher, output) := Program.look watcher time contents
  (← IO.getStdout).putStr output
  (← IO.getStdout).flush
  watch interval watcher

def environment : IO (String → Option String) := do
  let manifest ← IO.getEnv "MANIFEST_PATH"
  let root ← IO.getEnv "COLLECTION_ROOT"
  let interval ← IO.getEnv "WATCH_INTERVAL_SECS"
  return fun name =>
    match name with
    | "MANIFEST_PATH" => manifest
    | "COLLECTION_ROOT" => root
    | "WATCH_INTERVAL_SECS" => interval
    | _ => none

def carryOut (invocation : Invocation) : IO UInt32 := do
  let reported ← Program.start fileAccess (← environment) invocation
  report reported.warnings
  match reported.result with
  | .error error =>
    IO.eprintln ("Error: " ++ error.message)
    return error.exitCode.toUInt32
  | .ok (.finished output) =>
    IO.print output
    return 0
  | .ok (.watching output interval watcher) =>
    IO.print output
    (← IO.getStdout).flush
    watch interval watcher
    return 0

end Regesta

def main (arguments : List String) : IO UInt32 := do
  match Regesta.CommandLine.read arguments with
  | .error misuse =>
    IO.eprintln ("error: " ++ misuse.message ++ "\n\n" ++ Regesta.Program.usageText)
    return 2
  | .ok .help =>
    IO.print Regesta.Program.usageText
    return 0
  | .ok .version =>
    IO.print Regesta.Program.versionText
    return 0
  | .ok (.run invocation) => Regesta.carryOut invocation
