import PluginHost.Error
import PluginHost.Files.Basic
import PluginHost.Time.Printer
import PluginHost.Time.Reader
import PluginHost.Text.Blank

/-!
# The first run

A marker file in the configuration directory tells whether the host has been
started before, and holds the time of the first start.
-/

namespace PluginHost.FirstRun

def markerName : String := ".initialized"

def markerPath (configDir : String) : String :=
  Path.join configDir markerName

def isFirst (configDir : String) (fs : Files) : Bool :=
  !fs.present (markerPath configDir)

/-- Writes the marker, and makes its directory if it is missing. When the marker
cannot be written, a directory that was made for it stays. -/
def mark (configDir : String) (now : Instant) (fs : Files) : Except Files.Fault Unit × Files :=
  let path := markerPath configDir
  let made : Except Files.Fault Files :=
    match Path.parent? path with
    | none => .ok fs
    | some dir => fs.makeDirs dir
  match made with
  | .error f => (.error f, fs)
  | .ok fs =>
    match fs.write path (Utf8.bytesOf now.offsetText) with
    | .error f => (.error f, fs)
    | .ok fs => (.ok (), fs)

/-- When the marker says that the host was first started, if it can be read. -/
def time? (configDir : String) (fs : Files) : Option Instant := do
  let text ← (fs.readText (markerPath configDir)).toOption
  Instant.ofStrictText? (Blank.trim text)

end PluginHost.FirstRun
