import MoonlightScarlet.Control.Storage
/-!
# Persistent client preferences
-/

namespace MoonlightScarlet.Control

def settingsFile : String := "settings.json"

/-- Client preferences; `json` fills a field that a document lacks with its default. -/
structure ClientSettings where
  swapAb : Bool := false
  bitrateMbps : UInt32 := 20
  deriving DecidableEq, Repr

namespace ClientSettings

def minBitrateMbps : UInt32 := 1
def maxBitrateMbps : UInt32 := 100

def validate (settings : ClientSettings) : Except ControlError Unit :=
  if minBitrateMbps ≤ settings.bitrateMbps ∧ settings.bitrateMbps ≤ maxBitrateMbps then .ok ()
  else .error (.configuration "video bitrate must be between 1 and 100 Mbps")

variable (json : Json ClientSettings) (io : Io) (directory : Directory)

def loadFrom : Except ControlError ClientSettings := do
  match ← loadDocument json io directory settingsFile with
  | none => return {}
  | some settings => do
      settings.validate
      return settings

def saveTo (settings : ClientSettings) : Except ControlError Unit × Directory :=
  match settings.validate with
  | .error error => (.error error, directory)
  | .ok () => saveDocument json io directory settingsFile settings

end ClientSettings

end MoonlightScarlet.Control
