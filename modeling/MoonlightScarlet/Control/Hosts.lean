import MoonlightScarlet.Control.Storage
import MoonlightScarlet.Control.Endpoint
/-!
# Persistent Sunshine host history
-/

namespace MoonlightScarlet.Control

def hostsFile : String := "hosts.json"
def hostsFormatVersion : UInt32 := 1

/-- Saved Sunshine endpoints and the most recently connected endpoint. -/
structure SavedHosts where
  hosts : List String := []
  lastConnected : Option String := none
  deriving DecidableEq, Repr

structure SavedHostsDocument where
  version : UInt32
  hosts : List String
  lastConnected : Option String
  deriving DecidableEq, Repr

def normalizedHost (lib : UrlLibrary) (host : String) : Except ControlError String := do
  let host := trim host
  let _ ← Endpoint.parse lib host
  return host

namespace SavedHosts

variable (lib : UrlLibrary)

/-- The methods on `&mut self` keep what they wrote before an error. -/
def rememberWithoutSelecting (host : String) : EStateM ControlError SavedHosts Unit := do
  let host ← MonadExcept.ofExcept (normalizedHost lib host)
  let saved ← get
  if host ∈ saved.hosts then pure ()
  else set { saved with hosts := saved.hosts ++ [host] }

def remember (host : String) : EStateM ControlError SavedHosts Unit := do
  let host ← MonadExcept.ofExcept (normalizedHost lib host)
  rememberWithoutSelecting lib host
  modify fun saved => { saved with lastConnected := some host }

/-- The insertions of `load_from`, from the empty history on. -/
def replay (document : SavedHostsDocument) : EStateM ControlError SavedHosts Unit := do
  document.hosts.forM (rememberWithoutSelecting lib)
  match document.lastConnected with
  | none => pure ()
  | some host => remember lib host

def ofDocument (document : SavedHostsDocument) : Except ControlError SavedHosts :=
  if document.version ≠ hostsFormatVersion then
    .error (.configuration s!"unsupported hosts.json version {document.version}")
  else
    match (replay lib document).run {} with
    | .ok () saved => .ok saved
    | .error error _ => .error error

def document (saved : SavedHosts) : SavedHostsDocument where
  version := hostsFormatVersion
  hosts := saved.hosts
  lastConnected := saved.lastConnected

variable (json : Json SavedHostsDocument) (io : Io) (directory : Directory)

def loadFrom : Except ControlError SavedHosts := do
  match ← loadDocument json io directory hostsFile with
  | none => return {}
  | some document => ofDocument lib document

def saveTo (saved : SavedHosts) : Except ControlError Unit × Directory :=
  saveDocument json io directory hostsFile saved.document

end SavedHosts

/-- `remember_connected_host`: load, remember and save.  The two `Io` are those of the
load and of the save. -/
def rememberConnectedHost (lib : UrlLibrary) (json : Json SavedHostsDocument)
    (loading saving : Io) (directory : Directory) (host : String) :
    Except ControlError Unit × Directory :=
  match SavedHosts.loadFrom lib json loading directory with
  | .error error => (.error error, directory)
  | .ok saved =>
      match (SavedHosts.remember lib host).run saved with
      | .error error _ => (.error error, directory)
      | .ok () saved => saved.saveTo json saving directory

end MoonlightScarlet.Control
