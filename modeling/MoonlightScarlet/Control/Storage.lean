import MoonlightScarlet.Control.Types
import MoonlightScarlet.Support.Files
/-!
# The configuration directory

What loading and saving a document of the client have in common.  `serde_json` is a
parameter, and `Io` says which of the file operations fail.
-/

namespace MoonlightScarlet.Control

open Support.Files

/-- The files in the configuration directory. -/
abbrev Directory := Disk String UInt8

/-- What an attempt to read a file answers: the bytes, no file, or another error. -/
inductive ReadOutcome
  | read
  | notFound
  | failed (error : String)

/-- How the operations on the directory end, by file name; errors are given by their
texts. -/
structure Io where
  tryExists : String → Option String := fun _ => none
  read : String → ReadOutcome := fun _ => .read
  createDirAll : Option String := none
  write : String → WriteOutcome String := fun _ => .done

/-- Every operation succeeds. -/
def Io.working : Io := {}

/-- Operations whose reads succeed; creating the directory and writing may fail. -/
structure Io.Reads (io : Io) : Prop where
  tryExists : ∀ name, io.tryExists name = none
  read : ∀ name, io.read name = .read

/-- `serde_json` at one type: `to_vec_pretty` and `from_slice`. -/
structure Json (α : Type) where
  toVecPretty : α → Except String Bytes
  fromSlice : Bytes → Except String α

/-- What is relied on of `serde_json` for a type whose values are written as objects: a
value is read back from its text, also with a line feed behind it, and the text of an
object that breaks off is no object. -/
structure Json.Faithful {α : Type} (json : Json α) : Prop where
  text : ∀ a, ∃ bytes, json.toVecPretty a = .ok bytes
  roundTrip : ∀ {a bytes}, json.toVecPretty a = .ok bytes → json.fromSlice bytes = .ok a
  lineFeed : ∀ {a bytes}, json.toVecPretty a = .ok bytes →
    json.fromSlice (bytes ++ [10]) = .ok a
  cut : ∀ {a bytes}, json.toVecPretty a = .ok bytes → ∀ k < bytes.length,
    ∃ error, json.fromSlice (bytes.take k) = .error error

/-- `path.try_exists()`, then `fs::read` and the document in the file.  There is no
document if there is no file. -/
def loadDocument {α : Type} (json : Json α) (io : Io) (directory : Directory) (name : String) :
    Except ControlError (Option α) :=
  match io.tryExists name with
  | some error => .error (.io error)
  | none =>
      match directory name with
      | none => .ok none
      | some bytes =>
          match io.read name with
          | .notFound => .ok none
          | .failed error => .error (.io error)
          | .read => ((json.fromSlice bytes).mapError .configuration).map some

/-- `fs::write`. -/
def writeFile (io : Io) (directory : Directory) (name : String) (bytes : Bytes) :
    Except ControlError Unit × Directory :=
  ((io.write name).result.mapError .io, directory.write name bytes (io.write name))

/-- `fs::create_dir_all`, then the document and a line feed in the file. -/
def saveDocument {α : Type} (json : Json α) (io : Io) (directory : Directory) (name : String)
    (document : α) : Except ControlError Unit × Directory :=
  match io.createDirAll with
  | some error => (.error (.io error), directory)
  | none =>
      match json.toVecPretty document with
      | .error error => (.error (.configuration error), directory)
      | .ok bytes => writeFile io directory name (bytes ++ [10])

end MoonlightScarlet.Control
