import MoonlightScarlet.Control.Types
/-!
# XML responses

The tree that the XML crate yields and the reading of it.  The crate's parser is a
parameter; a `Document` is its result for a well-formed text.
-/

namespace MoonlightScarlet.Control

inductive Node
  | element (tag : String) (attributes : List (String × String)) (children : List Node)
  | text (content : String)
  | other

/-- A document is given by its root element. -/
structure Document where
  tag : String
  attributes : List (String × String)
  children : List Node

abbrev XmlParser := String → Except String Document

mutual

/-- The node and everything below it, in document order. -/
def Node.descendants : Node → List Node
  | .element tag attributes children =>
      .element tag attributes children :: descendantsOf children
  | .text content => [.text content]
  | .other => [.other]

def descendantsOf : List Node → List Node
  | [] => []
  | node :: nodes => node.descendants ++ descendantsOf nodes

end

def Document.root (document : Document) : Node :=
  .element document.tag document.attributes document.children

def Document.descendants (document : Document) : List Node := document.root.descendants

def Node.hasTagName (node : Node) (name : String) : Bool :=
  match node with
  | .element tag _ _ => tag == name
  | .text _ => false
  | .other => false

/-- The text of an element is its first child, if that is a text node. -/
def Node.text? : Node → Option String
  | .element _ _ (.text content :: _) => some content
  | .element _ _ _ => none
  | .text content => some content
  | .other => none

def Document.attribute (document : Document) (name : String) : Option String :=
  document.attributes.lookup name

def optionalText (document : Document) (tag : String) : Option String :=
  (document.descendants.find? fun node => node.hasTagName tag).bind Node.text?

def requiredText (document : Document) (tag : String) : Except ControlError String :=
  match optionalText document tag with
  | some text => .ok text
  | none => .error (.xml s!"response has no {tag} element")

def Node.children : Node → List Node
  | .element _ _ children => children
  | .text _ => []
  | .other => []

def childText (parent : Node) (tag : String) : Except ControlError String :=
  match (parent.children.find? fun node => node.hasTagName tag).bind Node.text? with
  | some text => .ok text
  | none => .error (.xml s!"application has no {tag} element")

/-- The application that an `App` element describes. -/
def Node.application (app : Node) : Except ControlError Application := do
  let id ←
    match parseU32 (← childText app "ID") with
    | some id => pure id
    | none => throw (.xml "application ID is not an integer")
  let title ← childText app "AppTitle"
  return { id, title }

section Parse

variable (parse : XmlParser)

def checkedDocument (xml : String) : Except ControlError Document := do
  let document ← (parse xml).mapError .xml
  if document.tag ≠ "root" then throw (.xml "response has no root element")
  let statusCode ←
    match document.attribute "status_code" with
    | some statusCode => pure statusCode
    | none => throw (.xml "response has no status_code")
  let statusCode ←
    match parseU32 statusCode with
    | some statusCode => pure statusCode
    | none => throw (.xml "status_code is not an integer")
  if statusCode ≠ 200 then
    throw (.protocol statusCode
      ((document.attribute "status_message").getD "unknown error"))
  return document

/-- The application that a busy host reports, or zero. -/
def currentGame (document : Document) (state : String) : UInt32 :=
  if endsWith state "_SERVER_BUSY" then
    ((optionalText document "currentgame").bind parseU32).getD 0
  else 0

def parseServerInfo (xml : String) : Except ControlError ServerInfo := do
  let document ← checkedDocument parse xml
  let state ← requiredText document "state"
  return {
    hostname := ← requiredText document "hostname"
    uniqueId := ← requiredText document "uniqueid"
    appVersion := ← requiredText document "appversion"
    gfeVersion := optionalText document "GfeVersion"
    serverCodecModeSupport :=
      ((optionalText document "ServerCodecModeSupport").bind parseU32).getD 1
    httpsPort :=
      (((optionalText document "HttpsPort").bind parseU16).filter (· ≠ 0)).getD 47984
    paired := (← requiredText document "PairStatus") == "1"
    currentGame := currentGame document state
    state }

def parseApplications (xml : String) : Except ControlError (List Application) := do
  let document ← checkedDocument parse xml
  (document.descendants.filter fun node => node.hasTagName "App").mapM Node.application

def responseText (xml tag : String) : Except ControlError String := do
  let document ← checkedDocument parse xml
  requiredText document tag

/-- `hexError` is the text of the error of `hex::decode`. -/
def responseHex (hexError : String → String) (xml tag : String) :
    Except ControlError Bytes := do
  let value ← responseText parse xml tag
  match hexDecode value with
  | some bytes => return bytes
  | none => throw (.xml s!"invalid {tag} hex: {hexError value}")

def requirePaired (xml stage : String) : Except ControlError Unit := do
  if (← responseText parse xml "paired") = "1" then return ()
  else throw (.pairing s!"pairing was rejected during {stage}")

end Parse

end MoonlightScarlet.Control
