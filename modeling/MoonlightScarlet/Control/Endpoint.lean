import MoonlightScarlet.Control.Types
import Mathlib.Data.List.Infix
/-!
# Endpoints

The address of a host as the user enters it, and the URLs of the requests to it.  The URL
crate is a parameter; `UrlLibrary.Lawful` is what its documentation promises of the URLs
that occur here.
-/

namespace MoonlightScarlet.Control

/-! ## The URL crate -/

/-- A host as the URL parser leaves it; an IPv6 address stands without its brackets. -/
inductive Host
  | domain (name : String)
  | ipv4 (address : String)
  | ipv6 (address : String)
  deriving DecidableEq, Repr

def Host.text : Host → String
  | .domain name => name
  | .ipv4 address => address
  | .ipv6 address => "[" ++ address ++ "]"

def Host.isIpv6 : Host → Bool
  | .ipv6 _ => true
  | _ => false

/-- The components of a parsed URL.  There is no `port` if it is the default of the scheme;
the query is given by its pairs. -/
structure Url where
  scheme : String
  username : String := ""
  password : Option String := none
  host : Option Host
  port : Option UInt16
  path : String
  query : Option (List (String × String)) := none
  deriving DecidableEq, Repr

def defaultPort : String → Option UInt16
  | "http" | "ws" => some 80
  | "https" | "wss" => some 443
  | "ftp" => some 21
  | _ => none

namespace Url

def hostStr (url : Url) : Option String := url.host.map Host.text

def portOrKnownDefault (url : Url) : Option UInt16 := url.port.or (defaultPort url.scheme)

def queryPairs (url : Url) : List (String × String) := url.query.getD []

/-- `query_pairs_mut().append_pair(name, value)`. -/
def appendPair (url : Url) (name value : String) : Url :=
  { url with query := some (url.queryPairs ++ [(name, value)]) }

end Url

/-- `Url::parse`, with the text of its error, and `Host::parse`. -/
structure UrlLibrary where
  parse : String → Except String Url
  parseHost : String → Option Host

/-- `char::is_whitespace`. -/
def isWhitespace (c : Char) : Bool :=
  let code := c.toNat
  (0x9 ≤ code && code ≤ 0xd) || code == 0x20 || code == 0x85 || code == 0xa0 || code == 0x1680 ||
    (0x2000 ≤ code && code ≤ 0x200a) || code == 0x2028 || code == 0x2029 || code == 0x202f ||
    code == 0x205f || code == 0x3000

/-- What delimits a host in a URL, and the brackets. -/
def isHostDelimiter (c : Char) : Bool :=
  c == ':' || c == '/' || c == '\\' || c == '?' || c == '#' || c == '@' || c == '[' || c == ']'

/-- A text that can stand for a host between `://` and the port or the path. -/
structure PlainHost (text : String) : Prop where
  nonempty : text.toList ≠ []
  plain : ∀ c ∈ text.toList, isHostDelimiter c = false ∧ isWhitespace c = false

def portText : Option UInt16 → String
  | none => ""
  | some port => ":" ++ toString port

/-- The rest of a URL after the authority: nothing, or a path without query and fragment. -/
def PathText (path : List Char) : Prop :=
  (path = [] ∨ path.head? = some '/') ∧ '?' ∉ path ∧ '#' ∉ path

structure UrlLibrary.Lawful (lib : UrlLibrary) : Prop where
  /-- An http URL has a host, and the text of a parsed host parses to that host. -/
  host : ∀ {text url}, lib.parse text = .ok url → url.scheme = "http" →
    ∃ host, url.host = some host ∧ lib.parseHost host.text = some host
  /-- A host has a text, and no NUL in it. -/
  hostText : ∀ {text url host}, lib.parse text = .ok url → url.host = some host →
    host.text ≠ "" ∧ Char.ofNat 0 ∉ host.text.toList
  /-- Domain names and IPv4 addresses have no delimiters, IPv6 addresses have colons. -/
  plain : ∀ {text host}, lib.parseHost text = some host → host.isIpv6 = false →
    PlainHost host.text
  ipv6 : ∀ {text address}, lib.parseHost text = some (.ipv6 address) → ':' ∈ address.toList
  /-- An http or https URL falls into host, port and path; a port that is the default of the
  scheme is dropped, and an empty path is a slash. -/
  split : ∀ {scheme text host port path}, scheme = "http" ∨ scheme = "https" →
    PlainHost text → lib.parseHost text = some host → PathText path →
    ∃ url, lib.parse (scheme ++ "://" ++ text ++ portText port ++ String.ofList path) = .ok url ∧
      url.scheme = scheme ∧ url.username = "" ∧ url.password = none ∧ url.host = some host ∧
      url.port = port.filter (some · ≠ defaultPort scheme) ∧ (path = [] → url.path = "/") ∧
      url.query = none
  /-- A host in doubled brackets does not parse. -/
  doubled : ∀ {scheme text address port path}, scheme = "http" ∨ scheme = "https" →
    lib.parseHost text = some (.ipv6 address) →
    ∃ error, lib.parse (scheme ++ "://[[" ++ address ++ "]]" ++ portText port ++
      String.ofList path) = .error error

/-! ## `Endpoint` -/

def defaultHttpPort : UInt16 := 47989

/-- `str::trim`. -/
def trim (text : String) : String :=
  String.ofList ((text.toList.dropWhile isWhitespace).reverse.dropWhile isWhitespace).reverse

def containsText (text part : String) : Bool := decide (part.toList <:+: text.toList)

namespace Endpoint

/-- What is parsed for the trimmed input. -/
def candidate (input : String) : String :=
  if containsText input "://" then input else "http://" ++ input

/-- Parse a hostname, IPv4 address, or HTTP URL. -/
def parse (lib : UrlLibrary) (input : String) : Except ControlError Endpoint :=
  let input := trim input
  if input.isEmpty then .error (.invalidHost "host is empty")
  else
    match lib.parse (candidate input) with
    | .error error => .error (.invalidHost error)
    | .ok url =>
        match url.hostStr with
        | none => .error (.invalidHost "host name is missing")
        | some host =>
            if url.username ≠ "" ∨ url.password.isSome ∨ url.query.isSome then
              .error (.invalidHost "credentials and query strings are not supported")
            else if url.path ≠ "/" ∧ ¬url.path.isEmpty then
              .error (.invalidHost "a host address must not contain a path")
            else .ok { host, httpPort := url.port.getD defaultHttpPort }

/-- The `authority` of `url`, which takes a host with a colon for a bare IPv6 address. -/
def authority (endpoint : Endpoint) : String :=
  if ':' ∈ endpoint.host.toList then s!"[{endpoint.host}]" else endpoint.host

/-- `requestUuid` are the random bytes of the request. -/
def url (lib : UrlLibrary) (endpoint : Endpoint) (scheme : String) (port : UInt16)
    (command uniqueId : String) (arguments : List (String × String))
    (requestUuid : Vector UInt8 16) : Except ControlError Url :=
  match lib.parse s!"{scheme}://{endpoint.authority}:{port}/{command}" with
  | .error error => .error (.invalidHost error)
  | .ok url =>
      .ok (arguments.foldl (fun url argument => url.appendPair argument.1 argument.2)
        ((url.appendPair "uniqueid" uniqueId).appendPair "uuid" (hexEncode requestUuid.toList)))

end Endpoint

end MoonlightScarlet.Control
