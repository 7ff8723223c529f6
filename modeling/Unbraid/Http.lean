/-!
# HTTP

What is needed of HTTP beside the connection: the codes of answers with their phrases, the path of a
request, and what a `Content-Type` header says about a body.

The target of a request is a path; or an address, which names a scheme and a host before the path;
or something that has no path, as an asterisk or a host alone. A query and a fragment may follow the
path. A media type is a type, a subtype and perhaps a suffix of the subtype after a plus sign;
parameters may follow, which must be well formed and say nothing that matters here.
-/

namespace Unbraid.Http

def phrases : List (Nat × String) :=
  [(100, "Continue"), (101, "Switching Protocols"), (102, "Processing"), (200, "OK"),
    (201, "Created"), (202, "Accepted"), (203, "Non Authoritative Information"),
    (204, "No Content"), (205, "Reset Content"), (206, "Partial Content"),
    (207, "Multi-Status"), (208, "Already Reported"), (226, "IM Used"),
    (300, "Multiple Choices"), (301, "Moved Permanently"), (302, "Found"), (303, "See Other"),
    (304, "Not Modified"), (305, "Use Proxy"), (307, "Temporary Redirect"),
    (308, "Permanent Redirect"), (400, "Bad Request"), (401, "Unauthorized"),
    (402, "Payment Required"), (403, "Forbidden"), (404, "Not Found"),
    (405, "Method Not Allowed"), (406, "Not Acceptable"),
    (407, "Proxy Authentication Required"), (408, "Request Timeout"), (409, "Conflict"),
    (410, "Gone"), (411, "Length Required"), (412, "Precondition Failed"),
    (413, "Payload Too Large"), (414, "URI Too Long"), (415, "Unsupported Media Type"),
    (416, "Range Not Satisfiable"), (417, "Expectation Failed"), (418, "I'm a teapot"),
    (421, "Misdirected Request"), (422, "Unprocessable Entity"), (423, "Locked"),
    (424, "Failed Dependency"), (425, "Too Early"), (426, "Upgrade Required"),
    (428, "Precondition Required"), (429, "Too Many Requests"),
    (431, "Request Header Fields Too Large"), (451, "Unavailable For Legal Reasons"),
    (500, "Internal Server Error"), (501, "Not Implemented"), (502, "Bad Gateway"),
    (503, "Service Unavailable"), (504, "Gateway Timeout"),
    (505, "HTTP Version Not Supported"), (506, "Variant Also Negotiates"),
    (507, "Insufficient Storage"), (508, "Loop Detected"), (510, "Not Extended"),
    (511, "Network Authentication Required")]

def statusText (code : Nat) : String :=
  toString code ++ " " ++ (phrases.lookup code).getD "<unknown status code>"

def isSuccess (code : Nat) : Bool := 200 ≤ code && code < 300

namespace Target

def isSchemeChar (char : Char) : Bool :=
  char.isAlphanum || char = '+' || char = '-' || char = '.'

/-- What follows the scheme of an address, its colon and two slashes. -/
def afterScheme? (target : List Char) : Option (List Char) :=
  match target.dropWhile isSchemeChar with
  | ':' :: '/' :: '/' :: rest => some rest
  | _ => none

def endsHost (char : Char) : Bool := char = '/' || char = '?' || char = '#'

/-- What comes before a query or a fragment. -/
def withoutQuery (target : List Char) : List Char :=
  target.takeWhile fun char => char ≠ '?' ∧ char ≠ '#'

/-- The path of a target, empty if it has none. That of an address is a slash if nothing follows the
host. -/
def path (target : String) : String :=
  match target.toList with
  | '/' :: rest => String.ofList ('/' :: withoutQuery rest)
  | text =>
    match afterScheme? text with
    | some rest =>
      match withoutQuery (rest.dropWhile fun char => !endsHost char) with
      | [] => "/"
      | path => String.ofList path
    | none => ""

end Target

structure MediaType where
  type : List Char
  subtype : List Char
  suffix : Option (List Char)
  deriving DecidableEq, Repr

namespace MediaType

def isTokenChar (char : Char) : Bool :=
  char.isAlphanum || "!#$%&'*+-.^_`|~".toList.contains char

/-- May the character stand in a quoted value? Of the characters of ASCII, controls may not. -/
def isQuotedChar (char : Char) : Bool := ' ' ≤ char && char ≤ '~'

/-- A subtype and its suffix: what follows the last plus sign, unless nothing stands before it. -/
def splitSuffix (name : List Char) : List Char × Option (List Char) :=
  match name.reverse.span (· ≠ '+') with
  | (suffix, '+' :: base@(_ :: _)) => (base.reverse, some suffix.reverse)
  | _ => (name, none)

/-- How far the parameters have come. -/
inductive Parameters where
  /-- Before a name; blanks may stand here. -/
  | between
  | name
  /-- After the equals sign. -/
  | valueStart
  | value
  /-- After the opening quote. -/
  | quoteStart
  | quoted
  /-- After the closing quote; blanks may stand here. -/
  | quoteEnd
  deriving DecidableEq, Repr

namespace Parameters

/-- How far the parameters have come with one more character, if it may stand there. A quoted value
has at least one character, which may be a quote. -/
def next? (parameters : Parameters) (char : Char) : Option Parameters :=
  match parameters with
  | between => if char = ' ' then some between else if isTokenChar char then some name else none
  | name => if isTokenChar char then some name else if char = '=' then some valueStart else none
  | valueStart =>
    if char = '"' then some quoteStart else if isTokenChar char then some value else none
  | value => if isTokenChar char then some value else if char = ';' then some between else none
  | quoteStart => if isQuotedChar char then some quoted else none
  | quoted => if char = '"' then some quoteEnd else if isQuotedChar char then some quoted else none
  | quoteEnd => if char = ' ' then some quoteEnd else if char = ';' then some between else none

def canEnd : Parameters → Bool
  | between | valueStart | value | quoteEnd => true
  | name | quoteStart | quoted => false

def areIn (text : List Char) : Bool := (text.foldlM next? between).any canEnd

end Parameters

def read? (header : String) : Option MediaType :=
  match header.toList.span isTokenChar with
  | (type@(_ :: _), '/' :: rest) =>
    let (name, rest) := rest.span isTokenChar
    let (subtype, suffix) := splitSuffix name
    match name, rest with
    | _, [] => some ⟨type, subtype, suffix⟩
    | _ :: _, ';' :: parameters =>
      if Parameters.areIn parameters then some ⟨type, subtype, suffix⟩ else none
    | _, _ => none
  | _ => none

/-- Does the name read like this, in upper or lower case? -/
def isNamed (name : List Char) (lower : String) : Bool := name.map Char.toLower = lower.toList

def isJson (media : MediaType) : Bool :=
  isNamed media.type "application"
    && (isNamed media.subtype "json" || media.suffix.any (isNamed · "json"))

end MediaType

end Unbraid.Http
