import SiriusDrive.Lib.Transition
import Mathlib.Data.List.Basic

/-! # The http server

`request_parser`, `request_handler`, `reply` and `connection` of the http server. Strings are
lists of bytes, and the files of the document root are a function of the path that is opened.
-/

namespace SiriusDrive.Http

def text (literal : String) : List UInt8 := literal.toList.map Char.toUInt8

structure Header where
  name : List UInt8 := []
  value : List UInt8 := []
  deriving Repr, DecidableEq

structure Request where
  method : List UInt8 := []
  uri : List UInt8 := []
  httpVersionMajor : Int32 := 0
  httpVersionMinor : Int32 := 0
  headers : List Header := []
  deriving Repr, DecidableEq

/-! ## The parser -/

inductive ResultType where
  | good
  | bad
  | indeterminate
  deriving Repr, DecidableEq

/-- The states of `request_parser`. -/
inductive ParserState where
  | methodStart
  | method
  | uri
  | httpVersionH
  | httpVersionT1
  | httpVersionT2
  | httpVersionP
  | httpVersionSlash
  | httpVersionMajorStart
  | httpVersionMajor
  | httpVersionMinorStart
  | httpVersionMinor
  | expectingNewline1
  | headerLineStart
  | headerLws
  | headerName
  | spaceBeforeHeaderValue
  | headerValue
  | expectingNewline2
  | expectingNewline3
  deriving Repr, DecidableEq

def isChar (c : UInt8) : Bool := c ≤ 127

def isCtl (c : UInt8) : Bool := c ≤ 31 || c == 127

def isTspecial (c : UInt8) : Bool := (text "()<>@,;:\\\"/[]?=\x7b\x7d \t").contains c

def isDigit (c : UInt8) : Bool := '0'.toUInt8 ≤ c && c ≤ '9'.toUInt8

/-- A character of a method or of the name of a header. -/
def isToken (c : UInt8) : Bool := !(!isChar c || isCtl c || isTspecial c)

/-- `number * 10 + input - '0'`, in `int`. A number that does not fit wraps around, which the
    standard leaves undefined. -/
def appendDigit (number : Int32) (input : UInt8) : Int32 :=
  number * 10 + Int32.ofNat input.toNat - Int32.ofNat '0'.toUInt8.toNat

def Request.pushName (request : Request) (input : UInt8) : Request :=
  { request with headers := request.headers.modifyLast fun header =>
      { header with name := header.name ++ [input] } }

def Request.pushValue (request : Request) (input : UInt8) : Request :=
  { request with headers := request.headers.modifyLast fun header =>
      { header with value := header.value ++ [input] } }

/-- What the parser has read of a request. -/
structure Parser where
  state : ParserState := .methodStart
  request : Request := {}
  deriving Repr, DecidableEq

namespace Parser

variable (parser : Parser)

/-- The parser goes on, or the input is bad. -/
def expect (isExpected : Bool) (next : Parser) : ResultType × Parser :=
  if isExpected then (.indeterminate, next) else (.bad, parser)

/-- `consume`. -/
def consume (input : UInt8) : ResultType × Parser :=
  let request := parser.request
  match parser.state with
  | .methodStart =>
      parser.expect (isToken input)
        { state := .method, request := { request with method := request.method ++ [input] } }
  | .method =>
      if input = ' '.toUInt8 then (.indeterminate, { parser with state := .uri })
      else parser.expect (isToken input)
        { parser with request := { request with method := request.method ++ [input] } }
  | .uri =>
      if input = ' '.toUInt8 then (.indeterminate, { parser with state := .httpVersionH })
      else parser.expect (!isCtl input)
        { parser with request := { request with uri := request.uri ++ [input] } }
  | .httpVersionH => parser.expect (input = 'H'.toUInt8) { parser with state := .httpVersionT1 }
  | .httpVersionT1 => parser.expect (input = 'T'.toUInt8) { parser with state := .httpVersionT2 }
  | .httpVersionT2 => parser.expect (input = 'T'.toUInt8) { parser with state := .httpVersionP }
  | .httpVersionP => parser.expect (input = 'P'.toUInt8) { parser with state := .httpVersionSlash }
  | .httpVersionSlash =>
      parser.expect (input = '/'.toUInt8)
        { state := .httpVersionMajorStart,
          request := { request with httpVersionMajor := 0, httpVersionMinor := 0 } }
  | .httpVersionMajorStart =>
      parser.expect (isDigit input)
        { state := .httpVersionMajor, request := { request with
            httpVersionMajor := appendDigit request.httpVersionMajor input } }
  | .httpVersionMajor =>
      if input = '.'.toUInt8 then (.indeterminate, { parser with state := .httpVersionMinorStart })
      else parser.expect (isDigit input)
        { parser with request := { request with
            httpVersionMajor := appendDigit request.httpVersionMajor input } }
  | .httpVersionMinorStart =>
      parser.expect (isDigit input)
        { state := .httpVersionMinor, request := { request with
            httpVersionMinor := appendDigit request.httpVersionMinor input } }
  | .httpVersionMinor =>
      if input = '\r'.toUInt8 then (.indeterminate, { parser with state := .expectingNewline1 })
      else parser.expect (isDigit input)
        { parser with request := { request with
            httpVersionMinor := appendDigit request.httpVersionMinor input } }
  | .expectingNewline1 =>
      parser.expect (input = '\n'.toUInt8) { parser with state := .headerLineStart }
  | .headerLineStart =>
      if input = '\r'.toUInt8 then (.indeterminate, { parser with state := .expectingNewline3 })
      else if request.headers ≠ [] ∧ (input = ' '.toUInt8 ∨ input = '\t'.toUInt8) then
        (.indeterminate, { parser with state := .headerLws })
      else parser.expect (isToken input)
        { state := .headerName,
          request := { request with headers := request.headers ++ [{ name := [input] }] } }
  | .headerLws =>
      if input = '\r'.toUInt8 then (.indeterminate, { parser with state := .expectingNewline2 })
      else if input = ' '.toUInt8 ∨ input = '\t'.toUInt8 then (.indeterminate, parser)
      else parser.expect (!isCtl input) { state := .headerValue, request := request.pushValue input }
  | .headerName =>
      if input = ':'.toUInt8 then
        (.indeterminate, { parser with state := .spaceBeforeHeaderValue })
      else parser.expect (isToken input) { parser with request := request.pushName input }
  | .spaceBeforeHeaderValue =>
      parser.expect (input = ' '.toUInt8) { parser with state := .headerValue }
  | .headerValue =>
      if input = '\r'.toUInt8 then (.indeterminate, { parser with state := .expectingNewline2 })
      else parser.expect (!isCtl input) { parser with request := request.pushValue input }
  | .expectingNewline2 =>
      parser.expect (input = '\n'.toUInt8) { parser with state := .headerLineStart }
  | .expectingNewline3 => (if input = '\n'.toUInt8 then .good else .bad, parser)

/-- `parse`: the result, the input that is left, and the parser. -/
def parse (parser : Parser) : List UInt8 → ResultType × List UInt8 × Parser
  | [] => (.indeterminate, [], parser)
  | input :: rest =>
      match parser.consume input with
      | (.indeterminate, next) => parse next rest
      | (result, next) => (result, rest, next)

end Parser

/-! ## The handler -/

/-- The replies that the handler and the connection make. -/
inductive StatusType where
  | ok
  | badRequest
  | notFound
  deriving Repr, DecidableEq

structure Reply where
  status : StatusType
  headers : List Header := []
  content : List UInt8 := []
  deriving Repr, DecidableEq

/-- `std::to_string` of a size. -/
def decimal (n : Nat) : List UInt8 := text (toString n)

def contentHeaders (content : List UInt8) (type : List UInt8) : List Header :=
  [{ name := text "Content-Length", value := decimal content.length },
    { name := text "Content-Type", value := type }]

def stockContent : StatusType → List UInt8
  | .ok => []
  | .badRequest =>
      text "<html><head><title>Bad Request</title></head><body><h1>400 Bad Request</h1></body></html>"
  | .notFound =>
      text "<html><head><title>Not Found</title></head><body><h1>404 Not Found</h1></body></html>"

def stockReply (status : StatusType) : Reply where
  status := status
  headers := contentHeaders (stockContent status) (text "text/html")
  content := stockContent status

/-- `extension_to_type`. -/
def extensionToType (extension : List UInt8) : List UInt8 :=
  if extension = text "gif" then text "image/gif"
  else if extension = text "htm" ∨ extension = text "html" then text "text/html"
  else if extension = text "jpg" then text "image/jpeg"
  else if extension = text "png" then text "image/png"
  else text "text/plain"

def statusLine : StatusType → List UInt8
  | .ok => text "HTTP/1.0 200 OK\r\n"
  | .badRequest => text "HTTP/1.0 400 Bad Request\r\n"
  | .notFound => text "HTTP/1.0 404 Not Found\r\n"

/-- `to_buffers`, one after the other. -/
def Reply.bytes (reply : Reply) : List UInt8 :=
  statusLine reply.status ++
    (reply.headers.flatMap fun header => header.name ++ text ": " ++ header.value ++ text "\r\n") ++
    text "\r\n" ++ reply.content

/-- A white space character of the classic locale. -/
def isSpace (c : UInt8) : Bool := c == ' '.toUInt8 || (9 ≤ c && c ≤ 13)

def hexValue (c : UInt8) : Option Nat :=
  if isDigit c then some (c.toNat - '0'.toUInt8.toNat)
  else if 'A'.toUInt8 ≤ c ∧ c ≤ 'F'.toUInt8 then some (c.toNat - 'A'.toUInt8.toNat + 10)
  else if 'a'.toUInt8 ≤ c ∧ c ≤ 'f'.toUInt8 then some (c.toNat - 'a'.toUInt8.toNat + 10)
  else none

def leadingDigits : List UInt8 → List Nat
  | [] => []
  | c :: rest =>
      match hexValue c with
      | some digit => digit :: leadingDigits rest
      | none => []

/-- What `is >> std::hex >> value` reads: white space is skipped, then come a sign, `0x` and
    the digits, of which there has to be one. -/
def readHex (chars : List UInt8) : Option Int :=
  let chars := chars.dropWhile isSpace
  let (isNegative, chars) :=
    match chars with
    | c :: rest =>
        if c = '-'.toUInt8 then (true, rest) else if c = '+'.toUInt8 then (false, rest)
        else (false, chars)
    | [] => (false, [])
  let chars :=
    match chars with
    | zero :: x :: rest =>
        if zero = '0'.toUInt8 ∧ (x = 'x'.toUInt8 ∨ x = 'X'.toUInt8) then rest else chars
    | _ => chars
  match leadingDigits chars with
  | [] => none
  | digits =>
      let value : Nat := digits.foldl (fun value digit => value * 16 + digit) 0
      some (if isNegative then -(value : Int) else value)

/-- `static_cast<char>` of an `int`. -/
def charOfInt (value : Int) : UInt8 := UInt8.ofNat (value % 256).toNat

/-- `url_decode`. -/
def urlDecode : List UInt8 → Option (List UInt8)
  | [] => some []
  | c :: rest =>
      if c = '%'.toUInt8 then
        match rest with
        | first :: second :: rest =>
            (readHex [first, second]).bind fun value =>
              (urlDecode rest).map (charOfInt value :: ·)
        | _ => none
      else if c = '+'.toUInt8 then (urlDecode rest).map (' '.toUInt8 :: ·)
      else (urlDecode rest).map (c :: ·)

/-- `request_path.find("..")` finds something. -/
def containsDotDot : List UInt8 → Bool
  | a :: b :: rest => (a = '.'.toUInt8 ∧ b = '.'.toUInt8) || containsDotDot (b :: rest)
  | _ => false

/-- What follows the last occurrence of a character, if there is one. -/
def afterLast (c : UInt8) (chars : List UInt8) : Option (List UInt8) :=
  if c ∈ chars then some (chars.reverse.takeWhile (· ≠ c)).reverse else none

/-- The extension of a path: what follows the last dot if that comes after the last slash. -/
def pathExtension (path : List UInt8) : List UInt8 :=
  match afterLast '.'.toUInt8 path with
  | some extension => if '/'.toUInt8 ∈ extension then [] else extension
  | none => []

/-- The path of a request below the document root, if the request is a good one. -/
def requestPath (request : Request) : Option (List UInt8) :=
  match urlDecode request.uri with
  | none => none
  | some path =>
      if path.head? ≠ some '/'.toUInt8 ∨ containsDotDot path then none
      else if path.getLast? = some '/'.toUInt8 then some (path ++ text "index.html")
      else some path

/-- The path that is opened: a C string ends at its first zero. -/
def openedPath (docRoot path : List UInt8) : List UInt8 := (docRoot ++ path).takeWhile (· ≠ 0)

/-- `handle_request`, for the files there are. -/
def handleRequest (docRoot : List UInt8) (files : List UInt8 → Option (List UInt8))
    (request : Request) : Reply :=
  match requestPath request with
  | none => stockReply .badRequest
  | some path =>
      match files (openedPath docRoot path) with
      | none => stockReply .notFound
      | some content =>
          { status := .ok,
            headers := contentHeaders content (extensionToType (pathExtension path)),
            content := content }

/-! ## The connection -/

inductive ConnectionPhase where
  | reading
  | writing
  | stopped
  deriving Repr, DecidableEq

/-- `connection`. -/
structure Connection where
  parser : Parser := {}
  phase : ConnectionPhase := .reading
  reply : Option Reply := none
  deriving Repr, DecidableEq

namespace Connection

/-- What happens to a connection: bytes are read, at most as many as its buffer has, the reply is
    written, or the operation under way fails or is aborted. -/
inductive Event where
  | read (bytes : List UInt8)
  | written
  | failed
  deriving Repr, DecidableEq

/-- The size of `buffer_`. -/
def bufferSize : Nat := 8192

variable (docRoot : List UInt8) (files : List UInt8 → Option (List UInt8))

def onRead (connection : Connection) (bytes : List UInt8) : Connection :=
  match connection.parser.parse bytes with
  | (.good, _, parser) =>
      { parser := parser, phase := .writing, reply := some (handleRequest docRoot files parser.request) }
  | (.bad, _, parser) =>
      { parser := parser, phase := .writing, reply := some (stockReply .badRequest) }
  | (.indeterminate, _, parser) => { connection with parser := parser }

def step (connection : Connection) : Event → Option Connection
  | .read bytes =>
      if connection.phase = .reading ∧ bytes.length ≤ bufferSize then
        some (connection.onRead docRoot files bytes)
      else none
  | .written =>
      if connection.phase = .writing then some { connection with phase := .stopped } else none
  | .failed =>
      if connection.phase = .stopped then none else some { connection with phase := .stopped }

def connections : Transition Connection Event := ⟨fun connection => connection.step docRoot files⟩

end Connection

end SiriusDrive.Http
