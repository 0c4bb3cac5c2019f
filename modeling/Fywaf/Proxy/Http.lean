import Fywaf.Std.Lines
import Fywaf.Std.Map
import Fywaf.Std.Num

/-!
# Reading a request

`read_http_request`: bytes are read until the blank line, the head is parsed, then the body is
read up to the declared length. A client connection is what the reads deliver, one piece at a
time; `Socket` holds the pieces, so a run of the reader is a function of it.

The two size limits are arguments, the source's values are `Limits.source`.

## Main definitions

* `Proxy.Socket`, `Proxy.Socket.read`
* `Proxy.HttpRequest`, `Proxy.ReadError`
* `Proxy.findHeaderEnd`, `Proxy.parseHead`
* `Proxy.readHeader`, `Proxy.readBody`, `Proxy.readHttpRequest`
-/

namespace Fywaf

namespace Proxy

/-! ### Connections -/

/-- The receiving side of a client connection. -/
structure Socket where
  /-- What arrives, in the pieces in which it arrives. -/
  segments : List Bytes
  /-- A piece is never empty: an empty read means the end. -/
  nonempty : ∀ s ∈ segments, s ≠ []
  /-- After the last piece the connection fails, instead of ending. -/
  fails : Bool

namespace Socket

/-- Everything that is still to arrive. -/
def bytes (s : Socket) : Bytes := s.segments.flatten

/-- A read into a buffer of `n` bytes: at most one piece, and what does not fit stays. `none` is
an I/O error, an empty read is the end of the stream. -/
def read (n : ℕ) : Socket → Option (Bytes × Socket)
  | ⟨[], h, fails⟩ => if fails then none else some ([], ⟨[], h, fails⟩)
  | ⟨seg :: rest, h, fails⟩ =>
    if hle : seg.length ≤ n then
      some (seg, ⟨rest, fun s hs => h s (List.mem_cons_of_mem _ hs), fails⟩)
    else
      some (seg.take n, ⟨seg.drop n :: rest, fun s hs => by
        rcases List.mem_cons.mp hs with rfl | hs
        · exact List.ne_nil_of_length_pos (by rw [List.length_drop]; omega)
        · exact h s (List.mem_cons_of_mem _ hs), fails⟩)

end Socket

/-! ### Requests and errors -/

/-- A parsed request. -/
structure HttpRequest where
  method : Str
  path : Str
  version : Str
  headers : HashMap Str Str
  body : Bytes
  deriving DecidableEq

/-- Why a request is not read. -/
inductive ReadError
  | headersTooLarge (limit : ℕ)
  | readFailed
  | closedBeforeHeaders
  | headersNotUtf8
  | missingRequestLine
  | missingMethod
  | missingPath
  | missingVersion
  | invalidRequestLine
  | unsupportedVersion
  | malformedHeader
  | chunked
  | invalidContentLength
  | bodyTooLarge (limit : ℕ)
  | readBodyFailed
  | closedWithinBody
  deriving DecidableEq, Repr

/-- The text of the error. -/
def ReadError.text : ReadError → Str
  | headersTooLarge limit => "request headers exceed ".toList ++ decimal limit ++ " bytes".toList
  | readFailed => "read failed".toList
  | closedBeforeHeaders => "client closed before sending headers".toList
  | headersNotUtf8 => "request headers are not utf-8".toList
  | missingRequestLine => "missing request line".toList
  | missingMethod => "missing method".toList
  | missingPath => "missing path".toList
  | missingVersion => "missing version".toList
  | invalidRequestLine => "invalid request line".toList
  | unsupportedVersion => "only HTTP/1.x is supported".toList
  | malformedHeader => "malformed header line".toList
  | chunked => "chunked request bodies are not supported in MVP".toList
  | invalidContentLength => "invalid content-length".toList
  | bodyTooLarge limit => "request body exceeds ".toList ++ decimal limit ++ " bytes".toList
  | readBodyFailed => "read body failed".toList
  | closedWithinBody => "client closed while sending body".toList

/-- `MAX_HEADER_SIZE`. -/
def maxHeaderSize : ℕ := 64 * 1024

/-- `MAX_BODY_SIZE`. -/
def maxBodySize : ℕ := 10 * 1024 * 1024

/-- The size limits of the reader; `none` is no limit. -/
structure Limits where
  header : Option ℕ
  body : Option ℕ

/-- The limits of the program. -/
def Limits.source : Limits := ⟨some maxHeaderSize, some maxBodySize⟩

/-- A reader without limits. -/
def Limits.unbounded : Limits := ⟨none, none⟩

/-- The error when `n` is over the limit. -/
def overLimit (limit : Option ℕ) (err : ℕ → ReadError) (n : ℕ) : Option ReadError :=
  (limit.filter (· < n)).map err

/-! ### The head -/

/-- CR LF CR LF. -/
def blankLine : Bytes := [13, 10, 13, 10]

/-- `find_header_end`: the position of the first blank line. -/
def findHeaderEnd (bytes : Bytes) : Option ℕ := findSub blankLine bytes

/-- Three words, the last of them an HTTP/1 version. -/
def parseRequestLine (requestLine : Str) : Except ReadError (Str × Str × Str) :=
  match splitWhitespace requestLine with
  | [] => .error .missingMethod
  | [_] => .error .missingPath
  | [_, _] => .error .missingVersion
  | method :: path :: version :: rest =>
    if rest ≠ [] then .error .invalidRequestLine
    else if "HTTP/1.".toList.isPrefixOf version then .ok (method, path, version)
    else .error .unsupportedVersion

/-- One pass of the header loop: an empty line is passed over, and a later header replaces an
earlier one of the same name. -/
def insertHeader (headers : HashMap Str Str) (line : Str) :
    Except ReadError (HashMap Str Str) :=
  if line = [] then .ok headers
  else
    match splitOnce ':' line with
    | none => .error .malformedHeader
    | some (name, value) => .ok (headers.insert (toAsciiLowercase (trim name)) (trim value))

/-- The header loop. -/
def parseHeaders : HashMap Str Str → List Str → Except ReadError (HashMap Str Str)
  | headers, [] => .ok headers
  | headers, line :: lines =>
    match insertHeader headers line with
    | .error e => .error e
    | .ok headers => parseHeaders headers lines

/-- The request announces a chunked body. -/
def isChunked (headers : HashMap Str Str) : Bool :=
  (headers.get? "transfer-encoding".toList).any fun v =>
    contains (toAsciiLowercase v) "chunked".toList

/-- The declared length of the body, `0` when there is none. -/
def contentLength (headers : HashMap Str Str) : Except ReadError ℕ :=
  match headers.get? "content-length".toList with
  | none => .ok 0
  | some v =>
    match parseUnsigned 64 v with
    | some n => .ok n
    | none => .error .invalidContentLength

/-- What the head says. -/
structure RequestHead where
  method : Str
  path : Str
  version : Str
  headers : HashMap Str Str
  contentLength : ℕ

/-- The checks behind the header loop. -/
def checkHeaders (limits : Limits) (headers : HashMap Str Str) : Except ReadError ℕ :=
  if isChunked headers then .error .chunked
  else
    match contentLength headers with
    | .error e => .error e
    | .ok n =>
      match overLimit limits.body .bodyTooLarge n with
      | some e => .error e
      | none => .ok n

/-- The text of the head, as lines. -/
def parseHeadLines (limits : Limits) (headerText : Str) : Except ReadError RequestHead :=
  match splitPair '\r' '\n' headerText with
  | [] => .error .missingRequestLine
  | requestLine :: lines =>
    match parseRequestLine requestLine with
    | .error e => .error e
    | .ok (method, path, version) =>
      match parseHeaders .empty lines with
      | .error e => .error e
      | .ok headers =>
        match checkHeaders limits headers with
        | .error e => .error e
        | .ok n => .ok ⟨method, path, version, headers, n⟩

/-- The part of `read_http_request` between the two loops. -/
def parseHead (limits : Limits) (headerBytes : Bytes) : Except ReadError RequestHead :=
  match fromUtf8 headerBytes with
  | none => .error .headersNotUtf8
  | some headerText => parseHeadLines limits headerText

/-! ### The two loops -/

/-- The size of the buffer the header loop reads into. -/
def headerChunk : ℕ := 2048

/-- The header loop. Every read that goes on takes a byte from the stream, so the steps are
bounded by what is to arrive. -/
def headerLoop (limits : Limits) : ℕ → Bytes → Socket → Except ReadError (Bytes × ℕ × Socket)
  | 0, _, _ => .error .readFailed
  | fuel + 1, buffer, stream =>
    match overLimit limits.header .headersTooLarge buffer.length with
    | some e => .error e
    | none =>
      match stream.read headerChunk with
      | none => .error .readFailed
      | some (chunk, stream) =>
        if chunk = [] then .error .closedBeforeHeaders
        else
          match findHeaderEnd (buffer ++ chunk) with
          | some pos => .ok (buffer ++ chunk, pos, stream)
          | none => headerLoop limits fuel (buffer ++ chunk) stream

/-- The buffer up to the blank line and a bit further, and the position of the blank line. -/
def readHeader (limits : Limits) (stream : Socket) : Except ReadError (Bytes × ℕ × Socket) :=
  headerLoop limits (stream.bytes.length + 1) [] stream

/-- The body loop: reads of exactly what is missing. -/
def bodyLoop (length : ℕ) : ℕ → Bytes → Socket → Except ReadError Bytes
  | 0, _, _ => .error .readBodyFailed
  | fuel + 1, body, stream =>
    if body.length < length then
      match stream.read (length - body.length) with
      | none => .error .readBodyFailed
      | some (chunk, stream) =>
        if chunk = [] then .error .closedWithinBody
        else bodyLoop length fuel (body ++ chunk) stream
    else .ok body

/-- The body, given what the header loop has read of it. -/
def readBody (length : ℕ) (body : Bytes) (stream : Socket) : Except ReadError Bytes :=
  bodyLoop length (stream.bytes.length + 1) body stream

/-- `read_http_request`. -/
def readHttpRequest (limits : Limits) (stream : Socket) : Except ReadError HttpRequest :=
  match readHeader limits stream with
  | .error e => .error e
  | .ok (buffer, headerEnd, stream) =>
    match parseHead limits (buffer.take headerEnd) with
    | .error e => .error e
    | .ok head =>
      match readBody head.contentLength (buffer.drop (headerEnd + 4)) stream with
      | .error e => .error e
      | .ok body => .ok ⟨head.method, head.path, head.version, head.headers, body⟩

end Proxy

end Fywaf
