import Fywaf.Proxy.Forward
import Fywaf.Wasm.Engine

/-!
# Connections

`handle_connection` reads one request, asks the engine for a decision, and either answers the
client itself or writes the request to the upstream and relays the response. What it does to the
world is a trace of events; the peers, which may refuse a connection, take only part of what is
written to them or break off, are an argument.

## Main definitions

* `Proxy.Site`, `Proxy.Peers`
* `Proxy.Event`, `Proxy.Outcome`
* `Proxy.requestMeta`, `Proxy.blockedResponse`
* `Proxy.block`, `Proxy.forward`, `Proxy.handleConnection`
-/

namespace Fywaf

namespace Proxy

open Wasm

/-! ### Peers -/

/-- What a site needs to handle a connection. -/
structure Site where
  profileId : Str
  upstream : Upstream

/-- A receiver of bytes. -/
structure Sink where
  /-- It breaks off after this many bytes. -/
  breaksAfter : Option ℕ
  /-- What was written is flushed. -/
  flushes : Bool

/-- `write_all`: what is written, and whether that is all of it. -/
def Sink.writeAll (sink : Sink) (bytes : Bytes) : Bytes × Bool :=
  match sink.breaksAfter with
  | none => (bytes, true)
  | some n => if n < bytes.length then (bytes.take n, false) else (bytes, true)

/-- The other ends of a connection: what the client sends and takes, whether the upstream accepts,
what it takes and answers, and whether relaying the answer goes through. -/
structure Peers where
  clientIp : IpAddr
  request : Socket
  client : Sink
  accepts : Bool
  upstream : Sink
  response : Bytes
  relays : Bool

/-! ### Events -/

/-- What the handler does. -/
inductive Event
  /-- The engine was asked about a request. -/
  | decided (req : RequestMeta) (decision : Except DecideError Decision)
  /-- A connection to the upstream was opened. -/
  | connected (host : Str) (port : UInt16)
  /-- Bytes were written to the upstream. -/
  | toUpstream (bytes : Bytes)
  /-- Bytes were written to the client. -/
  | toClient (bytes : Bytes)

/-- Why a connection is given up. -/
inductive ConnectionError
  | read (e : ReadError)
  | decide (e : DecideError)
  | writeBlocked
  | flushBlocked
  | connect
  | build (e : BuildError)
  | write
  | flush
  | relay
  deriving DecidableEq

/-- The text of the error. -/
def ConnectionError.text : ConnectionError → Str
  | read e => e.text
  | decide e => e.text
  | writeBlocked => "failed to write blocked response".toList
  | flushBlocked => "failed to flush response".toList
  | connect => "failed to connect to upstream".toList
  | build e => e.text.toList
  | write => "failed to write request to upstream".toList
  | flush => "failed to flush upstream request".toList
  | relay => "failed to relay upstream response".toList

/-- A run of the handler. -/
structure Outcome where
  trace : List Event
  result : Except ConnectionError Unit

/-! ### The handler -/

/-- What the engine is told of a request. A body that is not UTF-8 is left out. -/
def requestMeta (request : HttpRequest) (clientIp : IpAddr) : RequestMeta :=
  let (path, query) := splitPathAndQuery request.path
  { clientIp
    method := request.method
    path
    query
    userAgent := request.headers.get? "user-agent".toList
    headers := request.headers
    body := fromUtf8 request.body }

/-- `reason_phrase`. -/
def reasonPhrase (status : UInt16) : String :=
  if status = 400 then "Bad Request"
  else if status = 403 then "Forbidden"
  else if status = 405 then "Method Not Allowed"
  else if status = 413 then "Payload Too Large"
  else if status = 431 then "Request Header Fields Too Large"
  else if status = 500 then "Internal Server Error"
  else if status = 502 then "Bad Gateway"
  else "Blocked"

/-- The answer to a request that is blocked. -/
def blockedResponse (status : UInt16) : Bytes :=
  let body := "blocked by fywaf (".toList ++ decimal status.toNat ++ ")\n".toList
  asBytes <|
    "HTTP/1.1 ".toList ++ decimal status.toNat ++ ' ' :: (reasonPhrase status).toList ++
      "\r\nContent-Type: text/plain; charset=utf-8\r\nContent-Length: ".toList ++
      decimal (asBytes body).length ++ "\r\nConnection: close\r\n\r\n".toList ++ body

/-- `write_blocked_response`. -/
def block (peers : Peers) (status : UInt16) : Outcome :=
  let (written, complete) := peers.client.writeAll (blockedResponse status)
  ⟨[.toClient written],
    if !complete then .error .writeBlocked
    else if !peers.client.flushes then .error .flushBlocked
    else .ok ()⟩

/-- The response of the upstream is copied to the client. -/
def relay (peers : Peers) : Outcome :=
  let (written, complete) := peers.client.writeAll peers.response
  ⟨[.toClient written], if complete && peers.relays then .ok () else .error .relay⟩

/-- The request is written to the upstream. -/
def sendUpstream (peers : Peers) (upstreamRequest : Bytes) : Outcome :=
  let (written, complete) := peers.upstream.writeAll upstreamRequest
  if !complete then ⟨[.toUpstream written], .error .write⟩
  else if !peers.upstream.flushes then ⟨[.toUpstream written], .error .flush⟩
  else
    let relayed := relay peers
    ⟨.toUpstream written :: relayed.trace, relayed.result⟩

/-- What happens to a request that is allowed. -/
def forward (order : HashOrder Str Str) (site : Site) (peers : Peers) (request : HttpRequest) :
    Outcome :=
  if !peers.accepts then ⟨[], .error .connect⟩
  else
    let connected := Event.connected site.upstream.host site.upstream.port
    match buildUpstreamRequest order request site.upstream peers.clientIp with
    | .error e => ⟨[connected], .error (.build e)⟩
    | .ok upstreamRequest =>
      let sent := sendUpstream peers upstreamRequest
      ⟨connected :: sent.trace, sent.result⟩

variable {σ : Type}

/-- `handle_connection`. -/
def handleConnection (engine : WafEngine σ) (serializer : Serializer)
    (order : HashOrder Str Str) (site : Site) (peers : Peers) : Outcome :=
  match readHttpRequest .source peers.request with
  | .error e => ⟨[], .error (.read e)⟩
  | .ok request =>
    let req := requestMeta request peers.clientIp
    let decided := engine.decide serializer site.profileId req
    match decided with
    | .error e => ⟨[.decided req decided], .error (.decide e)⟩
    | .ok decision =>
      let rest :=
        if decision.allow then forward order site peers request
        else block peers decision.statusCode
      ⟨.decided req decided :: rest.trace, rest.result⟩

/-- Only what the engine decides for the profile of the site matters. -/
theorem handleConnection_congr {engine engine' : WafEngine σ} {serializer : Serializer}
    {site : Site} (h : engine.decide serializer site.profileId =
      engine'.decide serializer site.profileId) (order : HashOrder Str Str) (peers : Peers) :
    handleConnection engine serializer order site peers =
      handleConnection engine' serializer order site peers := by
  rw [handleConnection, handleConnection, h]

end Proxy

end Fywaf
