import Fywaf.Proxy.Http
import Fywaf.Proxy.Upstream
import Fywaf.Std.Net

/-!
# Writing the upstream request

`build_upstream_request`: the request is written out again for the upstream, line by line, with
the headers that concern only one connection left out and those of the proxy put in. The headers
come in the iteration order of the hash map, which is an argument.

## Main definitions

* `Proxy.isHopByHop`, `Proxy.mergeUpstreamPath`, `Proxy.splitPathAndQuery`
* `Proxy.upstreamLines` — the lines that are written before the blank line
* `Proxy.buildUpstreamRequest`
-/

namespace Fywaf

namespace Proxy

/-- The headers of one connection. -/
def isHopByHop (name : Str) : Bool :=
  ["connection", "proxy-connection", "keep-alive", "te", "trailer", "transfer-encoding",
    "upgrade"].any fun s => s.toList == name

/-- The path the upstream sees. -/
def mergeUpstreamPath (basePath incoming : Str) : Str :=
  let incomingPath := if incoming.head? = some '/' then incoming else '/' :: incoming
  if basePath = ['/'] then incomingPath
  else if incomingPath = ['/'] then basePath
  else basePath ++ incomingPath

/-- Path and query of a request target. -/
def splitPathAndQuery (rawPath : Str) : Str × Option Str :=
  match splitOnce '?' rawPath with
  | some (path, query) => (path, some query)
  | none => (rawPath, none)

/-- The header is not copied: it concerns one connection, or the proxy writes its own. -/
def notCopied (name : Str) : Bool :=
  isHopByHop name || name == "host".toList || name == "x-forwarded-for".toList

/-- The forwarding chain with this client at its end. -/
def forwardedFor (request : HttpRequest) (clientIp : IpAddr) : Str :=
  match request.headers.get? "x-forwarded-for".toList with
  | some existing =>
    if existing ≠ [] then existing ++ ", ".toList ++ clientIp.display else clientIp.display
  | none => clientIp.display

/-- The length header the proxy adds: always before a body, and without one when the client
declared nothing. -/
def lengthLines (request : HttpRequest) : List Str :=
  if request.body ≠ [] then ["Content-Length: ".toList ++ decimal request.body.length]
  else if !request.headers.containsKey "content-length".toList then ["Content-Length: 0".toList]
  else []

/-- `{k}: {v}`. -/
def headerLine (e : Str × Str) : Str := e.1 ++ ": ".toList ++ e.2

/-- The first line. -/
def requestLine (request : HttpRequest) (upstream : Upstream) : Str :=
  request.method ++ ' ' :: mergeUpstreamPath upstream.basePath request.path ++
    ' ' :: request.version

/-- The second line. -/
def hostLine (upstream : Upstream) : Str := "Host: ".toList ++ upstream.authority

/-- The lines in front of the blank line. -/
def upstreamLines (order : HashOrder Str Str) (request : HttpRequest) (upstream : Upstream)
    (clientIp : IpAddr) : List Str :=
  [requestLine request upstream, hostLine upstream] ++
    ((order.iter request.headers).filter fun e => !notCopied e.1).map headerLine ++
    ["x-forwarded-for: ".toList ++ forwardedFor request clientIp, "Connection: close".toList] ++
    lengthLines request

/-- Why a request is not written. -/
inductive BuildError
  | tooLarge
  deriving DecidableEq, Repr

/-- The text of the error. -/
def BuildError.text : BuildError → String
  | tooLarge => "upstream request is too large"

/-- The largest request that is written. -/
def maxUpstreamSize : ℕ := maxHeaderSize + maxBodySize + 1024

/-- `build_upstream_request`. -/
def buildUpstreamRequest (order : HashOrder Str Str) (request : HttpRequest) (upstream : Upstream)
    (clientIp : IpAddr) : Except BuildError Bytes :=
  let head := ((upstreamLines order request upstream clientIp).flatMap fun l => l ++ ['\r', '\n'])
  let out := asBytes (head ++ ['\r', '\n']) ++ request.body
  if maxUpstreamSize < out.length then .error .tooLarge else .ok out

/-- What is written: the lines, the blank line, and the body as it is. -/
theorem buildUpstreamRequest_eq_ok {order : HashOrder Str Str} {request : HttpRequest}
    {upstream : Upstream} {clientIp : IpAddr} {out : Bytes}
    (h : buildUpstreamRequest order request upstream clientIp = .ok out) :
    out = asBytes (joinPair '\r' '\n' (upstreamLines order request upstream clientIp)) ++
        blankLine ++ request.body ∧
      request.body.length < 2 ^ 64 := by
  have hne : upstreamLines order request upstream clientIp ≠ [] := by
    simp [upstreamLines]
  have hlines := flatMap_append_pair (a := '\r') (b := '\n') hne
  rw [buildUpstreamRequest] at h
  simp only [hlines] at h
  split at h
  · cases h
  · next hle =>
    have hout := Except.ok.inj h
    have hlen : request.body.length < 2 ^ 64 := by
      have hmax : maxUpstreamSize = 10552320 := rfl
      rw [List.length_append] at hle
      omega
    refine ⟨hout.symm.trans ?_, hlen⟩
    rw [List.append_assoc, asBytes_append]
    rfl

end Proxy

end Fywaf
