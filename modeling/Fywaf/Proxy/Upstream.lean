import Fywaf.Std.Num

/-!
# Upstream addresses

`Upstream::parse` takes the upstream URL of a site apart into host, port and base path.

## Main definitions

* `Proxy.Upstream`, `Proxy.Upstream.parse`, `Proxy.Upstream.authority`

## Main results

* `Proxy.Upstream.head_trimPath` — a base path starts with a slash
-/

namespace Fywaf

namespace Proxy

/-- Where a site's requests go. -/
structure Upstream where
  host : Str
  port : UInt16
  basePath : Str

/-- Why an upstream URL is refused. -/
inductive UrlError
  | notHttp
  | empty
  | emptyAuthority
  | invalidPort
  | emptyHost
  deriving DecidableEq, Repr

/-- The text of the error. -/
def UrlError.text : UrlError → String
  | notHttp => "only http:// upstream is supported"
  | empty => "empty upstream URL"
  | emptyAuthority => "upstream authority is empty"
  | invalidPort => "invalid upstream port"
  | emptyHost => "upstream host is empty"

namespace Upstream

/-- The base path of a URL: it starts with a slash, and a slash at its end is dropped. -/
def trimPath (path : Str) : Str :=
  let path := if path.head? = some '/' then path else '/' :: path
  if 1 < (asBytes path).length ∧ path.getLast? = some '/' then path.dropLast else path

/-- Host and port of an authority; the port is 80 when there is none. -/
def parseAuthority (authority : Str) : Except UrlError (Str × UInt16) :=
  match splitOnce ':' authority with
  | some (h, p) =>
    match parseUnsigned 16 p with
    | some port => .ok (h, UInt16.ofNat port)
    | none => .error .invalidPort
  | none => .ok (authority, 80)

/-- Authority and path of a URL behind its scheme. -/
def splitPath (rest : Str) : Str × Str :=
  match splitOnce '/' rest with
  | some (auth, p) => (auth, '/' :: p)
  | none => (rest, ['/'])

/-- `Upstream::parse`. -/
def parse (raw : Str) : Except UrlError Upstream :=
  match stripPrefix "http://".toList raw with
  | none => .error .notHttp
  | some rest =>
    if rest = [] then .error .empty
    else
      let (authority, path) := splitPath rest
      if authority = [] then .error .emptyAuthority
      else
        match parseAuthority authority with
        | .error e => .error e
        | .ok (host, port) =>
          if host = [] then .error .emptyHost else .ok ⟨host, port, trimPath path⟩

/-- `host:port`. -/
def authority (u : Upstream) : Str := u.host ++ ':' :: decimal u.port.toNat

/-! ### Base paths -/

theorem head_trimPath (path : Str) : (trimPath path).head? = some '/' := by
  have hslash : ∀ p : Str, p.head? = some '/' → 1 < (asBytes p).length →
      p.dropLast.head? = some '/' := by
    intro p hp hlen
    match p, hp with
    | [c], hp =>
      rw [List.head?_cons, Option.some.injEq] at hp
      subst hp
      exact absurd hlen (by decide)
    | c :: d :: p, hp => exact hp
  have hlead : (if path.head? = some '/' then path else '/' :: path).head? = some '/' := by
    split
    · assumption
    · rfl
  rw [trimPath]
  generalize (if path.head? = some '/' then path else '/' :: path) = p at hlead ⊢
  split
  · next h => exact hslash _ hlead h.1
  · exact hlead

theorem mem_trimPath {path : Str} {c : Char} (h : c ∈ trimPath path) : c ∈ path ∨ c = '/' := by
  have hlead : ∀ d, d ∈ (if path.head? = some '/' then path else '/' :: path) →
      d ∈ path ∨ d = '/' := by
    intro d hd
    split at hd
    · exact Or.inl hd
    · exact (List.mem_cons.mp hd).symm
  rw [trimPath] at h
  generalize (if path.head? = some '/' then path else '/' :: path) = p at hlead h
  split at h
  · exact hlead c (List.mem_of_mem_dropLast h)
  · exact hlead c h

end Upstream

end Proxy

end Fywaf
