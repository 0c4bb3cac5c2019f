import Fywaf.Proxy.Upstream

/-!
# Which upstream URLs are accepted

An upstream URL is taken apart at the first slash behind the scheme, and what is in front of that
at its first colon. So a URL is accepted when the pieces are there, and what a URL is taken apart
into can be said without the order of the steps.

## Main definitions

* `Proxy.NamesUpstream` — the URL names a host, and a port that fits

## Main results

* `Proxy.Upstream.parse_eq_ok_iff` — what a URL is taken apart into
* `Proxy.Upstream.parse_spec` — host and base path are cut out of the URL
* `Proxy.Upstream.exists_parse_iff` — exactly which URLs are accepted
* `Proxy.Upstream.parse_written` — host and port are read back as they are printed
-/

namespace Fywaf

namespace Proxy

/-- `http://`, a host without colons and slashes, a port if there is a colon, and nothing more or
a path. -/
structure NamesUpstream (url host port path : Str) : Prop where
  text : url = "http://".toList ++ (host ++ (port ++ path))
  host_ne_nil : host ≠ []
  host_plain : ':' ∉ host ∧ '/' ∉ host
  port_fits : port = [] ∨ ∃ p, port = ':' :: p ∧ (parseUnsigned 16 p).isSome = true
  path_slash : ∀ c ∈ path.head?, c = '/'

namespace Upstream

/-- Host and port are on the two sides of the first colon. -/
theorem parseAuthority_eq_ok_iff {authority host : Str} {port : UInt16} :
    parseAuthority authority = .ok (host, port) ↔ ':' ∉ host ∧
      ((authority = host ∧ port = 80) ∨ ∃ p n, authority = host ++ ':' :: p ∧
        parseUnsigned 16 p = some n ∧ port = UInt16.ofNat n) := by
  rw [parseAuthority]
  cases hsplit : splitOnce ':' authority with
  | none =>
    have hcolon := splitOnce_eq_none_iff.mp hsplit
    simp only [Except.ok.injEq, Prod.mk.injEq]
    constructor
    · rintro ⟨rfl, rfl⟩
      exact ⟨hcolon, Or.inl ⟨rfl, rfl⟩⟩
    · rintro ⟨-, ⟨rfl, rfl⟩ | ⟨p, n, rfl, -⟩⟩
      · exact ⟨rfl, rfl⟩
      · exact absurd (List.mem_append_right _ List.mem_cons_self) hcolon
  | some parts =>
    obtain ⟨h, p⟩ := parts
    obtain ⟨rfl, hcolon⟩ := splitOnce_eq_some_iff.mp hsplit
    dsimp only
    constructor
    · intro hparse
      cases hport : parseUnsigned 16 p with
      | none => rw [hport] at hparse; cases hparse
      | some n =>
        rw [hport] at hparse
        obtain ⟨rfl, rfl⟩ := Prod.mk.inj (Except.ok.inj hparse)
        exact ⟨hcolon, Or.inr ⟨p, n, rfl, hport, rfl⟩⟩
    · rintro ⟨hhost, ⟨rfl, -⟩ | ⟨p', n, heq, hport, rfl⟩⟩
      · exact absurd (List.mem_append_right _ List.mem_cons_self) hhost
      · have hsame := splitOnce_eq_some_iff.mpr ⟨heq, hhost⟩
        obtain ⟨rfl, rfl⟩ := Prod.mk.inj (Option.some.inj (hsplit.symm.trans hsame))
        rw [hport]

/-- A text is cut at its first slash. -/
theorem exists_cut (rest : Str) : ∃ authority path, rest = authority ++ path ∧ '/' ∉ authority ∧
    ∀ c ∈ path.head?, c = '/' := by
  cases hsplit : splitOnce '/' rest with
  | none =>
    exact ⟨rest, [], (List.append_nil rest).symm, splitOnce_eq_none_iff.mp hsplit, nofun⟩
  | some parts =>
    obtain ⟨hrest, hslash⟩ := splitOnce_eq_some_iff.mp hsplit
    exact ⟨parts.1, '/' :: parts.2, hrest, hslash, fun c hc => (Option.some.inj hc).symm⟩

section Parts

variable {authority path : Str}

/-- The path is a slash when there is none. -/
theorem splitPath_append (hslash : '/' ∉ authority) (hpath : ∀ c ∈ path.head?, c = '/') :
    splitPath (authority ++ path) = (authority, if path = [] then ['/'] else path) := by
  cases path with
  | nil =>
    rw [List.append_nil, splitPath, splitOnce_eq_none_iff.mpr hslash]
    rfl
  | cons c p =>
    obtain rfl : c = '/' := hpath c rfl
    rw [splitPath, splitOnce_append hslash]
    rfl

/-- A URL is taken apart piece by piece. -/
theorem parse_append_iff (hslash : '/' ∉ authority) (hpath : ∀ c ∈ path.head?, c = '/')
    {u : Upstream} : parse ("http://".toList ++ (authority ++ path)) = .ok u ↔
      parseAuthority authority = .ok (u.host, u.port) ∧ u.host ≠ [] ∧
        u.basePath = trimPath path := by
  have htrim : trimPath (if path = [] then ['/'] else path) = trimPath path := by
    split
    · next hnil => rw [hnil]; rfl
    · rfl
  have hempty : ∀ {host port}, parseAuthority authority = .ok (host, port) → host ≠ [] →
      authority ≠ [] := by
    rintro host port hparse hhost rfl
    exact hhost (Prod.mk.inj (Except.ok.inj hparse)).1.symm
  rw [parse, stripPrefix_eq_some_iff.mpr rfl]
  dsimp only
  rw [splitPath_append hslash hpath]
  dsimp only
  rw [htrim]
  constructor
  · intro h
    split at h
    · cases h
    · split at h
      · cases h
      · split at h
        · cases h
        · next host port hparse =>
          split at h
          · cases h
          · next hhost =>
            obtain rfl := Except.ok.inj h
            exact ⟨hparse, hhost, rfl⟩
  · rintro ⟨hparse, hhost, hbase⟩
    have hauthority := hempty hparse hhost
    rw [if_neg (List.append_ne_nil_of_left_ne_nil hauthority _), if_neg hauthority, hparse]
    dsimp only
    rw [if_neg hhost, ← hbase]

end Parts

/-- **What a URL is taken apart into.** -/
theorem parse_eq_ok_iff {raw : Str} {u : Upstream} : parse raw = .ok u ↔
    ∃ authority path, raw = "http://".toList ++ (authority ++ path) ∧ '/' ∉ authority ∧
      (∀ c ∈ path.head?, c = '/') ∧ parseAuthority authority = .ok (u.host, u.port) ∧
      u.host ≠ [] ∧ u.basePath = trimPath path := by
  constructor
  · intro h
    obtain ⟨rest, rfl⟩ : ∃ rest, raw = "http://".toList ++ rest := by
      rw [parse] at h
      split at h
      · cases h
      · next rest hrest => exact ⟨rest, stripPrefix_eq_some_iff.mp hrest⟩
    obtain ⟨authority, path, rfl, hslash, hpath⟩ := exists_cut rest
    exact ⟨authority, path, rfl, hslash, hpath, (parse_append_iff hslash hpath).mp h⟩
  · rintro ⟨authority, path, rfl, hslash, hpath, h⟩
    exact (parse_append_iff hslash hpath).mpr h

/-- **Host and base path are cut out of the URL**, and the base path starts with a slash. -/
theorem parse_spec {raw : Str} {u : Upstream} (h : parse raw = .ok u) :
    (∀ c ∈ u.host, c ∈ raw) ∧ (∀ c ∈ u.basePath, c ∈ raw ∨ c = '/') ∧
      u.basePath.head? = some '/' := by
  obtain ⟨authority, path, rfl, -, -, hparse, -, hbase⟩ := parse_eq_ok_iff.mp h
  have hhost : ∀ c ∈ u.host, c ∈ authority := by
    obtain ⟨-, ⟨rfl, -⟩ | ⟨p, n, rfl, -⟩⟩ := parseAuthority_eq_ok_iff.mp hparse
    · exact fun c hc => hc
    · exact fun c hc => List.mem_append_left _ hc
  rw [hbase]
  refine ⟨fun c hc => ?_, fun c hc => ?_, head_trimPath path⟩
  · exact List.mem_append_right _ (List.mem_append_left _ (hhost c hc))
  · exact (mem_trimPath hc).imp_left fun hpath =>
      List.mem_append_right _ (List.mem_append_right _ hpath)

/-- A port that is read has no slash in it. -/
theorem slash_notMem_port {p : Str} (h : (parseUnsigned 16 p).isSome = true) : '/' ∉ p := by
  obtain ⟨n, hport⟩ := Option.isSome_iff_exists.mp h
  rw [parseUnsigned, fromStrRadix, Option.filter_eq_some_iff] at hport
  have hdigits := not_mem_of_parseNat (by decide : toDigit 10 '/' = none) hport.1
  intro hmem
  cases p with
  | nil => cases hmem
  | cons c p =>
    by_cases hplus : c = '+'
    · subst hplus
      exact hdigits ((List.mem_cons.mp hmem).resolve_left (by decide))
    · rw [List.head?_cons, if_neg (mt Option.some.inj hplus)] at hdigits
      exact hdigits hmem

/-- **Exactly which URLs are accepted.** -/
theorem exists_parse_iff {raw : Str} :
    (∃ u, parse raw = .ok u) ↔ ∃ host port path, NamesUpstream raw host port path := by
  constructor
  · rintro ⟨u, h⟩
    obtain ⟨authority, path, rfl, hslash, hpath, hparse, hhost, -⟩ := parse_eq_ok_iff.mp h
    obtain ⟨hcolon, ⟨rfl, -⟩ | ⟨p, n, rfl, hport, -⟩⟩ := parseAuthority_eq_ok_iff.mp hparse
    · exact ⟨u.host, [], path, rfl, hhost, ⟨hcolon, hslash⟩, Or.inl rfl, hpath⟩
    · refine ⟨u.host, ':' :: p, path, by rw [List.append_assoc], hhost, ⟨hcolon, ?_⟩,
        Or.inr ⟨p, rfl, ?_⟩, hpath⟩
      · exact fun hmem => hslash (List.mem_append_left _ hmem)
      · rw [hport]
        rfl
  · rintro ⟨host, port, path, h⟩
    rcases h.port_fits with rfl | ⟨p, rfl, hfits⟩
    · have hparse : parseAuthority host = .ok (host, 80) :=
        parseAuthority_eq_ok_iff.mpr ⟨h.host_plain.1, Or.inl ⟨rfl, rfl⟩⟩
      exact ⟨⟨host, 80, trimPath path⟩, parse_eq_ok_iff.mpr
        ⟨host, path, h.text, h.host_plain.2, h.path_slash, hparse, h.host_ne_nil, rfl⟩⟩
    · obtain ⟨n, hport⟩ := Option.isSome_iff_exists.mp hfits
      have hparse : parseAuthority (host ++ ':' :: p) = .ok (host, UInt16.ofNat n) :=
        parseAuthority_eq_ok_iff.mpr ⟨h.host_plain.1, Or.inr ⟨p, n, rfl, hport, rfl⟩⟩
      have hslash : '/' ∉ host ++ ':' :: p :=
        List.not_mem_append h.host_plain.2 <|
          List.not_mem_cons_of_ne_of_not_mem (by decide) (slash_notMem_port hfits)
      have htext : raw = "http://".toList ++ (host ++ ':' :: p ++ path) := by
        rw [h.text, List.append_assoc]
      exact ⟨⟨host, UInt16.ofNat n, trimPath path⟩, parse_eq_ok_iff.mpr
        ⟨_, path, htext, hslash, h.path_slash, hparse, h.host_ne_nil, rfl⟩⟩

/-- **Host and port are read back** as they are printed. -/
theorem parse_written {raw : Str} {u : Upstream} (h : parse raw = .ok u) {path : Str}
    (hpath : ∀ c ∈ path.head?, c = '/') :
    parse ("http://".toList ++ (u.authority ++ path)) = .ok ⟨u.host, u.port, trimPath path⟩ := by
  obtain ⟨authority, -, -, hslash, -, hparse, hhost, -⟩ := parse_eq_ok_iff.mp h
  obtain ⟨hcolon, hwritten⟩ := parseAuthority_eq_ok_iff.mp hparse
  have hport : parseUnsigned 16 (decimal u.port.toNat) = some u.port.toNat :=
    parseUnsigned_decimal u.port.toNat_lt
  have hread : parseAuthority u.authority = .ok (u.host, u.port) :=
    parseAuthority_eq_ok_iff.mpr ⟨hcolon, Or.inr ⟨_, _, rfl, hport, UInt16.ofNat_toNat.symm⟩⟩
  have hhostSlash : '/' ∉ u.host := by
    rcases hwritten with ⟨rfl, -⟩ | ⟨p, n, rfl, -⟩
    · exact hslash
    · exact fun hmem => hslash (List.mem_append_left _ hmem)
  have hportSlash : '/' ∉ decimal u.port.toNat :=
    fun hmem => absurd (decimal_digits hmem) (by decide)
  have hwhole : '/' ∉ u.authority :=
    List.not_mem_append hhostSlash (List.not_mem_cons_of_ne_of_not_mem (by decide) hportSlash)
  exact (parse_append_iff hwhole hpath).mpr ⟨hread, hhost, rfl⟩

end Upstream

end Proxy

end Fywaf
