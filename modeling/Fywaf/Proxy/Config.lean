import Fywaf.Proxy.Connection
import Fywaf.Proxy.UpstreamUrl

/-!
# The configuration

`AppConfig::validate` checks the sites and profiles of a configuration before anything is started,
and `run` then parses the upstream URL of every site. The one looks only for the scheme of a URL,
the other takes all of it apart.

## Main definitions

* `Proxy.AppConfig`, `Proxy.AppConfig.validate`, `Proxy.siteRuntimes`
* `Proxy.AppConfig.Valid` — what is checked, without the order of the checks
* `Proxy.StartsUp` — no site stops the start

## Main results

* `Proxy.AppConfig.validate_eq_ok_iff` — exactly which configurations are accepted
* `Proxy.startsUp_iff` — exactly which of them start
-/

namespace Fywaf

namespace Proxy

structure UpstreamConfig where
  url : Str

structure SiteConfig where
  id : Str
  listen : Str
  upstream : UpstreamConfig
  profile : Str

structure ProfileConfig where
  id : Str
  wasmPath : Str
  params : HashMap Str Json

structure AppConfig where
  sites : List SiteConfig
  profiles : List ProfileConfig

/-- Why a configuration is refused. -/
inductive ConfigError
  | noSites
  | noProfiles
  | emptyProfileId
  | duplicateProfileId (id : Str)
  | emptyWasmPath (id : Str)
  | emptySiteId
  | duplicateSiteId (id : Str)
  | emptyListen (id : Str)
  | duplicateListen (listen : Str)
  | emptyUrl (id : Str)
  | notHttp (id : Str)
  | missingProfile (id profile : Str)
  deriving DecidableEq, Repr

/-- The text of the error. -/
def ConfigError.text : ConfigError → Str
  | noSites => "sites must not be empty".toList
  | noProfiles => "profiles must not be empty".toList
  | emptyProfileId => "profile.id must not be empty".toList
  | duplicateProfileId id => "duplicate profile.id found: ".toList ++ id
  | emptyWasmPath id => "profile ".toList ++ id ++ " wasm_path must not be empty".toList
  | emptySiteId => "site.id must not be empty".toList
  | duplicateSiteId id => "duplicate site.id found: ".toList ++ id
  | emptyListen id => "site ".toList ++ id ++ " listen must not be empty".toList
  | duplicateListen listen => "duplicate site.listen found: ".toList ++ listen
  | emptyUrl id => "site ".toList ++ id ++ " upstream.url must not be empty".toList
  | notHttp id => "site ".toList ++ id ++ " upstream.url must start with http:// for MVP".toList
  | missingProfile id profile =>
    "site ".toList ++ id ++ " references missing profile ".toList ++ profile

/-! ### Validation -/

/-- One turn of the loop over the profiles; the ids that were seen are the state. -/
def checkProfile (profileIds : List Str) (profile : ProfileConfig) :
    Except ConfigError (List Str) := do
  failIf (trim profile.id = []) .emptyProfileId
  let profileIds ← insertNew profileIds profile.id (.duplicateProfileId profile.id)
  failIf (trim profile.wasmPath = []) (.emptyWasmPath profile.id)
  return profileIds

/-- One turn of the loop over the sites; the ids and the addresses that were seen are the
state. -/
def checkSite (profileLookup : List Str) (seen : List Str × List Str) (site : SiteConfig) :
    Except ConfigError (List Str × List Str) := do
  failIf (trim site.id = []) .emptySiteId
  let siteIds ← insertNew seen.1 site.id (.duplicateSiteId site.id)
  failIf (trim site.listen = []) (.emptyListen site.id)
  let listenAddrs ← insertNew seen.2 site.listen (.duplicateListen site.listen)
  failIf (trim site.upstream.url = []) (.emptyUrl site.id)
  failIf (¬ "http://".toList.isPrefixOf site.upstream.url) (.notHttp site.id)
  failIf (site.profile ∉ profileLookup) (.missingProfile site.id site.profile)
  return (siteIds, listenAddrs)

namespace AppConfig

/-- `AppConfig::validate`. -/
def validate (config : AppConfig) : Except ConfigError Unit := do
  failIf (config.sites = []) .noSites
  failIf (config.profiles = []) .noProfiles
  let _ ← config.profiles.foldlM checkProfile []
  let profileLookup := config.profiles.map ProfileConfig.id
  let _ ← config.sites.foldlM (checkSite profileLookup) ([], [])
  return ()

end AppConfig

/-- A profile that can be used. -/
structure ProfileConfig.Valid (profile : ProfileConfig) : Prop where
  id : trim profile.id ≠ []
  wasmPath : trim profile.wasmPath ≠ []

/-- A site that can be used with the profiles. -/
structure SiteConfig.Valid (profiles : List ProfileConfig) (site : SiteConfig) : Prop where
  id : trim site.id ≠ []
  listen : trim site.listen ≠ []
  url : "http://".toList <+: site.upstream.url
  profile : site.profile ∈ profiles.map ProfileConfig.id

/-- The sites and profiles can be used, and told apart. -/
structure AppConfig.Valid (config : AppConfig) : Prop where
  sites_ne_nil : config.sites ≠ []
  profiles_ne_nil : config.profiles ≠ []
  profile : ∀ profile ∈ config.profiles, profile.Valid
  profileIds : (config.profiles.map ProfileConfig.id).Nodup
  site : ∀ site ∈ config.sites, site.Valid config.profiles
  siteIds : (config.sites.map SiteConfig.id).Nodup
  listenAddrs : (config.sites.map SiteConfig.listen).Nodup

theorem checkProfile_eq_ok_iff (visited : List ProfileConfig) (profile : ProfileConfig)
    (s : List Str) : checkProfile (visited.map ProfileConfig.id) profile = .ok s ↔
      (profile.Valid ∧ ∀ p ∈ visited, p.id ≠ profile.id) ∧
        s = (profile :: visited).map ProfileConfig.id := by
  simp only [checkProfile, bind_eq_ok_iff, failIf_eq_ok_iff, insertNew_eq_ok_iff]
  constructor
  · rintro ⟨-, hid, ids, ⟨hnew, rfl⟩, -, hpath, hs⟩
    exact ⟨⟨⟨hid, hpath⟩, fun p hp heq => hnew (List.mem_map.mpr ⟨p, hp, heq⟩)⟩,
      (Except.ok.inj hs).symm⟩
  · rintro ⟨⟨hvalid, hnew⟩, rfl⟩
    refine ⟨(), hvalid.id, _, ⟨fun hmem => ?_, rfl⟩, (), hvalid.wasmPath, rfl⟩
    obtain ⟨p, hp, heq⟩ := List.mem_map.mp hmem
    exact hnew p hp heq

/-- A URL that starts with the scheme is not blank. -/
theorem trim_ne_nil_of_http {url : Str} (h : "http://".toList <+: url) : trim url ≠ [] := by
  obtain ⟨rest, rfl⟩ := h
  have hclean : CleanEnds isWhitespace "http://".toList :=
    cleanEnds_of_forall (forall_mem_of_all (by decide))
  have htrim : trim ("http://".toList ++ rest) = "http://".toList ++ rest.rdropWhile isWhitespace :=
    trimMatches_word hclean (by decide) (List.forall_mem_nil _) rest
  rw [htrim]
  exact List.append_ne_nil_of_left_ne_nil (by decide) _

theorem checkSite_eq_ok_iff (profiles : List ProfileConfig) (visited : List SiteConfig)
    (site : SiteConfig) (s : List Str × List Str) :
    checkSite (profiles.map ProfileConfig.id)
        (visited.map SiteConfig.id, visited.map SiteConfig.listen) site = .ok s ↔
      (site.Valid profiles ∧ ∀ b ∈ visited, b.id ≠ site.id ∧ b.listen ≠ site.listen) ∧
        s = ((site :: visited).map SiteConfig.id, (site :: visited).map SiteConfig.listen) := by
  simp only [checkSite, bind_eq_ok_iff, failIf_eq_ok_iff, insertNew_eq_ok_iff, not_not,
    List.isPrefixOf_iff_prefix]
  constructor
  · rintro ⟨-, hid, ids, ⟨hnewId, rfl⟩, -, hlisten, addrs, ⟨hnewListen, rfl⟩, -, -, -, hhttp, -,
      hprofile, hs⟩
    refine ⟨⟨⟨hid, hlisten, hhttp, hprofile⟩, fun b hb => ⟨fun heq => ?_, fun heq => ?_⟩⟩,
      (Except.ok.inj hs).symm⟩
    · exact hnewId (List.mem_map.mpr ⟨b, hb, heq⟩)
    · exact hnewListen (List.mem_map.mpr ⟨b, hb, heq⟩)
  · rintro ⟨⟨hvalid, hnew⟩, rfl⟩
    refine ⟨(), hvalid.id, _, ⟨fun hmem => ?_, rfl⟩, (), hvalid.listen, _, ⟨fun hmem => ?_, rfl⟩,
      (), trim_ne_nil_of_http hvalid.url, (), hvalid.url, (), hvalid.profile, rfl⟩
    · obtain ⟨b, hb, heq⟩ := List.mem_map.mp hmem
      exact (hnew b hb).1 heq
    · obtain ⟨b, hb, heq⟩ := List.mem_map.mp hmem
      exact (hnew b hb).2 heq

namespace AppConfig

variable {config : AppConfig}

theorem exists_profileIds_iff : (∃ ids, config.profiles.foldlM checkProfile [] = .ok ids) ↔
    (∀ profile ∈ config.profiles, profile.Valid) ∧
      (config.profiles.map ProfileConfig.id).Nodup := by
  have hloop := exists_foldlM_ok_iff checkProfile_eq_ok_iff config.profiles
  simpa only [List.map_nil, List.Nodup, List.pairwise_map] using hloop

theorem exists_siteIds_iff :
    (∃ seen, config.sites.foldlM (checkSite (config.profiles.map ProfileConfig.id)) ([], []) =
      .ok seen) ↔
    (∀ site ∈ config.sites, site.Valid config.profiles) ∧
      (config.sites.map SiteConfig.id).Nodup ∧ (config.sites.map SiteConfig.listen).Nodup := by
  have hloop := exists_foldlM_ok_iff (checkSite_eq_ok_iff config.profiles) config.sites
  simpa only [List.map_nil, List.Nodup, List.pairwise_map, List.pairwise_and_iff] using hloop

/-- **Exactly which configurations are accepted.** -/
theorem validate_eq_ok_iff : config.validate = .ok () ↔ config.Valid := by
  simp only [validate, bind_eq_ok_iff, failIf_eq_ok_iff]
  constructor
  · rintro ⟨-, hsome, -, hany, ids, hids, seen, hseen, -⟩
    obtain ⟨hprofile, hprofileIds⟩ := exists_profileIds_iff.mp ⟨ids, hids⟩
    obtain ⟨hsite, hsiteIds, hlistens⟩ := exists_siteIds_iff.mp ⟨seen, hseen⟩
    exact ⟨hsome, hany, hprofile, hprofileIds, hsite, hsiteIds, hlistens⟩
  · intro h
    obtain ⟨ids, hids⟩ := exists_profileIds_iff.mpr ⟨h.profile, h.profileIds⟩
    obtain ⟨seen, hseen⟩ := exists_siteIds_iff.mpr ⟨h.site, h.siteIds, h.listenAddrs⟩
    exact ⟨(), h.sites_ne_nil, (), h.profiles_ne_nil, ids, hids, seen, hseen, rfl⟩

end AppConfig

/-! ### Starting -/

/-- A site while the proxy runs. -/
structure SiteRuntime extends Site where
  id : Str
  listen : Str

/-- The upstream of a site is parsed. -/
def siteRuntime (site : SiteConfig) : Except UrlError SiteRuntime := do
  let upstream ← Upstream.parse site.upstream.url
  return { id := site.id, listen := site.listen, profileId := site.profile, upstream := upstream }

/-- What `run` does before the first listener is bound. -/
def siteRuntimes (config : AppConfig) : Except UrlError (List SiteRuntime) :=
  config.sites.mapM siteRuntime

/-- No site stops the start: every URL is read, every profile is found once, and so the sites can
be put together. -/
structure StartsUp (config : AppConfig) : Prop where
  parses : ∀ site ∈ config.sites, ∃ u, Upstream.parse site.upstream.url = .ok u
  profile : ∀ site ∈ config.sites, config.profiles.countP (fun p => p.id = site.profile) = 1
  runs : ∃ runtimes, siteRuntimes config = .ok runtimes

theorem exists_siteRuntimes_iff {config : AppConfig} :
    (∃ runtimes, siteRuntimes config = .ok runtimes) ↔
      ∀ site ∈ config.sites, ∃ u, Upstream.parse site.upstream.url = .ok u := by
  rw [siteRuntimes, exists_mapM_ok_iff]
  refine forall₂_congr fun site _ => ?_
  simp only [siteRuntime, bind_eq_ok_iff]
  constructor
  · rintro ⟨runtime, u, hu, -⟩
    exact ⟨u, hu⟩
  · rintro ⟨u, hu⟩
    exact ⟨_, u, hu, rfl⟩

/-- Each profile that a site names is there once. -/
theorem AppConfig.Valid.countP_profile {config : AppConfig} (h : config.Valid) {site : SiteConfig}
    (hsite : site ∈ config.sites) :
    config.profiles.countP (fun p => p.id = site.profile) = 1 := by
  have hcount := List.count_eq_one_of_mem h.profileIds (h.site site hsite).profile
  rw [List.count, List.countP_map] at hcount
  rw [← hcount]
  exact List.countP_congr fun p _ => by simp

/-- **Exactly which configurations start**: those whose URLs name a host, and a port that fits. -/
theorem startsUp_iff {config : AppConfig} (h : config.validate = .ok ()) :
    StartsUp config ↔ ∀ site ∈ config.sites, ∃ host port path,
      NamesUpstream site.upstream.url host port path := by
  have hvalid := AppConfig.validate_eq_ok_iff.mp h
  simp only [← Upstream.exists_parse_iff]
  constructor
  · exact StartsUp.parses
  · intro hparses
    exact ⟨hparses, fun site hsite => hvalid.countP_profile hsite,
      exists_siteRuntimes_iff.mpr hparses⟩

/-- One site for everybody, with this upstream. -/
def publicConfig (url : Str) : AppConfig where
  sites := [⟨"site-a".toList, "127.0.0.1:8080".toList, ⟨url⟩, "public".toList⟩]
  profiles := [⟨"public".toList, "wasm/public.wasm".toList, .empty⟩]

/-- A URL that is nothing but the scheme passes, and stops the start. -/
theorem bare_scheme_stops : ¬ ∀ config : AppConfig, config.validate = .ok () →
    StartsUp config := by
  intro h
  have hstarts := h (publicConfig "http://".toList) rfl
  obtain ⟨u, hu⟩ := hstarts.parses _ List.mem_cons_self
  cases hu

theorem public_startsUp : StartsUp (publicConfig "http://127.0.0.1:9000".toList) := by
  refine (startsUp_iff rfl).mpr ?_
  intro site hsite
  obtain rfl := List.mem_singleton.mp hsite
  exact Upstream.exists_parse_iff.mp ⟨_, rfl⟩

end Proxy

end Fywaf
