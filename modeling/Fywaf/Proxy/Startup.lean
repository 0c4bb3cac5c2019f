import Fywaf.Proxy.Config
import Fywaf.Proxy.Delivery
import Fywaf.Wasm.Load

/-!
# From a configuration to a running proxy

A configuration is validated, the module of every profile is loaded, the upstream of every site is
parsed, and the addresses of the sites are bound one after the other. What is checked on the way is
all that a connection relies on later: at a site that listens, no request fails because of a module
that is missing or does not start, and the guest gets the parameters of the profile.

## Main definitions

* `Proxy.joinPath`, `Proxy.fromConfig` — `WafEngine::from_config`
* `Proxy.EngineOf` — the engine of a configuration
* `Proxy.listen`, `Proxy.Process`, `Proxy.start` — `run_waf` and `run`

## Main results

* `Proxy.exists_fromConfig_iff`, `Proxy.engineOf_fromConfig` — when there is an engine, and which
* `Proxy.fromConfig_eq_error_iff` — the profile that is reported is the first that fails
* `Proxy.start_serves` — a site that listens has what its connections need
* `Proxy.start_decides` — the configuration decides, by way of the rules
* `Proxy.start_isolates` — a site is served by its own profile alone
-/

namespace Fywaf

namespace Proxy

open Wasm

variable {σ : Type}

/-! ### The engine of a configuration -/

/-- `Path::join`. -/
def joinPath (base path : Str) : Str :=
  if path.head? = some '/' then path
  else if base = [] ∨ base.getLast? = some '/' then base ++ path
  else base ++ '/' :: path

/-- Why there is no engine, and for which profile. -/
structure EngineError where
  profileId : Str
  cause : LoadFileError
  deriving DecidableEq

/-- The text of the error. -/
def EngineError.text (e : EngineError) : Str :=
  "failed to load wasm module for profile ".toList ++ e.profileId

/-- An engine with one more profile. -/
def withProfile (engine : WafEngine σ) (e : ProfileConfig × GuestModule σ) : WafEngine σ where
  vm := ⟨engine.vm.modules.insert e.1.id e.2⟩
  profileParams :=
    if e.1.params.entries = [] then engine.profileParams
    else engine.profileParams.insert e.1.id e.1.params

/-- One turn of the loop over the profiles. -/
def loadProfile (loader : Loader σ) (basePath : Str) (engine : WafEngine σ)
    (profile : ProfileConfig) : Except EngineError (WafEngine σ) := do
  let wasmPath := joinPath basePath profile.wasmPath
  let vm ← (engine.vm.loadModule loader profile.id wasmPath).mapError (EngineError.mk profile.id)
  return {
    vm := vm
    profileParams :=
      if profile.params.entries = [] then engine.profileParams
      else engine.profileParams.insert profile.id profile.params }

/-- `WafEngine::from_config`. -/
def fromConfig (loader : Loader σ) (config : AppConfig) (basePath : Str) :
    Except EngineError (WafEngine σ) :=
  config.profiles.foldlM (loadProfile loader basePath) ⟨.new, .empty⟩

/-- The file of the profile has the module. -/
def Loads (loader : Loader σ) (basePath : Str) (profile : ProfileConfig)
    (module : GuestModule σ) : Prop :=
  loader.Provides (joinPath basePath profile.wasmPath) module

/-- The engine has the module and the parameters of every profile, and nothing else. -/
structure EngineOf (loader : Loader σ) (basePath : Str) (config : AppConfig)
    (engine : WafEngine σ) : Prop where
  module : ∀ profile ∈ config.profiles, ∃ module, Loads loader basePath profile module ∧
    engine.vm.modules.get? profile.id = some module
  params : ∀ profile ∈ config.profiles, engine.params profile.id = profile.params
  hasProfile : ∀ id, engine.vm.hasProfile id = true ↔ id ∈ config.profiles.map ProfileConfig.id

section Engine

variable {loader : Loader σ} {basePath : Str} {config : AppConfig} {engine : WafEngine σ}

/-- Whether a profile is loaded does not depend on those before it. -/
theorem loadProfile_eq (engine : WafEngine σ) (profile : ProfileConfig) :
    loadProfile loader basePath engine profile =
      ((loader.load (joinPath basePath profile.wasmPath)).mapError (EngineError.mk profile.id)).map
        fun module => withProfile engine (profile, module) := by
  simp only [loadProfile, WasmVm.loadModule_eq]
  cases loader.load (joinPath basePath profile.wasmPath) <;> rfl

theorem loadProfile_eq_ok_iff (engine : WafEngine σ) (profile : ProfileConfig)
    (engine' : WafEngine σ) : loadProfile loader basePath engine profile = .ok engine' ↔
      ∃ module, Loads loader basePath profile module ∧
        engine' = withProfile engine (profile, module) := by
  rw [loadProfile_eq, map_eq_ok_iff]
  refine exists_congr fun module => ?_
  rw [mapError_eq_ok_iff, Loader.load_eq_ok_iff, Loads, @eq_comm _ engine']

theorem loadProfile_eq_error_iff {profile : ProfileConfig} {e : EngineError} :
    loadProfile loader basePath engine profile = .error e ↔ e.profileId = profile.id ∧
      loader.load (joinPath basePath profile.wasmPath) = .error e.cause := by
  obtain ⟨id, cause⟩ := e
  rw [loadProfile_eq]
  cases loader.load (joinPath basePath profile.wasmPath) with
  | ok module => exact iff_of_false (fun h => by cases h) fun h => by cases h.2
  | error cause' =>
    change Except.error (EngineError.mk profile.id cause') = _ ↔ _
    simp only [Except.error.injEq, EngineError.mk.injEq, eq_comm]

theorem fromConfig_eq_ok_iff : fromConfig loader config basePath = .ok engine ↔
    ∃ modules, List.Forall₂ (Loads loader basePath) config.profiles modules ∧
      engine = (config.profiles.zip modules).foldl withProfile ⟨.new, .empty⟩ :=
  foldlM_eq_ok_iff_forall₂ loadProfile_eq_ok_iff

/-- **There is an engine exactly when every module loads.** -/
theorem exists_fromConfig_iff : (∃ engine, fromConfig loader config basePath = .ok engine) ↔
    ∀ profile ∈ config.profiles, ∃ module, Loads loader basePath profile module := by
  rw [← exists_forall₂_iff]
  simp only [fromConfig_eq_ok_iff]
  exact ⟨fun ⟨_, modules, hmodules, _⟩ => ⟨modules, hmodules⟩,
    fun ⟨modules, hmodules⟩ => ⟨_, modules, hmodules, rfl⟩⟩

theorem modules_foldl (pairs : List (ProfileConfig × GuestModule σ)) (engine : WafEngine σ) :
    (pairs.foldl withProfile engine).vm.modules =
      engine.vm.modules.insertAll (pairs.map fun e => (e.1.id, e.2)) := by
  induction pairs generalizing engine with
  | nil => rfl
  | cons e pairs ih => exact ih _

/-- Only parameters that there are are kept. -/
theorem profileParams_foldl (pairs : List (ProfileConfig × GuestModule σ))
    (engine : WafEngine σ) : (pairs.foldl withProfile engine).profileParams =
      engine.profileParams.insertAll
        ((pairs.filter fun e => e.1.params.entries ≠ []).map fun e => (e.1.id, e.1.params)) := by
  induction pairs generalizing engine with
  | nil => rfl
  | cons e pairs ih =>
    rw [List.foldl_cons, ih, withProfile]
    by_cases h : e.1.params.entries = []
    · rw [if_pos h, List.filter_cons_of_neg (by simpa using h)]
    · rw [if_neg h, List.filter_cons_of_pos (by simpa using h)]
      rfl

/-- A profile stands in the loop with the module that its file has. -/
theorem exists_mem_pairs {profiles : List ProfileConfig} {modules : List (GuestModule σ)}
    (h : List.Forall₂ (Loads loader basePath) profiles modules) {profile : ProfileConfig}
    (hprofile : profile ∈ profiles) :
    ∃ module, Loads loader basePath profile module ∧ (profile, module) ∈ profiles.zip modules := by
  rw [← List.map_fst_zip h.length_eq.le] at hprofile
  obtain ⟨⟨_, module⟩, he, rfl⟩ := List.mem_map.mp hprofile
  exact ⟨module, List.forall₂_zip h he, he⟩

/-- The engine that the loop ends with has the module of each pair. -/
theorem get?_modules_foldl (pairs : List (ProfileConfig × GuestModule σ)) (id : Str) :
    (pairs.foldl withProfile ⟨.new, .empty⟩).vm.modules.get? id =
      lastOf id (pairs.map fun e => (e.1.id, e.2)) := by
  rw [modules_foldl]
  exact HashMap.get?_insertAll_empty _ _

/-- The engine that the loop ends with has the parameters of each pair. -/
theorem params_foldl {pairs : List (ProfileConfig × GuestModule σ)}
    (hids : (pairs.map fun e => e.1.id).Nodup) {e : ProfileConfig × GuestModule σ}
    (he : e ∈ pairs) : (pairs.foldl withProfile ⟨.new, .empty⟩).params e.1.id = e.1.params := by
  rw [WafEngine.params, profileParams_foldl]
  refine (congrArg (Option.getD · HashMap.empty) (HashMap.get?_insertAll_empty _ _)).trans ?_
  by_cases hempty : e.1.params.entries = []
  · rw [lastOf_eq_none_iff.mpr]
    · cases hparams : e.1.params
      rw [hparams] at hempty
      cases hempty
      rfl
    · rintro _ hf heq
      obtain ⟨f, hfilter, rfl⟩ := List.mem_map.mp hf
      obtain ⟨hf, hsome⟩ := List.mem_filter.mp hfilter
      obtain rfl := List.inj_on_of_nodup_map hids hf he heq
      exact absurd hempty (by simpa using hsome)
  · rw [(lastOf_eq_some_iff ?_).mpr]
    · rfl
    · exact List.mem_map.mpr ⟨_, List.mem_filter.mpr ⟨he, by simpa using hempty⟩, rfl⟩
    · rw [List.map_map]
      exact hids.sublist (List.filter_sublist.map _)

/-- The pairs of the loop have different names in a configuration that is valid. -/
theorem nodup_pairs (hvalid : config.validate = .ok ()) {modules : List (GuestModule σ)}
    (h : config.profiles.length ≤ modules.length) :
    ((config.profiles.zip modules).map fun e => e.1.id).Nodup := by
  have hnodup := (AppConfig.validate_eq_ok_iff.mp hvalid).profileIds
  rw [← List.map_fst_zip h, List.map_map] at hnodup
  exact hnodup

/-- A profile is in the engine with the module of its file. -/
theorem module_fromConfig (hvalid : config.validate = .ok ())
    (h : fromConfig loader config basePath = .ok engine) :
    ∀ profile ∈ config.profiles, ∃ module, Loads loader basePath profile module ∧
      engine.vm.modules.get? profile.id = some module := by
  obtain ⟨modules, hmodules, rfl⟩ := fromConfig_eq_ok_iff.mp h
  intro profile hprofile
  obtain ⟨module, hloads, he⟩ := exists_mem_pairs hmodules hprofile
  have hids := nodup_pairs hvalid hmodules.length_eq.le
  refine ⟨module, hloads, ?_⟩
  rw [get?_modules_foldl, lastOf_eq_some_iff (by rw [List.map_map]; exact hids)]
  exact List.mem_map.mpr ⟨_, he, rfl⟩

/-- A profile is in the engine with its parameters. -/
theorem params_fromConfig (hvalid : config.validate = .ok ())
    (h : fromConfig loader config basePath = .ok engine) :
    ∀ profile ∈ config.profiles, engine.params profile.id = profile.params := by
  obtain ⟨modules, hmodules, rfl⟩ := fromConfig_eq_ok_iff.mp h
  intro profile hprofile
  obtain ⟨module, -, he⟩ := exists_mem_pairs hmodules hprofile
  exact params_foldl (nodup_pairs hvalid hmodules.length_eq.le) he

theorem hasProfile_fromConfig (h : fromConfig loader config basePath = .ok engine) (id : Str) :
    engine.vm.hasProfile id = true ↔ id ∈ config.profiles.map ProfileConfig.id := by
  obtain ⟨modules, hmodules, rfl⟩ := fromConfig_eq_ok_iff.mp h
  have hfst : (config.profiles.zip modules).map Prod.fst = config.profiles :=
    List.map_fst_zip hmodules.length_eq.le
  have hids : config.profiles.map ProfileConfig.id =
      (config.profiles.zip modules).map fun e => e.1.id := by
    conv_lhs => rw [← hfst, List.map_map]
    rfl
  rw [WasmVm.hasProfile, HashMap.containsKey, get?_modules_foldl, Option.isSome_iff_ne_none, Ne,
    lastOf_eq_none_iff, List.forall_mem_map, not_forall₂, hids, List.mem_map]
  simp

/-- **The engine of a configuration** has what the profiles say. -/
theorem engineOf_fromConfig (hvalid : config.validate = .ok ())
    (h : fromConfig loader config basePath = .ok engine) :
    EngineOf loader basePath config engine :=
  ⟨module_fromConfig hvalid h, params_fromConfig hvalid h, hasProfile_fromConfig h⟩

/-- **The profile that is reported is the first one whose module does not load.** -/
theorem fromConfig_eq_error_iff {e : EngineError} : fromConfig loader config basePath = .error e ↔
    ∃ pre profile post, config.profiles = pre ++ profile :: post ∧
      (∀ p ∈ pre, ∃ module, Loads loader basePath p module) ∧ e.profileId = profile.id ∧
      loader.load (joinPath basePath profile.wasmPath) = .error e.cause := by
  rw [fromConfig, foldlM_eq_error_iff]
  simp only [loadProfile_eq_error_iff, foldlM_eq_ok_iff_forall₂ loadProfile_eq_ok_iff,
    ← exists_forall₂_iff]
  constructor
  · rintro ⟨pre, profile, post, engine, hsplit, ⟨modules, hmodules, -⟩, he⟩
    exact ⟨pre, profile, post, hsplit, ⟨modules, hmodules⟩, he⟩
  · rintro ⟨pre, profile, post, hsplit, ⟨modules, hmodules⟩, he⟩
    exact ⟨pre, profile, post, _, hsplit, ⟨modules, hmodules, rfl⟩, he⟩

end Engine

/-! ### Running -/

/-- Why the process ends. -/
inductive StartError
  | config (e : ConfigError)
  | engine (e : EngineError)
  | url (e : UrlError)
  | bind (listen : Str)

/-- The addresses of the sites are bound one after the other, until one of them is not. -/
def listen (binds : Str → Bool) : List SiteRuntime → List SiteRuntime × Except StartError Unit
  | [] => ([], .ok ())
  | site :: sites =>
    if binds site.listen then
      let (listening, result) := listen binds sites
      (site :: listening, result)
    else ([], .error (.bind site.listen))

/-- A process: the engine, the sites that listen, and whether all of them do. -/
structure Process (σ : Type) where
  engine : WafEngine σ
  listening : List SiteRuntime
  result : Except StartError Unit

/-- `run_waf`, once the configuration is read, and `run` up to the first connection. -/
def start (loader : Loader σ) (binds : Str → Bool) (config : AppConfig) (basePath : Str) :
    Except StartError (Process σ) := do
  config.validate.mapError .config
  let engine ← (fromConfig loader config basePath).mapError .engine
  let runtimes ← (siteRuntimes config).mapError .url
  let (listening, result) := listen binds runtimes
  return ⟨engine, listening, result⟩

/-- The sites that listen are those in front of the first one that is not bound. -/
theorem listen_spec (binds : Str → Bool) (sites : List SiteRuntime) :
    (listen binds sites).1 = sites.takeWhile (fun site => binds site.listen) ∧
      ((listen binds sites).2 = .ok () ↔ ∀ site ∈ sites, binds site.listen = true) := by
  induction sites with
  | nil => exact ⟨rfl, iff_of_true rfl (List.forall_mem_nil _)⟩
  | cons site sites ih =>
    rw [listen, List.takeWhile_cons, List.forall_mem_cons]
    cases hbinds : binds site.listen with
    | false => exact ⟨rfl, iff_of_false (fun h => by cases h) fun h => by cases h.1⟩
    | true => exact ⟨congrArg (site :: ·) ih.1, by rw [and_iff_right rfl]; exact ih.2⟩

section Start

variable {loader : Loader σ} {binds : Str → Bool} {config : AppConfig} {basePath : Str}
  {process : Process σ}

/-- The runtime of a site has what its configuration says. -/
def SiteRuntime.Of (runtime : SiteRuntime) (site : SiteConfig) : Prop :=
  runtime.id = site.id ∧ runtime.listen = site.listen ∧ runtime.profileId = site.profile ∧
    Upstream.parse site.upstream.url = .ok runtime.upstream

theorem siteRuntime_eq_ok_iff {site : SiteConfig} {runtime : SiteRuntime} :
    siteRuntime site = .ok runtime ↔ runtime.Of site := by
  obtain ⟨⟨profileId, upstream⟩, id, listen⟩ := runtime
  simp only [siteRuntime, bind_eq_ok_iff, SiteRuntime.Of]
  constructor
  · rintro ⟨u, hu, h⟩
    cases h
    exact ⟨rfl, rfl, rfl, hu⟩
  · rintro ⟨rfl, rfl, rfl, hu⟩
    exact ⟨_, hu, rfl⟩

theorem start_eq_ok_iff : start loader binds config basePath = .ok process ↔
    config.validate = .ok () ∧ fromConfig loader config basePath = .ok process.engine ∧
      ∃ runtimes, List.Forall₂ (fun site runtime => SiteRuntime.Of runtime site) config.sites
          runtimes ∧
        process.listening = runtimes.takeWhile (fun site => binds site.listen) ∧
        process.result = (listen binds runtimes).2 := by
  obtain ⟨engine, listening, result⟩ := process
  simp only [start, bind_eq_ok_iff, mapError_eq_ok_iff, siteRuntimes, mapM_eq_ok_iff,
    siteRuntime_eq_ok_iff, ← (listen_spec binds _).1]
  constructor
  · rintro ⟨⟨⟩, hvalid, engine', hengine, runtimes, hruntimes, h⟩
    cases h
    exact ⟨hvalid, hengine, runtimes, hruntimes, rfl, rfl⟩
  · rintro ⟨hvalid, hengine, runtimes, hruntimes, rfl, rfl⟩
    exact ⟨(), hvalid, engine, hengine, runtimes, hruntimes, rfl⟩

/-- A site that listens has a profile in the configuration. -/
theorem exists_profile_of_listening (h : start loader binds config basePath = .ok process)
    {site : SiteRuntime} (hsite : site ∈ process.listening) :
    ∃ profile ∈ config.profiles, profile.id = site.profileId := by
  obtain ⟨hvalid, -, runtimes, hruntimes, hlistening, -⟩ := start_eq_ok_iff.mp h
  rw [hlistening] at hsite
  obtain ⟨siteConfig, hmem, hof⟩ :=
    exists_of_forall₂_right hruntimes ((List.takeWhile_sublist _).subset hsite)
  obtain ⟨profile, hprofile, hid⟩ := List.mem_map.mp
    ((AppConfig.validate_eq_ok_iff.mp hvalid).site siteConfig hmem).profile
  exact ⟨profile, hprofile, hid.trans hof.2.2.1.symm⟩

/-- The engine of a process decides for a profile by the module of its file and its parameters. -/
theorem engine_start (h : start loader binds config basePath = .ok process)
    {profile : ProfileConfig} (hprofile : profile ∈ config.profiles) {module : GuestModule σ}
    (hloads : Loads loader basePath profile module) :
    process.engine.vm.modules.get? profile.id = some module ∧
      process.engine.params profile.id = profile.params := by
  obtain ⟨hvalid, hengine, -⟩ := start_eq_ok_iff.mp h
  obtain ⟨module', hloads', hmodule⟩ := module_fromConfig hvalid hengine profile hprofile
  obtain rfl := hloads.unique hloads'
  exact ⟨hmodule, params_fromConfig hvalid hengine profile hprofile⟩

/-- **A site that listens has what its connections need.** Whatever a client sends, no connection
to it fails because the profile has no module, or one that does not start. -/
theorem start_serves (h : start loader binds config basePath = .ok process)
    {site : SiteRuntime} (hsite : site ∈ process.listening) (serializer : Serializer)
    (order : HashOrder Str Str) (peers : Peers) (e : DecideError) :
    (handleConnection process.engine serializer order site.toSite peers).result =
        .error (.decide e) →
      e.profileId = site.profileId ∧ e.cause.isStartup = false := by
  intro herror
  obtain ⟨hvalid, hengine, -⟩ := start_eq_ok_iff.mp h
  obtain ⟨profile, hprofile, hid⟩ := exists_profile_of_listening h hsite
  obtain ⟨module, ⟨-, -, -, hstarts⟩, hmodule⟩ :=
    module_fromConfig hvalid hengine profile hprofile
  rw [hid] at hmodule
  obtain ⟨request, hdecide⟩ := decide_of_error herror
  rw [WafEngine.decide] at hdecide
  split at hdecide
  · next cause hcause =>
    obtain rfl := Except.error.inj hdecide
    exact ⟨rfl, WasmVm.decide_not_startup hmodule hstarts serializer _ _ hcause⟩
  · cases hdecide

/-- **A site is served by its own profile alone.** Two processes that give a profile the same module
and the same parameters handle every connection to a site of that profile alike, whatever other
profiles and sites stand in their configurations, and in whatever order. -/
theorem start_isolates (h : start loader binds config basePath = .ok process)
    {loader' : Loader σ} {binds' : Str → Bool} {config' : AppConfig} {basePath' : Str}
    {process' : Process σ} (h' : start loader' binds' config' basePath' = .ok process')
    {profile profile' : ProfileConfig} (hprofile : profile ∈ config.profiles)
    (hprofile' : profile' ∈ config'.profiles) (hid : profile.id = profile'.id)
    (hparams : profile.params = profile'.params) {module : GuestModule σ}
    (hloads : Loads loader basePath profile module)
    (hloads' : Loads loader' basePath' profile' module) {site site' : SiteRuntime}
    (hsite : site.profileId = profile.id) (hsites : site.toSite = site'.toSite)
    (serializer : Serializer) (order : HashOrder Str Str) (peers : Peers) :
    handleConnection process.engine serializer order site.toSite peers =
      handleConnection process'.engine serializer order site'.toSite peers := by
  obtain ⟨hmodule, hengine⟩ := engine_start h hprofile hloads
  obtain ⟨hmodule', hengine'⟩ := engine_start h' hprofile' hloads'
  rw [← hsites]
  refine handleConnection_congr (WafEngine.decide_congr ?_ ?_ serializer) order peers
  · rw [hsite, hmodule, hid, hmodule']
  · rw [hsite, hengine, hparams, hid, hengine']

end Start

/-! ### One site -/

/-- A file system with the rule engine of one rule as its only file. -/
def ruleLoader : Loader Unit where
  readFile path := if path = "conf/wasm/public.wasm".toList then some [] else none
  compile _ := some (twoPages.compile
    (Crs.Guest.decide compactJson (fun _ => none) (some Crs.noGet)))

theorem loads_ruleLoader : Loads ruleLoader "conf".toList
    ⟨"public".toList, "wasm/public.wasm".toList, .empty⟩
    (twoPages.compile
      (Crs.Guest.decide compactJson (fun _ => none) (some Crs.noGet))) :=
  ⟨[], rfl, rfl, _, rfl⟩

/-- `publicConfig` starts. -/
theorem exists_start_publicConfig : ∃ process site,
    start ruleLoader (fun _ => true) (publicConfig "http://127.0.0.1:9000".toList)
        "conf".toList = .ok process ∧
      site ∈ process.listening ∧ site.profileId = "public".toList :=
  ⟨_, _, rfl, List.mem_singleton_self _, rfl⟩

theorem engineOf_publicConfig : ∃ engine, EngineOf ruleLoader "conf".toList
    (publicConfig "http://127.0.0.1:9000".toList) engine := ⟨_, engineOf_fromConfig rfl rfl⟩

/-- No connection to the site of `publicConfig` fails for want of a module. -/
theorem serves_publicConfig : ∃ process site,
    start ruleLoader (fun _ => true) (publicConfig "http://127.0.0.1:9000".toList)
        "conf".toList = .ok process ∧
      site ∈ process.listening ∧
      ∀ e, (handleConnection process.engine .compact .stored site.toSite
          (openPeers postSocket)).result = .error (.decide e) →
        e.profileId = site.profileId ∧ e.cause.isStartup = false := by
  obtain ⟨process, site, hstart, hsite, -⟩ := exists_start_publicConfig
  exact ⟨process, site, hstart, hsite, start_serves hstart hsite .compact .stored _⟩

/-- Four is a number of JSON. -/
theorem four_lt : 4 < 2 ^ 64 := by decide

/-- `publicConfig`, behind a profile with the same module at another level and a site of it. -/
def twoProfiles : AppConfig where
  sites := [⟨"site-b".toList, "127.0.0.1:8081".toList, ⟨"http://127.0.0.1:9001".toList⟩,
    "strict".toList⟩] ++ (publicConfig "http://127.0.0.1:9000".toList).sites
  profiles := [⟨"strict".toList, "wasm/public.wasm".toList,
    HashMap.empty.insert "paranoia_level".toList (.number (.posInt 4 four_lt))⟩] ++
    (publicConfig "http://127.0.0.1:9000".toList).profiles

/-- What is added changes nothing for the site of `publicConfig`. -/
theorem isolates_twoProfiles : ∃ (process process' : Process Unit) (site site' : SiteRuntime),
    start ruleLoader (fun _ => true) (publicConfig "http://127.0.0.1:9000".toList)
        "conf".toList = .ok process ∧
      start ruleLoader (fun _ => true) twoProfiles "conf".toList = .ok process' ∧
      site ∈ process.listening ∧ site' ∈ process'.listening ∧
      ∀ serializer order peers,
        handleConnection process.engine serializer order site.toSite peers =
          handleConnection process'.engine serializer order site'.toSite peers := by
  have hstart : start ruleLoader (fun _ => true) (publicConfig "http://127.0.0.1:9000".toList)
    "conf".toList = .ok _ := rfl
  have hstart' : start ruleLoader (fun _ => true) twoProfiles "conf".toList = .ok _ := rfl
  have hprofile : _ ∈ twoProfiles.profiles := List.mem_append_right _ (List.mem_singleton_self _)
  exact ⟨_, _, _, _, hstart, hstart', List.mem_singleton_self _, .tail _ (.head _),
    start_isolates hstart hstart' (List.mem_singleton_self _) hprofile rfl rfl loads_ruleLoader
      loads_ruleLoader rfl rfl⟩

end Proxy

end Fywaf
