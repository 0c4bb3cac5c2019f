import Fywaf.Crs.Tightening
import Fywaf.Crs.FullWidth
import Fywaf.Crs.Urlencoded
import Fywaf.Crs.SkipTargets
import Fywaf.Crs.Exclusion
import Fywaf.Crs.PhraseFiles
import Fywaf.Crs.Unevaluable
import Fywaf.Crs.Chains
import Fywaf.Crs.RequestRoundtrip
import Fywaf.Crs.Plain
import Fywaf.Crs.PercentSpellings
import Fywaf.Crs.EntitySpellings
import Fywaf.Crs.JsSpellings
import Fywaf.Crs.CssSpellings
import Fywaf.Crs.Numeric
import Fywaf.Crs.NoPanic
import Fywaf.Crs.RegexCache
import Fywaf.Crs.VariableSets
import Fywaf.Crs.JsSplit
import Fywaf.Crs.Indexed
import Fywaf.Crs.ChainScore
import Fywaf.Crs.Dispatch
import Fywaf.Crs.HeaderCase
import Fywaf.Crs.QuotedActions
import Fywaf.Crs.OperatorArgument
import Fywaf.Crs.Layout
import Fywaf.Crs.TxVariables
import Fywaf.Crs.Tokens
import Fywaf.Crs.QuoteScans
import Fywaf.Wasm.AccessSpec
import Fywaf.Proxy.Chunked
import Fywaf.Proxy.Injection
import Fywaf.Proxy.Inspected
import Fywaf.Proxy.EndToEnd
import Fywaf.Proxy.Rewriting
import Fywaf.Proxy.Config
import Fywaf.Proxy.Startup
import Fywaf.Proxy.Hops
import Fywaf.Public.Guest
import Fywaf.Crs.PrintedRules
import Fywaf.Crs.Kept
import Fywaf.Crs.Hardening
import Fywaf.Crs.RuleFiles
import Fywaf.Crs.Spacing
import Fywaf.Crs.Separated
import Fywaf.Proxy.Carried
import Fywaf.Proxy.Answers
import Fywaf.Proxy.Bounded
