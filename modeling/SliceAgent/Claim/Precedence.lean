import SliceAgent.Claim.Basic
import SliceAgent.NpuConfig
import SliceAgent.Template.Basic

/-!
Which configuration a request gets. The configurations of a claim stand in order of precedence, the
highest last; the first applies to every request, so that there is always one.
-/
namespace SliceAgent

inductive ConfigSources where
  | classOnly
  | classAndClaim
deriving DecidableEq, Repr

def ConfigSources.cases : List (String × ConfigSources) :=
  [("class-only", classOnly), ("class-and-claim", classAndClaim)]

def ConfigSources.name : ConfigSources → String
  | classOnly => "class-only"
  | classAndClaim => "class-and-claim"

def ConfigSources.decode : Decoder ConfigSources := Decoder.variant cases

/-- A configuration in the order of precedence; `key` is its place there. -/
structure RankedConfig where
  key : Nat
  requests : List String
  config : NpuConfig
deriving DecidableEq, Repr

def RankedConfig.appliesTo (c : RankedConfig) (request : String) : Bool :=
  c.requests.isEmpty || c.requests.contains request

inductive PrecedenceError where
  | unknownSource (source : String)
  /-- A configuration without parameters for any driver. -/
  | noParameters
  | undecodable (e : ConfigError)

def PrecedenceError.message : PrecedenceError → String
  | unknownSource source => "invalid config source: " ++ source
  | noParameters => "only opaque parameters are supported"
  | undecodable e => "error decoding config parameters: " ++ e.message

namespace ConfigEntry

def fromClass : String := "FromClass"

def fromClaim : String := "FromClaim"

def checkSources : List ConfigEntry → Except PrecedenceError Unit
  | [] => .ok ()
  | c :: cs =>
    if c.source = fromClass ∨ c.source = fromClaim then checkSources cs
    else .error (.unknownSource c.source)

/-- The entries that count, lowest precedence first. -/
def candidates (sources : ConfigSources) (cs : List ConfigEntry) : List ConfigEntry :=
  let ofClass := cs.filter (·.source = fromClass)
  match sources with
  | .classOnly => ofClass
  | .classAndClaim => ofClass ++ cs.filter (·.source = fromClaim)

/-- Decodes what is addressed to a driver, counting places from `key`. -/
def rank (driver : String) : Nat → List ConfigEntry → Except PrecedenceError (List RankedConfig)
  | _, [] => .ok []
  | key, c :: cs =>
    match c.parameters with
    | none => .error .noParameters
    | some p =>
      if p.driver ≠ driver then rank driver key cs
      else
        match NpuConfig.ofRaw p.parameters.json with
        | .error e => .error (.undecodable e)
        | .ok config =>
          match rank driver (key + 1) cs with
          | .error e => .error e
          | .ok ranked => .ok (⟨key, c.requests, config⟩ :: ranked)

end ConfigEntry

/-- The configurations for a driver, in order of precedence. -/
def resolveConfigs (driver : String) (sources : ConfigSources) (entries : List ConfigEntry) :
    Except PrecedenceError (List RankedConfig) :=
  match ConfigEntry.checkSources entries with
  | .error e => .error e
  | .ok () =>
    match ConfigEntry.rank driver 1 (ConfigEntry.candidates sources entries) with
    | .error e => .error e
    | .ok ranked => .ok (⟨0, [], .standard⟩ :: ranked)

/-- The configuration of the highest precedence that applies to a request. -/
def applicableConfig? (configs : List RankedConfig) (request : String) : Option RankedConfig :=
  configs.reverse.find? (·.appliesTo request)

/-- The template for a request: that of the highest configuration that applies to it and names one in
the catalog. -/
def requestedTemplate? (configs : List RankedConfig) (request : String) (catalog : Catalog) :
    Option Template :=
  (configs.reverse.filter (·.appliesTo request)).findSome? fun c =>
    c.config.templateName.bind catalog.find?

end SliceAgent
