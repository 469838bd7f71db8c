/- source: config.rs (validate, validate_sealed_route, validate_federation, validate_discovery)
   digest: The configuration file as a whole, and the checks it has to pass. -/

import RelayFabric.Federation.Address
import RelayFabric.Lib.Check

namespace RelayFabric

open Lib

structure NodeConfig where
  name : String
  dataDir : String
  isPublic : Bool
  deriving DecidableEq, Repr

structure PluginConfig where
  enabled : Bool
  deriving DecidableEq, Repr

structure PublicService where
  name : String
  type : String
  ingress : List String
  egress : List String
  deriving DecidableEq, Repr

structure LimitsConfig extends Limits where
  casMaxBytes : Nat
  deriving DecidableEq, Repr

structure AlertConfig where
  endpoint : String
  events : List String
  deriving DecidableEq, Repr

structure PeerEntry extends PeerConfig where
  addr : String
  deriving DecidableEq, Repr

structure FederationBlock where
  listen : Option String
  acceptFrom : String
  maxHops : Nat
  maxTtlSecs : Nat
  identityExposure : String
  ingressRoutes : List String
  peers : List PeerEntry
  trusted : List String
  blocked : List String
  deriving DecidableEq, Repr

structure DiscoveryConfig where
  mode : String
  advertTtlSecs : Nat
  deriving DecidableEq, Repr

structure PrivacyConfig where
  minimumSecurity : String
  allowGatewayDecryption : Bool
  deriving DecidableEq, Repr

structure ConfigFile where
  node : NodeConfig
  plugins : List (String × PluginConfig)
  routes : List RouteConfig
  policies : List Policy
  ttlDefaultSecs : Nat
  dedupTtlSecs : Nat
  retentionSecs : Nat
  hopLimit : Nat
  maxAttachmentBytes : Nat
  publicServices : List PublicService
  limits : LimitsConfig
  transportBudgets : List (String × Nat)
  federation : Option FederationBlock
  discovery : DiscoveryConfig
  privacy : PrivacyConfig
  transports : List (String × TransportEntry)
  alerts : Option AlertConfig
  deriving DecidableEq, Repr

def FederationBlock.engine (fed : FederationBlock) : FederationConfig where
  acceptFrom := fed.acceptFrom
  maxHops := fed.maxHops
  maxTtlSecs := fed.maxTtlSecs
  identityExposure := fed.identityExposure
  ingressRoutes := fed.ingressRoutes
  peers := fed.peers.map PeerEntry.toPeerConfig
  trusted := fed.trusted
  blocked := fed.blocked

def ConfigFile.engine (cfg : ConfigFile) : Config where
  routes := cfg.routes
  policies := cfg.policies
  ttlDefaultSecs := cfg.ttlDefaultSecs
  dedupTtlSecs := cfg.dedupTtlSecs
  retentionSecs := cfg.retentionSecs
  hopLimit := cfg.hopLimit
  maxAttachmentBytes := cfg.maxAttachmentBytes
  limits := cfg.limits.toLimits
  transportBudgets := cfg.transportBudgets
  federation := cfg.federation.map FederationBlock.engine
  allowGatewayDecryption := cfg.privacy.allowGatewayDecryption
  transports := cfg.transports

/-- What the checks take from the standard library: address parsing and the quoted forms of a text
and a character. -/
structure Formats where
  parsesSocketAddr : String → Bool
  debugStr : String → String
  debugChar : Char → String
  loopback : parsesSocketAddr "127.0.0.1:7000" = true

def isComponentChar (c : Char) : Bool := c.isAlphanum || c == '_' || c == '-'

def isValidComponentName (name : String) : Bool :=
  !name.isEmpty && decide (name.utf8ByteSize ≤ 64) && name.toList.all isComponentChar

def isControl (c : Char) : Bool :=
  decide (c.toNat < 0x20) || decide (0x7F ≤ c.toNat ∧ c.toNat ≤ 0x9F)

/-- The bidi controls and default ignorables that can disguise a name. -/
def isDisplaySpoofing (c : Char) : Bool :=
  let n := c.toNat
  n == 0x061C || decide (0x200E ≤ n ∧ n ≤ 0x200F) || decide (0x202A ≤ n ∧ n ≤ 0x202E) ||
    decide (0x2066 ≤ n ∧ n ≤ 0x2069) || decide (0x200B ≤ n ∧ n ≤ 0x200D) || n == 0xFEFF ||
    n == 0x2060

def isUnsafeAdvertNameChar (c : Char) : Bool := isControl c || isDisplaySpoofing c

def isAbsolute (path : String) : Bool := path.toList.head? == some '/'

def joinPath (dir file : String) : String :=
  if isAbsolute file ∨ dir.isEmpty then file
  else if dir.toList.getLast? = some '/' then dir ++ file
  else dir ++ "/" ++ file

def socketPathMax : Nat := 103

def boundSocketPaths (cfg : ConfigFile) : List String :=
  joinPath cfg.node.dataDir "admin.sock" ::
    (cfg.plugins.filter (fun p => p.2.enabled)).map (fun p =>
      joinPath (joinPath cfg.node.dataDir "plugins.d") (p.1 ++ ".sock"))

def ConfigFile.plugin? (cfg : ConfigFile) (name : String) : Option PluginConfig :=
  cfg.plugins.lookup name

def requireEnabledPlugin (cfg : ConfigFile) (proto what hint : String) : Except String Unit :=
  match cfg.plugin? proto with
  | some p => ensure p.enabled s!"{what} references disabled plugin '{proto}'{hint}"
  | none => .error s!"{what} references unknown plugin '{proto}'{hint}"

def validatePaths (cfg : ConfigFile) : Except String Unit := do
  ensure (isAbsolute cfg.node.dataDir)
    s!"node.data_dir '{cfg.node.dataDir}' must be an absolute path"
  checkAll (fun path =>
    ensure (decide (path.utf8ByteSize ≤ socketPathMax))
      (s!"socket path '{path}' is {path.utf8ByteSize} bytes, over the {socketPathMax}-byte " ++
        "Unix-socket limit; shorten node.data_dir (a short absolute path like " ++
        "/var/lib/relayfabric or /run/relayfabric is recommended)")) (boundSocketPaths cfg)

def validatePublicLimits (cfg : ConfigFile) : Except String Unit :=
  let perSenderUnset := cfg.limits.messagesPerMinute == 0 && cfg.limits.bytesPerHour == 0
  let globalUnset := cfg.limits.globalQueueMax == 0 && cfg.limits.casMaxBytes == 0
  ensure (!(cfg.node.isPublic && perSenderUnset && globalUnset))
    ("node.public is true but limits are entirely unset (unlimited): a public node must configure " ++
      "at least one of limits.per_sender.\x7bmessages_per_minute,bytes_per_hour\x7d or " ++
      "limits.global.\x7bqueue_max,cas_max_bytes\x7d (SPEC §112.8)")

def validatePluginNames (F : Formats) (cfg : ConfigFile) : Except String Unit := do
  ensure (cfg.plugin? fedProtocol).isNone
    (s!"plugin name '{fedProtocol}' is reserved for federation (design §4/§5) and cannot be used " ++
      "as a plugin name")
  checkAll (fun p =>
    ensure (isValidComponentName p.1)
      ("plugin name " ++ F.debugStr p.1 ++ " is invalid (expected 1-64 chars of [A-Za-z0-9_-])"))
    cfg.plugins

def maxLifecycleSecs : Nat := 315360000

def validateLifecycle (cfg : ConfigFile) : Except String Unit := do
  ensure (cfg.hopLimit != 0) "hop_limit must be at least 1 (0 drops every message)"
  ensure (cfg.ttlDefaultSecs != 0)
    "ttl_default_secs must be at least 1 (0 expires every message on arrival)"
  ensure (cfg.dedupTtlSecs != 0) "dedup_ttl_secs must be at least 1 (0 leaves no dedup window)"
  ensure (cfg.retentionSecs != 0)
    "retention_secs must be at least 1 (0 would purge terminal deliveries immediately)"
  checkAll (fun (name, value) =>
    ensure (decide (value ≤ maxLifecycleSecs))
      s!"{name} {value} is above the maximum of {maxLifecycleSecs} (10 years)")
    [("ttl_default_secs", cfg.ttlDefaultSecs), ("dedup_ttl_secs", cfg.dedupTtlSecs),
      ("retention_secs", cfg.retentionSecs)]

def alertTarget (endpoint : String) : Option (String × String) :=
  (splitOnce ':' endpoint.toList).map (fun (plugin, ep) => (String.ofList plugin, String.ofList ep))

def validateAlerts (cfg : ConfigFile) : Except String Unit :=
  match cfg.alerts with
  | none => .ok ()
  | some a =>
    match alertTarget a.endpoint with
    | none => .error (s!"alerts.endpoint '{a.endpoint}' must be \"plugin:endpoint\" " ++
        "(e.g. \"lxmf:bridge\")")
    | some (plugin, ep) => do
      ensure (!(plugin.isEmpty || ep.isEmpty))
        s!"alerts.endpoint '{a.endpoint}' needs a non-empty plugin and endpoint"
      ensure ((cfg.plugin? plugin).any PluginConfig.enabled)
        (s!"alerts.endpoint names plugin '{plugin}', which is not a configured, enabled plugin")
      checkAll (fun e =>
        ensure (e == "plugin" || e == "federation")
          (s!"alerts.events entry '{e}' is invalid (expected \"plugin\" or \"federation\")"))
          a.events

def validateNodeName (F : Formats) (cfg : ConfigFile) : Except String Unit := do
  let nameLen := cfg.node.name.toList.length
  ensure (decide (nameLen ≤ 64))
    (s!"node.name is {nameLen} characters, over the 64-character limit (design §1: it is " ++
      "signed into this node's own RFDP advert)")
  match cfg.node.name.toList.find? isUnsafeAdvertNameChar with
  | none => .ok ()
  | some c => .error ("node.name contains an unsafe character (" ++ F.debugChar c ++
      ") -- no control characters, newlines, or Unicode bidi-control/default-ignorable spoofing " ++
      "codepoints allowed (design §1: it is signed into this node's own RFDP advert)")

def securityRank (mode : String) : Nat := if mode = "sealed" then 1 else 0

def validateSealedRoute (cfg : ConfigFile) (r : RouteConfig) : Except String Unit :=
  checkAll (fun ep => do
    ensure (ep.protocol == fedProtocol)
      (s!"route '{r.name}' has security_mode 'sealed' but destination '{ep.protocol}:{ep.endpoint}' " ++
        "is not a fed:<peer> destination (sealed routing requires every destination to be a " ++
        "federation peer this cycle -- a plaintext local plugin cannot be a sealed endpoint, " ++
        "design §3/§113.1)")
    match fedTarget ep.endpoint with
    | none => .ok ()
    | some (peerName, _) =>
      match cfg.engine.peer? peerName with
      | none => .ok ()
      | some peer =>
        ensure peer.sealedKey.isSome
          (s!"route '{r.name}' has security_mode 'sealed' to peer '{peerName}' which has no " ++
            "config-pinned sealed_key -- --check-config cannot see advert-learned keys at load " ++
            "time, so a sealed destination requires federation.peers[].sealed_key to be set for " ++
            "this peer (design §1/§113.2)")) r.destinations

def validateRoute (F : Formats) (cfg : ConfigFile) (seen : List RouteConfig) (r : RouteConfig) :
    Except String Unit := do
  ensure (r.name != identityRoute)
    (s!"route name '{identityRoute}' is reserved for identity-link delivery and cannot be used as " ++
      "a user route name")
  ensure (isValidComponentName r.name)
    ("route name " ++ F.debugStr r.name ++ " is invalid (expected 1-64 chars of [A-Za-z0-9_-])")
  ensure (!seen.any (fun s => s.name == r.name)) s!"duplicate route name '{r.name}'"
  ensure (r.identityMode == "pseudonymous" || r.identityMode == "linked")
    (s!"route '{r.name}' has invalid identity_mode '{r.identityMode}' " ++
      "(expected \"pseudonymous\" or \"linked\")")
  ensure (r.securityMode == "gateway" || r.securityMode == "sealed")
    (s!"route '{r.name}' has invalid security_mode '{r.securityMode}' (expected \"gateway\" or " ++
      "\"sealed\" -- \"native\" per SPEC §113.1 is an alias of \"gateway\" today, not a separate " ++
      "mode this cycle; use \"gateway\")")
  ensure (decide (securityRank cfg.privacy.minimumSecurity ≤ securityRank r.securityMode))
    (s!"route '{r.name}' has security_mode '{r.securityMode}' which is below the node's " ++
      s!"privacy.minimum_security floor '{cfg.privacy.minimumSecurity}' (design §113.2 downgrade " ++
      "refusal: a route may never load below the floor)")
  ensure (r.render.tag == "alias" || r.render.tag == "none")
    s!"route '{r.name}' has invalid render.tag '{r.render.tag}' (expected \"alias\" or \"none\")"
  ensure (r.render.maxChars == 0 || decide (16 ≤ r.render.maxChars))
    (s!"route '{r.name}' has render.max_chars {r.render.maxChars} which is below the minimum of 16 " ++
      "(0 disables route-level truncation)")
  ensure (!r.sources.any (fun ep => ep.protocol == fedProtocol))
    (s!"route '{r.name}' has a source with protocol '{fedProtocol}', which is reserved for " ++
      "federation and cannot be a route source (fed envelopes are injected into a route's fan-out " ++
      "directly, design §5 ingress)")
  checkAll (fun ep =>
    if ep.protocol = fedProtocol then .ok ()
    else requireEnabledPlugin cfg ep.protocol s!"route '{r.name}'" "") (r.sources ++ r.destinations)
  checkAll (fun ep =>
    if ep.protocol = fedProtocol then validateFedDestination cfg.engine r.name ep.endpoint
    else .ok ()) r.destinations
  if r.securityMode = "sealed" then validateSealedRoute cfg r else .ok ()

def validateRoutes (F : Formats) (cfg : ConfigFile) : Except String Unit :=
  checkInTurn (validateRoute F cfg) [] cfg.routes

def validatePolicies (cfg : ConfigFile) : Except String Unit :=
  checkAll (fun p =>
    match p.rules.attachments with
    | none => .ok ()
    | some v =>
      ensure (v == "allow" || v == "reject")
        (s!"policy '{p.name}' has invalid attachments value '{v}' " ++
          "(expected \"allow\" or \"reject\")")) cfg.policies

def validatePublicServices (cfg : ConfigFile) : Except String Unit :=
  checkAll (fun svc =>
    checkAll (fun proto =>
      requireEnabledPlugin cfg proto s!"public_services '{svc.name}'"
        "; enable the plugin or remove the entry") (svc.ingress ++ svc.egress)) cfg.publicServices

def requireCovered (covered : List String) (routeName direction list : String) (ep : Endpoint) :
    Except String Unit :=
  ensure (covered.contains ep.protocol)
    (s!"node.public is true but route '{routeName}' has {direction} protocol '{ep.protocol}' not " ++
      s!"covered by any public_services {list}; add '{ep.protocol}' to a public_services {list} list")

def validateCoverage (cfg : ConfigFile) : Except String Unit :=
  if cfg.node.isPublic then
    checkAll (fun r => do
      checkAll (requireCovered (cfg.publicServices.flatMap PublicService.ingress) r.name "source"
        "ingress") r.sources
      checkAll (requireCovered (cfg.publicServices.flatMap PublicService.egress) r.name
        "destination" "egress") r.destinations) cfg.routes
  else .ok ()

def validateBudgets (cfg : ConfigFile) : Except String Unit :=
  checkAll (fun (proto, messagesPerMinute) => do
    ensure (messagesPerMinute != 0)
      (s!"transport_budgets '{proto}' has messages_per_minute 0 which would block all egress; " ++
        "omit the entry instead")
    requireEnabledPlugin cfg proto s!"transport_budgets entry '{proto}'"
      "; enable the plugin or remove the entry") cfg.transportBudgets

def transportMaxPayloadBytesFloor : Nat := 64

def validateTransports (cfg : ConfigFile) : Except String Unit :=
  checkAll (fun (proto, entry) => do
    requireEnabledPlugin cfg proto s!"transports entry '{proto}'"
      "; enable the plugin or remove the entry"
    match entry.maxPayloadBytes with
    | none => .ok ()
    | some bytes =>
      ensure (decide (transportMaxPayloadBytesFloor ≤ bytes))
        (s!"transports entry '{proto}' has max_payload_bytes {bytes} which is below the " ++
          s!"minimum of {transportMaxPayloadBytesFloor} bytes")) cfg.transports

def validatePeerEntry (F : Formats) (seen : List PeerEntry) (p : PeerEntry) : Except String Unit :=
  validatePeer (ensure (F.parsesSocketAddr p.addr)
    s!"federation peer '{p.name}' has invalid addr '{p.addr}' (expected host:port)")
    (seen.map PeerEntry.toPeerConfig) p.toPeerConfig

def validateListen (F : Formats) : Option String → Except String Unit
  | none => .ok ()
  | some listen =>
    ensure (F.parsesSocketAddr listen)
      s!"federation.listen '{listen}' is not a valid address (expected host:port)"

def validateFederation (F : Formats) (cfg : ConfigFile) : Except String Unit :=
  match cfg.federation with
  | none => .ok ()
  | some fed => do
    ensure (fed.acceptFrom == "verified" || fed.acceptFrom == "trusted")
      (s!"federation.accept_from '{fed.acceptFrom}' is invalid " ++
        "(expected \"verified\" or \"trusted\")")
    ensure (fed.maxHops != 0)
      "federation.max_hops must be at least 1 (0 dead-letters all federated traffic)"
    ensure (fed.maxTtlSecs != 0)
      "federation.max_ttl_secs must be at least 1 (0 defeats the replay/amplification bound)"
    ensure (decide (fed.maxTtlSecs ≤ maxLifecycleSecs))
      (s!"federation.max_ttl_secs {fed.maxTtlSecs} is above the maximum of {maxLifecycleSecs} " ++
        "(10 years)")
    ensure (fed.identityExposure == "pseudonymous" || fed.identityExposure == "full")
      (s!"federation.identity_exposure '{fed.identityExposure}' is invalid " ++
        "(expected \"pseudonymous\" or \"full\")")
    validateListen F fed.listen
    checkAll (fun name =>
      ensure (cfg.routes.any (fun r => r.name == name))
        s!"federation.ingress_routes names unknown route '{name}'") fed.ingressRoutes
    checkInTurn (validatePeerEntry F) [] fed.peers
    checkAll (fun nodeId => do
      ensure (isValidRfNodeId nodeId)
        s!"federation node_id '{nodeId}' is invalid (expected \"rf:\" + 64 hex chars)"
      ensure (isLowercaseRfNodeId nodeId)
        (s!"federation node_id '{nodeId}' has uppercase hex; node ids are compared byte-for-byte " ++
          "against the lowercase form a peer presents, so lowercase it"))
      (fed.trusted ++ fed.blocked)

def validateDiscovery (cfg : ConfigFile) : Except String Unit := do
  let d := cfg.discovery
  ensure (d.mode != "local")
    ("discovery.mode 'local' is reserved for a future cycle (no LAN transport exists yet); use " ++
      "\"disabled\", \"federation\", or \"public\"")
  ensure (d.mode == "disabled" || d.mode == "federation" || d.mode == "public")
    (s!"discovery.mode '{d.mode}' is invalid (expected \"disabled\", \"federation\", or \"public\")")
  ensure (decide (300 ≤ d.advertTtlSecs))
    s!"discovery.advert_ttl_secs {d.advertTtlSecs} is below the minimum of 300"
  ensure (decide (d.advertTtlSecs ≤ 86400))
    (s!"discovery.advert_ttl_secs {d.advertTtlSecs} is above the maximum of 86400 (24h -- matches " ++
      "the receive-side far-future clamp)")
  ensure (!(d.mode == "public" && !cfg.node.isPublic))
    "discovery.mode 'public' requires node.public: true (§112.2 pairing)"

def validatePrivacy (cfg : ConfigFile) : Except String Unit :=
  ensure (cfg.privacy.minimumSecurity == "gateway" || cfg.privacy.minimumSecurity == "sealed")
    (s!"privacy.minimum_security '{cfg.privacy.minimumSecurity}' is invalid " ++
      "(expected \"gateway\" or \"sealed\")")

def validate (F : Formats) (cfg : ConfigFile) : Except String Unit := do
  validatePaths cfg
  validatePublicLimits cfg
  validatePluginNames F cfg
  validateLifecycle cfg
  validateAlerts cfg
  validateNodeName F cfg
  validateRoutes F cfg
  validatePolicies cfg
  validatePublicServices cfg
  validateCoverage cfg
  validateBudgets cfg
  validateTransports cfg
  validateFederation F cfg
  validateDiscovery cfg
  validatePrivacy cfg

structure ConfigFile.Accepted (F : Formats) (cfg : ConfigFile) : Prop where
  paths : validatePaths cfg = .ok ()
  publicLimits : validatePublicLimits cfg = .ok ()
  pluginNames : validatePluginNames F cfg = .ok ()
  lifecycle : validateLifecycle cfg = .ok ()
  alerts : validateAlerts cfg = .ok ()
  nodeName : validateNodeName F cfg = .ok ()
  routes : validateRoutes F cfg = .ok ()
  policies : validatePolicies cfg = .ok ()
  publicServices : validatePublicServices cfg = .ok ()
  coverage : validateCoverage cfg = .ok ()
  budgets : validateBudgets cfg = .ok ()
  transports : validateTransports cfg = .ok ()
  federation : validateFederation F cfg = .ok ()
  discovery : validateDiscovery cfg = .ok ()
  privacy : validatePrivacy cfg = .ok ()

theorem validate_ok {F : Formats} {cfg : ConfigFile} :
    validate F cfg = .ok () ↔ cfg.Accepted F := by
  unfold validate
  simp only [seq_ok]
  constructor
  · intro ⟨h1, h2, h3, h4, h5, h6, h7, h8, h9, h10, h11, h12, h13, h14, h15⟩
    exact ⟨h1, h2, h3, h4, h5, h6, h7, h8, h9, h10, h11, h12, h13, h14, h15⟩
  · intro ⟨h1, h2, h3, h4, h5, h6, h7, h8, h9, h10, h11, h12, h13, h14, h15⟩
    exact ⟨h1, h2, h3, h4, h5, h6, h7, h8, h9, h10, h11, h12, h13, h14, h15⟩

end RelayFabric
