/- source: config.rs, routes.rs, policy.rs, queue.rs
   digest: The configuration the engine reads, routing, policy decisions and the retry schedule. -/

import RelayFabric.Core

namespace RelayFabric

def identityRoute : String := "@identity"

def fedProtocol : String := "fed"

structure RenderConfig where
  tag : String
  maxChars : Nat
  deriving DecidableEq, Repr

structure RouteConfig where
  name : String
  sources : List Endpoint
  destinations : List Endpoint
  identityMode : String
  render : RenderConfig
  securityMode : String
  allowGatewayDecryption : Option Bool
  deriving DecidableEq, Repr

structure PolicyRules where
  maxPayload : Option Nat
  dropKinds : List String
  deny : Bool
  attachments : Option String
  maxAttachmentBytes : Option Nat
  deriving DecidableEq, Repr

/-- A policy applies to the listed destination protocols, or to all when none is listed. -/
structure Policy where
  name : String
  destinationProtocol : List String
  rules : PolicyRules
  deriving DecidableEq, Repr

structure Limits where
  messagesPerMinute : Nat
  bytesPerHour : Nat
  routeQueueMax : Nat
  globalQueueMax : Nat
  deriving DecidableEq, Repr

structure PeerConfig where
  name : String
  nodeId : String
  trust : String
  messagesPerMinute : Nat
  sealedKey : Option String
  deriving DecidableEq, Repr

structure FederationConfig where
  acceptFrom : String
  maxHops : Nat
  maxTtlSecs : Nat
  identityExposure : String
  ingressRoutes : List String
  peers : List PeerConfig
  trusted : List String
  blocked : List String
  deriving DecidableEq, Repr

structure TransportEntry where
  transportClass : TransportClass
  maxPayloadBytes : Option Nat
  allowImages : Option Bool
  allowVideo : Option Bool
  compress : Option Bool
  batchTelemetry : Option Bool
  deriving DecidableEq, Repr

structure Config where
  routes : List RouteConfig
  policies : List Policy
  ttlDefaultSecs : Nat
  dedupTtlSecs : Nat
  retentionSecs : Nat
  hopLimit : Nat
  maxAttachmentBytes : Nat
  limits : Limits
  transportBudgets : List (String × Nat)
  federation : Option FederationConfig
  allowGatewayDecryption : Bool
  transports : List (String × TransportEntry)
  deriving DecidableEq, Repr

def Config.routeCfg (cfg : Config) (name : String) : Option RouteConfig :=
  cfg.routes.find? (fun r => r.name == name)

def effectiveAllowGatewayDecryption (cfg : Config) (route : RouteConfig) : Bool :=
  route.allowGatewayDecryption.getD cfg.allowGatewayDecryption

def defaultTransportClassFor (plugin : String) : TransportClass :=
  if plugin = "meshtastic" then .meshtastic
  else if plugin = "meshcore" then .meshCore
  else if plugin = "lxmf" then .reticulum
  else .terrestrialInternet

def Config.transportPolicy (cfg : Config) (plugin : String) : TransportPolicy :=
  match cfg.transports.lookup plugin with
  | none => TransportPolicy.forClass (defaultTransportClassFor plugin)
  | some entry =>
    let base := TransportPolicy.forClass entry.transportClass
    { maxPayloadBytes := entry.maxPayloadBytes.getD base.maxPayloadBytes
      allowImages := entry.allowImages.getD base.allowImages
      allowVideo := entry.allowVideo.getD base.allowVideo
      compress := entry.compress.getD base.compress
      batchTelemetry := entry.batchTelemetry.getD base.batchTelemetry }

def Config.transportBudget (cfg : Config) (plugin : String) : Nat :=
  (cfg.transportBudgets.lookup plugin).getD 0

def Config.peer? (cfg : Config) (name : String) : Option PeerConfig :=
  cfg.federation.bind (fun fed => fed.peers.find? (fun p => p.name == name))

def route (routes : List RouteConfig) (source : Endpoint) : List (String × Endpoint) :=
  routes.flatMap (fun r =>
    if source ∈ r.sources then
      (r.destinations.filter (fun dest => dest ≠ source)).map (fun dest => (r.name, dest))
    else [])

inductive Decision
  | allow (maxPayload : Option Nat) (attachmentsAllowed : Bool) (maxAttachmentBytes : Option Nat)
  | deny (policy : String)
  deriving DecidableEq, Repr

def tighten (current limit : Option Nat) : Option Nat :=
  match limit with
  | none => current
  | some l => some (current.elim l (fun c => min c l))

def evaluateFrom (env : Envelope) (dest : Endpoint) :
    List Policy → Option Nat → Bool → Option Nat → Decision
  | [], maxPayload, attachmentsAllowed, maxAttachmentBytes =>
    .allow maxPayload attachmentsAllowed maxAttachmentBytes
  | p :: rest, maxPayload, attachmentsAllowed, maxAttachmentBytes =>
    if p.destinationProtocol ≠ [] ∧ dest.protocol ∉ p.destinationProtocol then
      evaluateFrom env dest rest maxPayload attachmentsAllowed maxAttachmentBytes
    else if p.rules.deny ∨ env.kind ∈ p.rules.dropKinds then .deny p.name
    else
      evaluateFrom env dest rest (tighten maxPayload p.rules.maxPayload)
        (attachmentsAllowed && p.rules.attachments != some "reject")
        (tighten maxAttachmentBytes p.rules.maxAttachmentBytes)

def evaluate (policies : List Policy) (env : Envelope) (dest : Endpoint) : Decision :=
  evaluateFrom env dest policies none true none

def maxAttempts : Nat := 8

def backoff (attempt : Nat) : Int :=
  match attempt with
  | 0 | 1 => seconds 5
  | 2 => seconds 30
  | 3 => seconds 120
  | 4 => seconds 600
  | _ => seconds 3600

theorem five_seconds_le_backoff (attempt : Nat) : seconds 5 ≤ backoff attempt := by
  unfold backoff
  split <;> decide

end RelayFabric
