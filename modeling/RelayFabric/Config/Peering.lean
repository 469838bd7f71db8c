/- source: config.rs (validate, validate_fed_destination), engine.rs (process_due_fed, fed_ingress)
   digest: Two agreements between the configurations of federated nodes. -/

import RelayFabric.Config.Validate
import RelayFabric.Wire.Frame

namespace RelayFabric

open List Lib

variable {F : Formats}

def ConfigFile.Enables (cfg : ConfigFile) (proto : String) : Prop :=
  ∃ p, cfg.plugin? proto = some p ∧ p.enabled = true

variable {cfg : ConfigFile} {r : String}

theorem requireEnabledPlugin_ok {proto what hint : String} :
    requireEnabledPlugin cfg proto what hint = .ok () ↔ cfg.Enables proto := by
  unfold requireEnabledPlugin ConfigFile.Enables
  cases cfg.plugin? proto with
  | none => simp
  | some p => simp

structure RouteConfig.Connected (cfg : ConfigFile) (r : RouteConfig) : Prop where
  sources : ∀ ep ∈ r.sources, ep.protocol ≠ fedProtocol
  plugins : ∀ ep ∈ r.sources ++ r.destinations, ep.protocol ≠ fedProtocol → cfg.Enables ep.protocol
  peers : ∀ ep ∈ r.destinations, ep.protocol = fedProtocol →
    validateFedDestination cfg.engine r.name ep.endpoint = .ok ()

theorem validateRoute_connected {seen : List RouteConfig} {r : RouteConfig}
    (passed : validateRoute F cfg seen r = .ok ()) : r.Connected cfg := by
  unfold validateRoute at passed
  simp only [seq_ok, checkAll_ok, ensure_ok] at passed
  obtain ⟨-, -, -, -, -, -, -, -, unfed, enabled, reachable, -⟩ := passed
  refine ⟨fun ep member fed => ?_, fun ep member local_ => ?_, fun ep member fed => ?_⟩
  · have none : ∀ ep ∈ r.sources, ep.protocol ≠ fedProtocol := by simpa using unfed
    exact none ep member fed
  · have passed := enabled ep member
    rw [if_neg local_] at passed
    exact requireEnabledPlugin_ok.mp passed
  · have passed := reachable ep member
    rw [if_pos fed] at passed
    exact passed

theorem ConfigFile.Accepted.connected (accepted : cfg.Accepted F) :
    ∀ r ∈ cfg.routes, r.Connected cfg := by
  intro r member
  obtain ⟨before, passed⟩ := checkInTurn_ok accepted.routes r member
  exact validateRoute_connected passed

theorem ConfigFile.Accepted.fed_unplugged (accepted : cfg.Accepted F) :
    ¬cfg.Enables fedProtocol := by
  intro ⟨p, found, _⟩
  have reserved := (seq_ok.mp accepted.pluginNames).1
  rw [ensure_ok, found] at reserved
  cases reserved

def ConfigFile.madePublic (cfg : ConfigFile) (services : List PublicService)
    (limits : LimitsConfig) : ConfigFile :=
  { cfg with
    node := { cfg.node with isPublic := true }
    publicServices := services
    limits := limits }

theorem ConfigFile.Accepted.covered (accepted : cfg.Accepted F)
    (isPublic : cfg.node.isPublic = true) :
    ∀ r ∈ cfg.routes, ∀ ep ∈ r.destinations, cfg.Enables ep.protocol := by
  intro r member ep listed
  have coverage := accepted.coverage
  unfold validateCoverage at coverage
  rw [if_pos isPublic, checkAll_ok] at coverage
  have egress := checkAll_ok.mp (seq_ok.mp (coverage r member)).2 ep listed
  unfold requireCovered at egress
  rw [ensure_ok, contains_iff_mem, mem_flatMap] at egress
  obtain ⟨svc, offered, named⟩ := egress
  have services := checkAll_ok.mp (checkAll_ok.mp accepted.publicServices svc offered) ep.protocol
    (mem_append_right _ named)
  exact requireEnabledPlugin_ok.mp services

def ConfigFile.everyProtocol (cfg : ConfigFile) : PublicService where
  name := "all"
  type := "bridge"
  ingress := cfg.routes.flatMap (fun r => r.sources.map Endpoint.protocol)
  egress := cfg.routes.flatMap (fun r => r.destinations.map Endpoint.protocol)

def LimitsConfig.slow : LimitsConfig := ⟨⟨1, 0, 0, 0⟩, 0⟩

theorem mem_protocols (side : RouteConfig → List Endpoint) {routes : List RouteConfig}
    {r : RouteConfig} (member : r ∈ routes) {ep : Endpoint} (listed : ep ∈ side r) :
    ep.protocol ∈ routes.flatMap (fun r => (side r).map Endpoint.protocol) :=
  mem_flatMap.mpr ⟨r, member, mem_map.mpr ⟨ep, listed, rfl⟩⟩

theorem ConfigFile.Accepted.madePublic (accepted : cfg.Accepted F)
    (unfed : ∀ r ∈ cfg.routes, ∀ ep ∈ r.destinations, ep.protocol ≠ fedProtocol) :
    (cfg.madePublic [cfg.everyProtocol] .slow).Accepted F where
  paths := accepted.paths
  publicLimits := by simp [validatePublicLimits, ConfigFile.madePublic, LimitsConfig.slow]
  pluginNames := accepted.pluginNames
  lifecycle := accepted.lifecycle
  alerts := accepted.alerts
  nodeName := accepted.nodeName
  routes := accepted.routes
  policies := accepted.policies
  publicServices := by
    unfold validatePublicServices
    rw [checkAll_ok]
    intro svc only
    obtain rfl := mem_singleton.mp only
    rw [checkAll_ok]
    intro proto named
    rw [requireEnabledPlugin_ok]
    have endpoint : ∃ r ∈ cfg.routes, ∃ ep ∈ r.sources ++ r.destinations,
        ep.protocol = proto ∧ ep.protocol ≠ fedProtocol := by
      rcases mem_append.mp named with source | dest
      · obtain ⟨r, member, mapped⟩ := mem_flatMap.mp source
        obtain ⟨ep, listed, same⟩ := mem_map.mp mapped
        exact ⟨r, member, ep, mem_append_left _ listed, same,
          (accepted.connected r member).sources ep listed⟩
      · obtain ⟨r, member, mapped⟩ := mem_flatMap.mp dest
        obtain ⟨ep, listed, same⟩ := mem_map.mp mapped
        exact ⟨r, member, ep, mem_append_right _ listed, same, unfed r member ep listed⟩
    obtain ⟨r, member, ep, listed, rfl, plain⟩ := endpoint
    exact (accepted.connected r member).plugins ep listed plain
  coverage := by
    have shown : (cfg.madePublic [cfg.everyProtocol] .slow).node.isPublic = true := rfl
    unfold validateCoverage
    rw [if_pos shown, checkAll_ok]
    intro r member
    rw [seq_ok, checkAll_ok, checkAll_ok]
    constructor
    · intro ep listed
      unfold requireCovered
      have covered := mem_protocols RouteConfig.sources member listed
      simpa [ConfigFile.madePublic, ConfigFile.everyProtocol] using covered
    · intro ep listed
      unfold requireCovered
      have covered := mem_protocols RouteConfig.destinations member listed
      simpa [ConfigFile.madePublic, ConfigFile.everyProtocol] using covered
  budgets := accepted.budgets
  transports := accepted.transports
  federation := accepted.federation
  discovery := by
    have passed := accepted.discovery
    unfold validateDiscovery at passed ⊢
    simp only [seq_ok, ensure_ok] at passed ⊢
    obtain ⟨reserved, mode, low, high, -⟩ := passed
    exact ⟨reserved, mode, low, high, by simp [ConfigFile.madePublic]⟩
  privacy := accepted.privacy

/-- A node can be made public exactly when none of its routes has a federated destination: the
coverage rule asks for the protocol `fed` in a service, and the service rule for a plugin of that
reserved name. -/
theorem public_variant_accepted_iff (F : Formats) (cfg : ConfigFile)
    (accepted : validate F cfg = .ok ()) :
    (∃ services limits, validate F (cfg.madePublic services limits) = .ok ()) ↔
      ∀ r ∈ cfg.routes, ∀ ep ∈ r.destinations, ep.protocol ≠ fedProtocol := by
  constructor
  · rintro ⟨services, limits, passed⟩ r member ep listed fed
    have shown := validate_ok.mp passed
    refine shown.fed_unplugged ?_
    rw [← fed]
    exact shown.covered rfl r member ep listed
  · intro unfed
    refine ⟨[cfg.everyProtocol], .slow, validate_ok.mpr ?_⟩
    exact (validate_ok.mp accepted).madePublic unfed

def Formats.plain : Formats where
  parsesSocketAddr addr := addr == "127.0.0.1:7000"
  debugStr := id
  debugChar c := c.toString
  loopback := by decide

def ConfigFile.hosting (routeName : String) : ConfigFile where
  node := ⟨"hall", "/var/lib/relayfabric", false⟩
  plugins := [("lxmf", ⟨true⟩)]
  routes := [⟨routeName, [⟨"lxmf", "lobby"⟩], [⟨"lxmf", "bridge"⟩], "pseudonymous", ⟨"alias", 0⟩,
    "gateway", none⟩]
  policies := []
  ttlDefaultSecs := 86400
  dedupTtlSecs := 86400
  retentionSecs := 86400
  hopLimit := 8
  maxAttachmentBytes := 8388608
  publicServices := []
  limits := ⟨⟨0, 0, 0, 0⟩, 0⟩
  transportBudgets := []
  federation := some ⟨some "127.0.0.1:7000", "verified", 4, 86400, "pseudonymous", [routeName],
    [], [], []⟩
  discovery := ⟨"disabled", 3600⟩
  privacy := ⟨"gateway", true⟩
  transports := []
  alerts := none

/-- A node that only hosts a route can be made public. -/
theorem public_variant_accepted_iff_hosting :
    validate .plain (.hosting "town-hall") = .ok () ∧
      ∃ services limits,
        validate .plain ((ConfigFile.hosting "town-hall").madePublic services limits) = .ok () := by
  have accepted : validate .plain (.hosting "town-hall") = .ok () := by decide +kernel
  exact ⟨accepted, (public_variant_accepted_iff .plain (.hosting "town-hall") accepted).mpr
    (by decide)⟩

def hubNodeId : String := String.ofList ('r' :: 'f' :: ':' :: List.replicate 64 'a')

def RouteConfig.feeding (remoteRoute : String) : RouteConfig where
  name := "out"
  sources := [⟨"lxmf", "bridge"⟩]
  destinations := [⟨fedProtocol, "hub" ++ "/" ++ remoteRoute⟩]
  identityMode := "pseudonymous"
  render := ⟨"alias", 0⟩
  securityMode := "gateway"
  allowGatewayDecryption := none

def ConfigFile.feeding (remoteRoute : String) : ConfigFile where
  node := ⟨"edge", "/var/lib/relayfabric", false⟩
  plugins := [("lxmf", ⟨true⟩)]
  routes := [.feeding remoteRoute]
  policies := []
  ttlDefaultSecs := 86400
  dedupTtlSecs := 86400
  retentionSecs := 86400
  hopLimit := 8
  maxAttachmentBytes := 8388608
  publicServices := []
  limits := ⟨⟨0, 0, 0, 0⟩, 0⟩
  transportBudgets := []
  federation := some ⟨none, "verified", 4, 86400, "pseudonymous", [],
    [⟨⟨"hub", hubNodeId, "verified", 0, none⟩, "127.0.0.1:7000"⟩], [], []⟩
  discovery := ⟨"disabled", 3600⟩
  privacy := ⟨"gateway", true⟩
  transports := []
  alerts := none

theorem fedTarget_append {peer route : String} (absent : '/' ∉ peer.toList) :
    fedTarget (peer ++ "/" ++ route) = some (peer, route) := by
  unfold fedTarget
  have letters : (peer ++ "/" ++ route).toList = peer.toList ++ '/' :: route.toList := by simp
  rw [letters, splitOnce_append absent, Option.map_some]
  simp

theorem validateFedDestination_feeding (valid : isValidPeerName r = true) :
    validateFedDestination (ConfigFile.feeding r).engine "out" ("hub" ++ "/" ++ r) = .ok () := by
  have target : fedTarget ("hub" ++ "/" ++ r) = some ("hub", r) := fedTarget_append (by decide)
  unfold validateFedDestination ConfigFile.engine ConfigFile.feeding
  rw [target]
  simp [FederationBlock.engine, valid]

theorem ConfigFile.accepted_feeding (valid : isValidPeerName r = true) :
    (ConfigFile.feeding r).Accepted F where
  paths := by
    unfold validatePaths
    rw [seq_ok, ensure_ok, checkAll_ok]
    refine ⟨(by decide : isAbsolute "/var/lib/relayfabric" = true), ?_⟩
    change ∀ path ∈ [joinPath "/var/lib/relayfabric" "admin.sock",
      joinPath (joinPath "/var/lib/relayfabric" "plugins.d") ("lxmf" ++ ".sock")], _
    decide +kernel
  publicLimits := rfl
  pluginNames := rfl
  lifecycle := rfl
  alerts := rfl
  nodeName := by
    have clean : "edge".toList.find? isUnsafeAdvertNameChar = none := by decide
    unfold validateNodeName ConfigFile.feeding
    dsimp only
    rfl
  routes := by
    change (do validateRoute F (ConfigFile.feeding r) [] _; .ok ()) = _
    rw [seq_ok]
    refine ⟨?_, rfl⟩
    unfold validateRoute
    simp only [seq_ok, ensure_ok, checkAll_ok]
    refine ⟨rfl, (by decide : isValidComponentName "out" = true), rfl, rfl, rfl, rfl, rfl, rfl, rfl,
      ?_, ?_, rfl⟩
    · intro ep member
      rcases mem_append.mp member with source | dest
      · obtain rfl := mem_singleton.mp source
        rfl
      · obtain rfl := mem_singleton.mp dest
        rfl
    · intro ep member
      obtain rfl := mem_singleton.mp member
      exact validateFedDestination_feeding valid
  policies := rfl
  publicServices := rfl
  coverage := rfl
  budgets := rfl
  transports := rfl
  federation := by
    have peers : checkInTurn (validatePeerEntry F) []
        [⟨⟨"hub", hubNodeId, "verified", 0, none⟩, "127.0.0.1:7000"⟩] = .ok () := by
      unfold checkInTurn
      rw [seq_ok]
      refine ⟨?_, rfl⟩
      unfold validatePeerEntry validatePeer
      simp only [seq_ok, ensure_ok]
      exact ⟨by decide, rfl, by decide, by decide, F.loopback, rfl, trivial⟩
    unfold validateFederation ConfigFile.feeding
    simp only [seq_ok, ensure_ok, checkAll_ok]
    exact ⟨rfl, rfl, rfl, rfl, rfl, rfl, by simp, peers, by simp⟩
  discovery := rfl
  privacy := rfl

/-- No services and limits make such a node public. -/
theorem federated_node_stays_private :
    validate .plain (.feeding "main") = .ok () ∧ (ConfigFile.feeding "main").node.isPublic = false ∧
      (∃ r ∈ (ConfigFile.feeding "main").routes, ∃ ep ∈ r.destinations, ep.protocol = fedProtocol) ∧
      ¬∃ services limits, validate .plain ((ConfigFile.feeding "main").madePublic services limits) =
        .ok () := by
  refine ⟨validate_ok.mpr (ConfigFile.accepted_feeding (by decide)), rfl, by decide, ?_⟩
  rintro ⟨services, limits, passed⟩
  have shown := validate_ok.mp passed
  exact shown.fed_unplugged (shown.covered rfl (.feeding "main") (mem_singleton.mpr rfl) _
    (mem_singleton.mpr rfl))

def Daemon.feeding (remoteRoute : String) : Daemon :=
  { Daemon.new (ConfigFile.feeding remoteRoute).engine (Store.empty.insertMessage (.hello ⟨7⟩))
      ⟨Map.empty, 0, 0⟩ ⟨0, 0⟩ 0 (fun _ => 0) with
    conns := some (Map.empty.insert "hub" ⟨1, hubNodeId⟩)
    fedChannels := Map.empty.insert 1 ⟨[], 64, false⟩ }

def Delivery.feeding (remoteRoute : String) : Delivery where
  id := 1
  messageId := ⟨7⟩
  route := "out"
  destination := ⟨fedProtocol, "hub" ++ "/" ++ remoteRoute⟩
  priority := 2
  attemptCount := 0
  state := .pending
  reason := none
  nextAttempt := 0
  attemptedAt := none
  expiresAt := seconds 3600
  createdAt := 0
  updatedAt := 0

theorem clearway_feeding (r : String) :
    Clearway (.feeding r) (.feeding r) 0 (.hello ⟨7⟩) "hub" r ⟨1, hubNodeId⟩ (.feeding r) where
  message := rfl
  live := by decide
  left := (by decide : 0 < maxAttempts)
  relayed := (by decide : "out" ≠ identityRoute)
  permitted := ⟨_, _, _, rfl⟩
  remote := rfl
  target := fedTarget_append (by decide)
  connected := rfl
  unbudgeted := rfl
  found := rfl
  mode := (by decide : "gateway" ≠ "sealed")

theorem validateFedDestination_target {cfg : Config} {routeName endpoint : String}
    (passed : validateFedDestination cfg routeName endpoint = .ok ()) :
    ∃ peer route, fedTarget endpoint = some (peer, route) ∧ isValidPeerName route = true := by
  unfold validateFedDestination at passed
  cases block : cfg.federation with
  | none =>
    rw [block] at passed
    cases passed
  | some fed =>
    rw [block] at passed
    cases target : fedTarget endpoint with
    | none =>
      rw [target] at passed
      cases passed
    | some pair =>
      rw [target] at passed
      dsimp only at passed
      split_ifs at passed with unknown invalid
      exact ⟨pair.1, pair.2, rfl, by simpa using invalid⟩

theorem validateFedDestination_route {cfg : Config} {routeName peer route : String}
    (passed : validateFedDestination cfg routeName (peer ++ "/" ++ route) = .ok ()) :
    isValidPeerName route = true := by
  obtain ⟨first, second, target, valid⟩ := validateFedDestination_target passed
  have letters : (peer ++ "/" ++ route).toList = peer.toList ++ '/' :: route.toList := by simp
  obtain ⟨⟨left, right⟩, split, same⟩ := Option.map_eq_some_iff.mp target
  cases same
  obtain ⟨whole, absent⟩ := splitOnce_eq_some split
  have plain : '/' ∉ right := by
    intro slash
    have char := isPeerNameChar_of_mem valid (by simpa using slash)
    exact (peerNameChar_apart char).2.2.2.1 rfl
  -- There is one slash in all, so the endpoint is cut where it was joined.
  have count := congrArg (List.count '/') (letters.symm.trans whole)
  rw [count_append, count_append, count_cons_self, count_cons_self,
    count_eq_zero.mpr absent, count_eq_zero.mpr plain] at count
  have clean : '/' ∉ peer.toList := count_eq_zero.mp (by omega)
  rw [letters, splitOnce_append clean] at split
  cases split
  simpa using valid

theorem fedGate_routed {K : Crypto} {e : Daemon} {fed : FederationConfig} {peerNodeId : String}
    {env : Envelope} {refusal : Refusal} (block : e.cfg.federation = some fed)
    (listed : r ∈ fed.ingressRoutes) (refused : fedGate K e peerNodeId env r = .error refusal) :
    refusal.reason ≠ .routeNotFederated := by
  have named {reason : Reason} {record : Option Envelope}
      (same : Except.error (⟨reason, record⟩ : Refusal) =
        (.error refusal : Except Refusal (Envelope × RouteConfig)))
      (other : reason ≠ .routeNotFederated) : refusal.reason ≠ .routeNotFederated := by
    cases same
    exact other
  unfold fedGate at refused
  rw [block] at refused
  dsimp only at refused
  split at refused
  · exact named refused (by decide)
  split at refused
  · rename_i reason shape
    refine named refused ?_
    unfold checkChainShape at shape
    split_ifs at shape
    · cases shape
      decide
    · cases shape
      decide
  split at refused
  · exact named refused (by decide)
  split at refused
  · exact named refused (by decide)
  split at refused
  · exact named refused (by decide)
  split at refused
  · exact named refused (by decide)
  · cases refused

theorem fedIngress_routed {K : Crypto} {e : Daemon} {fed : FederationConfig}
    (block : e.cfg.federation = some fed) (listed : r ∈ fed.ingressRoutes) (io : Faults)
    (peerNodeId : String) (env : Envelope) :
    ((fedIngress K io peerNodeId env r).run e).1 ≠ .rejected .routeNotFederated := by
  rw [fedIngress_run]
  cases gate : fedGate K e peerNodeId env r with
  | error refusal =>
    intro same
    exact fedGate_routed block listed gate (FedIngressOutcome.rejected.inj same)
  | ok passed =>
    dsimp only
    split
    · simp
    · have effect := acceptRun_effect io (fedSenderKey peerNodeId passed.1) [passed.1.id.toText]
        passed.1 r passed.2 e.pruned
      intro same
      rw [same] at effect
      cases effect

/-- Some peer with an accepted configuration has a destination for the route, emits an envelope for
it, and the receiver's gate lets that envelope's route through. -/
def Addressable (F : Formats) (sends receives : Crypto) (receiver : ConfigFile) (r : String) :
    Prop :=
  ∃ sender route peer, validate F sender = .ok () ∧ route ∈ sender.routes ∧
    (⟨fedProtocol, peer ++ "/" ++ r⟩ : Endpoint) ∈ route.destinations ∧
    ∃ (d : Daemon) (del : Delivery) (now : Int) (tx : Nat) (c : Channel Fed) (sent : Envelope),
      d.cfg = sender.engine ∧ del.route = route.name ∧
      del.destination = ⟨fedProtocol, peer ++ "/" ++ r⟩ ∧ d.fedChannels tx = some c ∧
      ((processDue sends del now).run d).2.fedChannels tx =
        some { c with queue := c.queue ++ [.envelope sent r] } ∧
      ∀ (e : Daemon) (io : Faults) (peerNodeId : String), e.cfg = receiver.engine →
        ((fedIngress receives io peerNodeId sent r).run e).1 ≠ .rejected .routeNotFederated

/-- A federated ingress route can be addressed by a peer exactly when its name is one that the check
of remote routes admits. -/
theorem ingress_route_addressable_iff (F : Formats) (sends receives : Crypto)
    (receiver : ConfigFile)
    (fed : FederationBlock) (r : String) (block : receiver.federation = some fed)
    (listed : r ∈ fed.ingressRoutes) :
    Addressable F sends receives receiver r ↔ isValidPeerName r = true := by
  constructor
  · rintro ⟨sender, route, peer, passed, member, dest, _⟩
    have connected := (validate_ok.mp passed).connected route member
    have checked : validateFedDestination sender.engine route.name (peer ++ "/" ++ r) = .ok () :=
      connected.peers ⟨fedProtocol, peer ++ "/" ++ r⟩ dest rfl
    exact validateFedDestination_route checked
  · intro valid
    have channel : (Daemon.feeding r).fedChannels 1 = some ⟨[], 64, false⟩ := rfl
    have placed := (processDue_places sends (clearway_feeding r) channel (by decide)).1
    refine ⟨.feeding r, .feeding r, "hub", validate_ok.mpr (ConfigFile.accepted_feeding valid),
      mem_singleton.mpr rfl, mem_singleton.mpr rfl, .feeding r, .feeding r, 0, 1,
      ⟨[], 64, false⟩, _, rfl, rfl, rfl, channel, placed, ?_⟩
    intro e io peerNodeId same
    have federated : e.cfg.federation = some fed.engine := by
      rw [same]
      simp [ConfigFile.engine, block]
    exact fedIngress_routed federated listed io peerNodeId _

/-- A route in both grammars can be fed. -/
theorem ingress_route_addressable_iff_plain :
    validate .plain (.hosting "town-hall") = .ok () ∧
      Addressable .plain (.clear "rf:edge") (.clear "rf:hall") (.hosting "town-hall")
      "town-hall" := by
  exact ⟨by decide +kernel,
    (ingress_route_addressable_iff .plain (.clear "rf:edge") (.clear "rf:hall")
    (.hosting "town-hall") _ "town-hall" rfl (mem_singleton.mpr rfl)).mpr (by decide)⟩

/-- A capital or an underscore in its name puts an accepted ingress route out of reach. -/
theorem capital_route_unaddressable :
    validate .plain (.hosting "Town_Hall") = .ok () ∧
      (ConfigFile.hosting "Town_Hall").federation.any
      (fun fed => fed.ingressRoutes.contains "Town_Hall") = true ∧
      ¬Addressable .plain (.clear "rf:edge") (.clear "rf:hall") (.hosting "Town_Hall")
      "Town_Hall" := by
  refine ⟨by decide +kernel, by decide, ?_⟩
  rintro ⟨sender, route, peer, passed, member, dest, _⟩
  have checked : validateFedDestination sender.engine route.name (peer ++ "/" ++ "Town_Hall") =
      .ok () :=
    ((validate_ok.mp passed).connected route member).peers
      ⟨fedProtocol, peer ++ "/" ++ "Town_Hall"⟩ dest rfl
  exact absurd (validateFedDestination_route checked) (by decide)

end RelayFabric
