/- source: config.rs (validate_federation), engine.rs (handle_result), fed/conn.rs (handle_fed_ack)
   digest: Which rows a plugin's result and a peer's ack may change, and what is announced. -/

import RelayFabric.Federation.Ack
import RelayFabric.Lib.Check

namespace RelayFabric

open List Lib

def isPeerNameChar (c : Char) : Bool := c.isLower || c.isDigit || c == '-'

def isValidPeerName (name : String) : Bool :=
  !name.isEmpty && decide (name.utf8ByteSize ≤ 32) && name.toList.all isPeerNameChar

def isHexChar (c : Char) : Bool :=
  c.isDigit || ('a' ≤ c && c ≤ 'f') || ('A' ≤ c && c ≤ 'F')

def isValidRfNodeId (s : String) : Bool :=
  match s.toList with
  | 'r' :: 'f' :: ':' :: hex => decide ((String.ofList hex).utf8ByteSize = 64) && hex.all isHexChar
  | _ => false

def isLowercaseRfNodeId (s : String) : Bool := !s.toList.any Char.isUpper

def isValidHex64 (s : String) : Bool :=
  decide (s.utf8ByteSize = 64) && s.toList.all isHexChar

def validatePeer (addr : Except String Unit) (seen : List PeerConfig) (p : PeerConfig) :
    Except String Unit := do
  ensure (isValidPeerName p.name)
    s!"federation peer name '{p.name}' is invalid (expected 1-32 chars of [a-z0-9-])"
  ensure (!seen.any (fun s => s.name == p.name)) s!"duplicate federation peer name '{p.name}'"
  ensure (isValidRfNodeId p.nodeId)
    (s!"federation peer '{p.name}' has invalid node_id '{p.nodeId}' " ++
      "(expected \"rf:\" + 64 hex chars)")
  ensure (isLowercaseRfNodeId p.nodeId)
    (s!"federation peer '{p.name}' has node_id '{p.nodeId}' with uppercase hex; node ids are " ++
      "compared byte-for-byte against the lowercase form a peer presents, so lowercase it")
  addr
  ensure (p.trust == "verified" || p.trust == "trusted")
    (s!"federation peer '{p.name}' has invalid trust '{p.trust}' " ++
      "(expected \"verified\" or \"trusted\")")
  match p.sealedKey with
  | none => .ok ()
  | some sealedKey => do
    ensure (isValidHex64 sealedKey)
      (s!"federation peer '{p.name}' has invalid sealed_key '{sealedKey}' " ++
        "(expected 64 hex chars)")
    ensure (isLowercaseRfNodeId sealedKey)
      (s!"federation peer '{p.name}' has sealed_key with uppercase hex; the pin is compared " ++
        "byte-for-byte against the lowercase form adverts carry, so lowercase it")

def validatePeers (peers : List PeerConfig) : Except String Unit :=
  checkInTurn (validatePeer (.ok ())) [] peers

def validateFedDestination (cfg : Config) (routeName endpoint : String) : Except String Unit :=
  match cfg.federation with
  | none => .error (s!"route '{routeName}' has a fed: destination '{endpoint}' " ++
      "but no federation block is configured")
  | some fed =>
    match fedTarget endpoint with
    | none => .error (s!"route '{routeName}' has an invalid fed: destination '{endpoint}' " ++
        "(expected \"fed:<peer_name>/<remote_route>\")")
    | some (peerName, remoteRoute) =>
      if !fed.peers.any (fun p => p.name == peerName) then
        .error s!"route '{routeName}' has a fed: destination naming unknown peer '{peerName}'"
      else if !isValidPeerName remoteRoute then
        .error (s!"route '{routeName}' has an invalid fed: destination remote route " ++
          s!"'{remoteRoute}' (expected 1-32 chars of [a-z0-9-])")
      else .ok ()

def FederationConfig.Validated (fed : FederationConfig) : Prop := validatePeers fed.peers = .ok ()

def AdmittedDestination (endpoint : String) : Prop :=
  ∃ cfg fed routeName, cfg.federation = some fed ∧ fed.Validated ∧
    validateFedDestination cfg routeName endpoint = .ok ()

theorem validatePeers_name {peers : List PeerConfig} (passed : validatePeers peers = .ok ()) :
    ∀ p ∈ peers, isValidPeerName p.name = true := by
  intro p member
  obtain ⟨before, checked⟩ := checkInTurn_ok passed p member
  unfold validatePeer at checked
  simp only [seq_ok, ensure_ok] at checked
  exact checked.1

variable {c : Char} {key : String} {s : Store}

theorem peerNameChar_apart (plain : isPeerNameChar c = true) :
    ¬('A'.val ≤ c.val ∧ c.val ≤ 'Z'.val) ∧ c ≠ '%' ∧ c ≠ '_' ∧ c ≠ '/' ∧ c ≠ ':' := by
  have fixed : ∀ x : Char, isPeerNameChar x = false → c ≠ x := by
    rintro x refused rfl
    rw [plain] at refused
    cases refused
  refine ⟨?_, fixed _ (by decide), fixed _ (by decide), fixed _ (by decide), fixed _ (by decide)⟩
  rintro ⟨low, high⟩
  have cases_ : ((97 ≤ c.val ∧ c.val ≤ 122) ∨ (48 ≤ c.val ∧ c.val ≤ 57)) ∨ c = '-' := by
    have lower : c.isLower = (decide (97 ≤ c.val) && decide (c.val ≤ 122)) := rfl
    simpa [isPeerNameChar, lower, Char.isDigit] using plain
  rw [UInt32.le_iff_toNat_le] at low high
  rcases cases_ with (⟨letter, -⟩ | ⟨-, digit⟩) | rfl
  · rw [UInt32.le_iff_toNat_le] at letter
    simp at low high letter
    omega
  · rw [UInt32.le_iff_toNat_le] at digit
    simp at low high digit
    omega
  · exact absurd low (by decide)

theorem toLower_of_isPeerNameChar (plain : isPeerNameChar c = true) : c.toLower = c := by
  unfold Char.toLower
  rw [dif_neg]
  exact (peerNameChar_apart plain).1

theorem isPeerNameChar_of_mem {name : String} (valid : isValidPeerName name = true)
    (member : c ∈ name.toList) : isPeerNameChar c = true := by
  rw [isValidPeerName, Bool.and_eq_true] at valid
  exact all_eq_true.mp valid.2 c member

theorem map_toLower_of_valid {name : String} (valid : isValidPeerName name = true) :
    name.toList.map Char.toLower = name.toList := by
  conv_rhs => rw [← map_id name.toList]
  exact map_congr_left
    (fun c member => toLower_of_isPeerNameChar (isPeerNameChar_of_mem valid member))

def FederationConfig.HasKey (fed : FederationConfig) (key : String) : Prop :=
  (∃ p ∈ fed.peers, p.name = key) ∨ isValidRfNodeId key = true

theorem isValidRfNodeId_eq (valid : isValidRfNodeId key = true) :
    ∃ hex, key.toList = 'r' :: 'f' :: ':' :: hex ∧ ∀ c ∈ hex, isHexChar c = true := by
  unfold isValidRfNodeId at valid
  split at valid
  · rename_i hex whole
    rw [Bool.and_eq_true] at valid
    exact ⟨hex, whole, all_eq_true.mp valid.2⟩
  · cases valid

theorem FederationConfig.HasKey.foreign {fed : FederationConfig} {peer : String}
    (keyed : fed.HasKey key) (validated : fed.Validated) (valid : isValidPeerName peer = true)
    (other : key ≠ peer) : foreignKey peer key = true := by
  unfold foreignKey
  rw [Bool.and_eq_true, all_eq_true, map_toLower_of_valid valid]
  rcases keyed with ⟨p, member, rfl⟩ | node
  · have named := validatePeers_name validated p member
    constructor
    · intro c present
      obtain ⟨-, one, two, three, -⟩ := peerNameChar_apart (isPeerNameChar_of_mem named present)
      simp [one, two, three]
    · rw [map_toLower_of_valid named, bne_iff_ne]
      exact fun same => other (String.toList_inj.mp same)
  · obtain ⟨hex, whole, letters⟩ := isValidRfNodeId_eq node
    rw [whole]
    constructor
    · intro c present
      have admitted : isHexChar c = true ∨ c = 'r' ∨ c = ':' := by
        rcases mem_cons.mp present with rfl | rest
        · exact .inr (.inl rfl)
        rcases mem_cons.mp rest with rfl | rest
        · exact .inl (by decide)
        rcases mem_cons.mp rest with rfl | digit
        · exact .inr (.inr rfl)
        · exact .inl (letters c digit)
      have clean : ∀ x : Char, isHexChar x = false ∧ x ≠ 'r' ∧ x ≠ ':' → c ≠ x := by
        rintro x ⟨refused, colonless⟩ rfl
        rcases admitted with hex | rfl | rfl
        · rw [hex] at refused
          cases refused
        · exact colonless.1 rfl
        · exact colonless.2 rfl
      have one := clean '%' (by decide)
      have two := clean '_' (by decide)
      have three := clean '/' (by decide)
      simp [one, two, three]
    · rw [bne_iff_ne]
      intro same
      have colon : ':' ∈ peer.toList := by
        rw [← same]
        simp
      exact (peerNameChar_apart (isPeerNameChar_of_mem valid colon)).2.2.2.2 rfl

theorem AdmittedDestination.target {endpoint : String} (admitted : AdmittedDestination endpoint) :
    ∃ peer route, fedTarget endpoint = some (peer, route) ∧ isValidPeerName peer = true := by
  obtain ⟨cfg, fed, routeName, block, validated, passed⟩ := admitted
  unfold validateFedDestination at passed
  rw [block] at passed
  cases target : fedTarget endpoint with
  | none =>
    rw [target] at passed
    cases passed
  | some pair =>
    rw [target] at passed
    dsimp only at passed
    refine ⟨pair.1, pair.2, rfl, ?_⟩
    split at passed
    · cases passed
    · rename_i known
      have listed : ∃ p ∈ fed.peers, p.name = pair.1 := by simpa using known
      obtain ⟨p, member, same⟩ := listed
      rw [← same]
      exact validatePeers_name validated p member

/-- The federation rows in flight are addressed as destinations of validated routes are. -/
def Store.FedAddressed (s : Store) : Prop :=
  ∀ n r, s.row n = some r → r.state = .attempting → r.destination.protocol = fedProtocol →
    AdmittedDestination r.destination.endpoint

theorem row_resultStore_ne (s : Store) (utc : Int) (plugin : String) (corr : Nat) (delivered : Bool)
    {n : Nat} (changed : (resultStore s utc plugin corr delivered).2.row n ≠ s.row n) :
    n = corr ∧ ∃ r, s.row n = some r ∧ r.destination.protocol = plugin := by
  unfold resultStore at changed
  cases found : s.deliveriesForId corr with
  | none =>
    rw [found] at changed
    exact absurd rfl changed
  | some del =>
    rw [found] at changed
    dsimp only at changed
    by_cases owned : del.destination.protocol = plugin
    · have here : n = corr := by
        by_contra elsewhere
        have kept (guard change keyed) : (s.updateDelivery corr guard change keyed).row n =
            s.row n :=
          s.row_updateDelivery_ne corr guard change keyed elsewhere
        rw [if_neg (not_not.mpr owned)] at changed
        split_ifs at changed
        · exact changed (kept _ _ _)
        · exact changed (kept _ _ _)
        · exact changed (kept _ _ _)
      exact ⟨here, del, here ▸ found, owned⟩
    · rw [if_pos owned] at changed
      exact absurd rfl changed

theorem row_ackStore_ne (addressed : s.FedAddressed) {fed : FederationConfig}
    (validated : fed.Validated) (keyed : fed.HasKey key) {utc : Int} {m : Uuid} {n : Nat}
    (changed : (ackStore s utc key m).row n ≠ s.row n) :
    ∃ r route, s.row n = some r ∧ r.destination.protocol = fedProtocol ∧ r.messageId = m ∧
      fedTarget r.destination.endpoint = some (key, route) := by
  rw [row_ackStore] at changed
  cases found : s.row n with
  | none =>
    rw [found] at changed
    exact absurd rfl changed
  | some r =>
    rw [found, Option.map_some] at changed
    by_cases acked : r ∈ s.deliveriesForFedAck m key ∧ r.state = .attempting
    · obtain ⟨listed, sent⟩ := acked
      obtain ⟨-, facts⟩ := mem_filter.mp listed
      simp only [Bool.and_eq_true, beq_iff_eq] at facts
      obtain ⟨⟨id, remote⟩, alike⟩ := facts
      obtain ⟨peer, route, target, valid⟩ := (addressed n r found sent remote).target
      by_cases same : key = peer
      · subst same
        exact ⟨r, route, rfl, remote, id, target⟩
      · rw [like_foreign (keyed.foreign validated valid same) target] at alike
        cases alike
    · rw [if_neg acked] at changed
      exact absurd rfl changed

/-- A plugin's result changes at most the row it names, and only one of that plugin; an ack changes
only federation rows of the acked message whose endpoint has the connection's key before its first
slash. -/
theorem results_touch_own_rows (d : Daemon) :
    (∀ (q : String) (corr : Nat) (delivered : Bool) (n : Nat),
      ((handleResult q corr delivered).run d).2.store.row n ≠ d.store.row n →
        n = corr ∧ ∃ r, d.store.row n = some r ∧ r.destination.protocol = q) ∧
    (d.store.FedAddressed → ∀ (fed : FederationConfig) (k id : String) (n : Nat),
      fed.Validated → fed.HasKey k →
      ((handleFedAck k id).run d).2.store.row n ≠ d.store.row n →
        ∃ m r route, Uuid.parseStr id = some m ∧ d.store.row n = some r ∧
          r.destination.protocol = fedProtocol ∧ r.messageId = m ∧
          fedTarget r.destination.endpoint = some (k, route)) := by
  refine ⟨fun q corr delivered n changed => ?_,
    fun addressed fed k id n validated keyed changed => ?_⟩
  · exact row_resultStore_ne d.store d.clock.utc q corr delivered changed
  · unfold handleFedAck at changed
    cases parsed : Uuid.parseStr id with
    | none =>
      rw [parsed] at changed
      exact absurd rfl changed
    | some m =>
      rw [parsed] at changed
      obtain ⟨r, route, found, remote, same, target⟩ :=
        row_ackStore_ne addressed validated keyed changed
      exact ⟨m, r, route, rfl, found, remote, same, target⟩

def FederationConfig.twins : FederationConfig :=
  let node (digit : Char) : String := String.ofList ('r' :: 'f' :: ':' :: List.replicate 64 digit)
  ⟨"unknown", 4, 3600, "pseudonymous", [], [⟨"phx", node 'a', "trusted", 0, none⟩,
    ⟨"phx-2", node 'b', "verified", 0, none⟩], [], []⟩

def Store.inFlight : Store :=
  let put (s : Store) (endpoint : String) : Store :=
    s.insertDelivery 0 ⟨7⟩ "in" ⟨"fed", endpoint⟩ 0 (seconds 3600) 2
  ((put (put .empty "phx/main") "phx-2/main").markAttempting 0 1).markAttempting 0 2

theorem FederationConfig.validated_twins : FederationConfig.twins.Validated := by
  rfl

theorem Store.fedAddressed_inFlight : Store.inFlight.FedAddressed := by
  have endpoints : ∀ r ∈ Store.inFlight.deliveries.rows,
      r.destination.endpoint = "phx/main" ∨ r.destination.endpoint = "phx-2/main" := by
    decide +kernel
  intro n r found _ _
  refine ⟨{ Config.small with federation := some .twins }, .twins, "in", rfl,
    FederationConfig.validated_twins, ?_⟩
  rcases endpoints r (Table.mem_of_get? _ found) with same | same
  · rw [same]
    rfl
  · rw [same]
    rfl

/-- The ack of the peer with the shorter name delivers its own row only. -/
theorem results_touch_own_rows_twins :
    let d : Daemon := { Daemon.small .empty with store := .inFlight }
    let id : String := Uuid.toText ⟨7⟩
    let d' := ((handleFedAck "phx" id).run d).2
    d.store.FedAddressed ∧ FederationConfig.twins.Validated ∧ FederationConfig.twins.HasKey "phx" ∧
      d'.store.deliveries.rows.map Delivery.state = [.delivered, .attempting] ∧
      ∃ m r route, Uuid.parseStr id = some m ∧ d.store.row 1 = some r ∧
        r.destination.protocol = fedProtocol ∧ r.messageId = m ∧
        fedTarget r.destination.endpoint = some ("phx", route) := by
  intro d id d'
  have keyed : FederationConfig.twins.HasKey "phx" := .inl ⟨_, mem_cons_self, rfl⟩
  have changed : d'.store.row 1 ≠ d.store.row 1 := by
    decide +kernel
  exact ⟨Store.fedAddressed_inFlight, FederationConfig.validated_twins, keyed, by decide +kernel,
    (results_touch_own_rows d).2 Store.fedAddressed_inFlight .twins "phx" id 1
      FederationConfig.validated_twins keyed changed⟩

def DeliveryEvent.announced (event : DeliveryEvent) : Option DeliveryState :=
  match event.state with
  | "delivered" => some .delivered
  | "dead_letter" => some .deadLetter
  | "retry" => some .pending
  | _ => none

def Delivery.answered (now : Int) (delivered : Bool) (r : Delivery) : Delivery :=
  if delivered then
    if r.state == .attempting then { r with state := .delivered, updatedAt := now } else r
  else if r.state.live then
    if maxAttempts ≤ r.attemptCount then
      { r with state := .deadLetter, reason := some .retryExhausted, updatedAt := now }
    else { r with state := .pending, nextAttempt := now + backoff r.attemptCount, updatedAt := now }
  else r

end RelayFabric
