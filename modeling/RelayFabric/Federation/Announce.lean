/- source: fed/advert.rs (build_from_config), fed/conn.rs (build_signed_advert)
   digest: A node's own advertisement before a peer that runs the same checks. -/

import RelayFabric.Config.Peering
import RelayFabric.Federation.Advert

namespace RelayFabric

open List Lib
open Lib.Cbor (Value headSize)

def announcedServices (cfg : ConfigFile) : TextMap Bool :=
  cfg.publicServices.foldl (fun services svc => services.insert svc.type true)
    ((∅ : TextMap Bool).insert "federation" true)

def announcedRx (cfg : ConfigFile) : List String := cfg.publicServices.flatMap PublicService.ingress

def announcedTx (cfg : ConfigFile) : List String := cfg.publicServices.flatMap PublicService.egress

def announcedProtocols (cfg : ConfigFile) : TextMap ProtoCaps :=
  (Std.ExtTreeMap.ofList ((announcedRx cfg ++ announcedTx cfg).map (fun proto => (proto, ())))
    compare).map (fun proto _ =>
      ⟨(announcedRx cfg).contains proto, (announcedTx cfg).contains proto, true, false, none⟩)

/-- None where discovery is off, and where `now + ttl` is past the calendar. -/
def buildFromConfig (cfg : ConfigFile) (nodeId sealedKeyHex : String) (now : Int) : Option Advert :=
  if cfg.discovery.mode = "disabled" then none
  else
    (checkedAdd now (seconds cfg.discovery.advertTtlSecs)).map (fun expires =>
      { rfVersion := 1
        nodeId := nodeId
        name := cfg.node.name
        services := announcedServices cfg
        protocols := announcedProtocols cfg
        security := ⟨true, true, true, some sealedKeyHex⟩
        expires := Int64.ofInt (timestamp expires)
        sig := [] })

def buildSignedAdvert (P : Platform) (cfg : ConfigFile) (nodeId sealedKeyHex : String) (now : Int) :
    Option Advert := (buildFromConfig cfg nodeId sealedKeyHex now).map (Advert.sign P nodeId)

def keyBytes (each : Nat) (keys : List String) : Nat :=
  headSize keys.length + (keys.map (fun key => textBytes key + each)).sum

def announcedBytes (cfg : ConfigFile) (nodeId sealedKeyHex : String) (expires : Int) : Nat :=
  171 + textBytes nodeId + textBytes cfg.node.name + textBytes sealedKeyHex +
    keyBytes 1 (announcedServices cfg).keys + keyBytes 35 (announcedProtocols cfg).keys +
    (intValue expires).size

/-- The service classes and protocols are names as receivers want them, the document is not too
long, and it expires after the epoch. -/
structure Announceable (cfg : ConfigFile) (nodeId sealedKeyHex : String) (expires : Int) :
    Prop where
  classes : ∀ svc ∈ cfg.publicServices, saneKey svc.type = true
  protocols : ∀ svc ∈ cfg.publicServices, ∀ proto ∈ svc.ingress ++ svc.egress, saneKey proto = true
  small : announcedBytes cfg nodeId sealedKeyHex expires ≤ advertMaxBytes
  epoch : 0 < expires

namespace AdvertTable

def Room (t : AdvertTable) (nodeId : String) (receivedAt : Int) : Prop :=
  (t.rows.filter (fun other => decide (other.nodeId ≠ nodeId ∧
    (receivedAt < other.receivedAt ∨ receivedAt = other.receivedAt ∧
      other.nodeId ≤ nodeId)))).length < maxPeerAdverts

/-- A row of that node and name would be there after the upsert and the prune. -/
def Receptive (t : AdvertTable) (nodeId name : String) (expires now : Int) : Prop :=
  match t.get? nodeId with
  | none => t.Room nodeId now
  | some old =>
    if old.expires < expires then t.Room nodeId now
    else old.name = name ∧ t.Room nodeId old.receivedAt

end AdvertTable

theorem mem_announcedServices {cfg : ConfigFile} {key : String} :
    key ∈ (announcedServices cfg).keys ↔
      key = "federation" ∨ ∃ svc ∈ cfg.publicServices, svc.type = key := by
  have inserted : ∀ (services : List PublicService) (m : TextMap Bool),
      key ∈ services.foldl (fun m svc => m.insert svc.type true) m ↔
        key ∈ m ∨ ∃ svc ∈ services, svc.type = key := by
    intro services
    induction services with
    | nil => simp
    | cons first others ih =>
      intro m
      rw [foldl_cons, ih, Std.ExtTreeMap.mem_insert, Std.LawfulEqCmp.compare_eq_iff_eq,
        exists_mem_cons_iff, or_assoc, or_left_comm]
  rw [Std.ExtTreeMap.mem_keys]
  unfold announcedServices
  rw [inserted, Std.ExtTreeMap.mem_insert, Std.LawfulEqCmp.compare_eq_iff_eq, eq_comm]
  simp

theorem mem_announcedProtocols {cfg : ConfigFile} {key : String} :
    key ∈ (announcedProtocols cfg).keys ↔
      ∃ svc ∈ cfg.publicServices, key ∈ svc.ingress ++ svc.egress := by
  have listed : key ∈ announcedRx cfg ++ announcedTx cfg ↔
      ∃ svc ∈ cfg.publicServices, key ∈ svc.ingress ++ svc.egress := by
    unfold announcedRx announcedTx
    simp [mem_append, mem_flatMap, and_or_left, exists_or]
  rw [← listed]
  unfold announcedProtocols
  rw [Std.ExtTreeMap.keys_map, Std.ExtTreeMap.mem_keys, Std.ExtTreeMap.mem_ofList, map_map,
    contains_iff_mem]
  exact Iff.of_eq (congrArg (key ∈ ·) (map_id _))

theorem size_mapValue {β : Type} {write : β → Value} {each : Nat} {m : TextMap β}
    (same : ∀ entry ∈ m.toList, (write entry.2).size = each) :
    (mapValue write m).size = keyBytes each m.keys := by
  unfold mapValue keyBytes
  rw [size_record, length_map, ← Std.ExtTreeMap.map_fst_toList_eq_keys, length_map, map_map,
    map_map]
  congr 2
  refine map_congr_left (fun entry member => ?_)
  simp [Function.comp_apply, same entry member]

theorem size_protoCaps (rx tx text files : Bool) :
    (ProtoCaps.mk rx tx text files none).toValue.size = 35 := by
  have names : textBytes "rx" = 3 ∧ textBytes "tx" = 3 ∧ textBytes "text" = 5 ∧
      textBytes "files" = 6 ∧ textBytes "max_payload" = 12 := by decide
  obtain ⟨first, second, third, fourth, fifth⟩ := names
  unfold ProtoCaps.toValue
  rfl

theorem size_announcedProtocols (cfg : ConfigFile) :
    (mapValue ProtoCaps.toValue (announcedProtocols cfg)).size = keyBytes 35
      (announcedProtocols cfg).keys := by
  refine size_mapValue (fun entry member => ?_)
  unfold announcedProtocols at member
  rw [Std.ExtTreeMap.toList_map] at member
  obtain ⟨named, -, rfl⟩ := mem_map.mp member
  exact size_protoCaps ..

theorem size_securityCaps (translate signed sealed : Bool) (key : String) :
    (SecurityCaps.mk translate signed sealed (some key)).toValue.size = 39 + textBytes key := by
  have names : textBytes "translate" = 10 ∧ textBytes "signed" = 7 ∧ textBytes "sealed" = 7 ∧
      textBytes "sealed_key" = 11 := by decide
  obtain ⟨first, second, third, fourth⟩ := names
  unfold SecurityCaps.toValue
  rw [size_record]
  have four : headSize 4 = 1 := rfl
  simp only [map_cons, map_nil, sum_cons, sum_nil, first, second, third, fourth,
    optionValue, size_text, length_cons, length_nil, Nat.reduceAdd, four]
  simp only [Value.size]
  omega

structure Platform.Signing (P : Platform) : Prop where
  length : ∀ node msg, (P.sign node msg).length = 64
  verifies : ∀ node msg, P.verify node msg (P.sign node msg) = true

structure Announces (P : Platform) (cfg : ConfigFile) (nodeId sealedKeyHex : String) (expires : Int)
    (advert : Advert) : Prop where
  version : advert.rfVersion = 1
  node : advert.nodeId = nodeId
  name : advert.name = cfg.node.name
  services : advert.services = announcedServices cfg
  protocols : advert.protocols = announcedProtocols cfg
  security : advert.security = ⟨true, true, true, some sealedKeyHex⟩
  expires : advert.expires.toInt = expires
  sig : advert.sig = P.sign nodeId advert.advertBytes

section

variable {P : Platform} {cfg : ConfigFile} {nodeId sealedKeyHex : String} {t expires : Int}
    {advert : Advert}

theorem announces_of_built (built : buildSignedAdvert P cfg nodeId sealedKeyHex t = some advert) :
    Announces P cfg nodeId sealedKeyHex (timestamp (t + seconds cfg.discovery.advertTtlSecs))
      advert := by
  obtain ⟨unsigned, made, rfl⟩ := Option.map_eq_some_iff.mp built
  unfold buildFromConfig at made
  split_ifs at made with off
  obtain ⟨expiry, added, rfl⟩ := Option.map_eq_some_iff.mp made
  unfold checkedAdd at added
  split_ifs at added with range
  cases added
  have kept : (Int64.ofInt (timestamp (t + seconds cfg.discovery.advertTtlSecs))).toInt =
      timestamp (t + seconds cfg.discovery.advertTtlSecs) := by
    unfold minUtc maxUtc at range
    refine Int64.toInt_ofInt_of_le ?_ ?_
    · unfold timestamp seconds at *
      omega
    · unfold timestamp seconds at *
      omega
  exact ⟨rfl, rfl, rfl, rfl, rfl, rfl, kept, rfl⟩

theorem Announces.length_encode (signing : P.Signing)
    (announces : Announces P cfg nodeId sealedKeyHex expires advert) :
    advert.encode.length = announcedBytes cfg nodeId sealedKeyHex expires := by
  have names : textBytes "rf_version" = 11 ∧ textBytes "node_id" = 8 ∧ textBytes "name" = 5 ∧
      textBytes "services" = 9 ∧ textBytes "protocols" = 10 ∧ textBytes "security" = 9 ∧
      textBytes "expires" = 8 ∧ textBytes "sig" = 4 := by decide
  obtain ⟨version, node, name, services, protocols, security, expiry, sig⟩ := names
  have classes : (mapValue .bool (announcedServices cfg)).size = keyBytes 1
      (announcedServices cfg).keys :=
    size_mapValue (fun _ _ => rfl)
  have signature : advert.sig.length = 64 := by
    rw [announces.sig]
    exact signing.length _ _
  have heads : headSize 8 = 1 ∧ headSize 64 = 2 ∧ headSize (1 : UInt32).toNat = 1 := by decide
  obtain ⟨eight, long, one⟩ := heads
  rw [Advert.length_encode, Advert.toValue, size_record]
  unfold Advert.fields announcedBytes
  simp only [map_cons, map_nil, sum_cons, sum_nil, length_cons, length_nil,
    version, node, name, services, protocols, security, expiry, sig, announces.version,
    announces.node, announces.name, announces.services, announces.protocols, announces.security,
    announces.expires, classes, size_announcedProtocols, size_securityCaps, size_text, size_uint,
    size_bytes, blobBytes, signature, long, one, Nat.reduceAdd, eight]
  omega

theorem Announces.keysSane_iff (announces : Announces P cfg nodeId sealedKeyHex expires advert) :
    advertKeysSane advert = true ↔ (∀ svc ∈ cfg.publicServices, saneKey svc.type = true) ∧
      ∀ svc ∈ cfg.publicServices, ∀ proto ∈ svc.ingress ++ svc.egress, saneKey proto = true := by
  unfold advertKeysSane
  rw [announces.services, announces.protocols, Bool.and_eq_true, all_eq_true, all_eq_true]
  refine and_congr ?_ ?_
  · simp only [mem_announcedServices]
    constructor
    · intro all svc member
      exact all svc.type (Or.inr ⟨svc, member, rfl⟩)
    · rintro all key (rfl | ⟨svc, member, rfl⟩)
      · decide
      · exact all svc member
  · simp only [mem_announcedProtocols]
    constructor
    · intro all svc member proto listed
      exact all proto ⟨svc, member, listed⟩
    · rintro all proto ⟨svc, member, listed⟩
      exact all svc member proto listed

theorem Announces.verify_ok (signing : P.Signing)
    (announces : Announces P cfg nodeId sealedKeyHex expires advert) :
    advert.verify P = .ok () ↔ 0 < expires := by
  have signed : P.verify advert.nodeId advert.advertBytes advert.sig = true := by
    rw [announces.sig, announces.node]
    exact signing.verifies _ _
  unfold Advert.verify
  rw [announces.expires, signed, if_pos rfl]
  split_ifs with stale
  · constructor
    · intro ok
      cases ok
    · intro positive
      omega
  · exact ⟨fun _ => by omega, fun _ => rfl⟩

theorem Announces.accepted_iff (signing : P.Signing)
    (announces : Announces P cfg nodeId sealedKeyHex expires advert) {mode : String} {d : Daemon}
    (allowed : advertScopeAllows mode d nodeId = true) {now : Int}
    (before : now < seconds expires) :
    AdvertAccepted P mode d nodeId advert now ↔ Announceable cfg nodeId sealedKeyHex expires := by
  have fresh : timestamp now < advert.expires.toInt := by
    rw [announces.expires]
    unfold timestamp
    unfold seconds at before
    omega
  constructor
  · intro accepted
    obtain ⟨classes, protocols⟩ := announces.keysSane_iff.mp accepted.sane
    exact ⟨classes, protocols, announces.length_encode signing ▸ accepted.small,
      (announces.verify_ok signing).mp accepted.verified⟩
  · intro fits
    exact ⟨(announces.length_encode signing).symm ▸ fits.small, announces.node,
      (announces.verify_ok signing).mpr fits.epoch, announces.keysSane_iff.mpr
      ⟨fits.classes, fits.protocols⟩, fresh, allowed⟩

end

namespace AdvertTable

def heldAfter (t : AdvertTable) (new : AdvertRow) : AdvertRow :=
  match t.get? new.nodeId with
  | none => new
  | some old => if old.expires < new.expires then new else old

section

variable (t : AdvertTable) (new : AdvertRow)

theorem get?_upsertPeerAdvert (node : String) :
    (t.upsertPeerAdvert new).get? node = if node = new.nodeId then some (t.heldAfter new)
      else t.get? node := by
  unfold upsertPeerAdvert heldAfter
  rw [Keyed.get?_upsert]
  split_ifs with same
  · subst same
    cases found : t.get? new.nodeId with
    | none => rfl
    | some old =>
      have named := ((Keyed.get?_eq_some _).mp found).2
      rw [Option.elim_some]
      dsimp only
      split_ifs
      · rw [named]
      · rfl
  · rfl

theorem heldAfter_nodeId :
    (t.heldAfter new).nodeId = new.nodeId := by
  have found := t.get?_upsertPeerAdvert new new.nodeId
  rw [if_pos rfl] at found
  exact ((Keyed.get?_eq_some _).mp found).2

theorem others_upsertPeerAdvert (select : AdvertRow → Bool)
    (others : ∀ row, select row = true → row.nodeId ≠ new.nodeId) :
    ((t.upsertPeerAdvert new).rows.filter select).Perm (t.rows.filter select) := by
  have distinct : ∀ u : AdvertTable, u.rows.Nodup := fun u => u.distinct.of_map _
  refine (perm_ext_iff_of_nodup ((distinct _).filter _) ((distinct _).filter _)).mpr (fun row => ?_)
  rw [mem_filter, mem_filter]
  refine and_congr_left (fun selected => ?_)
  have stored : ∀ u : AdvertTable, row ∈ u.rows ↔ u.get? row.nodeId = some row := by
    intro u
    rw [Keyed.get?_eq_some]
    exact (and_iff_left rfl).symm
  rw [stored, stored, get?_upsertPeerAdvert, if_neg (others row selected)]

theorem held_survives_iff :
    t.heldAfter new ∈ ((t.upsertPeerAdvert new).prunePeerAdverts maxPeerAdverts).rows ↔
      t.Room new.nodeId (t.heldAfter new).receivedAt := by
  have member : t.heldAfter new ∈ (t.upsertPeerAdvert new).rows := by
    have found := t.get?_upsertPeerAdvert new new.nodeId
    rw [if_pos rfl] at found
    exact ((Keyed.get?_eq_some _).mp found).1
  unfold prunePeerAdverts Room
  rw [Keyed.mem_prune_iff_few Keyed.LatestFirst.antisymm member rfl]
  rw [(others_upsertPeerAdvert t new _ (fun row selected => ?_)).length_eq]
  · simp [heldAfter_nodeId, Keyed.LatestFirst]
  · rw [Bool.true_and, decide_eq_true_eq, heldAfter_nodeId] at selected
    exact selected.1

theorem stored_name_iff :
    (((t.upsertPeerAdvert new).prunePeerAdverts maxPeerAdverts).get? new.nodeId).map
        AdvertRow.name = some new.name ↔
      t.Receptive new.nodeId new.name new.expires new.receivedAt := by
  have held :
      (∃ row, ((t.upsertPeerAdvert new).prunePeerAdverts maxPeerAdverts).get? new.nodeId =
          some row ∧ row.name = new.name) ↔
        t.Room new.nodeId (t.heldAfter new).receivedAt ∧ (t.heldAfter new).name = new.name := by
    rw [← held_survives_iff]
    constructor
    · rintro ⟨row, found, named⟩
      obtain ⟨member, same⟩ := (Keyed.get?_eq_some _).mp found
      have before : (t.upsertPeerAdvert new).get? new.nodeId = some row :=
        (Keyed.get?_eq_some _).mpr ⟨(Keyed.mem_prune.mp member).1, same⟩
      rw [get?_upsertPeerAdvert, if_pos rfl] at before
      cases before
      exact ⟨member, named⟩
    · rintro ⟨member, named⟩
      exact ⟨_, (Keyed.get?_eq_some _).mpr ⟨member, heldAfter_nodeId t new⟩, named⟩
  rw [Option.map_eq_some_iff, held]
  unfold Receptive heldAfter
  cases t.get? new.nodeId with
  | none => exact and_iff_left rfl
  | some old =>
    dsimp only
    split_ifs
    · exact and_iff_left rfl
    · exact and_comm

end

end AdvertTable

theorem sanitizeAdvertName_of_validated {F : Formats} {cfg : ConfigFile}
    (accepted : validate F cfg = .ok ()) :
    sanitizeAdvertName cfg.node.name = cfg.node.name := by
  have checked := (validate_ok.mp accepted).nodeName
  obtain ⟨short, safe⟩ := seq_ok.mp checked
  have length : cfg.node.name.toList.length ≤ 64 := by simpa using short
  have clean : ∀ c ∈ cfg.node.name.toList, (!isControl c && !isDisplaySpoofing c) = true := by
    intro c member
    cases found : cfg.node.name.toList.find? isUnsafeAdvertNameChar with
    | some bad =>
      rw [found] at safe
      cases safe
    | none =>
      have fine := List.find?_eq_none.mp found c member
      simpa [isUnsafeAdvertNameChar] using fine
  unfold sanitizeAdvertName advertMaxNameChars
  rw [filter_eq_self.mpr clean, take_of_length_le length, String.ofList_toList]

/-- A node's own advertisement is accepted by a peer that allows its scope, and its row carries
`node.name`, exactly when the configuration is announceable and the peer's table takes the row. -/
theorem own_advert_accepted_iff {F : Formats} {cfg : ConfigFile}
    (accepted : validate F cfg = .ok ())
    {P : Platform} (signing : P.Signing) {nodeId sealedKeyHex : String} {t : Int} {advert : Advert}
    (built : buildSignedAdvert P cfg nodeId sealedKeyHex t = some advert) {mode : String}
    {d : Daemon} (allowed : advertScopeAllows mode d nodeId = true) {now : Int}
    (before : now < seconds advert.expires.toInt) (table : AdvertTable) :
    (∃ table', receiveAdvert P mode d nodeId advert now table = .ok table' ∧
        (table'.get? nodeId).map AdvertRow.name = some cfg.node.name) ↔
      Announceable cfg nodeId sealedKeyHex (timestamp (t + seconds cfg.discovery.advertTtlSecs)) ∧
        table.Receptive nodeId cfg.node.name
          (clampedExpires (timestamp (t + seconds cfg.discovery.advertTtlSecs)) now) now := by
  have announces := announces_of_built built
  rw [announces.expires] at before
  rw [← announces.accepted_iff signing allowed before]
  have name : (advertRow advert now).name = cfg.node.name := by
    show sanitizeAdvertName advert.name = cfg.node.name
    rw [announces.name]
    exact sanitizeAdvertName_of_validated accepted
  have stored := table.stored_name_iff (advertRow advert now)
  have node : (advertRow advert now).nodeId = nodeId := announces.node
  have expiry : (advertRow advert now).expires =
      clampedExpires (timestamp (t + seconds cfg.discovery.advertTtlSecs)) now :=
    congrArg (clampedExpires · now) announces.expires
  rw [name, node, expiry] at stored
  constructor
  · rintro ⟨table', received, named⟩
    cases checked : checkAdvert P mode d nodeId advert now with
    | error reason =>
      rw [receiveAdvert_of_rejected checked] at received
      cases received
    | ok u =>
      have passed := checkAdvert_ok.mp checked
      rw [receiveAdvert_of_accepted passed] at received
      cases received
      exact ⟨passed, stored.mp named⟩
  · rintro ⟨passed, receptive⟩
    exact ⟨_, receiveAdvert_of_accepted passed table, stored.mpr receptive⟩

def Platform.stamping : Platform :=
  { Platform.unsigned with
    sign := fun _ _ => List.replicate 64 7
    verify := fun _ _ sig => sig == List.replicate 64 7 }

theorem Platform.stamping_signing : Platform.stamping.Signing :=
  ⟨fun _ _ => length_replicate, fun _ _ => beq_self_eq_true (List.replicate 64 (7 : UInt8))⟩

def ConfigFile.serving (serviceType : String) : ConfigFile :=
  { ConfigFile.hosting "town-hall" with
    publicServices := [⟨"lobby", serviceType, ["lxmf"], ["lxmf"]⟩]
    discovery := ⟨"federation", 3600⟩ }

theorem expires_serving {serviceType : String} {advert : Advert}
    (built : buildSignedAdvert .stamping (.serving serviceType) hubNodeId "aa" 0 = some advert) :
    advert.expires.toInt = 3600 := by
  rw [(announces_of_built built).expires]
  show timestamp (0 + seconds 3600) = 3600
  decide

/-- A `chat` service is announced and stored under the node's name. -/
theorem own_advert_accepted_iff_chat :
    validate .plain (.serving "chat") = .ok () ∧
      ∃ advert, buildSignedAdvert .stamping (.serving "chat") hubNodeId "aa" 0 = some advert ∧
        ∃ table', receiveAdvert .stamping "public" (.relay "gateway") hubNodeId advert
          (seconds 10) .empty =
            .ok table' ∧ (table'.get? hubNodeId).map AdvertRow.name = some "hall" := by
  have accepted : validate .plain (.serving "chat") = .ok () := by decide +kernel
  have built : (buildSignedAdvert .stamping (.serving "chat") hubNodeId "aa" 0).isSome = true := by
    decide +kernel
  obtain ⟨advert, made⟩ := Option.isSome_iff_exists.mp built
  refine ⟨accepted, advert, made, ?_⟩
  have before : seconds 10 < seconds advert.expires.toInt := by
    rw [expires_serving made]
    decide
  have fits : Announceable (.serving "chat") hubNodeId "aa" 3600 :=
    ⟨by decide +kernel, by decide +kernel, by decide +kernel, by decide⟩
  have room : AdvertTable.Receptive .empty hubNodeId "hall" (clampedExpires 3600 (seconds 10))
      (seconds 10) := by
    show (0 : Nat) < maxPeerAdverts
    decide
  exact (own_advert_accepted_iff accepted Platform.stamping_signing made rfl before .empty).mpr
    ⟨fits, room⟩

/-- A service class with a capital letter passes the check of the configuration and none of a
peer's. -/
theorem capital_service_refused :
    validate .plain (.serving "Chat") = .ok () ∧
      ∃ advert, buildSignedAdvert .stamping (.serving "Chat") hubNodeId "aa" 0 = some advert ∧
        seconds 10 < seconds advert.expires.toInt ∧
        advertScopeAllows "public" (.relay "gateway") hubNodeId = true ∧
        receiveAdvert .stamping "public" (.relay "gateway") hubNodeId advert (seconds 10) .empty =
          .error .invalidShape := by
  obtain ⟨advert, made, checked⟩ :
      ∃ advert, buildSignedAdvert .stamping (.serving "Chat") hubNodeId "aa" 0 = some advert ∧
        checkAdvert .stamping "public" (.relay "gateway") hubNodeId advert (seconds 10) =
          .error .invalidShape := by decide +kernel
  refine ⟨by decide +kernel, advert, made, ?_, rfl, receiveAdvert_of_rejected checked .empty⟩
  rw [expires_serving made]
  decide

end RelayFabric
