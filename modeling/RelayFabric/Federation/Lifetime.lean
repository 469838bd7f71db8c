/- source: engine.rs (handle_inbound, bound_replay_and_clamp_ttl, process_due_fed)
   digest: The lifetime a gateway gives a message against the lifetime its peer grants it. -/

import RelayFabric.Delivery.Arrival
import RelayFabric.Delivery.Attempt
import RelayFabric.Federation.Verdict

namespace RelayFabric

open Lib

/-- The peer's window at time `t` for an envelope created at `created`: the deadline is a time that
`chrono` can hold, it has not passed, and the creation is not too far ahead. A sealed header counts
the deadline in whole seconds, and has to lie after the present one. -/
structure Timely (inSeal : Bool) (maxTtlSecs : Nat) (created t : Int) : Prop where
  holdable : minUtc ≤ created + seconds maxTtlSecs ∧ created + seconds maxTtlSecs ≤ maxUtc
  deadline : t ≤ created + seconds maxTtlSecs
  skew : created ≤ t + maxCreatedAtSkew
  header : inSeal = true → timestamp t < timestamp (created + seconds maxTtlSecs)

/-- The window holds the whole local lifetime of a message that came in at `received`. -/
structure Lasting (inSeal : Bool) (maxTtlSecs ttlSecs : Nat) (created received : Int) : Prop where
  holdable : minUtc ≤ created + seconds maxTtlSecs ∧ created + seconds maxTtlSecs ≤ maxUtc
  deadline : received + seconds ttlSecs ≤ created + seconds maxTtlSecs + 1
  skew : created ≤ received + maxCreatedAtSkew
  header : inSeal = true →
    timestamp (received + seconds ttlSecs - 1) < timestamp (created + seconds maxTtlSecs)

theorem forall_timely_iff {inSeal : Bool} {maxTtlSecs ttlSecs : Nat} {created received : Int}
    (positive : 0 < ttlSecs) :
    (∀ t, received ≤ t → t < received + seconds ttlSecs → Timely inSeal maxTtlSecs created t) ↔
      Lasting inSeal maxTtlSecs ttlSecs created received := by
  have long : 0 < seconds ttlSecs := by
    unfold seconds
    omega
  constructor
  · intro always
    have first := always received le_rfl (by omega)
    have last := always (received + seconds ttlSecs - 1) (by omega) (by omega)
    have deadline := last.deadline
    exact ⟨first.holdable, by omega, first.skew, last.header⟩
  · intro lasting t begun going
    have deadline := lasting.deadline
    have skew := lasting.skew
    refine ⟨lasting.holdable, by omega, by omega, fun inside => ?_⟩
    have header := lasting.header inside
    unfold timestamp at header ⊢
    omega

theorem bound_eq_none_iff (now : Int) (env : Envelope) (maxTtlSecs : Nat) :
    boundReplayAndClampTtl now env maxTtlSecs = none ↔
      ¬Timely false maxTtlSecs env.createdAt now := by
  unfold boundReplayAndClampTtl checkedAdd
  by_cases holdable : minUtc ≤ env.createdAt + seconds maxTtlSecs ∧
      env.createdAt + seconds maxTtlSecs ≤ maxUtc
  · rw [if_pos holdable]
    dsimp only
    split
    · rename_i outside
      refine iff_of_true rfl (fun timely => ?_)
      have deadline := timely.deadline
      have skew := timely.skew
      omega
    · rename_i inside
      refine iff_of_false (by simp) (fun untimely => untimely ⟨holdable, ?_, ?_, nofun⟩)
      · omega
      · omega
  · rw [if_neg holdable]
    exact iff_of_true rfl (fun timely => holdable timely.holdable)

/-- A receiver at which nothing but time stands in the way: it federates, it trusts the peer, the
envelope inside what it is shown carries a chain that verifies and ends at the peer, and neither the
header nor the id is remembered. -/
structure Welcome (K : Crypto) (peerNodeId : String) (p : Presentation) (env : Envelope)
    (fed : FederationConfig) (d : Daemon) : Prop where
  opens : p.envelope? K = some env
  federation : d.cfg.federation = some fed
  trusted : trustDenied d.store peerNodeId fed.acceptFrom = false
  shape : checkChainShape env peerNodeId fed.maxHops = none
  genuine : K.verifyChain { env with priority := "normal" } = true
  header : p.headerSeen d = false
  unseen : d.remembers env.id = false

def Daemon.atUtc (d : Daemon) (t : Int) : Daemon := { d with clock := ⟨t, d.clock.instant⟩ }

variable {K : Crypto} {peerNodeId : String} {env : Envelope} {fed : FederationConfig} {d : Daemon}

theorem Welcome.atUtc {p : Presentation} (welcome : Welcome K peerNodeId p env fed d) (t : Int) :
    Welcome K peerNodeId p env fed (d.atUtc t) := by
  refine { welcome with header := ?_ }
  cases p with
  | plain => rfl
  | sealed => exact welcome.header

theorem acceptRun_ne_expired (io : Faults) (senderKey : String) (keys : List String)
    (env : Envelope) (targetRoute : String) (routeCfg : RouteConfig) (d : Daemon) :
    (acceptRun io senderKey keys env targetRoute routeCfg d).1 ≠ .rejected .expired := by
  intro expired
  have effect := acceptRun_effect io senderKey keys env targetRoute routeCfg d
  rw [expired] at effect
  nomatch effect

theorem fedIngress_expired_iff {io : Faults} {targetRoute : String}
    (welcome : Welcome K peerNodeId (.plain env) env fed d) :
    ((fedIngress K io peerNodeId env targetRoute).run d).1 = .rejected .expired ↔
      boundReplayAndClampTtl d.clock.utc { env with priority := "normal" } fed.maxTtlSecs =
      none := by
  have shape : checkChainShape { env with priority := "normal" } peerNodeId fed.maxHops = none :=
    welcome.shape
  rw [fedIngress_run]
  unfold fedGate
  rw [welcome.federation]
  dsimp only
  rw [if_neg (by simp [welcome.trusted]), shape]
  rw [if_neg (by simp [welcome.genuine])]
  cases boundReplayAndClampTtl d.clock.utc { env with priority := "normal" } fed.maxTtlSecs with
  | none => exact iff_of_true rfl rfl
  | some bounded =>
    refine iff_of_false ?_ (by simp)
    dsimp only
    by_cases far : fed.maxHops ≤ bounded.hops
    · rw [if_pos far]
      exact nofun
    by_cases unlisted : targetRoute ∉ fed.ingressRoutes
    · rw [if_neg far, if_pos unlisted]
      exact nofun
    rw [if_neg far, if_neg unlisted]
    cases d.cfg.routeCfg targetRoute with
    | none => exact nofun
    | some routeCfg =>
      dsimp only
      split
      · exact nofun
      · exact acceptRun_ne_expired _ _ _ _ _ _ _

theorem fedSealedIngress_expired_iff {io : Faults} {frame : SealedEnvelope} {targetRoute : String}
    (welcome : Welcome K peerNodeId (.sealed frame) env fed d)
    (alg : frame.alg = sealAlgV1) :
    ((fedSealedIngress K io peerNodeId frame targetRoute).run d).1 = .rejected .expired ↔
      frame.expiresAt ≤ timestamp d.clock.utc ∨
        boundReplayAndClampTtl d.clock.utc env fed.maxTtlSecs = none := by
  have opened := openSeal_of_opens welcome.opens
  have normal : { env with priority := "normal" } = env := by
    unfold openSeal at opened
    split at opened
    · cases opened
    · rename_i bytes _
      cases decoded : K.decode bytes with
      | none =>
        rw [decoded] at opened
        cases opened
      | some inner =>
        rw [decoded] at opened
        rw [← Except.ok.inj opened]
  have genuine : K.verifyChain env = true := normal ▸ welcome.genuine
  have fresh : (d.dedup.isDuplicate (sealedKey frame) d.clock.instant).1 = false := welcome.header
  have gate : sealedGate K d peerNodeId frame = .ok (env, fed) := by
    unfold sealedGate
    rw [welcome.federation]
    dsimp only
    rw [if_neg (by simp [welcome.trusted]), opened]
    dsimp only
    rw [welcome.shape]
    rw [if_neg (by simp [genuine])]
  rw [fedSealedIngress_run]
  unfold sealedHeader
  rw [if_neg (by simp [alg])]
  by_cases late : frame.expiresAt ≤ timestamp d.clock.utc
  · rw [if_pos late]
    exact iff_of_true rfl (.inl late)
  rw [if_neg late, if_neg (by simp [fresh])]
  rw [gate]
  dsimp only
  rw [if_neg (by simp [welcome.unseen])]
  unfold sealedRoute
  cases boundReplayAndClampTtl d.clock.utc env fed.maxTtlSecs with
  | none => exact iff_of_true rfl (.inr rfl)
  | some bounded =>
    refine iff_of_false ?_ (by simp [late])
    dsimp only
    by_cases unlisted : targetRoute ∉ fed.ingressRoutes
    · rw [if_pos unlisted]
      exact nofun
    rw [if_neg unlisted]
    cases d.cfg.routeCfg targetRoute with
    | none => exact nofun
    | some routeCfg =>
      dsimp only
      cases effectiveAllowGatewayDecryption d.cfg routeCfg with
      | false => exact nofun
      | true => exact acceptRun_ne_expired _ _ _ _ _ _ _

/-- What sealing promises between a sender and the holder of the key: the header is as given, the
holder opens the seal, and an envelope it reads there has the creation time of the sealed one. -/
structure Crypto.Seals (K holder : Crypto) (key : Bytes) : Prop where
  alg : ∀ seed plain id expires, (K.sealBytes seed plain id expires key).alg = sealAlgV1
  expiry : ∀ seed plain id expires, (K.sealBytes seed plain id expires key).expiresAt = expires
  opens : ∀ seed plain id expires,
    holder.unsealBytes (K.sealBytes seed plain id expires key) = .ok plain
  created : ∀ env env', holder.decode (K.encode env) = some env' → env'.createdAt = env.createdAt

theorem Crypto.Seals.createdAt_eq {holder : Crypto} {key : Bytes} (seals : K.Seals holder key)
    {seed : Nat} {env' : Envelope} {id : String} {expires : Int}
    (opened : openSeal holder (K.sealBytes seed (K.encode env) id expires key) = .ok env') :
    env'.createdAt = env.createdAt := by
  unfold openSeal at opened
  rw [seals.opens] at opened
  dsimp only at opened
  cases decoded : holder.decode (K.encode env) with
  | none =>
    rw [decoded] at opened
    cases opened
  | some inner =>
    rw [decoded] at opened
    rw [← Except.ok.inj opened]
    exact seals.created env inner decoded

def Presentation.inSeal : Presentation → Bool
  | .plain _ => false
  | .sealed _ => true

section Ends

variable {K K' : Crypto} {ok : Daemon → Prop} {del : Delivery} {now : Int} {stored env : Envelope}
  {peer peerNodeId targetRoute : String} {frame : Fed} {p : Presentation} {fed : FederationConfig}
  {d : Daemon}

theorem expired_iff (io : Faults)
    (same : ∀ d, ok d → d.cfg.federation.elim 86400 FederationConfig.maxTtlSecs = fed.maxTtlSecs)
    (seals : ∀ read read' key, ok read → ok read' → sealedKeyOf K read read' peer = some key →
      K.Seals K' key)
    (emission : Emission K ok del now stored peer frame)
    (shown : frame.presentation = some (p, targetRoute))
    (welcome : Welcome K' peerNodeId p env fed d) :
    ((present K' io peerNodeId p targetRoute).run d).1 = .rejected .expired ↔
      ¬Timely p.inSeal fed.maxTtlSecs stored.createdAt d.clock.utc := by
  cases emission with
  | plain route exposure ts =>
    obtain ⟨rfl, rfl⟩ := Prod.mk.inj (Option.some.inj shown)
    obtain rfl := Option.some.inj welcome.opens
    have created := outgoing_createdAt K ts exposure peer route stored
    change ((fedIngress _ _ _ _ _).run d).1 = _ ↔ _
    rw [fedIngress_expired_iff welcome, bound_eq_none_iff]
    rw [created]
    rfl
  | sealed route exposure ts seed expires key read read' read'' fine fine' fine'' resolved header =>
    obtain ⟨rfl, rfl⟩ := Prod.mk.inj (Option.some.inj shown)
    have keyed := seals read read' key fine fine' resolved
    have created : env.createdAt = stored.createdAt :=
      (keyed.createdAt_eq (openSeal_of_opens welcome.opens)).trans
        (outgoing_createdAt ..)
    rw [same read'' fine''] at header
    have deadline := checkedAdd_eq_some header
    change ((fedSealedIngress _ _ _ _ _).run d).1 = _ ↔ _
    rw [fedSealedIngress_expired_iff welcome (keyed.alg _ _ _ _), keyed.expiry,
      bound_eq_none_iff, created, deadline]
    constructor
    · rintro (late | untimely) timely
      · exact absurd (timely.header rfl) (Int.not_lt.mpr late)
      · exact untimely { timely with header := nofun }
    · intro untimely
      by_cases late : timestamp (stored.createdAt + seconds fed.maxTtlSecs) ≤ timestamp d.clock.utc
      · exact .inl late
      · refine .inr (fun timely => untimely { timely with header := fun _ => ?_ })
        exact Int.not_le.mp late

end Ends

/-- The peer lets a frame pass as unexpired exactly when the time is in the window of the creation
time that the message claims, and during the whole lifetime that the sender gave it exactly when the
window holds that lifetime. -/
theorem unexpired_iff_timely {K K' : Crypto} {io : Faults} {a : Arrival} {sender receiver : Daemon}
    {ok : Daemon → Prop} {del : Delivery} {now : Int} {stored env : Envelope}
    {peer peerNodeId targetRoute : String} {frame : Fed} {p : Presentation} {fed : FederationConfig}
    (io' : Faults) (apart : Arrival.Apart a.ids)
    (fresh : sender.store.getMessage a.ids.message = none)
    (accepted : ((a.handle K io).run sender).2.store.getMessage a.ids.message = some stored)
    (positive : 0 < sender.cfg.ttlDefaultSecs)
    (same : ∀ d, ok d → d.cfg.federation.elim 86400 FederationConfig.maxTtlSecs = fed.maxTtlSecs)
    (seals : ∀ read read' key, ok read → ok read' → sealedKeyOf K read read' peer = some key →
      K.Seals K' key)
    (emission : Emission K ok del now stored peer frame)
    (shown : frame.presentation = some (p, targetRoute))
    (welcome : Welcome K' peerNodeId p env fed receiver) :
    (∀ t, ((present K' io' peerNodeId p targetRoute).run (receiver.atUtc t)).1 ≠ .rejected
      .expired ↔ Timely p.inSeal fed.maxTtlSecs (claimedCreation a.createdAt sender.clock.utc) t) ∧
    ((∀ t, sender.clock.utc ≤ t → t < stored.expiresAt →
        ((present K' io' peerNodeId p targetRoute).run (receiver.atUtc t)).1 ≠ .rejected .expired) ↔
      Lasting p.inSeal fed.maxTtlSecs sender.cfg.ttlDefaultSecs
        (claimedCreation a.createdAt sender.clock.utc) sender.clock.utc) := by
  have is := Arrival.stored_eq apart fresh accepted
  have created : stored.createdAt = claimedCreation a.createdAt sender.clock.utc := by rw [is]; rfl
  have expires : stored.expiresAt = sender.clock.utc + seconds sender.cfg.ttlDefaultSecs := by
    rw [is]
    rfl
  have each : ∀ t, ((present K' io' peerNodeId p targetRoute).run (receiver.atUtc t)).1 ≠
      .rejected .expired ↔
        Timely p.inSeal fed.maxTtlSecs (claimedCreation a.createdAt sender.clock.utc) t := by
    intro t
    have refused := expired_iff io' same seals emission shown (welcome.atUtc t)
    rw [created] at refused
    rw [ne_eq, refused, not_not]
    rfl
  refine ⟨each, ?_⟩
  rw [← forall_timely_iff positive, expires]
  constructor
  · exact fun passes t begun going => (each t).mp (passes t begun going)
  · exact fun timely t begun going => (each t).mpr (timely t begun going)

def Crypto.dated (node : String) : Crypto :=
  { Crypto.clear node with
    encode := fun env => match env.createdAt with
      | .ofNat n => 0 :: (Nat.digits 256 n).map UInt8.ofNat
      | .negSucc n => 1 :: (Nat.digits 256 n).map UInt8.ofNat
    decode := fun bytes => match bytes with
      | [] => none
      | sign :: rest =>
        let n := Nat.ofDigits 256 (rest.map UInt8.toNat)
        some { Envelope.hello ⟨7⟩ with createdAt := if sign = 0 then .ofNat n else .negSucc n } }

theorem Crypto.dated_seals (node node' : String) (key : Bytes) :
    (Crypto.dated node).Seals (Crypto.dated node') key := by
  refine ⟨fun _ _ _ _ => rfl, fun _ _ _ _ => rfl, fun _ _ _ _ => rfl, ?_⟩
  intro env env' decoded
  unfold dated at decoded
  dsimp only at decoded
  cases created : env.createdAt with
  | ofNat n | negSucc n =>
    rw [created] at decoded
    dsimp only at decoded
    rw [ofDigits_bytes] at decoded
    rw [← Option.some.inj decoded]
    rfl

def Arrival.claiming (createdAt : Option Int) : Arrival :=
  ⟨⟨⟨7⟩, ⟨8⟩, ⟨9⟩⟩, "x", "lobby", "ann", "text", "hello", createdAt, [], none⟩

private def queuedRow : Delivery :=
  ⟨1, ⟨7⟩, "in", ⟨"fed", "hub/in"⟩, 2, 0, .pending, none, 0, none, seconds 3600, 0, 0⟩

private def sealedArrival : SealedEnvelope :=
  (Crypto.dated "rf:a").sealBytes 0 ((Crypto.dated "rf:a").encode (outgoing (.dated "rf:a") 0
    "pseudonymous" "hub" "in" ((Arrival.claiming none).envelope (.dated "rf:a") (.relay "sealed"))))
    (Uuid.toText ⟨7⟩) 3600 []

/-- A message without a claim, sealed for a hub with the same maximal lifetime, passes there during
its whole lifetime because the relay received it on a whole second. -/
theorem unexpired_iff_timely_sealed :
    (∀ t, 0 ≤ t → t < seconds 3600 →
      ((present (.dated "rf:hub") .none "rf:a" (.sealed sealedArrival)
      "in").run ((Daemon.small .empty).atUtc t)).1 ≠ .rejected .expired) ∧
        Lasting true 3600 3600 0 0 := by
  have emission : Emission (.dated "rf:a") (fun d => d = .relay "sealed") queuedRow 0
      ((Arrival.claiming none).envelope (.dated "rf:a") (.relay "sealed")) "hub"
      (.sealed sealedArrival "in") :=
    .sealed "in" "pseudonymous" 0 0 (seconds 3600) [] (.relay "sealed") (.relay "sealed")
      (.relay "sealed") rfl rfl rfl (by decide +kernel) (by decide +kernel) (by decide +kernel) rfl
      (by decide +kernel) (by decide +kernel)
  have welcome : Welcome (.dated "rf:hub") "rf:a" (.sealed sealedArrival) (.hello ⟨7⟩)
      ⟨"unknown", 4, 3600, "pseudonymous", ["in"], [⟨"hub", "rf:hub", "unknown", 0, none⟩], [], []⟩
      (.small .empty) :=
    ⟨by decide +kernel, rfl, by decide +kernel, by decide +kernel, rfl, by decide +kernel,
      by decide +kernel⟩
  have accepted : (((Arrival.claiming none).handle (.dated "rf:a") .none).run
      (.relay "sealed")).2.store.getMessage (Arrival.claiming none).ids.message =
        some ((Arrival.claiming none).envelope (.dated "rf:a") (.relay "sealed")) := by
      decide +kernel
  have life := (unexpired_iff_timely .none ⟨by decide, by decide⟩ (by decide +kernel) accepted
    (by decide) (fun d same => by rw [same]; rfl)
    (fun _ _ key _ _ _ => Crypto.dated_seals "rf:a" "rf:hub" key) emission rfl welcome).2
  have lasting : Lasting true 3600 3600 0 0 := by
    refine ⟨?_, ?_, ?_, fun _ => ?_⟩ <;> decide
  exact ⟨life.mpr lasting, lasting⟩

def carried (mode : String) (a : Arrival) (received sent : Int) : Option FedIngressOutcome := do
  let taken := ((a.handle (.dated "rf:a") .none).run ((Daemon.relay mode).atUtc received)).2
  let row ← taken.store.deliveries.rows.head?
  let placed := ((processDue (.dated "rf:a") row sent).run (taken.atUtc sent)).2
  let channel ← placed.fedChannels 1
  let frame ← channel.queue.head?
  let shown ← frame.presentation
  pure ((present (.dated "rf:hub") .none "rf:a" shown.1 shown.2).run
    ((Daemon.small .empty).atUtc sent)).1

/-- A message that claims to be two hours old, or ten minutes ahead, is refused on arrival; one
without a claim, received half a second past a full second, is refused in its last half second when
it is sealed. -/
theorem live_message_expires :
    carried "gateway" (.claiming (some (seconds (-7200)))) 0 0 = some (.rejected .expired) ∧
    carried "sealed" (.claiming (some (seconds (-7200)))) 0 0 = some (.rejected .expired) ∧
    carried "gateway" (.claiming (some (seconds 600))) 0 0 = some (.rejected .expired) ∧
    carried "sealed" (.claiming (some (seconds 600))) 0 0 = some (.rejected .expired) ∧
    carried "sealed" (.claiming none) 500000000 (seconds 3600 + 200000000) =
      some (.rejected .expired) ∧
    carried "gateway" (.claiming none) 500000000 (seconds 3600 + 200000000) =
      some (.accepted ⟨7⟩) := by
  refine ⟨?_, ?_, ?_, ?_, ?_, ?_⟩ <;> decide +kernel

end RelayFabric
