/- source: engine.rs (process_due_fed, fed_ingress, check_chain_shape), fed/sign.rs, storage.rs
   digest: Envelopes that travel over honest gateways, and the chain that every receiver finds. -/

import RelayFabric.Wire.Frame
import RelayFabric.Wire.Sign

namespace RelayFabric

open List Lib
open Lib.Cbor (Value)

def Platform.crypto (P : Platform) (base : Crypto) : Crypto :=
  { base with
    verifyChain := fun env => decide (verifyChain P env = .ok ())
    signOrigin := signOrigin P base.nodeId
    attest := fun env ts => chainLink P base.nodeId env (env.tailSig.getD []) ts
    encode := Envelope.encode P.toChrono
    decode := Envelope.decode P.toChrono }

def Platform.HasKey (P : Platform) (node : String) : Prop :=
  ∀ msg, P.verify node msg (P.sign node msg) = true

/-- One gateway's egress and its peer's reader: the stored row is read, the envelope signed,
attested and counted, and then read back from the frame, or from the bytes that a seal carried. -/
def crossing (P : Platform) (J : Json) (base : Crypto) (ts : Int) (exposure peer route : String)
    (sealing : Bool) (stored : Envelope) : Option Envelope := do
  let loaded ← Envelope.ofJson P.toChrono J (stored.toJson P.toChrono J)
  let out := outgoing (P.crypto base) ts exposure peer route loaded
  if sealing then Envelope.decode P.toChrono (out.encode P.toChrono)
  else match decodeTagged P.toChrono "envelope" (Fed.encode P.toChrono (.envelope out route)) with
    | some (.envelope env _) => some env
    | _ => none

structure InMemory (P : Platform) (base : Crypto) (ts : Int) (exposure peer route : String)
    (stored : Envelope) : Prop where
  row : stored.Held
  out : (outgoing (P.crypto base) ts exposure peer route stored).Held
  route : Short route

/-- A path of honest gateways: how many sent the envelope on, the id of the last of them, the
envelope as its origin signed it and the envelope that the last one's peer reads. -/
inductive Travels (P : Platform) (J : Json) : Nat → String → Envelope → Envelope → Prop
  | depart {base : Crypto} {a : Arrival} {d : Daemon} {ts : Int} {exposure peer route : String}
      {sealing : Bool} {env : Envelope} (key : P.HasKey base.nodeId)
      (holds : InMemory P base ts exposure peer route (a.envelope (P.crypto base) d))
      (leaves : crossing P J base ts exposure peer route sealing (a.envelope (P.crypto base) d) =
        some env) :
      Travels P J 1 base.nodeId
        (signedOrigin (P.crypto base) exposure peer route (a.envelope (P.crypto base) d)) env
  | relay {n : Nat} {node : String} {origin env : Envelope} {base : Crypto} {io : Faults}
      {shown : Presentation} {priority targetRoute : String} {d : Daemon} {id : Uuid}
      {stored : Envelope} {ts : Int} {exposure peer route : String} {sealing : Bool}
      {next : Envelope} (arrives : Travels P J n node origin env) (key : P.HasKey base.nodeId)
      (reads : shown.envelope? (P.crypto base) = some { env with priority := priority })
      (accepted : ((present (P.crypto base) io node shown targetRoute).run d).1 = .accepted id)
      (kept : ((present (P.crypto base) io node shown targetRoute).run d).2.store.getMessage id =
        some stored)
      (holds : InMemory P base ts exposure peer route stored)
      (leaves : crossing P J base ts exposure peer route sealing stored = some next) :
      Travels P J (n + 1) base.nodeId origin next

section Path

variable {P : Platform} {J : Json}

variable {base : Crypto} {env origin : Envelope} {n : Nat} {node : String}

theorem crossing_eq (faithful : P.Faithful) (exact : J.Faithful) {ts : Int}
    {exposure peer route : String} {stored : Envelope}
    (holds : InMemory P base ts exposure peer route stored) (sealing : Bool) :
    crossing P J base ts exposure peer route sealing stored =
      some (outgoing (P.crypto base) ts exposure peer route stored) := by
  unfold crossing
  rw [Envelope.ofJson_toJson exact holds.row faithful.chrono, Option.bind_eq_bind,
    Option.bind_some]
  cases sealing with
  | true => exact Envelope.decode_encode holds.out faithful.chrono
  | false =>
    let frame : Fed := .envelope (outgoing (P.crypto base) ts exposure peer route stored) route
    have read : decodeTagged P.toChrono "envelope" (frame.encode P.toChrono) = some frame :=
      Fed.decodeTagged_encode (show frame ≠ .unknown from nofun)
        (show frame.Held from ⟨holds.out, holds.route⟩) faithful.chrono
    simp only [Bool.false_eq_true, if_false]
    rw [read]

theorem verifyChain_attested (key : P.HasKey base.nodeId) (ts : Int)
    (verified : verifyChain P env = .ok ()) :
    verifyChain P (attested (P.crypto base) ts env) = .ok () := by
  obtain ⟨o, signed, first, links⟩ := verifyChain_ok.mp verified
  refine verifyChain_ok.mpr ⟨o, signed, first, verifyLinks_concat.mpr ⟨links, ?_⟩⟩
  change P.verify base.nodeId _
    (P.sign base.nodeId (attestationMessage P _ (env.tailSig.getD []) ts)) = _
  rw [tailSig_eq signed]
  exact key _

theorem verifyChain_signedOrigin (key : P.HasKey base.nodeId)
    (exposure peer route : String) (unsigned : env.origin = none)
    (unlinked : env.attestations = []) :
    verifyChain P (signedOrigin (P.crypto base) exposure peer route env) = .ok () := by
  unfold signedOrigin
  rw [unsigned]
  refine verifyChain_ok.mpr ⟨_, rfl, key _, ?_⟩
  split_ifs
  · simp [unlinked, verifyLinks]
  · simp [unlinked, verifyLinks]

theorem signedOrigin_of_signed (K : Crypto) (exposure peer route : String) {o : OriginSig}
    (signed : env.origin = some o) : signedOrigin K exposure peer route env = env := by
  unfold signedOrigin
  rw [signed]

structure Relayed (P : Platform) (n : Nat) (node : String) (origin env : Envelope) : Prop where
  verified : verifyChain P env = .ok ()
  links : env.attestations.length = n
  hops : env.hops = n % 2 ^ 32
  last : lastLink env = some node
  same : ∃ priority expires received links hops, env = { origin with
    priority := priority
    expiresAt := expires
    receivedAt := received
    attestations := links
    hops := hops }

theorem Relayed.attested (relayed : Relayed P n node origin env) (key : P.HasKey base.nodeId)
    (ts : Int) :
    Relayed P (n + 1) base.nodeId origin (attested (P.crypto base) ts env) := by
  obtain ⟨priority, expires, received, links, hops, same⟩ := relayed.same
  refine ⟨verifyChain_attested key ts relayed.verified, ?_, ?_, ?_, ?_⟩
  · change (env.attestations ++ [_]).length = n + 1
    rw [length_append, relayed.links]
    rfl
  · change (env.hops + 1) % 2 ^ 32 = (n + 1) % 2 ^ 32
    rw [relayed.hops, Nat.mod_add_mod]
  · change ((env.attestations ++ [_]).getLast?.map Attestation.nodeId).or _ = _
    rw [List.getLast?_concat]
    rfl
  · exact ⟨priority, expires, received, _, _, by rw [same]; rfl⟩

theorem Relayed.stamped (relayed : Relayed P n node origin env) (priority : String)
    (expires received : Int) :
    Relayed P n node origin
      { env with priority := priority, expiresAt := expires, receivedAt := received } := by
  obtain ⟨_, _, _, links, hops, same⟩ := relayed.same
  exact ⟨relayed.verified, relayed.links, relayed.hops, relayed.last, priority, expires, received,
    links, hops, by rw [same]⟩

theorem Travels.relayed (faithful : P.Faithful) (exact : J.Faithful)
    (travels : Travels P J n node origin env) :
    Relayed P n node origin env := by
  induction travels with
  | @depart base a d ts exposure peer route sealing env key holds leaves =>
    rw [crossing_eq faithful exact holds] at leaves
    cases leaves
    -- the envelope as it was signed carries no link, so its last signature is the origin's
    have start : Relayed P 0 base.nodeId
        (signedOrigin (P.crypto base) exposure peer route (a.envelope (P.crypto base) d))
        (signedOrigin (P.crypto base) exposure peer route (a.envelope (P.crypto base) d)) := by
      refine ⟨verifyChain_signedOrigin key exposure peer route rfl rfl, ?_, ?_, ?_, _, _, _,
        _, _, rfl⟩
      all_goals
        unfold signedOrigin
        split_ifs <;> rfl
    exact start.attested key ts
  | @relay n node origin env base io shown priority targetRoute d id stored ts exposure peer route
      sealing next arrives key reads accepted kept holds leaves ih =>
      rw [crossing_eq faithful exact holds] at leaves
      cases leaves
      have effect := present_effect (P.crypto base) io node shown targetRoute d
      obtain ⟨read, opens, acceptance⟩ := effect.accepted accepted
      obtain rfl := Option.some.inj (opens.symm.trans reads)
      obtain ⟨strip, expires, copy⟩ := acceptance.copy
      obtain rfl := Option.some.inj (kept.symm.trans copy)
      have stamped := ih.stamped strip expires d.clock.utc
      obtain ⟨o, signed, _⟩ := verifyChain_ok.mp stamped.verified
      unfold outgoing
      rw [signedOrigin_of_signed _ exposure peer route signed]
      exact stamped.attested key ts

/-- The receiver of an envelope that came over fewer honest gateways than its hop limit verifies the
chain, finds it in shape and as long as the hop count, and every signed field is as its origin
signed it. -/
theorem honest_chain_verifies (faithful : P.Faithful) (exact : J.Faithful) {n : Nat} {node : String}
    {origin env : Envelope} (travels : Travels P J n node origin env) {maxHops : Nat}
    (limit : maxHops < 2 ^ 32) (within : n < maxHops) :
    verifyChain P env = .ok () ∧ checkChainShape env node maxHops = none ∧
      env.attestations.length = n ∧ env.hops = n ∧ env.origin = origin.origin ∧
      canonical P env = canonical P origin ∧
      ∃ priority expires received, env = { origin with
        priority := priority
        expiresAt := expires
        receivedAt := received
        attestations := env.attestations
        hops := env.hops } := by
  have relayed := travels.relayed faithful exact
  obtain ⟨priority, expires, received, links, hops, same⟩ := relayed.same
  have shape : checkChainShape env node maxHops = none := by
    unfold checkChainShape
    rw [relayed.links, relayed.last, if_neg (by omega)]
    simp
  refine ⟨relayed.verified, shape, relayed.links, ?_, ?_, ?_, priority, expires, received, ?_⟩
  · rw [relayed.hops]
    exact Nat.mod_eq_of_lt (by omega)
  · rw [same]
  · rw [same]
    rfl
  · rw [same]

end Path

def Platform.trusting : Platform :=
  { Platform.unsigned with
    sign := fun _ _ => bookToken 0
    verify := fun _ _ sig => decide (sig = bookToken 0) }

private theorem trusting_faithful : Platform.trusting.Faithful := by
  refine ⟨Chrono.gregorian_faithful, fun _ => rfl, fun _ => List.Perm.refl _,
    fun node msg sig verified => ?_⟩
  rw [of_decide_eq_true verified]
  rfl

private theorem trusting_signs (node : String) : (Platform.trusting.crypto (.clear node)).Signs :=
  ⟨fun _ => ⟨rfl, rfl⟩, fun _ _ => ⟨rfl, rfl, rfl⟩⟩

private def localGreeting : Envelope :=
  (Arrival.claiming none).envelope (Platform.trusting.crypto (.clear "rf:a")) (.relay "gateway")

private def hubGreeting : Envelope :=
  outgoing (Platform.trusting.crypto (.clear "rf:a")) 0 "full" "hub" "in" localGreeting

private theorem localGreeting_held : localGreeting.Held := by
  refine ⟨by decide, by decide, by decide, by decide, by decide, by decide, by decide, by decide,
    by decide, by decide, by decide, ⟨by decide, fun a member => absurd member not_mem_nil⟩,
    by decide, nofun, ⟨by decide, fun a member => absurd member not_mem_nil⟩, by decide⟩

private theorem holds_of_held {node : String} (short : Short node) {stored : Envelope}
    (held : stored.Held)
    (room : stored.attestations.length + 1 < 2 ^ 64) :
    InMemory .trusting (.clear node) 0 "full" "hub" "in" stored :=
  ⟨held, Envelope.Held.outgoing (trusting_signs node) short held (by decide)
    (by unfold exposedRef; split <;> exact held.nativeRef) room, by decide⟩

private theorem greeting_travels :
    ∃ origin env, Travels .trusting .compact 2 "rf:hub" origin env := by
  have first := holds_of_held (by decide : Short "rf:a") localGreeting_held (by decide)
  have second :=
    holds_of_held (by decide : Short "rf:hub") (show hubGreeting.Held from first.out) (by decide)
  have key : ∀ node, Platform.trusting.HasKey node := fun node msg => rfl
  have accepted :
    ((present (Platform.trusting.crypto (.clear "rf:hub")) .none "rf:a" (.plain hubGreeting)
      "in").run (.relay "gateway")).1 = .accepted ⟨7⟩ := by decide +kernel
  have kept : ((present (Platform.trusting.crypto (.clear "rf:hub")) .none "rf:a"
    (.plain hubGreeting)
      "in").run (.relay "gateway")).2.store.getMessage ⟨7⟩ = some hubGreeting := by decide +kernel
  have departs := Travels.depart (key "rf:a") first
    (crossing_eq trusting_faithful Json.compact_faithful first false)
  exact ⟨_, _, departs.relay (key "rf:hub") rfl accepted kept second
    (crossing_eq trusting_faithful Json.compact_faithful second false)⟩

theorem honest_chain_verifies_hub : ∃ origin env, Travels .trusting .compact 2 "rf:hub" origin env ∧
    verifyChain .trusting env = .ok () ∧ checkChainShape env "rf:hub" 4 = none ∧
      env.attestations.length = 2 ∧ env.hops = 2 ∧ canonical .trusting env = canonical .trusting
      origin := by
  obtain ⟨origin, env, travels⟩ := greeting_travels
  obtain ⟨verified, shape, links, hops, _, same, _⟩ :=
    honest_chain_verifies trusting_faithful Json.compact_faithful travels (by decide : 4 < 2 ^ 32)
      (by decide)
  exact ⟨origin, env, travels, verified, shape, links, hops, same⟩

end RelayFabric
