/- source: engine.rs (fed_ingress, fed_sealed_ingress, check_chain_shape, process_due_fed)
   digest: How the hop count grows along forwarding paths, and the path that nothing bounds. -/

import RelayFabric.Delivery.Attempt
import RelayFabric.Federation.Verdict
import Mathlib.Data.List.Chain

namespace RelayFabric

open List Lib

/-- One acceptance of federated ingress, at one gateway with a valid hop limit. -/
structure Stop where
  K : Crypto
  io : Faults
  peerNodeId : String
  shown : Presentation
  targetRoute : String
  before : Daemon
  fed : FederationConfig
  env : Envelope
  id : Uuid
  configured : before.cfg.federation = some fed
  valid : 1 ≤ fed.maxHops ∧ fed.maxHops < 2 ^ 32
  opens : shown.envelope? K = some env
  accepted : ((present K io peerNodeId shown targetRoute).run before).1 = .accepted id

namespace Stop

def after (s : Stop) : Daemon :=
  ((present s.K s.io s.peerNodeId s.shown s.targetRoute).run s.before).2

def Plain (s : Stop) : Prop := ∃ env, s.shown = .plain env

def Forwards (s next : Stop) : Prop :=
  ∃ del now stored peer frame, del.messageId = s.id ∧ s.after.store.getMessage s.id = some stored ∧
    Emission s.K (fun _ => True) del now stored peer frame ∧
      frame.presentation = some (next.shown, next.targetRoute)

theorem acceptance (s : Stop) : Acceptance s.io s.before s.after s.env s.targetRoute s.id := by
  have effect := present_effect s.K s.io s.peerNodeId s.shown s.targetRoute s.before
  obtain ⟨env, opens, acceptance⟩ := effect.accepted s.accepted
  obtain rfl : env = s.env := Option.some.inj (opens.symm.trans s.opens)
  exact acceptance

theorem hops_lt (s : Stop) (plain : s.Plain) : s.env.hops < s.fed.maxHops := by
  obtain ⟨env, shown⟩ := plain
  have opens := s.opens
  have accepted := s.accepted
  rw [shown] at opens accepted
  obtain rfl : env = s.env := Option.some.inj opens
  change ((fedIngress s.K s.io s.peerNodeId s.env s.targetRoute).run s.before).1 = _ at accepted
  rw [fedIngress_run] at accepted
  cases gate : fedGate s.K s.before s.peerNodeId s.env s.targetRoute with
  | error refusal =>
    rw [gate] at accepted
    cases accepted
  | ok passed =>
    obtain ⟨fed, through, below⟩ := fedGate_ok gate
    obtain rfl : fed = s.fed := Option.some.inj (through.federation.symm.trans s.configured)
    exact below

theorem outgoing_hops (s : Stop) {stored : Envelope}
    (kept : s.after.store.getMessage s.id = some stored) (ts : Int) (exposure peer route : String) :
    (outgoing s.K ts exposure peer route stored).hops = (s.env.hops + 1) % 2 ^ 32 := by
  obtain ⟨priority, expires, copy⟩ := s.acceptance.copy
  obtain rfl := Option.some.inj (kept.symm.trans copy)
  obtain ⟨sender, origin, link, same⟩ := outgoing_eq s.K ts exposure peer route
    { s.env with priority := priority, expiresAt := expires, receivedAt := s.before.clock.utc }
  rw [same]

theorem outgoing_hops_succ (s : Stop) (plain : s.Plain) {stored : Envelope}
    (kept : s.after.store.getMessage s.id = some stored) (ts : Int) (exposure peer route : String) :
    (outgoing s.K ts exposure peer route stored).hops = s.env.hops + 1 := by
  have below := s.hops_lt plain
  have valid := s.valid.2
  rw [s.outgoing_hops kept]
  exact Nat.mod_eq_of_lt (by omega)

theorem Forwards.succ {s next : Stop} (forwards : s.Forwards next) (plain : s.Plain)
    (plain' : next.Plain) : next.env.hops = s.env.hops + 1 := by
  obtain ⟨del, now, stored, peer, frame, _, kept, emission, handed⟩ := forwards
  obtain ⟨env, shown⟩ := plain'
  have opens := next.opens
  rw [shown] at handed opens
  obtain rfl : env = next.env := Option.some.inj opens
  cases emission with
  | plain route exposure ts =>
    have same := congrArg Prod.fst (Option.some.inj handed)
    rw [← Presentation.plain.inj same]
    exact s.outgoing_hops_succ plain kept ..
  | sealed => cases handed

end Stop

/-- The hop bound along a forwarding path: no acceptance at or over the limit, every forwarded copy
one hop further, and no more acceptances in a row than the largest limit on the path. -/
structure HopBound (path : List Stop) : Prop where
  gate : ∀ s ∈ path, s.env.hops < s.fed.maxHops
  copies : ∀ s ∈ path, ∀ stored, s.after.store.getMessage s.id = some stored →
    ∀ ts exposure peer route, (outgoing s.K ts exposure peer route stored).hops = s.env.hops + 1
  rises : path.IsChain (fun s next => next.env.hops = s.env.hops + 1)
  short : ∀ maxHops, (∀ s ∈ path, s.fed.maxHops ≤ maxHops) → path.length ≤ maxHops

private theorem exists_hops_add_length (path : List Stop) :
    ∀ s, (s :: path).IsChain (fun s next => next.env.hops = s.env.hops + 1) →
      ∃ last ∈ s :: path, last.env.hops = s.env.hops + path.length := by
  induction path with
  | nil => exact fun s _ => ⟨s, mem_singleton.mpr rfl, rfl⟩
  | cons next rest ih =>
    intro s rises
    obtain ⟨step, tail⟩ := isChain_cons_cons.mp rises
    obtain ⟨last, member, count⟩ := ih next tail
    refine ⟨last, mem_cons_of_mem s member, ?_⟩
    rw [count, step, length_cons]
    omega

/-- Along every forwarding path whose acceptances all came in gateway mode the hop bound holds,
whatever hop count the peer chose that started it. -/
theorem hop_bound (path : List Stop) (forwarded : path.IsChain Stop.Forwards)
    (gateway : ∀ s ∈ path, s.Plain) : HopBound path := by
  have gate : ∀ s ∈ path, s.env.hops < s.fed.maxHops := fun s member => s.hops_lt (gateway s member)
  have rises : path.IsChain (fun s next => next.env.hops = s.env.hops + 1) :=
    forwarded.imp_of_mem_imp (fun s next member member' forwards =>
      forwards.succ (gateway s member) (gateway next member'))
  refine ⟨gate, fun s member stored kept => s.outgoing_hops_succ (gateway s member) kept, rises, ?_⟩
  intro maxHops limits
  cases path with
  | nil => exact Nat.zero_le maxHops
  | cons s rest =>
    obtain ⟨last, member, count⟩ := exists_hops_add_length rest s rises
    have below := gate last member
    have limit := limits last member
    rw [length_cons]
    omega

private def relayFederation : FederationConfig :=
  ⟨"unknown", 4, 3600, "pseudonymous", ["in"],
    [⟨"hub", "rf:hub", "unknown", 0, some "key"⟩], [], []⟩

def Stop.first : Stop where
  K := .clear "rf:a"
  io := .none
  peerNodeId := "rf:x"
  shown := .plain (.hello ⟨7⟩)
  targetRoute := "in"
  before := .relay "gateway"
  fed := relayFederation
  env := .hello ⟨7⟩
  id := ⟨7⟩
  configured := rfl
  valid := by decide
  opens := rfl
  accepted := by decide +kernel

private def relayRow : Delivery :=
  ⟨1, ⟨7⟩, "in", ⟨"fed", "hub/in"⟩, 2, 0, .pending, none, 0, none, seconds 3600, 0, 0⟩

def Stop.second : Stop where
  K := .clear "rf:hub"
  io := .none
  peerNodeId := "rf:a"
  shown := .plain (outgoing (.clear "rf:a") 0 "full" "hub" "in" (.hello ⟨7⟩))
  targetRoute := "in"
  before := .relay "gateway"
  fed := relayFederation
  env := outgoing (.clear "rf:a") 0 "full" "hub" "in" (.hello ⟨7⟩)
  id := ⟨7⟩
  configured := rfl
  valid := by decide
  opens := rfl
  accepted := by decide +kernel

private theorem first_forwards : Stop.first.Forwards Stop.second := by
  have kept : Stop.first.after.store.getMessage Stop.first.id = some (.hello ⟨7⟩) := by
    decide +kernel
  refine ⟨relayRow, 0, .hello ⟨7⟩, "hub", _, rfl, kept,
    .plain "in" "full" 0 (.relay "gateway") trivial
      ⟨"in", [⟨"x", "lobby"⟩], [⟨"fed", "hub/in"⟩], "pseudonymous", ⟨"alias", 0⟩, "gateway", none⟩
      (by decide +kernel) (by decide) rfl (by decide +kernel) (by decide), rfl⟩

theorem hop_bound_relay_hub :
    [Stop.first, Stop.second].IsChain Stop.Forwards ∧ HopBound [Stop.first, Stop.second] ∧
      Stop.first.env.hops = 0 ∧ Stop.second.env.hops = 1 := by
  have forwarded : [Stop.first, Stop.second].IsChain Stop.Forwards :=
    isChain_pair.mpr first_forwards
  have gateway : ∀ s ∈ [Stop.first, Stop.second], s.Plain := by
    intro s member
    rcases mem_pair.mp member with rfl | rfl
    · exact ⟨_, rfl⟩
    · exact ⟨_, rfl⟩
  exact ⟨forwarded, hop_bound _ forwarded gateway, rfl, by decide⟩

def Stop.sealed : Stop where
  K := { Crypto.clear "rf:a" with
    decode := fun _ => some { Envelope.hello ⟨7⟩ with hops := 2 ^ 32 - 1 } }
  io := .none
  peerNodeId := "rf:x"
  shown := .sealed ⟨sealAlgV1, "7", 3600, [], [], []⟩
  targetRoute := "in"
  before := .relay "gateway"
  fed := relayFederation
  env := { Envelope.hello ⟨7⟩ with hops := 2 ^ 32 - 1 }
  id := ⟨7⟩
  configured := rfl
  valid := by decide
  opens := rfl
  accepted := by decide +kernel

/-- Nothing on the sealed path looks at the hop count: the limit is four, the accepted count is the
largest `u32`, and the copies sent on start again at zero. -/
theorem sealed_hops_wrap : [Stop.sealed].IsChain Stop.Forwards ∧ Stop.sealed.fed.maxHops = 4 ∧
    Stop.sealed.env.hops = 2 ^ 32 - 1 ∧
      (∃ stored, Stop.sealed.after.store.getMessage ⟨7⟩ = some stored ∧
      ∀ ts exposure peer route, (outgoing Stop.sealed.K ts exposure peer route stored).hops = 0) ∧
        ¬HopBound [Stop.sealed] := by
  obtain ⟨priority, expires, copy⟩ := Stop.sealed.acceptance.copy
  refine ⟨isChain_singleton _, rfl, rfl, ⟨_, copy, fun ts exposure peer route => ?_⟩,
    fun bound => ?_⟩
  · exact Stop.sealed.outgoing_hops copy ..
  · exact absurd (bound.gate _ (mem_singleton.mpr rfl)) (by decide)

end RelayFabric
