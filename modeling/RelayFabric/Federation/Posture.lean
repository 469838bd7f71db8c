/- source: engine.rs (process_due_fed, process_due_fed_sealed, apply_config)
   digest: What becomes of a row that was queued while its route was sealed. -/

import RelayFabric.Delivery.Node

namespace RelayFabric

open Lib Option

def Config.keepsSealed (cfg : Config) (route : String) : Bool :=
  (cfg.routeCfg route).all (fun routeCfg => routeCfg.securityMode == "sealed")

def Move.keepsSealed (route : String) (σ : Node) : Move → Bool
  | .outside change => (change σ.d).cfg.keepsSealed route
  | .pump | .purge | .spawn _ | .call _ | .restart => true

def Visited (K : Crypto) (σ : Node) (moves : List Move) (d : Daemon) : Prop :=
  ∃ done reached, done <+: moves ∧ Node.run K done σ = some reached ∧ reached.d = d

def Hands (σ σ' : Node) (n : Nat) (frame : Fed) : Prop :=
  ∃ tx c c', σ.pump.label? = some (.sendFed n tx) ∧ σ.d.fedChannels tx = some c ∧
    c.trySend frame = some c' ∧ σ'.d.fedChannels tx = some c'

def SealedFor (K : Crypto) (visited : Daemon → Prop) (endpoint : String) (frame : Fed) : Prop :=
  ∃ peer route key read read' seed plain id expires, fedTarget endpoint = some (peer, route) ∧
    visited read ∧ visited read' ∧ sealedKeyOf K read read' peer = some key ∧
      frame = .sealed (K.sealBytes seed plain id expires key) route

theorem NodeEffect.hands {good : Delivery → Nat → Fed → Prop} {ok : Daemon → Prop} {σ σ' : Node}
    {v v' : View} {n : Nat} {frame : Fed} (effect : NodeEffect good ok σ v .pump σ' v')
    (hands : Hands σ σ' n frame) : ∃ del tx, del ∈ v.held ∧ del.id = n ∧ good del tx frame := by
  obtain ⟨tx, c, c', label, before, took, after⟩ := hands
  have grown := (Channel.room_of_trySend took).2
  have changed {d' : Daemon} (same : d'.fedChannels tx = σ.d.fedChannels tx)
      (after : d'.fedChannels tx = some c') : False := by
    rw [same, before] at after
    cases after
    have lengths := congrArg (fun c => c.queue.length) grown
    simp at lengths
  cases effect with
  | quiet _ _ _ store placed base same view time =>
    exact (changed (by rw [same nofun]) after).elim
  | snapshot now pump idle => exact (changed rfl after).elim
  | sweep now l d' pump idle does => exact (changed (by rw [does.2.fedChannels]) after).elim
  | attempt now del q' l d' pump held time labelled current does =>
    obtain rfl : l = .sendFed n tx := Option.some.inj (labelled.symm.trans label)
    generalize handed : Section.sendFed n tx = l at does
    generalize v.phase = q at does
    cases does with
    | look _ _ _ _ clear store budget wires =>
      exact (changed (by rw [wires.fedChannels]) after).elim
    | placeFed _ tx' c₀ c₁ frame' is found took' =>
      obtain ⟨rfl, rfl⟩ := Section.sendFed.inj handed
      obtain rfl := Option.some.inj (before.symm.trans found)
      have placed : some c₁ = some c' := by
        rw [← after]
        simp [Map.insert_apply]
      cases placed
      have queues := congrArg Channel.queue ((Channel.room_of_trySend took').2.symm.trans grown)
      obtain rfl : frame' = frame := by simpa using queues
      exact ⟨del, tx, List.mem_of_head? held, rfl, is⟩
    | away | hold | charge | terminate | postpone | attempt | placePlugin | refuse | requeue =>
      exact (changed rfl after).elim

structure Daemon.Blank (d : Daemon) : Prop where
  routes : d.cfg.routes = []
  federation : d.cfg.federation = none
  adverts : d.store.peerAdverts = []

def Closed (visited : Daemon → Prop) (route : String) (d : Daemon) : Prop :=
  (visited d ∧ d.cfg.keepsSealed route = true) ∨ d.Blank

def sealedOnly (K : Crypto) (visited : Daemon → Prop) (n : Nat) (route : String) (del : Delivery)
    (_ : Nat) (frame : Fed) : Prop :=
  del.id = n → del.route = route → SealedFor K visited del.destination.endpoint frame

section Emission

variable {K : Crypto} {visited : Daemon → Prop} {n : Nat} {route : String}

private theorem sealedKeyOf_blank {read read' : Daemon} {peer : String} {key : Bytes}
    (blank : read'.Blank) (resolved : sealedKeyOf K read read' peer = some key) :
    sealedKeyOf K read read peer = some key := by
  unfold sealedKeyOf at resolved ⊢
  cases found : read.cfg.peer? peer with
  | none =>
    rw [found] at resolved
    cases resolved
  | some entry =>
    rw [found] at resolved
    have none : (read'.store.listPeerAdverts read'.clock.utc) = [] := by
      unfold Store.listPeerAdverts
      rw [blank.adverts]
      rfl
    cases pin : entry.sealedKey with
    | none => simp [none, pin] at resolved
    | some key => simpa [pin] using resolved

theorem Emission.sealedOnly {del : Delivery} {now : Int} {stored : Envelope} {peer : String}
    {tx : Nat}
    {frame : Fed} (emission : Emission K (Closed visited route) del now stored peer frame) :
    sealedOnly K visited n route del tx frame := by
  intro _ named
  cases emission with
  | plain remote exposure ts read fine cfg found mode =>
    rw [named] at found
    rcases fine with ⟨_, closed⟩ | blank
    · simp [Config.keepsSealed, found, mode] at closed
    · simp [Config.routeCfg, blank.routes] at found
  | sealed remote exposure ts seed expires key read read' read'' fine fine' fine'' resolved
      header fits protocol target live =>
      rcases fine with ⟨seen, _⟩ | blank
      · rcases fine' with ⟨seen', _⟩ | blank'
        · exact ⟨peer, remote, key, read, read', seed, _, _, _, target, seen, seen', resolved, rfl⟩
        · exact ⟨peer, remote, key, read, read, seed, _, _, _, target, seen, seen,
            sealedKeyOf_blank blank' resolved, rfl⟩
      · simp [sealedKeyOf, Config.peer?, blank.federation] at resolved

end Emission

section Restrict

variable {K : Crypto} {visited : Daemon → Prop} {n : Nat} {route : String}

end Restrict

structure Posed (K : Crypto) (visited : Daemon → Prop) (n : Nat) (route : String) (dest : Endpoint)
    (v : View) (σ : Node) : Prop where
  node : σ.Inv (sealedOnly K visited n route) (Closed visited route) v
  closed : σ.d.cfg.keepsSealed route = true
  born : n < σ.d.store.deliveries.next
  row : ∀ r, σ.d.store.row n = some r → r.route = route ∧ r.destination = dest
  copies : ∀ del ∈ v.held, del.id = n → del.route = route ∧ del.destination = dest

section Run

variable {K : Crypto} {visited : Daemon → Prop} {n : Nat} {route : String} {dest : Endpoint}
    {v v' : View}
  {σ σ' : Node}

theorem Posed.effect (posed : Posed K visited n route dest v σ) (seen : visited σ.d) {a : Move}
    (step : Node.step K a σ = some σ') :
    ∃ v', NodeEffect (sealedOnly K visited n route) (Closed visited route) σ v a σ' v' ∧
      σ'.Inv (sealedOnly K visited n route) (Closed visited route) v' :=
  Node.step_effect (fun _ _ _ _ _ _ _ _ _ _ _ _ emission => emission.sealedOnly) step posed.node
    (.inl ⟨seen, posed.closed⟩)

theorem Posed.step (posed : Posed K visited n route dest v σ) (seen : visited σ.d) {a : Move}
    (keeps : a.keepsSealed route σ = true) (step : Node.step K a σ = some σ') :
    ∃ v', Posed K visited n route dest v' σ' := by
  obtain ⟨v', effect, node⟩ := posed.effect seen step
  have closed : σ'.d.cfg.keepsSealed route = true := by
    by_cases inner : ∀ change, a ≠ .outside change
    · rw [(effect.settings inner).1]
      exact posed.closed
    · obtain ⟨change, same⟩ := not_forall.mp inner
      obtain rfl := not_not.mp same
      cases step
      exact keeps
  have row : ∀ r, σ'.d.store.row n = some r → r.route = route ∧ r.destination = dest := by
    intro r' found
    rcases effect.address found with ⟨unborn, _⟩ | ⟨r, before, same⟩
    · exact absurd posed.born (Nat.not_lt.mpr unborn)
    · obtain ⟨named, addressed⟩ := posed.row r before
      exact ⟨same.route.trans named, same.destination.trans addressed⟩
  refine ⟨v', node, closed, posed.born.trans_le effect.next_le, row, fun del member is => ?_⟩
  rcases effect.held member with old | new
  · exact posed.copies del old is
  · exact row del (is ▸ new)

theorem Posed.run {moves : List Move} {start : Node} (rest : List Move) :
    ∀ (done : List Move) (v : View) (σ : Node), done ++ rest = moves →
      Node.run K done start = some σ → Posed K (Visited K start moves) n route dest v σ →
        Meets (Node.step K) (fun a σ => a.keepsSealed route σ = true) rest σ →
          ∀ σ', Node.run K rest σ = some σ' → Visited K start moves σ'.d ∧
            ∃ v', Posed K (Visited K start moves) n route dest v' σ' := by
  induction rest with
  | nil =>
    intro done v σ whole reached posed _ σ' run
    cases run
    exact ⟨⟨done, σ, ⟨[], whole⟩, reached, rfl⟩, v, posed⟩
  | cons a rest ih =>
    intro done v σ whole reached posed meets σ' run
    obtain ⟨middle, step, later⟩ := bind_eq_some_iff.mp run
    have seen : Visited K start moves σ.d := ⟨done, σ, ⟨a :: rest, whole⟩, reached, rfl⟩
    obtain ⟨v', posed'⟩ := posed.step seen meets.1 step
    exact ih (done ++ [a]) v' middle (by simpa using whole) (runAll_concat reached step) posed'
      (meets.2 middle step) σ' later

theorem Posed.hands (posed : Posed K visited n route dest v σ) (seen : visited σ.d)
    (step : Node.step K .pump σ = some σ') {frame : Fed} (hands : Hands σ σ' n frame) :
    SealedFor K visited dest.endpoint frame := by
  obtain ⟨v', effect, _⟩ := posed.effect seen step
  obtain ⟨del, tx, held, same, is⟩ := effect.hands hands
  obtain ⟨named, addressed⟩ := posed.copies del held same
  rw [← addressed]
  exact is same named

end Run

def Node.relay : Node := ⟨Daemon.relay "sealed", .idle, [], fun _ => 0⟩

def arrivalMoves : List Move :=
  .spawn (.inbound .none ⟨⟨7⟩, ⟨8⟩, ⟨9⟩⟩ "x" "lobby" "ann" "text" "hello" none [] none) ::
    List.replicate 6 (.call 0)

def swapMoves (mode : String) (pumps : Nat) : List Move :=
  .outside (Daemon.applyConfig { (Daemon.relay mode).cfg with
    policies := [⟨"no-b", ["b"], ⟨none, [], true, none, none⟩⟩] }) :: List.replicate pumps .pump

private def handover (mode : String) (pumps : Nat) : Option (Node × Node × Node × Node) :=
  (Node.run (.clear "rf:a") arrivalMoves .relay).bind (fun σ₁ =>
    (Node.step (.clear "rf:a") (.call 0) σ₁).bind (fun start =>
      (Node.run (.clear "rf:a") (swapMoves mode pumps) start).bind (fun σ =>
        (Node.step (.clear "rf:a") .pump σ).map (fun σ' => (σ₁, start, σ, σ')))))

private def handed (frame : Fed) (states : Node × Node × Node × Node) : Prop :=
  states.1.d.store.row 1 = none ∧
    ((states.2.1.d.store.row 1).bind (fun r =>
      (states.2.1.d.cfg.routeCfg r.route).map RouteConfig.securityMode)) = some "sealed" ∧
    states.2.2.1.pump.label? = some (.sendFed 1 1) ∧
    ((states.2.2.1.d.fedChannels 1).bind (fun c => c.trySend frame)).isSome = true ∧
    ((states.2.2.1.d.fedChannels 1).bind (fun c => c.trySend frame)) = states.2.2.2.d.fedChannels 1

private instance (frame : Fed) (states : Node × Node × Node × Node) :
    Decidable (handed frame states) :=
  inferInstanceAs (Decidable (_ ∧ _))

end RelayFabric
