/- source: engine.rs (handle_inbound, fed_ingress, fed_sealed_ingress, reject), dedup.rs
   digest: What a DUPLICATE verdict says about the calls before it. -/

import RelayFabric.Federation.Verdict
import RelayFabric.Lib.Run

namespace RelayFabric

open List Lib
open Prog hiding bind run

def AddsKeys (new : String → Prop) (_ : Section) (d d' : Daemon) : Prop :=
  ∀ key, d'.dedup.seen.contains key = true → d.dedup.seen.contains key = true ∨ new key

section AddsKeys

variable {new : String → Prop}

private theorem reads {α : Type} {l : Section} {read : Daemon → α} :
    Always (AddsKeys new) (.observe l read : Engine α) :=
  always_observe (fun _ _ found => .inl found)

private theorem writes {α : Type} {l : Section} {body : Daemon → α × Daemon}
    (same : ∀ d, (body d).2.dedup = d.dedup) :
    Always (AddsKeys new) (.critical l body : Engine α) := by
  refine always_critical (fun d key found => ?_)
  rw [same d] at found
  exact .inl found

end AddsKeys

theorem handleInbound_keys (K : Crypto) (io : Faults) (ids : Draws)
    (plugin endpoint sender kind body : String) (createdAt : Option Int)
    (attachments : List IpcAttachment) (priority : Option String) :
    Always (AddsKeys (fun key => ∃ bytes, key = K.sha256 bytes)) (handleInbound K io ids plugin
      endpoint sender kind body createdAt attachments priority) := by
  refine always_observe_bind (fun _ _ => .inl) (fun read _ => always_bind ?_ (fun cached => ?_))
  · exact always_critical (fun d key found => .inl (Dedup.contains_of_prune found))
  refine always_ite (always_pure _) (always_bind (writes (fun _ => rfl)) (fun allowed => ?_))
  refine always_ite (always_bind (always_modify (fun d key found => ?_)) (fun _ => ?_))
    (always_pure _)
  · rw [Dedup.contains_record, Bool.or_eq_true, decide_eq_true_eq] at found
    rcases found with same | old
    · exact .inr ⟨_, same⟩
    · exact .inl old
  refine always_bind reads (fun now => ?_)
  have spares {p : Engine Unit} (bounds : Footprint.Bounds ⟨false, true, true⟩
      (.arrival io ⟨plugin, endpoint⟩ priority) p) :
      Always (AddsKeys (fun key => ∃ bytes, key = K.sha256 bytes)) p := by
    refine always_mono bounds (fun l d d' does key found => ?_)
    rw [does.keys rfl] at found
    exact .inl found
  have accepts := spares (acceptInbound_bounds rfl K ids read trivial now ⟨plugin, endpoint⟩ sender
    kind body createdAt attachments priority rfl)
  refine always_ite (always_bind reads (fun found => ?_)) accepts
  rcases found with _ | challenge
  · exact always_bind (spares (noteFailedLinkGuess_bounds rfl _ _)) (fun _ => accepts)
  · exact spares (confirmLink_bounds rfl _ _ _)

def Crypto.HexDigests (K : Crypto) : Prop :=
  ∀ bytes, (K.sha256 bytes).toList.length = 64 ∧
    ∀ c ∈ (K.sha256 bytes).toList, c ∈ "0123456789abcdef".toList

def headerKey (m : Uuid) (expiresAt : Int) : String :=
  "sealed:" ++ m.toText ++ ":" ++ toString expiresAt

theorem length_toText (m : Uuid) : m.toText.toList.length = 36 := by
  unfold Uuid.toText
  rw [String.toList_ofList, Uuid.length_chars]

theorem headerKey_ne_toText (m m' : Uuid) (expiresAt : Int) :
    headerKey m expiresAt ≠ m'.toText := by
  intro same
  have lengths := congrArg (fun text : String => text.toList.length) same
  have first := length_toText m
  have second := length_toText m'
  unfold headerKey at lengths
  simp only [String.toList_append, length_append] at lengths
  have scheme : "sealed:".toList.length = 7 := rfl
  omega

variable {m : Uuid} {K : Crypto} {accepted : List Uuid}

theorem headerKey_injective {m' : Uuid} {t t' : Int} (same : headerKey m t = headerKey m' t') :
    m = m' := by
  have texts := congrArg String.toList same
  unfold headerKey at texts
  simp only [String.toList_append, append_assoc] at texts
  have tails := append_cancel_left texts
  have lengths : m.toText.toList.length = m'.toText.toList.length := by
    rw [length_toText, length_toText]
  have heads := (append_inj tails lengths).1
  exact Uuid.toText_injective (String.toList_inj.mp heads)

theorem sha256_ne_toText (hex : K.HexDigests) (bytes : Bytes) (m : Uuid) :
    K.sha256 bytes ≠ m.toText := by
  intro same
  have digest := (hex bytes).1
  rw [same, length_toText] at digest
  exact absurd digest (by decide)

theorem sha256_ne_headerKey (hex : K.HexDigests) (bytes : Bytes) (m : Uuid) (t : Int) :
    K.sha256 bytes ≠ headerKey m t := by
  intro same
  have first : 's' ∈ (headerKey m t).toList := by
    unfold headerKey
    simp only [String.toList_append, mem_append]
    exact .inl (.inl (.inl (by decide)))
  rw [← same] at first
  exact absurd ((hex bytes).2 _ first) (by decide)

/-- A daemon with what its calls have returned: the ids it accepted, and the ids of the messages
that plugin ingress stored. -/
structure Trace where
  d : Daemon
  accepted : List Uuid
  created : Uuid → Bool

namespace Trace

/-- One call with a working store. Around the calls anything may happen but to the stored messages
and the cached keys. -/
def step (K : Crypto) : IngressCall → Trace → Option Trace
  | .inbound ids plugin endpoint sender kind body createdAt attachments priority, t =>
    let d' := ((handleInbound K .none ids plugin endpoint sender kind body createdAt attachments
      priority).run t.d).2
    some { t with
      d := d'
      created := fun m => t.created m ||
        (d'.store.messages.contains m && !t.d.store.messages.contains m) }
  | .present peerNodeId p targetRoute, t =>
    let (outcome, d') := (RelayFabric.present K .none peerNodeId p targetRoute).run t.d
    some { t with d := d', accepted := t.accepted ++ outcome.ids }
  | .around change, t =>
    let d' := change t.d
    some { t with d := { d' with
      store := { d'.store with messages := t.d.store.messages }
      dedup := { d'.dedup with seen := t.d.dedup.seen } } }

abbrev run (K : Crypto) : List IngressCall → Trace → Option Trace := runAll (step K)

structure Start (t : Trace) : Prop where
  messages : ∀ m, t.d.store.messages.contains m = false
  keys : ∀ key, t.d.dedup.seen.contains key = false

end Trace

/-- An authentic envelope that a gate refuses with a record: it comes from a trusted peer with a
good chain, and is outside the replay window, out of hops, or for a route that is not federated. -/
def recordable (K : Crypto) (d : Daemon) (peerNodeId : String) (env : Envelope)
    (targetRoute : String) : Bool :=
  let env := { env with priority := "normal" }
  match d.cfg.federation with
  | none => true
  | some fed =>
    !trustDenied d.store peerNodeId fed.acceptFrom &&
    (checkChainShape env peerNodeId fed.maxHops).isNone && K.verifyChain env &&
    ((boundReplayAndClampTtl d.clock.utc env fed.maxTtlSecs).isNone ||
      decide (fed.maxHops ≤ env.hops) || decide (targetRoute ∉ fed.ingressRoutes) ||
      (d.cfg.routeCfg targetRoute).isNone)

/-- The call records no refusal under an id that has no message row, and a seal that opens names
in its header the message inside. -/
def IngressCall.sound (K : Crypto) (d : Daemon) : IngressCall → Bool
  | .present peerNodeId (.plain env) targetRoute =>
    !recordable K d peerNodeId env targetRoute || d.store.messages.contains env.id
  | .present _ (.sealed frame) _ =>
    (openSeal K frame).toOption.all (fun env => frame.id == env.id.toText)
  | .inbound .. | .around _ => true

theorem recordable_of_gate {d : Daemon} {peerNodeId : String} {env e : Envelope}
    {targetRoute : String} {reason : Reason}
    (gate : fedGate K d peerNodeId env targetRoute = .error ⟨reason, some e⟩) :
    recordable K d peerNodeId env targetRoute = true := by
  unfold fedGate at gate
  unfold recordable
  generalize ({ env with priority := "normal" } : Envelope) = plain at gate ⊢
  cases federation : d.cfg.federation with
  | none => rfl
  | some fed =>
  rw [federation] at gate
  dsimp only at gate ⊢
  split at gate
  · cases gate
  rename_i trusted
  split at gate
  · cases gate
  rename_i shape
  split at gate
  · cases gate
  rename_i unverified
  have verified : K.verifyChain plain = true := by simpa using unverified
  rw [shape]
  split at gate
  · rename_i bound
    simp [trusted, verified, bound]
  rename_i bounded bound
  have hops := hops_of_bound bound
  split at gate
  · rename_i exceeds
    rw [hops] at exceeds
    simp [trusted, verified, exceeds]
  split at gate
  · rename_i unlisted
    simp [trusted, verified, unlisted]
  split at gate
  · rename_i unknown
    simp [trusted, verified, unknown]
  · cases gate

def KnownKey (K : Crypto) (accepted : List Uuid) (key : String) : Prop :=
  (∃ m ∈ accepted, key = m.toText) ∨ (∃ m ∈ accepted, ∃ t, key = headerKey m t) ∨
    ∃ bytes, key = K.sha256 bytes

theorem KnownKey.mono {more : List Uuid} {key : String}
    (known : KnownKey K accepted key) (grows : ∀ m ∈ accepted, m ∈ more) : KnownKey K more key := by
  rcases known with ⟨m, member, same⟩ | ⟨m, member, t, same⟩ | digest
  · exact .inl ⟨m, grows m member, same⟩
  · exact .inr (.inl ⟨m, grows m member, t, same⟩)
  · exact .inr (.inr digest)

theorem KnownKey.toText (hex : K.HexDigests) (known : KnownKey K accepted m.toText) :
    m ∈ accepted := by
  rcases known with ⟨m', member, same⟩ | ⟨m', member, t, same⟩ | ⟨bytes, same⟩
  · rw [Uuid.toText_injective same]
    exact member
  · exact absurd same.symm (headerKey_ne_toText m' m t)
  · exact absurd same.symm (sha256_ne_toText hex bytes m)

theorem KnownKey.header (hex : K.HexDigests) {t : Int}
    (known : KnownKey K accepted (headerKey m t)) : m ∈ accepted := by
  rcases known with ⟨m', member, same⟩ | ⟨m', member, t', same⟩ | ⟨bytes, same⟩
  · exact absurd same (headerKey_ne_toText m m' t)
  · rw [headerKey_injective same]
    exact member
  · exact absurd same.symm (sha256_ne_headerKey hex bytes m t)

structure Trace.Inv (K : Crypto) (t : Trace) : Prop where
  stored : ∀ m, t.d.store.messages.contains m = true → m ∈ t.accepted ∨ t.created m = true
  keys : ∀ key, t.d.dedup.seen.contains key = true → KnownKey K t.accepted key

namespace Trace

variable {K : Crypto} {t : Trace}

theorem Start.inv (start : t.Start) : t.Inv K :=
  ⟨fun m found => absurd found (by simp [start.messages m]),
    fun key found => absurd found (by simp [start.keys key])⟩

variable {d' d : Daemon} {env : Envelope} {targetRoute peerNodeId : String}

theorem Inv.quiet (inv : t.Inv K) (messages : d'.store.messages = t.d.store.messages)
    (pruned : ∀ key, d'.dedup.seen.contains key = true → t.d.dedup.seen.contains key = true) :
    Inv K { t with d := d', accepted := t.accepted ++ [] } := by
  refine ⟨fun m found => ?_, fun key found => ?_⟩
  · rw [messages] at found
    rw [append_nil]
    exact inv.stored m found
  · rw [append_nil]
    exact inv.keys key (pruned key found)

theorem contains_pruned {key : String} (found : d.pruned.dedup.seen.contains key = true) :
    d.dedup.seen.contains key = true := Dedup.contains_of_prune found

theorem Inv.accept {keys : List String} {routeCfg : RouteConfig} {outcome : FedIngressOutcome}
    (inv : t.Inv K)
    (effect : AcceptEffect .none keys env targetRoute routeCfg t.d.pruned outcome d')
    (known : ∀ key ∈ keys, KnownKey K [env.id] key) :
    Inv K { t with d := d', accepted := t.accepted ++ outcome.ids } := by
  cases effect with
  | limited limiter => exact inv.quiet rfl (fun key found => contains_pruned found)
  | failed limiter broken => cases broken
  | stored limiter works =>
    refine ⟨fun m found => ?_, fun key found => ?_⟩
    · change Map.contains (persistStore _ _ _ _ _ _ _ _ _).2.messages _ = true at found
      rw [messages_persistStore, if_neg (by simp [works]), Map.contains_insertOrIgnore,
        Bool.or_eq_true, decide_eq_true_eq] at found
      rcases found with rfl | old
      · exact .inl (mem_append_right _ mem_cons_self)
      · rcases inv.stored m old with accepted | created
        · exact .inl (mem_append_left _ accepted)
        · exact .inr created
    · rcases (Daemon.contains_recordAll _ _ _).mp found with new | old
      · exact (known key new).mono (fun m member => mem_append_right _ member)
      · exact (inv.keys key (contains_pruned old)).mono (fun m member => mem_append_left _ member)

theorem header_named {frame : SealedEnvelope}
    (sound : (IngressCall.present peerNodeId (.sealed frame) targetRoute).sound K d = true)
    (opens : (Presentation.sealed frame).envelope? K = some env) :
    sealedKey frame = headerKey env.id frame.expiresAt := by
  have all : (openSeal K frame).toOption.all (fun env => frame.id == env.id.toText) = true := sound
  rw [show (openSeal K frame).toOption = some env from opens] at all
  have named : frame.id = env.id.toText := by simpa using all
  unfold sealedKey headerKey
  rw [named]

theorem known_keys {p : Presentation}
    (sound : (IngressCall.present peerNodeId p targetRoute).sound K d = true)
    (opens : p.envelope? K = some env) : ∀ key ∈ p.keys env.id, KnownKey K [env.id] key := by
  intro key member
  cases p with
  | plain => exact .inl ⟨env.id, mem_cons_self, mem_singleton.mp member⟩
  | sealed frame =>
    rcases mem_cons.mp member with rfl | text
    · exact .inr (.inl ⟨env.id, mem_cons_self, frame.expiresAt, header_named sound opens⟩)
    · exact .inl ⟨env.id, mem_cons_self, mem_singleton.mp text⟩

theorem Inv.present {p : Presentation} {outcome : FedIngressOutcome} (inv : t.Inv K)
    (sound : (IngressCall.present peerNodeId p targetRoute).sound K t.d = true)
    (effect : FedEffect K .none peerNodeId p targetRoute t.d outcome d') :
    Inv K { t with d := d', accepted := t.accepted ++ outcome.ids } := by
  cases effect with
  | refused reason other d' quiet =>
    rcases quiet with rfl | rfl
    · exact inv.quiet rfl (fun key found => found)
    · exact inv.quiet rfl (fun key found => contains_pruned found)
  | duplicate found => exact inv.quiet rfl (fun key found => contains_pruned found)
  | recorded env e reason other is gate same =>
    subst is
    have known : t.d.store.messages.contains env.id = true := by
      have either : (!recordable K t.d peerNodeId env targetRoute ||
          t.d.store.messages.contains env.id) = true := sound
      rw [recordable_of_gate gate] at either
      simpa using either
    have kept : ∀ m, (t.d.store.messages.insertOrIgnore e.id e).contains m = true →
        m ∈ t.accepted ∨ t.created m = true := by
      intro m found
      rw [Map.contains_insertOrIgnore, Bool.or_eq_true, decide_eq_true_eq] at found
      rcases found with rfl | old
      · rw [same]
        exact inv.stored env.id known
      · exact inv.stored m old
    refine ⟨fun m found => ?_, fun key found => ?_⟩
    · rw [FedIngressOutcome.ids, append_nil]
      exact kept m found
    · rw [FedIngressOutcome.ids, append_nil]
      exact inv.keys key found
  | through env clamped routeCfg fed senderKey opens unseen passed =>
    have named := passed.window.id
    refine inv.accept (acceptRun_effect ..) ?_
    rw [named]
    exact known_keys sound opens

theorem Inv.step {c : IngressCall} {t' : Trace} (step : Trace.step K c t = some t')
    (sound : c.sound K t.d = true) (inv : t.Inv K) : t'.Inv K := by
  cases c with
  | inbound ids plugin endpoint sender kind body createdAt attachments priority =>
    cases step
    refine ⟨fun m found => ?_, fun key found => ?_⟩
    · dsimp only at found ⊢
      cases before : t.d.store.messages.contains m with
      | true =>
        rcases inv.stored m before with accepted | created
        · exact .inl accepted
        · exact .inr (by rw [created, Bool.true_or])
      | false => exact .inr (by rw [found, Bool.not_false, Bool.and_true, Bool.or_true])
    · have added := always_run (I := fun d => ∀ key, d.dedup.seen.contains key = true →
          KnownKey K t.accepted key)
        (handleInbound_keys K .none ids plugin endpoint sender kind body createdAt attachments
          priority) (fun _ d d' kept adds key found => ?_) inv.keys
      · exact added key found
      · rcases adds key found with old | digest
        · exact kept key old
        · exact .inr (.inr digest)
  | present peerNodeId p targetRoute =>
    cases step
    exact inv.present sound (present_effect K .none peerNodeId p targetRoute t.d)
  | around change =>
    cases step
    exact ⟨inv.stored, inv.keys⟩

end Trace

/-- Over calls none of which records a refusal under a new id or opens a seal whose header names
another message, a presentation is dropped as a duplicate only if its message was accepted or
created before. -/
theorem duplicate_justified (K : Crypto) (hex : K.HexDigests) (calls : List IngressCall)
    (t₀ t : Trace) (start : t₀.Start) (reached : Trace.run K calls t₀ = some t)
    (sound : Meets (Trace.step K) (fun c t => c.sound K t.d = true) calls t₀)
    (peerNodeId targetRoute : String) (p : Presentation) (env : Envelope)
    (last : (IngressCall.present peerNodeId p targetRoute).sound K t.d = true)
    (opens : p.envelope? K = some env)
    (dropped : ((present K .none peerNodeId p targetRoute).run t.d).1 = .rejected .duplicate) :
    env.id ∈ t.accepted ∨ t.created env.id = true := by
  have inv : t.Inv K := runAll_preserves (Trace.Inv K)
    (fun c t t' sound step inv => inv.step step sound) calls t₀ t sound reached start.inv
  have effect := present_effect K .none peerNodeId p targetRoute t.d
  generalize ((present K .none peerNodeId p targetRoute).run t.d).1 = outcome at effect dropped
  generalize ((present K .none peerNodeId p targetRoute).run t.d).2 = d' at effect
  cases effect with
  | refused reason other | recorded env e reason other =>
    cases dropped
    exact absurd rfl other
  | through env clamped routeCfg fed senderKey =>
    have ends :=
      acceptRun_effect .none senderKey (p.keys env.id) clamped targetRoute routeCfg t.d.pruned
    rw [dropped] at ends
    cases ends
  | duplicate found =>
    rcases found with header | ⟨env', opens', remembered⟩
    · cases p with
      | plain => cases header
      | sealed frame =>
        have cached := inv.keys _ (Dedup.contains_of_isDuplicate header)
        rw [Trace.header_named last opens] at cached
        exact .inl (cached.header hex)
    · obtain rfl := Option.some.inj (opens.symm.trans opens')
      unfold Daemon.remembers at remembered
      rw [Bool.or_eq_true] at remembered
      rcases remembered with cached | stored
      · exact .inl ((inv.keys _ (Dedup.contains_of_isDuplicate cached)).toText hex)
      · exact inv.stored env.id stored

theorem Crypto.clear_hexDigests (node : String) : (Crypto.clear node).HexDigests := by
  intro bytes
  change (String.ofList (List.replicate 64 '0')).toList.length = 64 ∧
    ∀ c ∈ (String.ofList (List.replicate 64 '0')).toList, c ∈ "0123456789abcdef".toList
  rw [String.toList_ofList]
  refine ⟨length_replicate, fun c member => ?_⟩
  rw [(mem_replicate.mp member).2]
  decide

def Trace.small : Trace := ⟨.small .empty, [], fun _ => false⟩

theorem Trace.small_start : Trace.small.Start := ⟨fun _ => rfl, fun _ => rfl⟩

def helloFor (targetRoute : String) : IngressCall :=
  .present "rf:hub" (.plain (.hello ⟨1⟩)) targetRoute

theorem duplicate_justified_again :
    ∃ t, Trace.run (.clear "rf:a") [helloFor "in"] .small = some t ∧
      ((present (.clear "rf:a") .none "rf:hub" (.plain (.hello ⟨1⟩)) "in").run t.d).1 =
        .rejected .duplicate ∧ (⟨1⟩ ∈ t.accepted ∨ t.created ⟨1⟩ = true) := by
  obtain ⟨t, reached, last, dropped⟩ :
      ∃ t, Trace.run (.clear "rf:a") [helloFor "in"] .small = some t ∧
        (helloFor "in").sound (.clear "rf:a") t.d = true ∧
        ((present (.clear "rf:a") .none "rf:hub" (.plain (.hello ⟨1⟩)) "in").run t.d).1 =
          .rejected .duplicate := by
    decide +kernel
  refine ⟨t, reached, dropped, ?_⟩
  exact duplicate_justified _ (Crypto.clear_hexDigests _) _ _ t Trace.small_start reached
    (by decide +kernel) "rf:hub" "in" (.plain (.hello ⟨1⟩)) (.hello ⟨1⟩) last rfl dropped

def sealedHello (header : String) (m : Uuid) : SealedEnvelope :=
  (Crypto.clear "rf:hub").sealBytes 0 ((Crypto.clear "rf:hub").encode (.hello m)) header 3600 []

/-- A message refused for a route that is not federated is then dropped as a duplicate where every
other gate passes, and so is a sealed message whose header another one carried. -/
theorem duplicate_unjustified :
    (∃ t, Trace.run (.clear "rf:a") [helloFor "nowhere"] .small = some t ∧
      (fedGate (.clear "rf:a") t.d "rf:hub" (.hello ⟨1⟩) "in").toOption.isSome = true ∧
      ((present (.clear "rf:a") .none "rf:hub" (.plain (.hello ⟨1⟩)) "in").run t.d).1 =
        .rejected .duplicate ∧ ⟨1⟩ ∉ t.accepted ∧ t.created ⟨1⟩ = false) ∧
    ∃ t, Trace.run (.clear "rf:a") [.present "rf:hub" (.sealed (sealedHello "x" ⟨1⟩)) "in"] .small =
        some t ∧
      (Presentation.sealed (sealedHello "x" ⟨2⟩)).envelope? (.clear "rf:a") = some (.hello ⟨2⟩) ∧
      ((present (.clear "rf:a") .none "rf:hub" (.sealed (sealedHello "x" ⟨2⟩)) "in").run t.d).1 =
        .rejected .duplicate ∧ ⟨2⟩ ∉ t.accepted ∧ t.created ⟨2⟩ = false := by
  decide +kernel

end RelayFabric
