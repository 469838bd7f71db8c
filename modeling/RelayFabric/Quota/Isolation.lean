/- source: engine.rs (fed_ingress, fed_sealed_ingress, handle_inbound), limits.rs, dedup.rs
   digest: What the traffic of one peer can do to the quota decisions that another peer meets. -/

import RelayFabric.Federation.Duplicate
import RelayFabric.Delivery.Arrival
import RelayFabric.Delivery.Node
import RelayFabric.Lib.Relate

namespace RelayFabric

open List Lib

namespace Dedup

structure Alike (watched : String → Prop) (now : Int) (c c' : Dedup) : Prop where
  ttl : c.ttl = c'.ttl
  holds : ∀ key, watched key → ∀ t, now ≤ t → (c.Holds key t ↔ c'.Holds key t)

namespace Alike

variable {watched : String → Prop} {now : Int} {c c' c'' : Dedup}

theorem refl (c : Dedup) : Alike watched now c c := ⟨rfl, fun _ _ _ _ => Iff.rfl⟩

theorem symm (alike : Alike watched now c c') : Alike watched now c' c :=
  ⟨alike.ttl.symm, fun key sees t order => (alike.holds key sees t order).symm⟩

theorem trans (first : Alike watched now c c') (second : Alike watched now c' c'') :
    Alike watched now c c'' :=
  ⟨first.ttl.trans second.ttl,
    fun key sees t order => (first.holds key sees t order).trans (second.holds key sees t order)⟩

section

variable (alike : Alike watched now c c')
include alike

theorem later {now' : Int} (order : now ≤ now') :
    Alike watched now' c c' :=
  ⟨alike.ttl, fun key sees t after => alike.holds key sees t (order.trans after)⟩

theorem isDuplicate {key : String} (sees : watched key) :
    (c.isDuplicate key now).1 = (c'.isDuplicate key now).1 := by
  rw [Bool.eq_iff_iff, isDuplicate_iff, isDuplicate_iff]
  exact alike.holds key sees now le_rfl

theorem prune_left : Alike watched now (c.prune now) c' :=
  ⟨alike.ttl, fun key sees t order => (holds_prune c order key).trans
    (alike.holds key sees t order)⟩

theorem prune : Alike watched now (c.prune now) (c'.prune now) :=
  alike.prune_left.symm.prune_left.symm

theorem record (key : String) :
    Alike watched now (c.record key now) (c'.record key now) := by
  refine ⟨alike.ttl, fun other sees t order => ?_⟩
  rw [holds_record, holds_record, alike.ttl]
  split
  · exact Iff.rfl
  · exact alike.holds other sees t order

theorem record_left {key : String} (unseen : ¬watched key) :
    Alike watched now (c.record key now) c' := by
  refine ⟨alike.ttl, fun other sees t order => ?_⟩
  have apart : other ≠ key := fun same => unseen (same ▸ sees)
  rw [holds_record, if_neg apart]
  exact alike.holds other sees t order

theorem setTtl (ttl : Int) :
    Alike watched now (c.setTtl ttl) (c'.setTtl ttl) :=
  ⟨rfl, alike.holds⟩

end

end Alike

end Dedup

namespace SenderLimiter

def recent (l : SenderLimiter) (key : String) (t : Int) : List (Int × Nat) :=
  ((l.sweep t).windows key).getD []

def span (l : SenderLimiter) : Int := if 0 < l.bytesPerHour then hour else minute

variable (l : SenderLimiter) (key : String) (bytes : Nat)

theorem recent_eq (t : Int) :
    l.recent key t =
      ((l.windows key).getD []).filter (fun e => decide (durationSince t e.1 < l.span)) := by
  have shown (entries : List (Int × Nat)) :
      ((some entries).filter (fun es => !es.isEmpty)).getD [] = entries := by
    cases entries <;> rfl
  unfold recent sweep span
  dsimp only
  cases l.windows key with
  | none => rfl
  | some entries => exact shown _

variable {now t : Int}

theorem recent_filter (order : now ≤ t) :
    (l.recent key now).filter (fun e => decide (durationSince t e.1 < l.span)) =
      l.recent key t := by
  rw [recent_eq, recent_eq, filter_filter]
  refine filter_congr (fun e _ => ?_)
  rw [← Bool.decide_and, decide_eq_decide]
  unfold durationSince
  omega

theorem span_sweep (now : Int) : (l.sweep now).span = l.span := rfl

theorem recent_sweep (order : now ≤ t) :
    (l.sweep now).recent key t = l.recent key t := by
  rw [recent_eq, span_sweep, ← recent_filter l key order]
  rfl

def fits (messagesPerMinute bytesPerHour : Nat) (entries : List (Int × Nat)) (bytes : Nat)
    (now : Int) : Bool :=
  let inMinute := (entries.filter (fun e => decide (durationSince now e.1 < minute))).length
  let inHour := (entries.map Prod.snd).sum
  !decide (0 < messagesPerMinute ∧ messagesPerMinute ≤ inMinute % 2 ^ 32) &&
    !decide (0 < bytesPerHour ∧ bytesPerHour < (inHour + bytes) % 2 ^ 64)

theorem allow_eq (now : Int) (limited : ¬(l.messagesPerMinute = 0 ∧ l.bytesPerHour = 0)) :
    l.allow key bytes now =
      if fits l.messagesPerMinute l.bytesPerHour (l.recent key now) bytes now then
        (true, { l.sweep now with
          windows := (l.sweep now).windows.insert key (l.recent key now ++ [(now, bytes)]) })
      else (false, l.sweep now) := by
  unfold allow
  rw [if_neg limited]
  by_cases full : 0 < l.messagesPerMinute ∧ l.messagesPerMinute ≤
      ((l.recent key now).filter (fun e => decide (durationSince now e.1 < minute))).length % 2 ^ 32
  · have denied : fits l.messagesPerMinute l.bytesPerHour (l.recent key now) bytes now = false := by
      simp only [fits, full, and_self, decide_true, Bool.not_true, Bool.false_and]
    rw [denied]
    exact if_pos full
  by_cases exceeds : 0 < l.bytesPerHour ∧
      l.bytesPerHour < (((l.recent key now).map Prod.snd).sum + bytes) % 2 ^ 64
  · have denied : fits l.messagesPerMinute l.bytesPerHour (l.recent key now) bytes now = false := by
      simp only [fits, exceeds, and_self, decide_true, Bool.not_true, Bool.and_false]
    rw [denied]
    exact (if_neg full).trans (if_pos exceeds)
  · have allowed : fits l.messagesPerMinute l.bytesPerHour (l.recent key now) bytes now = true := by
      simp only [fits, full, exceeds, decide_false, Bool.not_false, Bool.and_true]
    rw [allowed]
    exact (if_neg full).trans (if_neg exceeds)

structure Alike (watched : String → Prop) (now : Int) (l l' : SenderLimiter) : Prop where
  messages : l.messagesPerMinute = l'.messagesPerMinute
  bytes : l.bytesPerHour = l'.bytesPerHour
  recent : ∀ key, watched key → ∀ t, now ≤ t → l.recent key t = l'.recent key t

namespace Alike

variable {watched : String → Prop} {now : Int} {l l' l'' : SenderLimiter}

theorem refl (l : SenderLimiter) : Alike watched now l l := ⟨rfl, rfl, fun _ _ _ _ => rfl⟩

theorem symm (alike : Alike watched now l l') : Alike watched now l' l :=
  ⟨alike.messages.symm, alike.bytes.symm, fun key sees t order =>
    (alike.recent key sees t order).symm⟩

theorem trans (first : Alike watched now l l') (second : Alike watched now l' l'') :
    Alike watched now l l'' :=
  ⟨first.messages.trans second.messages, first.bytes.trans second.bytes,
    fun key sees t order => (first.recent key sees t order).trans (second.recent key sees t order)⟩

theorem later {now' : Int} (alike : Alike watched now l l') (order : now ≤ now') :
    Alike watched now' l l' :=
  ⟨alike.messages, alike.bytes, fun key sees t after => alike.recent key sees t (order.trans after)⟩

end Alike

theorem recent_allow_other {key other : String} (apart : other ≠ key) (bytes : Nat)
    (order : now ≤ t) : (l.allow key bytes now).2.recent other t = l.recent other t := by
  by_cases unlimited : l.messagesPerMinute = 0 ∧ l.bytesPerHour = 0
  · unfold allow
    rw [if_pos unlimited]
  rw [allow_eq l key bytes now unlimited]
  split
  · rw [← recent_sweep l other order, recent_eq .., recent_eq _ other t]
    simp only [Map.insert_apply, if_neg apart]
    rfl
  · exact recent_sweep l other order

theorem recent_allow_self (order : now ≤ t) :
    (l.allow key bytes now).2.recent key t =
      if ¬(l.messagesPerMinute = 0 ∧ l.bytesPerHour = 0) ∧
          fits l.messagesPerMinute l.bytesPerHour (l.recent key now) bytes now = true then
        (l.recent key now ++ [(now, bytes)]).filter (fun e => decide (durationSince t e.1 < l.span))
      else l.recent key t := by
  by_cases unlimited : l.messagesPerMinute = 0 ∧ l.bytesPerHour = 0
  · rw [if_neg (fun both => both.1 unlimited)]
    unfold allow
    rw [if_pos unlimited]
  rw [allow_eq l key bytes now unlimited]
  split
  · rename_i allowed
    rw [if_pos ⟨unlimited, allowed⟩, recent_eq]
    simp only [Map.insert_apply, if_true, Option.getD_some]
    rfl
  · rename_i denied
    rw [if_neg (fun both => denied both.2)]
    exact recent_sweep l key order

theorem allow_fst (now : Int) :
    (l.allow key bytes now).1 = (decide (l.messagesPerMinute = 0 ∧ l.bytesPerHour = 0) ||
      fits l.messagesPerMinute l.bytesPerHour (l.recent key now) bytes now) := by
  by_cases unlimited : l.messagesPerMinute = 0 ∧ l.bytesPerHour = 0
  · unfold allow
    simp [unlimited]
  rw [allow_eq l key bytes now unlimited]
  split <;> simp_all

theorem allow_limits (now : Int) :
    (l.allow key bytes now).2.messagesPerMinute = l.messagesPerMinute ∧
      (l.allow key bytes now).2.bytesPerHour = l.bytesPerHour := by
  unfold allow
  dsimp only
  split_ifs <;> exact ⟨rfl, rfl⟩

namespace Alike

variable {watched : String → Prop} {now : Int} {l l' : SenderLimiter}

theorem allow (alike : Alike watched now l l') {key : String} (sees : watched key) (bytes : Nat) :
    (l.allow key bytes now).1 = (l'.allow key bytes now).1 ∧
      Alike watched now (l.allow key bytes now).2 (l'.allow key bytes now).2 := by
  have own := alike.recent key sees now le_rfl
  refine ⟨?_, ?_, ?_, fun other watches t order => ?_⟩
  · rw [allow_fst, allow_fst, alike.messages, alike.bytes, own]
  · rw [(allow_limits ..).1, (allow_limits ..).1, alike.messages]
  · rw [(allow_limits ..).2, (allow_limits ..).2, alike.bytes]
  · by_cases same : other = key
    · subst same
      have spans : l.span = l'.span := by
        unfold span
        rw [alike.bytes]
      rw [recent_allow_self l other bytes order, recent_allow_self l' other bytes order,
        alike.messages, alike.bytes, own, spans, alike.recent other watches t order]
    · rw [recent_allow_other l same bytes order, recent_allow_other l' same bytes order]
      exact alike.recent other watches t order

theorem allow_left (alike : Alike watched now l l') {key : String} (unseen : ¬watched key)
    (bytes : Nat) :
    Alike watched now (l.allow key bytes now).2 l' := by
  obtain ⟨messages, perHour⟩ := allow_limits l key bytes now
  refine ⟨messages.trans alike.messages, perHour.trans alike.bytes, fun other watches t order => ?_⟩
  have apart : other ≠ key := fun same => unseen (same ▸ watches)
  rw [recent_allow_other l apart bytes order]
  exact alike.recent other watches t order

end Alike

end SenderLimiter

def IsNodeId (nodeId : String) : Prop :=
  ∃ digits : List Char, nodeId.toList = 'r' :: 'f' :: ':' :: digits ∧ digits.length = 64 ∧
    ∀ c ∈ digits, c ∈ "0123456789abcdef".toList

theorem trimScheme_cons {c : Char} (other : c ≠ 'r') (rest : List Char) :
    trimScheme (c :: rest) = c :: rest := by
  unfold trimScheme
  split
  · next same => exact absurd (List.cons.inj same).1 other
  · rfl

theorem IsNodeId.length_short {nodeId : String} (is : IsNodeId nodeId) :
    (shortNodeId nodeId).toList.length = 8 := by
  obtain ⟨digits, spelled, length, hex⟩ := is
  have bare : trimScheme digits = digits := by
    cases digits with
    | nil => rfl
    | cons c rest =>
      apply trimScheme_cons
      rintro rfl
      exact absurd (hex 'r' mem_cons_self) (by decide)
  unfold shortNodeId
  rw [String.toList_ofList, spelled, trimScheme, bare, length_take, length]
  rfl

def chargedTo (peerNodeId key : String) : Bool :=
  key == sealedSenderKey peerNodeId ||
    ("fed|" ++ shortNodeId peerNodeId ++ ":").toList.isPrefixOf key.toList

theorem chargedTo_fed (peerNodeId : String) (env : Envelope) :
    chargedTo peerNodeId (fedSenderKey peerNodeId env) = true := by
  unfold chargedTo fedSenderKey
  rw [Bool.or_eq_true, isPrefixOf_iff_prefix]
  refine .inr ⟨env.sender.nativeRef.toList, ?_⟩
  simp

theorem chargedTo_sealed (peerNodeId : String) :
    chargedTo peerNodeId (sealedSenderKey peerNodeId) = true := by
  simp [chargedTo]

variable {a b : String}

theorem chargedTo_fed_other (nodeA : IsNodeId a) (nodeB : IsNodeId b)
    (apart : shortNodeId b ≠ shortNodeId a) (env : Envelope) :
    chargedTo a (fedSenderKey b env) = false := by
  rw [Bool.eq_false_iff]
  intro charged
  unfold chargedTo at charged
  rw [Bool.or_eq_true, beq_iff_eq, isPrefixOf_iff_prefix] at charged
  rcases charged with same | ⟨rest, same⟩
  · have texts := congrArg String.toList same
    simp only [fedSenderKey, sealedSenderKey, String.toList_append, append_assoc] at texts
    have fourth := congrArg (fun text : List Char => text[3]?) texts
    exact absurd fourth (by simp)
  · have lengths : (shortNodeId a).toList.length = (shortNodeId b).toList.length := by
      rw [nodeA.length_short, nodeB.length_short]
    simp only [fedSenderKey, String.toList_append, append_assoc] at same
    have heads := append_cancel_left same
    exact apart (String.toList_inj.mp (append_inj heads lengths).1).symm

theorem chargedTo_sealed_other (apart : shortNodeId b ≠ shortNodeId a) :
    chargedTo a (sealedSenderKey b) = false := by
  rw [Bool.eq_false_iff]
  intro charged
  unfold chargedTo at charged
  rw [Bool.or_eq_true, beq_iff_eq, isPrefixOf_iff_prefix] at charged
  rcases charged with same | ⟨rest, same⟩
  · have texts := congrArg String.toList same
    simp only [sealedSenderKey, String.toList_append] at texts
    exact apart (String.toList_inj.mp (append_cancel_left texts))
  · simp only [sealedSenderKey, String.toList_append, append_assoc] at same
    have fourth := congrArg (fun text : List Char => text[3]?) same
    exact absurd fourth (by simp)

structure Store.SameDesk (s s' : Store) : Prop where
  challenges : s'.challenges = s.challenges
  nodeTrust : s'.nodeTrust = s.nodeTrust

theorem persistStore_desk (io : Faults) (s : Store) (stamp now : Int) (env : Envelope)
    (targetRoute : String) (destinations : List Endpoint) (routeMax globalMax : Nat) :
    s.SameDesk (persistStore io s stamp now env targetRoute destinations routeMax globalMax).2 := by
  obtain ⟨_, _, eq⟩ := persistStore_frame io s stamp now env targetRoute destinations routeMax
    globalMax
  rw [eq]
  exact ⟨rfl, rfl⟩

theorem inboundStore_desk (io : Faults) (s : Store) (stamp now : Int) (env : Envelope)
    (targets : List (String × Endpoint)) (limits : Limits) :
    s.SameDesk (inboundStore io s stamp now env targets limits) := by
  obtain ⟨_, _, _, eq⟩ := inboundStore_frame io s stamp now env targets limits
  rw [eq]
  exact ⟨rfl, rfl⟩

/-- What reaches a daemon, one atomic call at a time, and what happens around the calls. -/
inductive Traffic
  | present (io : Faults) (peerNodeId : String) (p : Presentation) (targetRoute : String)
  | inbound (io : Faults) (a : Arrival)
  | tick (utc : Int) (elapsed : Nat)
  | reload (cfg : Config)
  | desk (challenges : Table Challenge Challenge.id) (nodeTrust : Map String String)
  | row (m : Uuid) (stored : Option Envelope)
  | own (change : Daemon → Daemon)
  | restart

namespace Traffic

def step (K : Crypto) : Traffic → Daemon → Daemon
  | .present io peerNodeId p targetRoute, d =>
    ((RelayFabric.present K io peerNodeId p targetRoute).run d).2
  | .inbound io a, d => ((a.handle K io).run d).2
  | .tick utc elapsed, d => { d with clock := ⟨utc, d.clock.instant + elapsed⟩ }
  | .reload cfg, d => d.applyConfig cfg
  | .desk challenges nodeTrust, d =>
    { d with store := { d.store with challenges := challenges, nodeTrust := nodeTrust } }
  | .row m stored, d =>
    { d with store := { d.store with
        messages := fun m' => if m' = m then stored else d.store.messages m' } }
  | .own change, d =>
    let d' := change d
    { d' with
      cfg := d.cfg
      clock := d.clock
      dedup := d.dedup
      senderLimiter := d.senderLimiter
      linkGuesses := d.linkGuesses
      store := { d'.store with
        messages := d.store.messages
        challenges := d.store.challenges
        nodeTrust := d.store.nodeTrust } }
  | .restart, d => d.restarted

abbrev run (K : Crypto) : List Traffic → Daemon → Daemon := drive (step K)

end Traffic

/-- What the peers other than `peer` present: these identifiers, and seals with these header
keys. -/
structure Foreign where
  peer : String
  ids : Uuid → Bool
  headers : String → Bool

namespace Foreign

def lists (K : Crypto) (f : Foreign) (is : Bool) : Presentation → Bool
  | .plain env => f.ids env.id == is
  | .sealed frame => f.headers (sealedKey frame) == is &&
      (openSeal K frame).toOption.all (fun env => f.ids env.id == is)

/-- The runs are about the traffic of one peer: nobody else presents what it presents, nobody else
is charged under its keys, and no notice is drawn under an identifier that is presented. -/
def Admits (K : Crypto) (f : Foreign) : Traffic → Prop
  | .present _ peerNodeId p _ =>
    if peerNodeId = f.peer then f.lists K false p = true
    else f.lists K true p = true ∧ IsNodeId peerNodeId ∧ shortNodeId peerNodeId ≠ shortNodeId f.peer
  | .inbound _ a => chargedTo f.peer (a.plugin ++ "|" ++ a.sender) = false ∧
      f.ids a.ids.targetNotice = false ∧ f.ids a.ids.requesterNotice = false
  | .tick .. | .reload _ | .desk .. | .row .. | .own _ | .restart => True

def hides (f : Foreign) : Traffic → Bool
  | .present _ peerNodeId _ _ => peerNodeId == f.peer
  | .row m _ => !f.ids m
  | .own _ => true
  | .inbound .. | .tick .. | .reload _ | .desk .. | .restart => false

def Watched (K : Crypto) (f : Foreign) (key : String) : Prop :=
  (∃ m, f.ids m = true ∧ key = m.toText) ∨
    (∃ frame, f.headers (sealedKey frame) = true ∧ key = sealedKey frame) ∨ ∃ bytes,
    key = K.sha256 bytes

theorem sealedKey_ne_toText (frame : SealedEnvelope) (m : Uuid) : sealedKey frame ≠ m.toText := by
  intro same
  have first : 's' ∈ m.toText.toList := by
    rw [← same]
    unfold sealedKey
    simp only [String.toList_append, mem_append]
    exact .inl (.inl (.inl (by decide)))
  unfold Uuid.toText at first
  rw [String.toList_ofList] at first
  exact m.s_not_mem_chars first

theorem sha256_ne_sealedKey {K : Crypto} (hex : K.HexDigests) (bytes : Bytes)
    (frame : SealedEnvelope) : K.sha256 bytes ≠ sealedKey frame := by
  intro same
  have first : 's' ∈ (sealedKey frame).toList := by
    unfold sealedKey
    simp only [String.toList_append, mem_append]
    exact .inl (.inl (.inl (by decide)))
  rw [← same] at first
  exact absurd ((hex bytes).2 _ first) (by decide)

variable {K : Crypto} {f : Foreign}

theorem not_watched_toText (hex : K.HexDigests) {m : Uuid} (own : f.ids m = false) :
    ¬f.Watched K m.toText := by
  rintro (⟨m', listed, same⟩ | ⟨frame, _, same⟩ | ⟨bytes, same⟩)
  · rw [Uuid.toText_injective same, listed] at own
    cases own
  · exact sealedKey_ne_toText frame m same.symm
  · exact sha256_ne_toText hex bytes m same.symm

theorem not_watched_sealedKey (hex : K.HexDigests) {frame : SealedEnvelope}
    (own : f.headers (sealedKey frame) = false) : ¬f.Watched K (sealedKey frame) := by
  rintro (⟨m, _, same⟩ | ⟨frame', listed, same⟩ | ⟨bytes, same⟩)
  · exact sealedKey_ne_toText frame m same
  · rw [same, listed] at own
    cases own
  · exact sha256_ne_sealedKey hex bytes frame same.symm

structure Agree (K : Crypto) (f : Foreign) (d e : Daemon) : Prop where
  cfg : d.cfg = e.cfg
  clock : d.clock = e.clock
  guesses : d.linkGuesses = e.linkGuesses
  challenges : d.store.challenges = e.store.challenges
  trust : d.store.nodeTrust = e.store.nodeTrust
  rows : ∀ m, f.ids m = true → d.store.messages.contains m = e.store.messages.contains m
  cache : Dedup.Alike (f.Watched K) d.clock.instant d.dedup e.dedup
  quota : SenderLimiter.Alike (fun key => chargedTo f.peer key = false) d.clock.instant
    d.senderLimiter e.senderLimiter

namespace Agree

variable {d e u : Daemon}

theorem refl (d : Daemon) : f.Agree K d d :=
  ⟨rfl, rfl, rfl, rfl, rfl, fun _ _ => rfl, .refl _, .refl _⟩

theorem symm (agree : f.Agree K d e) : f.Agree K e d :=
  ⟨agree.cfg.symm, agree.clock.symm, agree.guesses.symm, agree.challenges.symm, agree.trust.symm,
    fun m listed => (agree.rows m listed).symm, agree.clock ▸ agree.cache.symm,
    agree.clock ▸ agree.quota.symm⟩

theorem trans (first : f.Agree K d e) (second : f.Agree K e u) : f.Agree K d u :=
  ⟨first.cfg.trans second.cfg, first.clock.trans second.clock, first.guesses.trans second.guesses,
    first.challenges.trans second.challenges, first.trust.trans second.trust,
    fun m listed => (first.rows m listed).trans (second.rows m listed),
    first.cache.trans (first.clock ▸ second.cache), first.quota.trans (first.clock ▸ second.quota)⟩

section

variable (agree : f.Agree K d e)
include agree

theorem cached {key : String} (watched : f.Watched K key) :
    (d.dedup.isDuplicate key d.clock.instant).1 = (e.dedup.isDuplicate key e.clock.instant).1 := by
  rw [← agree.clock]
  exact agree.cache.isDuplicate watched

theorem remembers {m : Uuid} (listed : f.ids m = true) :
    d.remembers m = e.remembers m := by
  have stored : (d.store.getMessage m).isSome = (e.store.getMessage m).isSome := agree.rows m listed
  unfold Daemon.remembers
  rw [agree.cached (.inl ⟨m, listed, rfl⟩), stored]

theorem pruned_left : f.Agree K d.pruned e :=
  { agree with cache := agree.cache.prune_left }

theorem pruned : f.Agree K d.pruned e.pruned :=
  agree.pruned_left.symm.pruned_left.symm

theorem rows_insert (env env' : Envelope) (same : env.id = env'.id) :
    ∀ m, f.ids m = true → (d.store.messages.insertOrIgnore env.id env).contains m =
      (e.store.messages.insertOrIgnore env'.id env').contains m := by
  intro m listed
  rw [Map.contains_insertOrIgnore, Map.contains_insertOrIgnore, agree.rows m listed, same]

end

variable {env : Envelope} {peerNodeId : String} {a : Arrival}

theorem rows_insert_left (agree : f.Agree K d e) (own : f.ids env.id = false) :
    ∀ m, f.ids m = true →
      (d.store.messages.insertOrIgnore env.id env).contains m = e.store.messages.contains m := by
  intro m listed
  have apart : m ≠ env.id := by
    rintro rfl
    rw [listed] at own
    cases own
  rw [Map.contains_insertOrIgnore, agree.rows m listed]
  simp [apart]

theorem recordAll (agree : f.Agree K d e) (keys : List String) :
    Dedup.Alike (f.Watched K) d.clock.instant (d.recordAll keys) (e.recordAll keys) := by
  have folded : ∀ c c', Dedup.Alike (f.Watched K) d.clock.instant c c' →
      Dedup.Alike (f.Watched K) d.clock.instant
        (keys.foldl (fun dedup key => dedup.record key d.clock.instant) c)
        (keys.foldl (fun dedup key => dedup.record key d.clock.instant) c') := by
    induction keys with
    | nil => exact fun _ _ alike => alike
    | cons key rest ih => exact fun c c' alike => ih _ _ (alike.record key)
  unfold Daemon.recordAll
  rw [← agree.clock]
  exact folded _ _ agree.cache

theorem recordAll_left (agree : f.Agree K d e) {keys : List String}
    (own : ∀ key ∈ keys, ¬f.Watched K key) :
    Dedup.Alike (f.Watched K) d.clock.instant (d.recordAll keys) e.dedup := by
  have folded : ∀ c, Dedup.Alike (f.Watched K) d.clock.instant c e.dedup →
      Dedup.Alike (f.Watched K) d.clock.instant
        (keys.foldl (fun dedup key => dedup.record key d.clock.instant) c) e.dedup := by
    induction keys with
    | nil => exact fun _ alike => alike
    | cons key rest ih =>
      intro c alike
      exact ih (fun other member => own other (mem_cons_of_mem key member)) _
        (alike.record_left (own key mem_cons_self))
  exact folded _ agree.cache

theorem outcome_persistStore (io : Faults) (s s' : Store) (stamp stamp' now now' : Int)
    (env : Envelope) (targetRoute : String) (destinations : List Endpoint)
    (routeMax routeMax' globalMax globalMax' : Nat) :
    (persistStore io s stamp now env targetRoute destinations routeMax globalMax).1 =
      (persistStore io s' stamp' now' env targetRoute destinations routeMax' globalMax').1 := by
  unfold persistStore
  split <;> rfl

section

variable (agree : f.Agree K d e)
include agree

theorem acceptRun (io : Faults) {senderKey : String}
    (foreign : chargedTo f.peer senderKey = false) (keys : List String) (env : Envelope)
    (targetRoute : String) (routeCfg : RouteConfig) :
    (acceptRun io senderKey keys env targetRoute routeCfg d).1 =
        (RelayFabric.acceptRun io senderKey keys env targetRoute routeCfg e).1 ∧
      f.Agree K (RelayFabric.acceptRun io senderKey keys env targetRoute routeCfg d).2
        (RelayFabric.acceptRun io senderKey keys env targetRoute routeCfg e).2 := by
  have watched : (fun key => chargedTo f.peer key = false) senderKey := foreign
  obtain ⟨decision, quota⟩ := agree.quota.allow watched (chargedBytes env)
  unfold RelayFabric.acceptRun
  dsimp only
  rw [← agree.clock, ← decision]
  split
  · have desk := persistStore_desk io d.store d.clock.utc d.clock.utc
      { env with receivedAt := d.clock.utc } targetRoute routeCfg.destinations
      d.cfg.limits.routeQueueMax d.cfg.limits.globalQueueMax
    have desk' := persistStore_desk io e.store d.clock.utc d.clock.utc
      { env with receivedAt := d.clock.utc } targetRoute routeCfg.destinations
      e.cfg.limits.routeQueueMax e.cfg.limits.globalQueueMax
    refine ⟨outcome_persistStore .., agree.cfg, rfl, agree.guesses,
      desk.challenges.trans (agree.challenges.trans desk'.challenges.symm),
      desk.nodeTrust.trans (agree.trust.trans desk'.nodeTrust.symm), fun m listed => ?_,
      agree.recordAll keys, quota⟩
    rw [messages_persistStore, messages_persistStore]
    split
    · exact agree.rows m listed
    · exact agree.rows_insert _ _ rfl m listed
  · exact ⟨rfl, agree.cfg, rfl, agree.guesses, agree.challenges, agree.trust, agree.rows,
      agree.cache, quota⟩

theorem acceptRun_left (io : Faults) {senderKey : String}
    (own : chargedTo f.peer senderKey = true) {keys : List String}
    (unwatched : ∀ key ∈ keys, ¬f.Watched K key) (unlisted : f.ids env.id = false)
    (targetRoute : String) (routeCfg : RouteConfig) :
    f.Agree K (RelayFabric.acceptRun io senderKey keys env targetRoute routeCfg d).2 e := by
  have unseen : ¬(fun key => chargedTo f.peer key = false) senderKey := by simp [own]
  have quota := agree.quota.allow_left unseen (chargedBytes env)
  unfold RelayFabric.acceptRun
  dsimp only
  split
  · have desk := persistStore_desk io d.store d.clock.utc d.clock.utc
      { env with receivedAt := d.clock.utc } targetRoute routeCfg.destinations
      d.cfg.limits.routeQueueMax d.cfg.limits.globalQueueMax
    refine ⟨agree.cfg, agree.clock, agree.guesses, desk.challenges.trans agree.challenges,
      desk.nodeTrust.trans agree.trust, fun m listed => ?_, agree.recordAll_left unwatched, quota⟩
    rw [messages_persistStore]
    split
    · exact agree.rows m listed
    · have stamped : f.ids ({ env with receivedAt := d.clock.utc } : Envelope).id =
        false := unlisted
      exact agree.rows_insert_left stamped m listed
  · exact { agree with quota := quota }

theorem fedGate (peerNodeId : String) (env : Envelope) (targetRoute : String) :
    RelayFabric.fedGate K d peerNodeId env targetRoute =
      RelayFabric.fedGate K e peerNodeId env targetRoute := by
  unfold RelayFabric.fedGate trustDenied Store.trustLevel
  rw [agree.cfg, agree.clock, agree.trust]

theorem sealedGate (peerNodeId : String) (frame : SealedEnvelope) :
    RelayFabric.sealedGate K d peerNodeId frame = RelayFabric.sealedGate K e peerNodeId frame := by
  unfold RelayFabric.sealedGate trustDenied Store.trustLevel
  rw [agree.cfg, agree.trust]

theorem sealedRoute (fed : FederationConfig) (env : Envelope)
    (targetRoute : String) :
    RelayFabric.sealedRoute d fed env targetRoute =
      RelayFabric.sealedRoute e fed env targetRoute := by
  unfold RelayFabric.sealedRoute
  rw [agree.cfg, agree.clock]

theorem refused (targetRoute peerNodeId : String) (refusal : Refusal) :
    f.Agree K (d.refused targetRoute peerNodeId refusal)
    (e.refused targetRoute peerNodeId refusal) := by
  unfold Daemon.refused
  cases refusal.record with
  | none => exact agree
  | some env => exact { agree with rows := agree.rows_insert env env rfl }

theorem refused_left (targetRoute peerNodeId : String) {refusal : Refusal}
    (unlisted : ∀ env, refusal.record = some env → f.ids env.id = false) :
    f.Agree K (d.refused targetRoute peerNodeId refusal) e := by
  unfold Daemon.refused
  cases recorded : refusal.record with
  | none => exact agree
  | some env => exact { agree with rows := agree.rows_insert_left (unlisted env recorded) }

theorem fedIngress (io : Faults) (listed : f.ids env.id = true)
    (foreign : ∀ env, chargedTo f.peer (fedSenderKey peerNodeId env) = false)
    (targetRoute : String) :
    ((RelayFabric.fedIngress K io peerNodeId env targetRoute).run d).1 =
        ((RelayFabric.fedIngress K io peerNodeId env targetRoute).run e).1 ∧
      f.Agree K ((RelayFabric.fedIngress K io peerNodeId env targetRoute).run d).2
        ((RelayFabric.fedIngress K io peerNodeId env targetRoute).run e).2 := by
  rw [fedIngress_run, fedIngress_run, agree.fedGate]
  cases gate : RelayFabric.fedGate K e peerNodeId env targetRoute with
  | error refusal => exact ⟨rfl, agree.refused targetRoute peerNodeId refusal⟩
  | ok pair =>
    obtain ⟨clamped, routeCfg⟩ := pair
    obtain ⟨fed, passed, _⟩ := fedGate_ok gate
    have known : f.ids clamped.id = true := by rw [passed.window.id]; exact listed
    dsimp only
    rw [agree.remembers known]
    split
    · exact ⟨rfl, agree.pruned⟩
    · exact agree.pruned.acceptRun io (foreign clamped) ..

end

theorem fedIngress_left (hex : K.HexDigests) (agree : f.Agree K d e) (io : Faults)
    (unlisted : f.ids env.id = false) (targetRoute : String) :
    f.Agree K ((RelayFabric.fedIngress K io f.peer env targetRoute).run d).2 e := by
  rw [fedIngress_run]
  cases gate : RelayFabric.fedGate K d f.peer env targetRoute with
  | error refusal =>
    refine agree.refused_left targetRoute f.peer (fun other recorded => ?_)
    rw [(fedGate_error gate).2 other recorded]
    exact unlisted
  | ok pair =>
    obtain ⟨clamped, routeCfg⟩ := pair
    obtain ⟨fed, passed, _⟩ := fedGate_ok gate
    have own : f.ids clamped.id = false := by rw [passed.window.id]; exact unlisted
    dsimp only
    split
    · exact agree.pruned_left
    · refine agree.pruned_left.acceptRun_left io (chargedTo_fed ..) (fun key member => ?_) own _ _
      rw [mem_singleton.mp member]
      exact not_watched_toText hex own

theorem fedSealedIngress (agree : f.Agree K d e) (io : Faults) {frame : SealedEnvelope}
    (header : f.headers (sealedKey frame) = true)
    (listed : ∀ env, openSeal K frame = .ok env → f.ids env.id = true)
    (foreign : chargedTo f.peer (sealedSenderKey peerNodeId) = false) (targetRoute : String) :
    ((RelayFabric.fedSealedIngress K io peerNodeId frame targetRoute).run d).1 =
        ((RelayFabric.fedSealedIngress K io peerNodeId frame targetRoute).run e).1 ∧
      f.Agree K ((RelayFabric.fedSealedIngress K io peerNodeId frame targetRoute).run d).2
        ((RelayFabric.fedSealedIngress K io peerNodeId frame targetRoute).run e).2 := by
  rw [fedSealedIngress_run, fedSealedIngress_run]
  unfold sealedHeader
  rw [agree.cached (.inr (.inl ⟨frame, header, rfl⟩)), agree.clock]
  split_ifs
  · exact ⟨rfl, agree⟩
  · exact ⟨rfl, agree⟩
  · exact ⟨rfl, agree.pruned⟩
  rw [agree.sealedGate]
  cases gate : RelayFabric.sealedGate K e peerNodeId frame with
  | error reason => exact ⟨rfl, agree.pruned⟩
  | ok pair =>
    obtain ⟨env, fed⟩ := pair
    obtain ⟨federation, opened⟩ := sealedGate_ok gate
    dsimp only
    rw [agree.remembers (listed env opened)]
    split
    · exact ⟨rfl, agree.pruned⟩
    rw [agree.sealedRoute]
    cases RelayFabric.sealedRoute e fed env targetRoute with
    | error reason => exact ⟨rfl, agree.pruned⟩
    | ok pair => exact agree.pruned.acceptRun io foreign ..

theorem fedSealedIngress_left (hex : K.HexDigests) (agree : f.Agree K d e) (io : Faults)
    {frame : SealedEnvelope} (header : f.headers (sealedKey frame) = false)
    (unlisted : ∀ env, openSeal K frame = .ok env → f.ids env.id = false) (targetRoute : String) :
    f.Agree K ((RelayFabric.fedSealedIngress K io f.peer frame targetRoute).run d).2 e := by
  rw [fedSealedIngress_run]
  unfold sealedHeader
  split_ifs
  · exact agree
  · exact agree
  · exact agree.pruned_left
  cases gate : RelayFabric.sealedGate K d f.peer frame with
  | error reason => exact agree.pruned_left
  | ok pair =>
    obtain ⟨env, fed⟩ := pair
    obtain ⟨federation, opened⟩ := sealedGate_ok gate
    dsimp only
    split
    · exact agree.pruned_left
    cases way : RelayFabric.sealedRoute d fed env targetRoute with
    | error reason => exact agree.pruned_left
    | ok pair =>
      obtain ⟨clamped, routeCfg⟩ := pair
      have own : f.ids clamped.id = false := by
        rw [(sealedRoute_ok federation way).window.id]
        exact unlisted env opened
      refine agree.pruned_left.acceptRun_left io (chargedTo_sealed f.peer)
        (fun key member => ?_) own _ _
      rcases mem_cons.mp member with rfl | text
      · exact not_watched_sealedKey hex header
      · rw [mem_singleton.mp text]
        exact not_watched_toText hex own

theorem present (agree : f.Agree K d e) (node : IsNodeId f.peer) (io : Faults)
    {targetRoute : String} {p : Presentation} (other : peerNodeId ≠ f.peer)
    (admits : f.Admits K (.present io peerNodeId p targetRoute)) :
    ((RelayFabric.present K io peerNodeId p targetRoute).run d).1 =
        ((RelayFabric.present K io peerNodeId p targetRoute).run e).1 ∧
      f.Agree K ((RelayFabric.present K io peerNodeId p targetRoute).run d).2
        ((RelayFabric.present K io peerNodeId p targetRoute).run e).2 := by
  unfold Foreign.Admits at admits
  dsimp only at admits
  rw [if_neg other] at admits
  obtain ⟨lists, nodeB, apart⟩ := admits
  cases p with
  | plain env =>
    have listed : f.ids env.id = true := by simpa [Foreign.lists] using lists
    exact agree.fedIngress io listed (chargedTo_fed_other node nodeB apart) targetRoute
  | sealed frame =>
    obtain ⟨header, inside⟩ : f.headers (sealedKey frame) = true ∧
        (openSeal K frame).toOption.all (fun env => f.ids env.id == true) = true := by
      simpa [Foreign.lists] using lists
    refine agree.fedSealedIngress io header (fun env opened => ?_) (chargedTo_sealed_other apart)
      targetRoute
    rw [opened] at inside
    simpa [Except.toOption] using inside

theorem present_left (hex : K.HexDigests) (agree : f.Agree K d e) (io : Faults)
    {targetRoute : String}
    {p : Presentation} (admits : f.Admits K (.present io f.peer p targetRoute)) :
    f.Agree K ((RelayFabric.present K io f.peer p targetRoute).run d).2 e := by
  unfold Foreign.Admits at admits
  dsimp only at admits
  cases p with
  | plain env =>
    have own : f.ids env.id = false := by simpa [Foreign.lists] using admits
    exact agree.fedIngress_left hex io own targetRoute
  | sealed frame =>
    obtain ⟨header, inside⟩ : f.headers (sealedKey frame) = false ∧
        (openSeal K frame).toOption.all (fun env => f.ids env.id == false) = true := by
      simpa [Foreign.lists] using admits
    refine agree.fedSealedIngress_left hex io header (fun env opened => ?_) targetRoute
    rw [opened] at inside
    simpa [Except.toOption] using inside

section

variable (agree : f.Agree K d e)
include agree

theorem noteFailedLinkGuess (plugin sender : String) :
    f.Agree K ((RelayFabric.noteFailedLinkGuess plugin sender).run d).2
      ((RelayFabric.noteFailedLinkGuess plugin sender).run e).2 := by
  unfold RelayFabric.noteFailedLinkGuess
  rw [Prog.run_critical_bind, Prog.run_critical_bind]
  dsimp only
  rw [← agree.guesses, ← agree.clock, Prog.run_ite, Prog.run_ite]
  split
  · exact { agree with clock := rfl, guesses := rfl }
  · refine { agree with clock := rfl, guesses := rfl, challenges := ?_ }
    change (d.store.deleteChallengesForTarget plugin sender).challenges =
      (e.store.deleteChallengesForTarget plugin sender).challenges
    unfold Store.deleteChallengesForTarget
    rw [agree.challenges]

theorem confirmLink {ids : Draws} (target : f.ids ids.targetNotice = false)
    (requester : f.ids ids.requesterNotice = false) (challenge : Challenge) (now : Int) :
    f.Agree K ((RelayFabric.confirmLink ids challenge now).run d).2
      ((RelayFabric.confirmLink ids challenge now).run e).2 := by
  obtain ⟨messages, _, _, left⟩ := Arrival.confirmLink_frame ids challenge now d
  obtain ⟨messages', _, _, right⟩ := Arrival.confirmLink_frame ids challenge now e
  have row (d : Daemon) (m : Uuid) (listed : f.ids m = true) :
      ((RelayFabric.confirmLink ids challenge now).run d).2.store.messages.contains m =
        d.store.messages.contains m := by
    have first : m ≠ ids.targetNotice := fun same => by rw [same, target] at listed; cases listed
    have second : m ≠ ids.requesterNotice :=
      fun same => by rw [same, requester] at listed; cases listed
    unfold Map.contains
    rw [Arrival.confirmLink_message ids challenge now d first second]
  have rows : ∀ m, f.ids m = true → messages.contains m = messages'.contains m := by
    intro m listed
    have here := row d m listed
    have there := row e m listed
    rw [left] at here
    rw [right] at there
    exact here.trans ((agree.rows m listed).trans there.symm)
  rw [left, right]
  refine { agree with challenges := ?_, rows := rows }
  unfold Store.deleteChallenge
  rw [agree.challenges]

theorem recorded
    (foreign : chargedTo f.peer (a.plugin ++ "|" ++ a.sender) = false) :
    (a.charge d).1 = (a.charge e).1 ∧ f.Agree K (a.recorded K d) (a.recorded K e) ∧
      f.Agree K { d.pruned with senderLimiter := (a.charge d).2 }
        { e.pruned with senderLimiter := (a.charge e).2 } := by
  obtain ⟨decision, quota⟩ := agree.quota.allow foreign
    ((a.body.utf8ByteSize + (a.attachments.map (fun att => att.data.length)).sum) % 2 ^ 64)
  unfold Arrival.recorded Arrival.charge Daemon.pruned
  rw [← agree.clock]
  exact ⟨decision,
    { agree with clock := rfl, cache := agree.cache.prune.record (a.key K), quota := quota },
    agree.cfg, rfl, agree.guesses, agree.challenges, agree.trust, agree.rows, agree.cache.prune,
    quota⟩

theorem noted
    (foreign : chargedTo f.peer (a.plugin ++ "|" ++ a.sender) = false) :
    f.Agree K (a.noted K d) (a.noted K e) := by
  have kept := (agree.recorded foreign).2.1
  unfold Arrival.noted
  split
  · exact kept.noteFailedLinkGuess ..
  · exact kept

theorem persisted (io : Faults) (a : Arrival) :
    f.Agree K (a.persisted K io d) (a.persisted K io e) := by
  have desk := inboundStore_desk io d.store d.clock.utc d.clock.utc (a.envelope K d)
    (route d.cfg.routes a.source) d.cfg.limits
  have desk' := inboundStore_desk io e.store e.clock.utc e.clock.utc (a.envelope K e)
    (route e.cfg.routes a.source) e.cfg.limits
  refine { agree with
    challenges := desk.challenges.trans (agree.challenges.trans desk'.challenges.symm)
    trust := desk.nodeTrust.trans (agree.trust.trans desk'.nodeTrust.symm)
    rows := fun m listed => ?_ }
  unfold Arrival.persisted
  rw [messages_inboundStore, messages_inboundStore]
  split
  · exact agree.rows m listed
  · exact agree.rows_insert (a.envelope K d) (a.envelope K e) rfl m listed

theorem handle (io : Faults)
    (foreign : chargedTo f.peer (a.plugin ++ "|" ++ a.sender) = false)
    (target : f.ids a.ids.targetNotice = false) (requester : f.ids a.ids.requesterNotice = false) :
    f.Agree K ((a.handle K io).run d).2 ((a.handle K io).run e).2 := by
  obtain ⟨decision, kept, limited⟩ := agree.recorded (a := a) foreign
  have answers : a.answers io d = a.answers io e := by
    unfold Arrival.answers Store.findActiveChallenge
    rw [agree.challenges, agree.clock]
  have watched : f.Watched K (a.key K) := .inr (.inr ⟨_, rfl⟩)
  rw [Arrival.handle_run, Arrival.handle_run, agree.cached watched, ← decision, ← answers]
  split
  · exact agree.pruned
  split
  · exact limited
  cases a.answers io d with
  | some challenge =>
    rw [← agree.clock]
    exact kept.confirmLink target requester ..
  | none =>
    dsimp only
    rw [agree.cfg]
    split
    · exact agree.noted foreign
    · exact (agree.noted foreign).persisted io a

end

end Agree

theorem quiet (hex : K.HexDigests) (t : Traffic) (d e : Daemon) (admits : f.Admits K t)
    (hidden : f.hides t = true) (agree : f.Agree K d e) : f.Agree K (t.step K d) e := by
  cases t with
  | present io peerNodeId p targetRoute =>
    obtain rfl : peerNodeId = f.peer := by simpa [hides] using hidden
    exact agree.present_left hex io admits
  | row m stored =>
    refine { agree with rows := fun m' listed => ?_ }
    have apart : m' ≠ m := by
      rintro rfl
      simp [hides, listed] at hidden
    rw [← agree.rows m' listed]
    simp [Traffic.step, Map.contains, apart]
  | own change =>
    exact ⟨agree.cfg, agree.clock, agree.guesses, agree.challenges, agree.trust, agree.rows,
      agree.cache, agree.quota⟩
  | inbound | tick | reload | desk | restart => cases hidden

theorem loud (node : IsNodeId f.peer) (t : Traffic) (d e : Daemon) (admits : f.Admits K t)
    (visible : f.hides t = false) (agree : f.Agree K d e) :
    f.Agree K (t.step K d) (t.step K e) := by
  cases t with
  | present io peerNodeId p targetRoute =>
    have other : peerNodeId ≠ f.peer := by simpa [hides] using visible
    exact (agree.present node io other admits).2
  | inbound io a => exact agree.handle io admits.1 admits.2.1 admits.2.2
  | tick utc elapsed =>
    have order : d.clock.instant ≤ d.clock.instant + elapsed := by omega
    refine { agree with
      clock := ?_
      cache := agree.cache.later order
      quota := agree.quota.later order }
    exact congrArg (fun clock : Clock => (⟨utc, clock.instant + elapsed⟩ : Clock)) agree.clock
  | reload cfg =>
    exact { agree with cfg := rfl, cache := agree.cache.setTtl _, quota := .refl _ }
  | desk challenges nodeTrust =>
    exact { agree with challenges := rfl, trust := rfl }
  | row m stored =>
    refine { agree with rows := fun m' listed => ?_ }
    have before := agree.rows m' listed
    unfold Map.contains at before
    by_cases same : m' = m
    · simp [Traffic.step, Map.contains, same]
    · simp [Traffic.step, Map.contains, same, before]
  | own change => cases visible
  | restart =>
    refine { agree with guesses := rfl, cache := ?_, quota := ?_ }
    · simp only [Traffic.step, Daemon.restarted, Daemon.new, agree.cfg]
      exact .refl _
    · simp only [Traffic.step, Daemon.restarted, Daemon.new, agree.cfg]
      exact .refl _

end Foreign

/-- Two runs that differ only in what one peer presents and in what the daemon's own tasks make of
it: every federated call for another peer has the same outcome in both, the verdict of the limiter
included. -/
theorem peer_quota_isolated (K : Crypto) (hex : K.HexDigests) (f : Foreign) (node : IsNodeId f.peer)
    (first second : List Traffic) (d : Daemon) (admits₁ : ∀ t ∈ first, f.Admits K t)
    (admits₂ : ∀ t ∈ second, f.Admits K t)
    (same : first.filter (fun t => !f.hides t) = second.filter (fun t => !f.hides t))
    (io : Faults) (peerNodeId targetRoute : String) (p : Presentation) (other : peerNodeId ≠ f.peer)
    (last : f.Admits K (.present io peerNodeId p targetRoute)) :
    ((present K io peerNodeId p targetRoute).run (Traffic.run K first d)).1 =
      ((present K io peerNodeId p targetRoute).run (Traffic.run K second d)).1 := by
  have agree : f.Agree K (Traffic.run K first d) (Traffic.run K second d) :=
    drive_related (fun d => Foreign.Agree.refl d) (fun _ _ agree => agree.symm)
      (fun _ _ _ one two => one.trans two) (Foreign.quiet hex) (Foreign.loud node) admits₁
      admits₂ same d
  exact (agree.present node io other last).1

def nodeNamed (first other : Char) : String :=
  String.ofList ('r' :: 'f' :: ':' :: (List.replicate 8 first ++ List.replicate 56 other))

theorem nodeNamed_is {first other : Char} (hex : first ∈ "0123456789abcdef".toList)
    (hex' : other ∈ "0123456789abcdef".toList) : IsNodeId (nodeNamed first other) := by
  refine ⟨_, String.toList_ofList, by simp, fun c member => ?_⟩
  rcases mem_append.mp member with front | back
  · rw [(mem_replicate.mp front).2]
    exact hex
  · rw [(mem_replicate.mp back).2]
    exact hex'

theorem short_nodeNamed {first : Char} (hex : first ≠ 'r') (other : Char) :
    shortNodeId (nodeNamed first other) = String.ofList (List.replicate 8 first) := by
  unfold shortNodeId nodeNamed
  rw [String.toList_ofList, trimScheme]
  exact congrArg (fun digits => String.ofList (digits.take 8)) (trimScheme_cons hex _)

def Daemon.strict : Daemon :=
  Daemon.small .empty |>.applyConfig { Config.small with limits := ⟨1, 0, 0, 0⟩ }

def greeting (nodeId : String) (m : Uuid) : Traffic :=
  .present .none nodeId (.plain (.hello m)) "in"

def greeted (traffic : List Traffic) (nodeId : String) (m : Uuid) : FedIngressOutcome :=
  ((present (.clear "rf:a") .none nodeId (.plain (.hello m)) "in").run
    (Traffic.run (.clear "rf:a") traffic .strict)).1

private def otherTwo : Foreign := ⟨nodeNamed 'a' 'a', fun m => m == ⟨2⟩, fun _ => false⟩

theorem peer_quota_isolated_two :
    greeted [greeting (nodeNamed 'a' 'a') ⟨1⟩] (nodeNamed 'b' 'a') ⟨2⟩ = .accepted ⟨2⟩ := by
  have other : nodeNamed 'b' 'a' ≠ otherTwo.peer := by decide +kernel
  have apart : shortNodeId (nodeNamed 'b' 'a') ≠ shortNodeId otherTwo.peer := by
    decide +kernel
  refine peer_quota_isolated (.clear "rf:a") (Crypto.clear_hexDigests _) otherTwo
    (nodeNamed_is (by decide) (by decide)) _ [] .strict (fun t member => ?_) (by simp)
    (by simp [otherTwo, greeting, Foreign.hides]) .none (nodeNamed 'b' 'a') "in"
    (.plain (.hello ⟨2⟩)) other ?_
  · rw [mem_singleton.mp member]
    unfold Foreign.Admits greeting
    dsimp only
    rfl
  · unfold Foreign.Admits
    dsimp only
    exact ⟨rfl, nodeNamed_is (by decide) (by decide), apart⟩

theorem present_desk (K : Crypto) (io : Faults) (peerNodeId : String) (p : Presentation)
    (targetRoute : String)
    (d : Daemon) : d.store.SameDesk ((present K io peerNodeId p targetRoute).run d).2.store := by
  have effect := present_effect K io peerNodeId p targetRoute d
  generalize ((present K io peerNodeId p targetRoute).run d).1 = outcome at effect
  generalize ((present K io peerNodeId p targetRoute).run d).2 = d' at effect
  cases effect with
  | refused reason other d' quiet => rcases quiet with rfl | rfl <;> exact ⟨rfl, rfl⟩
  | recorded | duplicate => exact ⟨rfl, rfl⟩
  | through env clamped routeCfg fed senderKey =>
    unfold acceptRun
    dsimp only
    split
    · exact persistStore_desk ..
    · exact ⟨rfl, rfl⟩

theorem greeted_short (same : shortNodeId b = shortNodeId a) (m m' : Uuid) :
    greeted [greeting a m] b m' = greeted [greeting a m] a m' := by
  have trust : (Traffic.run (.clear "rf:a") [greeting a m] .strict).store.nodeTrust = Map.empty :=
    (present_desk ..).nodeTrust
  unfold greeted present
  generalize Traffic.run (.clear "rf:a") [greeting a m] .strict = d at trust
  have gate : fedGate (.clear "rf:a") d b (.hello m') "in" =
      fedGate (.clear "rf:a") d a (.hello m') "in" := by
    unfold fedGate trustDenied Store.trustLevel
    rw [trust]
    rfl
  have key (env : Envelope) : fedSenderKey b env = fedSenderKey a env := by
    unfold fedSenderKey
    rw [same]
  rw [fedIngress_run, fedIngress_run, gate]
  cases fedGate (.clear "rf:a") d a (.hello m') "in" with
  | error refusal => rfl
  | ok pair =>
    dsimp only
    rw [key]

/-- Two node ids with the same first eight digits: one message from the first peer uses up the quota
of the second. -/
theorem short_id_shares_quota :
    ∃ a b, IsNodeId a ∧ IsNodeId b ∧ a ≠ b ∧ greeted [greeting a ⟨1⟩] b ⟨2⟩ = .rejected
      .rateLimited ∧ greeted [] b ⟨2⟩ = .accepted ⟨2⟩ := by
  have apart : nodeNamed 'a' 'a' ≠ nodeNamed 'a' 'b' := by decide +kernel
  have same : shortNodeId (nodeNamed 'a' 'b') = shortNodeId (nodeNamed 'a' 'a') := by
    rw [short_nodeNamed (by decide), short_nodeNamed (by decide)]
  have after : greeted [greeting (nodeNamed 'a' 'a') ⟨1⟩] (nodeNamed 'a' 'b') ⟨2⟩ =
      .rejected .rateLimited := by
    rw [greeted_short same]
    unfold greeted greeting Traffic.run drive
    decide +kernel
  have alone : greeted [] (nodeNamed 'a' 'b') ⟨2⟩ = .accepted ⟨2⟩ := by
    unfold greeted present
    decide +kernel
  exact ⟨nodeNamed 'a' 'a', nodeNamed 'a' 'b', nodeNamed_is (by decide) (by decide),
    nodeNamed_is (by decide) (by decide), apart, after, alone⟩

-- Where the first peer presents what the second presents as well, the second is charged for one
-- message less.
example :
    greeted [greeting (nodeNamed 'a' 'a') ⟨1⟩, greeting (nodeNamed 'b' 'a') ⟨1⟩]
        (nodeNamed 'b' 'a') ⟨2⟩ = .accepted ⟨2⟩ ∧
      greeted [greeting (nodeNamed 'b' 'a') ⟨1⟩] (nodeNamed 'b' 'a') ⟨2⟩ =
      .rejected .rateLimited := by
  unfold greeted greeting Traffic.run drive
  simp only [foldl_cons, foldl_nil, Traffic.step, present, fedIngress_run, fedSenderKey,
    short_nodeNamed (show 'a' ≠ 'r' by decide), short_nodeNamed (show 'b' ≠ 'r' by decide)]
  decide +kernel

end RelayFabric
