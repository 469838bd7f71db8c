/- source: storage.rs
   digest: The SQLite store as tables, one definition for each statement the engine issues. -/

import RelayFabric.Core
import RelayFabric.Lib.Table
import Mathlib.Data.List.Sort

namespace RelayFabric

open Lib

inductive DeliveryState
  | pending | attempting | delivered | failed | expired | deadLetter
  deriving DecidableEq, Repr

def DeliveryState.live : DeliveryState → Bool
  | .pending | .attempting => true
  | .delivered | .failed | .expired | .deadLetter => false

def DeliveryState.requeueable : DeliveryState → Bool
  | .failed | .expired | .deadLetter => true
  | .pending | .attempting | .delivered => false

/-- Every reason text the engine stores in a row or returns in a verdict. -/
inductive Reason
  | destinationUnknown | ttlExpired | retryExhausted | policyDenied | frameOversize
  | notDirectCapable | fedDestMalformed | routeConfigMissing | noSealedKey | sealedOversize
  | expired | queueFull | fedConfigMissing | trustDenied | hopLimit | chainPeerMismatch
  | badSignature | routeNotFederated | duplicate | rateLimited | storageError | badSeal
  | sealUnsupported | sealBinding | securityDowngradeRefused
  deriving DecidableEq, Repr

structure Delivery where
  id : Nat
  messageId : Uuid
  route : String
  destination : Endpoint
  priority : Nat
  attemptCount : Nat
  state : DeliveryState
  reason : Option Reason
  nextAttempt : Int
  attemptedAt : Option Int
  expiresAt : Int
  createdAt : Int
  updatedAt : Int
  deriving DecidableEq, Repr

structure Challenge where
  id : Nat
  code : String
  targetProtocol : String
  targetRef : String
  requesterProtocol : String
  requesterRef : String
  displayName : String
  createdAt : Int
  expiresAt : Int
  deriving DecidableEq, Repr

structure Link where
  id : Nat
  aProtocol : String
  aRef : String
  bProtocol : String
  bRef : String
  displayName : String
  verifiedAt : Int
  deriving DecidableEq, Repr

structure PeerAdvert where
  nodeId : String
  advertCbor : Bytes
  expires : Int
  deriving DecidableEq, Repr

structure Store where
  messages : Map Uuid Envelope
  deliveries : Table Delivery Delivery.id
  attachmentRefs : List (Uuid × String)
  links : Table Link Link.id
  challenges : Table Challenge Challenge.id
  nodeTrust : Map String String
  peerAdverts : List PeerAdvert

namespace Store

def empty : Store where
  messages := Map.empty
  deliveries := .empty
  attachmentRefs := []
  links := .empty
  challenges := .empty
  nodeTrust := Map.empty
  peerAdverts := []

def insertMessage (s : Store) (env : Envelope) : Store :=
  { s with messages := s.messages.insertOrIgnore env.id env }

def getMessage (s : Store) (id : Uuid) : Option Envelope := s.messages id

def insertAttachmentRef (s : Store) (messageId : Uuid) (sha : String) : Store :=
  { s with attachmentRefs := s.attachmentRefs ++ [(messageId, sha)] }

def hasAttachmentRef (s : Store) (messageId : Uuid) (sha : String) : Bool :=
  decide ((messageId, sha) ∈ s.attachmentRefs)

def insertDelivery (s : Store) (now : Int) (messageId : Uuid) (route : String) (dest : Endpoint)
    (nextAttempt expiresAt : Int) (priority : Nat) : Store :=
  { s with deliveries := s.deliveries.insert (fun id =>
      { id, messageId, route, destination := dest, priority, attemptCount := 0, state := .pending,
        reason := none, nextAttempt, attemptedAt := none, expiresAt, createdAt := now,
        updatedAt := now }) }

def insertDeadDelivery (s : Store) (now : Int) (messageId : Uuid) (route : String)
    (dest : Endpoint) (nextAttempt expiresAt : Int) (reason : Reason) : Store :=
  { s with deliveries := s.deliveries.insert (fun id =>
      { id, messageId, route, destination := dest, priority := 2, attemptCount := 0,
        state := .deadLetter, reason := some reason, nextAttempt, attemptedAt := none, expiresAt,
        createdAt := now, updatedAt := now }) }

def pendingCount (s : Store) (route : Option String) : Nat :=
  (s.deliveries.rows.filter (fun r => r.state.live && route.all (r.route == ·))).length

def isDue (now : Int) (r : Delivery) : Bool :=
  r.state == .pending && decide (r.nextAttempt ≤ now)

def DueOrder (a b : Delivery) : Prop :=
  a.priority < b.priority ∨ (a.priority = b.priority ∧ a.nextAttempt ≤ b.nextAttempt)

instance (a b : Delivery) : Decidable (DueOrder a b) := inferInstanceAs (Decidable (_ ∨ _))

def dueDeliveries (s : Store) (now : Int) (limit : Nat) : List Delivery :=
  ((s.deliveries.rows.filter (isDue now)).insertionSort DueOrder).take limit

def updateDelivery (s : Store) (id : Nat) (guard : Delivery → Bool) (change : Delivery → Delivery)
    (keyed : ∀ r, (change r).id = r.id := by intros; rfl) : Store :=
  { s with deliveries := s.deliveries.update (fun r => r.id == id && guard r) change keyed }

/-- The one state change that no guard protects. -/
def markAttempting (s : Store) (now : Int) (id : Nat) : Store :=
  s.updateDelivery id (fun _ => true) (fun r =>
    { r with state := .attempting, attemptCount := r.attemptCount + 1, attemptedAt := some now,
             updatedAt := now })

def markDelivered (s : Store) (now : Int) (id : Nat) : Store :=
  s.updateDelivery id (fun r => r.state == .attempting) (fun r =>
    { r with state := .delivered, updatedAt := now })

def markRetry (s : Store) (now : Int) (id : Nat) (nextAttempt : Int) : Store :=
  s.updateDelivery id (fun r => r.state.live) (fun r =>
    { r with state := .pending, nextAttempt := nextAttempt, updatedAt := now })

def markTerminal (s : Store) (now : Int) (id : Nat) (state : DeliveryState) (reason : Reason) :
    Store :=
  s.updateDelivery id (fun r => r.state.live) (fun r =>
    { r with state := state, reason := some reason, updatedAt := now })

def requeue (s : Store) (now : Int) (id : Nat) : Store :=
  s.updateDelivery id (fun r => r.state.requeueable) (fun r =>
    { r with state := .pending, nextAttempt := now, attemptCount := 0, reason := none,
             updatedAt := now })

def recover (s : Store) : Store :=
  { s with deliveries := s.deliveries.update (fun r => r.state == .attempting) (fun r =>
      { r with state := .pending }) }

/-- A NULL `attempted_at` compares as unknown and is not selected. -/
def reclaimStale (s : Store) (olderThan : Int) : Store :=
  let stale (r : Delivery) : Bool :=
    r.state == .attempting && r.attemptedAt.any (fun t => decide (t < olderThan))
  { s with deliveries := s.deliveries.update stale (fun r => { r with state := .pending }) }

def orphanShas (s : Store) : List String :=
  ((s.attachmentRefs.map Prod.snd).dedup).filter (fun sha =>
    !s.attachmentRefs.any (fun ref => ref.2 == sha && s.messages.contains ref.1))

def pruneOrphans (s : Store) : List String × Store :=
  let owned (id : Uuid) (_ : Envelope) : Bool := s.deliveries.rows.any (fun r => r.messageId == id)
  let kept : Store := { s with messages := s.messages.retain owned }
  let refs := kept.attachmentRefs.filter (fun ref => kept.messages.contains ref.1)
  (kept.orphanShas, { kept with attachmentRefs := refs })

def purgeTerminal (s : Store) (olderThan : Int) : List String × Store :=
  let old (r : Delivery) : Bool := !r.state.live && decide (r.nextAttempt < olderThan)
  pruneOrphans { s with deliveries := s.deliveries.delete old }

def purgeDeadLetters (s : Store) : List String × Store :=
  pruneOrphans { s with deliveries := s.deliveries.delete (fun r => r.state == .deadLetter) }

/-- SQLite's `LIKE`: `%` is any run, `_` any character, ASCII letters match in either case. -/
def like : List Char → List Char → Bool
  | [], text => text.isEmpty
  | '%' :: pattern, text => text.tails.any (like pattern)
  | '_' :: pattern, text => !text.isEmpty && like pattern text.tail
  | c :: pattern, text => text.head?.any (fun d => c.toLower == d.toLower) && like pattern text.tail

def deliveriesForFedAck (s : Store) (messageId : Uuid) (peerKey : String) : List Delivery :=
  s.deliveries.rows.filter (fun r => r.messageId == messageId && r.destination.protocol == "fed" &&
    like (peerKey ++ "/%").toList r.destination.endpoint.toList)

def deliveriesForId (s : Store) (id : Nat) : Option Delivery := s.deliveries.get? id

def deleteChallengesForTarget (s : Store) (protocol reference : String) : Store :=
  { s with challenges := s.challenges.delete (fun c =>
      c.targetProtocol == protocol && c.targetRef == reference) }

def findActiveChallenge (s : Store) (protocol reference code : String) (now : Int) :
    Option Challenge :=
  s.challenges.rows.find? (fun c => c.targetProtocol == protocol && c.targetRef == reference &&
    c.code == code && decide (now < c.expiresAt))

def deleteChallenge (s : Store) (id : Nat) : Store :=
  { s with challenges := s.challenges.delete (fun c => c.id == id) }

def purgeExpiredChallenges (s : Store) (now : Int) : Store :=
  { s with challenges := s.challenges.delete (fun c => decide (c.expiresAt < now)) }

/-- An upsert on the ordered pair of identities that refreshes only `verified_at`. -/
def insertLink (s : Store) (aProtocol aRef bProtocol bRef displayName : String)
    (verifiedAt : Int) : Store :=
  let same (l : Link) : Bool :=
    l.aProtocol == aProtocol && l.aRef == aRef && l.bProtocol == bProtocol && l.bRef == bRef
  if s.links.rows.any same then
    { s with links := s.links.update same (fun l => { l with verifiedAt := verifiedAt }) }
  else
    { s with links := s.links.insert (fun id =>
        { id, aProtocol, aRef, bProtocol, bRef, displayName, verifiedAt }) }

def deleteLink (s : Store) (id : Nat) : Store :=
  { s with links := s.links.delete (fun l => l.id == id) }

def linkForIdentity (s : Store) (protocol reference : String) : Option Link :=
  s.links.rows.reverse.find? (fun l =>
    (l.aProtocol == protocol && l.aRef == reference) ||
      (l.bProtocol == protocol && l.bRef == reference))

def trustLevel (s : Store) (nodeId : String) : Option String := s.nodeTrust nodeId

def listPeerAdverts (s : Store) (now : Int) : List PeerAdvert :=
  s.peerAdverts.filter (fun a => decide (now < a.expires))

def purgeExpiredAdverts (s : Store) (now : Int) : Store :=
  { s with peerAdverts := s.peerAdverts.filter (fun a => !decide (a.expires < now)) }

end Store

end RelayFabric
