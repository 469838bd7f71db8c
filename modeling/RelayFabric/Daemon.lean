/- source: engine.rs (Daemon), cas.rs, alias.rs, fed/{mod,sign,seal,wire,conn}.rs, crates/relay-ipc
   digest: The shared state of one gateway, and what it takes from cryptography and encoding. -/

import RelayFabric.Config
import RelayFabric.Storage
import RelayFabric.Admission
import RelayFabric.Lib.Prog
import Mathlib.Data.Nat.Digits.Defs

namespace RelayFabric

open Lib

structure SealedEnvelope where
  alg : String
  id : String
  expiresAt : Int
  epk : Bytes
  nonce : Bytes
  ct : Bytes
  deriving DecidableEq, Repr

inductive SealError
  | unsupportedAlg | badSeal | badBinding
  deriving DecidableEq, Repr

def sealAlgV1 : String := "x25519-xchacha20poly1305-v1"

inductive Fed
  | envelope (env : Envelope) (targetRoute : String)
  | sealed (sealed : SealedEnvelope) (targetRoute : String)
  | ack (id : String)
  | ping
  | pong
  | unknown
  deriving DecidableEq, Repr

structure IpcAttachment where
  filename : String
  mime : String
  data : Bytes
  deriving DecidableEq, Repr

inductive DaemonToPlugin
  | send (corr : Nat) (endpoint kind body : String) (attachments : List IpcAttachment)
  | sendDirect (corr : Nat) (nativeRef body : String)
  deriving DecidableEq, Repr

structure Channel (φ : Type) where
  queue : List φ
  capacity : Nat
  closed : Bool
  deriving DecidableEq

def Channel.trySend {φ : Type} (c : Channel φ) (frame : φ) : Option (Channel φ) :=
  if c.closed then none
  else if c.capacity ≤ c.queue.length then none
  else some { c with queue := c.queue ++ [frame] }

def Channel.room {φ : Type} (c : Channel φ) : Bool :=
  !c.closed && decide (c.queue.length < c.capacity)

theorem Channel.room_of_trySend {φ : Type} {c c' : Channel φ} {frame : φ}
    (taken : c.trySend frame = some c') :
    c.room = true ∧ c' = { c with queue := c.queue ++ [frame] } := by
  unfold Channel.trySend at taken
  unfold Channel.room
  split_ifs at taken with closed full
  exact ⟨by simp [closed, Nat.lt_of_not_le full], (Option.some.inj taken).symm⟩

theorem Channel.trySend_eq_none {φ : Type} {c : Channel φ} {frame : φ} :
    c.trySend frame = none ↔ c.room = false := by
  unfold Channel.trySend Channel.room
  cases c.closed with
  | true => simp
  | false => simp

/-- What the engine calls in `sha2`, `fed::sign`, `fed::seal`, `fed::advert`, `alias` and
`ciborium`, under this node's keys. -/
structure Crypto where
  nodeId : String
  sha256 : Bytes → String
  aliasFor : String → String → String → String
  verifyChain : Envelope → Bool
  signOrigin : Envelope → OriginSig
  attest : Envelope → Int → Attestation
  encode : Envelope → Bytes
  decode : Bytes → Option Envelope
  publicKey : String → Option Bytes
  sealBytes : Nat → Bytes → String → Int → Bytes → SealedEnvelope
  unsealBytes : SealedEnvelope → Except SealError Bytes
  advertKey : Bytes → Option (String × Option String)

def utf8 (s : String) : Bytes := s.toUTF8.data.toList

def leBytes (n : Nat) : Bytes := (List.range 8).map (fun i => UInt8.ofNat (n / 256 ^ i))

def dedupKey (K : Crypto) (protocol sender endpoint body : String) (createdAt : Option Int)
    (shas : List String) : String :=
  let ts := (createdAt.map (fun t => toString (timestamp t))).getD ""
  let sorted := ",".intercalate (shas.insertionSort (· ≤ ·))
  K.sha256 ([protocol, sender, endpoint, ts, body, sorted].flatMap (fun field =>
    leBytes field.utf8ByteSize ++ utf8 field))

def trimScheme : List Char → List Char
  | 'r' :: 'f' :: ':' :: rest => trimScheme rest
  | cs => cs

def shortNodeId (nodeId : String) : String := String.ofList ((trimScheme nodeId.toList).take 8)

structure Cas where
  blobs : Map String Bytes
  budgetBytes : Nat
  totalBytes : Nat

namespace Cas

def put (K : Crypto) (c : Cas) (data : Bytes) : Option String × Cas :=
  let sha := K.sha256 data
  if c.blobs.contains sha then (some sha, c)
  else if 0 < c.budgetBytes ∧ c.budgetBytes < c.totalBytes + data.length then (none, c)
  else (some sha,
    { c with blobs := c.blobs.insert sha data, totalBytes := c.totalBytes + data.length })

def isValidSha (sha : String) : Bool :=
  sha.utf8ByteSize == 64 && sha.toList.all (fun c => c.isDigit || decide ('a' ≤ c ∧ c ≤ 'f'))

def get (K : Crypto) (c : Cas) (sha : String) : Option Bytes :=
  if isValidSha sha then (c.blobs sha).filter (fun data => K.sha256 data == sha) else none

def remove (c : Cas) (sha : String) : Cas :=
  if isValidSha sha then
    { c with blobs := c.blobs.erase sha
             totalBytes := c.totalBytes - ((c.blobs sha).elim 0 List.length) }
  else c

end Cas

structure PluginHandle where
  tx : Nat
  capabilities : Capabilities
  connected : Bool
  deriving DecidableEq, Repr

structure PeerConn where
  tx : Nat
  nodeId : String
  deriving DecidableEq, Repr

/-- Everything the tasks of one daemon share. Channels are known by number, so that a
cloned sender keeps its meaning after its map entry is replaced. The last field is a history
variable: how many frames for each delivery row a channel has taken. -/
structure Daemon where
  cfg : Config
  store : Store
  dedup : Dedup
  senderLimiter : SenderLimiter
  budgetLimiter : BudgetLimiter
  cas : Cas
  linkGuesses : List (String × Nat × Int)
  plugins : Map String PluginHandle
  pluginChannels : Map Nat (Channel DaemonToPlugin)
  conns : Option (Map String PeerConn)
  fedChannels : Map Nat (Channel Fed)
  clock : Clock
  entropy : Nat
  placed : Nat → Nat

/-- The critical sections of the engine, one label for each place a lock or a clock is taken.
The federated ingress sections and the row sections name what they work on. -/
inductive Section
  | cfg | clock | trust | headerPeek
  | peek (m : Uuid) | existing (m : Uuid) | sealedRead (m : Uuid) | quota (m : Uuid)
  | record (m : Uuid)
  | stamp (m : Uuid) | caps (m : Uuid) | persist (m : Uuid) | reject (m : Uuid)
  | inboundPeek | inboundQuota | inboundRecord | challenge | guesses | revoke | create
  | confirm (challenge : Nat) | blob
  | inboundPersist (m : Uuid) | notice (m : Uuid)
  | load (row : Nat) | mark (row : Nat) | attempt (row : Nat)
  | sendPlugin (row tx : Nat) | sendFed (row tx : Nat)
  | plugins | conns | budget | links | refs | adverts | entropy
  | snapshot | purge | result (row : Nat) | ack | requeue (row : Nat) | purgeDead
  deriving DecidableEq, Repr

abbrev Engine := Prog Section Daemon

namespace Daemon

def new (cfg : Config) (store : Store) (cas : Cas) (clock : Clock) (entropy : Nat)
    (placed : Nat → Nat) : Daemon where
  cfg := cfg
  store := store.recover
  dedup := Dedup.new (seconds cfg.dedupTtlSecs)
  senderLimiter := SenderLimiter.new cfg.limits.messagesPerMinute cfg.limits.bytesPerHour
  budgetLimiter := BudgetLimiter.new
  cas := cas
  linkGuesses := []
  plugins := Map.empty
  pluginChannels := Map.empty
  conns := cfg.federation.map (fun _ => Map.empty)
  fedChannels := Map.empty
  clock := clock
  entropy := entropy
  placed := placed

/-- `apply_config`: the configuration is swapped, both limiters start afresh, and new cache entries
live for the new time. -/
def applyConfig (new : Config) (d : Daemon) : Daemon :=
  { d with
    cfg := new
    senderLimiter := SenderLimiter.new new.limits.messagesPerMinute new.limits.bytesPerHour
    budgetLimiter := BudgetLimiter.new
    dedup := d.dedup.setTtl (seconds new.dedupTtlSecs) }

def countPlaced (d : Daemon) (row : Nat) : Daemon :=
  { d with placed := Function.update d.placed row (d.placed row + 1) }

def trySendPlugin (d : Daemon) (row tx : Nat) (frame : DaemonToPlugin) : Bool × Daemon :=
  match (d.pluginChannels tx).bind (fun c => c.trySend frame) with
  | some c => (true, { d.countPlaced row with pluginChannels := d.pluginChannels.insert tx c })
  | none => (false, d)

def trySendFed (d : Daemon) (row tx : Nat) (frame : Fed) : Bool × Daemon :=
  match (d.fedChannels tx).bind (fun c => c.trySend frame) with
  | some c => (true, { d.countPlaced row with fedChannels := d.fedChannels.insert tx c })
  | none => (false, d)

end Daemon

def Section.handover : Section → Option Nat
  | .sendPlugin row _ => some row
  | .sendFed row _ => some row
  | _ => none

def Section.hasRoom (d : Daemon) : Section → Bool
  | .sendPlugin _ tx => (d.pluginChannels tx).any Channel.room
  | .sendFed _ tx => (d.fedChannels tx).any Channel.room
  | _ => true

def Envelope.hello (id : Uuid) : Envelope :=
  Envelope.new id 0 ⟨"x", "lobby"⟩ ⟨"ann"⟩ "text" "hello" 0 (seconds 3600) 8

def Crypto.clear (node : String) : Crypto where
  nodeId := node
  sha256 _ := String.ofList (List.replicate 64 '0')
  aliasFor _ sender _ := sender
  verifyChain _ := true
  signOrigin _ := ⟨node, []⟩
  attest _ ts := ⟨node, ts, []⟩
  encode env := (Nat.digits 256 env.id.bits).map UInt8.ofNat
  decode bytes := (Uuid.ofNumber (Nat.ofDigits 256 (bytes.map UInt8.toNat))).map Envelope.hello
  publicKey _ := some []
  sealBytes _ plain id expires _ := ⟨sealAlgV1, id, expires, [], [], plain⟩
  unsealBytes sealed := .ok sealed.ct
  advertKey _ := none

theorem ofDigits_bytes (n : Nat) :
    Nat.ofDigits 256 (((Nat.digits 256 n).map UInt8.ofNat).map UInt8.toNat) = n := by
  have bytes : ((Nat.digits 256 n).map UInt8.ofNat).map UInt8.toNat = Nat.digits 256 n := by
    rw [List.map_map]
    conv_rhs => rw [← List.map_id (Nat.digits 256 n)]
    refine List.map_congr_left (fun digit member => ?_)
    have small := Nat.digits_lt_base (by decide) member
    simp [Nat.mod_eq_of_lt small]
  rw [bytes, Nat.ofDigits_digits]

theorem Crypto.clear_decode (node node' : String) (env : Envelope) :
    (Crypto.clear node).decode ((Crypto.clear node').encode env) = some (.hello env.id) := by
  unfold clear
  dsimp only
  rw [ofDigits_bytes, Uuid.ofNumber, dif_pos]
  rfl

def Config.small : Config where
  routes := [⟨"in", [⟨"x", "lobby"⟩], [⟨"b", "room"⟩], "pseudonymous", ⟨"alias", 0⟩,
    "gateway", none⟩]
  policies := []
  ttlDefaultSecs := 3600
  dedupTtlSecs := 3600
  retentionSecs := 3600
  hopLimit := 8
  maxAttachmentBytes := 1024
  limits := ⟨0, 0, 0, 0⟩
  transportBudgets := []
  federation := some ⟨"unknown", 4, 3600, "pseudonymous", ["in"],
    [⟨"hub", "rf:hub", "unknown", 0, none⟩], [], []⟩
  allowGatewayDecryption := true
  transports := []

def Daemon.small (store : Store) : Daemon :=
  Daemon.new Config.small store ⟨Map.empty, 0, 0⟩ ⟨0, 0⟩ 0 (fun _ => 0)

def Daemon.relay (mode : String) : Daemon :=
  { Daemon.new { Config.small with
        routes := [⟨"in", [⟨"x", "lobby"⟩], [⟨"fed", "hub/in"⟩], "pseudonymous", ⟨"alias", 0⟩,
          mode, none⟩]
        federation := some ⟨"unknown", 4, 3600, "pseudonymous", ["in"],
          [⟨"hub", "rf:hub", "unknown", 0, some "key"⟩], [], []⟩ }
      .empty ⟨Map.empty, 0, 0⟩ ⟨0, 0⟩ 0 (fun _ => 0) with
    conns := some (Map.empty.insert "hub" ⟨1, "rf:hub"⟩)
    fedChannels := Map.empty.insert 1 ⟨[], 64, false⟩ }

def Daemon.later (span : Int) (d : Daemon) : Daemon :=
  { d with clock := ⟨d.clock.utc + span, d.clock.instant + span⟩ }

def cfgSnapshot {α : Type} (read : Config → α) : Engine α := .observe .cfg (fun d => read d.cfg)

def utcNow : Engine Int := .observe .clock (fun d => d.clock.utc)

end RelayFabric
