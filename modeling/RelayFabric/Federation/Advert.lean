/- source: fed/conn.rs (advert_scope_allows, advert_keys_sane, receive_advert), storage.rs
   digest: The table of peer advertisements, and what each stored row vouches for. -/

import RelayFabric.Config.Validate
import RelayFabric.Lib.Ranking
import RelayFabric.Wire.Advert

namespace RelayFabric

open List Lib Option

def advertMaxNameChars : Nat := 64

def advertMaxFutureSecs : Int := 86400

def maxPeerAdverts : Nat := 10000

def saneKey (k : String) : Bool :=
  !k.isEmpty && decide (k.utf8ByteSize ≤ 32) &&
    k.toList.all (fun c => ('a' ≤ c && c ≤ 'z') || ('0' ≤ c && c ≤ '9') || c == '_' || c == '-')

def advertKeysSane (advert : Advert) : Bool :=
  advert.services.keys.all saneKey && advert.protocols.keys.all saneKey

def sanitizeAdvertName (name : String) : String :=
  String.ofList ((name.toList.filter (fun c => !isControl c && !isDisplaySpoofing c)).take
    advertMaxNameChars)

def advertScopeAllows (mode : String) (d : Daemon) (peerNodeId : String) : Bool :=
  match mode with
  | "disabled" => false
  | "public" => true
  | "federation" => !trustBelowAcceptFrom d peerNodeId
  | _ => false

inductive AdvertRejection
  | oversized
  | nodeIdMismatch
  | badSignature
  | invalidShape
  | expired
  | trustDenied
  deriving DecidableEq, Repr

structure AdvertRow where
  nodeId : String
  advertCbor : Bytes
  name : String
  expires : Int
  receivedAt : Int
  deriving DecidableEq, Repr

abbrev AdvertTable := Keyed AdvertRow AdvertRow.nodeId

namespace AdvertTable

def upsertPeerAdvert (t : AdvertTable) (row : AdvertRow) : AdvertTable :=
  t.upsert row
    (fun old => if old.expires < row.expires then { row with nodeId := old.nodeId } else old)
    (by intro old; split <;> rfl)

def purgeExpiredAdverts (t : AdvertTable) (now : Int) : AdvertTable :=
  t.keep (fun row => !decide (row.expires < now))

abbrev Before : AdvertRow → AdvertRow → Prop :=
  Keyed.LatestFirst AdvertRow.receivedAt AdvertRow.nodeId

def prunePeerAdverts (t : AdvertTable) (max : Nat) : AdvertTable :=
  Keyed.prune t (fun _ => true) Before max

end AdvertTable

def fromTimestamp (secs : Int) : Option Int :=
  if InRange (seconds secs) then some (seconds secs) else none

def checkAdvert (P : Platform) (mode : String) (d : Daemon) (peerNodeId : String) (advert : Advert)
    (now : Int) : Except AdvertRejection Unit := do
  ensure (decide (advert.encode.length ≤ advertMaxBytes)) .oversized
  ensure (advert.nodeId == peerNodeId) .nodeIdMismatch
  ensure (advert.verify P).isOk .badSignature
  ensure (advertKeysSane advert) .invalidShape
  ensure (decide (timestamp now < advert.expires.toInt)) .expired
  ensure (advertScopeAllows mode d peerNodeId) .trustDenied

def clampedExpires (secs now : Int) : Int :=
  (fromTimestamp (min secs (timestamp now + advertMaxFutureSecs))).getD now

def advertRow (advert : Advert) (now : Int) : AdvertRow where
  nodeId := advert.nodeId
  advertCbor := advert.encode
  name := sanitizeAdvertName advert.name
  expires := clampedExpires advert.expires.toInt now
  receivedAt := now

def receiveAdvert (P : Platform) (mode : String) (d : Daemon) (peerNodeId : String)
    (advert : Advert) (now : Int) (t : AdvertTable) : Except AdvertRejection AdvertTable := do
  checkAdvert P mode d peerNodeId advert now
  .ok ((t.upsertPeerAdvert (advertRow advert now)).prunePeerAdverts maxPeerAdverts)

structure AdvertAccepted (P : Platform) (mode : String) (d : Daemon) (peerNodeId : String)
    (advert : Advert) (now : Int) : Prop where
  small : advert.encode.length ≤ advertMaxBytes
  bound : advert.nodeId = peerNodeId
  verified : advert.verify P = .ok ()
  sane : advertKeysSane advert = true
  fresh : timestamp now < advert.expires.toInt
  allowed : advertScopeAllows mode d peerNodeId = true

section

variable {P : Platform} {mode : String} {d : Daemon} {peerNodeId : String} {advert : Advert}
    {now : Int}

theorem checkAdvert_ok : checkAdvert P mode d peerNodeId advert now = .ok () ↔
    AdvertAccepted P mode d peerNodeId advert now := by
  have verified : (advert.verify P).isOk = true ↔ advert.verify P = .ok () := by
    cases advert.verify P with
    | error e | ok u => simp [Except.isOk, Except.toBool]
  unfold checkAdvert
  simp only [seq_ok, ensure_ok, decide_eq_true_eq, beq_iff_eq, verified]
  constructor
  · rintro ⟨small, bound, verified, sane, fresh, allowed⟩
    exact ⟨small, bound, verified, sane, fresh, allowed⟩
  · rintro ⟨small, bound, verified, sane, fresh, allowed⟩
    exact ⟨small, bound, verified, sane, fresh, allowed⟩

theorem receiveAdvert_of_accepted (accepted : AdvertAccepted P mode d peerNodeId advert now)
    (t : AdvertTable) : receiveAdvert P mode d peerNodeId advert now t =
      .ok ((t.upsertPeerAdvert (advertRow advert now)).prunePeerAdverts maxPeerAdverts) := by
  unfold receiveAdvert
  rw [checkAdvert_ok.mpr accepted]
  rfl

theorem receiveAdvert_of_rejected {reason : AdvertRejection}
    (checked : checkAdvert P mode d peerNodeId advert now = .error reason) (t : AdvertTable) :
    receiveAdvert P mode d peerNodeId advert now t = .error reason := by
  unfold receiveAdvert
  rw [checked]
  rfl

end

namespace AdvertTable

variable {t : AdvertTable} {row : AdvertRow}

theorem mem_upsertPeerAdvert {new : AdvertRow}
    (member : row ∈ (t.upsertPeerAdvert new).rows) : row ∈ t.rows ∨ row = new := by
  have found := (Keyed.get?_eq_some _).mpr ⟨member, rfl⟩
  unfold upsertPeerAdvert at found
  rw [Keyed.get?_upsert] at found
  split_ifs at found with same
  · cases held : t.get? row.nodeId with
    | none =>
      rw [held] at found
      exact Or.inr (Option.some.inj found).symm
    | some old =>
      rw [held] at found
      obtain ⟨present, named⟩ := (Keyed.get?_eq_some _).mp held
      rw [elim_some] at found
      split_ifs at found with newer
      · right
        rw [← Option.some.inj found, named, same]
      · exact Or.inl (Option.some.inj found ▸ present)
  · exact Or.inl ((Keyed.get?_eq_some _).mp found).1

theorem expires_upsertPeerAdvert {new row' : AdvertRow} (old : row ∈ t.rows)
    (member : row' ∈ (t.upsertPeerAdvert new).rows) (same : row'.nodeId = row.nodeId) :
    row.expires ≤ row'.expires := by
  have held : t.get? row'.nodeId = some row := (Keyed.get?_eq_some _).mpr ⟨old, same.symm⟩
  have found := (Keyed.get?_eq_some _).mpr ⟨member, rfl⟩
  unfold upsertPeerAdvert at found
  rw [Keyed.get?_upsert, held] at found
  split_ifs at found with named
  · rw [elim_some] at found
    split_ifs at found with newer
    · rw [← Option.some.inj found]
      exact newer.le
    · rw [Option.some.inj found]
  · rw [Option.some.inj found]

theorem mem_keep {select : AdvertRow → Bool} (member : row ∈ (t.keep select).rows) :
    row ∈ t.rows := mem_of_mem_filter member

theorem length_keep_le (t : AdvertTable) (select : AdvertRow → Bool) :
    (t.keep select).rows.length ≤ t.rows.length := length_filter_le _ _

theorem length_prunePeerAdverts_le (t : AdvertTable) (max : Nat) :
    (t.prunePeerAdverts max).rows.length ≤ max := by
  have cap : ((t.prunePeerAdverts max).rows.filter (fun _ => true)).length ≤ max :=
    Keyed.length_prune_le
  rwa [filter_true] at cap

end AdvertTable

theorem sanitizeAdvertName_idem (name : String) :
    sanitizeAdvertName (sanitizeAdvertName name) = sanitizeAdvertName name := by
  unfold sanitizeAdvertName
  rw [String.toList_ofList]
  have clean : ∀ c ∈ (name.toList.filter (fun c => !isControl c && !isDisplaySpoofing c)).take
      advertMaxNameChars, (!isControl c && !isDisplaySpoofing c) = true := by
    intro c member
    exact (mem_filter.mp (mem_of_mem_take member)).2
  rw [filter_eq_self.mpr clean, take_take, Nat.min_self]

theorem advertRow_expires_le (advert : Advert) (now : Int) :
    (advertRow advert now).expires ≤ now + seconds 86400 := by
  have clamp : min advert.expires.toInt (timestamp now + advertMaxFutureSecs) ≤
      timestamp now + advertMaxFutureSecs := min_le_right _ _
  unfold advertRow clampedExpires fromTimestamp
  dsimp only
  generalize min advert.expires.toInt (timestamp now + advertMaxFutureSecs) = secs at clamp ⊢
  unfold timestamp advertMaxFutureSecs at clamp
  split_ifs with range
  · rw [getD_some]
    unfold seconds
    omega
  · rw [getD_none]
    unfold seconds
    omega

namespace AdvertTable

inductive Move
  | frame (mode : String) (d : Daemon) (peerNodeId : String) (advert : Advert) (now : Int)
  | purge (now : Int)
  | prune (max : Nat)

def apply (P : Platform) (t : AdvertTable) : Move → AdvertTable
  | .frame mode d peer advert now =>
    match receiveAdvert P mode d peer advert now t with
    | .ok t' => t'
    | .error _ => t
  | .purge now => t.purgeExpiredAdverts now
  | .prune max => t.prunePeerAdverts max

def run (P : Platform) (moves : List Move) : AdvertTable := moves.foldl (apply P) .empty

theorem apply_cases (P : Platform) (t : AdvertTable) (m : Move) :
    (∃ mode d advert now, m = .frame mode d advert.nodeId advert now ∧
        AdvertAccepted P mode d advert.nodeId advert now ∧
        apply P t m = (t.upsertPeerAdvert (advertRow advert now)).prunePeerAdverts maxPeerAdverts) ∨
      ∃ select, apply P t m = t.keep select := by
  cases m with
  | purge now | prune max => exact Or.inr ⟨_, rfl⟩
  | frame mode d peer advert now =>
    cases checked : checkAdvert P mode d peer advert now with
    | error reason =>
      right
      refine ⟨fun _ => true, ?_⟩
      have kept : apply P t (.frame mode d peer advert now) = t := by
        simp [apply, receiveAdvert_of_rejected checked]
      rw [kept]
      simp [Keyed.keep]
    | ok u =>
      have accepted := checkAdvert_ok.mp checked
      obtain rfl := accepted.bound
      left
      refine ⟨mode, d, advert, now, rfl, accepted, ?_⟩
      simp [apply, receiveAdvert_of_accepted accepted]

/-- What a stored row vouches for: an advertisement that its own node sent over a connection
authenticated as that node. -/
structure Vouched (P : Platform) (moves : List Move) (row : AdvertRow) : Prop where
  received : ∃ mode d advert, Move.frame mode d row.nodeId advert row.receivedAt ∈ moves ∧
    Advert.decode row.advertCbor = some advert ∧ advert.verify P = .ok () ∧
      advert.nodeId = row.nodeId ∧ row.name = sanitizeAdvertName advert.name
  expires : row.expires ≤ row.receivedAt + seconds 86400
  clean : sanitizeAdvertName row.name = row.name

variable {P : Platform} {moves : List Move} {t : AdvertTable}

theorem Vouched.mono {row : AdvertRow} (vouched : Vouched P moves row)
    (m : Move) : Vouched P (moves ++ [m]) row := by
  obtain ⟨⟨mode, d, advert, member, rest⟩, expires, clean⟩ := vouched
  exact ⟨⟨mode, d, advert, mem_append_left _ member, rest⟩, expires, clean⟩

theorem vouched_advertRow {mode : String} {d : Daemon} {advert : Advert} {now : Int}
    (accepted : AdvertAccepted P mode d advert.nodeId advert now)
    (member : Move.frame mode d advert.nodeId advert now ∈ moves) :
    Vouched P moves (advertRow advert now) := by
  have short : advert.encode.length < 2 ^ 64 := accepted.small.trans_lt (by decide)
  exact ⟨⟨mode, d, advert, member, Advert.decode_encode short, accepted.verified, rfl, rfl⟩,
    advertRow_expires_le .., sanitizeAdvertName_idem advert.name⟩

theorem vouched_apply (vouched : ∀ row ∈ t.rows, Vouched P moves row) (m : Move) :
    ∀ row ∈ (apply P t m).rows, Vouched P (moves ++ [m]) row := by
  intro row member
  rcases apply_cases P t m with ⟨mode, d, advert, now, rfl, accepted, applied⟩ | ⟨select, applied⟩
  · rw [applied] at member
    have upserted : row ∈ (t.upsertPeerAdvert (advertRow advert now)).rows :=
      (Keyed.mem_prune.mp member).1
    rcases mem_upsertPeerAdvert upserted with old | rfl
    · exact (vouched row old).mono _
    · exact vouched_advertRow accepted (mem_append_right _ mem_cons_self)
  · rw [applied] at member
    exact (vouched row (mem_keep member)).mono _

theorem length_apply_le (few : t.rows.length ≤ maxPeerAdverts) (m : Move) :
    (apply P t m).rows.length ≤ maxPeerAdverts := by
  rcases apply_cases P t m with ⟨_, _, _, _, -, -, applied⟩ | ⟨select, applied⟩
  · rw [applied]
    exact length_prunePeerAdverts_le _ _
  · rw [applied]
    exact (length_keep_le ..).trans few

theorem expires_apply_le {m : Move} {row row' : AdvertRow}
    (old : row ∈ t.rows) (new : row' ∈ (apply P t m).rows) (same : row'.nodeId = row.nodeId) :
    row.expires ≤ row'.expires := by
  rcases apply_cases P t m with ⟨_, _, _, _, -, -, applied⟩ | ⟨select, applied⟩
  · rw [applied] at new
    exact expires_upsertPeerAdvert old (Keyed.mem_prune.mp new).1 same
  · rw [applied] at new
    have equal := inj_on_of_nodup_map t.distinct (mem_keep new) old same
    rw [equal]

/-- The table after any frames of any peers, purges and prunes. -/
theorem advert_store_invariant (P : Platform) (moves : List Move) :
    (∀ row ∈ (run P moves).rows, Vouched P moves row) ∧
      (run P moves).rows.length ≤ 10000 ∧
      ∀ m, ∀ row ∈ (run P moves).rows, ∀ row' ∈ (run P (moves ++ [m])).rows,
        row'.nodeId = row.nodeId → row.expires ≤ row'.expires := by
  have later : ∀ moves m, run P (moves ++ [m]) = apply P (run P moves) m :=
    fun moves m => foldl_concat ..
  have kept : (∀ row ∈ (run P moves).rows, Vouched P moves row) ∧
      (run P moves).rows.length ≤ maxPeerAdverts := by
    induction moves using List.reverseRecOn with
    | nil => exact ⟨fun row member => absurd member not_mem_nil, Nat.zero_le _⟩
    | append_singleton moves m ih =>
      rw [later]
      exact ⟨vouched_apply ih.1 m, length_apply_le ih.2 m⟩
  refine ⟨kept.1, kept.2, ?_⟩
  intro m row old row' new same
  rw [later] at new
  exact expires_apply_le old new same

def echoing : Platform :=
  { Platform.unsigned with
    sign := fun node msg => Cbor.utf8 node ++ msg
    verify := fun node msg sig => sig == Cbor.utf8 node ++ msg }

def hubAdvert : Advert :=
  Advert.sign echoing "rf:aa"
    { rfVersion := 1
      nodeId := "rf:aa"
      name := "hub"
      services := .ofList [("federation", true)] compare
      protocols := .ofList [("lxmf", ⟨true, true, true, false, none⟩)] compare
      security := ⟨true, true, true, none⟩
      expires := 100
      sig := [] }

/-- One node's advertisement, received and sent again by another node, which is refused. -/
theorem advert_store_invariant_hub :
    let moves := [Move.frame "public" (.relay "gateway") "rf:aa" hubAdvert (seconds 10),
      Move.frame "public" (.relay "gateway") "rf:bb" hubAdvert (seconds 11)]
    (run echoing moves).rows.map (fun row => (row.nodeId, row.name, row.expires)) =
        [("rf:aa", "hub", seconds 100)] ∧
      (∀ row ∈ (run echoing moves).rows, Vouched echoing moves row) ∧
      ∀ row ∈ (run echoing moves).rows,
        ∀ row' ∈ (run echoing (moves ++ [Move.purge (seconds 12)])).rows,
        row'.nodeId = row.nodeId → row.expires ≤ row'.expires := by
  intro moves
  obtain ⟨vouched, -, later⟩ := advert_store_invariant echoing moves
  exact ⟨by decide +kernel, vouched, later (Move.purge (seconds 12))⟩

end AdvertTable

end RelayFabric
