/- source: storage.rs (node_trust), engine.rs (trust gate)
   digest: The trust table: what the configuration decides, and what handshakes can add. -/

import Mathlib.Data.String.Basic
import RelayFabric.Lib.Ranking
import RelayFabric.Engine.Ingress

namespace RelayFabric

open List Lib

structure TrustRow where
  nodeId : String
  level : String
  firstSeen : Int
  updatedAt : Int
  deriving DecidableEq, Repr

abbrev TrustTable := Keyed TrustRow TrustRow.nodeId

namespace TrustTable

def level? (t : TrustTable) (node : String) : Option String := (t.get? node).map TrustRow.level

def recordSeen (t : TrustTable) (node : String) (now : Int) : TrustTable :=
  t.insertOrIgnore ⟨node, "seen", now, now⟩

def seedTrust (t : TrustTable) (node level : String) (now : Int) : TrustTable :=
  t.upsert ⟨node, level, now, now⟩ (fun row => { row with level := level, updatedAt := now })
    (fun _ => rfl)

def Revoked (authorized : List String) (row : TrustRow) : Prop :=
  (row.level = "verified" ∨ row.level = "trusted") ∧ row.nodeId ∉ authorized

instance (authorized : List String) (row : TrustRow) : Decidable (Revoked authorized row) :=
  inferInstanceAs (Decidable (_ ∧ _))

def downgrade (t : TrustTable) (authorized : List String) (now : Int) : TrustTable :=
  t.update
    (fun row => if Revoked authorized row then { row with level := "seen", updatedAt := now }
      else row)
    (by intro row; split <;> rfl)

def seedFederationTrust (t : TrustTable) (fed : FederationConfig) (now : Int) : TrustTable :=
  let authorized := fed.peers.map PeerConfig.nodeId ++ fed.trusted
  let t := t.downgrade authorized now
  let t := fed.peers.foldl (fun t peer => seedTrust t peer.nodeId peer.trust now) t
  let t := fed.trusted.foldl (fun t node => seedTrust t node "trusted" now) t
  fed.blocked.foldl (fun t node => seedTrust t node "blocked" now) t

abbrev Before : TrustRow → TrustRow → Prop := Keyed.LatestFirst TrustRow.firstSeen TrustRow.nodeId

def isSeen (row : TrustRow) : Bool := row.level == "seen"

/-- `max as i64`, and a negative offset skips nothing. -/
def offset (max : Nat) : Nat := if max < 2 ^ 63 then max else 0

def pruneSeenTrust (t : TrustTable) (max : Nat) : TrustTable :=
  Keyed.prune t isSeen Before (offset max)

theorem level?_seedTrust (t : TrustTable) (node level : String) (now : Int) (n : String) :
    (t.seedTrust node level now).level? n = if n = node then some level else t.level? n := by
  unfold level? seedTrust
  rw [Keyed.get?_upsert]
  split
  · cases t.get? n <;> rfl
  · rfl

private theorem level?_pass {ε : Type} (node level : ε → String) (now : Int) (entries : List ε)
    (t : TrustTable) (n : String) :
    (entries.foldl (fun t entry => t.seedTrust (node entry) (level entry) now) t).level? n =
      ((entries.filter (fun entry => node entry = n)).getLast?.map level).or (t.level? n) := by
  induction entries generalizing t with
  | nil => rfl
  | cons entry entries ih =>
    rw [foldl_cons, ih, level?_seedTrust]
    by_cases named : node entry = n
    · rw [filter_cons_of_pos (by simpa using named), List.getLast?_cons, if_pos named.symm]
      cases (entries.filter (fun entry => node entry = n)).getLast? <;> rfl
    · rw [filter_cons_of_neg (by simpa using named), if_neg (Ne.symm named)]

private theorem level?_listed (listed : List String) (level : String) (now : Int) (t : TrustTable)
    (n : String) :
    (listed.foldl (fun t node => t.seedTrust node level now) t).level? n =
      if n ∈ listed then some level else t.level? n := by
  have pass := level?_pass id (fun _ => level) now listed t n
  simp only [id] at pass
  rw [pass]
  split
  · next member =>
    have nonempty : listed.filter (fun entry => entry = n) ≠ [] := by
      rw [Ne, filter_eq_nil_iff]
      intro none
      exact none n member (by simp)
    rw [List.getLast?_eq_some_getLast nonempty]
    rfl
  · next absent =>
    have empty : listed.filter (fun entry => entry = n) = [] := by
      rw [filter_eq_nil_iff]
      intro entry member same
      exact absent (of_decide_eq_true same ▸ member)
    rw [empty]
    rfl

private theorem level?_downgrade (t : TrustTable) (authorized : List String) (now : Int)
    (n : String) :
    (t.downgrade authorized now).level? n =
      if (t.level? n = some "verified" ∨ t.level? n = some "trusted") ∧ n ∉ authorized
      then some "seen" else t.level? n := by
  unfold level? downgrade
  rw [Keyed.get?_update]
  cases found : t.get? n with
  | none => simp
  | some row =>
    have named : row.nodeId = n := (t.get?_eq_some.mp found).2
    simp only [Option.map_some, Option.some.injEq, Revoked, named]
    split <;> rfl

def seededLevel (fed : FederationConfig) (node : String) (old : Option String) : Option String :=
  if node ∈ fed.blocked then some "blocked"
  else if node ∈ fed.trusted then some "trusted"
  else match (fed.peers.filter (fun peer => peer.nodeId = node)).getLast? with
    | some peer => some peer.trust
    | none => if old = some "verified" ∨ old = some "trusted" then some "seen" else old

theorem level?_seedFederationTrust (t : TrustTable) (fed : FederationConfig) (now : Int)
    (node : String) :
    (t.seedFederationTrust fed now).level? node = seededLevel fed node (t.level? node) := by
  unfold seedFederationTrust seededLevel
  simp only [level?_listed]
  rw [level?_pass PeerConfig.nodeId PeerConfig.trust, level?_downgrade]
  by_cases isBlocked : node ∈ fed.blocked
  · rw [if_pos isBlocked, if_pos isBlocked]
  by_cases isTrusted : node ∈ fed.trusted
  · rw [if_pos isTrusted, if_pos isTrusted]
  cases last : (fed.peers.filter (fun peer => peer.nodeId = node)).getLast? with
  | some peer => rfl
  | none =>
    -- no entry names the node, so the downgrade is the only statement that can reach it
    have unlisted : node ∉ fed.peers.map PeerConfig.nodeId ++ fed.trusted := by
      have empty := List.getLast?_eq_none_iff.mp last
      rw [mem_append, not_or]
      refine ⟨?_, isTrusted⟩
      rw [mem_map]
      rintro ⟨peer, member, named⟩
      exact filter_eq_nil_iff.mp empty peer member (by simpa using named)
    simp [unlisted]

theorem seededLevel_idem (fed : FederationConfig) (node : String) (old : Option String) :
    seededLevel fed node (seededLevel fed node old) = seededLevel fed node old := by
  unfold seededLevel
  by_cases isBlocked : node ∈ fed.blocked
  · simp [if_pos isBlocked]
  by_cases isTrusted : node ∈ fed.trusted
  · simp [if_neg isBlocked, if_pos isTrusted]
  simp only [if_neg isBlocked, if_neg isTrusted]
  split
  · rfl
  · by_cases revoked : old = some "verified" ∨ old = some "trusted"
    · simp only [if_pos revoked]
      decide
    · simp [if_neg revoked]

def Kept (t t' : TrustTable) : Prop :=
  ∀ node row, t.get? node = some row →
    ∃ row', t'.get? node = some row' ∧ row'.firstSeen = row.firstSeen

private theorem Kept.trans {a b c : TrustTable} (first : Kept a b) (second : Kept b c) :
    Kept a c := by
  intro node row found
  obtain ⟨middle, foundMiddle, same⟩ := first node row found
  obtain ⟨last, foundLast, same'⟩ := second node middle foundMiddle
  exact ⟨last, foundLast, same'.trans same⟩

private theorem kept_seedTrust (t : TrustTable) (node level : String) (now : Int) :
    Kept t (t.seedTrust node level now) := by
  intro n row found
  unfold seedTrust
  rw [Keyed.get?_upsert, found]
  split
  · exact ⟨_, rfl, rfl⟩
  · exact ⟨row, rfl, rfl⟩

private theorem kept_pass {ε : Type} (node level : ε → String) (now : Int) (entries : List ε)
    (t : TrustTable) :
    Kept t (entries.foldl (fun t entry => t.seedTrust (node entry) (level entry) now) t) := by
  induction entries generalizing t with
  | nil => exact fun _ row found => ⟨row, found, rfl⟩
  | cons entry entries ih =>
    exact (kept_seedTrust t _ _ now).trans (ih _)

private theorem kept_downgrade (t : TrustTable) (authorized : List String) (now : Int) :
    Kept t (t.downgrade authorized now) := by
  intro n row found
  unfold downgrade
  rw [Keyed.get?_update, found]
  refine ⟨_, rfl, ?_⟩
  dsimp only
  split <;> rfl

theorem kept_seedFederationTrust (t : TrustTable) (fed : FederationConfig) (now : Int) :
    Kept t (t.seedFederationTrust fed now) := by
  refine (kept_downgrade t (fed.peers.map PeerConfig.nodeId ++ fed.trusted) now).trans ?_
  refine (kept_pass PeerConfig.nodeId PeerConfig.trust now fed.peers _).trans ?_
  refine (kept_pass id (fun _ => "trusted") now fed.trusted _).trans ?_
  exact kept_pass id (fun _ => "blocked") now fed.blocked _

structure Recorded (t t' : TrustTable) (node : String) (now : Int) : Prop where
  old : ∀ other row, t.get? other = some row → t'.get? other = some row
  new : t.get? node = none → t'.get? node = some ⟨node, "seen", now, now⟩
  others : ∀ other, other ≠ node → t'.get? other = t.get? other

theorem recorded_recordSeen (t : TrustTable) (node : String) (now : Int) :
    Recorded t (t.recordSeen node now) node now := by
  unfold recordSeen
  refine ⟨?_, ?_, ?_⟩
  · intro other row found
    rw [Keyed.get?_insertOrIgnore, found]
    split <;> rfl
  · intro absent
    rw [Keyed.get?_insertOrIgnore, absent]
    simp
  · intro other different
    rw [Keyed.get?_insertOrIgnore, if_neg different]

structure Pruned (t t' : TrustTable) (max : Nat) : Prop where
  rest : ∀ row ∈ t'.rows, row ∈ t.rows
  seen : ∀ row ∈ t.rows, row ∉ t'.rows → row.level = "seen"
  oldest : ∀ gone ∈ t.rows, gone ∉ t'.rows → ∀ row ∈ t'.rows, row.level = "seen" →
    gone.firstSeen ≤ row.firstSeen
  cap : (t'.rows.filter isSeen).length ≤ max
  idle : max < 2 ^ 63 → (t.rows.filter isSeen).length ≤ max → t' = t

private theorem offset_le (max : Nat) : offset max ≤ max := by
  unfold offset
  split <;> omega

theorem pruned_pruneSeenTrust (t : TrustTable) (max : Nat) :
    Pruned t (t.pruneSeenTrust max) max := by
  refine ⟨fun row member => (Keyed.mem_prune.mp member).1, ?_, ?_, ?_, ?_⟩
  · intro row member absent
    have dropped : row ∈ Keyed.surplus t isSeen Before (offset max) := by
      by_contra kept
      exact absent (Keyed.mem_prune.mpr ⟨member, kept⟩)
    have ranked := Keyed.mem_ranked.mp (mem_of_mem_drop dropped)
    simpa [isSeen] using ranked.2
  · intro old member absent row left seen
    have order := Keyed.before_of_dropped member absent left (by simp [isSeen, seen])
    rcases order with less | ⟨same, _⟩
    · exact less.le
    · exact same.le
  · exact Keyed.length_prune_le.trans (offset_le max)
  · intro small few
    refine Keyed.prune_of_few ?_
    unfold offset
    rw [if_pos small]
    exact few

inductive Call
  | recordSeen (node : String) (now : Int)
  | pruneSeenTrust (max : Nat)
  deriving DecidableEq, Repr

def apply (t : TrustTable) : Call → TrustTable
  | .recordSeen node now => t.recordSeen node now
  | .pruneSeenTrust max => t.pruneSeenTrust max

/-- A call changes no row: it adds `seen` rows or removes `seen` rows. -/
structure Drifts (t t' : TrustTable) : Prop where
  decided : ∀ node row, t.get? node = some row → row.level ≠ "seen" → t'.get? node = some row
  same : ∀ node row row', t.get? node = some row → t'.get? node = some row' →
    row'.firstSeen = row.firstSeen
  added : ∀ node row, t'.get? node = some row → row.level = "seen" ∨ t.get? node = some row

theorem drifts_apply (t : TrustTable) (call : Call) : Drifts t (t.apply call) := by
  cases call with
  | recordSeen node now =>
    have law := t.recorded_recordSeen node now
    refine ⟨fun other row found _ => law.old other row found, ?_, ?_⟩
    · intro other row row' found found'
      have equal := (law.old other row found).symm.trans found'
      rw [Option.some.inj equal]
    · intro other row' found'
      cases found : t.get? other with
      | some row => exact .inr ((law.old other row found).symm.trans found')
      | none =>
        by_cases different : other = node
        · subst different
          have equal := (law.new found).symm.trans found'
          rw [← Option.some.inj equal]
          exact .inl rfl
        · rw [apply, law.others other different, found] at found'
          cases found'
  | pruneSeenTrust max =>
    have law := t.pruned_pruneSeenTrust max
    have old : ∀ node row, (t.pruneSeenTrust max).get? node = some row →
        t.get? node = some row := by
      intro node row found
      obtain ⟨member, named⟩ := Keyed.get?_eq_some _ |>.mp found
      exact t.get?_eq_some.mpr ⟨law.rest row member, named⟩
    refine ⟨?_, ?_, fun node row found => .inr (old node row found)⟩
    · intro node row found decided
      obtain ⟨member, named⟩ := t.get?_eq_some.mp found
      refine Keyed.get?_eq_some _ |>.mpr ⟨?_, named⟩
      by_contra absent
      exact decided (law.seen row member absent)
    · intro node row row' found found'
      rw [Option.some.inj (found.symm.trans (old node row' found'))]

private theorem run_drifts (calls : List Call) (t : TrustTable) :
    (∀ node row, t.get? node = some row → row.level ≠ "seen" →
      (calls.foldl apply t).get? node = some row) ∧
    (∀ node row, (calls.foldl apply t).get? node = some row →
      row.level = "seen" ∨ t.get? node = some row) := by
  induction calls generalizing t with
  | nil => exact ⟨fun _ _ found _ => found, fun _ _ found => .inr found⟩
  | cons call calls ih =>
    have step := t.drifts_apply call
    obtain ⟨decided, added⟩ := ih (t.apply call)
    refine ⟨fun node row found high => decided node row (step.decided node row found high) high, ?_⟩
    intro node row found
    rcases added node row found with low | present
    · exact .inl low
    · exact step.added node row present

/-- The trust table after a boot and any later handshakes and prunings. -/
theorem trust_table_semantics (t : TrustTable) (fed : FederationConfig) (now : Int)
    (calls : List Call) :
    (∀ node, (t.seedFederationTrust fed now).level? node =
      seededLevel fed node (t.level? node)) ∧
    (∀ again node, ((t.seedFederationTrust fed now).seedFederationTrust fed again).level? node =
      (t.seedFederationTrust fed now).level? node) ∧
    Kept t (t.seedFederationTrust fed now) ∧
    (∀ node row, (t.seedFederationTrust fed now).get? node = some row → row.level ≠ "seen" →
      (calls.foldl apply (t.seedFederationTrust fed now)).get? node = some row) ∧
    (∀ node row, (calls.foldl apply (t.seedFederationTrust fed now)).get? node = some row →
      row.level = "seen" ∨ (t.seedFederationTrust fed now).get? node = some row) ∧
    (∀ call node row row',
      (calls.foldl apply (t.seedFederationTrust fed now)).get? node = some row →
      (calls.foldl apply (t.seedFederationTrust fed now) |>.apply call).get? node = some row' →
      row'.firstSeen = row.firstSeen) ∧
    (∀ node time, Recorded (calls.foldl apply (t.seedFederationTrust fed now))
      (calls.foldl apply (t.seedFederationTrust fed now) |>.recordSeen node time) node time) ∧
    (∀ max, Pruned (calls.foldl apply (t.seedFederationTrust fed now))
      (calls.foldl apply (t.seedFederationTrust fed now) |>.pruneSeenTrust max) max) := by
  obtain ⟨decided, added⟩ := run_drifts calls (t.seedFederationTrust fed now)
  refine ⟨t.level?_seedFederationTrust fed now, ?_, t.kept_seedFederationTrust fed now, decided,
    added, fun call => (drifts_apply ..).same, recorded_recordSeen _, pruned_pruneSeenTrust _⟩
  intro again node
  rw [level?_seedFederationTrust, level?_seedFederationTrust, seededLevel_idem]

end TrustTable

end RelayFabric
