/- source: fed/conn.rs (accept_loop_with_cap, spawn_outbound, admit_and_run), metrics.rs
   digest: What peers can make a node remember about them, over restarts and many identities. -/

import RelayFabric.Config.Peering
import RelayFabric.Federation.Advert
import RelayFabric.Federation.Trust
import RelayFabric.Lib.Throttle
import RelayFabric.Registry

namespace RelayFabric

open List Lib Option

def maxSeenTrustRows : Nat := 10000

def nodeIdOf (key : Fin (2 ^ 256)) : String := String.ofList ("rf:".toList ++ hexDigits 64 key.val)

inductive ConnSlot
  | inbound
  | outbound (i : Nat)
  deriving DecidableEq, Repr

inductive WarnMap
  | preTrustReject
  | sealedReject
  | inboundReject
  | advertReject
  | alert
  deriving DecidableEq, Repr

def WarnMap.interval : WarnMap → Int
  | .preTrustReject => seconds 60
  | .sealedReject => seconds 60
  | .inboundReject => seconds 60
  | .advertReject => seconds 60
  | .alert => seconds 60

def TaskPhase.finished : TaskPhase → Bool
  | .gone | .refused => true
  | _ => false

def busySlots (tasks : List ConnTask) (slots : List ConnSlot) : List ConnSlot :=
  (tasks.zip slots).filterMap (fun entry => if entry.1.phase.finished then none else some entry.2)

structure Frontier where
  trust : TrustTable
  adverts : AdvertTable
  registry : FedRegistry
  slots : List ConnSlot
  throttles : WarnMap → Entries String Int

structure FrontierConfig where
  fed : FederationConfig
  mode : String
  maxInbound : Nat
  platform : Platform

namespace Frontier

def fresh : Frontier := ⟨.empty, .empty, .empty, [], fun _ => .empty⟩

def busy (s : Frontier) : List ConnSlot := busySlots s.registry.tasks s.slots

def admitsLevel (mode : String) (level : Option String) : Bool :=
  level != some "blocked" &&
    (decide (trustRank "verified" ≤ trustRank (level.getD "unknown")) || mode == "public")

def configuredPeerName (fed : FederationConfig) (nodeId : String) : Option String :=
  (fed.peers.find? (fun peer => peer.nodeId == nodeId)).map PeerConfig.name

def admitAndRun (site : FrontierConfig) (slot : ConnSlot) (peerKey nodeId : String) (now : Int)
    (s : Frontier) : Option Frontier :=
  if admitsLevel site.mode (s.trust.level? nodeId) then
    some { s with
      trust := (s.trust.recordSeen nodeId now).pruneSeenTrust maxSeenTrustRows
      registry := { s.registry with tasks := s.registry.tasks ++ [⟨peerKey, nodeId, .arriving⟩] }
      slots := s.slots ++ [slot] }
  else none

inductive Move
  | boot (now : Int)
  | inbound (key : Fin (2 ^ 256)) (now : Int)
  | outbound (i : Nat) (now : Int)
  | act (i : Nat)
  | advert (m : AdvertTable.Move)
  | warn (map : WarnMap) (key : String) (now : Int)

/-- Of the labels that guests have brought since the last boot: those after one more move. -/
def meet (fed : FederationConfig) (labels : List String) : Move → List String
  | .boot _ => []
  | .inbound key _ =>
    if (configuredPeerName fed (nodeIdOf key)).isSome then labels
    else labels.insert (displayPeerKey (nodeIdOf key))
  | _ => labels

/-- The labels of the unlisted identities that have connected since the last boot. -/
def guests (fed : FederationConfig) (moves : List Move) : List String := moves.foldl (meet fed) []

def step (site : FrontierConfig) : Move → Frontier → Option Frontier
  | .boot now, s => some
      { trust := s.trust.seedFederationTrust site.fed now
        adverts := s.adverts
        registry := .empty
        slots := []
        throttles := fun _ => .empty }
  | .inbound key now, s =>
    -- without a permit the socket is dropped before the handshake
    if s.busy.count .inbound < site.maxInbound then
      s.admitAndRun site .inbound ((configuredPeerName site.fed (nodeIdOf key)).getD (nodeIdOf key))
        (nodeIdOf key) now
    else none
  | .outbound i now, s =>
    match site.fed.peers[i]? with
    | none => none
    | some peer =>
      -- each peer has one dialer, which runs the connection to its end
      if .outbound i ∈ s.busy then none
      else s.admitAndRun site (.outbound i) peer.name peer.nodeId now
  | .act i, s => (s.registry.act i).map (fun registry => { s with registry := registry })
  | .advert m, s => some { s with adverts := s.adverts.apply site.platform m }
  | .warn map key now, s => some { s with
      throttles := Function.update s.throttles map
        (Throttle.use map.interval now (s.throttles map) key).2 }

end Frontier

section

variable {tasks : List ConnTask} {slots : List ConnSlot}

theorem busySlots_append {task : ConnTask} {slot : ConnSlot} (paired : tasks.length = slots.length)
    (running : task.phase.finished = false) :
    busySlots (tasks ++ [task]) (slots ++ [slot]) = busySlots tasks slots ++ [slot] := by
  unfold busySlots
  rw [zip_append paired, filterMap_append]
  simp [running]

theorem busySlots_set_sublist {i : Nat} {task task' : ConnTask} (found : tasks[i]? = some task)
    (running : task.phase.finished = false) :
    (busySlots (tasks.set i task') slots).Sublist (busySlots tasks slots) := by
  induction tasks generalizing slots i with
  | nil => cases found
  | cons first others ih =>
    cases slots with
    | nil =>
      unfold busySlots
      simp
    | cons slot slots =>
      cases i with
      | zero =>
        cases found
        unfold busySlots
        rw [set_cons_zero, zip_cons_cons, zip_cons_cons, filterMap_cons,
          filterMap_cons, running]
        cases task'.phase.finished with
        | true => exact sublist_cons_self _ _
        | false => exact List.Sublist.refl _
      | succ i =>
        have rest : (busySlots (others.set i task') slots).Sublist (busySlots others slots) :=
          ih found
        unfold busySlots at rest ⊢
        rw [set_cons_succ, zip_cons_cons, zip_cons_cons, filterMap_cons,
          filterMap_cons]
        cases first.phase.finished with
        | true => exact rest
        | false => exact rest.cons_cons _

theorem length_busySlots (paired : tasks.length = slots.length) :
    (busySlots tasks slots).length = (tasks.filter (fun task => !task.phase.finished)).length := by
  induction tasks generalizing slots with
  | nil => rfl
  | cons first others ih =>
    cases slots with
    | nil => cases paired
    | cons slot slots =>
      have rest := ih (Nat.succ.inj paired)
      unfold busySlots at rest ⊢
      rw [zip_cons_cons, filterMap_cons, filter_cons]
      cases first.phase.finished with
      | true => exact rest
      | false => exact congrArg Nat.succ rest

end

def gaugeLabels (fed : FederationConfig) (labels : List String) : List String :=
  fed.peers.map (fun peer => displayPeerKey peer.name) ++ labels

theorem take_hexDigits (width rest n : Nat) :
    (hexDigits (width + rest) n).take width = hexDigits width (n / 16 ^ rest) := by
  induction rest generalizing n with
  | zero =>
    rw [Nat.pow_zero, Nat.div_one]
    exact take_of_length_le (Nat.le_of_eq (length_hexDigits _ _))
  | succ rest ih =>
    have fits : width ≤ (hexDigits (width + rest) (n / 16)).length := by
      rw [length_hexDigits]
      exact Nat.le_add_right _ _
    rw [← Nat.add_assoc, hexDigits, take_append_of_le_length fits, ih, Nat.div_div_eq_div_mul,
      Nat.pow_succ']

theorem displayPeerKey_marked {digits : List Char} (plain : 'r' ∉ digits) :
    displayPeerKey (String.ofList ("rf:".toList ++ digits)) = String.ofList (digits.take 8) := by
  have trimmed : trimScheme digits = digits := by
    unfold trimScheme
    split
    · exact absurd mem_cons_self plain
    · rfl
  have marked : "rf:".toList ++ digits = 'r' :: 'f' :: ':' :: digits := rfl
  have read : (String.ofList ("rf:".toList ++ digits)).toList = "rf:".toList ++ digits :=
    String.toList_ofList
  unfold displayPeerKey shortNodeId
  rw [read, if_pos (prefix_append _ _), marked, trimScheme, trimmed]

theorem displayPeerKey_nodeIdOf (key : Fin (2 ^ 256)) :
    displayPeerKey (nodeIdOf key) = String.ofList (hexDigits 8 (key.val / 16 ^ 56)) := by
  have plain : 'r' ∉ hexDigits 64 key.val := not_mem_hexDigits (by decide) 64 key.val
  unfold nodeIdOf
  rw [displayPeerKey_marked plain]
  exact congrArg String.ofList (take_hexDigits 8 56 key.val)

theorem hexDigits_injective {width m n : Nat} (small : m < 16 ^ width) (small' : n < 16 ^ width)
    (same : hexDigits width m = hexDigits width n) : m = n := by
  have read := hexParse_hexDigits 0 width m small
  rw [same, hexParse_hexDigits 0 width n small', Option.some.injEq] at read
  omega

theorem keys_insert {gauge : Entries String Bool} {key label : String} {up : Bool} :
    label ∈ (gauge.insert key up).rows.map Prod.fst ↔
      label = key ∨ label ∈ gauge.rows.map Prod.fst := by
  constructor
  · intro member
    obtain ⟨e, stored, rfl⟩ := mem_map.mp member
    rcases Entries.mem_insert.mp stored with rfl | ⟨old, _⟩
    · exact .inl rfl
    · exact .inr (mem_map.mpr ⟨e, old, rfl⟩)
  · intro named
    by_cases same : label = key
    · exact mem_map.mpr ⟨(key, up), Entries.mem_insert.mpr (.inl rfl), same.symm⟩
    · obtain ⟨e, old, rfl⟩ := mem_map.mp (named.resolve_left same)
      exact mem_map.mpr ⟨e, Entries.mem_insert.mpr (.inr ⟨old, same⟩), rfl⟩

theorem length_gauge_le {gauge : Entries String Bool} {labels : List String}
    (labelled : gauge.rows.map Prod.fst ⊆ labels) : gauge.rows.length ≤ labels.length := by
  have fewer := (gauge.distinct.subperm labelled).length_le
  rwa [length_map] at fewer

namespace FedRegistry

structure Acted (σ σ' : FedRegistry) (i : Nat) (task : ConnTask) : Prop where
  found : σ.tasks[i]? = some task
  running : task.phase.finished = false
  tasks : ∃ phase, σ'.tasks = σ.tasks.set i { task with phase := phase }
  gauge : σ'.peersUp = σ.peersUp ∨
    ∃ up, σ'.peersUp = setFederationPeerUp σ.peersUp (displayPeerKey task.peerKey) up

theorem acted {σ σ' : FedRegistry} {i : Nat} (step : σ.act i = some σ') :
    ∃ task, Acted σ σ' i task := by
  obtain ⟨task, found, acts⟩ := acts_of_act step
  refine ⟨task, ?_⟩
  cases acts with
  | rise here | fall here => exact ⟨found, by rw [here]; rfl, ⟨_, rfl⟩, Or.inr ⟨_, rfl⟩⟩
  | _ here => exact ⟨found, by rw [here]; rfl, ⟨_, rfl⟩, Or.inl rfl⟩

theorem length_conns_le {σ : FedRegistry} (inv : σ.hall.Inv true) :
    σ.conns.rows.length ≤ (σ.tasks.filter (fun task => !task.phase.finished)).length := by
  have within : σ.conns.rows.map Prod.fst ⊆
      (σ.tasks.filter (fun task => !task.phase.finished)).map ConnTask.peerKey := by
    intro key member
    obtain ⟨e, stored, rfl⟩ := mem_map.mp member
    have held : σ.hall.holder e.1 = some e.2.token := by
      rw [holder_eq, (Keyed.get?_eq_some _).mpr ⟨stored, rfl⟩, map_some]
    obtain ⟨-, i, p, there, inside⟩ := (inv.held e.1 e.2.token).mp held
    obtain ⟨task, found, named, rfl⟩ := of_at_hall there
    refine mem_map.mpr ⟨task, mem_filter.mpr ⟨mem_of_getElem? found, ?_⟩, named⟩
    cases at_ : task.phase with
    | arriving | stamped t | installed t | running t | closing t => rfl
    | removed | gone | refused =>
      rw [at_] at inside
      rcases inside with same | same
      · cases same
      · cases same
  have fewer := (σ.conns.distinct.subperm within).length_le
  rwa [length_map, length_map] at fewer

end FedRegistry

def VouchedPeers (fed : FederationConfig) : Prop :=
  ∀ peer ∈ fed.peers, peer.trust = "verified" ∨ peer.trust = "trusted"

def TrustTable.Authorized (fed : FederationConfig) (t : TrustTable) : Prop :=
  ∀ node, t.level? node = some "verified" ∨ t.level? node = some "trusted" →
    node ∈ fed.peers.map PeerConfig.nodeId ++ fed.trusted

section

variable {fed : FederationConfig}

theorem seededLevel_cases {node level : String} {old : Option String}
    (seeded : TrustTable.seededLevel fed node old = some level) :
    level = "blocked" ∨ level = "trusted" ∧ node ∈ fed.trusted ∨
      (∃ peer ∈ fed.peers, peer.nodeId = node ∧ peer.trust = level) ∨
      node ∉ fed.peers.map PeerConfig.nodeId ++ fed.trusted ∧
        (level = "seen" ∧ (old = some "verified" ∨ old = some "trusted") ∨
          old = some level ∧ ¬(old = some "verified" ∨ old = some "trusted")) := by
  unfold TrustTable.seededLevel at seeded
  by_cases isBlocked : node ∈ fed.blocked
  · rw [if_pos isBlocked] at seeded
    exact Or.inl (Option.some.inj seeded).symm
  by_cases isTrusted : node ∈ fed.trusted
  · rw [if_neg isBlocked, if_pos isTrusted] at seeded
    exact Or.inr (Or.inl ⟨(Option.some.inj seeded).symm, isTrusted⟩)
  rw [if_neg isBlocked, if_neg isTrusted] at seeded
  right
  right
  cases last : (fed.peers.filter (fun peer => peer.nodeId = node)).getLast? with
  | some peer =>
    rw [last] at seeded
    have listed := mem_of_getLast? last
    rw [mem_filter, decide_eq_true_eq] at listed
    exact Or.inl ⟨peer, listed.1, listed.2, Option.some.inj seeded⟩
  | none =>
    rw [last] at seeded
    right
    constructor
    · intro listed
      rcases mem_append.mp listed with named | named
      · obtain ⟨peer, member, same⟩ := mem_map.mp named
        have empty := List.getLast?_eq_none_iff.mp last
        exact filter_eq_nil_iff.mp empty peer member (by simpa using same)
      · exact isTrusted named
    · by_cases revoked : old = some "verified" ∨ old = some "trusted"
      · rw [if_pos revoked] at seeded
        exact Or.inl ⟨(Option.some.inj seeded).symm, revoked⟩
      · rw [if_neg revoked] at seeded
        exact Or.inr ⟨seeded, revoked⟩

theorem seededLevel_seen (vouched : VouchedPeers fed) {t : TrustTable}
    (authorized : t.Authorized fed)
    {node : String} (seen : TrustTable.seededLevel fed node (t.level? node) = some "seen") :
    t.level? node = some "seen" := by
  rcases seededLevel_cases seen with
    same | ⟨same, -⟩ | ⟨peer, member, -, same⟩ | ⟨unlisted, ⟨-, old⟩ | ⟨old, -⟩⟩
  · exact absurd same (by decide)
  · exact absurd same (by decide)
  · rcases vouched peer member with verified | trusted
    · exact absurd (verified.symm.trans same) (by decide)
    · exact absurd (trusted.symm.trans same) (by decide)
  · exact absurd (authorized node old) unlisted
  · exact old

theorem authorized_seedFederationTrust (t : TrustTable) (now : Int) :
    (t.seedFederationTrust fed now).Authorized fed := by
  have listed : ∀ node level, TrustTable.seededLevel fed node (t.level? node) = some level →
      level = "verified" ∨ level = "trusted" →
        node ∈ fed.peers.map PeerConfig.nodeId ++ fed.trusted := by
    intro node level seeded high
    rcases seededLevel_cases seeded with
      rfl | ⟨-, named⟩ | ⟨peer, member, named, -⟩ | ⟨-, ⟨rfl, -⟩ | ⟨old, low⟩⟩
    · exact absurd high (by decide)
    · exact mem_append_right _ named
    · exact mem_append_left _ (mem_map.mpr ⟨peer, member, named⟩)
    · exact absurd high (by decide)
    · refine absurd ?_ low
      rw [old]
      exact high.imp (congrArg some) (congrArg some)
  intro node level
  rw [TrustTable.level?_seedFederationTrust] at level
  rcases level with verified | trusted
  · exact listed node _ verified (Or.inl rfl)
  · exact listed node _ trusted (Or.inr rfl)

theorem level?_of_seen {t : TrustTable} {row : TrustRow} (member : row ∈ t.rows)
    (seen : TrustTable.isSeen row = true) : t.level? row.nodeId = some "seen" := by
  unfold TrustTable.level?
  rw [(Keyed.get?_eq_some _).mpr ⟨member, rfl⟩]
  simpa [TrustTable.isSeen] using seen

theorem seen_seedFederationTrust_le (vouched : VouchedPeers fed) {t : TrustTable}
    (authorized : t.Authorized fed) (now : Int) :
    ((t.seedFederationTrust fed now).rows.filter TrustTable.isSeen).length ≤
      (t.rows.filter TrustTable.isSeen).length := by
  refine Keyed.length_le ((t.seedFederationTrust fed now).keep TrustTable.isSeen)
    (t.keep TrustTable.isSeen) ?_
  intro row member
  obtain ⟨stored, seen⟩ := mem_filter.mp member
  have level := level?_of_seen stored seen
  rw [TrustTable.level?_seedFederationTrust] at level
  have before := seededLevel_seen vouched authorized level
  obtain ⟨old, found, named⟩ := map_eq_some_iff.mp before
  obtain ⟨present, same⟩ := (Keyed.get?_eq_some _).mp found
  refine ⟨old, mem_filter.mpr ⟨present, ?_⟩, same⟩
  simpa [TrustTable.isSeen] using named

theorem level?_of_admission {t : TrustTable} {node other level : String} {now : Int} {max : Nat}
    (found : ((t.recordSeen node now).pruneSeenTrust max).level? other = some level)
    (unseen : level ≠ "seen") : t.level? other = some level := by
  obtain ⟨row, there, rfl⟩ := map_eq_some_iff.mp found
  have before := ((TrustTable.drifts_apply (t.recordSeen node now) (.pruneSeenTrust max)).added
    other row there).resolve_left unseen
  have first := ((TrustTable.drifts_apply t (.recordSeen node now)).added
    other row before).resolve_left unseen
  unfold TrustTable.level?
  rw [first, map_some]

theorem authorized_admit {t : TrustTable} (authorized : t.Authorized fed) (node : String)
    (now : Int) (max : Nat) : ((t.recordSeen node now).pruneSeenTrust max).Authorized fed := by
  intro other level
  refine authorized other (level.imp (fun verified => ?_) (fun trusted => ?_))
  · exact level?_of_admission verified (by decide)
  · exact level?_of_admission trusted (by decide)

end

theorem length_slots_le {slots : List ConnSlot} {permits peers : Nat}
    (inbound : slots.count .inbound ≤ permits)
    (once : ∀ i, slots.count (.outbound i) ≤ 1) (known : ∀ i, .outbound i ∈ slots → i < peers) :
    slots.length ≤ permits + peers := by
  have parts : slots.length = (slots.filter (fun slot => slot == ConnSlot.inbound)).length +
      (slots.filter (fun slot => !(slot == ConnSlot.inbound))).length :=
    length_eq_length_filter_add _
  have accepted : (slots.filter (fun slot => slot == ConnSlot.inbound)).length ≤ permits := by
    rw [← count_eq_length_filter]
    exact inbound
  have dialed : (slots.filter (fun slot => !(slot == ConnSlot.inbound))).length ≤ peers := by
    have nodup : (slots.filter (fun slot => !(slot == ConnSlot.inbound))).Nodup := by
      rw [nodup_iff_count_le_one]
      intro slot
      cases slot with
      | inbound =>
        rw [count_eq_zero_of_not_mem]
        · exact Nat.zero_le _
        · simp
      | outbound i => exact (filter_sublist.count_le _).trans (once i)
    have within : slots.filter (fun slot => !(slot == ConnSlot.inbound)) ⊆
        (List.range peers).map ConnSlot.outbound := by
      intro slot member
      obtain ⟨stored, dialed⟩ := mem_filter.mp member
      cases slot with
      | inbound => cases dialed
      | outbound i => exact mem_map.mpr ⟨i, mem_range.mpr (known i stored), rfl⟩
    have bound := (nodup.subperm within).length_le
    rwa [length_map, length_range] at bound
  omega

namespace Frontier

structure Bounded (p c : Nat) (s : Frontier) : Prop where
  seen : (s.trust.rows.filter TrustTable.isSeen).length ≤ 10000
  adverts : s.adverts.rows.length ≤ 10000
  conns : s.registry.conns.rows.length ≤ c + p

structure Kept (site : FrontierConfig) (labels : List String) (s : Frontier) : Prop where
  seen : (s.trust.rows.filter TrustTable.isSeen).length ≤ maxSeenTrustRows
  authorized : s.trust.Authorized site.fed
  adverts : s.adverts.rows.length ≤ maxPeerAdverts
  hall : s.registry.hall.Inv true
  paired : s.registry.tasks.length = s.slots.length
  inbound : s.busy.count .inbound ≤ site.maxInbound
  once : ∀ i, s.busy.count (.outbound i) ≤ 1
  known : ∀ i, .outbound i ∈ s.busy → i < site.fed.peers.length
  labelled : ∀ task ∈ s.registry.tasks, displayPeerKey task.peerKey ∈ gaugeLabels site.fed labels
  gauge : s.registry.peersUp.rows.map Prod.fst ⊆ gaugeLabels site.fed labels

variable {site : FrontierConfig} {labels : List String} {s s' : Frontier}

theorem Kept.bounded (kept : Kept site labels s) :
    s.Bounded site.fed.peers.length site.maxInbound where
  seen := kept.seen
  adverts := kept.adverts
  conns := by
    have tasks := FedRegistry.length_conns_le kept.hall
    rw [← length_busySlots kept.paired] at tasks
    exact tasks.trans (length_slots_le kept.inbound kept.once kept.known)

theorem Kept.widen (kept : Kept site labels s) {more : List String} (wider : labels ⊆ more) :
    Kept site more s :=
  have known : gaugeLabels site.fed labels ⊆ gaugeLabels site.fed more :=
    append_subset.mpr ⟨subset_append_left _ _, fun _ member => mem_append_right _ (wider member)⟩
  { kept with
    labelled := fun task member => known (kept.labelled task member)
    gauge := fun _ member => known (kept.gauge member) }

theorem kept_fresh : Kept site [] fresh := by
  refine ⟨Nat.zero_le _, ?_, Nat.zero_le _, Tenancy.Hall.inv_empty, rfl, Nat.zero_le _,
    fun _ => Nat.zero_le _, fun _ member => absurd member not_mem_nil,
    fun _ member => absurd member not_mem_nil, nil_subset _⟩
  intro node level
  rcases level with same | same
  · cases same
  · cases same

theorem Kept.boot (vouched : VouchedPeers site.fed) (kept : Kept site labels s) (now : Int) :
    Kept site []
      ⟨s.trust.seedFederationTrust site.fed now, s.adverts, .empty, [], fun _ => .empty⟩ :=
  ⟨(seen_seedFederationTrust_le vouched kept.authorized now).trans kept.seen,
    authorized_seedFederationTrust s.trust now, kept.adverts, Tenancy.Hall.inv_empty, rfl,
    Nat.zero_le _, fun _ => Nat.zero_le _, fun _ member => absurd member not_mem_nil,
    fun _ member => absurd member not_mem_nil, nil_subset _⟩

theorem Kept.admitAndRun (kept : Kept site labels s) {slot : ConnSlot} {peerKey nodeId : String}
    {now : Int} (admitted : s.admitAndRun site slot peerKey nodeId now = some s')
    (label : displayPeerKey peerKey ∈ gaugeLabels site.fed labels)
    (inbound : (s.busy ++ [slot]).count .inbound ≤ site.maxInbound)
    (once : ∀ i, (s.busy ++ [slot]).count (.outbound i) ≤ 1)
    (known : ∀ i, .outbound i ∈ s.busy ++ [slot] → i < site.fed.peers.length) :
    Kept site labels s' := by
  unfold Frontier.admitAndRun at admitted
  split_ifs at admitted with admits
  cases admitted
  have busy : busySlots (s.registry.tasks ++ [⟨peerKey, nodeId, .arriving⟩]) (s.slots ++ [slot]) =
      s.busy ++ [slot] := busySlots_append kept.paired rfl
  refine ⟨(TrustTable.pruned_pruneSeenTrust _ _).cap, authorized_admit kept.authorized nodeId now _,
    kept.adverts, ?_, ?_, ?_, ?_, ?_, ?_, kept.gauge⟩
  · exact FedRegistry.inv_step (a := .arrive peerKey nodeId) rfl kept.hall
  · rw [length_append, length_append, kept.paired]
    rfl
  · show (busySlots _ _).count .inbound ≤ _
    rw [busy]
    exact inbound
  · show ∀ i, (busySlots _ _).count (.outbound i) ≤ 1
    rw [busy]
    exact once
  · show ∀ i, .outbound i ∈ busySlots _ _ → _
    rw [busy]
    exact known
  · intro task member
    rcases mem_append.mp member with old | new
    · exact kept.labelled task old
    · rw [mem_singleton.mp new]
      exact label

theorem Kept.act (kept : Kept site labels s) {i : Nat} {registry : FedRegistry}
    (acts : s.registry.act i = some registry) :
    Kept site labels { s with registry := registry } := by
  obtain ⟨task, found, running, ⟨phase, tasks⟩, gauge⟩ := FedRegistry.acted acts
  have here : task ∈ s.registry.tasks := mem_of_getElem? found
  have fewer : (busySlots registry.tasks s.slots).Sublist s.busy := by
    rw [tasks]
    exact busySlots_set_sublist found running
  refine ⟨kept.seen, kept.authorized, kept.adverts, FedRegistry.inv_step (a := .act i) acts
    kept.hall, ?_, ?_, ?_, ?_, ?_, ?_⟩
  · show registry.tasks.length = s.slots.length
    rw [tasks, length_set]
    exact kept.paired
  · exact (fewer.count_le _).trans kept.inbound
  · exact fun i => (fewer.count_le _).trans (kept.once i)
  · exact fun i member => kept.known i (fewer.subset member)
  · intro other member
    rw [tasks] at member
    rcases mem_or_eq_of_mem_set member with old | rfl
    · exact kept.labelled other old
    · exact kept.labelled task here
  · show registry.peersUp.rows.map Prod.fst ⊆ _
    rcases gauge with same | ⟨up, set⟩
    · rw [same]
      exact kept.gauge
    · rw [set]
      intro label member
      rcases keys_insert.mp member with rfl | old
      · exact kept.labelled task here
      · exact kept.gauge old

theorem mem_gaugeLabels_inbound (fed : FederationConfig) (labels : List String)
    (key : Fin (2 ^ 256)) (now : Int) :
    displayPeerKey ((configuredPeerName fed (nodeIdOf key)).getD (nodeIdOf key)) ∈
      gaugeLabels fed (meet fed labels (.inbound key now)) := by
  unfold gaugeLabels
  cases found : configuredPeerName fed (nodeIdOf key) with
  | none => exact mem_append_right _ (by simp [meet, found])
  | some name =>
    obtain ⟨peer, listed, rfl⟩ := map_eq_some_iff.mp found
    exact mem_append_left _ (mem_map.mpr ⟨peer, mem_of_find?_eq_some listed, rfl⟩)

theorem subset_meet_inbound (fed : FederationConfig) (labels : List String) (key : Fin (2 ^ 256))
    (now : Int) : labels ⊆ meet fed labels (.inbound key now) := by
  intro label member
  rw [meet]
  split_ifs
  · exact member
  · exact mem_insert_of_mem member

theorem Kept.step (vouched : VouchedPeers site.fed) {a : Move}
    (step : Frontier.step site a s = some s')
    (kept : Kept site labels s) : Kept site (meet site.fed labels a) s' := by
  cases a with
  | boot now =>
    cases step
    exact kept.boot vouched now
  | inbound key now =>
    rw [Frontier.step] at step
    split_ifs at step with permit
    refine (kept.widen (subset_meet_inbound ..)).admitAndRun step
      (mem_gaugeLabels_inbound ..) ?_ ?_ ?_
    · rw [count_append]
      exact permit
    · intro i
      rw [count_append]
      exact kept.once i
    · intro i member
      rcases mem_append.mp member with old | new
      · exact kept.known i old
      · cases mem_singleton.mp new
  | outbound i now =>
    rw [Frontier.step] at step
    cases found : site.fed.peers[i]? with
    | none =>
      rw [found] at step
      cases step
    | some peer =>
      rw [found] at step
      split_ifs at step with dialing
      have listed : peer ∈ site.fed.peers := mem_of_getElem? found
      have bound : i < site.fed.peers.length := (List.getElem?_eq_some_iff.mp found).1
      have label : displayPeerKey peer.name ∈ gaugeLabels site.fed labels :=
        mem_append_left _ (mem_map.mpr ⟨peer, listed, rfl⟩)
      refine kept.admitAndRun step label ?_ ?_ ?_
      · rw [count_append]
        exact kept.inbound
      · intro j
        rw [count_append]
        by_cases same : j = i
        · subst same
          rw [count_eq_zero_of_not_mem dialing]
          simp
        · have other : ([ConnSlot.outbound i]).count (.outbound j) = 0 := by
            refine count_eq_zero_of_not_mem ?_
            simpa using same
          rw [other]
          exact kept.once j
      · intro j member
        rcases mem_append.mp member with old | new
        · exact kept.known j old
        · obtain rfl := ConnSlot.outbound.inj (mem_singleton.mp new)
          exact bound
  | act i =>
    obtain ⟨registry, acts, rfl⟩ := map_eq_some_iff.mp step
    exact kept.act acts
  | advert m =>
    cases step
    exact { kept with adverts := AdvertTable.length_apply_le kept.adverts m }
  | warn map key now =>
    cases step
    exact { kept with }

theorem vouchedPeers_of_accepted {F : Formats} {cfg : ConfigFile} {fed : FederationBlock}
    (accepted : validate F cfg = .ok ()) (block : cfg.federation = some fed) :
    VouchedPeers fed.engine := by
  have checked := (validate_ok.mp accepted).federation
  unfold validateFederation at checked
  rw [block] at checked
  simp only [seq_ok] at checked
  obtain ⟨-, -, -, -, -, -, -, entries, -⟩ := checked
  intro peer member
  obtain ⟨entry, listed, rfl⟩ := mem_map.mp member
  obtain ⟨before, passed⟩ := checkInTurn_ok entries entry listed
  unfold validatePeerEntry validatePeer at passed
  simp only [seq_ok] at passed
  obtain ⟨-, -, -, -, -, level, -⟩ := passed
  simpa using level

theorem Kept.run (vouched : VouchedPeers site.fed) {moves : List Move} (kept : Kept site labels s)
    (reached : runAll (Frontier.step site) moves s = some s') :
    Kept site (moves.foldl (meet site.fed) labels) s' := by
  induction moves generalizing labels s with
  | nil =>
    cases reached
    exact kept
  | cons a rest ih =>
    obtain ⟨next, step, later⟩ := Option.bind_eq_some_iff.mp reached
    exact ih (kept.step vouched step) later

/-- In every state of every run, restarts included, trust rows, advertisements and registrations are
bounded, however many identities have connected, and a throttle map holds stamps of the last
interval only. The gauge is bounded when the guests since the last boot are few. -/
theorem state_per_identity_bounded {F : Formats} {cfg : ConfigFile} {fed : FederationBlock}
    (accepted : validate F cfg = .ok ()) (block : cfg.federation = some fed) (mode : String)
    (maxInbound : Nat) (P : Platform) (moves : List Move) {s : Frontier}
    (reached : runAll (Frontier.step ⟨fed.engine, mode, maxInbound, P⟩) moves fresh = some s) :
    s.Bounded fed.peers.length maxInbound ∧
      (∀ map key now s',
        Frontier.step ⟨fed.engine, mode, maxInbound, P⟩ (.warn map key now) s = some s' →
          ∀ e ∈ (s'.throttles map).rows, Throttle.age now e.2 < map.interval) ∧
      ((guests fed.engine moves).length ≤ maxInbound →
        s.registry.peersUp.rows.length ≤ maxInbound + fed.peers.length) := by
  have vouched := vouchedPeers_of_accepted accepted block
  have kept : Kept ⟨fed.engine, mode, maxInbound, P⟩ (guests fed.engine moves) s :=
    kept_fresh.run vouched reached
  have peers : fed.engine.peers.length = fed.peers.length := length_map _
  refine ⟨?_, ?_, fun few => ?_⟩
  · have bounded := kept.bounded
    rwa [peers] at bounded
  · intro map key now s' used e member
    cases used
    have positive : 0 < map.interval := by
      cases map <;> decide
    dsimp only at member
    rw [Function.update_self] at member
    exact Throttle.young_of_mem_use positive member
  · have shown := length_gauge_le kept.gauge
    rw [gaugeLabels, length_append, length_map, peers] at shown
    omega

def guest (n : Nat) : Fin (2 ^ 256) := Fin.ofNat (2 ^ 256) (n * 16 ^ 56)

def returningGuest : List Move :=
  .boot 0 :: .inbound (guest 1) 1 :: replicate 6 (.act 0) ++ .inbound (guest 1) 2 ::
    replicate 3 (.act 1)

theorem state_per_identity_bounded_guests :
    validate .plain (.hosting "town-hall") = .ok () ∧
      ∃ fed s, (ConfigFile.hosting "town-hall").federation = some fed ∧
        runAll (Frontier.step ⟨fed.engine, "public", 1, .unsigned⟩) returningGuest fresh = some s ∧
        s.registry.conns.rows.length = 1 ∧ s.Bounded 0 1 ∧ s.registry.peersUp.rows.length ≤ 1 + 0 ∧
        ∀ s', Frontier.step ⟨fed.engine, "public", 1, .unsigned⟩
            (.warn .advertReject "rf:aa" 3) s = some s' →
          ∀ e ∈ (s'.throttles .advertReject).rows, Throttle.age 3 e.2 < seconds 60 := by
  have accepted : validate .plain (.hosting "town-hall") = .ok () := by decide +kernel
  obtain ⟨fed, block⟩ : ∃ fed, (ConfigFile.hosting "town-hall").federation = some fed := ⟨_, rfl⟩
  have same := Option.some.inj block
  have none : fed.peers.length = 0 := by
    rw [← same]
    rfl
  obtain ⟨s, reached, conns⟩ :
      ∃ s, runAll (Frontier.step ⟨fed.engine, "public", 1, .unsigned⟩) returningGuest
        fresh = some s ∧ s.registry.conns.rows.length = 1 := by
    rw [← same]
    decide +kernel
  have few : (guests fed.engine returningGuest).length ≤ 1 := by
    rw [← same]
    decide +kernel
  obtain ⟨bounds, young, gauge⟩ :=
    state_per_identity_bounded accepted block "public" 1 .unsigned returningGuest reached
  rw [none] at bounds gauge
  exact ⟨accepted, fed, s, block, reached, conns, bounds, gauge few, young .advertReject "rf:aa" 3⟩

def visits : Nat → List Move
  | 0 => [.boot 0]
  | n + 1 => visits n ++ .inbound (guest n) 0 :: replicate 6 (.act n)

def guestLabel (n : Nat) : String := String.ofList (hexDigits 8 n)

theorem displayPeerKey_guest {n : Nat} (small : n < 16 ^ 8) :
    displayPeerKey (nodeIdOf (guest n)) = guestLabel n := by
  have bits : (guest n).val = n * 16 ^ 56 := Nat.mod_eq_of_lt (by omega)
  rw [displayPeerKey_nodeIdOf, bits, Nat.mul_div_cancel n (by decide)]
  rfl

structure Visited (n : Nat) (s : Frontier) : Prop where
  tasks : s.registry.tasks.length = n
  slots : s.slots.length = n
  idle : ∀ task ∈ s.registry.tasks, task.phase = .gone
  conns : ∀ key, s.registry.conns.get? key = none
  trust : ∀ node, s.trust.level? node ≠ some "blocked"
  gauge : ∀ k < n, guestLabel k ∈ s.registry.peersUp.rows.map Prod.fst

theorem run_visit {σ : FedRegistry} {front : List ConnTask} {key node : String}
    (tasks : σ.tasks = front ++ [⟨key, node, .arriving⟩]) (idle : ∀ k, σ.conns.get? k = none) :
    ∃ σ', runAll FedRegistry.step (replicate 6 (.act front.length)) σ = some σ' ∧
      σ'.tasks = front ++ [⟨key, node, .gone⟩] ∧ (∀ k, σ'.conns.get? k = none) ∧
      ∀ label, label ∈ σ'.peersUp.rows.map Prod.fst ↔
        label = displayPeerKey key ∨ label ∈ σ.peersUp.rows.map Prod.fst := by
  refine ⟨_, by
    simp [runAll, replicate, FedRegistry.step, FedRegistry.act, FedRegistry.goes, tasks, insertConn,
      removeConn, idle, Entries.get?_insert]
    rfl, rfl, fun k => ?_, fun label => ?_⟩
  · by_cases same : k = key
    · rw [same]
      exact Entries.get?_remove_self _ _
    · dsimp only
      rw [Entries.get?_remove_of_ne _ same, Entries.get?_insert, if_neg same]
      exact idle k
  · exact keys_insert.trans ((or_congr_right keys_insert).trans (by simp))

theorem runAll_act {i k : Nat} {registry : FedRegistry}
    (run : runAll FedRegistry.step (replicate k (.act i)) s.registry = some registry) :
    runAll (Frontier.step site)
    (replicate k (.act i)) s = some { s with registry := registry } := by
  induction k generalizing s with
  | zero =>
    cases run
    rfl
  | succ k ih =>
    obtain ⟨next, step, later⟩ := Option.bind_eq_some_iff.mp run
    refine Option.bind_eq_some_iff.mpr ⟨{ s with registry := next }, ?_, ih later⟩
    exact map_eq_some_iff.mpr ⟨next, step, rfl⟩

structure Open (site : FrontierConfig) : Prop where
  mode : site.mode = "public"
  permits : 0 < site.maxInbound
  peers : site.fed.peers = []
  trusted : site.fed.trusted = []
  blocked : site.fed.blocked = []

theorem Visited.visit (is : Open site) {n : Nat} (small : n < 16 ^ 8) (visited : Visited n s) :
    ∃ s', runAll (Frontier.step site) (.inbound (guest n) 0 :: replicate 6 (.act n)) s = some s' ∧
      Visited (n + 1) s' := by
  have paired : s.registry.tasks.length = s.slots.length := visited.tasks.trans visited.slots.symm
  have free : s.busy = [] := by
    have over_ : s.registry.tasks.filter (fun task => !task.phase.finished) = [] := by
      refine filter_eq_nil_iff.mpr (fun task member => ?_)
      rw [visited.idle task member]
      exact Bool.false_ne_true
    have none := length_busySlots paired
    rw [over_] at none
    exact length_eq_zero_iff.mp none
  have unnamed : configuredPeerName site.fed (nodeIdOf (guest n)) = none := by
    unfold configuredPeerName
    rw [is.peers]
    rfl
  have admitted : admitsLevel site.mode (s.trust.level? (nodeIdOf (guest n))) = true := by
    unfold admitsLevel
    rw [is.mode]
    simp [visited.trust (nodeIdOf (guest n))]
  let next : Frontier := { s with
    trust := (s.trust.recordSeen (nodeIdOf (guest n)) 0).pruneSeenTrust maxSeenTrustRows
    registry := { s.registry with
      tasks := s.registry.tasks ++ [⟨nodeIdOf (guest n), nodeIdOf (guest n), .arriving⟩] }
    slots := s.slots ++ [.inbound] }
  have enters : Frontier.step site (.inbound (guest n) 0) s = some next := by
    rw [Frontier.step, if_pos (by rw [free]; exact is.permits), unnamed, Option.getD_none,
      Frontier.admitAndRun, if_pos admitted]
  have arrives : next.registry.tasks =
      s.registry.tasks ++ [⟨nodeIdOf (guest n), nodeIdOf (guest n), .arriving⟩] := rfl
  obtain ⟨registry, run, tasks, conns, gauge⟩ := run_visit arrives visited.conns
  rw [visited.tasks] at run
  refine ⟨{ next with registry := registry },
    Option.bind_eq_some_iff.mpr ⟨next, enters, runAll_act run⟩, ?_⟩
  refine ⟨?_, ?_, fun task member => ?_, conns, fun node blocked => ?_, fun k below => ?_⟩
  · rw [tasks, length_append, visited.tasks]
    rfl
  · exact (length_append ..).trans (congrArg (· + 1) visited.slots)
  · rw [tasks] at member
    rcases mem_append.mp member with old | new
    · exact visited.idle task old
    · rw [mem_singleton.mp new]
  · exact visited.trust node (level?_of_admission blocked (by decide))
  · refine (gauge _).mpr ?_
    rcases Nat.lt_succ_iff_lt_or_eq.mp below with before | rfl
    · exact .inr (visited.gauge k before)
    · exact .inl (displayPeerKey_guest small).symm

theorem visited (is : Open site) {n : Nat} (small : n ≤ 16 ^ 8) :
    ∃ s, runAll (Frontier.step site) (visits n) fresh = some s ∧ Visited n s := by
  induction n with
  | zero =>
    refine ⟨_, rfl, rfl, rfl, fun _ member => absurd member not_mem_nil, fun _ => rfl,
      fun node blocked => ?_, fun _ below => absurd below (Nat.not_lt_zero _)⟩
    rw [TrustTable.level?_seedFederationTrust] at blocked
    unfold TrustTable.seededLevel at blocked
    have unknown : fresh.trust.level? node = none := rfl
    rw [is.blocked, is.trusted, is.peers, unknown] at blocked
    simp at blocked
  | succ n ih =>
    obtain ⟨s, reached, before⟩ := ih (Nat.le_of_succ_le small)
    obtain ⟨s', run, after⟩ := before.visit is small
    refine ⟨s', ?_, after⟩
    rw [visits, runAll_append, reached]
    exact run

theorem Visited.length_gauge {n : Nat} (small : n ≤ 16 ^ 8) (visited : Visited n s) :
    n ≤ s.registry.peersUp.rows.length := by
  have distinct : ((List.range n).map guestLabel).Nodup := by
    refine (nodup_map_iff_inj_on nodup_range).mpr (fun j below k below' same => ?_)
    exact hexDigits_injective ((mem_range.mp below).trans_le small)
      ((mem_range.mp below').trans_le small) (String.ofList_injective same)
  have shown : (List.range n).map guestLabel ⊆ s.registry.peersUp.rows.map Prod.fst := by
    intro label member
    obtain ⟨k, below, rfl⟩ := mem_map.mp member
    exact visited.gauge k (mem_range.mp below)
  have fewer := (distinct.subperm shown).length_le
  rwa [length_map, length_map, length_range] at fewer

/-- One permit and no peers: the guests come one at a time, none of them is left, and the gauge has
a label for each. -/
theorem gauge_keeps_every_guest :
    validate .plain (.hosting "town-hall") = .ok () ∧
      ∃ fed, (ConfigFile.hosting "town-hall").federation = some fed ∧ fed.peers.length = 0 ∧
        ∀ n ≤ 16 ^ 8, ∃ s,
          runAll (Frontier.step ⟨fed.engine, "public", 1, .unsigned⟩) (visits n) fresh = some s ∧
          (∀ key, s.registry.conns.get? key = none) ∧ n ≤ s.registry.peersUp.rows.length := by
  obtain ⟨fed, block⟩ : ∃ fed, (ConfigFile.hosting "town-hall").federation = some fed := ⟨_, rfl⟩
  have same := Option.some.inj block
  have is : Open ⟨fed.engine, "public", 1, .unsigned⟩ := by
    rw [← same]
    exact ⟨rfl, Nat.one_pos, rfl, rfl, rfl⟩
  refine ⟨by decide +kernel, fed, block, by rw [← same]; rfl, fun n small => ?_⟩
  obtain ⟨s, reached, after⟩ := visited is small
  exact ⟨s, reached, after.conns, after.length_gauge small⟩

end Frontier

end RelayFabric
