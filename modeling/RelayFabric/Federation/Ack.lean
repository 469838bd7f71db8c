/- source: fed/conn.rs (handle_frame, handle_fed_ack), storage.rs (deliveries_for_fed_ack)
   digest: What a delivered federation row says about the receiving gateway. -/

import RelayFabric.Federation.Pair

namespace RelayFabric

open List Lib Option
open Prog hiding bind run

private theorem like_plain {c : Char} {pattern text : List Char} (one : c ≠ '%') (two : c ≠ '_') :
    Store.like (c :: pattern) text =
      (text.head?.any (fun d => c.toLower == d.toLower) && Store.like pattern text.tail) := by
  rw [Store.like]
  · exact fun same => one same
  · exact fun same => two same

theorem like_key {key : List Char} (plain : ∀ c ∈ key, c ≠ '%' ∧ c ≠ '_') :
    ∀ {text : List Char}, Store.like (key ++ ['/', '%']) text = true →
      ∃ name rest, text = name ++ '/' :: rest ∧ name.map Char.toLower = key.map Char.toLower := by
  induction key with
  | nil =>
    intro text found
    rw [nil_append, like_plain (by decide) (by decide), Bool.and_eq_true] at found
    cases text with
    | nil => simp at found
    | cons d rest =>
      have slash : d.toLower = '/' := by
        have same : '/'.toLower = d.toLower := by simpa using found.1
        exact same.symm
      exact ⟨[], rest, by rw [eq_of_toLower_eq slash rfl]; rfl, rfl⟩
  | cons c key ih =>
    intro text found
    obtain ⟨one, two⟩ := plain c mem_cons_self
    rw [cons_append, like_plain one two, Bool.and_eq_true] at found
    cases text with
    | nil => simp at found
    | cons d rest =>
      obtain ⟨name, tail, split, lower⟩ :=
        ih (fun c' member => plain c' (mem_cons_of_mem _ member)) found.2
      have same : c.toLower = d.toLower := by simpa using found.1
      refine ⟨d :: name, tail, ?_, ?_⟩
      · rw [tail_cons] at split
        rw [split]
        rfl
      · rw [map_cons, map_cons, lower, same]

private theorem append_cons_inj {sep : Char} {a b c d : List Char} (first : sep ∉ a)
    (second : sep ∉ b) (same : a ++ sep :: c = b ++ sep :: d) : a = b := by
  have split : splitOnce sep (a ++ sep :: c) = some (a, c) := splitOnce_append first
  rw [same, splitOnce_append second] at split
  exact (Prod.mk.inj (Option.some.inj split)).1.symm

theorem like_foreign {peer key route endpoint : String} (foreign : foreignKey peer key = true)
    (target : fedTarget endpoint = some (peer, route)) :
    Store.like (key ++ "/%").toList endpoint.toList = false := by
  by_contra found
  rw [Bool.not_eq_false, String.toList_append] at found
  unfold foreignKey at foreign
  rw [Bool.and_eq_true] at foreign
  obtain ⟨plain, other⟩ := foreign
  have letters : ∀ c ∈ key.toList, c ≠ '%' ∧ c ≠ '_' ∧ c ≠ '/' := by
    intro c member
    have each := all_eq_true.mp plain c member
    simpa [and_assoc] using each
  obtain ⟨name, rest, whole, lower⟩ :=
    like_key (fun c member => ⟨(letters c member).1, (letters c member).2.1⟩) found
  obtain ⟨pair, split, same⟩ := map_eq_some_iff.mp target
  obtain ⟨left, right⟩ := pair
  obtain ⟨whole', absent⟩ := splitOnce_eq_some split
  have named : String.ofList left = peer := (Prod.ext_iff.mp same).1
  -- a slash in the name would be a slash in the key
  have clean : '/' ∉ name := by
    intro member
    have inKey : '/'.toLower ∈ key.toList.map Char.toLower := lower ▸ mem_map_of_mem member
    obtain ⟨c, present, same⟩ := mem_map.mp inKey
    exact (letters c present).2.2 (eq_of_toLower_eq same rfl)
  have equal : name = left := append_cons_inj clean absent (whole.symm.trans whole')
  have letters' : peer.toList = name := by rw [← named, equal, String.toList_ofList]
  rw [letters', lower] at other
  simp at other

theorem remoteRoute_eq_some {peer route : String} {r : Delivery} {m : Uuid}
    (routed : remoteRoute peer r = some (m, route)) :
    r.destination.protocol = fedProtocol ∧ r.messageId = m ∧
      fedTarget r.destination.endpoint = some (peer, route) := by
  unfold remoteRoute at routed
  split at routed
  · rename_i remote
    obtain ⟨target, found, kept⟩ := bind_eq_some_iff.mp routed
    split at kept
    · rename_i same
      have parts : r.messageId = m ∧ target.2 = route := by simpa using kept
      refine ⟨remote, parts.1, ?_⟩
      rw [found, ← same, ← parts.2]
    · exact absurd kept (by simp)
  · exact absurd routed (by simp)

/-- A row toward the peer becomes delivered only if its message is among the accepted ones. -/
def DeliversAccepted (peer : String) (accepted : List (Uuid × String))
    (before after : Option Delivery) : Prop :=
  ∀ r r' m route, before = some r → after = some r' → r.state ≠ .delivered →
    r'.state = .delivered → remoteRoute peer r = some (m, route) → ∃ route', (m, route') ∈ accepted

def Justified (peer : String) (accepted : List (Uuid × String)) (_ : Section) (d d' : Daemon) :
    Prop :=
  ∀ n, DeliversAccepted peer accepted (d.store.row n) (d'.store.row n)

section Justified

variable {peer : String} {accepted : List (Uuid × String)}

theorem DeliversAccepted.of_delivered {before after : Option Delivery}
    (kept : ∀ r', after = some r' → r'.state = .delivered → before = some r') :
    DeliversAccepted peer accepted before after := by
  intro r r' m route found found' waiting delivered _
  have same := kept r' found' delivered
  rw [found] at same
  cases same
  exact absurd delivered waiting

theorem DeliversAccepted.keep (o : Option Delivery) : DeliversAccepted peer accepted o o :=
  .of_delivered (fun _ found _ => found)

theorem DeliversAccepted.change {before : Option Delivery} {r' : Delivery}
    (waiting : r'.state ≠ .delivered) : DeliversAccepted peer accepted before (some r') := by
  refine .of_delivered (fun r'' found delivered => ?_)
  cases found
  exact absurd delivered waiting

theorem Justified.mono {more : List (Uuid × String)} {l : Section} {d d' : Daemon}
    (given : Justified peer accepted l d d') (grows : ∀ x ∈ accepted, x ∈ more) :
    Justified peer more l d d' := by
  intro n r r' m route found found' waiting delivered routed
  obtain ⟨route', member⟩ := given n r r' m route found found' waiting delivered routed
  exact ⟨route', grows _ member⟩

theorem IngressSection.justified {w : Scope} {l : Section} {d d' : Daemon}
    (does : IngressSection w l d d') :
    Justified peer accepted l d d' := by
  intro n
  rcases does.1.grows.rows n with same | ⟨unborn, r, _⟩
  · rw [same]
    exact .keep _
  · rw [Store.row_of_next_le unborn]
    intro r r' m route found
    exact absurd found (by simp)

theorem PumpMove.delivered {before after : Option Delivery} (move : PumpMove before after)
    {r' : Delivery} (found : after = some r') (delivered : r'.state = .delivered) :
    before = some r' := by
  cases move with
  | quiet move =>
    cases move with
    | keep => exact found
    | delete => exact absurd found (by simp)
    | reclaim r sent | retry r t next live =>
      cases found
      exact absurd delivered (by simp)
  | terminate r t state reason live finished unsent =>
    cases found
    exact absurd delivered unsent
  | attempt r t waiting left =>
    cases found
    exact absurd delivered (by simp)

theorem resultStore_justified {plugin : String} (other : plugin ≠ fedProtocol) (s : Store)
    (utc : Int) (corr : Nat) (delivered : Bool) (n : Nat) :
    DeliversAccepted peer accepted (s.row n)
    ((resultStore s utc plugin corr delivered).2.row n) := by
  unfold resultStore
  cases found : s.deliveriesForId corr with
  | none => exact .keep _
  | some del =>
    dsimp only
    split_ifs with foreign done spent
    · exact .keep _
    · refine Store.move_updateDelivery .keep s corr _ _ _ (fun r here sent => ?_) n
      intro r₀ r' m route found₀ _ _ _ routed
      have stored : r = del := Option.some.inj (here.symm.trans found)
      cases found₀
      have remote := (remoteRoute_eq_some routed).1
      have mine : r.destination.protocol = plugin := by
        rw [stored]
        exact not_not.mp foreign
      exact absurd (mine.symm.trans remote) other
    · exact Store.move_updateDelivery .keep s corr _ _ _ (fun r _ _ => .change (by simp)) n
    · exact Store.move_updateDelivery .keep s corr _ _ _ (fun r _ _ => .change (by simp)) n

theorem ackStore_justified {key : String} {m : Uuid}
    (just : foreignKey peer key = true ∨ ∃ route, (m, route) ∈ accepted) (s : Store) (utc : Int)
    (n : Nat) : DeliversAccepted peer accepted (s.row n) ((ackStore s utc key m).row n) := by
  intro r r' m' route found found' waiting delivered routed
  rw [row_ackStore, found, map_some] at found'
  cases found'
  obtain ⟨_, message, target⟩ := remoteRoute_eq_some routed
  split at delivered
  · rename_i listed
    have passed := (mem_filter.mp listed.1).2
    simp only [Bool.and_eq_true, beq_iff_eq] at passed
    rcases just with foreign | agreed
    · have none := like_foreign foreign target
      rw [passed.2] at none
      exact absurd none (by simp)
    · rw [← message, passed.1.1]
      exact agreed
  · exact absurd delivered waiting

theorem handleFedAck_justified (K : Crypto) {key id : String}
    (just : foreignKey peer key = true ∨
      ∀ m, Uuid.parseStr id = some m → ∃ route, (m, route) ∈ accepted) :
    Always (Justified peer accepted) ((Call.ack key id).prog K) := by
  unfold Call.prog handleFedAck
  dsimp only
  split
  · exact always_pure _
  · rename_i m parsed
    refine always_modify (fun d n => ackStore_justified ?_ d.store d.clock.utc n)
    rcases just with foreign | agreed
    · exact .inl foreign
    · exact .inr (agreed m parsed)

theorem Call.apart_justified (K : Crypto) {c : Call} (apart : c.apart peer = true) :
    Always (Justified peer accepted) (c.prog K) := by
  have ingress {w : Scope} {p : Engine Unit}
      (bounds : Always (Footprint.Covers ⟨true, true, true⟩ w) p) :
      Always (Justified peer accepted) p :=
    always_mono bounds (fun _ _ _ does => does.ingress.justified)
  cases c with
  | inbound => exact ingress (handleInbound_bounds ..)
  | envelope =>
    exact ingress (always_bind (fedIngress_bounds rfl ..) (fun _ => always_pure _))
  | sealed =>
    exact ingress (always_bind (fedSealedIngress_bounds rfl ..)
      (fun _ => always_pure _))
  | result plugin corr delivered =>
    have other : plugin ≠ fedProtocol := by simpa [Call.apart] using apart
    refine always_bind (always_critical (fun d n => ?_)) (fun _ => always_pure _)
    exact resultStore_justified other d.store d.clock.utc corr delivered n
  | ack key id => exact handleFedAck_justified K (.inl apart)
  | requeue row =>
    refine always_modify (fun d n => ?_)
    exact Store.move_updateDelivery .keep d.store row _ _ _ (fun r _ _ => .change (by simp)) n
  | purgeDead =>
    refine always_modify (fun d n => .of_delivered (fun r' found delivered => ?_))
    have kept := (Store.row_purgeDeadLetters ..).symm.trans found
    exact (filter_eq_some_iff.mp kept).1

theorem NodeEffect.justified {good : Delivery → Nat → Fed → Prop} {ok : Daemon → Prop} {σ σ' : Node}
    {v v' : View} {a : Move} (effect : NodeEffect good ok σ v a σ' v')
    (calls : ∀ p ∈ σ.calls, Always (Justified peer accepted) p) (n : Nat) :
    DeliversAccepted peer accepted (σ.d.store.row n) (σ'.d.store.row n) := by
  rcases effect.row_move n with move | ⟨_, _, _, _, _, _, running, after, _⟩
  · exact .of_delivered (fun _ found delivered => move.delivered found delivered)
  · have program := calls _ (mem_of_getElem? running)
    rw [after]
    exact (always_act program σ.d).1 n

end Justified

namespace PairEnv

/-- What the receiver finds inside a seal the sender made is what the sender put there: the seal
and the encoding keep the id. -/
def SealFaithful (E : PairEnv) : Prop :=
  ∀ seed env id expires key env',
    openSeal E.receives (E.sends.sealBytes seed (E.sends.encode env) id expires key) = .ok env' →
      env'.id = env.id

def good (E : PairEnv) (del : Delivery) (tx : Nat) (frame : Fed) : Prop :=
  FrameOf E.sends del del.messageId (E.owner tx) frame

structure Ok (E : PairEnv) (d : Daemon) : Prop where
  keyed : d.store.Keyed
  owned : ∀ name conn, (d.conns.bind (fun conns => conns name)) = some conn → E.owner conn.tx = name

theorem good_of_emission {E : PairEnv} (del : Delivery) (now : Int) (d : Daemon) (env : Envelope)
    (d' : Daemon) (peer : String) (conn : PeerConn) (frame : Fed) (ok : E.Ok d)
    (stored : d.store.getMessage del.messageId = some env) (ok' : E.Ok d')
    (found : (d'.conns.bind (fun conns => conns peer)) = some conn)
    (built : Emission E.sends E.Ok del now env peer frame) : E.good del conn.tx frame := by
  have id := ok.keyed _ _ stored
  have owner := ok'.owned _ _ found
  unfold good
  rw [owner, ← id]
  exact built.frameOf

def Carried (E : PairEnv) (routed : List (Uuid × String)) : Fed → Prop
  | .envelope env route => (env.id, route) ∈ routed
  | .sealed sealed route => ∀ env, openSeal E.receives sealed = .ok env → (env.id, route) ∈ routed
  | .ack _ | .ping | .pong | .unknown => True

variable {E : PairEnv} {routed : List (Uuid × String)}

theorem Carried.mono {more : List (Uuid × String)} {frame : Fed} (carried : E.Carried routed frame)
    (grows : ∀ x ∈ routed, x ∈ more) : E.Carried more frame := by
  cases frame with
  | envelope env route => exact grows _ carried
  | sealed sealed route => exact fun env opened => grows _ (carried env opened)
  | ack | ping | pong | unknown => trivial

theorem carried_of_good (faithful : E.SealFaithful) {del : Delivery} {tx : Nat} {frame : Fed}
    (built : E.good del tx frame) (mine : E.owner tx = E.peer)
    (known : ∀ x, remoteRoute E.peer del = some x → x ∈ routed) : E.Carried routed frame := by
  have member {route : String} (remote : del.destination.protocol = fedProtocol)
      (target : fedTarget del.destination.endpoint = some (E.owner tx, route)) :
      (del.messageId, route) ∈ routed := by
    refine known _ ?_
    unfold remoteRoute
    rw [if_pos remote, target, mine]
    simp
  cases built with
  | plain route env remote target id =>
    change (env.id, route) ∈ routed
    rw [id]
    exact member remote target
  | sealed route env seed expires key remote target id =>
    intro env' opened
    rw [faithful _ _ _ _ _ _ opened, id]
    exact member remote target

end PairEnv

theorem acceptance_carried {E : PairEnv} {routed : List (Uuid × String)} {io : Faults} {frame : Fed}
    {d : Daemon} (carried : E.Carried routed frame) :
    ∀ x ∈ acceptance (ingressVerdict E.receives io E.nodeId frame d), x ∈ routed := by
  intro x member
  cases frame with
  | envelope env route =>
    unfold ingressVerdict acceptance at member
    split at member
    · rename_i id route' same
      obtain ⟨outcome, rfl⟩ := Prod.mk.inj (Option.some.inj same)
      rw [mem_singleton.mp member, (fedIngress_accepted outcome).same]
      exact carried
    · exact absurd member (by simp)
  | sealed sealed route =>
    unfold ingressVerdict acceptance at member
    split at member
    · rename_i id route' same
      obtain ⟨outcome, rfl⟩ := Prod.mk.inj (Option.some.inj same)
      obtain ⟨env, opened, accepted⟩ := fedSealedIngress_accepted outcome
      rw [mem_singleton.mp member, accepted.same]
      exact carried env opened
    · exact absurd member (by simp)
  | ack | ping | pong | unknown => exact absurd member (by simp [ingressVerdict, acceptance])

theorem handleFrame_reply (K : Crypto) (io : Faults) (nodeId key : String) (frame : Fed)
    (d : Daemon) (text : String) :
    ((handleFrame K io nodeId key frame).run d).1 = some (.ack text) ↔
      ∃ m route, ingressVerdict K io nodeId frame d = some (.accepted m, route) ∧
        text = m.toText := by
  cases frame with
  | envelope env route =>
    unfold handleFrame ingressVerdict
    cases outcome : ((fedIngress K io nodeId env route).run d).1 with
    | accepted m => simp [outcome, eq_comm]
    | rejected reason => simp [outcome]
  | sealed sealed route =>
    unfold handleFrame ingressVerdict
    cases outcome : ((fedSealedIngress K io nodeId sealed route).run d).1 with
    | accepted m => simp [outcome, eq_comm]
    | rejected reason => simp [outcome]
  | ack id =>
    unfold handleFrame
    simp [ingressVerdict]
  | ping | pong | unknown => simp [handleFrame, ingressVerdict]

namespace Pair

structure Inv (E : PairEnv) (v : View) (π : Pair) : Prop where
  node : π.sender.Inv E.good E.Ok v
  ok : E.Ok π.sender.d
  rows : ∀ n r x, π.sender.d.store.row n = some r → remoteRoute E.peer r = some x → x ∈ π.routed
  held : ∀ del ∈ v.held, ∀ x, remoteRoute E.peer del = some x → x ∈ π.routed
  queued : ∀ tx c, π.sender.d.fedChannels tx = some c → E.owner tx = E.peer →
    ∀ frame ∈ c.queue, E.Carried π.routed frame
  wired : ∀ tx, ∀ frame ∈ π.wire tx, E.Carried π.routed frame
  agreed : ∀ x ∈ π.accepted, x ∈ π.routed
  acked : ∀ tx text, .ack text ∈ π.back tx → ∀ m, Uuid.parseStr text = some m →
    ∃ route, (m, route) ∈ π.accepted
  calls : ∀ p ∈ π.sender.calls, Always (Justified E.peer π.accepted) p

variable {E : PairEnv} {v : View} {π π' : Pair}

theorem mem_remoteRoutes {peer : String} {s : Store} {n : Nat} {r : Delivery} {x : Uuid × String}
    (found : s.row n = some r) (routed : remoteRoute peer r = some x) : x ∈ s.remoteRoutes peer :=
  mem_filterMap.mpr ⟨r, Table.mem_of_get? _ found, routed⟩

theorem Inv.inner (faithful : E.SealFaithful) {a : Move} (apart : a.apart E.peer = true) {σ' : Node}
    (step : Node.step E.sends a π.sender = some σ') (inv : π.Inv E v) :
    ∃ v', Inv E v' { π with sender := σ', routed := π.routed ++ σ'.d.store.remoteRoutes E.peer } ∧
      ∀ n, DeliversAccepted E.peer π.accepted (π.sender.d.store.row n) (σ'.d.store.row n) := by
  obtain ⟨v', effect, node⟩ :=
    Node.step_effect PairEnv.good_of_emission step inv.node inv.ok
  have own : ∀ change, a ≠ .outside change := by
    intro change same
    rw [same] at apart
    exact absurd apart (by simp [Move.apart])
  have grows : ∀ x ∈ π.routed, x ∈ π.routed ++ σ'.d.store.remoteRoutes E.peer :=
    fun x member => mem_append_left _ member
  refine ⟨v', ⟨node, ⟨effect.keyed inv.ok.keyed, ?_⟩, ?_, ?_, ?_, ?_, ?_, inv.acked, ?_⟩,
    effect.justified inv.calls⟩
  · exact fun name conn found => inv.ok.owned name conn (effect.conns own found)
  · exact fun n r x found routed => mem_append_right _ (mem_remoteRoutes found routed)
  · intro del member x routed
    rcases effect.held member with old | taken
    · exact grows x (inv.held del old x routed)
    · exact mem_append_right _ (mem_remoteRoutes taken routed)
  · intro tx c found mine frame member
    obtain ⟨c₀, before, frames⟩ := effect.fedChannels own found
    rcases frames frame member with old | ⟨del, held, built⟩
    · exact (inv.queued tx c₀ before mine frame old).mono grows
    · exact (PairEnv.carried_of_good faithful built mine (inv.held del held)).mono grows
  · exact fun tx frame member => (inv.wired tx frame member).mono grows
  · exact fun x member => grows x (inv.agreed x member)
  · refine Node.step_calls step (fun c spawned => ?_) inv.calls
    rw [spawned] at apart
    exact c.apart_justified E.sends apart

theorem Inv.withDaemon {d' : Daemon} (inv : π.Inv E v) (store : d'.store = π.sender.d.store)
    (owned : ∀ name conn, (d'.conns.bind (fun conns => conns name)) = some conn →
      E.owner conn.tx = name)
    (queued : ∀ tx c', d'.fedChannels tx = some c' → ∀ frame ∈ c'.queue, frame.isMessage = true →
      ∃ c, π.sender.d.fedChannels tx = some c ∧ frame ∈ c.queue) :
    (π.withDaemon d').Inv E v where
  node := ⟨by
    change PumpInv _ _ d'.store v π.sender.pump
    rw [store]
    exact inv.node.pump, inv.node.calls⟩
  ok := ⟨by
    change d'.store.Keyed
    rw [store]
    exact inv.ok.keyed, owned⟩
  rows := by
    intro n r x found routed
    change d'.store.row n = some r at found
    rw [store] at found
    exact inv.rows n r x found routed
  held := inv.held
  queued := by
    intro tx c' found mine frame member
    cases message : frame.isMessage with
    | true =>
      obtain ⟨c, before, old⟩ := queued tx c' found frame member message
      exact inv.queued tx c before mine frame old
    | false =>
      cases frame with
      | envelope | sealed => exact absurd message (by simp [Fed.isMessage])
      | ack | ping | pong | unknown => trivial
  wired := inv.wired
  agreed := inv.agreed
  acked := inv.acked
  calls := inv.calls

private theorem mem_update {α : Type} {queues : Nat → List α} {tx tx' : Nat}
    {queue : List α} {x : α}
    (member : x ∈ Function.update queues tx queue tx') : (tx' = tx ∧ x ∈ queue) ∨
      x ∈ queues tx' := by
  by_cases here : tx' = tx
  · subst here
    rw [Function.update_self] at member
    exact .inl ⟨rfl, member⟩
  · rw [Function.update_of_ne here] at member
    exact .inr member

theorem Inv.deliver {tx : Nat} {io : Faults} {frame : Fed} {rest : List Fed}
    (wire : π.wire tx = frame :: rest) (inv : π.Inv E v) :
    Inv E v { π with
      receiver := ((handleFrame E.receives io E.nodeId E.key frame).run π.receiver).2
      wire := Function.update π.wire tx rest
      back := Function.update π.back tx (π.back tx ++
        ((handleFrame E.receives io E.nodeId E.key frame).run π.receiver).1.toList)
      accepted := π.accepted ++ acceptance
        (ingressVerdict E.receives io E.nodeId frame π.receiver) } := by
  have carried := inv.wired tx frame (by rw [wire]; exact mem_cons_self)
  have grows : ∀ x ∈ π.accepted,
      x ∈ π.accepted ++ acceptance (ingressVerdict E.receives io E.nodeId frame π.receiver) :=
    fun x member => mem_append_left _ member
  refine { inv with wired := ?_, agreed := ?_, acked := ?_, calls := ?_ }
  · intro tx' frame' member
    rcases mem_update member with ⟨_, queued⟩ | old
    · refine inv.wired tx frame' ?_
      rw [wire]
      exact mem_cons_of_mem _ queued
    · exact inv.wired tx' frame' old
  · intro x member
    rcases mem_append.mp member with old | new
    · exact inv.agreed x old
    · exact acceptance_carried carried x new
  · intro tx' text member m parsed
    have old {tx : Nat} (before : .ack text ∈ π.back tx) : ∃ route, (m, route) ∈
        π.accepted ++ acceptance (ingressVerdict E.receives io E.nodeId frame π.receiver) := by
      obtain ⟨route, known⟩ := inv.acked tx text before m parsed
      exact ⟨route, grows _ known⟩
    rcases mem_update member with ⟨_, queued⟩ | before
    · rcases mem_append.mp queued with before | new
      · exact old before
      · have reply := mem_toList.mp new
        obtain ⟨m', route, verdict, rfl⟩ := (handleFrame_reply ..).mp reply
        rw [Uuid.parseStr_toText] at parsed
        cases parsed
        rw [verdict]
        exact ⟨route, mem_append_right _ mem_cons_self⟩
    · exact old before
  · exact fun p member => always_mono (inv.calls p member) (fun _ _ _ just => just.mono grows)

theorem Inv.connect {tx : Nat} (inv : π.Inv E v) :
    (π.withDaemon (Pair.connect E tx π.sender.d)).Inv E v := by
  refine inv.withDaemon rfl (fun name conn found => ?_)
    (fun tx' c' found frame member message => ?_)
  · obtain ⟨conns, registry, present⟩ := bind_eq_some_iff.mp found
    obtain ⟨conns₀, before, rfl⟩ := map_eq_some_iff.mp registry
    rw [Map.insert_apply] at present
    split at present
    · rename_i here
      cases present
      exact here.symm
    · refine inv.ok.owned name conn ?_
      rw [before]
      exact present
  · change Map.insert _ _ _ _ = _ at found
    rw [Map.insert_apply] at found
    split at found
    · cases found
      exact absurd member (by simp)
    · exact ⟨c', found, member⟩

theorem Inv.disconnect {name : String} (inv : π.Inv E v) :
    (π.withDaemon (Pair.disconnect name π.sender.d)).Inv E v := by
  refine inv.withDaemon rfl (fun name' conn found => ?_) (fun tx c' found frame member _ =>
    ⟨c', found, member⟩)
  obtain ⟨conns, registry, present⟩ := bind_eq_some_iff.mp found
  obtain ⟨conns₀, before, rfl⟩ := map_eq_some_iff.mp registry
  refine inv.ok.owned name' conn ?_
  rw [before]
  rw [Map.erase_apply] at present
  split at present
  · exact absurd present (by simp)
  · exact present

theorem Inv.transmit {tx : Nat} {c : Channel Fed} {frame : Fed} {rest : List Fed}
    (found : π.sender.d.fedChannels tx = some c) (queue : c.queue = frame :: rest)
    (inv : π.Inv E v) :
    (π.withDaemon { π.sender.d with
      fedChannels := π.sender.d.fedChannels.insert tx { c with queue := rest } }).Inv E v := by
  refine inv.withDaemon rfl inv.ok.owned (fun tx' c' present frame' member _ => ?_)
  change Map.insert _ _ _ _ = _ at present
  rw [Map.insert_apply] at present
  split at present
  · rename_i here
    cases present
    refine ⟨c, by rw [here]; exact found, ?_⟩
    rw [queue]
    exact mem_cons_of_mem _ member
  · exact ⟨c', present, member⟩

theorem Inv.receive {tx : Nat} (step : Pair.step E (.receive tx) π = some π') (inv : π.Inv E v) :
    π'.Inv E v ∧ π'.sender.d = π.sender.d := by
  have shorter {frame : Fed} {rest : List Fed} (back : π.back tx = frame :: rest) :
      ∀ tx' text, .ack text ∈ Function.update π.back tx rest tx' → ∀ m,
        Uuid.parseStr text = some m → ∃ route, (m, route) ∈ π.accepted := by
    intro tx' text member
    rcases mem_update member with ⟨_, queued⟩ | old
    · refine inv.acked tx text ?_
      rw [back]
      exact mem_cons_of_mem _ queued
    · exact inv.acked tx' text old
  simp only [Pair.step] at step
  split at step
  · exact absurd step (by simp)
  · rename_i text rest back
    cases step
    have known := inv.acked tx text (by rw [back]; exact mem_cons_self)
    refine ⟨{ inv with node := ⟨inv.node.pump, ?_⟩, acked := shorter back, calls := ?_ }, rfl⟩
    · intro p member
      rcases mem_append.mp member with old | new
      · exact inv.node.calls p old
      · rw [mem_singleton.mp new]
        exact Call.sections ..
    · intro p member
      rcases mem_append.mp member with old | new
      · exact inv.calls p old
      · rw [mem_singleton.mp new]
        exact handleFedAck_justified E.sends (.inr known)
  · rename_i frame rest _ back
    cases step
    exact ⟨{ inv with acked := shorter back }, rfl⟩

theorem Inv.drop {tx keep keepBack : Nat} (step : Pair.step E (.drop tx keep keepBack) π = some π')
    (inv : π.Inv E v) : π'.Inv E v ∧ π'.sender.d.store = π.sender.d.store := by
  cases step
  have closed : (π.withDaemon { π.sender.d with
      fedChannels := Function.update π.sender.d.fedChannels tx
        ((π.sender.d.fedChannels tx).map (fun c => { c with queue := [], closed := true })) }).Inv
        E v := by
    refine inv.withDaemon rfl inv.ok.owned (fun tx' c' present frame' member _ => ?_)
    change Function.update _ _ _ _ = _ at present
    rw [Function.update_apply] at present
    split at present
    · obtain ⟨c, _, rfl⟩ := map_eq_some_iff.mp present
      exact absurd member (by simp)
    · exact ⟨c', present, member⟩
  refine ⟨{ closed with wired := ?_, acked := ?_ }, rfl⟩
  · intro tx' frame member
    rcases mem_update member with ⟨_, kept⟩ | old
    · exact inv.wired tx frame (mem_of_mem_take kept)
    · exact inv.wired tx' frame old
  · intro tx' text member
    rcases mem_update member with ⟨_, kept⟩ | old
    · exact inv.acked tx text (mem_of_mem_take kept)
    · exact inv.acked tx' text old

theorem Inv.step (faithful : E.SealFaithful) {a : PairMove} (step : Pair.step E a π = some π')
    (inv : π.Inv E v) : ∃ v', π'.Inv E v' ∧
      ∀ n, DeliversAccepted E.peer π.accepted (π.sender.d.store.row n)
        (π'.sender.d.store.row n) := by
  cases a with
  | inner a =>
    simp only [Pair.step] at step
    split at step
    · rename_i apart
      obtain ⟨σ', inner, rfl⟩ := map_eq_some_iff.mp step
      exact inv.inner faithful apart inner
    · exact absurd step (by simp)
  | around change =>
    cases step
    refine ⟨v, inv.withDaemon rfl inv.ok.owned ?_, fun n => .keep _⟩
    exact fun tx c' found frame member _ => ⟨c', found, member⟩
  | connect tx =>
    cases step
    exact ⟨v, inv.connect, fun n => .keep _⟩
  | disconnect name =>
    cases step
    exact ⟨v, inv.disconnect, fun n => .keep _⟩
  | reply tx frame =>
    simp only [Pair.step] at step
    split at step
    · exact absurd step (by simp)
    · rename_i quiet
      obtain ⟨c', sent, rfl⟩ := map_eq_some_iff.mp step
      obtain ⟨c, found, took⟩ := bind_eq_some_iff.mp sent
      refine ⟨v, inv.withDaemon rfl inv.ok.owned ?_, fun n => .keep _⟩
      intro tx' c'' present frame' member message
      change Map.insert _ _ _ _ = _ at present
      rw [Map.insert_apply] at present
      split at present
      · rename_i here
        cases present
        rw [(Channel.room_of_trySend took).2] at member
        rcases mem_append.mp member with old | new
        · exact ⟨c, by rw [here]; exact found, old⟩
        · rw [mem_singleton.mp new] at message
          exact absurd message quiet
      · exact ⟨c'', present, member⟩
  | transmit tx =>
    obtain ⟨c, found, taken⟩ := bind_eq_some_iff.mp step
    split at taken
    · exact absurd taken (by simp)
    · rename_i frame rest queue
      have sent := inv.transmit found queue
      split at taken
      · rename_i mine
        cases taken
        refine ⟨v, { sent with wired := ?_ }, fun n => .keep _⟩
        intro tx' frame' member
        rcases mem_update member with ⟨_, wired⟩ | old
        · rcases mem_append.mp wired with old | new
          · exact inv.wired tx frame' old
          · rw [mem_singleton.mp new]
            refine inv.queued tx c found mine frame ?_
            rw [queue]
            exact mem_cons_self
        · exact inv.wired tx' frame' old
      · cases taken
        exact ⟨v, sent, fun n => .keep _⟩
  | deliver tx io =>
    simp only [Pair.step] at step
    split at step
    · exact absurd step (by simp)
    · rename_i frame rest wire
      cases step
      exact ⟨v, inv.deliver wire, fun n => .keep _⟩
  | receive tx =>
    obtain ⟨inv', same⟩ := inv.receive step
    refine ⟨v, inv', fun n => ?_⟩
    rw [same]
    exact .keep _
  | drop tx keep keepBack =>
    obtain ⟨inv', same⟩ := inv.drop step
    refine ⟨v, inv', fun n => ?_⟩
    rw [same]
    exact .keep _
  | remote change =>
    cases step
    exact ⟨v, { inv with }, fun n => .keep _⟩

structure Start (E : PairEnv) (π : Pair) : Prop where
  fresh : π.sender.Fresh
  keyed : π.sender.d.store.Keyed
  unconnected : ∀ name, (π.sender.d.conns.bind (fun conns => conns name)) = none
  unqueued : ∀ tx, π.sender.d.fedChannels tx = none
  silent : ∀ tx, π.wire tx = [] ∧ π.back tx = []
  accepted : π.accepted = []
  routed : π.routed = π.sender.d.store.remoteRoutes E.peer

theorem Start.inv (start : π.Start E) : π.Inv E .idle where
  node := start.fresh.inv
  ok := ⟨start.keyed, fun name conn found => absurd found (by simp [start.unconnected name])⟩
  rows := by
    intro n r x found routed
    rw [start.routed]
    exact mem_remoteRoutes found routed
  held := fun del member => absurd member (by simp)
  queued := fun tx c found => absurd found (by simp [start.unqueued tx])
  wired := fun tx frame member => absurd member (by simp [(start.silent tx).1])
  agreed := fun x member => absurd member (by simp [start.accepted])
  acked := fun tx text member => absurd member (by simp [(start.silent tx).2])
  calls := fun p member => absurd member (by simp [start.fresh.2])

theorem run_inv (faithful : E.SealFaithful) {moves : List PairMove} {π₀ : Pair} (start : π₀.Start E)
    (reached : Pair.run E moves π₀ = some π) : ∃ v, π.Inv E v := by
  refine runAll_invariant (fun π => ∃ v, π.Inv E v) (fun a π π' step given => ?_) reached
    ⟨_, start.inv⟩
  obtain ⟨v, inv⟩ := given
  obtain ⟨v', inv', _⟩ := inv.step faithful step
  exact ⟨v', inv'⟩

/-- No message has ever had rows for two routes of the peer. -/
def Single (π : Pair) : Prop := ∀ x ∈ π.routed, ∀ y ∈ π.routed, x.1 = y.1 → x = y

instance (π : Pair) : Decidable π.Single := by
  unfold Single
  infer_instance

end Pair

/-- Ack agreement: a row for `peer/route` becomes delivered only if the receiver's ingress has
accepted its message for that route, as long as no message owns rows for two routes of the peer. The
ack carries nothing but the id. -/
theorem ack_agreement (E : PairEnv) (faithful : E.SealFaithful) (moves : List PairMove)
    (π₀ π π' : Pair) (a : PairMove) (start : π₀.Start E) (reached : Pair.run E moves π₀ = some π)
    (single : π.Single) (step : Pair.step E a π = some π') (n : Nat) (r r' : Delivery)
    (route : String) (before : π.sender.d.store.row n = some r)
    (after : π'.sender.d.store.row n = some r') (waiting : r.state ≠ .delivered)
    (delivered : r'.state = .delivered) (remote : r.destination.protocol = fedProtocol)
    (toward : fedTarget r.destination.endpoint = some (E.peer, route)) :
    (r.messageId, route) ∈ π.accepted := by
  obtain ⟨v, inv⟩ := Pair.run_inv faithful start reached
  obtain ⟨_, _, justified⟩ := inv.step faithful step
  have routed : remoteRoute E.peer r = some (r.messageId, route) := by
    unfold remoteRoute
    rw [if_pos remote, toward]
    simp
  obtain ⟨route', agreed⟩ := justified n r r' _ route before after waiting delivered routed
  have same := single _ (inv.agreed _ agreed) _ (inv.rows n r _ before routed) rfl
  rw [← same]
  exact agreed

def PairEnv.small : PairEnv :=
  ⟨.clear "rf:a", .clear "rf:hub", "hub", fun _ => "hub", "rf:a", "a"⟩

theorem PairEnv.small_faithful : PairEnv.small.SealFaithful := by
  intro seed env id expires key env' opened
  have read := Crypto.clear_decode "rf:hub" "rf:a" env
  change (((Crypto.clear "rf:hub").decode ((Crypto.clear "rf:a").encode env)).elim
    (.error Reason.badSeal)
    (fun env => .ok { env with priority := "normal" })) = Except.ok env' at opened
  rw [read] at opened
  cases opened
  rfl

def Pair.small (store : Store) : Pair :=
  ⟨.small store, .small .empty, fun _ => [], fun _ => [], [], store.recover.remoteRoutes "hub"⟩

theorem Pair.start_small {store : Store} (keyed : store.Keyed) :
    (Pair.small store).Start .small where
  fresh := ⟨rfl, rfl⟩
  keyed := keyed.of_eq rfl
  unconnected _ := rfl
  unqueued _ := rfl
  silent _ := ⟨rfl, rfl⟩
  accepted := rfl
  routed := rfl

def Store.forHub (routes : List String) : Store :=
  routes.foldl (fun s route => s.insertDelivery 0 ⟨1⟩ "in" ⟨"fed", "hub/" ++ route⟩ 0
    (seconds 3600) 2) (Store.empty.insertMessage (Envelope.hello ⟨1⟩))

theorem Store.keyed_forHub (routes : List String) : (Store.forHub routes).Keyed := by
  have start : (Store.empty.insertMessage (Envelope.hello ⟨1⟩)).Keyed := by
    have empty : Store.empty.Keyed :=
      fun m env found => absurd found (by simp [Store.empty, Map.empty])
    exact empty.insert rfl
  have folded : ∀ (routes : List String) (s : Store), s.Keyed → (routes.foldl (fun s route =>
      s.insertDelivery 0 ⟨1⟩ "in" ⟨"fed", "hub/" ++ route⟩ 0 (seconds 3600) 2) s).Keyed := by
    intro routes
    induction routes with
    | nil => exact fun s keyed => keyed
    | cons route rest ih => exact fun s keyed => ih _ (keyed.of_eq rfl)
  exact folded routes _ start

def hubMoves (pumps frames : Nat) : List PairMove :=
  PairMove.connect 0 :: List.replicate pumps (PairMove.inner .pump) ++
    List.replicate frames (PairMove.transmit 0) ++ [PairMove.deliver 0 .none, PairMove.receive 0]

theorem ack_agreement_hub :
    ∃ π π' r r', Pair.run .small (hubMoves 15 1) (.small (.forHub ["in"])) = some π ∧
      Pair.step .small (.inner (.call 0)) π = some π' ∧ π.sender.d.store.row 1 = some r ∧
      π'.sender.d.store.row 1 = some r' ∧ r'.state = .delivered ∧
      (r.messageId, "in") ∈ π.accepted := by
  obtain ⟨π, reached, single, π', step, r, before, waiting, destination, r', after, delivered⟩ :
      ∃ π, Pair.run .small (hubMoves 15 1) (.small (.forHub ["in"])) = some π ∧ π.Single ∧
        ∃ π', Pair.step .small (.inner (.call 0)) π = some π' ∧
          ∃ r, π.sender.d.store.row 1 = some r ∧ r.state = .attempting ∧
            r.destination = ⟨"fed", "hub/in"⟩ ∧
            ∃ r', π'.sender.d.store.row 1 = some r' ∧ r'.state = .delivered := by
    decide +kernel
  have start := Pair.start_small (Store.keyed_forHub ["in"])
  refine ⟨π, π', r, r', reached, step, before, after, delivered, ?_⟩
  exact ack_agreement .small PairEnv.small_faithful _ _ _ _ _ start reached single step 1 r r' "in"
    before after (by simp [waiting]) delivered (by rw [destination]; rfl)
    (by rw [destination]; decide +kernel)

/-- One message with rows for two routes of the hub, of which the hub accepts only the first: its
ack delivers both rows. -/
theorem ack_delivers_other_route :
    (Pair.small (.forHub ["in", "other"])).Start .small ∧
      ∃ π π' r r', Pair.run .small (hubMoves 28 2) (.small (.forHub ["in", "other"])) = some π ∧
        Pair.step .small (.inner (.call 0)) π = some π' ∧ π.sender.d.store.row 2 = some r ∧
        π'.sender.d.store.row 2 = some r' ∧ r.state ≠ .delivered ∧ r'.state = .delivered ∧
        r.destination.protocol = fedProtocol ∧
        fedTarget r.destination.endpoint = some ("hub", "other") ∧
        (r.messageId, "other") ∉ π.accepted := by
  refine ⟨Pair.start_small (Store.keyed_forHub _), ?_⟩
  simp only [exists_and_left]
  decide +kernel

end RelayFabric
