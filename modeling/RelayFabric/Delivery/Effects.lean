/- source: engine.rs
   digest: What each section of each call does to the store. -/

import RelayFabric.Delivery.Rows

namespace RelayFabric

open Lib
open Prog hiding bind run

def Section.accepts : Section → Option Uuid
  | .inboundPersist m | .persist m | .notice m => some m
  | _ => none

/-- What a piece of work comes with: the daemons it reads are `ok`, `io` are the faults it meets,
`brings` the source and priority of its message, `aims` the route a peer asks for. -/
structure Scope where
  ok : Daemon → Prop
  io : Faults
  brings : Option (Endpoint × String)
  aims : Option String

namespace Scope

abbrev any : Scope := ⟨fun _ => True, .none, none, none⟩

abbrev arrival (io : Faults) (source : Endpoint) (priority : Option String) : Scope :=
  { any with io := io, brings := some (source, priority.getD "normal") }

end Scope

inductive IngressEffect (w : Scope) (utc : Int) : Section → Store → Store → Prop
  | keep (l : Section) (quiet : l.accepts = none) (other : ∀ row, l ≠ .requeue row) (s : Store) :
      IngressEffect w utc l s s
  | persist (now : Int) (env : Envelope) (targetRoute : String) (routeCfg : RouteConfig)
      (read read' : Daemon) (fine : w.ok read) (fine' : w.ok read')
      (aimed : w.aims = some targetRoute)
      (found : read.cfg.routeCfg targetRoute = some routeCfg) (normal : env.priority = "normal")
      (s : Store) :
      IngressEffect w utc (.persist env.id) s
        (persistStore w.io s utc now env targetRoute routeCfg.destinations
          read'.cfg.limits.routeQueueMax read'.cfg.limits.globalQueueMax).2
  | reject (now : Int) (env : Envelope) (targetRoute peer : String) (reason : Reason)
      (other : reason ≠ .retryExhausted) (normal : env.priority = "normal") (s : Store) :
      IngressEffect w utc (.reject env.id) s (recordRejection s utc now env targetRoute peer reason)
  | inbound (now : Int) (env : Envelope) (read : Daemon) (fine : w.ok read)
      (brought : w.brings = some (env.source, env.priority)) (s : Store) :
      IngressEffect w utc (.inboundPersist env.id) s
        (inboundStore w.io s utc now env (route read.cfg.routes env.source) read.cfg.limits)
  | notice (now : Int) (env : Envelope) (dest : Endpoint) (expires : Int) (read : Daemon)
      (fine : w.ok read) (normal : env.priority = "normal") (s : Store)
      (room : ¬(0 < read.cfg.limits.globalQueueMax ∧
        read.cfg.limits.globalQueueMax ≤ s.pendingCount none)) :
      IngressEffect w utc (.notice env.id) s ((s.insertMessage env).insertDelivery utc env.id
        identityRoute dest now expires (priorityRank env.priority))
  | noticeFull (now : Int) (env : Envelope) (dest : Endpoint) (expires : Int) (read : Daemon)
      (fine : w.ok read) (normal : env.priority = "normal") (s : Store)
      (full : read.cfg.limits.globalQueueMax ≤ s.pendingCount none) :
      IngressEffect w utc (.notice env.id) s ((s.insertMessage env).insertDeadDelivery utc env.id
        identityRoute dest now expires .queueFull)
  | confirm (challenge : Challenge) (now : Int) (s : Store) :
      IngressEffect w utc (.confirm challenge.id) s (confirmLinkStore s challenge now)
  | revoke (plugin sender : String) (s : Store) :
      IngressEffect w utc .revoke s (s.deleteChallengesForTarget plugin sender)

inductive StoreEffect (utc : Int) : Section → Store → Store → Prop
  | ingress {w : Scope} {l : Section} {s s' : Store} (effect : IngressEffect w utc l s s') :
      StoreEffect utc l s s'
  | result (plugin : String) (corr : Nat) (delivered : Bool) (s : Store) :
      StoreEffect utc (.result corr) s (resultStore s utc plugin corr delivered).2
  | ack (peerKey : String) (m : Uuid) (s : Store) :
      StoreEffect utc .ack s (ackStore s utc peerKey m)
  | requeue (row : Nat) (s : Store) : StoreEffect utc (.requeue row) s (s.requeue utc row)
  | purgeDead (s : Store) : StoreEffect utc .purgeDead s s.purgeDeadLetters.2

structure Daemon.SameWires (d d' : Daemon) : Prop where
  cfg : d'.cfg = d.cfg
  plugins : d'.plugins = d.plugins
  pluginChannels : d'.pluginChannels = d.pluginChannels
  conns : d'.conns = d.conns
  fedChannels : d'.fedChannels = d.fedChannels
  clock : d'.clock = d.clock
  placed : d'.placed = d.placed

theorem Daemon.SameWires.refl (d : Daemon) : d.SameWires d := ⟨rfl, rfl, rfl, rfl, rfl, rfl, rfl⟩

theorem Daemon.SameWires.inner (d : Daemon) (store dedup senders budgets cas guesses entropy) :
    d.SameWires { d with
      store := store, dedup := dedup, senderLimiter := senders, budgetLimiter := budgets, cas := cas
      linkGuesses := guesses, entropy := entropy } := ⟨rfl, rfl, rfl, rfl, rfl, rfl, rfl⟩

def IngressSection (w : Scope) (l : Section) (d d' : Daemon) : Prop :=
  IngressEffect w d.clock.utc l d.store d'.store ∧ d.SameWires d'

def CallSection (l : Section) (d d' : Daemon) : Prop :=
  StoreEffect d.clock.utc l d.store d'.store ∧ d.SameWires d'

variable {w : Scope} {l : Section} {s s' : Store} {utc : Int}

theorem IngressSection.call {d d' : Daemon} (does : IngressSection w l d d') :
    CallSection l d d' := ⟨.ingress does.1, does.2⟩

/-- The parts of the state, besides the messages and rows, that a program may touch: the keys of the
cache, the blobs with the references to them, and the tables of the identities. -/
structure Footprint where
  keys : Bool
  blobs : Bool
  links : Bool

def Section.linking : Section → Bool
  | .challenge | .guesses | .create | .revoke | .confirm _ => true
  | _ => false

structure Footprint.Covers (t : Footprint) (w : Scope) (l : Section) (d d' : Daemon) : Prop where
  ingress : IngressSection w l d d'
  keys : t.keys = false → d'.dedup = d.dedup
  blobs : t.blobs = false → d'.cas = d.cas ∧ ∀ m, l ≠ .inboundPersist m
  links : t.links = false → d'.linkGuesses = d.linkGuesses ∧ l.linking = false

abbrev Footprint.Bounds {α : Type} (t : Footprint) (w : Scope) (p : Engine α) : Prop :=
  Throughout (t.Covers w) w.ok p

section Programs

variable {α β : Type} {t : Footprint} {ok : Daemon → Prop}

def Section.calm : Section → Bool
  | .requeue _ | .inboundPersist _ | .persist _ | .notice _ => false
  | l => !l.linking

section

variable (calm : l.calm = true)
include calm

private theorem covers_calm {d d' : Daemon} (store : d'.store = d.store) (wires : d.SameWires d')
    (keys : t.keys = false → d'.dedup = d.dedup) (cas : t.blobs = false → d'.cas = d.cas)
    (guesses : d'.linkGuesses = d.linkGuesses) : t.Covers w l d d' := by
  have labels : l.accepts = none ∧ (∀ row, l ≠ .requeue row) ∧ (∀ m, l ≠ .inboundPersist m) ∧
      l.linking = false := by
    cases l <;> first | cases calm; done | exact ⟨rfl, nofun, nofun, rfl⟩
  obtain ⟨quiet, other, kept, free⟩ := labels
  refine ⟨⟨?_, wires⟩, keys, fun clear => ⟨cas clear, kept⟩, fun _ => ⟨guesses, free⟩⟩
  rw [store]
  exact .keep l quiet other d.store

private theorem covers_same (d : Daemon) : t.Covers w l d d :=
  covers_calm calm rfl (.refl d) (fun _ => rfl) (fun _ => rfl) rfl

private theorem bounds_read {read : Daemon → α} : t.Bounds w (.observe l read : Engine α) :=
  always_observe (covers_same calm)

private theorem bounds_read_bind {read : Daemon → α} {rest : α → Engine β}
    (second : ∀ d, w.ok d → t.Bounds w (rest (read d))) :
    t.Bounds w (.observe l read >>= rest : Engine β) :=
  always_observe_bind (covers_same calm) second

private theorem bounds_cache {body : Daemon → α × Daemon}
    (store : ∀ d, (body d).2.store = d.store) (wires : ∀ d : Daemon, d.SameWires (body d).2)
    (keys : t.keys = false → ∀ d, (body d).2.dedup = d.dedup)
    (cas : t.blobs = false → ∀ d, (body d).2.cas = d.cas)
    (guesses : ∀ d, (body d).2.linkGuesses = d.linkGuesses) :
    t.Bounds w (.critical l body : Engine α) :=
  always_critical (fun d => covers_calm calm (store d) (wires d) (fun clear => keys clear d)
    (fun clear => cas clear d) (guesses d))

end

private theorem exempt {flag : Bool} {P : Prop} (set : flag = true) (clear : flag = false) : P := by
  rw [set] at clear
  cases clear

theorem rejectRecorded_bounds (env : Envelope) (targetRoute peer : String) (reason : Reason)
    (other : reason ≠ .retryExhausted) (normal : env.priority = "normal") :
    t.Bounds w (rejectRecorded env targetRoute peer reason) := by
  refine always_bind (bounds_read rfl) (fun now => always_bind ?_ (fun _ => always_pure _))
  refine always_modify (fun d => ⟨?_, fun _ => rfl, fun _ => ⟨rfl, nofun⟩, fun _ => ⟨rfl, rfl⟩⟩)
  exact ⟨.reject now env targetRoute peer reason other normal d.store, .inner ..⟩

theorem isSeen_bounds (keys : t.keys = true) (m : Uuid) : t.Bounds w (isSeen m) := by
  refine always_bind (bounds_cache rfl (fun _ => rfl) (fun _ => ?_) (exempt keys) (fun _ _ => rfl)
    (fun _ => rfl)) (fun cached => always_ite (always_pure _) (bounds_read rfl))
  exact .inner ..

theorem acceptFederated_bounds (keys : t.keys = true) (senderKey : String)
    (recorded : List String) (env : Envelope) (targetRoute : String) (routeCfg : RouteConfig)
    {read : Daemon} (fine : w.ok read) (aimed : w.aims = some targetRoute)
    (found : read.cfg.routeCfg targetRoute = some routeCfg) (normal : env.priority = "normal") :
    t.Bounds w (acceptFederated w.io senderKey recorded env targetRoute routeCfg) := by
  refine always_bind
    (bounds_cache rfl (fun _ => rfl) (fun _ => ?_) (fun _ _ => rfl) (fun _ _ => rfl) (fun _ => rfl))
    (fun allowed => always_ite (always_bind ?_ (fun _ => ?_)) (always_pure _))
  · exact .inner ..
  · exact bounds_cache rfl (fun _ => rfl) (fun _ => .inner ..) (exempt keys) (fun _ _ => rfl)
      (fun _ => rfl)
  refine always_bind (bounds_read rfl) (fun receivedAt =>
    always_bind (bounds_read rfl) (fun now => ?_))
  refine bounds_read_bind rfl (fun read' fine' => always_critical (fun d => ⟨?_, fun _ => rfl,
    fun _ => ⟨rfl, nofun⟩, fun _ => ⟨rfl, rfl⟩⟩))
  exact ⟨.persist now { env with receivedAt := receivedAt } targetRoute routeCfg read read'
    fine fine' aimed found normal d.store, .inner ..⟩

theorem priority_of_bound {now : Int} {env clamped : Envelope} {maxTtlSecs : Nat}
    (bound : boundReplayAndClampTtl now env maxTtlSecs = some clamped) :
    clamped.priority = env.priority := by
  unfold boundReplayAndClampTtl at bound
  split at bound
  · cases bound
  · split at bound
    · cases bound
    · cases bound
      rfl

theorem priority_of_openSeal {K : Crypto} {frame : SealedEnvelope} {env : Envelope}
    (opened : openSeal K frame = .ok env) : env.priority = "normal" := by
  unfold openSeal at opened
  split at opened
  · cases opened
  · rename_i bytes _
    cases decoded : K.decode bytes with
    | none => simp [decoded] at opened
    | some inner =>
      rw [decoded] at opened
      cases opened
      rfl

theorem fedIngress_bounds (keys : t.keys = true) (K : Crypto) (io : Faults) (peer : String)
    (env : Envelope) (targetRoute : String) :
    t.Bounds ⟨ok, io, none, some targetRoute⟩ (fedIngress K io peer env targetRoute) := by
  refine always_bind (bounds_read rfl) (fun federation => ?_)
  rcases federation with _ | fed
  · exact rejectRecorded_bounds _ _ _ _ (by decide) rfl
  refine always_bind (bounds_read rfl) (fun denied => always_ite (always_pure _) ?_)
  split
  · exact always_pure _
  refine always_ite (always_pure _) (always_bind (bounds_read rfl) (fun now => ?_))
  cases bound : boundReplayAndClampTtl now { env with priority := "normal" } fed.maxTtlSecs with
  | none => exact rejectRecorded_bounds _ _ _ _ (by decide) rfl
  | some clamped =>
    have normal : clamped.priority = "normal" := priority_of_bound bound
    refine always_ite (rejectRecorded_bounds _ _ _ _ (by decide) normal) ?_
    refine always_ite (rejectRecorded_bounds _ _ _ _ (by decide) normal) ?_
    refine bounds_read_bind rfl (fun read fine => ?_)
    dsimp only
    cases found : read.cfg.routeCfg targetRoute with
    | none => exact rejectRecorded_bounds _ _ _ _ (by decide) normal
    | some routeCfg =>
      refine always_bind (isSeen_bounds keys _) (fun seen => always_ite (always_pure _) ?_)
      exact acceptFederated_bounds keys _ _ _ _ _ fine rfl found normal

theorem fedSealedIngress_bounds (keys : t.keys = true) (K : Crypto) (io : Faults) (peer : String)
    (sealed : SealedEnvelope) (targetRoute : String) :
    t.Bounds ⟨ok, io, none, some targetRoute⟩ (fedSealedIngress K io peer sealed targetRoute) := by
  refine always_ite (always_pure _) (always_bind (bounds_read rfl) (fun now => ?_))
  refine always_ite (always_pure _) (always_bind ?_ (fun cached => ?_))
  · exact bounds_cache rfl (fun _ => rfl) (fun _ => .inner ..) (exempt keys) (fun _ _ => rfl)
      (fun _ => rfl)
  refine always_ite (always_pure _) (always_bind (bounds_read rfl) (fun federation => ?_))
  rcases federation with _ | fed
  · exact always_pure _
  refine always_bind (bounds_read rfl) (fun denied => always_ite (always_pure _) ?_)
  cases opened : openSeal K sealed with
  | error reason => exact always_pure _
  | ok env =>
    dsimp only
    split
    · exact always_pure _
    refine always_ite (always_pure _) (always_bind (isSeen_bounds keys _) (fun seen => ?_))
    refine always_ite (always_pure _) (always_bind (bounds_read rfl) (fun later => ?_))
    cases bound : boundReplayAndClampTtl later env fed.maxTtlSecs with
    | none => exact always_pure _
    | some clamped =>
      have normal := (priority_of_bound bound).trans (priority_of_openSeal opened)
      refine always_ite (always_pure _) (bounds_read_bind rfl (fun read fine => ?_))
      cases found : read.cfg.routeCfg targetRoute with
      | none => exact always_pure _
      | some routeCfg =>
        refine always_bind (bounds_read rfl) (fun allowed => always_ite ?_ (always_pure _))
        exact acceptFederated_bounds keys _ _ _ _ _ fine rfl found normal

theorem enqueueIdentitySend_bounds (id : Uuid) (dest : Endpoint) (body : String)
    (now expires : Int) : t.Bounds w (enqueueIdentitySend id dest body now expires) := by
  refine bounds_read_bind rfl
    (fun read fine => always_bind (bounds_read rfl) (fun receivedAt => ?_))
  refine always_critical (fun d => ?_)
  dsimp only
  split
  · rename_i full
    refine ⟨?_, fun _ => rfl, fun _ => ⟨rfl, nofun⟩, fun _ => ⟨rfl, rfl⟩⟩
    exact ⟨.noticeFull now (Envelope.new id receivedAt ⟨"identity", "system"⟩ ⟨identityRoute⟩
      "notice" body now expires read.cfg.hopLimit) dest expires read fine rfl d.store full.2,
      .inner ..⟩
  · rename_i room
    refine ⟨?_, fun _ => rfl, fun _ => ⟨rfl, nofun⟩, fun _ => ⟨rfl, rfl⟩⟩
    exact ⟨.notice now (Envelope.new id receivedAt ⟨"identity", "system"⟩ ⟨identityRoute⟩
      "notice" body now expires read.cfg.hopLimit) dest expires read fine rfl d.store room,
      .inner ..⟩

theorem confirmLink_bounds (links : t.links = true) (ids : Draws) (challenge : Challenge)
    (now : Int) : t.Bounds w (confirmLink ids challenge now) := by
  refine always_bind (always_modify (fun d => ⟨?_, fun _ => rfl, fun _ => ⟨rfl, by rintro _ ⟨⟩⟩,
    exempt links⟩)) (fun _ => ?_)
  · exact ⟨.confirm challenge now d.store, .inner ..⟩
  refine always_bind (bounds_read rfl) (fun ttl => ?_)
  refine always_bind (enqueueIdentitySend_bounds ..) (fun _ => ?_)
  exact always_bind (enqueueIdentitySend_bounds _ _ _ _ _) (fun _ => always_pure _)

theorem noteFailedLinkGuess_bounds (links : t.links = true) (plugin sender : String) :
    t.Bounds w (noteFailedLinkGuess plugin sender) := by
  refine always_bind (always_critical (fun d => ⟨?_, fun _ => rfl, fun _ => ⟨rfl, by rintro _ ⟨⟩⟩,
    exempt links⟩)) (fun count => always_ite (always_pure _) (always_modify (fun d => ⟨?_,
      fun _ => rfl, fun _ => ⟨rfl, by rintro _ ⟨⟩⟩, exempt links⟩)))
  · exact ⟨.keep _ rfl (by rintro _ ⟨⟩) d.store, .inner ..⟩
  · exact ⟨.revoke plugin sender d.store, .inner ..⟩

theorem ingestAttachments_bounds (blobs : t.blobs = true) (K : Crypto) (maxBytes : Nat)
    (attachments : List IpcAttachment) :
    t.Bounds w (ingestAttachments K maxBytes attachments) := by
  induction attachments with
  | nil => exact always_pure _
  | cons att rest ih =>
    refine always_ite (always_bind ih (fun _ => always_pure _)) ?_
    refine always_bind (bounds_cache rfl (fun _ => rfl) (fun _ => ?_) (fun _ _ => rfl)
      (exempt blobs) (fun _ => rfl)) (fun stored => always_bind ih (fun tail => ?_))
    · exact .inner ..
    · cases stored <;> exact always_pure _

theorem acceptInbound_bounds (blobs : t.blobs = true) (K : Crypto) (ids : Draws)
    (read : Daemon) (fine : w.ok read) (now : Int) (source : Endpoint) (sender kind body : String)
    (createdAt : Option Int) (attachments : List IpcAttachment) (priority : Option String)
    (brought : w.brings = some (source, priority.getD "normal")) :
    t.Bounds w (acceptInbound K w.io ids read.cfg now source sender kind body createdAt
      attachments priority) := by
  refine always_ite (always_pure _) ?_
  refine always_bind (ingestAttachments_bounds blobs _ _ _) (fun stored => ?_)
  refine always_bind (bounds_read rfl) (fun receivedAt => always_modify (fun d => ⟨?_, fun _ => rfl,
    exempt blobs, fun _ => ⟨rfl, rfl⟩⟩))
  exact ⟨.inbound now { Envelope.new ids.message receivedAt source ⟨sender⟩ kind
      (body ++ stored.2) (claimedCreation createdAt now) (now + seconds read.cfg.ttlDefaultSecs)
      read.cfg.hopLimit with attachments := stored.1, priority := priority.getD "normal" }
    read fine brought d.store, .inner ..⟩

theorem handleInbound_bounds (K : Crypto) (io : Faults) (ids : Draws)
    (plugin endpoint sender kind body : String) (createdAt : Option Int)
    (attachments : List IpcAttachment) (priority : Option String) :
    Footprint.Bounds ⟨true, true, true⟩
      ⟨ok, io, some (⟨plugin, endpoint⟩, priority.getD "normal"), none⟩
      (handleInbound K io ids plugin endpoint sender kind body createdAt attachments priority) := by
  refine bounds_read_bind rfl (fun read fine => always_bind ?_ (fun cached => ?_))
  · exact bounds_cache rfl (fun _ => rfl) (fun _ => .inner ..) (exempt rfl) (exempt rfl)
      (fun _ => rfl)
  refine always_ite (always_pure _) (always_bind ?_ (fun allowed => ?_))
  · exact bounds_cache rfl (fun _ => rfl) (fun _ => .inner ..) (exempt rfl) (exempt rfl)
      (fun _ => rfl)
  refine always_ite (always_bind ?_ (fun _ => ?_)) (always_pure _)
  · exact bounds_cache rfl (fun _ => rfl) (fun _ => .inner ..) (exempt rfl) (exempt rfl)
      (fun _ => rfl)
  refine always_bind (bounds_read rfl) (fun now => ?_)
  have accepts := acceptInbound_bounds (t := ⟨true, true, true⟩)
    (w := ⟨ok, io, some (⟨plugin, endpoint⟩, priority.getD "normal"), none⟩) rfl K ids read fine now
    ⟨plugin, endpoint⟩ sender kind body createdAt attachments priority rfl
  refine always_ite (always_bind (always_observe (fun d => ?_)) (fun found => ?_)) accepts
  · exact ⟨⟨.keep _ rfl (by rintro _ ⟨⟩) d.store, .refl d⟩, exempt rfl, exempt rfl, exempt rfl⟩
  rcases found with _ | challenge
  · exact always_bind (noteFailedLinkGuess_bounds rfl _ _) (fun _ => accepts)
  · exact confirmLink_bounds rfl _ _ _

end Programs

theorem deliveries_confirmLinkStore (s : Store) (challenge : Challenge) (now : Int) :
    (confirmLinkStore s challenge now).deliveries = s.deliveries := by
  obtain ⟨_, eq⟩ := confirmLinkStore_frame s challenge now
  rw [eq]
  rfl

structure Delivery.Untried (r : Delivery) : Prop where
  unsent : r.attemptCount = 0
  born : r.state = .pending ∨ r.state = .deadLetter
  other : r.reason ≠ some .retryExhausted

theorem Store.Grows.call_move (grows : s.Grows Delivery.Untried s') {n : Nat}
    (other : l ≠ .requeue n) : CallMove utc l s n (s.row n) (s'.row n) := by
  rcases grows.rows n with same | ⟨unborn, r, found, unsent, born, reason⟩
  · rw [same]
    exact .keep _ (fun asked => absurd asked other)
  · rw [Store.row_of_next_le unborn, found]
    exact .insert r unborn unsent born reason

theorem Fanned.untried {m : Uuid} {targets : List (String × Endpoint)} {stamp : Int}
    {r : Delivery} (fanned : Fanned m targets stamp r) : r.Untried := by
  refine ⟨fanned.unsent, ?_, ?_⟩
  · rcases fanned.born with ⟨state, _⟩ | ⟨state, _⟩
    · exact .inl state
    · exact .inr state
  · rcases fanned.born with ⟨_, reason⟩ | ⟨_, reason⟩ <;> simp [reason]

private theorem delete_move {n : Nat} {keep : Delivery → Bool}
    (finished : ∀ r, keep r = false → r.state.live = false) :
    CallMove utc .purgeDead s n (s.row n) ((s.row n).filter keep) := by
  cases s.row n with
  | none => exact .keep _ nofun
  | some r =>
    rw [Option.filter]
    split
    · exact .keep _ nofun
    · rename_i dropped
      exact .delete r (finished r (by simpa using dropped)) rfl

theorem requeue_move (s : Store) (utc : Int) (row n : Nat) :
    CallMove utc (.requeue row) s n (s.row n) ((s.requeue utc row).row n) := by
  rw [Store.requeue, Store.row_updateDelivery]
  split
  · rename_i same
    subst same
    cases found : s.row n with
    | none => exact .keep _ (fun _ r absent => absurd absent (by simp))
    | some r =>
      rw [Option.map_some]
      split
      · exact .requeue r rfl ‹_›
      · rename_i refused
        refine .keep _ (fun _ r' same => ?_)
        cases same
        simpa using refused
  · rename_i other
    exact .keep _ (fun asked => absurd (Section.requeue.inj asked).symm other)

section

variable (effect : IngressEffect w utc l s s')
include effect

theorem IngressEffect.grows : s.Grows Delivery.Untried s' := by
  cases effect with
  | keep => exact .refl _ s
  | persist => exact (persistStore_grows ..).mono (fun _ => Fanned.untried)
  | reject now env targetRoute peer reason other =>
    refine (recordRejection_grows ..).mono (fun r holds => ?_)
    obtain ⟨_, unsent, dead, because, _⟩ := holds
    exact ⟨unsent, .inr dead, by simpa [because] using other⟩
  | inbound => exact (inboundStore_grows ..).mono (fun _ => Fanned.untried)
  | notice now env dest expires =>
    exact (s.grows_insertMessage _ env).trans (Store.grows_insertDelivery _ utc env.id identityRoute
      dest now expires (priorityRank env.priority) (fun _ => ⟨rfl, .inl rfl, nofun⟩))
  | noticeFull now env dest expires =>
    exact (s.grows_insertMessage _ env).trans (Store.grows_insertDeadDelivery _ utc env.id
      identityRoute dest now expires .queueFull (fun _ => ⟨rfl, .inr rfl, by simp⟩))
  | confirm challenge now => exact Store.grows_of_deliveries (deliveries_confirmLinkStore s _ _)
  | revoke => exact Store.grows_of_deliveries rfl

theorem IngressEffect.refs (other : ∀ m, l ≠ .inboundPersist m) :
    s'.attachmentRefs = s.attachmentRefs := by
  cases effect with
  | persist =>
    obtain ⟨_, _, eq⟩ := persistStore_frame ..
    rw [eq]
  | inbound _ env => exact absurd rfl (other env.id)
  | confirm challenge now =>
    obtain ⟨_, eq⟩ := confirmLinkStore_frame s challenge now
    rw [eq]
    rfl
  | keep | reject | notice | noticeFull | revoke => rfl

theorem IngressEffect.not_requeue (n : Nat) : l ≠ .requeue n := by
  cases effect with
  | keep _ _ other => exact other n
  | _ => nofun

end

theorem StoreEffect.row_move (effect : StoreEffect utc l s s') (n : Nat) : CallMove utc l s n
    (s.row n) (s'.row n) := by
  cases effect with
  | ingress effect => exact effect.grows.call_move (effect.not_requeue n)
  | result => exact resultStore_move ..
  | ack => exact ackStore_move ..
  | requeue row => exact requeue_move ..
  | purgeDead =>
    rw [Store.row_purgeDeadLetters]
    refine delete_move (fun r gone => ?_)
    have dead : r.state = .deadLetter := by simpa using gone
    rw [dead]
    rfl

theorem StoreEffect.next_le (effect : StoreEffect utc l s s') :
    s.deliveries.next ≤ s'.deliveries.next := by
  cases effect with
  | ingress effect => exact effect.grows.next
  | result => rw [next_resultStore]
  | ack => rw [next_ackStore]
  | requeue | purgeDead => exact le_rfl

def Section.stores : Section → Option Uuid
  | .persist m | .reject m | .inboundPersist m | .notice m => some m
  | _ => none

theorem messages_confirmLinkStore (s : Store) (challenge : Challenge) (now : Int) :
    (confirmLinkStore s challenge now).messages = s.messages := by
  obtain ⟨_, eq⟩ := confirmLinkStore_frame s challenge now
  rw [eq]
  rfl

theorem IngressEffect.messages (effect : IngressEffect w utc l s s') : s'.messages = s.messages ∨
      ∃ env, l.stores = some env.id ∧ s'.messages = s.messages.insertOrIgnore env.id env := by
  cases effect with
  | keep | revoke => exact .inl rfl
  | persist now env =>
    rw [messages_persistStore]
    split
    · exact .inl rfl
    · exact .inr ⟨env, rfl, rfl⟩
  | reject now env | notice now env | noticeFull now env => exact .inr ⟨env, rfl, rfl⟩
  | inbound now env =>
    rw [messages_inboundStore]
    split
    · exact .inl rfl
    · exact .inr ⟨env, rfl, rfl⟩
  | confirm challenge now => exact .inl (messages_confirmLinkStore ..)

namespace Store

def Keyed (s : Store) : Prop := ∀ m env, s.messages m = some env → env.id = m

variable {s s' : Store}

theorem Keyed.of_eq (keyed : s.Keyed) (same : s'.messages = s.messages) : s'.Keyed := by
  unfold Keyed
  rw [same]
  exact keyed

theorem Keyed.insert (keyed : s.Keyed) {env : Envelope}
    (same : s'.messages = s.messages.insertOrIgnore env.id env) : s'.Keyed := by
  intro m env' found
  rw [same] at found
  unfold Map.insertOrIgnore at found
  split at found
  · exact keyed m env' found
  · rw [Map.insert_apply] at found
    split at found
    · rename_i here
      rw [here, Option.some.inj found]
    · exact keyed m env' found

theorem Keyed.retain (keyed : s.Keyed) {keep : Uuid → Envelope → Bool}
    (same : s'.messages = s.messages.retain keep) : s'.Keyed := by
  intro m env found
  rw [same] at found
  exact keyed m env (Option.filter_eq_some_iff.mp found).1

end Store

theorem StoreEffect.keyed (effect : StoreEffect utc l s s') (keyed : s.Keyed) : s'.Keyed := by
  cases effect with
  | ingress effect =>
    rcases effect.messages with same | ⟨env, _, same⟩
    · exact keyed.of_eq same
    · exact keyed.insert same
  | result => exact keyed.of_eq (messages_resultStore ..)
  | ack => exact keyed.of_eq (messages_ackStore ..)
  | requeue => exact keyed.of_eq rfl
  | purgeDead => exact keyed.retain rfl

end RelayFabric
