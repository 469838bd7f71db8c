/- source: engine.rs (handle_inbound, confirm_link, enqueue_identity_send)
   digest: Plugin ingress as one atomic step. -/

import RelayFabric.Delivery.Effects

namespace RelayFabric

open Lib

structure Arrival where
  ids : Draws
  plugin : String
  endpoint : String
  sender : String
  kind : String
  body : String
  createdAt : Option Int
  attachments : List IpcAttachment
  priority : Option String
  deriving DecidableEq, Repr

def ingested (K : Crypto) (maxBytes : Nat) :
    List IpcAttachment → Cas → (List AttachmentMeta × String) × Cas
  | [], cas => (([], ""), cas)
  | att :: rest, cas =>
    if maxBytes < att.data.length then
      let tail := ingested K maxBytes rest cas
      ((tail.1.1, "\n[dropped " ++ att.filename ++ ": " ++ toString att.data.length ++ " B over " ++
        toString maxBytes ++ " B limit]" ++ tail.1.2), tail.2)
    else
      let put := cas.put K att.data
      let tail := ingested K maxBytes rest put.2
      match put.1 with
      | some sha => ((⟨att.filename, att.mime, att.data.length, sha⟩ :: tail.1.1, tail.1.2), tail.2)
      | none =>
        ((tail.1.1, "\n[dropped " ++ att.filename ++ ": cas budget exceeded]" ++ tail.1.2), tail.2)

theorem ingestAttachments_run (K : Crypto) (maxBytes : Nat) (attachments : List IpcAttachment) :
    ∀ d : Daemon, (ingestAttachments K maxBytes attachments).run d =
      ((ingested K maxBytes attachments d.cas).1,
        { d with cas := (ingested K maxBytes attachments d.cas).2 }) := by
  induction attachments with
  | nil => exact fun _ => rfl
  | cons att rest ih =>
    intro d
    unfold ingestAttachments ingested
    rw [Prog.run_ite]
    split
    · rw [Prog.run_bind_of (ih d)]
      rfl
    · rw [Prog.run_critical_bind]
      dsimp only
      rw [Prog.run_bind_of (ih _)]
      cases (d.cas.put K att.data).1 <;> rfl

namespace Arrival

def handle (K : Crypto) (io : Faults) (a : Arrival) : Engine Unit :=
  handleInbound K io a.ids a.plugin a.endpoint a.sender a.kind a.body a.createdAt a.attachments
    a.priority

def source (a : Arrival) : Endpoint := ⟨a.plugin, a.endpoint⟩

def key (K : Crypto) (a : Arrival) : String :=
  dedupKey K a.plugin a.sender a.endpoint a.body a.createdAt
    (a.attachments.map (fun att => K.sha256 att.data))

def charge (a : Arrival) (d : Daemon) : Bool × SenderLimiter :=
  d.senderLimiter.allow (a.plugin ++ "|" ++ a.sender)
    ((a.body.utf8ByteSize + (a.attachments.map (fun att => att.data.length)).sum) % 2 ^ 64)
    d.clock.instant

def recorded (K : Crypto) (a : Arrival) (d : Daemon) : Daemon :=
  { d with
    senderLimiter := (a.charge d).2
    dedup := (d.dedup.prune d.clock.instant).record (a.key K) d.clock.instant }

def answers (io : Faults) (a : Arrival) (d : Daemon) : Option Challenge :=
  if isLinkCode (trim a.body) then
    if io.findChallenge then none
    else d.store.findActiveChallenge a.plugin a.sender (trim a.body) d.clock.utc
  else none

def noted (K : Crypto) (a : Arrival) (d : Daemon) : Daemon :=
  if isLinkCode (trim a.body) then ((noteFailedLinkGuess a.plugin a.sender).run (a.recorded K d)).2
  else a.recorded K d

def envelope (K : Crypto) (a : Arrival) (d : Daemon) : Envelope :=
  let taken := ingested K d.cfg.maxAttachmentBytes a.attachments d.cas
  { Envelope.new a.ids.message d.clock.utc a.source ⟨a.sender⟩ a.kind (a.body ++ taken.1.2)
      (claimedCreation a.createdAt d.clock.utc) (d.clock.utc + seconds d.cfg.ttlDefaultSecs)
      d.cfg.hopLimit with
    attachments := taken.1.1
    priority := a.priority.getD "normal" }

def persisted (K : Crypto) (io : Faults) (a : Arrival) (d : Daemon) : Daemon :=
  { d with
    cas := (ingested K d.cfg.maxAttachmentBytes a.attachments d.cas).2
    store := inboundStore io d.store d.clock.utc d.clock.utc (a.envelope K d)
      (route d.cfg.routes a.source) d.cfg.limits }

theorem acceptInbound_run (K : Crypto) (io : Faults) (a : Arrival) (d : Daemon) :
    (acceptInbound K io a.ids d.cfg d.clock.utc a.source a.sender a.kind a.body a.createdAt
      a.attachments a.priority).run d =
        ((), if route d.cfg.routes a.source = [] then d else a.persisted K io d) := by
  unfold acceptInbound
  rw [Prog.run_ite]
  split
  · rfl
  · rw [Prog.run_bind_of (ingestAttachments_run ..)]
    rfl

structure Untouched (d d' : Daemon) : Prop where
  cfg : d'.cfg = d.cfg
  clock : d'.clock = d.clock
  dedup : d'.dedup = d.dedup
  senderLimiter : d'.senderLimiter = d.senderLimiter
  cas : d'.cas = d.cas
  messages : d'.store.messages = d.store.messages
  deliveries : d'.store.deliveries = d.store.deliveries
  attachmentRefs : d'.store.attachmentRefs = d.store.attachmentRefs
  nodeTrust : d'.store.nodeTrust = d.store.nodeTrust

theorem noteFailedLinkGuess_untouched (plugin sender : String) (d : Daemon) :
    Untouched d ((noteFailedLinkGuess plugin sender).run d).2 := by
  unfold noteFailedLinkGuess
  rw [Prog.run_critical_bind]
  dsimp only
  split
  · exact ⟨rfl, rfl, rfl, rfl, rfl, rfl, rfl, rfl, rfl⟩
  · exact ⟨rfl, rfl, rfl, rfl, rfl, rfl, rfl, rfl, rfl⟩

theorem noted_untouched (K : Crypto) (a : Arrival) (d : Daemon) :
    Untouched (a.recorded K d) (a.noted K d) := by
  unfold noted
  split
  · exact noteFailedLinkGuess_untouched ..
  · exact ⟨rfl, rfl, rfl, rfl, rfl, rfl, rfl, rfl, rfl⟩

theorem handle_run (K : Crypto) (io : Faults) (a : Arrival) (d : Daemon) :
    (a.handle K io).run d =
      if (d.dedup.isDuplicate (a.key K) d.clock.instant).1 then
        ((), { d with dedup := d.dedup.prune d.clock.instant })
      else if (a.charge d).1 = false then
        ((), { d with dedup := d.dedup.prune d.clock.instant, senderLimiter := (a.charge d).2 })
      else match a.answers io d with
      | some challenge => (confirmLink a.ids challenge d.clock.utc).run (a.recorded K d)
      | none =>
        ((), if route d.cfg.routes a.source = [] then a.noted K d else a.persisted K io
          (a.noted K d)) := by
  have same := a.noted_untouched K d
  have tail : ∀ d', d' = a.noted K d →
      (acceptInbound K io a.ids d.cfg d.clock.utc a.source a.sender a.kind a.body a.createdAt
        a.attachments a.priority).run d' =
          ((), if route d.cfg.routes a.source = [] then d' else a.persisted K io d') := by
    intro d' is
    have cfg : d.cfg = d'.cfg := by rw [is, same.cfg]; rfl
    have clock : d.clock = d'.clock := by rw [is, same.clock]; rfl
    rw [cfg, clock]
    exact acceptInbound_run ..
  -- the reply to a code, once the lookup has answered
  have reply : ∀ found : Option Challenge, isLinkCode (trim a.body) = true →
      Prog.run (match found with
        | some challenge => confirmLink a.ids challenge d.clock.utc
        | none => do
          noteFailedLinkGuess a.plugin a.sender
          acceptInbound K io a.ids d.cfg d.clock.utc a.source a.sender a.kind a.body a.createdAt
            a.attachments a.priority) (a.recorded K d) =
      match found with
      | some challenge => (confirmLink a.ids challenge d.clock.utc).run (a.recorded K d)
      | none => ((), if route d.cfg.routes a.source = [] then a.noted K d
          else a.persisted K io (a.noted K d)) := by
    intro found code
    have is : ((noteFailedLinkGuess a.plugin a.sender).run (a.recorded K d)).2 = a.noted K d := by
      unfold noted
      rw [if_pos code]
    cases found with
    | some challenge => rfl
    | none =>
      rw [Prog.run_bind, tail _ is, is]
  unfold handle handleInbound cfgSnapshot utcNow
  rw [Prog.run_observe_bind, Prog.run_critical_bind]
  rw [Prog.run_ite]
  change (if (d.dedup.isDuplicate (a.key K) d.clock.instant).1 = true then _ else _) = _
  split
  · rfl
  rw [Prog.run_critical_bind]
  rw [Prog.run_ite]
  change (if (a.charge d).1 = true then _ else _) = _
  cases allowed : (a.charge d).1 with
  | false => rfl
  | true =>
    rw [if_pos rfl, if_neg (by simp), Prog.run_modify_bind, Prog.run_observe_bind, Prog.run_ite]
    unfold answers
    by_cases code : isLinkCode (trim a.body) = true
    · rw [if_pos code, if_pos code, Prog.run_observe_bind]
      exact reply _ code
    · have is : a.recorded K d = a.noted K d := by
        unfold noted
        rw [if_neg code]
      rw [if_neg code, if_neg code]
      refine (tail (a.recorded K d) is).trans ?_
      rw [is]

theorem enqueueIdentitySend_frame (id : Uuid) (dest : Endpoint) (body : String) (now expires : Int)
    (d : Daemon) : ∃ messages deliveries, ((enqueueIdentitySend id dest body now expires).run d).2 =
      { d with store := { d.store with messages := messages, deliveries := deliveries } } := by
  unfold enqueueIdentitySend cfgSnapshot utcNow
  rw [Prog.run_observe_bind, Prog.run_observe_bind, Prog.run_critical]
  dsimp only
  split <;> exact ⟨_, _, rfl⟩

theorem confirmLink_frame (ids : Draws) (challenge : Challenge) (now : Int) (d : Daemon) :
    ∃ messages deliveries links, ((confirmLink ids challenge now).run d).2 =
      { d with store := { d.store.deleteChallenge challenge.id with
          messages := messages
          deliveries := deliveries
          links := links } } := by
  obtain ⟨links, confirmed⟩ := confirmLinkStore_frame d.store challenge now
  unfold confirmLink cfgSnapshot
  rw [Prog.run_modify_bind, Prog.run_observe_bind, Prog.run_bind, Prog.run_bind, Prog.run_pure]
  rw [confirmed]
  obtain ⟨_, _, first⟩ := enqueueIdentitySend_frame ids.targetNotice
    ⟨challenge.targetProtocol, challenge.targetRef⟩ _ now _
    { d with store := { d.store.deleteChallenge challenge.id with links := links } }
  rw [first]
  obtain ⟨_, _, second⟩ := enqueueIdentitySend_frame ids.requesterNotice
    ⟨challenge.requesterProtocol, challenge.requesterRef⟩ _ now _ _
  rw [second]
  exact ⟨_, _, _, rfl⟩

theorem enqueueIdentitySend_message (id : Uuid) (dest : Endpoint) (body : String)
    (now expires : Int) (d : Daemon) {m : Uuid} (other : m ≠ id) :
    ((enqueueIdentitySend id dest body now expires).run d).2.store.messages m =
      d.store.messages m := by
  have inserted (s : Store) (env : Envelope) (named : env.id = id) :
      (s.insertMessage env).messages m = s.messages m := by
    unfold Store.insertMessage Map.insertOrIgnore
    dsimp only
    split
    · rfl
    · rw [Map.insert_apply, if_neg (named ▸ other)]
  unfold enqueueIdentitySend cfgSnapshot utcNow
  rw [Prog.run_observe_bind, Prog.run_observe_bind, Prog.run_critical]
  dsimp only
  split
  · exact inserted d.store _ rfl
  · exact inserted d.store _ rfl

theorem confirmLink_message (ids : Draws) (challenge : Challenge) (now : Int) (d : Daemon)
    {m : Uuid} (target : m ≠ ids.targetNotice) (requester : m ≠ ids.requesterNotice) :
    ((confirmLink ids challenge now).run d).2.store.messages m = d.store.messages m := by
  unfold confirmLink cfgSnapshot
  rw [Prog.run_modify_bind, Prog.run_observe_bind, Prog.run_bind, Prog.run_bind, Prog.run_pure]
  rw [enqueueIdentitySend_message _ _ _ _ _ _ requester, enqueueIdentitySend_message _ _ _ _ _
    _ target, messages_confirmLinkStore]

theorem envelope_noted (K : Crypto) (a : Arrival) (d : Daemon) :
    a.envelope K (a.noted K d) = a.envelope K d := by
  have same := a.noted_untouched K d
  unfold envelope
  rw [same.cfg, same.clock, same.cas]
  rfl

def Apart (ids : Draws) : Prop := ids.message ≠ ids.targetNotice ∧ ids.message ≠ ids.requesterNotice

structure Passes (K : Crypto) (io : Faults) (a : Arrival) (d : Daemon) : Prop where
  unseen : (d.dedup.isDuplicate (a.key K) d.clock.instant).1 = false
  allowed : (a.charge d).1 = true
  silent : a.answers io d = none
  routed : route d.cfg.routes a.source ≠ []

variable {K : Crypto} {io : Faults} {a : Arrival} {d : Daemon}

theorem handle_of_passes (passes : a.Passes K io d) : (a.handle K io).run d =
    ((), a.persisted K io (a.noted K d)) := by
  rw [handle_run, if_neg (by simp [passes.unseen]), if_neg (by simp [passes.allowed]),
    passes.silent]
  rw [if_neg passes.routed]

theorem passes_of_stored {stored : Envelope}
    (apart : Apart a.ids) (fresh : d.store.getMessage a.ids.message = none)
    (after : ((a.handle K io).run d).2.store.getMessage a.ids.message = some stored) :
    a.Passes K io d := by
  have absent : d.store.messages a.ids.message = none := fresh
  have kept (d' : Daemon) (same : d'.store.messages a.ids.message = d.store.messages
      a.ids.message) : d'.store.getMessage a.ids.message ≠ some stored := by
    intro found
    have stillAbsent : d'.store.messages a.ids.message = none := same.trans absent
    exact absurd (stillAbsent.symm.trans found) (by simp)
  rw [handle_run] at after
  split at after
  · exact absurd after (kept _ rfl)
  rename_i unseen
  split at after
  · exact absurd after (kept _ rfl)
  rename_i allowed
  split at after
  · exact absurd after (kept _ (confirmLink_message _ _ _ _ apart.1 apart.2))
  rename_i silent
  split at after
  · exact absurd after (kept (a.noted K d) (congrFun (a.noted_untouched K d).messages _))
  rename_i routed
  exact ⟨by simpa using unseen, by simpa using allowed, silent, routed⟩

theorem stored_eq {stored : Envelope}
    (apart : Apart a.ids) (fresh : d.store.getMessage a.ids.message = none)
    (after : ((a.handle K io).run d).2.store.getMessage a.ids.message = some stored) :
    stored = a.envelope K d := by
  have missing : (a.noted K d).store.messages a.ids.message = none :=
    (congrFun (a.noted_untouched K d).messages _).trans fresh
  rw [handle_of_passes (passes_of_stored apart fresh after)] at after
  change (inboundStore _ _ _ _ _ _ _).messages _ = _ at after
  rw [messages_inboundStore] at after
  split at after
  · exact absurd (missing.symm.trans after) (by simp)
  · have inserted := Map.insertOrIgnore_of_none missing (a.envelope K (a.noted K d))
    rw [envelope_noted] at inserted after
    exact Option.some.inj (after.symm.trans inserted)

end Arrival

end RelayFabric
