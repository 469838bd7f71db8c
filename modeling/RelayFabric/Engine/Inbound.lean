/- source: engine.rs (handle_inbound, enqueue_identity_send, confirm_link, note_failed_link_guess)
   digest: Plugin ingress, with the identity-link replies it intercepts. -/

import RelayFabric.Engine.Ingress

namespace RelayFabric

open Lib

structure Draws where
  message : Uuid
  targetNotice : Uuid
  requesterNotice : Uuid
  deriving DecidableEq, Repr

def maskRef (s : String) : String :=
  let cs := s.toList
  if 8 < cs.length then
    String.ofList (cs.take 2) ++ "****" ++ String.ofList (cs.drop (cs.length - 4))
  else "****"

def enqueueIdentitySend (id : Uuid) (dest : Endpoint) (body : String) (now expires : Int) :
    Engine (Except String Unit) := do
  let (hopLimit, globalMax) ← cfgSnapshot (fun c => (c.hopLimit, c.limits.globalQueueMax))
  let receivedAt ← utcNow
  let env := Envelope.new id receivedAt ⟨"identity", "system"⟩ ⟨identityRoute⟩ "notice" body now
    expires hopLimit
  .critical (.notice id) (fun d =>
    let s := d.store.insertMessage env
    let stamp := d.clock.utc
    if 0 < globalMax ∧ globalMax ≤ s.pendingCount none then
      let dead := s.insertDeadDelivery stamp id identityRoute dest now expires .queueFull
      (.error "queue full", { d with store := dead })
    else
      let queued := s.insertDelivery stamp id identityRoute dest now expires
        (priorityRank env.priority)
      (.ok (), { d with store := queued }))

def linkCodeMaxGuesses : Nat := 5

def linkCodeWindow : Int := seconds (15 * 60)

def linkCodeMapMax : Nat := 10000

def countGuess (guesses : List (String × Nat × Int)) (key : String) (now : Int) :
    Nat × List (String × Nat × Int) :=
  let live := guesses.filter (fun e => decide (durationSince now e.2.2 < linkCodeWindow))
  let kept := if linkCodeMapMax ≤ live.length then [] else live
  let (count, first) := (kept.lookup key).getD (0, now)
  let others := kept.filter (fun e => e.1 != key)
  if linkCodeMaxGuesses ≤ count + 1 then (count + 1, others)
  else (count + 1, others ++ [(key, count + 1, first)])

def noteFailedLinkGuess (plugin sender : String) : Engine Unit := do
  let count ← .critical .guesses (fun d =>
    let (count, guesses) := countGuess d.linkGuesses (plugin ++ "|" ++ sender) d.clock.instant
    (count, { d with linkGuesses := guesses }))
  if count < linkCodeMaxGuesses then pure ()
  else .modify .revoke (fun d =>
    { d with store := d.store.deleteChallengesForTarget plugin sender })

def dropLinkOf (s : Store) (protocol reference : String) : Store :=
  (s.linkForIdentity protocol reference).elim s (fun l => s.deleteLink l.id)

def confirmLinkStore (s : Store) (challenge : Challenge) (now : Int) : Store :=
  let consumed := s.deleteChallenge challenge.id
  let free := dropLinkOf (dropLinkOf consumed challenge.targetProtocol challenge.targetRef)
    challenge.requesterProtocol challenge.requesterRef
  free.insertLink challenge.targetProtocol challenge.targetRef challenge.requesterProtocol
    challenge.requesterRef challenge.displayName now

def confirmLink (ids : Draws) (challenge : Challenge) (now : Int) : Engine Unit := do
  .modify (.confirm challenge.id)
    (fun d => { d with store := confirmLinkStore d.store challenge now })
  let ttl ← cfgSnapshot Config.ttlDefaultSecs
  let expires := now + seconds ttl
  let maskedRequester := challenge.requesterProtocol ++ ":" ++ maskRef challenge.requesterRef
  let maskedTarget := challenge.targetProtocol ++ ":" ++ maskRef challenge.targetRef
  let _ ← enqueueIdentitySend ids.targetNotice ⟨challenge.targetProtocol, challenge.targetRef⟩
    ("RelayFabric: identity link confirmed with " ++ maskedRequester ++ " as \"" ++
      challenge.displayName ++ "\".") now expires
  let _ ← enqueueIdentitySend ids.requesterNotice
    ⟨challenge.requesterProtocol, challenge.requesterRef⟩
    ("RelayFabric: " ++ maskedTarget ++ " confirmed the identity link as \"" ++
      challenge.displayName ++ "\".") now expires
  pure ()

def isWhiteSpace (c : Char) : Bool :=
  let n := c.toNat
  (9 ≤ n && n ≤ 13) || n == 0x20 || n == 0x85 || n == 0xA0 || n == 0x1680 ||
    (0x2000 ≤ n && n ≤ 0x200A) || n == 0x2028 || n == 0x2029 || n == 0x202F || n == 0x205F ||
    n == 0x3000

def trim (s : String) : String :=
  String.ofList ((s.toList.dropWhile isWhiteSpace).reverse.dropWhile isWhiteSpace).reverse

def isLinkCode (trimmed : String) : Bool :=
  trimmed.toList.length == 6 && trimmed.toList.all Char.isDigit

def ingestAttachments (K : Crypto) (maxAttachmentBytes : Nat) :
    List IpcAttachment → Engine (List AttachmentMeta × String)
  | [] => pure ([], "")
  | att :: rest => do
    let size := att.data.length
    if maxAttachmentBytes < size then do
      let (metas, notes) ← ingestAttachments K maxAttachmentBytes rest
      pure (metas, "\n[dropped " ++ att.filename ++ ": " ++ toString size ++ " B over " ++
        toString maxAttachmentBytes ++ " B limit]" ++ notes)
    else do
      let stored ← .critical .blob (fun d =>
        let (sha, cas) := d.cas.put K att.data
        (sha, { d with cas := cas }))
      let (metas, notes) ← ingestAttachments K maxAttachmentBytes rest
      match stored with
      | some sha => pure (⟨att.filename, att.mime, size, sha⟩ :: metas, notes)
      | none => pure (metas, "\n[dropped " ++ att.filename ++ ": cas budget exceeded]" ++ notes)

def claimedCreation (createdAt : Option Int) (now : Int) : Int :=
  (createdAt.filter (fun t => decide (|t - now| < seconds (36525 * 86400)))).getD now

def inboundStore (io : Faults) (s : Store) (stamp now : Int) (env : Envelope)
    (targets : List (String × Endpoint)) (limits : Limits) : Store :=
  if io.insertMessage then s
  else
    let withRefs := insertAttachmentRefs io env.id 0 (env.attachments.map AttachmentMeta.sha256)
      (s.insertMessage env)
    (fanOutDeliveries io stamp env.id env.expiresAt (priorityRank env.priority) limits.routeQueueMax
      limits.globalQueueMax now 0 targets withRefs).2

def acceptInbound (K : Crypto) (io : Faults) (ids : Draws) (cfg : Config) (now : Int)
    (source : Endpoint) (sender kind body : String) (createdAt : Option Int)
    (attachments : List IpcAttachment) (priority : Option String) : Engine Unit := do
  let targets := route cfg.routes source
  if targets = [] then pure ()
  else do
    let (metas, notes) ← ingestAttachments K cfg.maxAttachmentBytes attachments
    let receivedAt ← utcNow
    let env := { Envelope.new ids.message receivedAt source ⟨sender⟩ kind (body ++ notes)
        (claimedCreation createdAt now) (now + seconds cfg.ttlDefaultSecs) cfg.hopLimit with
      attachments := metas
      priority := priority.getD "normal" }
    .modify (.inboundPersist ids.message) (fun d =>
      { d with store := inboundStore io d.store d.clock.utc now env targets cfg.limits })

def handleInbound (K : Crypto) (io : Faults) (ids : Draws)
    (plugin endpoint sender kind body : String)
    (createdAt : Option Int) (attachments : List IpcAttachment) (priority : Option String) :
    Engine Unit := do
  let cfg ← cfgSnapshot id
  let key := dedupKey K plugin sender endpoint body createdAt
    (attachments.map (fun att => K.sha256 att.data))
  if ← .critical .inboundPeek (fun d =>
      let (found, dedup) := d.dedup.isDuplicate key d.clock.instant
      (found, { d with dedup := dedup })) then pure ()
  else do
    let bytes := (body.utf8ByteSize + (attachments.map (fun att => att.data.length)).sum) % 2 ^ 64
    if ← .critical .inboundQuota (fun d =>
        let (ok, limiter) := d.senderLimiter.allow (plugin ++ "|" ++ sender) bytes d.clock.instant
        (ok, { d with senderLimiter := limiter })) then do
      .modify .inboundRecord (fun d => { d with dedup := d.dedup.record key d.clock.instant })
      let now ← utcNow
      if isLinkCode (trim body) then do
        let found ← .observe .challenge (fun d =>
          if io.findChallenge then none
          else d.store.findActiveChallenge plugin sender (trim body) now)
        match found with
        | some challenge => confirmLink ids challenge now
        | none => do
          noteFailedLinkGuess plugin sender
          acceptInbound K io ids cfg now ⟨plugin, endpoint⟩ sender kind body createdAt attachments
            priority
      else
        acceptInbound K io ids cfg now ⟨plugin, endpoint⟩ sender kind body createdAt attachments
          priority
    else pure ()

end RelayFabric
