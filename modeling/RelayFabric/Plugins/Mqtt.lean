/- source: plugins/mqtt/src/main.rs (DeliveryTracker, Bridge::on_mqtt, Bridge::fits_broker)
   digest: The MQTT plugin behind the event loop of its client library. -/

import RelayFabric.Lib.Keyed
import RelayFabric.Lib.Lag
import RelayFabric.Lib.Run

namespace RelayFabric.Mqtt

open List Lib

abbrev AwaitingAck := Keyed (UInt16 × Int) Prod.fst

def ackCapacity : Nat := 1024

namespace AwaitingAck

def evict (choice : Nat) (t : AwaitingAck) : AwaitingAck :=
  match t.rows[choice % t.rows.length]? with
  | none => t
  | some stale => t.keep (fun row => row.1 ≠ stale.1)

def insert (choice : Nat) (pkid : UInt16) (corr : Int) (t : AwaitingAck) : AwaitingAck :=
  let t := t.upsert (pkid, corr) (fun old => (old.1, corr)) (fun _ => rfl)
  if ackCapacity < t.rows.length then evict choice t else t

end AwaitingAck

structure DeliveryTracker where
  pendingPkid : List Int
  awaitingAck : AwaitingAck
  connected : Bool
  replayOnResume : Nat
  skip : Nat

namespace DeliveryTracker

def new : DeliveryTracker := ⟨[], Keyed.empty, false, 0, 0⟩

def onEnqueued (corr : Int) (t : DeliveryTracker) : DeliveryTracker :=
  { t with pendingPkid := t.pendingPkid ++ [corr] }

def onOutgoingPublish (choice : Nat) (pkid : UInt16) (t : DeliveryTracker) : DeliveryTracker :=
  if !t.connected then t
  else if 0 < t.skip then { t with skip := t.skip - 1 }
  else match t.pendingPkid with
    | [] => t
    | corr :: rest => { t with
        pendingPkid := rest
        awaitingAck := t.awaitingAck.insert choice pkid corr }

def onPuback (pkid : UInt16) (t : DeliveryTracker) : DeliveryTracker × Option Int :=
  ({ t with awaitingAck := t.awaitingAck.keep (fun row => row.1 ≠ pkid) },
    (t.awaitingAck.get? pkid).map Prod.snd)

def onDisconnect (t : DeliveryTracker) : DeliveryTracker × List Int :=
  if !t.connected then (t, [])
  else ({ t with
      connected := false
      replayOnResume := t.pendingPkid.length + t.awaitingAck.rows.length
      pendingPkid := []
      awaitingAck := Keyed.empty }, t.pendingPkid ++ t.awaitingAck.rows.map Prod.snd)

def onConnect (sessionPresent : Bool) (t : DeliveryTracker) : DeliveryTracker :=
  { t with
    connected := true
    skip := if sessionPresent then t.replayOnResume else 0
    replayOnResume := 0 }

end DeliveryTracker

structure Filter where
  path : String
  nolocal : Bool
  deriving DecidableEq, Repr

def subscriptionFilters (topics : List String) : List Filter :=
  topics.map (fun topic => ⟨topic, true⟩)

inductive MqttEvent
  | connected (sessionPresent : Bool) (brokerMaxPacket : Option Nat)
  | inbound (topic body : String)
  | outgoingPublish (pkid : UInt16)
  | pubAck (pkid : UInt16)
  | error (text : String)
  deriving DecidableEq, Repr

inductive Action
  | subscribe (filters : List Filter)
  | inbound (topic body : String)
  | result (corr : Int) (delivered : Bool) (detail : Option String)
  deriving DecidableEq, Repr

structure Bridge where
  filters : List Filter
  tracker : DeliveryTracker
  brokerMaxPacket : Option Nat

namespace Bridge

def new (topics : List String) : Bridge := ⟨subscriptionFilters topics, .new, none⟩

def onMqtt (choice : Nat) (event : MqttEvent) (b : Bridge) : Bridge × List Action :=
  match event with
  | .connected sessionPresent brokerMaxPacket =>
    ({ b with tracker := b.tracker.onConnect sessionPresent, brokerMaxPacket := brokerMaxPacket },
      if b.filters.isEmpty then [] else [.subscribe b.filters])
  | .inbound topic body => (b, [.inbound topic body])
  | .outgoingPublish pkid => ({ b with tracker := b.tracker.onOutgoingPublish choice pkid }, [])
  | .pubAck pkid =>
    ({ b with tracker := (b.tracker.onPuback pkid).1 },
      (b.tracker.onPuback pkid).2.toList.map (fun corr => .result corr true none))
  | .error text =>
    ({ b with tracker := b.tracker.onDisconnect.1 },
      b.tracker.onDisconnect.2.map (fun corr =>
        .result corr false (some ("mqtt connection lost before broker ack: " ++ text))))

def fitsBroker (size : Nat) (b : Bridge) : Except String Unit :=
  match b.brokerMaxPacket with
  | some max =>
    if max < size then
      .error ("publish of " ++ toString size ++ " bytes exceeds broker max packet size " ++
        toString max)
    else .ok ()
  | none => .ok ()

end Bridge

inductive Request
  | publish (corr : Int)
  | subscribe (filters : List Filter)
  deriving DecidableEq, Repr

namespace Request

def corr? : Request → Option Int
  | .publish corr => some corr
  | .subscribe _ => none

def corrs (requests : List Request) : List Int := requests.filterMap corr?

end Request

/-- A publish on the wire without its PUBACK; `replay` says that it was taken on an earlier
connection too. -/
structure Flight where
  pkid : UInt16
  corr : Int
  replay : Bool
  deriving DecidableEq, Repr

/-- A request that a lost connection left; `again` says that an earlier one had left it already. -/
structure Drained where
  request : Request
  again : Bool
  deriving DecidableEq, Repr

/-- The event loop. The deliveries that the broker acknowledged, and the most publishes in flight on
the last connection, are kept for the statements only. -/
structure EventLoop where
  channel : List Request
  online : Bool
  inflight : Keyed Flight Flight.pkid
  pending : List Drained
  acked : List Int
  peak : Nat

def requestCapacity : Nat := 64

namespace EventLoop

def new : EventLoop := ⟨[], false, Keyed.empty, [], [], 0⟩

def replays (c : EventLoop) : List Int := Request.corrs (c.pending.map Drained.request)

def issue (pkid : UInt16) (request : Request) (replay : Bool) (c : EventLoop) :
    Option (EventLoop × List MqttEvent) :=
  match request with
  | .subscribe _ => some (c, [])
  | .publish corr =>
    if fresh : c.inflight.get? pkid = none then
      some ({ c with
        inflight := c.inflight.append ⟨pkid, corr, replay⟩ fresh
        peak := max c.peak (c.inflight.rows.length + 1) }, [.outgoingPublish pkid])
    else none

def take (pkid : UInt16) (c : EventLoop) : Option (EventLoop × List MqttEvent) :=
  if !c.online then none
  else match c.pending with
    | first :: rest => { c with pending := rest }.issue pkid first.request true
    | [] => match c.channel with
      | first :: rest => { c with channel := rest }.issue pkid first false
      | [] => none

def puback (pkid : UInt16) (c : EventLoop) : Option (EventLoop × List MqttEvent) :=
  if !c.online then none
  else (c.inflight.get? pkid).map (fun flight => ({ c with
    inflight := c.inflight.keep (fun other => other.pkid ≠ pkid)
    acked := c.acked ++ [flight.corr] }, [.pubAck pkid]))

def connack (sessionPresent : Bool) (brokerMaxPacket : Option Nat) (c : EventLoop) :
    Option (EventLoop × List MqttEvent) :=
  if c.online then none
  else some ({ c with
    online := true
    pending := if sessionPresent then c.pending else []
    peak := 0 }, [.connected sessionPresent brokerMaxPacket])

def lose (text : String) (c : EventLoop) : Option (EventLoop × List MqttEvent) :=
  if !c.online then none
  else some ({ c with
    online := false
    inflight := Keyed.empty
    channel := []
    pending := c.pending.map (fun left => ⟨left.request, true⟩) ++
      c.inflight.rows.map (fun flight => ⟨.publish flight.corr, flight.replay⟩) ++
      c.channel.map (fun request => ⟨request, false⟩) }, [.error text])

def failConnect (text : String) (c : EventLoop) : Option (EventLoop × List MqttEvent) :=
  if c.online then none else some (c, [.error text])

def receive (topic body : String) (c : EventLoop) : Option (EventLoop × List MqttEvent) :=
  if !c.online then none else some (c, [.inbound topic body])

end EventLoop

inductive Frame
  | inbound (endpoint sender kind body : String)
  | deliveryResult (corr : Int) (delivered : Bool) (detail : Option String)
  deriving DecidableEq, Repr

def Frame.delivered? : Frame → Option Int
  | .deliveryResult corr true _ => some corr
  | .deliveryResult _ false _ | .inbound _ _ _ _ => none

namespace Action

def frame? : Action → Option Frame
  | .subscribe _ => none
  | .inbound topic body => some (.inbound topic topic "text" body)
  | .result corr delivered detail => some (.deliveryResult corr delivered detail)

def request? : Action → Option Request
  | .subscribe filters => some (.subscribe filters)
  | .inbound _ _ | .result _ _ _ => none

end Action

structure MainLoop where
  bridge : Bridge
  frames : List Frame

namespace MainLoop

def delivered (m : MainLoop) : List Int := m.frames.filterMap Frame.delivered?

def handle (choice : Nat) (event : MqttEvent) (m : MainLoop) : MainLoop :=
  ⟨(m.bridge.onMqtt choice event).1, m.frames ++ (m.bridge.onMqtt choice event).2.filterMap
    Action.frame?⟩

def requests (choice : Nat) (event : MqttEvent) (m : MainLoop) : List Request :=
  (m.bridge.onMqtt choice event).2.filterMap Action.request?

def enqueued (corr : Int) (m : MainLoop) : MainLoop :=
  { m with bridge.tracker := m.bridge.tracker.onEnqueued corr }

def failed (corr : Int) (detail : String) (m : MainLoop) : MainLoop :=
  { m with frames := m.frames ++ [.deliveryResult corr false (some detail)] }

end MainLoop

/-- The plugin process: the main loop, the events on their way to it, and the event loop. -/
structure Plugin where
  main : MainLoop
  events : List MqttEvent
  client : EventLoop

inductive Move
  | send (corr : Int) (size : Nat) (refusal : Option String)
  | handle (choice : Nat)
  | take (pkid : UInt16)
  | puback (pkid : UInt16)
  | connack (sessionPresent : Bool) (brokerMaxPacket : Option Nat)
  | lose (text : String)
  | failConnect (text : String)
  | receive (topic body : String)
  deriving DecidableEq, Repr

namespace Plugin

def new (topics : List String) : Plugin := ⟨⟨.new topics, []⟩, [], .new⟩

def tryPublish (size : Nat) (refusal : Option String) (s : Plugin) : Except String Unit :=
  match s.main.bridge.fitsBroker size with
  | .error detail => .error detail
  | .ok () => match refusal with
    | some detail => .error detail
    | none =>
      if requestCapacity ≤ s.client.channel.length then .error "mqtt request queue full" else .ok ()

def send (corr : Int) (size : Nat) (refusal : Option String) (s : Plugin) : Plugin :=
  match s.tryPublish size refusal with
  | .error detail => { s with main := s.main.failed corr detail }
  | .ok () => { s with
      main := s.main.enqueued corr
      client.channel := s.client.channel ++ [.publish corr] }

def handle (choice : Nat) (s : Plugin) : Option Plugin :=
  match s.events with
  | [] => none
  | event :: rest =>
    let channel := s.client.channel ++ s.main.requests choice event
    if channel.length ≤ requestCapacity then
      some ⟨s.main.handle choice event, rest, { s.client with channel := channel }⟩
    else none

def emit (s : Plugin) (moved : EventLoop × List MqttEvent) : Plugin :=
  { s with client := moved.1, events := s.events ++ moved.2 }

def step (move : Move) (s : Plugin) : Option Plugin :=
  match move with
  | .send corr size refusal => some (s.send corr size refusal)
  | .handle choice => s.handle choice
  | .take pkid => (s.client.take pkid).map s.emit
  | .puback pkid => (s.client.puback pkid).map s.emit
  | .connack sessionPresent brokerMaxPacket =>
    (s.client.connack sessionPresent brokerMaxPacket).map s.emit
  | .lose text => (s.client.lose text).map s.emit
  | .failConnect text => (s.client.failConnect text).map s.emit
  | .receive topic body => (s.client.receive topic body).map s.emit

/-- Only deliveries that the broker acknowledged have been reported as delivered. -/
def Truthful (s : Plugin) : Prop := ∀ corr ∈ s.main.delivered, corr ∈ s.client.acked

instance (s : Plugin) : Decidable s.Truthful :=
  inferInstanceAs (Decidable (∀ corr ∈ s.main.delivered, corr ∈ s.client.acked))

end Plugin

def Loses : Bool → List MqttEvent → Prop
  | _, [] => False
  | true, .error _ :: _ => True
  | false, .error _ :: rest => Loses false rest
  | _, .connected _ _ :: rest => Loses true rest
  | connected, .inbound _ _ :: rest => Loses connected rest
  | connected, .outgoingPublish _ :: rest => Loses connected rest
  | connected, .pubAck _ :: rest => Loses connected rest

instance Loses.decidable : ∀ connected events, Decidable (Loses connected events)
  | _, [] => isFalse id
  | true, .error _ :: _ => isTrue trivial
  | false, .error _ :: rest => Loses.decidable false rest
  | _, .connected _ _ :: rest => Loses.decidable true rest
  | connected, .inbound _ _ :: rest => Loses.decidable connected rest
  | connected, .outgoingPublish _ :: rest => Loses.decidable connected rest
  | connected, .pubAck _ :: rest => Loses.decidable connected rest

def EventLoop.Once (c : EventLoop) : Prop :=
  ∀ left ∈ c.pending, left.again = true → left.request.corr? = none

instance (c : EventLoop) : Decidable c.Once :=
  inferInstanceAs (Decidable (∀ left ∈ c.pending, left.again = true → left.request.corr? = none))

/-- No delivery is asked for while the news of a lost connection waits; and a session is resumed
only with publishes that were first taken on the last connection, which never had more in flight
than the tracker keeps. -/
def Careful : Move → Plugin → Prop
  | .send _ _ _, s => ¬ Loses s.main.bridge.tracker.connected s.events
  | .connack true _, s => s.client.peak ≤ ackCapacity ∧ s.client.Once
  | _, _ => True

instance : ∀ (move : Move) (s : Plugin), Decidable (Careful move s)
  | .send _ _ _, s => inferInstanceAs (Decidable (¬ Loses s.main.bridge.tracker.connected s.events))
  | .connack true _, s => inferInstanceAs (Decidable (s.client.peak ≤ ackCapacity ∧ s.client.Once))
  | .connack false _, _ | .handle _, _ | .take _, _ | .puback _, _ | .lose _, _ | .failConnect _, _
  | .receive _ _, _ => isTrue trivial

namespace AwaitingAck

variable {t : AwaitingAck} {choice : Nat} {pkid : UInt16} {corr : Int} {row : UInt16 × Int}

theorem mem_of_mem_evict (member : row ∈ (evict choice t).rows) : row ∈ t.rows := by
  unfold evict at member
  split at member
  · exact member
  · exact mem_of_mem_filter member

theorem mem_of_mem_insert (member : row ∈ (t.insert choice pkid corr).rows) :
    row = (pkid, corr) ∨ row ∈ t.rows := by
  unfold insert at member
  have stored : row ∈ (t.upsert (pkid, corr) (fun old => (old.1, corr)) (fun _ => rfl)).rows := by
    dsimp only at member
    split at member
    · exact mem_of_mem_evict member
    · exact member
  have found := (Keyed.get?_eq_some _).mpr ⟨stored, rfl⟩
  rw [Keyed.get?_upsert] at found
  split at found
  · next same =>
    refine Or.inl ?_
    cases old : t.get? row.1 with
    | none =>
      rw [old] at found
      exact (Option.some.inj found).symm
    | some other =>
      rw [old] at found
      have named := (t.get?_eq_some.mp old).2
      rw [← Option.some.inj found, Option.elim_some, named, same]
  · exact Or.inr (t.get?_eq_some.mp found).1

theorem rows_insert (fresh : t.get? pkid = none) (room : t.rows.length < ackCapacity) :
    (t.insert choice pkid corr).rows = t.rows ++ [(pkid, corr)] := by
  unfold insert Keyed.upsert
  rw [dif_pos fresh, if_neg]
  · rfl
  · simp only [Keyed.append, length_append, length_singleton]
    omega

end AwaitingAck

namespace DeliveryTracker

variable {t : DeliveryTracker} {choice : Nat} {pkid : UInt16} {corr : Int} {rest : List Int}

theorem onOutgoingPublish_skip (connected : t.connected = true) (skip : 0 < t.skip) :
    t.onOutgoingPublish choice pkid = { t with skip := t.skip - 1 } := by
  unfold onOutgoingPublish
  rw [if_neg (by rw [connected]; decide), if_pos skip]

theorem onOutgoingPublish_pair (connected : t.connected = true) (skip : t.skip = 0)
    (waiting : t.pendingPkid = corr :: rest) : t.onOutgoingPublish choice pkid =
      { t with pendingPkid := rest, awaitingAck := t.awaitingAck.insert choice pkid corr } := by
  unfold onOutgoingPublish
  rw [if_neg (by rw [connected]; decide), if_neg (by omega), waiting]

theorem onOutgoingPublish_disconnected (disconnected : t.connected = false) :
    t.onOutgoingPublish choice pkid = t := by
  unfold onOutgoingPublish
  rw [if_pos (by rw [disconnected]; rfl)]

theorem onOutgoingPublish_enqueued (late : Int)
    (expected : t.connected = true → t.skip = 0 → t.pendingPkid ≠ []) :
    (t.onEnqueued late).onOutgoingPublish choice pkid =
      (t.onOutgoingPublish choice pkid).onEnqueued late ∧
      (t.onOutgoingPublish choice pkid).connected = t.connected := by
  cases state : t.connected with
  | false =>
    have same : (t.onEnqueued late).connected = false := state
    rw [onOutgoingPublish_disconnected state, onOutgoingPublish_disconnected same]
    exact ⟨rfl, state⟩
  | true =>
    have same : (t.onEnqueued late).connected = true := state
    cases skipped : t.skip with
    | succ n =>
      have still : 0 < (t.onEnqueued late).skip := by
        change 0 < t.skip
        omega
      rw [onOutgoingPublish_skip state (by omega), onOutgoingPublish_skip same still]
      exact ⟨rfl, state⟩
    | zero =>
      obtain ⟨first, rest, waiting⟩ := exists_cons_of_ne_nil (expected state skipped)
      have longer : (t.onEnqueued late).pendingPkid = first :: (rest ++ [late]) := by
        change t.pendingPkid ++ [late] = _
        rw [waiting]
        rfl
      have unskipped : (t.onEnqueued late).skip = 0 := skipped
      rw [onOutgoingPublish_pair state skipped waiting,
        onOutgoingPublish_pair same unskipped longer]
      exact ⟨rfl, state⟩

theorem onDisconnect_connected (connected : t.connected = true) : t.onDisconnect.1 =
    { t with
      connected := false
      replayOnResume := t.pendingPkid.length + t.awaitingAck.rows.length
      pendingPkid := []
      awaitingAck := Keyed.empty } := by
  unfold onDisconnect
  rw [if_neg (by rw [connected]; decide)]

theorem onDisconnect_disconnected (disconnected : t.connected = false) :
    t.onDisconnect = (t, []) := by
  unfold onDisconnect
  rw [if_pos (by rw [disconnected]; rfl)]

end DeliveryTracker

namespace MainLoop

variable {m : MainLoop} {choice : Nat} {event : MqttEvent} {corr : Int}

theorem delivered_handle (member : corr ∈ m.delivered) :
    corr ∈ (m.handle choice event).delivered := by
  unfold handle delivered
  rw [filterMap_append]
  exact mem_append_left _ member

theorem delivered_handle_of_ne (other : ∀ pkid, event ≠ .pubAck pkid) :
    (m.handle choice event).delivered = m.delivered := by
  unfold handle delivered
  rw [filterMap_append]
  have silent : ((m.bridge.onMqtt choice event).2.filterMap Action.frame?).filterMap
      Frame.delivered? = [] := by
    rw [filterMap_filterMap, filterMap_eq_nil_iff]
    intro action member
    cases event with
    | connected sessionPresent brokerMaxPacket =>
      simp only [Bridge.onMqtt] at member
      split at member
      · exact absurd member not_mem_nil
      · rw [mem_singleton.mp member]
        rfl
    | inbound topic body =>
      rw [mem_singleton.mp member]
      rfl
    | outgoingPublish pkid => exact absurd member not_mem_nil
    | pubAck pkid => exact absurd rfl (other pkid)
    | error text =>
      obtain ⟨lost, -, rfl⟩ := mem_map.mp member
      rfl
  rw [silent, append_nil]

theorem delivered_handle_pubAck {pkid : UInt16} :
    (m.handle choice (.pubAck pkid)).delivered =
      m.delivered ++ ((m.bridge.tracker.awaitingAck.get? pkid).map Prod.snd).toList := by
  unfold handle delivered
  rw [filterMap_append]
  simp only [Bridge.onMqtt, DeliveryTracker.onPuback]
  cases m.bridge.tracker.awaitingAck.get? pkid with
  | none => rfl
  | some row => rfl

end MainLoop

structure Synced (c : EventLoop) (m : MainLoop) : Prop where
  connected : m.bridge.tracker.connected = c.online
  queued : m.bridge.tracker.pendingPkid = Request.corrs c.channel
  paired : ∀ row ∈ m.bridge.tracker.awaitingAck.rows, ⟨row.1, row.2, false⟩ ∈ c.inflight.rows
  grounded : c.online = false → c.inflight.rows = []
  skips : c.online = true → m.bridge.tracker.skip = c.replays.length
  tracked : c.peak ≤ ackCapacity → ∀ flight ∈ c.inflight.rows, flight.replay = false →
    (flight.pkid, flight.corr) ∈ m.bridge.tracker.awaitingAck.rows
  counted : c.online = false → c.peak ≤ ackCapacity → c.Once →
    m.bridge.tracker.replayOnResume = c.replays.length
  truthful : ∀ corr ∈ m.delivered, corr ∈ c.acked

def Expects : MqttEvent → MainLoop → Prop
  | .outgoingPublish _, m => m.bridge.tracker.connected = true → m.bridge.tracker.skip = 0 →
      m.bridge.tracker.pendingPkid ≠ []
  | _, _ => True

namespace Synced

variable {c c' : EventLoop} {m : MainLoop} {pkid : UInt16} {corr : Int}

section

variable (synced : Synced c m)
include synced

theorem unpaired (fresh : c.inflight.get? pkid = none) :
    m.bridge.tracker.awaitingAck.get? pkid = none := by
  rw [Keyed.get?_eq_none]
  intro row member same
  exact c.inflight.get?_eq_none.mp fresh _ (synced.paired row member) same

theorem awaiting_le :
    m.bridge.tracker.awaitingAck.rows.length ≤ c.inflight.rows.length :=
  Keyed.length_le _ _ (fun row member => ⟨_, synced.paired row member, rfl⟩)

theorem of_same (online : c'.online = c.online)
    (channel : Request.corrs c'.channel = Request.corrs c.channel)
    (inflight : c'.inflight = c.inflight)
    (replays : c'.replays = c.replays) (once : c'.Once → c.Once) (acked : c'.acked = c.acked)
    (peak : c'.peak = c.peak) : Synced c' m := by
  constructor
  · rw [online]
    exact synced.connected
  · rw [channel]
    exact synced.queued
  · rw [inflight]
    exact synced.paired
  · rw [online, inflight]
    exact synced.grounded
  · rw [online, replays]
    exact synced.skips
  · rw [peak, inflight]
    exact synced.tracked
  · rw [online, peak, replays]
    exact fun offline few single => synced.counted offline few (once single)
  · rw [acked]
    exact synced.truthful

theorem replay {rest : List Drained} {left : Drained} (online : c.online = true)
    (first : c.pending = left :: rest) (carries : left.request = .publish corr)
    (fresh : c.inflight.get? pkid = none) (choice : Nat) :
    Synced { c with
      pending := rest
      inflight := c.inflight.append ⟨pkid, corr, true⟩ fresh
      peak := max c.peak (c.inflight.rows.length + 1) }
        (m.handle choice (.outgoingPublish pkid)) := by
  have skip : m.bridge.tracker.skip =
      (Request.corrs (rest.map Drained.request)).length + 1 := by
    rw [synced.skips online, EventLoop.replays, first, map_cons, carries]
    rfl
  have connected := synced.connected.trans online
  have tracker : (m.handle choice (.outgoingPublish pkid)).bridge.tracker =
      { m.bridge.tracker with skip := m.bridge.tracker.skip - 1 } :=
    DeliveryTracker.onOutgoingPublish_skip connected (by omega)
  constructor
  · rw [tracker]
    exact synced.connected
  · rw [tracker]
    exact synced.queued
  · rw [tracker]
    exact fun row member => mem_append_left _ (synced.paired row member)
  · exact fun offline => absurd (online.symm.trans offline) (by decide)
  · intro _
    rw [tracker]
    rw [skip]
    rfl
  · rw [tracker]
    intro few flight member original
    rcases mem_append.mp member with old | new
    · exact synced.tracked (Nat.le_trans (Nat.le_max_left _ _) few) flight old original
    · rw [mem_singleton.mp new] at original
      cases original
  · exact fun offline => absurd (online.symm.trans offline) (by decide)
  · rw [MainLoop.delivered_handle_of_ne (by exact nofun)]
    exact synced.truthful

theorem issue {rest : List Request} (online : c.online = true)
    (empty : c.pending = []) (first : c.channel = .publish corr :: rest)
    (fresh : c.inflight.get? pkid = none) :
    Expects (.outgoingPublish pkid) m ∧ ∀ choice, Synced { c with
      channel := rest
      inflight := c.inflight.append ⟨pkid, corr, false⟩ fresh
      peak := max c.peak (c.inflight.rows.length + 1) }
        (m.handle choice (.outgoingPublish pkid)) := by
  have waiting : m.bridge.tracker.pendingPkid = corr :: Request.corrs rest := by
    rw [synced.queued, first]
    rfl
  have skip : m.bridge.tracker.skip = 0 := by
    rw [synced.skips online, EventLoop.replays, empty]
    rfl
  have connected := synced.connected.trans online
  refine ⟨fun _ _ => by rw [waiting]; exact cons_ne_nil _ _, fun choice => ?_⟩
  have tracker : (m.handle choice (.outgoingPublish pkid)).bridge.tracker =
      { m.bridge.tracker with
        pendingPkid := Request.corrs rest
        awaitingAck := m.bridge.tracker.awaitingAck.insert choice pkid corr } :=
    DeliveryTracker.onOutgoingPublish_pair connected skip waiting
  constructor
  · rw [tracker]
    exact synced.connected
  · rw [tracker]
  · rw [tracker]
    intro row member
    rcases AwaitingAck.mem_of_mem_insert member with rfl | old
    · exact mem_append_right _ mem_cons_self
    · exact mem_append_left _ (synced.paired row old)
  · exact fun offline => absurd (online.symm.trans offline) (by decide)
  · rw [tracker]
    exact synced.skips
  · intro few flight member original
    have room : m.bridge.tracker.awaitingAck.rows.length < ackCapacity := by
      have bound := synced.awaiting_le
      have under := Nat.le_trans (Nat.le_max_right _ _) few
      omega
    rw [tracker]
    rw [AwaitingAck.rows_insert (synced.unpaired fresh) room]
    rcases mem_append.mp member with old | new
    · exact mem_append_left _
        (synced.tracked (Nat.le_trans (Nat.le_max_left _ _) few) flight old original)
    · rw [mem_singleton.mp new]
      exact mem_append_right _ mem_cons_self
  · exact fun offline => absurd (online.symm.trans offline) (by decide)
  · rw [MainLoop.delivered_handle_of_ne (by exact nofun)]
    exact synced.truthful

theorem puback {flight : Flight} (online : c.online = true)
    (found : c.inflight.get? pkid = some flight) (choice : Nat) :
    Synced { c with
      inflight := c.inflight.keep (fun other => other.pkid ≠ pkid)
      acked := c.acked ++ [flight.corr] } (m.handle choice (.pubAck pkid)) := by
  constructor
  · exact synced.connected
  · exact synced.queued
  · intro row member
    obtain ⟨old, other⟩ := mem_filter.mp member
    exact mem_filter.mpr ⟨synced.paired row old, other⟩
  · exact fun offline => absurd (online.symm.trans offline) (by decide)
  · exact synced.skips
  · intro few other member original
    obtain ⟨old, differs⟩ := mem_filter.mp member
    exact mem_filter.mpr ⟨synced.tracked few other old original, differs⟩
  · exact fun offline => absurd (online.symm.trans offline) (by decide)
  · rw [MainLoop.delivered_handle_pubAck]
    intro corr member
    rcases mem_append.mp member with old | new
    · exact mem_append_left _ (synced.truthful corr old)
    · obtain ⟨row, stored, rfl⟩ := Option.map_eq_some_iff.mp (Option.mem_toList.mp new)
      obtain ⟨kept, rfl⟩ := (Keyed.get?_eq_some _).mp stored
      have same := c.inflight.get?_eq_some.mpr ⟨synced.paired row kept, rfl⟩
      rw [Option.some.inj (found.symm.trans same)]
      exact mem_append_right _ mem_cons_self

theorem connack {sessionPresent : Bool} {brokerMaxPacket : Option Nat}
    (offline : c.online = false)
    (resumable : sessionPresent = true → c.peak ≤ ackCapacity ∧ c.Once) (choice : Nat) :
    Synced { c with
      online := true
      pending := if sessionPresent then c.pending else []
      peak := 0 } (m.handle choice (.connected sessionPresent brokerMaxPacket)) := by
  constructor
  · rfl
  · exact synced.queued
  · exact synced.paired
  · exact nofun
  · intro _
    cases sessionPresent with
    | true =>
      obtain ⟨few, once⟩ := resumable rfl
      exact synced.counted offline few once
    | false => rfl
  · intro _ flight member
    rw [synced.grounded offline] at member
    exact absurd member not_mem_nil
  · exact nofun
  · rw [MainLoop.delivered_handle_of_ne (by exact nofun)]
    exact synced.truthful

theorem count_of_lost (few : c.peak ≤ ackCapacity)
    (once : ∀ left ∈ c.pending, left.request.corr? = none)
    (original : ∀ flight ∈ c.inflight.rows, flight.replay = false) :
    m.bridge.tracker.awaitingAck.rows.length = c.inflight.rows.length ∧ c.replays = [] := by
  constructor
  · apply Nat.le_antisymm synced.awaiting_le
    refine Keyed.length_le _ _ (fun flight member => ?_)
    exact ⟨_, synced.tracked few flight member (original flight member), rfl⟩
  · unfold EventLoop.replays Request.corrs
    rw [filterMap_map, filterMap_eq_nil_iff]
    exact once

end

private theorem corrs_of_flights (flights : List Flight) :
    (Request.corrs
      ((flights.map (fun flight => (⟨.publish flight.corr, flight.replay⟩ : Drained))).map
      Drained.request)).length = flights.length := by
  induction flights with
  | nil => rfl
  | cons flight rest ih => exact congrArg Nat.succ ih

theorem lose {text : String} (synced : Synced c m) (lost : c.lose text = some (c', [.error text]))
    (choice : Nat) : Synced c' (m.handle choice (.error text)) := by
  unfold EventLoop.lose at lost
  split at lost
  · cases lost
  next wasOnline =>
  have online : c.online = true := by simpa using wasOnline
  obtain rfl := (Prod.mk.inj (Option.some.inj lost)).1
  have tracker : (m.handle choice (.error text)).bridge.tracker = _ :=
    DeliveryTracker.onDisconnect_connected (synced.connected.trans online)
  constructor
  · rw [tracker]
  · rw [tracker]
    rfl
  · rw [tracker]
    exact fun row member => absurd member not_mem_nil
  · exact fun _ => rfl
  · exact nofun
  · exact fun _ flight member => absurd member not_mem_nil
  · intro _ few once
    have left_once : ∀ left ∈ c.pending, left.request.corr? = none := by
      intro left member
      refine once ⟨left.request, true⟩ ?_ rfl
      exact mem_append_left _ (mem_append_left _ (mem_map.mpr ⟨left, member, rfl⟩))
    have original : ∀ flight ∈ c.inflight.rows, flight.replay = false := by
      intro flight member
      by_contra replayed
      have drained := once ⟨.publish flight.corr, flight.replay⟩
        (mem_append_left _ (mem_append_right _ (mem_map.mpr ⟨flight, member, rfl⟩)))
        (by simpa using replayed)
      cases drained
    obtain ⟨same, none_left⟩ := synced.count_of_lost few left_once original
    have resent : Request.corrs ((c.pending.map (fun left => (⟨left.request, true⟩ : Drained))).map
        Drained.request) = [] := by
      rw [map_map]
      exact none_left
    have waiting : (c.channel.map (fun request => (⟨request, false⟩ : Drained))).map
        Drained.request = c.channel := by
      rw [map_map]
      exact map_id _
    rw [tracker]
    unfold EventLoop.replays
    rw [map_append, map_append, Request.corrs, filterMap_append, filterMap_append]
    rw [← Request.corrs, ← Request.corrs, ← Request.corrs, resent, waiting, nil_append,
      length_append]
    rw [corrs_of_flights, synced.queued, same, Nat.add_comm]
  · rw [MainLoop.delivered_handle_of_ne (by exact nofun)]
    exact synced.truthful

theorem of_view {m' : MainLoop} (synced : Synced c m) (bridge : m'.bridge = m.bridge)
    (delivered : m'.delivered = m.delivered) : Synced c m' := by
  constructor
  · rw [bridge]
    exact synced.connected
  · rw [bridge]
    exact synced.queued
  · rw [bridge]
    exact synced.paired
  · exact synced.grounded
  · rw [bridge]
    exact synced.skips
  · rw [bridge]
    exact synced.tracked
  · rw [bridge]
    exact synced.counted
  · rw [delivered]
    exact synced.truthful

theorem enqueued (synced : Synced c m) (corr : Int) :
    Synced { c with channel := c.channel ++ [.publish corr] } (m.enqueued corr) := by
  refine { synced with queued := ?_ }
  unfold Request.corrs
  rw [filterMap_append, ← Request.corrs, ← synced.queued]
  rfl

end Synced

namespace MainLoop

variable {m : MainLoop} {event : MqttEvent} {rest : List MqttEvent} {corr : Int}

theorem handle_enqueued (safe : ¬ Loses m.bridge.tracker.connected (event :: rest))
    (expected : Expects event m) (choice : Nat) :
    (m.enqueued corr).handle choice event = (m.handle choice event).enqueued corr ∧
      ¬ Loses (m.handle choice event).bridge.tracker.connected rest := by
  cases event with
  | connected sessionPresent brokerMaxPacket | inbound topic body | pubAck pkid => exact ⟨rfl, safe⟩
  | outgoingPublish pkid =>
    obtain ⟨same, connected⟩ :=
      @DeliveryTracker.onOutgoingPublish_enqueued m.bridge.tracker choice pkid corr expected
    constructor
    · unfold handle enqueued Bridge.onMqtt
      dsimp only
      rw [same]
    · change ¬ Loses (m.bridge.tracker.onOutgoingPublish choice pkid).connected rest
      rw [connected]
      exact safe
  | error text =>
    have disconnected : m.bridge.tracker.connected = false := by
      cases state : m.bridge.tracker.connected with
      | false => rfl
      | true =>
        rw [state] at safe
        exact absurd trivial safe
    have enqueued_too : (m.bridge.tracker.onEnqueued corr).connected = false := disconnected
    have after : (m.handle choice (.error text)).bridge.tracker = m.bridge.tracker :=
      congrArg Prod.fst (DeliveryTracker.onDisconnect_disconnected disconnected)
    constructor
    · unfold handle enqueued Bridge.onMqtt
      rw [DeliveryTracker.onDisconnect_disconnected disconnected]
      rw [DeliveryTracker.onDisconnect_disconnected enqueued_too]
    · rw [after]
      rw [disconnected] at safe ⊢
      exact safe

theorem bridge_handle_error {text : String} (disconnected : m.bridge.tracker.connected = false)
    (choice : Nat) :
    (m.handle choice (.error text)).bridge = m.bridge := by
  unfold handle Bridge.onMqtt
  rw [DeliveryTracker.onDisconnect_disconnected disconnected]

theorem delivered_failed (detail : String) : (m.failed corr detail).delivered = m.delivered := by
  unfold failed delivered
  rw [filterMap_append]
  exact append_nil _

theorem handle_view {m' : MainLoop} (bridge : m'.bridge = m.bridge)
    (delivered : m'.delivered = m.delivered)
    (choice : Nat) : (m'.handle choice event).bridge = (m.handle choice event).bridge ∧
      (m'.handle choice event).delivered = (m.handle choice event).delivered := by
  unfold MainLoop.delivered at delivered
  unfold handle MainLoop.delivered
  rw [bridge, filterMap_append, filterMap_append, delivered]
  exact ⟨rfl, rfl⟩

end MainLoop

abbrev Follows (c : EventLoop) (events : List MqttEvent) (m : MainLoop) : Prop :=
  Catches MainLoop.handle Expects (Synced c) events m

namespace Synced

variable {c c' : EventLoop} {m : MainLoop} {events : List MqttEvent} {pkid : UInt16}

section

variable (synced : Synced c m)
include synced

theorem follows_take (taken : c.take pkid = some (c', events)) :
    Follows c' events m := by
  unfold EventLoop.take at taken
  split at taken
  · cases taken
  next wasOnline =>
  have online : c.online = true := by simpa using wasOnline
  split at taken
  · next left rest first =>
    unfold EventLoop.issue at taken
    split at taken
    · next filters carries =>
      cases taken
      refine synced.of_same rfl rfl rfl ?_ ?_ rfl rfl
      · unfold EventLoop.replays
        rw [first, map_cons, carries]
        rfl
      · intro once other member again
        rw [first] at member
        rcases mem_cons.mp member with rfl | later
        · rw [carries]
          rfl
        · exact once other later again
    · next corr carries =>
      split at taken
      · next fresh =>
        cases taken
        refine ⟨?_, synced.replay online first carries fresh⟩
        intro _ none_left
        have some_left : m.bridge.tracker.skip ≠ 0 := by
          rw [synced.skips online, EventLoop.replays, first, map_cons, carries]
          exact Nat.succ_ne_zero _
        exact absurd none_left some_left
      · cases taken
  · next empty =>
    split at taken
    · next request rest first =>
      unfold EventLoop.issue at taken
      split at taken
      · cases taken
        refine synced.of_same rfl ?_ rfl rfl id rfl rfl
        rw [first]
        rfl
      · next corr =>
        split at taken
        · next fresh =>
          cases taken
          exact synced.issue online empty first fresh
        · cases taken
    · cases taken

theorem follows_puback (acked : c.puback pkid = some (c', events)) :
    Follows c' events m := by
  unfold EventLoop.puback at acked
  split at acked
  · cases acked
  next wasOnline =>
  obtain ⟨flight, found, moved⟩ := Option.map_eq_some_iff.mp acked
  cases moved
  exact ⟨trivial, synced.puback (by simpa using wasOnline) found⟩

theorem follows_connack {sessionPresent : Bool} {brokerMaxPacket : Option Nat}
    (resumable : sessionPresent = true → c.peak ≤ ackCapacity ∧ c.Once)
    (connected : c.connack sessionPresent brokerMaxPacket = some (c', events)) :
    Follows c' events m := by
  unfold EventLoop.connack at connected
  split at connected
  · cases connected
  next wasOffline =>
  cases connected
  exact ⟨trivial, synced.connack (by simpa using wasOffline) resumable⟩

theorem follows_lose {text : String} (lost : c.lose text = some (c', events)) :
    Follows c' events m := by
  have only : events = [.error text] := by
    unfold EventLoop.lose at lost
    split at lost
    · cases lost
    · exact (Prod.mk.inj (Option.some.inj lost)).2.symm
  subst only
  exact ⟨trivial, synced.lose lost⟩

theorem follows_failConnect {text : String}
    (refused : c.failConnect text = some (c', events)) : Follows c' events m := by
  unfold EventLoop.failConnect at refused
  split at refused
  · cases refused
  next wasOffline =>
  cases refused
  have disconnected : m.bridge.tracker.connected = false :=
    synced.connected.trans (by simpa using wasOffline)
  refine ⟨trivial, fun choice => synced.of_view
    (MainLoop.bridge_handle_error disconnected choice) ?_⟩
  exact MainLoop.delivered_handle_of_ne (by exact nofun)

theorem follows_receive {topic body : String}
    (received : c.receive topic body = some (c', events)) : Follows c' events m := by
  unfold EventLoop.receive at received
  split at received
  · cases received
  cases received
  exact ⟨trivial, fun choice => synced.of_view rfl
    (MainLoop.delivered_handle_of_ne (by exact nofun))⟩

end

end Synced

namespace Plugin

variable {s s' : Plugin} {corr : Int} {choice : Nat}

def Inv (s : Plugin) : Prop := Follows s.client s.events s.main

namespace Inv

theorem new (topics : List String) : Inv (Plugin.new topics) := by
  constructor
  · rfl
  · rfl
  · exact fun row member => absurd member not_mem_nil
  · exact fun _ => rfl
  · exact nofun
  · exact fun _ flight member => absurd member not_mem_nil
  · exact fun _ _ _ => rfl
  · exact fun corr member => absurd member not_mem_nil

theorem emit {moved : EventLoop × List MqttEvent} (inv : s.Inv)
    (follows : ∀ m, Synced s.client m → Follows moved.1 moved.2 m) : (s.emit moved).Inv :=
  Catches.emit follows inv

theorem failed (inv : s.Inv) (detail : String) :
    Inv { s with main := s.main.failed corr detail } := by
  refine @Catches.relate _ _ _ _ _ (Synced s.client) _ _ s.main _
    (fun _ m m' => m'.bridge = m.bridge ∧ m'.delivered = m.delivered) ?_ ?_
    ⟨rfl, MainLoop.delivered_failed detail⟩ inv
  · rintro event rest m m' ⟨bridge, delivered⟩ expected
    refine ⟨?_, MainLoop.handle_view bridge delivered⟩
    cases event with
    | outgoingPublish pkid =>
      simp only [Expects, bridge] at expected ⊢
      exact expected
    | _ => trivial
  · rintro m m' ⟨bridge, delivered⟩ synced
    exact synced.of_view bridge delivered

theorem enqueued (inv : s.Inv) (safe : ¬ Loses s.main.bridge.tracker.connected s.events) :
    Inv { s with
      main := s.main.enqueued corr
      client.channel := s.client.channel ++ [.publish corr] } := by
  refine @Catches.relate _ _ _ _ _ _ _ _ _ _
    (fun events m m' => ¬ Loses m.bridge.tracker.connected events ∧ m' = m.enqueued corr) ?_ ?_
    ⟨safe, rfl⟩ inv
  · rintro event rest m m' ⟨safe, rfl⟩ expected
    refine ⟨?_, fun choice => ?_⟩
    · cases event with
      | outgoingPublish pkid =>
        intro _ _ empty
        exact cons_ne_nil corr [] (append_eq_nil_iff.mp empty).2
      | _ => trivial
    · obtain ⟨commutes, later⟩ := MainLoop.handle_enqueued safe expected choice
      exact ⟨later, commutes⟩
  · rintro m m' ⟨-, rfl⟩ synced
    exact synced.enqueued corr

theorem send {size : Nat} {refusal : Option String} (inv : s.Inv)
    (safe : ¬ Loses s.main.bridge.tracker.connected s.events) : (s.send corr size refusal).Inv := by
  unfold Plugin.send
  split
  · exact inv.failed _
  · exact inv.enqueued safe

theorem handle (inv : s.Inv) (handled : s.handle choice = some s') : s'.Inv := by
  unfold Plugin.handle at handled
  split at handled
  · cases handled
  next event rest waiting =>
  obtain ⟨-, moved⟩ := Option.ite_none_right_eq_some.mp handled
  cases moved
  unfold Inv at inv
  rw [waiting] at inv
  have silent : Request.corrs (s.main.requests choice event) = [] := by
    unfold Request.corrs MainLoop.requests
    rw [filterMap_filterMap, filterMap_eq_nil_iff]
    intro action _
    cases action with
    | subscribe filters | inbound topic body | result corr delivered detail => rfl
  have same : ∀ m, Synced s.client m →
      Synced { s.client with channel := s.client.channel ++ s.main.requests choice event } m := by
    intro m synced
    refine synced.of_same rfl ?_ rfl rfl id rfl rfl
    unfold Request.corrs at silent ⊢
    rw [filterMap_append, silent, append_nil]
  have later := @Catches.emit _ _ _ _ _ _ _ _ _ [] same (inv.2 choice)
  rw [append_nil] at later
  exact later

theorem step {move : Move} (careful : Careful move s) (moved : s.step move = some s')
    (inv : s.Inv) : s'.Inv := by
  cases move with
  | send corr size refusal =>
    cases moved
    exact inv.send careful
  | handle choice => exact inv.handle moved
  | take pkid =>
    obtain ⟨result, taken, rfl⟩ := Option.map_eq_some_iff.mp moved
    exact inv.emit (fun m synced => synced.follows_take taken)
  | puback pkid =>
    obtain ⟨result, acked, rfl⟩ := Option.map_eq_some_iff.mp moved
    exact inv.emit (fun m synced => synced.follows_puback acked)
  | connack sessionPresent brokerMaxPacket =>
    obtain ⟨result, connected, rfl⟩ := Option.map_eq_some_iff.mp moved
    refine inv.emit (fun m synced => synced.follows_connack ?_ connected)
    rintro rfl
    exact careful
  | lose text =>
    obtain ⟨result, lost, rfl⟩ := Option.map_eq_some_iff.mp moved
    exact inv.emit (fun m synced => synced.follows_lose lost)
  | failConnect text =>
    obtain ⟨result, refused, rfl⟩ := Option.map_eq_some_iff.mp moved
    exact inv.emit (fun m synced => synced.follows_failConnect refused)
  | receive topic body =>
    obtain ⟨result, received, rfl⟩ := Option.map_eq_some_iff.mp moved
    exact inv.emit (fun m synced => synced.follows_receive received)

theorem truthful (inv : s.Inv) : s.Truthful := by
  intro corr reported
  have follows : Follows s.client s.events s.main := inv
  have keeps : ∀ choice event (m : MainLoop), corr ∈ m.delivered →
      corr ∈ (m.handle choice event).delivered :=
    fun choice event m member => MainLoop.delivered_handle member
  obtain ⟨m, synced, member⟩ := follows.sees 0 keeps reported
  exact synced.truthful corr member

end Inv

/-- In a careful run a delivery is reported only after the broker acknowledged a publish that
carried it. -/
theorem delivered_reports_truthful {topics : List String} {moves : List Move}
    (careful : Meets Plugin.step Careful moves (Plugin.new topics))
    (run : runAll Plugin.step moves (Plugin.new topics) = some s) : s.Truthful :=
  Inv.truthful (runAll_preserves Inv (fun _ _ _ => Inv.step) moves _ s careful run (Inv.new topics))

def resumedMoves : List Move :=
  [.connack false none, .handle 0, .send 1 10 none, .take 5, .handle 0, .lose "eof", .handle 0,
    .send 2 10 none,
    .connack true none, .take 5, .take 6, .handle 0, .handle 0, .handle 0, .puback 6, .handle 0]

theorem delivered_reports_truthful_resumed : ∃ s,
    Meets Plugin.step Careful resumedMoves (Plugin.new []) ∧
    runAll Plugin.step resumedMoves (Plugin.new []) = some s ∧
    s.main.frames = [.deliveryResult 1 false (some "mqtt connection lost before broker ack: eof"),
      .deliveryResult 2 true none] ∧ s.Truthful := by
  have careful : Meets Plugin.step Careful resumedMoves (Plugin.new []) := by decide +kernel
  obtain ⟨s, run, frames⟩ : ∃ s, runAll Plugin.step resumedMoves (Plugin.new []) = some s ∧
      s.main.frames = [.deliveryResult 1 false (some "mqtt connection lost before broker ack: eof"),
        .deliveryResult 2 true none] := by decide +kernel
  exact ⟨s, careful, run, frames, delivered_reports_truthful careful run⟩

/-- The second delivery is asked for before the plugin hears that the connection was lost: it is
reported as failed and still goes out, and its PUBACK reports the third one. -/
def lateMoves : List Move :=
  [.connack false none, .handle 0, .send 1 10 none, .take 5, .handle 0, .lose "eof",
    .send 2 10 none, .handle 0,
    .connack false none, .handle 0, .send 3 10 none, .take 5, .handle 0, .puback 5, .handle 0]

/-- The first delivery is left by two connections in a row: the tracker no longer counts it, and its
PUBACK reports the second one. -/
def twiceMoves : List Move :=
  [.connack false none, .handle 0, .send 1 10 none, .take 5, .handle 0, .lose "eof", .handle 0,
    .connack true none, .handle 0, .take 5, .handle 0, .lose "eof", .handle 0,
    .connack true none, .handle 0, .send 2 10 none, .take 5, .handle 0, .puback 5, .handle 0]

/-- The plugin reports a delivery of which the broker has acknowledged no publish. -/
theorem reports_unacknowledged :
    (∃ s, runAll Plugin.step lateMoves (Plugin.new []) = some s ∧
      .deliveryResult 3 true none ∈ s.main.frames ∧ s.client.acked = [2] ∧ ¬ s.Truthful) ∧
    ∃ s, runAll Plugin.step twiceMoves (Plugin.new []) = some s ∧
      .deliveryResult 2 true none ∈ s.main.frames ∧ s.client.acked = [1] ∧ ¬ s.Truthful := by
  decide +kernel

end Plugin

end RelayFabric.Mqtt
