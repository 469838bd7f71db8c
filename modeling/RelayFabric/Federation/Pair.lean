/- source: fed/conn.rs (handle_frame, handle_fed_ack, connection tasks), engine.rs
   digest: A sending gateway, a receiving gateway, and the lossy connections between them. -/

import RelayFabric.Delivery.Node
import RelayFabric.Federation.Verdict

namespace RelayFabric

open Lib

/-- What is fixed about two gateways: their cryptography, the name each has at the other, and the
peer that each connection of the sender belongs to. -/
structure PairEnv where
  sends : Crypto
  receives : Crypto
  peer : String
  owner : Nat → String
  nodeId : String
  key : String

def remoteRoute (peer : String) (r : Delivery) : Option (Uuid × String) :=
  if r.destination.protocol = fedProtocol then
    (fedTarget r.destination.endpoint).bind (fun target =>
      if target.1 = peer then some (r.messageId, target.2) else none)
  else none

def Store.remoteRoutes (peer : String) (s : Store) : List (Uuid × String) :=
  s.deliveries.rows.filterMap (remoteRoute peer)

/-- The two gateways and what is under way between them, connection by connection. The last two
fields are history variables: what the receiver's ingress accepted, and which remote routes the
sender ever had rows for. -/
structure Pair where
  sender : Node
  receiver : Daemon
  wire : Nat → List Fed
  back : Nat → List Fed
  accepted : List (Uuid × String)
  routed : List (Uuid × String)

inductive PairMove
  | inner (a : Move)
  | around (change : Daemon → Daemon)
  | connect (tx : Nat)
  | disconnect (name : String)
  | reply (tx : Nat) (frame : Fed)
  | transmit (tx : Nat)
  | deliver (tx : Nat) (io : Faults)
  | receive (tx : Nat)
  | drop (tx keep keepBack : Nat)
  | remote (change : Daemon → Daemon)

def foreignKey (peer key : String) : Bool :=
  key.toList.all (fun c => c != '%' && c != '_' && c != '/') &&
    key.toList.map Char.toLower != peer.toList.map Char.toLower

/-- The calls of the sender's own tasks: acks come from the connections of other peers, and no
plugin is called `fed`. -/
def Call.apart (peer : String) : Call → Bool
  | .ack key _ => foreignKey peer key
  | .result plugin _ _ => plugin != fedProtocol
  | _ => true

def Move.apart (peer : String) : Move → Bool
  | .outside _ => false
  | .spawn c => c.apart peer
  | _ => true

def Fed.isMessage : Fed → Bool
  | .envelope _ _ | .sealed _ _ => true
  | .ack _ | .ping | .pong | .unknown => false

def ingressVerdict (K : Crypto) (io : Faults) (nodeId : String) (frame : Fed) (d : Daemon) :
    Option (FedIngressOutcome × String) :=
  match frame with
  | .envelope env targetRoute =>
    some (((fedIngress K io nodeId env targetRoute).run d).1, targetRoute)
  | .sealed sealed targetRoute =>
    some (((fedSealedIngress K io nodeId sealed targetRoute).run d).1, targetRoute)
  | .ack _ | .ping | .pong | .unknown => none

def acceptance : Option (FedIngressOutcome × String) → List (Uuid × String)
  | some (.accepted id, targetRoute) => [(id, targetRoute)]
  | _ => []

def Pair.withDaemon (π : Pair) (d : Daemon) : Pair := { π with sender := { π.sender with d := d } }

namespace Pair

def connect (E : PairEnv) (tx : Nat) (d : Daemon) : Daemon :=
  { d with conns := d.conns.map (fun conns => conns.insert (E.owner tx) ⟨tx, E.owner tx⟩)
           fedChannels := d.fedChannels.insert tx ⟨[], 64, false⟩ }

def disconnect (name : String) (d : Daemon) : Daemon :=
  { d with conns := d.conns.map (fun conns => conns.erase name) }

/-- One step of the two gateways. Every delivery to the receiver's ingress is atomic; the
sender's tasks are cut at their locks; a dropped connection loses any suffix of what was under way
on it, in both directions, and everything still queued. -/
def step (E : PairEnv) : PairMove → Pair → Option Pair
  | .inner a, π =>
    if a.apart E.peer then
      (Node.step E.sends a π.sender).map (fun σ =>
        { π with sender := σ, routed := π.routed ++ σ.d.store.remoteRoutes E.peer })
    else none
  | .around change, π =>
    let d := π.sender.d
    some (π.withDaemon { change d with
      store := d.store, placed := d.placed, conns := d.conns, fedChannels := d.fedChannels })
  | .connect tx, π => some (π.withDaemon (connect E tx π.sender.d))
  | .disconnect name, π => some (π.withDaemon (disconnect name π.sender.d))
  | .reply tx frame, π =>
    let d := π.sender.d
    if frame.isMessage then none
    else ((d.fedChannels tx).bind (fun c => c.trySend frame)).map (fun c =>
      π.withDaemon { d with fedChannels := d.fedChannels.insert tx c })
  | .transmit tx, π =>
    let d := π.sender.d
    (d.fedChannels tx).bind (fun c =>
      match c.queue with
      | [] => none
      | frame :: rest =>
        let sent := π.withDaemon
          { d with fedChannels := d.fedChannels.insert tx { c with queue := rest } }
        if E.owner tx = E.peer then
          some { sent with wire := Function.update π.wire tx (π.wire tx ++ [frame]) }
        else some sent)
  | .deliver tx io, π =>
    match π.wire tx with
    | [] => none
    | frame :: rest =>
      let (reply, receiver) := (handleFrame E.receives io E.nodeId E.key frame).run π.receiver
      let verdict := ingressVerdict E.receives io E.nodeId frame π.receiver
      some { π with
        receiver := receiver
        wire := Function.update π.wire tx rest
        back := Function.update π.back tx (π.back tx ++ reply.toList)
        accepted := π.accepted ++ acceptance verdict }
  | .receive tx, π =>
    match π.back tx with
    | [] => none
    | .ack id :: rest =>
      some { π with
        sender := { π.sender with calls := π.sender.calls ++ [(Call.ack E.peer id).prog E.sends] }
        back := Function.update π.back tx rest }
    | _ :: rest => some { π with back := Function.update π.back tx rest }
  | .drop tx keep keepBack, π =>
    let d := π.sender.d
    let closed := (d.fedChannels tx).map (fun c => { c with queue := [], closed := true })
    some { π.withDaemon { d with fedChannels := Function.update d.fedChannels tx closed } with
      wire := Function.update π.wire tx ((π.wire tx).take keep)
      back := Function.update π.back tx ((π.back tx).take keepBack) }
  | .remote change, π => some { π with receiver := change π.receiver }

abbrev run (E : PairEnv) : List PairMove → Pair → Option Pair := runAll (step E)

end Pair

end RelayFabric
