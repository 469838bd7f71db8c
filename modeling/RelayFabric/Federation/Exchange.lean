/- source: fed/conn.rs (handle_frame, handle_fed_ack), engine.rs (fed_ingress)
   digest: What one complete exchange does to the row it is about, and what a lost ack costs. -/

import Mathlib.Data.List.Infix
import RelayFabric.Federation.Ack

namespace RelayFabric

open List Lib

def exchange (E : PairEnv) (io : Faults) (frame : Fed) (receiver sender : Daemon) :
    Daemon × Daemon :=
  let answer := (handleFrame E.receives io E.nodeId E.key frame).run receiver
  (answer.2, answer.1.elim sender (fun reply =>
    ((handleFrame E.sends io E.receives.nodeId E.peer reply).run sender).2))

theorem like_own (key rest : List Char) :
    Store.like (key ++ ['/', '%']) (key ++ '/' :: rest) = true := by
  induction key with
  | nil =>
    have all : Store.like ['%'] rest = true := by
      rw [Store.like, any_eq_true]
      exact ⟨[], (mem_tails _ _).mpr nil_suffix, rfl⟩
    rw [nil_append, nil_append, Store.like.eq_4 _ _ _ (by decide) (by decide)]
    simp [all]
  | cons c key ih =>
    rw [cons_append, cons_append]
    by_cases percent : c = '%'
    · rw [percent, Store.like, any_eq_true]
      exact ⟨_, (mem_tails _ _).mpr (suffix_cons _ _), ih⟩
    by_cases low : c = '_'
    · rw [low, Store.like]
      simpa using ih
    · rw [Store.like.eq_4 _ _ _ (fun same => percent same) (fun same => low same)]
      simpa using ih

variable {r : Delivery} {route : String} {E : PairEnv}

theorem mem_deliveriesForFedAck {s : Store} {n : Nat} {peer : String}
    (found : s.row n = some r) (remote : r.destination.protocol = fedProtocol)
    (target : fedTarget r.destination.endpoint = some (peer, route)) :
    r ∈ s.deliveriesForFedAck r.messageId peer := by
  obtain ⟨pair, split, same⟩ := Option.map_eq_some_iff.mp target
  obtain ⟨left, right⟩ := pair
  have whole := (splitOnce_eq_some split).1
  have first : String.ofList left = peer := (Prod.ext_iff.mp same).1
  have named : peer.toList = left := by rw [← first, String.toList_ofList]
  have matching := like_own left right
  rw [← whole, ← named] at matching
  refine mem_filter.mpr ⟨Table.mem_of_get? _ found, ?_⟩
  simp only [Bool.and_eq_true, beq_iff_eq, String.toList_append]
  exact ⟨⟨trivial, remote⟩, matching⟩

theorem ack_delivers {io : Faults} {sender : Daemon} {n : Nat}
    (found : sender.store.row n = some r) (sent : r.state = .attempting)
    (remote : r.destination.protocol = fedProtocol)
    (target : fedTarget r.destination.endpoint = some (E.peer, route)) :
    ∃ r', ((handleFrame E.sends io E.receives.nodeId E.peer (.ack r.messageId.toText)).run
      sender).2.store.row n = some r' ∧ r'.state = .delivered := by
  have listed := mem_deliveriesForFedAck found remote target
  have handled : ((handleFrame E.sends io E.receives.nodeId E.peer
      (.ack r.messageId.toText)).run sender).2.store =
        ackStore sender.store sender.clock.utc E.peer r.messageId := by
    unfold handleFrame handleFedAck
    dsimp only
    rw [Uuid.parseStr_toText]
    rfl
  rw [handled, row_ackStore, found, Option.map_some, if_pos ⟨listed, sent⟩]
  exact ⟨_, rfl, rfl⟩

theorem verdict_accepted (faithful : E.SealFaithful) {io : Faults} {receiver : Daemon}
    {tx : Nat} {frame : Fed} {m : Uuid} (built : E.good r tx frame)
    (accepted : ingressVerdict E.receives io E.nodeId frame receiver = some (.accepted m, route)) :
    m = r.messageId ∧ receiver.remembers r.messageId = false ∧
      ((handleFrame E.receives io E.nodeId E.key frame).run receiver).2.remembers r.messageId =
      true := by
  have remembered {d : Daemon} (stored : (d.store.getMessage m).isSome = true) :
      d.remembers m = true := by
    unfold Daemon.remembers
    rw [stored, Bool.or_true]
  cases built with
  | plain route' env remote target id =>
    have outcome := (Prod.mk.inj (Option.some.inj accepted)).1
    have given := fedIngress_accepted outcome
    have same : m = r.messageId := given.same.trans id
    refine ⟨same, id ▸ given.unseen, ?_⟩
    rw [← same]
    unfold handleFrame
    rw [Prog.run_bind]
    exact remembered given.stored
  | sealed route' env seed expires key remote target id =>
    have outcome := (Prod.mk.inj (Option.some.inj accepted)).1
    obtain ⟨env', opened, given⟩ := fedSealedIngress_accepted outcome
    have inner : env'.id = r.messageId := (faithful _ _ _ _ _ _ opened).trans id
    have same : m = r.messageId := given.same.trans inner
    refine ⟨same, inner ▸ given.unseen, ?_⟩
    rw [← same]
    unfold handleFrame
    rw [Prog.run_bind]
    exact remembered given.stored

theorem reply_of_good (io : Faults) (receiver : Daemon) {tx : Nat}
    {frame : Fed} (built : E.good r tx frame) :
    ((handleFrame E.receives io E.nodeId E.key frame).run receiver).1 = none ∨
      ∃ m route, ingressVerdict E.receives io E.nodeId frame receiver = some (.accepted m, route) ∧
        ((handleFrame E.receives io E.nodeId E.key frame).run receiver).1 =
        some (.ack m.toText) := by
  have acked := handleFrame_reply E.receives io E.nodeId E.key frame receiver
  cases reply : ((handleFrame E.receives io E.nodeId E.key frame).run receiver).1 with
  | none => exact .inl rfl
  | some frame' =>
    right
    have text : ∃ t, frame' = .ack t := by
      cases built <;>
      · unfold handleFrame at reply
        rw [Prog.run_bind, Prog.run_pure] at reply
        dsimp only at reply
        split at reply
        · exact ⟨_, (Option.some.inj reply).symm⟩
        · exact absurd reply (by simp)
    obtain ⟨t, rfl⟩ := text
    obtain ⟨m, route, verdict, rfl⟩ := (acked t).mp reply
    exact ⟨m, route, verdict, rfl⟩

/-- A complete exchange about a row in flight: the row becomes delivered exactly if the receiver's
ingress accepts the retransmission anew; while the message is remembered there is no reply, and the
sender stays as it was. -/
theorem exchange_outcome (E : PairEnv) (faithful : E.SealFaithful) (io : Faults)
    (receiver sender : Daemon) (n : Nat) (r : Delivery) (tx : Nat) (frame : Fed)
    (found : sender.store.row n = some r) (sent : r.state = .attempting)
    (built : E.good r tx frame) (mine : E.owner tx = E.peer) :
    ((∃ r', (exchange E io frame receiver sender).2.store.row n = some r' ∧ r'.state = .delivered) ↔
      ∃ route, ingressVerdict E.receives io E.nodeId frame receiver =
        some (.accepted r.messageId, route)) ∧
    ((∃ route, ingressVerdict E.receives io E.nodeId frame receiver =
        some (.accepted r.messageId, route)) →
      (exchange E io frame receiver sender).1.remembers r.messageId = true) ∧
    (receiver.remembers r.messageId = true → (exchange E io frame receiver sender).2 = sender) := by
  have target : ∃ route, r.destination.protocol = fedProtocol ∧
      fedTarget r.destination.endpoint = some (E.peer, route) := by
    rw [← mine]
    cases built with
    | plain route env remote target id | sealed route env seed expires key remote target id =>
      exact ⟨route, remote, target⟩
  obtain ⟨_, remote, target⟩ := target
  rcases reply_of_good io receiver built with silent | ⟨m, route, verdict, acked⟩
  · have same : (exchange E io frame receiver sender).2 = sender := by
      unfold exchange
      dsimp only
      rw [silent]
      rfl
    have refused : ¬∃ route, ingressVerdict E.receives io E.nodeId frame receiver =
        some (.accepted r.messageId, route) := by
      rintro ⟨route, verdict⟩
      have reply := (handleFrame_reply E.receives io E.nodeId E.key ..).mpr
        ⟨_, route, verdict, rfl⟩
      rw [silent] at reply
      exact absurd reply (by simp)
    refine ⟨⟨?_, fun accepted => absurd accepted refused⟩, fun accepted => absurd accepted refused,
      fun _ => same⟩
    rintro ⟨r', after, delivered⟩
    rw [same, found] at after
    cases after
    exact absurd (sent.symm.trans delivered) (by simp)
  · obtain ⟨rfl, forgotten, remembered⟩ := verdict_accepted faithful built verdict
    have handled : (exchange E io frame receiver sender).2 =
        ((handleFrame E.sends io E.receives.nodeId E.peer (.ack r.messageId.toText)).run
          sender).2 := by
      unfold exchange
      dsimp only
      rw [acked]
      rfl
    refine ⟨⟨fun _ => ⟨route, verdict⟩, fun _ => ?_⟩, fun _ => ?_, fun known => ?_⟩
    · rw [handled]
      exact ack_delivers found sent remote target
    · exact remembered
    · rw [forgotten] at known
      exact absurd known (by simp)

def Fed.plainFor : Fed → Option (Uuid × String)
  | .envelope env route => some (env.id, route)
  | .sealed _ _ | .ack _ | .ping | .pong | .unknown => none

def resendMoves : List PairMove :=
  [PairMove.around (Daemon.later (seconds 61)), PairMove.remote (Daemon.later (seconds 61)),
      PairMove.connect 0] ++
    List.replicate 17 (PairMove.inner .pump) ++ [PairMove.transmit 0]

def lossMoves : List PairMove :=
  PairMove.connect 0 :: List.replicate 17 (PairMove.inner .pump) ++
    [PairMove.transmit 0, PairMove.deliver 0 .none, PairMove.drop 0 0 0] ++ resendMoves

def exhaustMoves : List PairMove :=
  (List.replicate 6 (resendMoves ++ [PairMove.deliver 0 .none])).flatten ++
    PairMove.around (Daemon.later (seconds 61)) :: List.replicate 7 (.inner .pump)

theorem exchange_outcome_remembered :
    ∃ π r frame, Pair.run .small lossMoves (.small (.forHub ["in"])) = some π ∧
      π.sender.d.store.row 1 = some r ∧ r.state = .attempting ∧ π.wire 0 = [frame] ∧
      (r.messageId, "in") ∈ π.accepted ∧
      (exchange .small .none frame π.receiver π.sender.d).2 = π.sender.d := by
  obtain ⟨π, reached, accepted, remembered, r, found, sent, message, destination, frame, first, one,
      plain⟩ :
      ∃ π, Pair.run .small lossMoves (.small (.forHub ["in"])) = some π ∧ (⟨1⟩, "in") ∈ π.accepted ∧
        π.receiver.remembers ⟨1⟩ = true ∧
        ∃ r, π.sender.d.store.row 1 = some r ∧ r.state = .attempting ∧ r.messageId = ⟨1⟩ ∧
          r.destination = ⟨"fed", "hub/in"⟩ ∧
          ∃ frame, (π.wire 0).head? = some frame ∧ (π.wire 0).length = 1 ∧
            frame.plainFor = some (⟨1⟩, "in") := by
    decide +kernel
  have wire : π.wire 0 = [frame] := by
    obtain ⟨frame', only⟩ := length_eq_one_iff.mp one
    rw [only] at first ⊢
    rw [Option.some.inj first]
  have built : PairEnv.small.good r 0 frame := by
    cases frame with
    | envelope env route =>
      obtain ⟨id, rfl⟩ := Prod.mk.inj (Option.some.inj plain)
      refine .plain "in" env ?_ ?_ ?_
      · rw [destination]
        rfl
      · rw [destination]
        decide +kernel
      · rw [id, message]
    | sealed | ack | ping | pong | unknown => exact absurd plain (by simp [Fed.plainFor])
  refine ⟨π, r, frame, reached, found, sent, wire, ?_, ?_⟩
  · rw [message]
    exact accepted
  · rw [← message] at remembered
    exact (exchange_outcome .small PairEnv.small_faithful .none π.receiver π.sender.d 1 r 0
      frame found sent built rfl).2.2 remembered

/-- The hub has accepted the message, a retransmission has no reply to lose, and after six more
exchanges like it the row ends as given up. -/
theorem lost_ack_exhausts :
    ∃ π π₁ π₂ r₂, Pair.run .small lossMoves (.small (.forHub ["in"])) = some π ∧
      (⟨1⟩, "in") ∈ π.accepted ∧
      (π.sender.d.store.row 1).map (fun r => (r.messageId, r.destination, r.state)) =
        some (⟨1⟩, ⟨"fed", "hub/in"⟩, .attempting) ∧
      (π.wire 0).map Fed.plainFor = [some (⟨1⟩, "in")] ∧
      Pair.step .small (.deliver 0 .none) π = some π₁ ∧ (π₁.wire 0).length = 0 ∧
      (π₁.back 0).length = 0 ∧ (π₁.sender.d.store.row 1).map Delivery.state = some .attempting ∧
      Pair.run .small exhaustMoves π₁ = some π₂ ∧ π₂.sender.d.store.row 1 = some r₂ ∧
      r₂.state = .deadLetter ∧ r₂.reason = some .retryExhausted := by
  simp only [exists_and_left]
  decide +kernel

end RelayFabric
