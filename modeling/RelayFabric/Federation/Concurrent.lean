/- source: engine.rs (fed_ingress, fed_sealed_ingress, persist_and_fan_out)
   digest: Federated ingress calls, interleaved at their locks. -/

import RelayFabric.Federation.Verdict
import RelayFabric.Lib.Pool
import RelayFabric.Lib.Run

namespace RelayFabric

open List Lib
open Prog hiding bind run

/-- Where a call stands: before its existence check has come up empty, past it, past the persist
that stored its message, or refused. -/
inductive Stage
  | before
  | checked (m : Uuid)
  | wrote (m : Uuid)
  | finished
  deriving DecidableEq, Repr

def Stage.claims (m : Uuid) (q : Stage) : Prop := q = .checked m ∨ q = .wrote m

def Section.window : Section → Option Uuid
  | .sealedRead m | .quota m | .record m | .stamp m | .caps m | .persist m => some m
  | _ => none

inductive StageStep : Stage → Section → Daemon → Daemon → Stage → Prop
  | early (l : Section) (d d' : Daemon) (store : d'.store = d.store) :
      StageStep .before l d d' .before
  | clear (m : Uuid) (d : Daemon) (absent : d.store.messages.contains m = false) :
      StageStep .before (.existing m) d d (.checked m)
  | refuse (d : Daemon) (now : Int) (env : Envelope) (targetRoute peerNodeId : String)
      (reason : Reason) (other : reason ≠ .queueFull) :
      StageStep .before (.reject env.id) d
        { d with
          store := recordRejection d.store d.clock.utc now env targetRoute peerNodeId reason }
        .finished
  | late (m : Uuid) (l : Section) (d d' : Daemon) (q : Stage) (store : d'.store = d.store)
      (inside : l.window = some m) (stays : q = .checked m ∨ q = .finished) :
      StageStep (.checked m) l d d' q
  | persist (io : Faults) (d : Daemon) (now : Int) (env : Envelope) (targetRoute : String)
      (destinations : List Endpoint) (routeMax globalMax : Nat) (works : io.insertMessage = false) :
      StageStep (.checked env.id) (.persist env.id) d
        { d with store := (persistStore io d.store d.clock.utc now env targetRoute destinations
                   routeMax globalMax).2 } (.wrote env.id)

def Stage.returns (q : Stage) : FedIngressOutcome → Prop
  | .accepted id => q = .wrote id
  | .rejected _ => ∀ m, q ≠ .checked m

abbrev Stages {α : Type} (final : Stage → α → Prop) (q : Stage) (p : Engine α) : Prop :=
  Follows (fun _ => True) StageStep final q p

section Programs

variable {α β : Type} {final : Stage → α → Prop}

private theorem early_bind {l : Section} {read : Daemon → β} {rest : β → Engine α}
    (follows : ∀ b, Stages final .before (rest b)) :
    Stages final .before (.observe l read >>= rest : Engine α) :=
  follows_observe_bind (fun d _ => ⟨.before, .early l d d rfl, follows _⟩)

private theorem late_bind {m : Uuid} {l : Section} {read : Daemon → β} {rest : β → Engine α}
    (inside : l.window = some m) (follows : ∀ b, Stages final (.checked m) (rest b)) :
    Stages final (.checked m) (.observe l read >>= rest : Engine α) :=
  follows_observe_bind
    (fun d _ => ⟨.checked m, .late m l d d _ rfl inside (.inl rfl), follows _⟩)

private theorem last_bind {m : Uuid} {l : Section} {read : Daemon → β} {rest : β → Engine α}
    (inside : l.window = some m)
    (follows : ∀ b, Stages final (.checked m) (rest b) ∨ Stages final .finished (rest b)) :
    Stages final (.checked m) (.observe l read >>= rest : Engine α) := by
  refine follows_observe_bind (fun d _ => ?_)
  rcases follows (read d) with stays | refused
  · exact ⟨.checked m, .late m l d d _ rfl inside (.inl rfl), stays⟩
  · exact ⟨.finished, .late m l d d _ rfl inside (.inr rfl), refused⟩

private theorem refused (q : Stage) (reason : Reason) (outside : ∀ m, q ≠ .checked m) :
    Stages Stage.returns q (pure (.rejected reason)) :=
  follows_pure outside

theorem isSeen_stages (m : Uuid) :
    Stages (fun q seen => if seen = true then q = .before else q = .checked m) .before
      (isSeen m) := by
  refine follows_critical_bind (fun d _ => ⟨.before, .early _ _ _ rfl, ?_⟩)
  refine follows_ite (fun _ => follows_pure rfl) (fun _ => ?_)
  refine follows_critical (fun d _ => ?_)
  cases found : (d.store.getMessage m).isSome with
  | true => exact ⟨.before, .early _ d d rfl, by simp [found]⟩
  | false => exact ⟨.checked m, .clear m d found, by simp [found]⟩

theorem rejectRecorded_stages (env : Envelope) (targetRoute peerNodeId : String) (reason : Reason)
    (other : reason ≠ .queueFull) :
    Stages Stage.returns .before (rejectRecorded env targetRoute peerNodeId reason) := by
  refine early_bind (fun now => follows_modify_bind (fun d _ => ?_))
  exact ⟨.finished, .refuse d now env targetRoute peerNodeId reason other, refused _ _ (by simp)⟩

theorem persistAndFanOut_stages (io : Faults) (env : Envelope) (targetRoute : String)
    (routeCfg : RouteConfig) :
    Stages Stage.returns (.checked env.id) (persistAndFanOut io env targetRoute routeCfg) := by
  refine late_bind rfl (fun now => late_bind rfl (fun limits => follows_critical (fun d _ => ?_)))
  cases works : io.insertMessage with
  | true =>
    have failed : persistStore io d.store d.clock.utc now env targetRoute routeCfg.destinations
        limits.routeQueueMax limits.globalQueueMax = (.rejected .storageError, d.store) :=
        if_pos works
    refine ⟨.finished, .late env.id _ d _ _ ?_ rfl (.inr rfl), ?_⟩
    · dsimp only
      rw [failed]
    · dsimp only
      rw [failed]
      exact fun m => by simp
  | false =>
    have accepted : (persistStore io d.store d.clock.utc now env targetRoute routeCfg.destinations
        limits.routeQueueMax limits.globalQueueMax).1 = .accepted env.id := by
      unfold persistStore
      rw [if_neg (by simp [works])]
    refine ⟨.wrote env.id, .persist io d now env targetRoute _ _ _ works, ?_⟩
    rw [accepted]
    rfl

theorem acceptFederated_stages (io : Faults) (senderKey : String) (keys : List String)
    (env : Envelope) (targetRoute : String) (routeCfg : RouteConfig) :
    Stages Stage.returns (.checked env.id)
      (acceptFederated io senderKey keys env targetRoute routeCfg) := by
  refine follows_critical_bind (fun d _ => ?_)
  cases (d.senderLimiter.allow senderKey (chargedBytes env) d.clock.instant).1 with
  | false => exact ⟨.finished, .late env.id _ d _ _ rfl rfl (.inr rfl), refused _ _ (by simp)⟩
  | true =>
    refine ⟨.checked env.id, .late env.id _ d _ _ rfl rfl (.inl rfl), ?_⟩
    refine follows_modify_bind (fun d' _ => ?_)
    refine ⟨.checked env.id, .late env.id _ d' _ _ rfl rfl (.inl rfl), ?_⟩
    exact late_bind rfl (fun receivedAt =>
      persistAndFanOut_stages io { env with receivedAt := receivedAt } targetRoute routeCfg)

theorem fedIngress_stages (K : Crypto) (io : Faults) (peerNodeId : String) (env : Envelope)
    (targetRoute : String) :
    Stages Stage.returns .before (fedIngress K io peerNodeId env targetRoute) := by
  have dropped (reason : Reason) : Stages Stage.returns .before (pure (.rejected reason)) :=
    refused _ _ (by simp)
  refine early_bind (fun federation => ?_)
  rcases federation with _ | fed
  · exact rejectRecorded_stages _ _ _ _ (by decide)
  refine early_bind (fun denied => follows_ite (fun _ => dropped _) (fun _ => ?_))
  split
  · exact dropped _
  refine follows_ite (fun _ => dropped _) (fun _ => early_bind (fun now => ?_))
  split
  · exact rejectRecorded_stages _ _ _ _ (by decide)
  refine follows_ite (fun _ => rejectRecorded_stages _ _ _ _ (by decide)) (fun _ => ?_)
  refine follows_ite (fun _ => rejectRecorded_stages _ _ _ _ (by decide)) (fun _ => ?_)
  refine early_bind (fun found => ?_)
  rcases found with _ | routeCfg
  · exact rejectRecorded_stages _ _ _ _ (by decide)
  refine follows_bind (isSeen_stages _) (fun q seen stage => ?_)
  cases seen with
  | true =>
    obtain rfl : q = .before := stage
    exact dropped _
  | false =>
    obtain rfl : q = .checked _ := stage
    exact acceptFederated_stages ..

theorem fedSealedIngress_stages (K : Crypto) (io : Faults) (peerNodeId : String)
    (sealed : SealedEnvelope) (targetRoute : String) :
    Stages Stage.returns .before (fedSealedIngress K io peerNodeId sealed targetRoute) := by
  have dropped (reason : Reason) : Stages Stage.returns .before (pure (.rejected reason)) :=
    refused _ _ (by simp)
  have ended (reason : Reason) : Stages Stage.returns .finished (pure (.rejected reason)) :=
    refused _ _ (by simp)
  refine follows_ite (fun _ => dropped _) (fun _ => early_bind (fun now => ?_))
  refine follows_ite (fun _ => dropped _) (fun _ => ?_)
  refine follows_critical_bind (fun d _ => ⟨.before, .early _ _ _ rfl, ?_⟩)
  refine follows_ite (fun _ => dropped _) (fun _ => early_bind (fun federation => ?_))
  rcases federation with _ | fed
  · exact dropped _
  refine early_bind (fun denied => follows_ite (fun _ => dropped _) (fun _ => ?_))
  split
  · exact dropped _
  split
  · exact dropped _
  refine follows_ite (fun _ => dropped _) (fun _ => ?_)
  refine follows_bind (isSeen_stages _) (fun q seen stage => ?_)
  cases seen with
  | true =>
    obtain rfl : q = .before := stage
    exact dropped _
  | false =>
    obtain rfl : q = .checked _ := stage
    refine last_bind rfl (fun later => ?_)
    split
    · exact .inr (ended _)
    rename_i env' clamped bound
    rw [← (inWindow_of_bound bound).id]
    by_cases listed : targetRoute ∉ fed.ingressRoutes
    · right
      rw [if_pos listed]
      exact ended _
    left
    rw [if_neg listed]
    refine last_bind rfl (fun found => ?_)
    rcases found with _ | routeCfg
    · exact .inr (ended _)
    left
    refine last_bind rfl (fun allowed => ?_)
    cases allowed with
    | true => exact .inl (acceptFederated_stages ..)
    | false => exact .inr (ended _)

end Programs

def newRows (s s' : Store) : List Delivery :=
  s'.deliveries.rows.filter (fun r => decide (s.deliveries.next ≤ r.id) &&
    (r.state == .pending || r.reason == some .queueFull))

/-- A daemon and the federated calls that run on it. The last field is a history variable: which
call added rows of a fan-out, and for which message. -/
structure Pool where
  d : Daemon
  calls : List (Engine FedIngressOutcome)
  fanned : List (Nat × Uuid)

inductive PoolMove
  | spawn (io : Faults) (peerNodeId : String) (p : Presentation) (targetRoute : String)
  | call (i : Nat)
  | around (change : Daemon → Daemon)

namespace Pool

def step (K : Crypto) : PoolMove → Pool → Option Pool
  | .spawn io peerNodeId p targetRoute, σ =>
    some { σ with calls := σ.calls ++ [present K io peerNodeId p targetRoute] }
  | .call i, σ =>
    match σ.calls[i]? with
    | some (.act _ effect next) =>
      some { d := effect σ.d
             calls := σ.calls.set i (next σ.d)
             fanned := σ.fanned ++
               (newRows σ.d.store (effect σ.d).store).map (fun r => (i, r.messageId)) }
    | _ => none
  | .around change, σ =>
    let d' := change σ.d
    some { σ with d := { d' with store := { d'.store with messages := σ.d.store.messages } } }

abbrev run (K : Crypto) : List PoolMove → Pool → Option Pool := runAll (step K)

def result (σ : Pool) (i : Nat) : Option FedIngressOutcome := σ.calls[i]?.bind Prog.result?

def label (σ : Pool) (i : Nat) : Option Section := σ.calls[i]?.bind Prog.label?

def windowTaken (σ : Pool) (i : Nat) (m : Uuid) : Bool :=
  (List.range σ.calls.length).any
    (fun j => decide (j ≠ i) && ((σ.label j).bind Section.window == some m))

/-- No call makes its existence check while another call with the same message is in the window. -/
def excludes (σ : Pool) : PoolMove → Bool
  | .call i => match σ.label i with
      | some (.existing m) => !σ.windowTaken i m
      | _ => true
  | .spawn .. | .around _ => true

end Pool

structure Pool.Inv (stage : Nat → Stage) (σ : Pool) : Prop where
  stages : Staged (fun (_ : Unit) => StageStep) Stage.returns .before stage
    (σ.calls.map (Prod.mk ()))
  stored : ∀ i m, stage i = .wrote m → σ.d.store.messages.contains m = true
  alone : ∀ i j m, (stage i).claims m → (stage j).claims m → i = j
  fanned : ∀ i m, (i, m) ∈ σ.fanned → stage i = .wrote m

theorem mem_newRows {P : Delivery → Prop} {s s' : Store} (grows : s.Grows P s') {r : Delivery}
    (member : r ∈ newRows s s') : P r ∧ (r.state = .pending ∨ r.reason = some .queueFull) := by
  obtain ⟨stored, passes⟩ := mem_filter.mp member
  simp only [Bool.and_eq_true, Bool.or_eq_true, decide_eq_true_eq, beq_iff_eq] at passes
  have found : s'.row r.id = some r := s'.deliveries.get?_key stored
  refine ⟨?_, passes.2⟩
  rcases grows.rows r.id with same | ⟨_, r', found', holds⟩
  · rw [Store.row_of_next_le passes.1, found] at same
    cases same
  · rw [found] at found'
    cases found'
    exact holds

namespace StageStep

variable {q q' : Stage} {l : Section} {d d' : Daemon}

theorem moves (step : StageStep q l d d' q') : q = .before ∨ ∃ m, q = .checked m := by
  cases step with
  | early | clear | refuse => exact .inl rfl
  | late m => exact .inr ⟨m, rfl⟩
  | persist io d now env => exact .inr ⟨env.id, rfl⟩

theorem window {m : Uuid} (step : StageStep (.checked m) l d d' q') : l.window = some m := by
  generalize start : Stage.checked m = q at step
  cases step with
  | early | clear | refuse => cases start
  | late m' l d d' q store inside =>
    obtain rfl := Stage.checked.inj start
    exact inside
  | persist io d now env =>
    obtain rfl := Stage.checked.inj start
    rfl

section

variable (step : StageStep q l d d' q')
include step

theorem messages {m : Uuid}
    (stored : d.store.messages.contains m = true) : d'.store.messages.contains m = true := by
  cases step with
  | early l d d' store | late m l d d' q store =>
    rw [store]
    exact stored
  | clear => exact stored
  | refuse d now env =>
    change (d.store.messages.insertOrIgnore env.id env).contains m = true
    rw [Map.contains_insertOrIgnore, stored, Bool.or_true]
  | persist io d now env targetRoute destinations routeMax globalMax works =>
    rw [messages_persistStore, if_neg (by simp [works]), Map.contains_insertOrIgnore, stored,
      Bool.or_true]

theorem wrote {m : Uuid} (done : q' = .wrote m) :
    d'.store.messages.contains m = true := by
  cases step with
  | early | clear | refuse => cases done
  | late m' l d d' q store inside stays =>
    subst done
    rcases stays with same | same <;> cases same
  | persist io d now env targetRoute destinations routeMax globalMax works =>
    obtain rfl := Stage.wrote.inj done
    rw [messages_persistStore, if_neg (by simp [works]), Map.contains_insertOrIgnore]
    simp

theorem claims {m : Uuid} (inside : q'.claims m) :
    q.claims m ∨ (l = .existing m ∧ d.store.messages.contains m = false) := by
  cases step with
  | early | refuse => rcases inside with same | same <;> cases same
  | clear m' d absent =>
    rcases inside with same | same
    · obtain rfl := Stage.checked.inj same
      exact .inr ⟨rfl, absent⟩
    · cases same
  | late m' l d d' q store window stays =>
    rcases stays with rfl | rfl
    · exact .inl inside
    · rcases inside with same | same <;> cases same
  | persist io d now env =>
    rcases inside with same | same
    · cases same
    · obtain rfl := Stage.wrote.inj same
      exact .inl (.inl rfl)

theorem newRows {r : Delivery}
    (member : r ∈ RelayFabric.newRows d.store d'.store) : q' = .wrote r.messageId := by
  have none {s s' : Store} (same : s' = s) (member : r ∈ RelayFabric.newRows s s') : False := by
    subst same
    exact (mem_newRows (Store.Grows.refl (fun _ => False) _) member).1
  cases step with
  | early l d d' store | late m l d d' q store => exact (none store member).elim
  | clear => exact (none rfl member).elim
  | refuse d now env targetRoute peerNodeId reason other =>
    obtain ⟨⟨_, _, dead, because, _⟩, either⟩ :=
      mem_newRows (recordRejection_grows ..) member
    rcases either with pending | full
    · exact absurd (dead.symm.trans pending) (by simp)
    · exact absurd (Option.some.inj (because.symm.trans full)) other
  | persist io d now env targetRoute destinations routeMax globalMax works =>
    have fanned := (mem_newRows (persistStore_grows ..) member).1
    rw [fanned.message]

end

end StageStep

theorem label_of_checked {m : Uuid} {p : Engine FedIngressOutcome} (d : Daemon)
    (follows : Stages Stage.returns (.checked m) p) : ∃ l, p.label? = some l ∧
      l.window = some m := by
  cases p with
  | ret outcome =>
    have returned : Stage.returns (.checked m) outcome := follows_ret follows
    cases outcome with
    | accepted id => cases returned
    | rejected reason => exact absurd rfl (returned m)
  | act l effect next =>
    obtain ⟨q', step, _⟩ := follows_act follows (s := d) trivial
    exact ⟨l, rfl, step.window⟩

theorem present_stages (K : Crypto) (io : Faults) (peerNodeId : String) (p : Presentation)
    (targetRoute : String) :
    Stages Stage.returns .before (present K io peerNodeId p targetRoute) := by
  cases p with
  | plain env => exact fedIngress_stages ..
  | sealed frame => exact fedSealedIngress_stages ..

namespace Pool

variable {K : Crypto} {stage : Nat → Stage} {σ σ' : Pool}

section

variable (inv : σ.Inv stage)
include inv

theorem Inv.spawn {p : Engine FedIngressOutcome}
    (starts : Stages Stage.returns .before p) : Inv stage { σ with calls := σ.calls ++ [p] } := by
  refine { inv with stages := ?_ }
  rw [map_append]
  exact inv.stages.spawn starts

theorem Inv.follows {i : Nat} {p : Engine FedIngressOutcome} (found : σ.calls[i]? = some p) :
    Stages Stage.returns (stage i) p :=
  inv.stages.follows i () p (by rw [List.getElem?_map, found]; rfl)

theorem Inv.windowTaken {i k : Nat} {m : Uuid} (other : k ≠ i)
    (checked : stage k = .checked m) : σ.windowTaken i m = true := by
  cases found : σ.calls[k]? with
  | none =>
    have beyond : (σ.calls.map (Prod.mk ())).length ≤ k := by
      rw [length_map]
      exact List.getElem?_eq_none_iff.mp found
    rw [inv.stages.beyond k beyond] at checked
    cases checked
  | some p =>
    have follows := inv.follows found
    rw [checked] at follows
    obtain ⟨l, label, window⟩ := label_of_checked σ.d follows
    have inside : σ.label k = some l := by
      unfold Pool.label
      rw [found]
      exact label
    unfold Pool.windowTaken
    rw [any_eq_true]
    refine ⟨k, mem_range.mpr (List.getElem?_eq_some_iff.mp found).1, ?_⟩
    rw [inside]
    simp [other, window]

theorem Inv.entering {i k : Nat} {m : Uuid}
    (label : σ.label i = some (.existing m)) (absent : σ.d.store.messages.contains m = false)
    (excludes : σ.excludes (.call i) = true) (other : k ≠ i) : ¬(stage k).claims m := by
  rintro (checked | wrote)
  · have free : (match σ.label i with
        | some (.existing m) => !σ.windowTaken i m
        | _ => true) = true := excludes
    rw [label] at free
    simp [inv.windowTaken other checked] at free
  · rw [inv.stored k m wrote] at absent
    cases absent

theorem Inv.call {i : Nat} {l : Section} {effect : Daemon → Daemon}
    {next : Daemon → Engine FedIngressOutcome}
    (running : σ.calls[i]? = some (.act l effect next)) (excludes : σ.excludes (.call i) = true) :
    ∃ stage', Inv stage'
      { d := effect σ.d
        calls := σ.calls.set i (next σ.d)
        fanned := σ.fanned ++
          (newRows σ.d.store (effect σ.d).store).map (fun r => (i, r.messageId)) } := by
  have listed : (σ.calls.map (Prod.mk ()))[i]? = some ((), .act l effect next) := by
    rw [List.getElem?_map, running]
    rfl
  obtain ⟨q', step, later⟩ := inv.stages.act listed σ.d
  have here : Function.update stage i q' i = q' := Function.update_self ..
  have there {j : Nat} (other : j ≠ i) : Function.update stage i q' j = stage j :=
    Function.update_of_ne other ..
  have label : σ.label i = some l := by
    unfold Pool.label
    rw [running]
    rfl
  have single {k : Nat} {m : Uuid} (other : k ≠ i) (first : q'.claims m)
      (second : (stage k).claims m) : i = k := by
    rcases step.claims first with before | ⟨rfl, absent⟩
    · exact inv.alone i k m before second
    · exact absurd second (inv.entering label absent excludes other)
  refine ⟨Function.update stage i q', ?_, ?_, ?_, ?_⟩
  · rw [map_set]
    exact later
  · intro j m wrote
    by_cases same : j = i
    · subst same
      rw [here] at wrote
      exact step.wrote wrote
    · rw [there same] at wrote
      exact step.messages (inv.stored j m wrote)
  · intro j k m first second
    by_cases jHere : j = i <;> by_cases kHere : k = i
    · rw [jHere, kHere]
    · rw [jHere, here] at first
      rw [there kHere] at second
      rw [jHere]
      exact single kHere first second
    · rw [there jHere] at first
      rw [kHere, here] at second
      rw [kHere]
      exact (single jHere second first).symm
    · rw [there jHere] at first
      rw [there kHere] at second
      exact inv.alone j k m first second
  · intro j m member
    rcases mem_append.mp member with old | new
    · have wrote := inv.fanned j m old
      have other : j ≠ i := by
        intro same
        rw [same] at wrote
        rcases step.moves with before | ⟨m', checked⟩
        · rw [before] at wrote
          cases wrote
        · rw [checked] at wrote
          cases wrote
      rw [there other]
      exact wrote
    · obtain ⟨r, added, same⟩ := mem_map.mp new
      cases same
      rw [here]
      exact step.newRows added

end

theorem Inv.step {a : PoolMove} (step : Pool.step K a σ = some σ') (excludes : σ.excludes a = true)
    (inv : σ.Inv stage) : ∃ stage', σ'.Inv stage' := by
  cases a with
  | spawn io peerNodeId p targetRoute =>
    cases step
    exact ⟨stage, inv.spawn (present_stages ..)⟩
  | call i =>
    simp only [Pool.step] at step
    split at step
    · rename_i l effect next running
      cases step
      exact inv.call running excludes
    · cases step
  | around change =>
    cases step
    exact ⟨stage, { inv with }⟩

end Pool

end RelayFabric
