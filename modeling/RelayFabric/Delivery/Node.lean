/- source: engine.rs (pump, supervise, Daemon::new)
   digest: One daemon with its pump and concurrent calls, and the life of a delivery row. -/

import RelayFabric.Delivery.Attempt
import RelayFabric.Lib.Run

namespace RelayFabric

open List Lib Option
open Prog hiding bind run

inductive Call
  | inbound (io : Faults) (ids : Draws) (plugin endpoint sender kind body : String)
      (createdAt : Option Int) (attachments : List IpcAttachment) (priority : Option String)
  | envelope (io : Faults) (peer : String) (env : Envelope) (targetRoute : String)
  | sealed (io : Faults) (peer : String) (sealed : SealedEnvelope) (targetRoute : String)
  | result (plugin : String) (corr : Nat) (delivered : Bool)
  | ack (peerKey id : String)
  | requeue (row : Nat)
  | purgeDead

def Call.prog (K : Crypto) : Call → Engine Unit
  | .inbound io ids plugin endpoint sender kind body createdAt attachments priority =>
    handleInbound K io ids plugin endpoint sender kind body createdAt attachments priority
  | .envelope io peer env targetRoute => do
    let _ ← fedIngress K io peer env targetRoute
    pure ()
  | .sealed io peer frame targetRoute => do
    let _ ← fedSealedIngress K io peer frame targetRoute
    pure ()
  | .result plugin corr delivered => do
    let _ ← handleResult plugin corr delivered
    pure ()
  | .ack peerKey id => handleFedAck peerKey id
  | .requeue row => requeueRow row
  | .purgeDead => purgeDeadLetters

def beginRound : Engine (Int × List Delivery) := do
  let now ← utcNow
  let due ← takeBatch now
  pure (now, due)

/-- Where the pump stands. In a round it holds the copies it has yet to process, and the rest
of the program for the copy it is at. -/
inductive Pump
  | idle
  | starting (p : Engine (Int × List Delivery))
  | round (now : Int) (current : Option (Delivery × Engine Unit)) (batch : List Delivery)
  | purging (p : Engine Unit)

/-- A daemon with its tasks. The last field is a history variable: what `placed` was for a row
at its insertion or last requeue. -/
structure Node where
  d : Daemon
  pump : Pump
  calls : List (Engine Unit)
  base : Nat → Nat

inductive Move
  | pump
  | purge
  | spawn (c : Call)
  | call (i : Nat)
  | outside (change : Daemon → Daemon)
  | restart

def Daemon.restarted (d : Daemon) : Daemon := .new d.cfg d.store d.cas d.clock d.entropy d.placed

def rebase (l : Section) (d : Daemon) (base : Nat → Nat) (n : Nat) : Nat :=
  match d.store.row n with
  | none => d.placed n
  | some r => if l = .requeue n ∧ r.state.requeueable = true then d.placed n else base n

def Node.pumpStep (K : Crypto) (σ : Node) : Node :=
  match σ.pump with
  | .idle => { σ with pump := .starting beginRound }
  | .starting (.act _ effect next) => { σ with d := effect σ.d, pump := .starting (next σ.d) }
  | .starting (.ret (now, due)) => { σ with pump := .round now none due }
  | .round now (some (del, .act _ effect next)) batch =>
    { σ with d := effect σ.d, pump := .round now (some (del, next σ.d)) batch }
  | .round now (some (_, .ret _)) batch => { σ with pump := .round now none batch }
  | .round now none (del :: batch) =>
    { σ with pump := .round now (some (del, processDue K del now)) batch }
  | .round _ none [] => { σ with pump := .idle }
  | .purging (.act _ effect next) => { σ with d := effect σ.d, pump := .purging (next σ.d) }
  | .purging (.ret _) => { σ with pump := .idle }

/-- One step of the daemon. Whatever else happens around it may change everything but the
database, on which only its own tasks work. -/
def Node.step (K : Crypto) : Move → Node → Option Node
  | .pump, σ => some (σ.pumpStep K)
  | .purge, σ =>
    match σ.pump with
    | .round now none [] => some { σ with pump := .purging (retentionPurge now) }
    | _ => none
  | .spawn c, σ => some { σ with calls := σ.calls ++ [c.prog K] }
  | .call i, σ =>
    match σ.calls[i]? with
    | some (.act l effect next) =>
      some { σ with d := effect σ.d, calls := σ.calls.set i (next σ.d)
                    base := rebase l σ.d σ.base }
    | _ => none
  | .outside change, σ =>
    some { σ with d := { change σ.d with store := σ.d.store, placed := σ.d.placed } }
  | .restart, σ => some { σ with d := σ.d.restarted, pump := .idle, calls := [] }

abbrev Node.run (K : Crypto) : List Move → Node → Option Node := runAll (Node.step K)

theorem Call.sections (K : Crypto) (c : Call) : Always CallSection (c.prog K) := by
  have ingress {w : Scope} {p : Engine Unit}
      (bounds : Always (Footprint.Covers ⟨true, true, true⟩ w) p) : Always CallSection p :=
    always_mono bounds (fun _ _ _ does => does.ingress.call)
  cases c with
  | inbound => exact ingress (handleInbound_bounds ..)
  | envelope =>
    exact ingress (always_bind (fedIngress_bounds rfl ..) (fun _ => always_pure _))
  | sealed =>
    exact ingress (always_bind (fedSealedIngress_bounds rfl ..)
      (fun _ => always_pure _))
  | result plugin corr delivered =>
    refine always_bind (always_critical (fun d => ?_)) (fun _ => always_pure _)
    exact ⟨.result plugin corr delivered d.store, .inner ..⟩
  | ack peerKey id =>
    unfold Call.prog handleFedAck
    dsimp only
    split
    · exact always_pure _
    · exact always_modify (fun d => ⟨.ack peerKey _ d.store, .inner ..⟩)
  | requeue row =>
    exact always_modify (fun d => ⟨.requeue row d.store, .inner ..⟩)
  | purgeDead =>
    exact always_modify (fun d => ⟨.purgeDead d.store, .inner ..⟩)

inductive Starting
  | unread
  | read (now : Int)
  | taken (now : Int) (batch : List Delivery)

inductive StartStep : Starting → Section → Daemon → Daemon → Starting → Prop
  | read (l : Section) (d : Daemon) : StartStep .unread l d d (.read d.clock.utc)
  | take (l : Section) (d : Daemon) (now : Int) :
      StartStep (.read now) l d { d with store := d.store.reclaimStale (now - seconds 60) }
        (.taken now ((d.store.reclaimStale (now - seconds 60)).dueDeliveries now batchLimit))

abbrev Starts (start : Starting) (p : Engine (Int × List Delivery)) : Prop :=
  Follows (fun _ => True) StartStep (fun start' a => start' = .taken a.1 a.2) start p

theorem beginRound_starts : Starts .unread beginRound := by
  refine follows_observe_bind (fun d _ => ⟨_, .read _ d, ?_⟩)
  exact follows_critical_bind (fun d' _ => ⟨_, .take _ d' d.clock.utc, follows_pure rfl⟩)

/-- What a section of the hourly sweep does to the store. The retention it purges by was read
from a daemon that was `ok`. -/
inductive SweepEffect (ok : Daemon → Prop) (now : Int) : Store → Store → Prop
  | keep (s : Store) : SweepEffect ok now s s
  | purge (read : Daemon) (fine : ok read) (s : Store) :
      SweepEffect ok now s (s.purgeTerminal (now - seconds read.cfg.retentionSecs)).2
  | challenges (s : Store) : SweepEffect ok now s (s.purgeExpiredChallenges now)
  | adverts (s : Store) : SweepEffect ok now s (s.purgeExpiredAdverts now)

def SweepSection (ok : Daemon → Prop) (now : Int) (_ : Section) (d d' : Daemon) : Prop :=
  SweepEffect ok now d.store d'.store ∧ d.SameWires d'

abbrev Sweeps (ok : Daemon → Prop) (now : Int) (p : Engine Unit) : Prop :=
  Follows ok (fun (_ : Unit) l d d' _ => SweepSection ok now l d d') (fun _ _ => True) () p

theorem retentionPurge_sweeps (ok : Daemon → Prop) (now : Int) :
    Sweeps ok now (retentionPurge now) := by
  refine follows_observe_bind (fun read fine => ⟨(), ⟨.keep read.store, .refl read⟩, ?_⟩)
  refine follows_modify_bind (fun d _ => ⟨(), ⟨.purge read fine d.store, ?_⟩, ?_⟩)
  · exact .inner ..
  refine follows_modify_bind (fun d _ => ⟨(), ⟨.challenges d.store, ?_⟩, ?_⟩)
  · exact .inner ..
  exact follows_modify (fun d _ =>
    ⟨(), ⟨.adverts d.store, .inner ..⟩, trivial⟩)

variable {ok : Daemon → Prop} {now utc : Int} {s s' : Store} {del r' : Delivery} {l : Section}
  {good : Delivery → Nat → Fed → Prop} {a : Move} {n : Nat} {before after : Option Delivery}

section

variable (effect : SweepEffect ok now s s')
include effect

theorem SweepEffect.row_move (n : Nat) : QuietMove (s.row n)
    (s'.row n) := by
  cases effect with
  | purge =>
    rw [Store.row_purgeTerminal]
    cases s.row n with
    | none => exact .keep _
    | some r =>
      rw [Option.filter]
      split
      · exact .keep _
      · rename_i old
        refine .delete r ?_
        by_contra live
        simp [live] at old
  | keep | challenges | adverts => exact .keep _

theorem SweepEffect.next_eq :
    s'.deliveries.next = s.deliveries.next := by
  cases effect <;> rfl

theorem SweepEffect.keyed (keyed : s.Keyed) : s'.Keyed := by
  cases effect with
  | purge => exact keyed.retain rfl
  | keep | challenges | adverts => exact keyed.of_eq rfl

end

structure Batch (s : Store) (batch : List Delivery) : Prop where
  distinct : (batch.map Delivery.id).Nodup
  current : ∀ del ∈ batch, Current del s

theorem dueDeliveries_subset {limit : Nat} (member : del ∈ s.dueDeliveries now limit) :
    s.row del.id = some del ∧ del.state = .pending ∧ del.nextAttempt ≤ now := by
  have sorted := mem_of_mem_take member
  rw [mem_insertionSort, mem_filter] at sorted
  obtain ⟨stored, due⟩ := sorted
  have parts : del.state = .pending ∧ del.nextAttempt ≤ now := by simpa [Store.isDue] using due
  exact ⟨s.deliveries.get?_key stored, parts⟩

theorem dueDeliveries_distinct (s : Store) (now : Int) (limit : Nat) :
    ((s.dueDeliveries now limit).map Delivery.id).Nodup := by
  have sub := (take_sublist limit
    ((s.deliveries.rows.filter (Store.isDue now)).insertionSort Store.DueOrder)).map Delivery.id
  refine List.Nodup.sublist sub ?_
  have perm := (perm_insertionSort Store.DueOrder
    (s.deliveries.rows.filter (Store.isDue now))).map Delivery.id
  rw [perm.nodup_iff]
  exact s.deliveries.distinct.sublist (filter_sublist.map Delivery.id)

theorem dueDeliveries_batch (s : Store) (now : Int) (limit : Nat) :
    Batch s (s.dueDeliveries now limit) := by
  refine ⟨dueDeliveries_distinct .., fun del member _ => ?_⟩
  obtain ⟨found, waiting, _⟩ := dueDeliveries_subset member
  exact ⟨del, found, waiting, rfl⟩

theorem Current.call (current : Current del s) (effect : StoreEffect utc l s s') :
    Current del s' := by
  intro left
  obtain ⟨r, found, waiting, count⟩ := current left
  have move := effect.row_move del.id
  rw [found] at move
  generalize s'.row del.id = after at move
  cases move with
  | keep => exact ⟨r, rfl, waiting, count⟩
  | delete _ finished => simp [waiting, DeliveryState.live] at finished
  | deliver _ sent => simp [waiting] at sent
  | retry _ next live later => exact ⟨_, rfl, rfl, count⟩
  | exhaust _ live spent label => omega
  | requeue _ label permits => simp [waiting, DeliveryState.requeueable] at permits

theorem Batch.call {batch : List Delivery}
    (held : Batch s batch) (effect : StoreEffect utc l s s') : Batch s' batch :=
  ⟨held.distinct, fun del member => (held.current del member).call effect⟩

theorem Batch.attempt {good : Nat → Fed → Prop} {q q' : Phase}
    {d d' : Daemon} {batch : List Delivery} (held : Batch d.store batch)
    (step : EgressStep good del now q l d d' q') (apart : del.id ∉ batch.map Delivery.id) :
    Batch d'.store batch := by
  refine ⟨held.distinct, fun other member left => ?_⟩
  have different : other.id ≠ del.id :=
    fun same => apart (same ▸ mem_map_of_mem member)
  rw [step.other_row different]
  exact held.current other member left

/-- What a proof sees of the pump: where the attempt it is in stands, the copies it holds, the
one it is at first, and the time of the round. -/
structure View where
  phase : Phase
  held : List Delivery
  time : Option Int

abbrev View.idle : View := ⟨.done, [], none⟩

def Starting.view : Starting → View
  | .unread => .idle
  | .read now => ⟨.done, [], some now⟩
  | .taken now batch => ⟨.done, batch, some now⟩

def PumpInv (good : Delivery → Nat → Fed → Prop) (ok : Daemon → Prop) (s : Store) (v : View) :
    Pump → Prop
  | .idle => v = .idle
  | .starting p => ∃ start, Starts start p ∧ v = start.view ∧ Batch s v.held
  | .round now none batch => v = ⟨.done, batch, some now⟩ ∧ Batch s batch
  | .round now (some (del, p)) batch =>
    v.held = del :: batch ∧ v.time = some now ∧ del.id ∉ batch.map Delivery.id ∧ Batch s batch ∧
      Attempts (good del) del now ok v.phase p ∧ (v.phase.deciding = true → Current del s)
  | .purging p => ∃ now, v = ⟨.done, [], some now⟩ ∧ Sweeps ok now p

theorem PumpInv.of_rows {good : Delivery → Nat → Fed → Prop} {ok : Daemon → Prop} {s s' : Store}
    {v : View} {pump : Pump} (held : PumpInv good ok s v pump) (same : ∀ n, s'.row n = s.row n) :
    PumpInv good ok s' v pump := by
  have current {del : Delivery} (before : Current del s) : Current del s' := by
    intro left
    rw [same]
    exact before left
  have copies {batch : List Delivery} (before : Batch s batch) : Batch s' batch :=
    ⟨before.distinct, fun del member => current (before.current del member)⟩
  match pump, held with
  | .idle, idle => exact idle
  | .starting p, ⟨start, starts, view, before⟩ => exact ⟨start, starts, view, copies before⟩
  | .round now none batch, ⟨view, before⟩ => exact ⟨view, copies before⟩
  | .round now (some (del, p)) batch, ⟨whole, time, apart, before, follows, fresh⟩ =>
    exact ⟨whole, time, apart, copies before, follows, fun deciding => current (fresh deciding)⟩
  | .purging p, purging => exact purging

structure Node.Inv (good : Delivery → Nat → Fed → Prop) (ok : Daemon → Prop) (v : View) (σ : Node) :
    Prop where
  pump : PumpInv good ok σ.d.store v σ.pump
  calls : ∀ p ∈ σ.calls, Always CallSection p

def Node.Fresh (σ : Node) : Prop := σ.pump = .idle ∧ σ.calls = []

theorem Node.Fresh.inv {σ : Node} (fresh : σ.Fresh) : σ.Inv good ok .idle := by
  refine ⟨?_, ?_⟩
  · rw [fresh.1]
    rfl
  · rw [fresh.2]
    simp

def Pump.label? : Pump → Option Section
  | .idle | .round _ none _ => none
  | .starting p => p.label?
  | .round _ (some (_, p)) _ => p.label?
  | .purging p => p.label?

inductive NodeEffect (good : Delivery → Nat → Fed → Prop) (ok : Daemon → Prop) (σ : Node)
    (v : View) : Move → Node → View → Prop
  | quiet (a : Move) (σ' : Node) (v' : View) (store : σ'.d.store = σ.d.store)
      (placed : σ'.d.placed = σ.d.placed) (base : σ'.base = σ.base)
      (inner : (∀ change, a ≠ .outside change) → σ'.d = σ.d)
      (view : v' = v ∨ (v.phase ≠ .sending ∧ v'.phase ≠ .sending ∧ ∀ del ∈ v'.held, del ∈ v.held))
      (time : v'.time = v.time ∨ v'.time = none ∨ (v'.held = [] ∧ v'.time = some σ.d.clock.utc)) :
      NodeEffect good ok σ v a σ' v'
  | call (i : Nat) (l : Section) (effect : Daemon → Daemon) (next : Daemon → Engine Unit)
      (running : σ.calls[i]? = some (.act l effect next))
      (does : CallSection l σ.d (effect σ.d)) :
      NodeEffect good ok σ v (.call i)
        { σ with d := effect σ.d, calls := σ.calls.set i (next σ.d), base := rebase l σ.d σ.base } v
  | snapshot (now : Int) (pump : Pump) (idle : v = ⟨.done, [], some now⟩) :
      NodeEffect good ok σ v .pump
        { σ with
          d := { σ.d with store := σ.d.store.reclaimStale (now - seconds 60) }
          pump := pump }
        ⟨.done, (σ.d.store.reclaimStale (now - seconds 60)).dueDeliveries now batchLimit, some now⟩
  | attempt (now : Int) (del : Delivery) (q' : Phase) (l : Section) (d' : Daemon) (pump : Pump)
      (held : v.held.head? = some del) (time : v.time = some now) (label : σ.pump.label? = some l)
      (current : v.phase.deciding = true → Current del σ.d.store)
      (does : EgressStep (good del) del now v.phase l σ.d d' q') :
      NodeEffect good ok σ v .pump { σ with d := d', pump := pump } { v with phase := q' }
  | sweep (now : Int) (l : Section) (d' : Daemon) (pump : Pump) (idle : v = ⟨.done, [], some now⟩)
      (does : SweepSection ok now l σ.d d') :
      NodeEffect good ok σ v .pump { σ with d := d', pump := pump } v
  | restart : NodeEffect good ok σ v .restart
      { σ with d := σ.d.restarted, pump := .idle, calls := [] } .idle

section Step

variable {K : Crypto} {good : Delivery → Nat → Fed → Prop} {ok : Daemon → Prop}

variable {v : View}

private theorem pumpStep_effect
    (is : ∀ del now d env d' peer conn frame, ok d → d.store.getMessage del.messageId = some env →
      ok d' → (d'.conns.bind (fun conns => conns peer)) = some conn →
        Emission K ok del now env peer frame → good del conn.tx frame)
    {σ : Node} (inv : σ.Inv good ok v) (fine : ok σ.d) :
    ∃ v', NodeEffect good ok σ v .pump (σ.pumpStep K) v' ∧
      PumpInv good ok (σ.pumpStep K).d.store v' (σ.pumpStep K).pump := by
  obtain ⟨d, pump, calls, base⟩ := σ
  have held := inv.pump
  unfold Node.pumpStep
  match pump, held with
  | .idle, idle =>
    refine ⟨v, .quiet _ _ _ rfl rfl rfl (fun _ => rfl) (.inl rfl) (.inl rfl), .unread, ?_, idle, ?_⟩
    · exact beginRound_starts
    · rw [show v = .idle from idle]
      exact ⟨nodup_nil, by simp⟩
  | .starting (.act l effect next), ⟨start, starts, view, copies⟩ =>
    obtain ⟨start', step, later⟩ := follows_act starts (s := d) trivial
    subst view
    dsimp only at later ⊢
    generalize effect d = d' at step
    cases step with
    | read l d =>
      refine ⟨⟨.done, [], some d.clock.utc⟩, .quiet _ _ _ rfl rfl rfl (fun _ => rfl)
        (.inr ⟨nofun, nofun, fun _ member => member⟩) (.inr (.inr ⟨rfl, rfl⟩)), _, later,
        rfl, copies⟩
    | take l d now =>
      exact ⟨_, .snapshot now _ rfl, _, later, rfl, dueDeliveries_batch _ _ _⟩
  | .starting (.ret (now, due)), ⟨start, starts, view, copies⟩ =>
    have taken := follows_ret starts
    have all : v = ⟨.done, due, some now⟩ := by
      rw [view, show start = .taken now due from taken]
      rfl
    refine ⟨v, .quiet _ _ _ rfl rfl rfl (fun _ => rfl) (.inl rfl) (.inl rfl), all, ?_⟩
    rw [all] at copies
    exact copies
  | .round now (some (del, .act l effect next)) batch,
      ⟨whole, time, apart, copies, follows, fresh⟩ =>
    obtain ⟨q', does, later⟩ := follows_act follows fine
    have here : v.held.head? = some del := by simp [whole]
    refine ⟨_, .attempt now del q' l _ _ here time rfl fresh does, whole, time, apart,
      copies.attempt does apart, later, fun deciding => ?_⟩
    obtain ⟨before, same⟩ := does.still_deciding deciding
    rw [same]
    exact fresh before
  | .round now (some (del, .ret _)) batch, ⟨whole, time, _, copies, follows, _⟩ =>
    have through := follows_ret follows
    refine ⟨⟨.done, batch, some now⟩, .quiet _ _ _ rfl rfl rfl (fun _ => rfl)
      (.inr ⟨?_, by simp, fun other member => ?_⟩) (.inl time.symm), rfl, copies⟩
    · simp [show v.phase = .done from through]
    · rw [whole]
      exact mem_cons_of_mem _ member
  | .round now none (del :: batch), ⟨view, copies⟩ =>
    have split := nodup_cons.mp copies.distinct
    subst view
    exact ⟨⟨.ready, del :: batch, some now⟩, .quiet _ _ _ rfl rfl rfl (fun _ => rfl)
      (.inr ⟨by simp, by simp, fun other member => member⟩) (.inl rfl), rfl, rfl, split.1,
      ⟨split.2, fun other member => copies.current other (mem_cons_of_mem _ member)⟩,
      processDue_attempts K del now (is del now), fun _ => copies.current del mem_cons_self⟩
  | .round now none [], ⟨view, _⟩ =>
    subst view
    exact ⟨.idle, .quiet _ _ _ rfl rfl rfl (fun _ => rfl) (.inr ⟨by simp, by simp, by simp⟩)
      (.inr (.inl rfl)), rfl⟩
  | .purging (.act l effect next), ⟨now, view, sweeps⟩ =>
    obtain ⟨_, does, later⟩ := follows_act sweeps fine
    exact ⟨v, .sweep now l _ _ view does, now, view, later⟩
  | .purging (.ret _), ⟨now, view, _⟩ =>
    subst view
    exact ⟨.idle, .quiet _ _ _ rfl rfl rfl (fun _ => rfl) (.inr ⟨by simp, by simp, by simp⟩)
      (.inr (.inl rfl)), rfl⟩

theorem PumpInv.call {utc : Int} {l : Section} {s s' : Store} {pump : Pump}
    (held : PumpInv good ok s v pump) (effect : StoreEffect utc l s s') :
    PumpInv good ok s' v pump := by
  match pump, held with
  | .idle, idle => exact idle
  | .starting p, ⟨start, starts, view, copies⟩ => exact ⟨start, starts, view, copies.call effect⟩
  | .round now none batch, ⟨view, copies⟩ => exact ⟨view, copies.call effect⟩
  | .round now (some (del, p)) batch, ⟨whole, time, apart, copies, follows, fresh⟩ =>
    exact ⟨whole, time, apart, copies.call effect, follows,
      fun deciding => (fresh deciding).call effect⟩
  | .purging p, purging => exact purging

theorem Node.step_calls {M : Section → Daemon → Daemon → Prop} {a : Move} {σ σ' : Node}
    (step : Node.step K a σ = some σ')
    (spawned : ∀ c, a = .spawn c → Always M (c.prog K))
    (calls : ∀ p ∈ σ.calls, Always M p) : ∀ p ∈ σ'.calls, Always M p := by
  intro p member
  cases a with
  | pump =>
    cases step
    have same : (σ.pumpStep K).calls = σ.calls := by
      unfold Node.pumpStep
      split <;> rfl
    rw [same] at member
    exact calls p member
  | purge =>
    simp only [Node.step] at step
    split at step
    · cases step
      exact calls p member
    · exact absurd step (by simp)
  | spawn c =>
    cases step
    rcases mem_append.mp member with old | new
    · exact calls p old
    · rw [mem_singleton.mp new]
      exact spawned c rfl
  | call i =>
    simp only [Node.step] at step
    split at step
    · rename_i l effect next running
      cases step
      have program := calls _ (mem_of_getElem? running)
      rcases mem_or_eq_of_mem_set member with old | new
      · exact calls p old
      · rw [new]
        exact (always_act program σ.d).2
    · exact absurd step (by simp)
  | outside change =>
    cases step
    exact calls p member
  | restart =>
    cases step
    exact absurd member (by simp)

theorem Node.step_effect
    (is : ∀ del now d env d' peer conn frame, ok d → d.store.getMessage del.messageId = some env →
      ok d' → (d'.conns.bind (fun conns => conns peer)) = some conn →
        Emission K ok del now env peer frame → good del conn.tx frame)
    {a : Move} {σ σ' : Node} (step : Node.step K a σ = some σ') (inv : σ.Inv good ok v)
    (fine : ok σ.d) : ∃ v', NodeEffect good ok σ v a σ' v' ∧ σ'.Inv good ok v' := by
  have calls := Node.step_calls step (fun c _ => c.sections K) inv.calls
  cases a with
  | pump =>
    cases step
    obtain ⟨v', effect, pump⟩ := pumpStep_effect is inv fine
    exact ⟨v', effect, pump, calls⟩
  | purge =>
    simp only [Node.step] at step
    split at step
    · rename_i now through
      cases step
      have held := inv.pump
      rw [through] at held
      exact ⟨v, .quiet _ _ _ rfl rfl rfl (fun _ => rfl) (.inl rfl) (.inl rfl),
        ⟨now, held.1, retentionPurge_sweeps ..⟩, calls⟩
    · exact absurd step (by simp)
  | spawn c =>
    cases step
    exact ⟨v, .quiet _ _ _ rfl rfl rfl (fun _ => rfl) (.inl rfl) (.inl rfl), inv.pump, calls⟩
  | call i =>
    simp only [Node.step] at step
    split at step
    · rename_i l effect next running
      cases step
      have program := inv.calls _ (mem_of_getElem? running)
      obtain ⟨does, _⟩ := always_act program σ.d
      exact ⟨v, .call i l effect next running does, PumpInv.call inv.pump does.1, calls⟩
    · exact absurd step (by simp)
  | outside change =>
    cases step
    exact ⟨v, .quiet _ _ _ rfl rfl rfl (fun inner => absurd rfl (inner change)) (.inl rfl)
      (.inl rfl), inv.pump, calls⟩
  | restart =>
    cases step
    exact ⟨_, .restart, rfl, calls⟩

end Step

variable {v v' : View}

theorem NodeEffect.keyed {σ σ' : Node} (effect : NodeEffect good ok σ v a σ' v')
    (keyed : σ.d.store.Keyed) : σ'.d.store.Keyed := by
  cases effect with
  | quiet _ _ _ store placed base inner view time => exact keyed.of_eq (by rw [store])
  | call i l effect next running does | sweep now l d' pump idle does => exact does.1.keyed keyed
  | snapshot now pump idle | restart => exact keyed.of_eq rfl
  | attempt now del q' l d' pump held time label current does => exact keyed.of_eq does.messages

theorem NodeEffect.settings {σ σ' : Node} (effect : NodeEffect good ok σ v a σ' v')
    (inner : ∀ change, a ≠ .outside change) :
    σ'.d.cfg = σ.d.cfg ∧ σ'.d.clock = σ.d.clock := by
  cases effect with
  | quiet _ _ _ store placed base same view time =>
    rw [same inner]
    exact ⟨rfl, rfl⟩
  | call i l effect next running does | sweep now l d' pump idle does =>
    exact ⟨does.2.cfg, does.2.clock⟩
  | snapshot now pump idle | restart => exact ⟨rfl, rfl⟩
  | attempt now del q' l d' pump held time label current does => exact does.settings

theorem NodeEffect.conns {σ σ' : Node} (effect : NodeEffect good ok σ v a σ' v')
    (inner : ∀ change, a ≠ .outside change) {name : String} {conn : PeerConn}
    (found : (σ'.d.conns.bind (fun conns => conns name)) = some conn) :
    (σ.d.conns.bind (fun conns => conns name)) = some conn := by
  cases effect with
  | quiet _ _ _ store placed base same view time =>
    rw [same inner] at found
    exact found
  | call i l effect next running does | sweep now l d' pump idle does =>
    rw [does.2.conns] at found
    exact found
  | snapshot now pump idle => exact found
  | attempt now del q' l d' pump held time label current does =>
    rw [does.conns] at found
    exact found
  | restart =>
    obtain ⟨conns, registry, present⟩ := bind_eq_some_iff.mp found
    obtain ⟨fed, _, rfl⟩ := map_eq_some_iff.mp registry
    simp [Map.empty] at present

theorem NodeEffect.fedChannels {σ σ' : Node} (effect : NodeEffect good ok σ v a σ' v')
    (inner : ∀ change, a ≠ .outside change) {tx : Nat} {c' : Channel Fed}
    (found : σ'.d.fedChannels tx = some c') :
    ∃ c, σ.d.fedChannels tx = some c ∧
      ∀ frame ∈ c'.queue, frame ∈ c.queue ∨ ∃ del ∈ v.held, good del tx frame := by
  have kept {d' : Daemon} (same : d'.fedChannels = σ.d.fedChannels)
      (found : d'.fedChannels tx = some c') : ∃ c, σ.d.fedChannels tx = some c ∧
        ∀ frame ∈ c'.queue, frame ∈ c.queue ∨ ∃ del ∈ v.held, good del tx frame := by
    rw [same] at found
    exact ⟨c', found, fun frame queued => .inl queued⟩
  cases effect with
  | quiet _ _ _ store placed base same view time => exact kept (by rw [same inner]) found
  | call i l effect next running does | sweep now l d' pump idle does =>
    exact kept does.2.fedChannels found
  | snapshot now pump idle => exact kept rfl found
  | restart => simp [Daemon.restarted, Daemon.new, Map.empty] at found
  | attempt now del q' l d' pump held time label current does =>
    rcases does.fedChannels tx with same | ⟨c, c'', frame, is, before, took, after⟩
    · dsimp only at found
      rw [same] at found
      exact ⟨c', found, fun frame queued => .inl queued⟩
    · dsimp only at found
      rw [after] at found
      cases found
      refine ⟨c, before, fun other queued => ?_⟩
      rw [(Channel.room_of_trySend took).2] at queued
      rcases mem_append.mp queued with old | new
      · exact .inl old
      · rw [mem_singleton.mp new]
        exact .inr ⟨del, mem_of_head? held, is⟩

theorem NodeEffect.held {σ σ' : Node} (effect : NodeEffect good ok σ v a σ' v')
    (member : del ∈ v'.held) :
    del ∈ v.held ∨ σ'.d.store.row del.id = some del := by
  cases effect with
  | quiet _ _ _ store placed base inner view time =>
    rcases view with rfl | ⟨_, _, fewer⟩
    · exact .inl member
    · exact .inl (fewer del member)
  | call i l effect next running does
  | attempt now del q' l d' pump held time label current does | sweep now l d' pump idle does =>
    exact .inl member
  | snapshot now pump idle => exact .inr (dueDeliveries_subset member).1
  | restart => exact absurd member (by simp)

abbrev anyFrame : Delivery → Nat → Fed → Prop := fun _ _ _ => True

abbrev anyDaemon : Daemon → Prop := fun _ => True

theorem Node.step_any {K : Crypto} {σ σ' : Node} (step : Node.step K a σ = some σ')
    (inv : σ.Inv anyFrame anyDaemon v) :
    ∃ v', NodeEffect anyFrame anyDaemon σ v a σ' v' ∧ σ'.Inv anyFrame anyDaemon v' :=
  Node.step_effect (fun _ _ _ _ _ _ _ _ _ _ _ _ _ => trivial) step inv trivial

theorem Node.run_inv {K : Crypto} {moves : List Move} {σ₀ σ : Node} (fresh : σ₀.Fresh)
    (reached : Node.run K moves σ₀ = some σ) : ∃ v, σ.Inv anyFrame anyDaemon v := by
  refine runAll_invariant (fun s => ∃ v, s.Inv anyFrame anyDaemon v) (fun a s s' step given => ?_)
    reached ⟨_, fresh.inv⟩
  obtain ⟨v, inv⟩ := given
  obtain ⟨v', _, inv'⟩ := Node.step_any step inv
  exact ⟨v', inv'⟩

def Requeues (σ : Node) (a : Move) (n : Nat) : Prop :=
  ∃ i effect next, a = .call i ∧ σ.calls[i]? = some (.act (.requeue n) effect next)

/-- What one step may make of the row under one id: a row that is over stays as it is, goes, or
is requeued from a state that permits it; only a row in flight becomes delivered; only a requeue
takes attempts back. -/
structure RowLaw (requeues : Prop) (before after : Option Delivery) : Prop where
  finished : ∀ r, before = some r → r.state.live = false →
    after = some r ∨ after = none ∨
      (requeues ∧ r.state.requeueable = true ∧ ∃ t, after = some (requeued r t))
  delivered : ∀ r', after = some r' → r'.state = .delivered →
    before = some r' ∨ ∃ r, before = some r ∧ r.state = .attempting
  counted : ∀ r r', before = some r → after = some r' → r'.attemptCount < r.attemptCount → requeues

namespace RowLaw

variable {requeues : Prop} {before after : Option Delivery}

theorem keep (o : Option Delivery) : RowLaw requeues o o := by
  refine ⟨fun r found _ => .inl found, fun r' found _ => .inl found, ?_⟩
  intro r r' found found' less
  rw [found] at found'
  cases found'
  exact absurd less (Nat.lt_irrefl _)

theorem delete (r : Delivery) : RowLaw requeues (some r) none :=
  ⟨fun _ _ _ => .inr (.inl rfl), by simp, by simp⟩

theorem insert (r : Delivery) (unsent : r.state ≠ .delivered) : RowLaw requeues none (some r) := by
  refine ⟨by simp, ?_, by simp⟩
  intro r' found delivered
  cases found
  exact absurd delivered unsent

theorem change {r r' : Delivery} (live : r.state.live = true)
    (sent : r'.state = .delivered → r.state = .attempting)
    (count : r.attemptCount ≤ r'.attemptCount) : RowLaw requeues (some r) (some r') := by
  refine ⟨?_, ?_, ?_⟩
  · intro r₀ found finished
    cases found
    simp [live] at finished
  · intro r₁ found delivered
    cases found
    exact .inr ⟨r, rfl, sent delivered⟩
  · intro r₀ r₁ found found' less
    cases found
    cases found'
    omega

theorem requeue {r : Delivery} {t : Int} (asked : requeues) (permits : r.state.requeueable = true) :
    RowLaw requeues (some r) (some (requeued r t)) := by
  refine ⟨?_, ?_, fun _ _ _ _ _ => asked⟩
  · intro r₀ found _
    cases found
    exact .inr (.inr ⟨asked, permits, t, rfl⟩)
  · intro r' found delivered
    cases found
    exact absurd delivered (by simp [requeued])

theorem mono {requeues' : Prop} (law : RowLaw requeues before after)
    (weaker : requeues → requeues') : RowLaw requeues' before after := by
  refine ⟨fun r found finished => ?_, law.delivered, fun r r' found found' less => ?_⟩
  · rcases law.finished r found finished with same | gone | ⟨asked, rest⟩
    · exact .inl same
    · exact .inr (.inl gone)
    · exact .inr (.inr ⟨weaker asked, rest⟩)
  · exact weaker (law.counted r r' found found' less)

end RowLaw

private theorem live_of_attempting {r : Delivery} (sent : r.state = .attempting) :
    r.state.live = true := by
  rw [sent]
  rfl

theorem CallMove.law (move : CallMove utc l s n before after) : RowLaw
    (l = .requeue n) before after := by
  cases move with
  | keep => exact .keep _
  | insert r fresh unsent born =>
    refine .insert r (fun delivered => ?_)
    rcases born with state | state <;> simp [state] at delivered
  | delete r finished => exact .delete r
  | deliver r sent => exact .change (live_of_attempting sent) (fun _ => sent) le_rfl
  | retry r next live | exhaust r live spent => exact .change live (by simp) le_rfl
  | requeue r label permits => exact .requeue label permits

theorem QuietMove.law {requeues : Prop} (move : QuietMove before after) :
    RowLaw requeues before after := by
  cases move with
  | keep => exact .keep _
  | delete r finished => exact .delete r
  | reclaim r sent => exact .change (live_of_attempting sent) (by simp) le_rfl
  | retry r t next live => exact .change live (by simp) le_rfl

theorem PumpMove.law {requeues : Prop} (move : PumpMove before after) :
    RowLaw requeues before after := by
  cases move with
  | quiet move => exact move.law
  | terminate r t state reason live finished unsent =>
    exact .change live (fun delivered => absurd delivered unsent) le_rfl
  | attempt r t waiting left =>
    refine .change ?_ (by simp) (Nat.le_succ _)
    rw [waiting]
    rfl

theorem recover_move (s : Store) (n : Nat) : QuietMove (s.row n) (s.recover.row n) := by
  rw [Store.row_recover]
  cases s.row n with
  | none => exact .keep _
  | some r =>
    rw [map_some]
    split
    · rename_i sent
      exact .reclaim r (by simpa using sent)
    · exact .keep _

theorem reclaimStale_move (s : Store) (olderThan : Int) (n : Nat) :
    QuietMove (s.row n) ((s.reclaimStale olderThan).row n) := by
  rw [Store.row_reclaimStale]
  cases s.row n with
  | none => exact .keep _
  | some r =>
    rw [map_some]
    split
    · rename_i stale
      have sent : r.state = .attempting := by
        have both := Bool.and_eq_true_iff.mp stale
        simpa using both.1
      exact .reclaim r sent
    · exact .keep _

theorem NodeEffect.row_move {σ σ' : Node} (effect : NodeEffect good ok σ v a σ' v') (n : Nat) :
    PumpMove (σ.d.store.row n) (σ'.d.store.row n) ∨
      ∃ i l section_ next, a = .call i ∧ v' = v ∧ σ.calls[i]? = some (.act l section_ next) ∧
        σ'.d = section_ σ.d ∧
        CallMove σ.d.clock.utc l σ.d.store n (σ.d.store.row n) (σ'.d.store.row n) := by
  cases effect with
  | quiet _ _ _ store placed base inner view time =>
    rw [store]
    exact .inl (.quiet (.keep _))
  | call i l effect next running does =>
    exact .inr ⟨i, l, effect, next, rfl, rfl, running, rfl, does.1.row_move n⟩
  | snapshot now pump idle => exact .inl (.quiet (reclaimStale_move _ _ n))
  | attempt now del q' l d' pump held time label current does =>
    exact .inl (does.row_move current n)
  | sweep now l d' pump idle does => exact .inl (.quiet (does.1.row_move n))
  | restart => exact .inl (.quiet (recover_move _ n))

theorem NodeEffect.row_law {σ σ' : Node} (effect : NodeEffect good ok σ v a σ' v') (n : Nat) :
    RowLaw (Requeues σ a n) (σ.d.store.row n) (σ'.d.store.row n) := by
  rcases effect.row_move n with move | ⟨i, l, _, _, rfl, _, running, _, move⟩
  · exact move.law
  · exact move.law.mono (fun asked => ⟨i, _, _, rfl, asked ▸ running⟩)

structure Delivery.SameAddress (r r' : Delivery) : Prop where
  message : r'.messageId = r.messageId
  route : r'.route = r.route
  destination : r'.destination = r.destination
  priority : r'.priority = r.priority

theorem Delivery.SameAddress.refl (r : Delivery) : r.SameAddress r := ⟨rfl, rfl, rfl, rfl⟩

theorem QuietMove.address (move : QuietMove before after)
    (found : after = some r') : ∃ r, before = some r ∧ r.SameAddress r' := by
  cases move with
  | keep => exact ⟨r', found, .refl r'⟩
  | delete => cases found
  | reclaim r | retry r =>
    cases found
    exact ⟨r, rfl, rfl, rfl, rfl, rfl⟩

theorem PumpMove.address (move : PumpMove before after)
    (found : after = some r') : ∃ r, before = some r ∧ r.SameAddress r' := by
  cases move with
  | quiet move => exact move.address found
  | terminate r | attempt r =>
    cases found
    exact ⟨r, rfl, rfl, rfl, rfl, rfl⟩

theorem CallMove.address (move : CallMove utc l s n before after) (found : after = some r') :
    s.deliveries.next ≤ n ∨ ∃ r, before = some r ∧ r.SameAddress r' := by
  cases move with
  | keep => exact .inr ⟨r', found, .refl r'⟩
  | insert r fresh => exact .inl fresh
  | delete => cases found
  | deliver r | retry r | exhaust r | requeue r =>
    cases found
    exact .inr ⟨r, rfl, rfl, rfl, rfl, rfl⟩

theorem NodeEffect.address {σ σ' : Node}
    (effect : NodeEffect good ok σ v a σ' v') (found : σ'.d.store.row n = some r') :
    (σ.d.store.deliveries.next ≤ n ∧ v' = v) ∨ ∃ r, σ.d.store.row n = some r ∧
      r.SameAddress r' := by
  rcases effect.row_move n with move | ⟨_, _, _, _, _, view, _, _, move⟩
  · exact .inr (move.address found)
  · exact (move.address found).imp_left (fun unborn => ⟨unborn, view⟩)

theorem EgressStep.next_eq {good : Nat → Fed → Prop} {q q' : Phase}
    {d d' : Daemon} (step : EgressStep good del now q l d d' q') :
    d'.store.deliveries.next = d.store.deliveries.next := by
  cases step with
  | look _ _ _ _ clear store => rw [store]
  | _ => rfl

theorem NodeEffect.next_le {σ σ' : Node} (effect : NodeEffect good ok σ v a σ' v') :
    σ.d.store.deliveries.next ≤ σ'.d.store.deliveries.next := by
  cases effect with
  | quiet _ _ _ store placed base inner view time => rw [store]
  | call i l effect next running does => exact does.1.next_le
  | snapshot now pump idle | restart => exact Nat.le_refl _
  | attempt now del q' l d' pump held time label current does => exact does.next_eq.ge
  | sweep now l d' pump idle does => exact does.1.next_eq.ge

/-- A row that is over is changed only by a requeue that its state permits or by deletion, a row
becomes delivered only out of an attempt, and only a requeue lowers the attempt count. -/
theorem delivery_state_machine (K : Crypto) (moves : List Move) (σ₀ σ σ' : Node) (a : Move)
    (fresh : σ₀.Fresh) (reached : Node.run K moves σ₀ = some σ)
    (step : Node.step K a σ = some σ') (n : Nat) :
    RowLaw (Requeues σ a n) (σ.d.store.row n) (σ'.d.store.row n) := by
  obtain ⟨v, inv⟩ := Node.run_inv fresh reached
  obtain ⟨v', effect, _⟩ := Node.step_any step inv
  exact effect.row_law n

def Store.oneRow : Store :=
  (Store.empty.insertMessage (Envelope.hello ⟨1⟩)).insertDelivery 0 ⟨1⟩ "in" ⟨"b", "room"⟩ 0
    (seconds 3600) 2

def Daemon.connectB (capacity : Nat) (d : Daemon) : Daemon :=
  { d with plugins := d.plugins.insert "b" ⟨7, ⟨true, false, none⟩, true⟩
           pluginChannels := d.pluginChannels.insert 7 ⟨[], capacity, false⟩ }

def Node.small (store : Store) : Node := ⟨Daemon.small store, .idle, [], fun _ => 0⟩

def sentMoves : List Move :=
  Move.outside (Daemon.connectB 4) :: List.replicate 14 Move.pump ++
    [Move.spawn (.result "b" 1 true)]

theorem delivery_state_machine_result :
    ∃ σ σ', Node.run (.clear "rf:a") sentMoves (.small .oneRow) = some σ ∧
      Node.step (.clear "rf:a") (.call 0) σ = some σ' ∧
      (σ.d.store.row 1).map Delivery.state = some .attempting ∧
      (σ'.d.store.row 1).map Delivery.state = some .delivered ∧
      RowLaw (Requeues σ (.call 0) 1) (σ.d.store.row 1) (σ'.d.store.row 1) := by
  have states : ((Node.run (.clear "rf:a") sentMoves (.small .oneRow)).bind (fun σ =>
      (Node.step (.clear "rf:a") (.call 0) σ).map (fun σ' =>
        ((σ.d.store.row 1).map Delivery.state, (σ'.d.store.row 1).map Delivery.state)))) =
      some (some .attempting, some .delivered) := by
    decide
  obtain ⟨σ, reached, rest⟩ := bind_eq_some_iff.mp states
  obtain ⟨σ', step, both⟩ := map_eq_some_iff.mp rest
  have fresh : (Node.small .oneRow).Fresh := ⟨rfl, rfl⟩
  exact ⟨σ, σ', reached, step, congrArg Prod.fst both, congrArg Prod.snd both,
    delivery_state_machine _ _ _ _ _ _ fresh reached step 1⟩

end RelayFabric
