/- source: engine.rs
   digest: A node with everything that is asked of it, and what each section does to the queue. -/

import RelayFabric.Delivery.Node
import RelayFabric.Federation.Verdict
import RelayFabric.Identity.Desk

namespace RelayFabric

open List Lib Option
open Prog hiding bind run

inductive Errand
  | call (c : Call)
  | link (names : List String) (notice : Uuid) (code : String) (requester target : Endpoint)
      (displayName : String)

namespace Errand

def prog (K : Crypto) : Errand → Engine Unit
  | .call c => c.prog K
  | .link names notice code requester target displayName => do
    let _ ← initiateLink names notice code requester target displayName
    pure ()

def io : Errand → Faults
  | .call (.inbound io ..) | .call (.envelope io ..) | .call (.sealed io ..) => io
  | _ => .none

def brings : Errand → Option (Endpoint × String)
  | .call (.inbound _ _ plugin endpoint _ _ _ _ _ priority) =>
    some (⟨plugin, endpoint⟩, priority.getD "normal")
  | _ => none

def aims : Errand → Option String
  | .call (.envelope _ _ _ targetRoute) | .call (.sealed _ _ _ targetRoute) => some targetRoute
  | _ => none

def requeues : Errand → Option Nat
  | .call (.requeue row) => some row
  | _ => none

end Errand

/-- What a section of an errand does to the messages and rows, at the wall-clock time `utc`.
Routes and caps are those of daemons that were `ok` when they were read. -/
inductive ErrandEffect (ok : Daemon → Prop) (e : Errand) (utc : Int) :
    Section → Store → Store → Prop
  | tables (l : Section) (s s' : Store) (quiet : l.accepts = none)
      (deliveries : s'.deliveries = s.deliveries) (messages : s'.messages = s.messages) :
      ErrandEffect ok e utc l s s'
  | ingress {l : Section} {s s' : Store} (effect : IngressEffect ⟨ok, e.io, e.brings, e.aims⟩ utc
      l s s') : ErrandEffect ok e utc l s s'
  | result (plugin : String) (corr : Nat) (delivered : Bool) (s : Store) :
      ErrandEffect ok e utc (.result corr) s (resultStore s utc plugin corr delivered).2
  | ack (peerKey : String) (m : Uuid) (s : Store) :
      ErrandEffect ok e utc .ack s (ackStore s utc peerKey m)
  | requeue (row : Nat) (asked : e.requeues = some row) (s : Store) :
      ErrandEffect ok e utc (.requeue row) s (s.requeue utc row)
  | purgeDead (s : Store) : ErrandEffect ok e utc .purgeDead s s.purgeDeadLetters.2

def ErrandSection (ok : Daemon → Prop) (e : Errand) (l : Section) (d d' : Daemon) : Prop :=
  ErrandEffect ok e d.clock.utc l d.store d'.store ∧ d.SameWires d'

abbrev Errand.Runs {α : Type} (ok : Daemon → Prop) (e : Errand) (p : Engine α) : Prop :=
  Throughout (ErrandSection ok e) ok p

section Programs

variable {α : Type} {ok : Daemon → Prop} {e : Errand} {l : Section}

private theorem runs_quiet {body : Daemon → α × Daemon} (quiet : l.accepts = none)
    (deliveries : ∀ d, (body d).2.store.deliveries = d.store.deliveries)
    (messages : ∀ d, (body d).2.store.messages = d.store.messages)
    (wires : ∀ d : Daemon, d.SameWires (body d).2) : e.Runs ok (.critical l body : Engine α) :=
  always_critical (fun d => ⟨.tables l _ _ quiet (deliveries d) (messages d), wires d⟩)

private theorem runs_observe {read : Daemon → α} (quiet : l.accepts = none) :
    e.Runs ok (.observe l read : Engine α) :=
  always_observe (fun d => ⟨.tables l _ _ quiet rfl rfl, .refl d⟩)

private theorem runs_of_bounds {t : Footprint} {p : Engine α}
    (bounds : t.Bounds ⟨ok, e.io, e.brings, e.aims⟩ p) : e.Runs ok p :=
  always_mono bounds (fun _ _ _ does => ⟨.ingress does.ingress.1, does.ingress.2⟩)

theorem initiateLink_runs (names : List String) (notice : Uuid) (code : String)
    (requester target : Endpoint) (displayName : String) :
    e.Runs ok (initiateLink names notice code requester target displayName) := by
  refine always_bind (runs_quiet rfl (fun _ => rfl) (fun _ => rfl) (fun _ => .inner ..))
    (fun _ => ?_)
  refine always_bind (runs_observe rfl) (fun capable => always_ite (always_pure _) ?_)
  refine always_bind (runs_observe rfl) (fun now => always_bind ?_ (fun id => ?_))
  · exact runs_quiet rfl (fun _ => rfl) (fun _ => rfl) (fun _ => .inner ..)
  refine always_bind (runs_of_bounds (t := ⟨true, true, true⟩) (enqueueIdentitySend_bounds ..))
    (fun outcome => ?_)
  rcases outcome with _ | _ <;> exact always_pure _

end Programs

theorem Errand.runs (K : Crypto) (ok : Daemon → Prop) (e : Errand) : e.Runs ok (e.prog K) := by
  cases e with
  | link => exact always_bind (initiateLink_runs _ _ _ _ _ _) (fun _ => always_pure _)
  | call c =>
    cases c with
    | inbound => exact runs_of_bounds (handleInbound_bounds ..)
    | envelope =>
      exact always_bind (runs_of_bounds (t := ⟨true, true, true⟩) (fedIngress_bounds rfl ..))
        (fun _ => always_pure _)
    | sealed =>
      exact always_bind (runs_of_bounds (t := ⟨true, true, true⟩) (fedSealedIngress_bounds rfl ..))
        (fun _ => always_pure _)
    | result plugin corr delivered =>
      refine always_bind (always_critical (fun d => ⟨?_, .inner ..⟩)) (fun _ => always_pure _)
      exact .result plugin corr delivered d.store
    | ack peerKey id =>
      unfold Errand.prog Call.prog handleFedAck
      dsimp only
      cases Uuid.parseStr id with
      | none => exact always_pure _
      | some m => exact always_modify (fun d => ⟨.ack peerKey m d.store, .inner ..⟩)
    | requeue row => exact always_modify (fun d => ⟨.requeue row rfl d.store, .inner ..⟩)
    | purgeDead => exact always_modify (fun d => ⟨.purgeDead d.store, .inner ..⟩)

theorem ErrandEffect.store {ok : Daemon → Prop} {e : Errand} {utc : Int} {l : Section}
    {s s' : Store} (effect : ErrandEffect ok e utc l s s') :
    StoreEffect utc l s s' ∨ (s'.deliveries = s.deliveries ∧ s'.messages = s.messages) := by
  cases effect with
  | tables _ _ _ quiet deliveries messages => exact .inr ⟨deliveries, messages⟩
  | ingress effect => exact .inl (.ingress effect)
  | result => exact .inl (.result _ _ _ _)
  | ack => exact .inl (.ack _ _ _)
  | requeue row => exact .inl (.requeue _ _)
  | purgeDead => exact .inl (.purgeDead _)

structure Station where
  node : Node
  errands : List (Errand × Engine Unit)

inductive StationMove
  | pump
  | purge
  | ask (e : Errand)
  | act (i : Nat)
  | outside (change : Daemon → Daemon)
  | restart

/-- Around the tasks anything may change but the stored messages and rows: connections, clocks, the
configuration, and the tables that other parts of the program write. -/
def Daemon.aside (d : Daemon) (change : Daemon → Daemon) : Daemon :=
  { change d with
    placed := d.placed
    store := { (change d).store with
      messages := d.store.messages
      deliveries := d.store.deliveries } }

namespace Station

def step (K : Crypto) : StationMove → Station → Option Station
  | .pump, h => (Node.step K .pump h.node).map (fun σ => { h with node := σ })
  | .purge, h => (Node.step K .purge h.node).map (fun σ => { h with node := σ })
  | .ask e, h => some { h with errands := h.errands ++ [(e, e.prog K)] }
  | .act i, h =>
    match h.errands[i]? with
    | some (e, .act _ effect next) =>
      some { h with node := { h.node with d := effect h.node.d }
                    errands := h.errands.set i (e, next h.node.d) }
    | _ => none
  | .outside change, h => some { h with node := { h.node with d := h.node.d.aside change } }
  | .restart, h => (Node.step K .restart h.node).map (fun σ => { h with node := σ, errands := [] })

abbrev run (K : Crypto) : List StationMove → Station → Option Station := runAll (step K)

def Fresh (h : Station) : Prop := h.node.Fresh ∧ h.errands = []

structure Inv (ok : Daemon → Prop) (v : View) (h : Station) : Prop where
  node : h.node.Inv anyFrame ok v
  errands : ∀ job ∈ h.errands, job.1.Runs ok job.2

theorem Fresh.inv {ok : Daemon → Prop} {h : Station} (fresh : h.Fresh) : h.Inv ok .idle := by
  refine ⟨fresh.1.inv, ?_⟩
  rw [fresh.2]
  exact fun job member => absurd member (by simp)

end Station

inductive StationEffect (ok : Daemon → Prop) (h : Station) (v : View) :
    StationMove → Station → View → Prop
  | still (a : StationMove) (h' : Station) (own : ∀ i, a ≠ .act i)
      (deliveries : h'.node.d.store.deliveries = h.node.d.store.deliveries)
      (messages : h'.node.d.store.messages = h.node.d.store.messages)
      (settings : (∀ change, a ≠ .outside change) → h'.node.d = h.node.d) :
      StationEffect ok h v a h' v
  | own (a : StationMove) (b : Move) (h' : Station) (v' : View) (other : ∀ i, a ≠ .act i)
      (inner : ∀ change, b ≠ .outside change) (alone : ∀ i, b ≠ .call i)
      (does : NodeEffect anyFrame ok h.node v b h'.node v') : StationEffect ok h v a h' v'
  | act (i : Nat) (e : Errand) (l : Section) (effect : Daemon → Daemon)
      (next : Daemon → Engine Unit) (running : h.errands[i]? = some (e, .act l effect next))
      (does : ErrandSection ok e l h.node.d (effect h.node.d)) :
      StationEffect ok h v (.act i)
        { h with node := { h.node with d := effect h.node.d }
                 errands := h.errands.set i (e, next h.node.d) } v

section Step

variable {K : Crypto} {ok : Daemon → Prop} {h h' : Station} {v : View}

variable {a : StationMove}

private theorem own_step {b : Move} {errands : List (Errand × Engine Unit)}
    {σ : Node} (inv : h.Inv ok v) (fine : ok h.node.d) (step : Node.step K b h.node = some σ)
    (other : ∀ i, a ≠ .act i) (inner : ∀ change, b ≠ .outside change) (alone : ∀ i, b ≠ .call i)
    (kept : ∀ job ∈ errands, job.1.Runs ok job.2) :
    ∃ v', StationEffect ok h v a ⟨σ, errands⟩ v' ∧ (⟨σ, errands⟩ : Station).Inv ok v' := by
  obtain ⟨v', does, after⟩ := Node.step_effect (fun _ _ _ _ _ _ _ _ _ _ _ _ _ => trivial) step
    inv.node fine
  exact ⟨v', .own a b _ v' other inner alone does, after, kept⟩

theorem Station.step_effect (step : Station.step K a h = some h')
    (inv : h.Inv ok v) (fine : ok h.node.d) :
    ∃ v', StationEffect ok h v a h' v' ∧ h'.Inv ok v' := by
  cases a with
  | pump | purge =>
    rw [Station.step] at step
    obtain ⟨σ, moved, rfl⟩ := map_eq_some_iff.mp step
    exact own_step inv fine moved (by rintro _ ⟨⟩) (by rintro _ ⟨⟩) (by rintro _ ⟨⟩) inv.errands
  | restart =>
    rw [Station.step] at step
    obtain ⟨σ, moved, rfl⟩ := map_eq_some_iff.mp step
    exact own_step inv fine moved (by rintro _ ⟨⟩) (by rintro _ ⟨⟩) (by rintro _ ⟨⟩)
      (fun job member => absurd member (by simp))
  | ask e =>
    cases step
    refine ⟨v, .still _ _ (by rintro _ ⟨⟩) rfl rfl (fun _ => rfl), inv.node, fun job member => ?_⟩
    rcases mem_append.mp member with old | new
    · exact inv.errands job old
    · rw [mem_singleton.mp new]
      exact e.runs K ok
  | outside change =>
    cases step
    refine ⟨v, .still _ _ (by rintro _ ⟨⟩) rfl rfl (fun inner => absurd rfl (inner change)), ?_,
      inv.errands⟩
    exact ⟨inv.node.pump.of_rows (fun _ => rfl), inv.node.calls⟩
  | act i =>
    simp only [Station.step] at step
    split at step
    · rename_i e l effect next running
      cases step
      have program := inv.errands _ (mem_of_getElem? running)
      obtain ⟨does, rest⟩ := throughout_act program fine
      refine ⟨v, .act i e l effect next running does, ⟨?_, inv.node.calls⟩, fun job member => ?_⟩
      · rcases does.1.store with call | ⟨same, _⟩
        · exact inv.node.pump.call call
        · exact inv.node.pump.of_rows (Store.row_congr same)
      · rcases mem_or_eq_of_mem_set member with old | new
        · exact inv.errands job old
        · rw [new]
          exact rest
    · cases step

theorem Station.step_errands {P : Errand → Prop} (step : Station.step K a h = some h')
    (asked : ∀ e, a = .ask e → P e)
    (each : ∀ job ∈ h.errands, P job.1) : ∀ job ∈ h'.errands, P job.1 := by
  intro job member
  cases a with
  | pump | purge =>
    rw [Station.step] at step
    obtain ⟨σ, moved, rfl⟩ := map_eq_some_iff.mp step
    exact each job member
  | restart =>
    rw [Station.step] at step
    obtain ⟨σ, moved, rfl⟩ := map_eq_some_iff.mp step
    exact absurd member (by simp)
  | ask e =>
    cases step
    rcases mem_append.mp member with old | new
    · exact each job old
    · rw [mem_singleton.mp new]
      exact asked e rfl
  | outside change =>
    cases step
    exact each job member
  | act i =>
    simp only [Station.step] at step
    split at step
    · rename_i e l effect next running
      cases step
      rcases mem_or_eq_of_mem_set member with old | new
      · exact each job old
      · rw [new]
        exact each (e, .act l effect next) (mem_of_getElem? running)
    · cases step

theorem StationEffect.settings {v' : View} (effect : StationEffect ok h v a h' v')
    (inner : ∀ change, a ≠ .outside change) :
    h'.node.d.cfg = h.node.d.cfg ∧ h'.node.d.clock = h.node.d.clock := by
  cases effect with
  | still _ _ own deliveries messages settings =>
    rw [settings inner]
    exact ⟨rfl, rfl⟩
  | own _ b _ _ other apart alone does => exact does.settings apart
  | act i e l effect next running does => exact ⟨does.2.cfg, does.2.clock⟩

end Step

end RelayFabric
