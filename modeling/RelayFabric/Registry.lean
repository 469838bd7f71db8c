/- source: fed/conn.rs (register_up, register_down, admit_and_run), plugins.rs (handle_conn)
   digest: The two registries of live connections, interleaved at their lock acquisitions. -/

import RelayFabric.Daemon
import RelayFabric.Lib.Expiring
import RelayFabric.Lib.Tenancy

namespace RelayFabric

open List Lib Option Function

structure Registration where
  token : Nat
  nodeId : String
  deriving DecidableEq, Repr

/-- Where the task of one connection stands, between two of its critical sections. -/
inductive TaskPhase
  /-- Admitted by the trust check; `PeerConn::new` comes next. -/
  | arriving
  /-- The token is drawn; the lock of `register_up` comes next. -/
  | stamped (token : Nat)
  /-- Registered; the gauge is not set yet. -/
  | installed (token : Nat)
  /-- In `run_conn`. -/
  | running (token : Nat)
  /-- `run_conn` has returned; the lock of `register_down` comes next. -/
  | closing (token : Nat)
  /-- Deregistered; the gauge is not cleared yet. -/
  | removed
  | gone
  | refused
  deriving DecidableEq, Repr

structure ConnTask where
  peerKey : String
  nodeId : String
  phase : TaskPhase
  deriving DecidableEq, Repr

/-- The shared maps and the tasks. The last field is a history variable: the token registered last
under each key. -/
structure FedRegistry where
  conns : Entries String Registration
  nextInstance : Nat
  peersUp : Entries String Bool
  tasks : List ConnTask
  newest : String → Option Nat

/-- A configured peer's name as it is, a node id by its first eight hex digits. -/
def displayPeerKey (peerKey : String) : String :=
  if "rf:".toList <+: peerKey.toList then shortNodeId peerKey else peerKey

def setFederationPeerUp (peersUp : Entries String Bool) (peer : String) (up : Bool) :
    Entries String Bool := peersUp.insert peer up

def insertConn (conns : Entries String Registration) (peerKey : String) (conn : Registration) :
    Option (Entries String Registration) :=
  if (conns.get? peerKey).isSome then none else some (conns.insert peerKey conn)

def removeConn (conns : Entries String Registration) (peerKey : String) (token : Nat) :
    Option (Entries String Registration) :=
  if (conns.get? peerKey).any (fun e => e.2.token == token) then some (conns.remove peerKey)
  else none

namespace FedRegistry

def empty : FedRegistry := ⟨.empty, 0, .empty, [], fun _ => none⟩

def goes (σ : FedRegistry) (i : Nat) (task : ConnTask) (phase : TaskPhase) : FedRegistry :=
  { σ with tasks := σ.tasks.set i { task with phase := phase } }

def act (i : Nat) (σ : FedRegistry) : Option FedRegistry :=
  match σ.tasks[i]? with
  | none => none
  | some task =>
    match task.phase with
    | .arriving =>
      some ({ σ with nextInstance := σ.nextInstance + 1 }.goes i task (.stamped σ.nextInstance))
    | .stamped token =>
      match insertConn σ.conns task.peerKey ⟨token, task.nodeId⟩ with
      | none => some (σ.goes i task .refused)
      | some conns =>
        some ({ σ with
          conns := conns
          newest := Function.update σ.newest task.peerKey (some token) }.goes i task
            (.installed token))
    | .installed token =>
      some ({ σ with
        peersUp := setFederationPeerUp σ.peersUp (displayPeerKey task.peerKey) true }.goes i task
          (.running token))
    | .running token => some (σ.goes i task (.closing token))
    | .closing token =>
      match removeConn σ.conns task.peerKey token with
      | none => some (σ.goes i task .gone)
      | some conns => some ({ σ with conns := conns }.goes i task .removed)
    | .removed =>
      some ({ σ with
        peersUp := setFederationPeerUp σ.peersUp (displayPeerKey task.peerKey) false }.goes
          i task .gone)
    | .gone => none
    | .refused => none

inductive Move
  | arrive (peerKey nodeId : String)
  | act (i : Nat)
  deriving DecidableEq, Repr

def step : Move → FedRegistry → Option FedRegistry
  | .arrive peerKey nodeId, σ => some { σ with tasks := σ.tasks ++ [⟨peerKey, nodeId, .arriving⟩] }
  | .act i, σ => σ.act i

def phase : TaskPhase → Tenancy.Phase
  | .arriving => .arriving
  | .stamped t => .stamped t
  | .installed t => .running t
  | .running t => .running t
  | .closing t => .closing t
  | .removed => .gone
  | .gone => .gone
  | .refused => .refused

def hall (σ : FedRegistry) : Tenancy.Hall String where
  holder key := (σ.conns.get? key).map (fun e => e.2.token)
  next := σ.nextInstance
  guests := σ.tasks.map (fun task => (task.peerKey, phase task.phase))
  newest := σ.newest

theorem holder_eq (σ : FedRegistry) (key : String) :
    σ.hall.holder key = (σ.conns.get? key).map (fun e => e.2.token) := rfl

theorem hall_goes (σ : FedRegistry) (i : Nat) (task : ConnTask) (p : TaskPhase) :
    (σ.goes i task p).hall =
      { σ.hall with guests := σ.hall.guests.set i (task.peerKey, phase p) } := by
  unfold hall goes
  rw [map_set]

variable {conns : Entries String Registration} {key : String} {i : Nat}

theorem insertConn_some {conns' : Entries String Registration} {conn : Registration}
    (taken : insertConn conns key conn = some conns') :
    conns.get? key = none ∧ conns' = conns.insert key conn := by
  unfold insertConn at taken
  split_ifs at taken with held
  exact ⟨by simpa using held, (Option.some.inj taken).symm⟩

theorem insertConn_none {conn : Registration} :
    insertConn conns key conn = none ↔ (conns.get? key).isSome = true := by
  unfold insertConn
  split_ifs with held
  · simp [held]
  · simp [held]

theorem removeConn_some {conns' : Entries String Registration} {token : Nat}
    (removed : removeConn conns key token = some conns') :
    (∃ e, conns.get? key = some e ∧ e.2.token = token) ∧ conns' = conns.remove key := by
  unfold removeConn at removed
  split_ifs at removed with mine
  refine ⟨?_, (Option.some.inj removed).symm⟩
  simpa [Option.any_eq_true] using mine

theorem removeConn_none {token : Nat} (kept : removeConn conns key token = none) :
    (conns.get? key).map (fun e => e.2.token) ≠ some token := by
  unfold removeConn at kept
  split_ifs at kept with another
  cases found : conns.get? key with
  | none => simp
  | some e => simpa [found] using another

theorem holder_insert (conns : Entries String Registration) (key : String) (conn : Registration) :
    (fun k => ((conns.insert key conn).get? k).map (fun e => e.2.token)) =
      Function.update (fun k => (conns.get? k).map (fun e => e.2.token)) key (some conn.token) := by
  funext k
  rw [Entries.get?_insert]
  by_cases same : k = key
  · subst same
    rw [if_pos rfl, update_self, map_some]
  · rw [if_neg same, update_of_ne same]

theorem holder_remove (conns : Entries String Registration) (key : String) :
    (fun k => ((conns.remove key).get? k).map (fun e => e.2.token)) =
      Function.update (fun k => (conns.get? k).map (fun e => e.2.token)) key none := by
  funext k
  by_cases same : k = key
  · subst same
    rw [update_self, Entries.get?_remove_self, map_none]
  · rw [update_of_ne same, Entries.get?_remove_of_ne _ same]

inductive Acts (σ : FedRegistry) (i : Nat) (task : ConnTask) : FedRegistry → Prop
  | stamp (here : task.phase = .arriving) : Acts σ i task
      ({ σ with nextInstance := σ.nextInstance + 1 }.goes i task (.stamped σ.nextInstance))
  | refuse {t : Nat} (here : task.phase = .stamped t)
      (held : (σ.conns.get? task.peerKey).isSome = true) : Acts σ i task (σ.goes i task .refused)
  | install {t : Nat} (here : task.phase = .stamped t) (free : σ.conns.get? task.peerKey = none) :
      Acts σ i task ({ σ with
        conns := σ.conns.insert task.peerKey ⟨t, task.nodeId⟩
        newest := Function.update σ.newest task.peerKey (some t) }.goes i task (.installed t))
  | rise {t : Nat} (here : task.phase = .installed t) : Acts σ i task ({ σ with
      peersUp := setFederationPeerUp σ.peersUp (displayPeerKey task.peerKey) true }.goes
        i task (.running t))
  | close {t : Nat} (here : task.phase = .running t) : Acts σ i task (σ.goes i task (.closing t))
  | displaced {t : Nat} (here : task.phase = .closing t)
      (other : (σ.conns.get? task.peerKey).map (fun e => e.2.token) ≠ some t) :
      Acts σ i task (σ.goes i task .gone)
  | remove {t : Nat} (here : task.phase = .closing t)
      (mine : ∃ e, σ.conns.get? task.peerKey = some e ∧ e.2.token = t) :
      Acts σ i task ({ σ with conns := σ.conns.remove task.peerKey }.goes i task .removed)
  | fall (here : task.phase = .removed) : Acts σ i task ({ σ with
      peersUp := setFederationPeerUp σ.peersUp (displayPeerKey task.peerKey) false }.goes
        i task .gone)

theorem acts_of_act {σ σ' : FedRegistry} (step : σ.act i = some σ') :
    ∃ task, σ.tasks[i]? = some task ∧ Acts σ i task σ' := by
  unfold act at step
  cases found : σ.tasks[i]? with
  | none =>
    rw [found] at step
    cases step
  | some task =>
    rw [found] at step
    dsimp only at step
    refine ⟨task, rfl, ?_⟩
    cases here : task.phase with
    | arriving =>
      rw [here] at step
      cases step
      exact .stamp here
    | stamped t =>
      rw [here] at step
      dsimp only at step
      cases taken : insertConn σ.conns task.peerKey ⟨t, task.nodeId⟩ with
      | none =>
        rw [taken] at step
        cases step
        exact .refuse here (insertConn_none.mp taken)
      | some conns =>
        rw [taken] at step
        cases step
        obtain ⟨free, rfl⟩ := insertConn_some taken
        exact .install here free
    | installed t =>
      rw [here] at step
      cases step
      exact .rise here
    | running t =>
      rw [here] at step
      cases step
      exact .close here
    | closing t =>
      rw [here] at step
      dsimp only at step
      cases removal : removeConn σ.conns task.peerKey t with
      | none =>
        rw [removal] at step
        cases step
        exact .displaced here (removeConn_none removal)
      | some conns =>
        rw [removal] at step
        cases step
        obtain ⟨mine, rfl⟩ := removeConn_some removal
        exact .remove here mine
    | removed =>
      rw [here] at step
      cases step
      exact .fall here
    | gone | refused =>
      rw [here] at step
      cases step

theorem act_refines {σ σ' : FedRegistry} (step : σ.act i = some σ') :
    σ'.hall = σ.hall ∨ σ.hall.act true i = some σ'.hall := by
  obtain ⟨task, found, acts⟩ := acts_of_act step
  have place : σ.hall.guests[i]? = some (task.peerKey, phase task.phase) := by
    unfold hall
    rw [List.getElem?_map, found]
    rfl
  have still {q : TaskPhase} (same : phase q = phase task.phase) :
      { σ.hall with guests := σ.hall.guests.set i (task.peerKey, phase q) } = σ.hall := by
    have bound := (List.getElem?_eq_some_iff.mp place)
    rw [same, ← bound.2, set_getElem_self]
  cases acts with
  | stamp here | close here =>
    rw [hall_goes, Tenancy.Hall.act, place, here]
    exact Or.inr rfl
  | refuse here held =>
    rw [Tenancy.Hall.act, place, here]
    dsimp only [phase]
    rw [hall_goes, holder_eq, isSome_map, held]
    exact Or.inr rfl
  | install here free =>
    rw [Tenancy.Hall.act, place, here]
    dsimp only [phase]
    rw [hall_goes, holder_eq, free]
    right
    simp [isSome_none, hall, holder_insert, phase]
  | rise here | fall here =>
    rw [hall_goes]
    exact Or.inl (still (by rw [here]; rfl))
  | displaced here other =>
    rw [Tenancy.Hall.act, place, here]
    dsimp only [phase]
    rw [holder_eq, hall_goes, if_neg other]
    exact Or.inr rfl
  | remove here mine =>
    obtain ⟨e, entry, rfl⟩ := mine
    rw [Tenancy.Hall.act, place, here]
    dsimp only [phase]
    rw [holder_eq, hall_goes, entry, map_some, if_pos rfl]
    right
    simp [hall, holder_remove, phase]

def Inside (task : ConnTask) (t : Nat) : Prop :=
  task.phase = .installed t ∨ task.phase = .running t ∨ task.phase = .closing t

theorem Inside.phase {task : ConnTask} {t : Nat} (inside : Inside task t) :
    (phase task.phase).Inside t := by
  rcases inside with at_ | at_ | at_
  · rw [at_]
    exact Or.inl rfl
  · rw [at_]
    exact Or.inl rfl
  · rw [at_]
    exact Or.inr rfl

def Quiescent (σ : FedRegistry) : Prop :=
  ∀ task ∈ σ.tasks, (∃ t, task.phase = .running t) ∨ task.phase = .gone ∨ task.phase = .refused

structure Sound (σ : FedRegistry) : Prop where
  /-- At most one connection is set up under a key. -/
  single : ∀ (i j : Nat) (a b : ConnTask) (t u : Nat), σ.tasks[i]? = some a → σ.tasks[j]? = some b →
    a.peerKey = b.peerKey → Inside a t → Inside b u → i = j
  /-- A set-up under a key that is held is refused, and changes nothing else. -/
  refuses : ∀ (i : Nat) (task : ConnTask) (t : Nat), σ.tasks[i]? = some task →
    task.phase = .stamped t →
    (σ.conns.get? task.peerKey).isSome = true → σ.act i = some (σ.goes i task .refused)
  /-- A tear-down removes the caller's own registration or nothing. -/
  removes : ∀ (i : Nat) (task : ConnTask) (t : Nat) (σ' : FedRegistry), σ.tasks[i]? = some task →
    task.phase = .closing t → σ.act i = some σ' → σ'.conns = σ.conns ∨
      (∃ e, σ.conns.get? task.peerKey = some e ∧ e.2.token = t) ∧
        σ'.conns = σ.conns.remove task.peerKey
  /-- A connection that is set up is the one registered under its key. -/
  reachable : ∀ (i : Nat) (task : ConnTask) (t : Nat), σ.tasks[i]? = some task → Inside task t →
    ∃ e, σ.conns.get? task.peerKey = some e ∧ e.2.token = t
  /-- In a quiet state a key is present exactly when its newest connection is still running. -/
  present : σ.Quiescent → ∀ key, (σ.conns.get? key).isSome = true ↔
    ∃ (i : Nat) (task : ConnTask) (t : Nat), σ.newest key = some t ∧ σ.tasks[i]? = some task ∧
      task.peerKey = key ∧ task.phase = .running t

theorem inv_step {a : Move} {σ σ' : FedRegistry} (step : FedRegistry.step a σ = some σ')
    (inv : σ.hall.Inv true) : σ'.hall.Inv true := by
  cases a with
  | arrive peerKey nodeId =>
    cases step
    have arrived := inv.arrive peerKey
    unfold hall at arrived ⊢
    rw [map_append]
    exact arrived
  | act i =>
    rcases act_refines step with same | moved
    · rw [same]
      exact inv
    · exact inv.act moved

theorem at_hall {σ : FedRegistry} {task : ConnTask} (found : σ.tasks[i]? = some task) :
    σ.hall.At i task.peerKey (phase task.phase) := by
  unfold Tenancy.Hall.At hall
  rw [List.getElem?_map, found]
  rfl

theorem of_at_hall {σ : FedRegistry} {p : Tenancy.Phase} (there : σ.hall.At i key p) :
    ∃ task, σ.tasks[i]? = some task ∧ task.peerKey = key ∧ phase task.phase = p := by
  unfold Tenancy.Hall.At hall at there
  rw [List.getElem?_map] at there
  obtain ⟨task, found, same⟩ := map_eq_some_iff.mp there
  exact ⟨task, found, (Prod.mk.inj same).1, (Prod.mk.inj same).2⟩

theorem sound_of_inv {σ : FedRegistry} (inv : σ.hall.Inv true) : σ.Sound where
  single := by
    intro i j a b t u first second same inside inside'
    have holds := inv.first rfl i a.peerKey _ t (at_hall first) inside.phase
    have holds' := inv.first rfl j b.peerKey _ u (at_hall second) inside'.phase
    rw [same, holds'] at holds
    obtain rfl := Option.some.inj holds
    exact inv.own i j _ _ _ _ u (at_hall first) (at_hall second) inside.phase.token
      inside'.phase.token
  refuses := by
    intro i task t found at_ held
    unfold act
    rw [found]
    dsimp only
    rw [at_]
    dsimp only
    rw [insertConn_none.mpr held]
  removes := by
    intro i task t σ' found at_ step
    obtain ⟨task', found', acts⟩ := acts_of_act step
    obtain rfl := Option.some.inj (found.symm.trans found')
    cases acts with
    | displaced here other => exact Or.inl rfl
    | remove here mine =>
      obtain rfl := TaskPhase.closing.inj (at_.symm.trans here)
      exact Or.inr ⟨mine, rfl⟩
    | _ here => cases at_.symm.trans here
  reachable := by
    intro i task t found inside
    have holds := inv.first rfl i task.peerKey _ t (at_hall found) inside.phase
    exact map_eq_some_iff.mp holds
  present := by
    intro quiet key
    have quietHall : σ.hall.Quiescent := by
      intro i k p there
      obtain ⟨task, found, -, rfl⟩ := of_at_hall there
      rcases quiet task (mem_of_getElem? found) with ⟨t, running⟩ | gone | refused
      · exact Or.inl ⟨t, by rw [running]; rfl⟩
      · exact Or.inr (Or.inl (by rw [gone]; rfl))
      · exact Or.inr (Or.inr (by rw [refused]; rfl))
    have held := inv.quiescent quietHall key
    rw [holder_eq, isSome_map] at held
    rw [held]
    constructor
    · rintro ⟨t, i, newest, there⟩
      obtain ⟨task, found, named, shown⟩ := of_at_hall there
      refine ⟨i, task, t, newest, found, named, ?_⟩
      rcases quiet task (mem_of_getElem? found) with ⟨u, running⟩ | gone | refused
      · rw [running] at shown ⊢
        rw [Tenancy.Phase.running.inj shown]
      · rw [gone] at shown
        cases shown
      · rw [refused] at shown
        cases shown
    · rintro ⟨i, task, t, newest, found, rfl, running⟩
      have there := at_hall found
      rw [running] at there
      exact ⟨t, i, newest, there⟩

end FedRegistry

structure PluginSlot where
  connId : Nat
  connected : Bool
  deriving DecidableEq, Repr

/-- The plugin map and the tasks of `handle_conn`; a phase is as in the hall, with the lock of the
installation after `stamped` and that of the tear-down after `closing`. The last field is a history
variable: the connection installed last under each name. -/
structure PluginRegistry where
  plugins : Entries String PluginSlot
  nextConnId : Nat
  tasks : List (String × Tenancy.Phase)
  newest : String → Option Nat

namespace PluginRegistry

def empty : PluginRegistry := ⟨.empty, 0, [], fun _ => none⟩

def disconnect (plugins : Entries String PluginSlot) (plugin : String) (connId : Nat) :
    Entries String PluginSlot :=
  match plugins.get? plugin with
  | some (_, slot) =>
    if slot.connId = connId then plugins.insert plugin { slot with connected := false } else plugins
  | none => plugins

def act (i : Nat) (σ : PluginRegistry) : Option PluginRegistry :=
  match σ.tasks[i]? with
  | some (plugin, .arriving) =>
    some { σ with
      nextConnId := σ.nextConnId + 1
      tasks := σ.tasks.set i (plugin, .stamped σ.nextConnId) }
  | some (plugin, .stamped connId) =>
    some { σ with
      plugins := σ.plugins.insert plugin ⟨connId, true⟩
      newest := Function.update σ.newest plugin (some connId)
      tasks := σ.tasks.set i (plugin, .running connId) }
  | some (plugin, .running connId) =>
    some { σ with tasks := σ.tasks.set i (plugin, .closing connId) }
  | some (plugin, .closing connId) =>
    some { σ with
      plugins := disconnect σ.plugins plugin connId
      tasks := σ.tasks.set i (plugin, .gone) }
  | _ => none

inductive Move
  | arrive (plugin : String)
  | act (i : Nat)
  deriving DecidableEq, Repr

def step : Move → PluginRegistry → Option PluginRegistry
  | .arrive plugin, σ => some { σ with tasks := σ.tasks ++ [(plugin, .arriving)] }
  | .act i, σ => σ.act i

def current (plugins : Entries String PluginSlot) (plugin : String) : Option Nat :=
  ((plugins.get? plugin).filter (fun e => e.2.connected)).map (fun e => e.2.connId)

def hall (σ : PluginRegistry) : Tenancy.Hall String where
  holder := current σ.plugins
  next := σ.nextConnId
  guests := σ.tasks
  newest := σ.newest

theorem current_insert (plugins : Entries String PluginSlot) (plugin : String) (slot : PluginSlot) :
    current (plugins.insert plugin slot) =
      Function.update (current plugins) plugin
      (if slot.connected then some slot.connId else none) := by
  funext name
  unfold current
  rw [Entries.get?_insert]
  by_cases same : name = plugin
  · subst same
    rw [if_pos rfl, update_self, filter_some]
    cases slot.connected with
    | true => rfl
    | false => rfl
  · rw [if_neg same, update_of_ne same]

theorem current_eq_some {plugins : Entries String PluginSlot} {plugin : String} {connId : Nat} :
    current plugins plugin = some connId ↔
      ∃ e, plugins.get? plugin = some e ∧ e.2.connected = true ∧ e.2.connId = connId := by
  unfold current
  rw [map_eq_some_iff]
  refine exists_congr fun e => ?_
  rw [filter_eq_some_iff, and_assoc]

theorem current_disconnect (plugins : Entries String PluginSlot) (plugin : String) (connId : Nat) :
    current (disconnect plugins plugin connId) =
      if current plugins plugin = some connId then Function.update (current plugins) plugin none
      else current plugins := by
  unfold disconnect
  cases entry : plugins.get? plugin with
  | none =>
    have absent : current plugins plugin ≠ some connId := by
      intro there
      obtain ⟨e, found, -⟩ := current_eq_some.mp there
      rw [entry] at found
      cases found
    rw [if_neg absent]
  | some e =>
    dsimp only
    by_cases mine : e.2.connId = connId
    · rw [if_pos mine, current_insert, if_neg Bool.false_ne_true]
      split_ifs with there
      · rfl
      · -- The handle was marked before, so that nothing reaches it either way.
        have silent : current plugins plugin = none := by
          unfold current at there ⊢
          rw [entry, filter_some] at there ⊢
          split_ifs at there ⊢ with connected
          · exact absurd (congrArg some mine) there
          · rfl
        rw [← silent, update_eq_self]
    · have another : current plugins plugin ≠ some connId := by
        intro there
        obtain ⟨e', found, -, same⟩ := current_eq_some.mp there
        rw [entry] at found
        cases found
        exact mine same
      rw [if_neg mine, if_neg another]

theorem act_refines {σ σ' : PluginRegistry} {i : Nat} (step : σ.act i = some σ') :
    σ.hall.act false i = some σ'.hall := by
  unfold act at step
  have guests : σ.hall.guests = σ.tasks := rfl
  rw [Tenancy.Hall.act, guests]
  cases found : σ.tasks[i]? with
  | none =>
    rw [found] at step
    cases step
  | some task =>
    obtain ⟨plugin, p⟩ := task
    rw [found] at step
    cases p with
    | arriving | running t =>
      cases step
      rfl
    | stamped t =>
      cases step
      simp [hall, current_insert]
    | closing t =>
      cases step
      simp only [hall, current_disconnect]
      congr
    | gone | refused => cases step

structure Inv (σ : PluginRegistry) : Prop where
  hall : σ.hall.Inv false
  latest : ∀ plugin, (σ.plugins.get? plugin).map (fun e => e.2.connId) = σ.newest plugin

theorem disconnect_displaced {plugins : Entries String PluginSlot} {plugin : String} {connId : Nat}
    (displaced : (plugins.get? plugin).map (fun e => e.2.connId) ≠ some connId) :
    disconnect plugins plugin connId = plugins := by
  unfold disconnect
  cases entry : plugins.get? plugin with
  | none => rfl
  | some e =>
    rw [entry] at displaced
    have other : e.2.connId ≠ connId := fun same => displaced (congrArg some same)
    exact if_neg other

theorem connId_disconnect (plugins : Entries String PluginSlot) (plugin name : String)
    (connId : Nat) : ((disconnect plugins plugin connId).get? name).map (fun e => e.2.connId) =
      (plugins.get? name).map (fun e => e.2.connId) := by
  unfold disconnect
  cases entry : plugins.get? plugin with
  | none => rfl
  | some e =>
    dsimp only
    split_ifs with mine
    · rw [Entries.get?_insert]
      split_ifs with same
      · rw [same, entry]
        rfl
      · rfl
    · rfl

theorem Inv.act {σ σ' : PluginRegistry} {i : Nat} (inv : σ.Inv) (step : σ.act i = some σ') :
    σ'.Inv := by
  refine ⟨inv.hall.act (act_refines step), fun name => ?_⟩
  unfold PluginRegistry.act at step
  split at step
  · cases step
    exact inv.latest name
  · rename_i plugin t here
    cases step
    dsimp only
    rw [Entries.get?_insert]
    by_cases same : name = plugin
    · rw [if_pos same, same, update_self]
      rfl
    · rw [if_neg same, update_of_ne same]
      exact inv.latest name
  · cases step
    exact inv.latest name
  · cases step
    exact (connId_disconnect ..).trans (inv.latest name)
  · cases step

theorem Inv.step {σ σ' : PluginRegistry} {a : Move} (step : PluginRegistry.step a σ = some σ')
    (inv : σ.Inv) : σ'.Inv := by
  cases a with
  | arrive plugin =>
    cases step
    exact ⟨inv.hall.arrive plugin, inv.latest⟩
  | act i => exact inv.act step

def Quiescent (σ : PluginRegistry) : Prop :=
  ∀ task ∈ σ.tasks, (∃ t, task.2 = .running t) ∨ task.2 = .gone ∨ task.2 = .refused

structure Sound (σ : PluginRegistry) : Prop where
  /-- A set-up takes the name, whoever holds it. -/
  takes : ∀ (i : Nat) (plugin : String) (t : Nat) (σ' : PluginRegistry),
    σ.tasks[i]? = some (plugin, .stamped t) → σ.act i = some σ' → current σ'.plugins plugin = some t
  /-- The tear-down of a displaced connection changes nothing in the map. -/
  displaced : ∀ (i : Nat) (plugin : String) (t : Nat) (σ' : PluginRegistry),
    σ.tasks[i]? = some (plugin, .closing t) → σ.newest plugin ≠ some t → σ.act i = some σ' →
      σ'.plugins = σ.plugins
  /-- The newest connection of a name is reached for as long as it is not torn down. -/
  reachable : ∀ (i : Nat) (plugin : String) (p : Tenancy.Phase) (t : Nat),
    σ.tasks[i]? = some (plugin, p) → p.Inside t → σ.newest plugin = some t →
      current σ.plugins plugin = some t
  /-- In a quiet state a name is connected exactly when its newest connection is still running. -/
  connected : σ.Quiescent → ∀ plugin, (current σ.plugins plugin).isSome = true ↔
    ∃ (i : Nat) (t : Nat), σ.newest plugin = some t ∧ σ.tasks[i]? = some (plugin, .running t)

theorem sound_of_inv {σ : PluginRegistry} (inv : σ.Inv) : σ.Sound where
  takes := by
    intro i plugin t σ' found step
    unfold act at step
    rw [found] at step
    cases step
    rw [current_insert, update_self, if_pos rfl]
  displaced := by
    intro i plugin t σ' found other step
    unfold act at step
    rw [found] at step
    cases step
    refine disconnect_displaced ?_
    rw [inv.latest]
    exact other
  reachable := by
    intro i plugin p t found inside newest
    exact (inv.hall.held plugin t).mpr ⟨newest, i, p, found, inside⟩
  connected := by
    intro quiet plugin
    have quietHall : σ.hall.Quiescent := fun i k p there => quiet (k, p) (mem_of_getElem? there)
    have held := inv.hall.quiescent quietHall plugin
    rw [exists_comm] at held
    exact held

end PluginRegistry

/-- Both registries, after any interleaving of set-ups and tear-downs. -/
theorem connection_registries_sound :
    (∀ (moves : List FedRegistry.Move) (σ : FedRegistry),
        runAll FedRegistry.step moves .empty = some σ → σ.Sound) ∧
      ∀ (moves : List PluginRegistry.Move) (σ : PluginRegistry),
        runAll PluginRegistry.step moves .empty = some σ → σ.Sound := by
  constructor
  · intro moves σ reached
    apply FedRegistry.sound_of_inv
    exact runAll_invariant (fun σ : FedRegistry => σ.hall.Inv true)
      (fun _ _ _ => FedRegistry.inv_step) reached Tenancy.Hall.inv_empty
  · intro moves σ reached
    apply PluginRegistry.sound_of_inv
    exact runAll_invariant PluginRegistry.Inv (fun _ _ _ => PluginRegistry.Inv.step) reached
      ⟨Tenancy.Hall.inv_empty, fun _ => rfl⟩

/-- Two crossed dials, of which the second is refused; and a plugin that reconnects before the task
of its old connection is torn down. -/
theorem connection_registries_sound_overlapping :
    (∃ σ, runAll FedRegistry.step
        [.arrive "phoenix" "rf:aa", .arrive "phoenix" "rf:aa", .act 0, .act 1, .act 0,
          .act 1, .act 0] .empty = some σ ∧
        σ.tasks.map (fun task => task.phase) = [.running 0, .refused] ∧ σ.Sound) ∧
      ∃ σ, runAll PluginRegistry.step
        [.arrive "meshcore", .act 0, .act 0, .arrive "meshcore", .act 1, .act 1, .act 0, .act 0]
          .empty = some σ ∧
        PluginRegistry.current σ.plugins "meshcore" = some 1 ∧ σ.Sound := by
  obtain ⟨σ, reached, phases⟩ : ∃ σ, runAll FedRegistry.step
      [.arrive "phoenix" "rf:aa", .arrive "phoenix" "rf:aa", .act 0, .act 1, .act 0, .act 1, .act 0]
        .empty = some σ ∧ σ.tasks.map (fun task => task.phase) = [.running 0, .refused] := by
    decide +kernel
  obtain ⟨τ, reached', current⟩ : ∃ σ, runAll PluginRegistry.step
      [.arrive "meshcore", .act 0, .act 0, .arrive "meshcore", .act 1, .act 1, .act 0, .act 0]
        .empty = some σ ∧ PluginRegistry.current σ.plugins "meshcore" = some 1 := by
    decide +kernel
  exact ⟨⟨σ, reached, phases, connection_registries_sound.1 _ σ reached⟩,
    ⟨τ, reached', current, connection_registries_sound.2 _ τ reached'⟩⟩

end RelayFabric
