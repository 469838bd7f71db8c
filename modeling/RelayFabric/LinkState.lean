/- source: fed/conn.rs (display_peer_key, register_up, register_down), metrics.rs
   digest: What the peer gauge and the federation events say of the links. -/

import RelayFabric.Lib.Board
import RelayFabric.Registry

namespace RelayFabric

open List Lib Option Function

structure LinkEvent where
  peer : String
  up : Bool
  deriving DecidableEq, Repr

namespace TaskPhase

/-- From the gauge update of `register_up` to the end of the connection's loop. -/
def isRunning : TaskPhase → Bool
  | .running _ => true
  | _ => false

def isUp : TaskPhase → Bool
  | .running _ | .closing _ | .removed => true
  | _ => false

def report (label : String) : TaskPhase → Option LinkEvent
  | .installed _ => some ⟨label, true⟩
  | .removed => some ⟨label, false⟩
  | _ => none

theorem isUp_of_isRunning {p : TaskPhase} (running : p.isRunning = true) : p.isUp = true := by
  cases p with
  | running t => rfl
  | _ => cases running

end TaskPhase

def FedRegistry.report (σ : FedRegistry) (i : Nat) : Option LinkEvent :=
  (σ.tasks[i]?).bind (fun task => task.phase.report (displayPeerKey task.peerKey))

/-- The registry with the events emitted so far, newest first, and the event that a task emits
next: it has updated the gauge and is not out of its call yet. -/
structure LinkState where
  registry : FedRegistry
  events : List LinkEvent
  owed : Nat → Option LinkEvent

namespace LinkState

def empty : LinkState := ⟨.empty, [], fun _ => none⟩

/-- The registry's lock, the gauge and the event are three sections of a call. -/
def step : FedRegistry.Move → LinkState → Option LinkState
  | .arrive peerKey nodeId, s =>
    (FedRegistry.step (.arrive peerKey nodeId) s.registry).map (fun σ => { s with registry := σ })
  | .act i, s =>
    match s.owed i with
    | some event =>
      some { s with events := event :: s.events, owed := Function.update s.owed i none }
    | none => (s.registry.act i).map (fun σ =>
        { s with registry := σ, owed := Function.update s.owed i (s.registry.report i) })

def gauge (s : LinkState) (label : String) : Option Bool :=
  (s.registry.peersUp.get? label).map Prod.snd

def lastEvent (s : LinkState) (label : String) : Option Bool :=
  (s.events.find? (fun event => event.peer = label)).map LinkEvent.up

def Live (s : LinkState) (label : String) : Prop :=
  ∃ key, (s.registry.conns.get? key).isSome = true ∧ displayPeerKey key = label

def Settled (s : LinkState) : Prop :=
  s.registry.Quiescent ∧ ∀ i < s.registry.tasks.length, s.owed i = none

/-- The gauge is 1 exactly when a connection is live, and so told the last event. -/
def Agrees (s : LinkState) (label : String) : Prop :=
  (s.gauge label = some true ↔ s.Live label) ∧
    (s.lastEvent label = some true ↔ s.gauge label = some true)

/-- A report that a label is down is made while no connection of the label runs. -/
def Timely : FedRegistry.Move → LinkState → Prop
  | .arrive _ _, _ => True
  | .act i, s => ∀ event ∈ (s.owed i).or (s.registry.report i), event.up = false →
      ∀ task ∈ s.registry.tasks, displayPeerKey task.peerKey = event.peer →
        task.phase.isRunning = false

instance (a : FedRegistry.Move) (s : LinkState) : Decidable (Timely a s) :=
  match a with
  | .arrive _ _ => isTrue trivial
  | .act i => inferInstanceAs (Decidable (∀ event ∈ (s.owed i).or (s.registry.report i), _))

def voice (σ : FedRegistry) (i : Nat) : Option (String × TaskPhase) :=
  (σ.tasks[i]?).map (fun task => (displayPeerKey task.peerKey, task.phase))

def Voiced (σ : FedRegistry) (pick : TaskPhase → Bool) (i : Nat) (label : String) : Prop :=
  ∃ p, voice σ i = some (label, p) ∧ pick p = true

structure Reporting (s : LinkState) : Prop where
  hall : s.registry.hall.Inv true
  owes : ∀ i event, s.owed i = some event → ∃ p, voice s.registry i = some (event.peer, p) ∧
    (event.up = true → p.isRunning = true)
  gauge : Shows s.gauge (Voiced s.registry TaskPhase.isRunning) (Voiced s.registry TaskPhase.isUp)
  events : Shows s.lastEvent (fun i label => Voiced s.registry TaskPhase.isRunning i label ∧
    s.owed i = none)
    (fun i label => Voiced s.registry TaskPhase.isUp i label ∨ s.owed i = some ⟨label, false⟩)

variable {s : LinkState} {σ σ' : FedRegistry} {i j : Nat} {label name : String} {p q : TaskPhase}
  {pick : TaskPhase → Bool}

theorem gauge_set {up : Bool} {events : List LinkEvent} {owed : Nat → Option LinkEvent}
    (set : σ.peersUp = setFederationPeerUp s.registry.peersUp name up) :
    gauge ⟨σ, events, owed⟩ = Function.update s.gauge name (some up) := by
  funext label
  unfold gauge
  rw [set, setFederationPeerUp, Entries.get?_insert]
  by_cases same : label = name
  · rw [if_pos same, same, update_self]
    rfl
  · rw [if_neg same, update_of_ne same]

theorem lastEvent_cons (event : LinkEvent) (owed : Nat → Option LinkEvent) :
    lastEvent ⟨s.registry, event :: s.events, owed⟩ =
      Function.update s.lastEvent event.peer (some event.up) := by
  funext label
  unfold lastEvent
  rw [List.find?_cons]
  by_cases same : event.peer = label
  · rw [same, update_self]
    simp
  · rw [update_of_ne (Ne.symm same)]
    simp [same]

theorem voice_set {task : ConnTask} (found : σ.tasks[i]? = some task)
    (tasks : σ'.tasks = σ.tasks.set i { task with phase := q }) :
    voice σ' = Function.update (voice σ) i (some (displayPeerKey task.peerKey, q)) := by
  funext j
  unfold voice
  rw [tasks]
  by_cases same : j = i
  · rw [same, update_self, List.getElem?_set_self (List.getElem?_eq_some_iff.mp found).1]
    rfl
  · rw [update_of_ne same, List.getElem?_set_ne (Ne.symm same)]

theorem voice_arrive (σ : FedRegistry) (peerKey nodeId : String) :
    voice { σ with tasks := σ.tasks ++ [⟨peerKey, nodeId, .arriving⟩] } =
      Function.update (voice σ) σ.tasks.length (some (displayPeerKey peerKey, .arriving)) := by
  funext j
  unfold voice
  rw [List.getElem?_append]
  rcases Nat.lt_trichotomy j σ.tasks.length with below | rfl | above
  · rw [if_pos below, update_of_ne below.ne]
  · rw [if_neg (Nat.lt_irrefl _), update_self, Nat.sub_self]
    rfl
  · rw [if_neg above.not_gt, update_of_ne above.ne', List.getElem?_eq_none above.le,
      List.getElem?_eq_none (by rw [length_singleton]; omega)]

section Moved

variable (moved : voice σ' = Function.update (voice σ) i (some (name, q)))

include moved

theorem voiced_ne (apart : j ≠ i) : Voiced σ' pick j label ↔ Voiced σ pick j label := by
  unfold Voiced
  rw [moved, update_of_ne apart]

theorem voiced_self : Voiced σ' pick i label ↔ label = name ∧ pick q = true := by
  unfold Voiced
  rw [moved, update_self]
  constructor
  · rintro ⟨p, same, picked⟩
    cases same
    exact ⟨rfl, picked⟩
  · rintro ⟨rfl, picked⟩
    exact ⟨q, rfl, picked⟩

theorem voiced_other (here : ∀ label p, voice σ i = some (label, p) → label = name)
    (apart : label ≠ name) : Voiced σ' pick j label ↔ Voiced σ pick j label := by
  by_cases same : j = i
  · subst same
    rw [voiced_self moved]
    constructor
    · exact fun there => absurd there.1 apart
    · rintro ⟨p, there, -⟩
      exact absurd (here label p there) apart
  · exact voiced_ne moved same

end Moved

theorem Voiced.up (running : Voiced σ TaskPhase.isRunning i label) :
    Voiced σ TaskPhase.isUp i label := by
  obtain ⟨p, there, holds⟩ := running
  exact ⟨p, there, TaskPhase.isUp_of_isRunning holds⟩

theorem Reporting.emit (kept : Reporting s) {event : LinkEvent} (due : s.owed i = some event)
    (timely : Timely (.act i) s) :
    Reporting { s with events := event :: s.events, owed := Function.update s.owed i none } := by
  obtain ⟨p, there, rising⟩ := kept.owes i event due
  have own {label : String} {pick : TaskPhase → Bool} (voiced : Voiced s.registry pick i label) :
      label = event.peer := by
    obtain ⟨q, same, -⟩ := voiced
    exact (Prod.mk.inj (Option.some.inj (same.symm.trans there))).1
  refine ⟨kept.hall, fun j other owes => ?_, kept.gauge, ?_⟩
  · change Function.update s.owed i none j = some other at owes
    by_cases same : j = i
    · rw [same, update_self] at owes
      cases owes
    · rw [update_of_ne same] at owes
      exact kept.owes j other owes
  rw [lastEvent_cons]
  refine kept.events.report (fun j loud => ?_) (fun j label apart loud => ?_)
    (fun j label apart heard => heard.imp_right (fun owes => ?_))
    (fun up => ⟨i, Or.inl ⟨p, there, TaskPhase.isUp_of_isRunning (rising up)⟩⟩)
  · -- a report that is made while a connection of its label runs is not of an end
    by_contra down
    obtain ⟨q, voiced, running⟩ := loud.1
    obtain ⟨task, found, same⟩ := map_eq_some_iff.mp voiced
    obtain ⟨named, rfl⟩ := Prod.mk.inj same
    have idle := timely event (by rw [due]; rfl) (Bool.eq_false_of_not_eq_true down) task
      (mem_of_getElem? found) named
    cases idle.symm.trans running
  · refine ⟨loud.1, ?_⟩
    have elsewhere : j ≠ i := by
      rintro rfl
      exact apart (own loud.1)
    exact (update_of_ne elsewhere _ _).symm.trans loud.2
  · have elsewhere : j ≠ i := by
      rintro rfl
      exact apart (congrArg LinkEvent.peer (Option.some.inj (due.symm.trans owes))).symm
    exact (update_of_ne elsewhere _ _).trans owes

inductive Tells (σ σ' : FedRegistry) (name : String) (p q : TaskPhase) : Prop
  | nothing (silent : p.report name = none) (gauge : σ'.peersUp = σ.peersUp)
      (idle : q.isRunning = false) (keeps : p.isUp = true → q.isUp = true)
  | reports (up : Bool) (told : p.report name = some ⟨name, up⟩)
      (gauge : σ'.peersUp = setFederationPeerUp σ.peersUp name up) (starts : q.isRunning = up)

theorem tells_of_act (inv : σ.hall.Inv true) (step : σ.act i = some σ') :
    ∃ name p q, voice σ i = some (name, p) ∧ voice σ' = Function.update (voice σ) i
      (some (name, q)) ∧ σ.report i = p.report name ∧ Tells σ σ' name p q := by
  obtain ⟨task, found, acts⟩ := FedRegistry.acts_of_act step
  have there : voice σ i = some (displayPeerKey task.peerKey, task.phase) := by
    unfold voice
    rw [found, map_some]
  have report : σ.report i = task.phase.report (displayPeerKey task.peerKey) := by
    unfold FedRegistry.report
    rw [found, bind_some]
  cases acts with
  | rise here =>
    exact ⟨_, _, _, there, voice_set found rfl, report, .reports true (by rw [here]; rfl) rfl rfl⟩
  | fall here =>
    exact ⟨_, _, _, there, voice_set found rfl, report, .reports false (by rw [here]; rfl) rfl rfl⟩
  | displaced here other =>
    -- the tear-down of a registered connection finds its own entry
    have entry := (FedRegistry.sound_of_inv inv).reachable i task _ found (Or.inr (Or.inr here))
    exact absurd (map_eq_some_iff.mpr entry) other
  | _ here =>
    refine ⟨_, _, _, there, voice_set found rfl, report, .nothing (by rw [here]; rfl) rfl rfl ?_⟩
    simp [here, TaskPhase.isUp]

theorem Reporting.act (kept : Reporting s) (silent : s.owed i = none)
    (step : s.registry.act i = some σ) (timely : Timely (.act i) s) :
    Reporting { s with registry := σ, owed := Function.update s.owed i (s.registry.report i) } := by
  obtain ⟨name, p, q, there, moved, report, tells⟩ := tells_of_act kept.hall step
  have own : ∀ label p, voice s.registry i = some (label, p) → label = name :=
    fun label p same => (Prod.mk.inj (Option.some.inj (same.symm.trans there))).1
  have before {pick : TaskPhase → Bool} {label : String} (voiced : Voiced s.registry pick i label) :
      label = name ∧ pick p = true := by
    obtain ⟨p', same, picked⟩ := voiced
    obtain ⟨rfl, rfl⟩ := Prod.mk.inj (Option.some.inj (same.symm.trans there))
    exact ⟨rfl, picked⟩
  refine ⟨FedRegistry.inv_step (a := .act i) step kept.hall, fun j event owes => ?_, ?_, ?_⟩
  · change Function.update s.owed i (s.registry.report i) j = some event at owes
    change ∃ p, voice σ j = some (event.peer, p) ∧ (event.up = true → p.isRunning = true)
    rw [moved]
    by_cases same : j = i
    · rw [same, update_self, report] at owes
      rw [same, update_self]
      cases tells with
      | nothing quiet gauge idle keeps => cases quiet.symm.trans owes
      | reports up told gauge starts =>
        obtain rfl := Option.some.inj (told.symm.trans owes)
        exact ⟨q, rfl, fun rises => starts.trans rises⟩
    · rw [update_of_ne same] at owes ⊢
      exact kept.owes j event owes
  · cases tells with
    | nothing quiet gauge idle keeps =>
      have same : LinkState.gauge ⟨σ, s.events, Function.update s.owed i (s.registry.report i)⟩ =
          s.gauge := by
        funext label
        unfold LinkState.gauge
        rw [gauge]
      rw [same]
      refine kept.gauge.quiet (fun j label loud => ?_) (fun j label heard => ?_)
      · by_cases at_ : j = i
        · subst at_
          cases idle.symm.trans ((voiced_self moved).mp loud).2
        · exact (voiced_ne moved at_).mp loud
      · by_cases at_ : j = i
        · subst at_
          exact (voiced_self moved).mpr ((before heard).imp_right keeps)
        · exact (voiced_ne moved at_).mpr heard
    | reports up told gauge starts =>
      rw [gauge_set gauge]
      refine kept.gauge.report (fun j loud => ?_)
        (fun j label apart => (voiced_other moved own apart).mp)
        (fun j label apart => (voiced_other moved own apart).mpr)
        (fun rises => ⟨i, Voiced.up ((voiced_self moved).mpr ⟨rfl, starts.trans rises⟩)⟩)
      by_cases at_ : j = i
      · subst at_
        exact starts.symm.trans ((voiced_self moved).mp loud).2
      · by_contra down
        obtain ⟨p', voiced, running⟩ := (voiced_ne moved at_).mp loud
        obtain ⟨task, found, same⟩ := map_eq_some_iff.mp voiced
        obtain ⟨named, rfl⟩ := Prod.mk.inj same
        have idle := timely ⟨name, up⟩ (by rw [silent, none_or, report, told]; rfl)
          (Bool.eq_false_of_not_eq_true down) task (mem_of_getElem? found) named
        cases idle.symm.trans running
  · refine kept.events.quiet (fun j label loud => ?_) (fun j label heard => ?_)
    · obtain ⟨running, quiet⟩ := loud
      change Function.update s.owed i (s.registry.report i) j = none at quiet
      by_cases at_ : j = i
      · subst at_
        rw [update_self, report] at quiet
        have starts := ((voiced_self moved).mp running).2
        cases tells with
        | nothing silent gauge idle keeps => cases idle.symm.trans starts
        | reports up told gauge begins => cases told.symm.trans quiet
      · rw [update_of_ne at_] at quiet
        exact ⟨(voiced_ne moved at_).mp running, quiet⟩
    · change Voiced σ TaskPhase.isUp j label ∨ Function.update s.owed i (s.registry.report i) j = _
      by_cases at_ : j = i
      · subst at_
        rw [update_self, report, voiced_self moved]
        rcases heard with voiced | owes
        · obtain ⟨rfl, up⟩ := before voiced
          cases tells with
          | nothing quiet gauge idle keeps => exact Or.inl ⟨rfl, keeps up⟩
          | reports up told gauge starts =>
            cases up with
            | true => exact Or.inl ⟨rfl, TaskPhase.isUp_of_isRunning starts⟩
            | false => exact Or.inr told
        · cases silent.symm.trans owes
      · rw [voiced_ne moved at_, update_of_ne at_]
        exact heard

theorem Reporting.arrive (kept : Reporting s) (peerKey nodeId : String) :
    Reporting { s with registry :=
      { s.registry with tasks := s.registry.tasks ++ [⟨peerKey, nodeId, .arriving⟩] } } := by
  have moved := voice_arrive s.registry peerKey nodeId
  have nobody : voice s.registry s.registry.tasks.length = none := by
    unfold voice
    rw [List.getElem?_eq_none le_rfl]
    rfl
  have loud {j : Nat} {label : String} (running : Voiced { s.registry with
      tasks := s.registry.tasks ++ [⟨peerKey, nodeId, .arriving⟩] } TaskPhase.isRunning j label) :
      Voiced s.registry TaskPhase.isRunning j label := by
    by_cases same : j = s.registry.tasks.length
    · subst same
      cases ((voiced_self moved).mp running).2
    · exact (voiced_ne moved same).mp running
  have older {j : Nat} {pair : String × TaskPhase} (there : voice s.registry j = some pair) :
      j ≠ s.registry.tasks.length := by
    rintro rfl
    cases nobody.symm.trans there
  have heard {j : Nat} {label : String} (up : Voiced s.registry TaskPhase.isUp j label) :
    Voiced { s.registry with
      tasks := s.registry.tasks ++ [⟨peerKey, nodeId, .arriving⟩] } TaskPhase.isUp j label := by
    obtain ⟨p, there, -⟩ := id up
    exact (voiced_ne moved (older there)).mpr up
  refine ⟨FedRegistry.inv_step (a := .arrive peerKey nodeId) rfl kept.hall, fun j event owes => ?_,
    kept.gauge.quiet (fun _ _ => loud) (fun _ _ => heard),
    kept.events.quiet (fun _ _ => And.imp_left loud) (fun _ _ => Or.imp_left heard)⟩
  obtain ⟨p, there, rising⟩ := kept.owes j event owes
  refine ⟨p, ?_, rising⟩
  rw [moved, update_of_ne (older there)]
  exact there

theorem Reporting.step {a : FedRegistry.Move} {s' : LinkState} (timely : Timely a s)
    (step : LinkState.step a s = some s') (kept : Reporting s) : Reporting s' := by
  cases a with
  | arrive peerKey nodeId =>
    cases step
    exact kept.arrive ..
  | act i =>
    dsimp only [LinkState.step] at step
    cases due : s.owed i with
    | some event =>
      rw [due] at step
      cases step
      exact kept.emit due timely
    | none =>
      rw [due] at step
      obtain ⟨σ, acts, rfl⟩ := map_eq_some_iff.mp step
      exact kept.act due acts timely

theorem reporting_empty : Reporting .empty := by
  have nobody {pick : TaskPhase → Bool} {j : Nat} {label : String} :
      ¬Voiced FedRegistry.empty pick j label := by
    rintro ⟨p, there, -⟩
    cases there
  refine ⟨Tenancy.Hall.inv_empty, ?_, ⟨fun _ _ loud => absurd loud nobody, ?_⟩,
    ⟨fun _ _ loud => absurd loud.1 nobody, ?_⟩⟩
  · intro i event owes
    cases owes
  · intro label up
    cases up
  · intro label said
    cases said

theorem Reporting.live_iff (kept : Reporting s) (quiet : s.registry.Quiescent) (label : String) :
    s.Live label ↔ ∃ i, Voiced s.registry TaskPhase.isRunning i label := by
  have sound := FedRegistry.sound_of_inv kept.hall
  constructor
  · rintro ⟨key, present, rfl⟩
    obtain ⟨i, task, t, -, found, rfl, running⟩ := (sound.present quiet key).mp present
    refine ⟨i, .running t, ?_, rfl⟩
    unfold voice
    rw [found, ← running]
    rfl
  · rintro ⟨i, p, there, running⟩
    obtain ⟨task, found, same⟩ := map_eq_some_iff.mp there
    obtain ⟨named, rfl⟩ := Prod.mk.inj same
    rcases quiet task (mem_of_getElem? found) with ⟨t, here⟩ | gone | refused
    · obtain ⟨e, entry, -⟩ := sound.reachable i task t found (Or.inr (Or.inl here))
      exact ⟨task.peerKey, by rw [entry]; rfl, named⟩
    · rw [gone] at running
      cases running
    · rw [refused] at running
      cases running

theorem Voiced.running (quiet : σ.Quiescent) (up : Voiced σ TaskPhase.isUp i label) :
    Voiced σ TaskPhase.isRunning i label := by
  obtain ⟨p, there, holds⟩ := up
  obtain ⟨task, found, same⟩ := map_eq_some_iff.mp there
  obtain ⟨-, rfl⟩ := Prod.mk.inj same
  refine ⟨task.phase, there, ?_⟩
  rcases quiet task (mem_of_getElem? found) with ⟨t, here⟩ | gone | refused
  · rw [here]
    rfl
  · rw [gone] at holds
    cases holds
  · rw [refused] at holds
    cases holds

/-- Where every report of an end comes while no connection of its label runs, gauge and events
agree with the registry in every state without a call in progress. -/
theorem link_state_agrees {moves : List FedRegistry.Move}
    (timely : Meets LinkState.step Timely moves .empty)
    (reached : runAll LinkState.step moves .empty = some s) (settled : s.Settled) (label : String) :
    s.Agrees label := by
  have kept : Reporting s := runAll_preserves Reporting (fun _ _ _ => Reporting.step) moves .empty s
    timely reached reporting_empty
  have done {i : Nat} {pick : TaskPhase → Bool} (voiced : Voiced s.registry pick i label) :
      s.owed i = none := by
    obtain ⟨p, there, -⟩ := voiced
    obtain ⟨task, found, -⟩ := map_eq_some_iff.mp there
    exact settled.2 i (List.getElem?_eq_some_iff.mp found).1
  have gauge : s.gauge label = some true ↔ s.Live label := by
    rw [kept.live_iff settled.1]
    constructor
    · intro up
      obtain ⟨i, heard⟩ := kept.gauge.lowered label up
      exact ⟨i, heard.running settled.1⟩
    · rintro ⟨i, running⟩
      exact kept.gauge.raised i label running
  refine ⟨gauge, ?_⟩
  rw [gauge, kept.live_iff settled.1]
  constructor
  · intro said
    obtain ⟨i, heard | owes⟩ := kept.events.lowered label said
    · exact ⟨i, heard.running settled.1⟩
    · obtain ⟨p, there, -⟩ := kept.owes i _ owes
      have voiced : Voiced s.registry (fun _ => true) i label := ⟨p, there, rfl⟩
      cases (done voiced).symm.trans owes
  · rintro ⟨i, running⟩
    exact kept.events.raised i label ⟨running, done running⟩

theorem quiescent_iff (σ : FedRegistry) : σ.Quiescent ↔
    ∀ task ∈ σ.tasks, task.phase.isRunning = true ∨ task.phase = .gone ∨ task.phase = .refused := by
  refine forall₂_congr fun task _ => or_congr_left ?_
  cases task.phase <;> simp [TaskPhase.isRunning]

instance (s : LinkState) : Decidable s.Settled :=
  haveI : Decidable s.registry.Quiescent := decidable_of_iff _ (quiescent_iff s.registry).symm
  inferInstanceAs (Decidable (_ ∧ _))

def redial : List FedRegistry.Move :=
  .arrive "phoenix" "rf:aa" :: List.replicate 8 (.act 0) ++
    .arrive "phoenix" "rf:aa" :: List.replicate 4 (.act 1)

theorem link_state_agrees_redial : ∃ s, runAll LinkState.step redial .empty = some s ∧
    s.gauge "phoenix" = some true ∧ s.Agrees "phoenix" := by
  have timely : Meets LinkState.step Timely redial .empty := by decide +kernel
  obtain ⟨s, reached, settled, up⟩ : ∃ s, runAll LinkState.step redial .empty = some s ∧ s.Settled ∧
      s.gauge "phoenix" = some true := by decide +kernel
  exact ⟨s, reached, up, link_state_agrees timely reached settled "phoenix"⟩

def overtaken : List FedRegistry.Move :=
  .arrive "phoenix" "rf:aa" :: List.replicate 6 (.act 0) ++
    .arrive "phoenix" "rf:aa" :: List.replicate 4 (.act 1) ++ List.replicate 2 (.act 0)

def nodeA : String := "rf:aaaaaaaa00000000000000000000000000000000000000000000000000000000"

def nodeB : String := "rf:aaaaaaaa11111111111111111111111111111111111111111111111111111111"

def colliding : List FedRegistry.Move :=
  .arrive nodeA nodeA :: List.replicate 4 (.act 0) ++
    .arrive nodeB nodeB :: List.replicate 4 (.act 1) ++ List.replicate 4 (.act 0)

/-- After both runs a connection is live that the gauge and the last event call down. -/
theorem live_link_reported_down :
    (∃ s, runAll LinkState.step overtaken .empty = some s ∧ s.Settled ∧ s.Live "phoenix" ∧
        s.gauge "phoenix" = some false ∧ s.lastEvent "phoenix" = some false ∧ ¬s.Agrees "phoenix") ∧
      ∃ s, runAll LinkState.step colliding .empty = some s ∧ s.Settled ∧ s.Live "aaaaaaaa" ∧
        s.gauge "aaaaaaaa" = some false ∧ s.lastEvent "aaaaaaaa" = some false ∧
        ¬s.Agrees "aaaaaaaa" := by
  have wrong {s : LinkState} {label : String} (live : s.Live label)
      (down : s.gauge label = some false) : ¬s.Agrees label := by
    intro agrees
    cases down.symm.trans (agrees.1.mpr live)
  constructor
  · obtain ⟨s, reached, there, settled, named, down, said⟩ :
        ∃ s, runAll LinkState.step overtaken .empty = some s ∧
          (s.registry.conns.get? "phoenix").isSome = true ∧ s.Settled ∧
          displayPeerKey "phoenix" = "phoenix" ∧ s.gauge "phoenix" = some false ∧
          s.lastEvent "phoenix" = some false := by
      decide +kernel
    exact ⟨s, reached, settled, ⟨_, there, named⟩, down, said, wrong ⟨_, there, named⟩ down⟩
  · obtain ⟨s, reached, there, settled, named, down, said⟩ :
        ∃ s, runAll LinkState.step colliding .empty = some s ∧
          (s.registry.conns.get? nodeB).isSome = true ∧ s.Settled ∧
          displayPeerKey nodeB = "aaaaaaaa" ∧ s.gauge "aaaaaaaa" = some false ∧
          s.lastEvent "aaaaaaaa" = some false := by
      decide +kernel
    exact ⟨s, reached, settled, ⟨_, there, named⟩, down, said, wrong ⟨_, there, named⟩ down⟩

end LinkState

end RelayFabric
