/- source: alerts.rs, fed/mod.rs (warn_throttle_due)
   digest: The operator's alerts, and which outages they announce. -/

import RelayFabric.Config.Validate
import RelayFabric.Lib.Throttle

namespace RelayFabric

open List Lib

/-- One use of a key in each interval, under the map's lock; `now` is `Instant::now()`. -/
def warnThrottleDue (map : Entries String Int) (key : String) (interval now : Int) :
    Bool × Entries String Int :=
  Throttle.use interval now map key

namespace Alerts

def alertThrottle : Int := seconds 60

/-- The events of the daemon's stream; those that are never alerted on are one here. -/
inductive Event
  | plugin (name : String) (up : Bool)
  | federation (peer : String) (up : Bool)
  | other
  deriving DecidableEq, Repr

end Alerts

open Alerts

def AlertConfig.wants (cfg : AlertConfig) (category : String) : Bool :=
  cfg.events.isEmpty || cfg.events.any (fun e => e == category)

def pluginText (name : String) (up : Bool) : String :=
  s!"plugin '{name}' " ++ if up then "recovered" else "went DOWN"

def federationText (peer : String) (up : Bool) : String :=
  s!"federation peer '{peer}' " ++ if up then "reconnected" else "went DOWN"

def alertFor (cfg : AlertConfig) : Alerts.Event → Option (String × String)
  | .plugin name up =>
    if cfg.wants "plugin" then some ("plugin:" ++ name, pluginText name up) else none
  | .federation peer up =>
    if cfg.wants "federation" then some ("federation:" ++ peer, federationText peer up) else none
  | .other => none

namespace Alerts

structure Send where
  corr : Int
  endpoint : String
  kind : String
  body : String
  attachments : List IpcAttachment
  deriving DecidableEq, Repr

structure Moment where
  now : Int
  event : Event
  alerts : Option AlertConfig
  plugins : Map String PluginHandle
  channels : Map Nat (Channel Send)

end Alerts

def sendAlert (plugins : Map String PluginHandle) (channels : Map Nat (Channel Send))
    (endpoint text : String) : Option Send :=
  match alertTarget endpoint with
  | none => none
  | some (plugin, ep) =>
    match (plugins plugin).filter PluginHandle.connected with
    | none => none
    | some h =>
      let frame : Send := ⟨-1, ep, "text", "[relayfabric alert] " ++ text, []⟩
      ((channels h.tx).bind (fun c => c.trySend frame)).map (fun _ => frame)

def handleEvent (m : Moment) (throttle : Entries String Int) : Option Send × Entries String Int :=
  match m.alerts with
  | none => (none, throttle)
  | some cfg =>
    match alertFor cfg m.event with
    | none => (none, throttle)
    | some (subject, text) =>
      let due := warnThrottleDue throttle subject alertThrottle m.now
      (if due.1 then sendAlert m.plugins m.channels cfg.endpoint text else none, due.2)

namespace Alerts

def watch : List Moment → Entries String Int → List (Moment × Send) × Entries String Int
  | [], throttle => ([], throttle)
  | m :: rest, throttle =>
    let taken := handleEvent m throttle
    let later := watch rest taken.2
    (taken.1.toList.map (fun frame => (m, frame)) ++ later.1, later.2)

inductive Subject
  | plugin (name : String)
  | federation (peer : String)
  deriving DecidableEq, Repr

def Subject.event (who : Subject) (up : Bool) : Event :=
  match who with
  | .plugin name => .plugin name up
  | .federation peer => .federation peer up

def Event.subject : Event → Option Subject
  | .plugin name _ => some (.plugin name)
  | .federation peer _ => some (.federation peer)
  | .other => none

def Subject.category : Subject → String
  | .plugin _ => "plugin"
  | .federation _ => "federation"

def Subject.key : Subject → String
  | .plugin name => "plugin:" ++ name
  | .federation peer => "federation:" ++ peer

def Subject.text (who : Subject) (up : Bool) : String :=
  match who with
  | .plugin name => pluginText name up
  | .federation peer => federationText peer up

def Subject.body (who : Subject) (up : Bool) : String := "[relayfabric alert] " ++ who.text up

theorem Subject.key_injective {who other : Subject} (same : who.key = other.key) : who = other := by
  have letters := congrArg String.toList same
  cases who with
  | plugin name =>
    cases other with
    | plugin name' =>
      have equal : name.toList = name'.toList := by simpa [Subject.key] using letters
      rw [String.toList_inj.mp equal]
    | federation peer => simp [Subject.key] at letters
  | federation peer =>
    cases other with
    | plugin name => simp [Subject.key] at letters
    | federation peer' =>
      have equal : peer.toList = peer'.toList := by simpa [Subject.key] using letters
      rw [String.toList_inj.mp equal]

theorem alertFor_event (cfg : AlertConfig) (who : Subject) (up : Bool) :
    alertFor cfg (who.event up) =
      if cfg.wants who.category then some (who.key, who.text up) else none := by
  cases who <;> rfl

@[simp] theorem Event.subject_event (who : Subject) (up : Bool) :
    (who.event up).subject = some who := by
  cases who <;> rfl

theorem Event.eq_event {e : Event} {who : Subject} (about : e.subject = some who) :
    ∃ up, e = who.event up := by
  cases e with
  | other => cases about
  | plugin name up | federation peer up =>
    cases about
    exact ⟨up, rfl⟩

/-- Alerts about the moment's subject are configured, and the alert plugin is connected with room in
its channel. -/
def Moment.Ready (m : Moment) : Prop :=
  ∃ cfg plugin ep h c, m.alerts = some cfg ∧
    (∀ who, m.event.subject = some who → cfg.wants who.category) ∧
    alertTarget cfg.endpoint = some (plugin, ep) ∧ m.plugins plugin = some h ∧ h.connected = true ∧
    m.channels h.tx = some c ∧ c.room = true

theorem handleEvent_throttle (m : Moment) (throttle : Entries String Int) :
    (handleEvent m throttle).2 = throttle ∨
      ∃ who, m.event.subject = some who ∧
        (handleEvent m throttle).2 = (Throttle.use alertThrottle m.now throttle who.key).2 := by
  unfold handleEvent
  cases m.alerts with
  | none => exact Or.inl rfl
  | some cfg =>
    cases about : m.event.subject with
    | none =>
      have other : m.event = .other := by
        cases event : m.event <;> simp [event, Event.subject] at about ⊢
      rw [other]
      exact Or.inl rfl
    | some who =>
      obtain ⟨up, event⟩ := Event.eq_event about
      dsimp only
      rw [event, alertFor_event]
      by_cases wanted : cfg.wants who.category
      · rw [if_pos wanted]
        exact Or.inr ⟨who, rfl, rfl⟩
      · rw [if_neg wanted]
        exact Or.inl rfl

theorem sendAlert_room {plugins : Map String PluginHandle} {channels : Map Nat (Channel Send)}
    {endpoint plugin ep : String} {h : PluginHandle} {c : Channel Send}
    (target : alertTarget endpoint = some (plugin, ep)) (handle : plugins plugin = some h)
    (connected : h.connected = true) (channel : channels h.tx = some c) (room : c.room = true)
    (text : String) :
    sendAlert plugins channels endpoint text =
      some ⟨-1, ep, "text", "[relayfabric alert] " ++ text, []⟩ := by
  unfold sendAlert
  rw [target]
  dsimp only
  rw [handle, Option.filter_some_pos connected]
  dsimp only
  rw [channel, Option.bind_some]
  cases taken : c.trySend (⟨-1, ep, "text", "[relayfabric alert] " ++ text, []⟩ : Send) with
  | none => exact absurd (Channel.trySend_eq_none.mp taken) (by simp [room])
  | some c' => rfl

theorem handleEvent_ready {m : Moment} (ready : m.Ready) {who : Subject} {up : Bool}
    (event : m.event = who.event up) (throttle : Entries String Int) :
    ∃ ep, handleEvent m throttle =
      (if (Throttle.use alertThrottle m.now throttle who.key).1 then
        some ⟨-1, ep, "text", who.body up, []⟩ else none,
        (Throttle.use alertThrottle m.now throttle who.key).2) := by
  obtain ⟨cfg, plugin, ep, h, c, alerts, wants, target, handle, connected, channel, room⟩ := ready
  have wanted : cfg.wants who.category = true := wants who (by rw [event, Event.subject_event])
  refine ⟨ep, ?_⟩
  unfold handleEvent
  rw [alerts, event]
  dsimp only
  rw [alertFor_event, if_pos wanted]
  dsimp only
  rw [sendAlert_room target handle connected channel room]
  rfl

def timesOf (who : Subject) (log : List (Moment × Send)) : List Int :=
  (log.filter (fun sent => decide (sent.1.event.subject = some who))).map (fun sent => sent.1.now)

theorem mem_timesOf {who : Subject} {log : List (Moment × Send)} {t : Int} :
    t ∈ timesOf who log ↔ ∃ sent ∈ log, sent.1.event.subject = some who ∧ sent.1.now = t := by
  simp [timesOf, and_assoc]

theorem timesOf_append (who : Subject) (log log' : List (Moment × Send)) :
    timesOf who (log ++ log') = timesOf who log ++ timesOf who log' := by
  simp [timesOf]

theorem watch_tracks {who : Subject} {moments : List Moment} :
    ∀ {throttle : Entries String Int} (won : List Int) {start final : Int},
      Throttle.Tracks alertThrottle start who.key won throttle → start ≤ final →
      (∀ m ∈ moments, start ≤ m.now) → (∀ m ∈ moments, m.now ≤ final) →
      moments.Pairwise (fun a b => a.now ≤ b.now) →
      (∀ m ∈ moments, m.event.subject = some who → m.Ready) →
      Throttle.Tracks alertThrottle final who.key (won ++ timesOf who (watch moments throttle).1)
        (watch moments throttle).2 := by
  induction moments with
  | nil =>
    intro throttle won start final tracks passed _ _ _ _
    simpa [watch, timesOf] using tracks.wait passed
  | cons m rest ih =>
    intro throttle won start final tracks passed after before ordered ready
    have here : start ≤ m.now := after m mem_cons_self
    have reached := tracks.wait here
    have step : Throttle.Tracks alertThrottle m.now who.key
        (won ++ timesOf who ((handleEvent m throttle).1.toList.map (fun frame => (m, frame))))
        (handleEvent m throttle).2 := by
      by_cases about : m.event.subject = some who
      · obtain ⟨up, event⟩ := Event.eq_event about
        obtain ⟨ep, taken⟩ := handleEvent_ready (ready m mem_cons_self about) event throttle
        rw [taken]
        have used := reached.use_self
        split at used
        · rename_i due
          simpa [timesOf, due, about] using used
        · rename_i refused
          simpa [timesOf, refused] using used
      · have silent :
            timesOf who ((handleEvent m throttle).1.toList.map (fun frame => (m, frame))) = [] := by
          cases (handleEvent m throttle).1 <;> simp [timesOf, about]
        rw [silent, append_nil]
        rcases handleEvent_throttle m throttle with same | ⟨other, named, used⟩
        · rw [same]
          exact reached
        · rw [used]
          refine reached.use_other (fun same => about ?_)
          rw [named, Subject.key_injective same]
    obtain ⟨first, later⟩ := pairwise_cons.mp ordered
    have tail := ih _ step (before m mem_cons_self) first
      (fun m' member => before m' (mem_cons_of_mem _ member)) later
      (fun m' member => ready m' (mem_cons_of_mem _ member))
    rw [watch, timesOf_append, ← append_assoc]
    exact tail

theorem watch_mem {moments : List Moment} (throttle : Entries String Int) :
    ∀ sent ∈ (watch moments throttle).1, sent.1 ∈ moments := by
  induction moments generalizing throttle with
  | nil => exact fun sent member => absurd member not_mem_nil
  | cons m rest ih =>
    intro sent member
    rcases mem_append.mp member with now | later
    · obtain ⟨frame, _, rfl⟩ := mem_map.mp now
      exact mem_cons_self
    · exact mem_cons_of_mem _ (ih _ sent later)

theorem le_age_iff (now t : Int) :
    alertThrottle ≤ Throttle.age now t ↔ t + alertThrottle ≤ now := by
  have value : alertThrottle = 60000000000 := by decide
  unfold Throttle.age
  omega

/-- In a sequence of events in time order, a subject goes down after `past` and has no event in
`quiet`; at each event of the subject all is ready for an alert about it. -/
structure Outage (who : Subject) (past : List Moment) (down : Moment) (quiet : List Moment) :
    Prop where
  ordered : (past ++ down :: quiet).Pairwise (fun a b => a.now ≤ b.now)
  ready : ∀ m ∈ past ++ down :: quiet, m.event.subject = some who → m.Ready
  goes : down.event = who.event false
  stays : ∀ m ∈ quiet, m.event.subject ≠ some who

namespace Outage

variable {who : Subject} {past quiet : List Moment} {down : Moment}

section

variable (outage : Outage who past down quiet)
include outage

theorem about : down.event.subject = some who := by
  rw [outage.goes, Event.subject_event]

theorem earlier : ∀ m ∈ past, m.now ≤ down.now :=
  fun m member => (pairwise_append.mp outage.ordered).2.2 m member down mem_cons_self

theorem tracks :
    Throttle.Tracks alertThrottle down.now who.key (timesOf who (watch past .empty).1)
      (watch past .empty).2 := by
  have ordered := (pairwise_append.mp outage.ordered).1
  obtain ⟨start, first, lowest⟩ : ∃ start, start ≤ down.now ∧ ∀ m ∈ past, start ≤ m.now := by
    cases past with
    | nil => exact ⟨down.now, Int.le_refl _, fun m member => absurd member not_mem_nil⟩
    | cons m rest =>
      refine ⟨m.now, outage.earlier m mem_cons_self, fun m' member => ?_⟩
      rcases mem_cons.mp member with rfl | later
      · exact Int.le_refl _
      · exact (pairwise_cons.mp ordered).1 m' later
  exact watch_tracks [] Throttle.tracks_empty first lowest outage.earlier ordered
    (fun m member => outage.ready m (mem_append_left _ member))

theorem due_iff :
    (Throttle.use alertThrottle down.now (watch past .empty).2 who.key).1 = true ↔
      ∀ sent ∈ (watch past .empty).1, sent.1.event.subject = some who →
        sent.1.now + alertThrottle ≤ down.now := by
  rw [outage.tracks.due_iff]
  constructor
  · intro old sent member named
    exact (le_age_iff _ _).mp (old _ (mem_timesOf.mpr ⟨sent, member, named, rfl⟩))
  · intro old t member
    obtain ⟨sent, logged, named, rfl⟩ := mem_timesOf.mp member
    exact (le_age_iff _ _).mpr (old sent logged named)

theorem announced_iff :
    (∃ sent ∈ (watch (down :: quiet) (watch past .empty).2).1,
      sent.1.event = who.event false ∧ sent.2.body = who.body false) ↔
      (Throttle.use alertThrottle down.now (watch past .empty).2 who.key).1 = true := by
  obtain ⟨ep, taken⟩ := handleEvent_ready
    (outage.ready down (mem_append_right _ mem_cons_self) outage.about) outage.goes
    (watch past .empty).2
  constructor
  · rintro ⟨sent, member, named, -⟩
    by_contra refused
    rcases mem_append.mp member with now | later
    · rw [taken, if_neg refused] at now
      exact absurd now not_mem_nil
    · refine outage.stays _ (watch_mem _ sent later) ?_
      rw [named, Event.subject_event]
  · intro wins
    refine ⟨(down, ⟨-1, ep, "text", who.body false, []⟩), mem_append_left _ ?_, outage.goes, rfl⟩
    rw [taken, if_pos wins]
    exact mem_singleton.mpr rfl

theorem sent_by (throttle throttle' : Entries String Int) :
    ∀ t ∈ timesOf who (watch past throttle).1 ++ timesOf who (watch (down :: quiet) throttle').1,
      t ≤ down.now := by
  intro t member
  rcases mem_append.mp member with before | during
  · obtain ⟨sent, logged, -, rfl⟩ := mem_timesOf.mp before
    exact outage.earlier _ (watch_mem _ sent logged)
  · obtain ⟨sent, logged, named, rfl⟩ := mem_timesOf.mp during
    rcases mem_cons.mp (watch_mem _ sent logged) with same | later
    · rw [same]
    · exact absurd named (outage.stays _ later)

theorem recovered {up : Moment} (comes : up.event = who.event true)
    (prepared : up.Ready) (after : ∀ m ∈ quiet, m.now ≤ up.now)
    (long : down.now + alertThrottle < up.now) :
    ∃ frame, (handleEvent up (watch (down :: quiet) (watch past .empty).2).2).1 = some frame ∧
      frame.body = who.body true := by
  have positive : 0 < alertThrottle := by decide
  have ordered := (pairwise_append.mp outage.ordered).2.1
  have starts : ∀ m ∈ down :: quiet, down.now ≤ m.now := by
    intro m member
    rcases mem_cons.mp member with rfl | later
    · exact Int.le_refl _
    · exact (pairwise_cons.mp ordered).1 m later
  have ends : ∀ m ∈ down :: quiet, m.now ≤ up.now := by
    intro m member
    rcases mem_cons.mp member with rfl | later
    · omega
    · exact after m later
  have tracks := watch_tracks _ outage.tracks (by omega : down.now ≤ up.now) starts ends ordered
    (fun m member => outage.ready m (mem_append_right _ member))
  obtain ⟨ep, sent⟩ :=
    handleEvent_ready prepared comes (watch (down :: quiet) (watch past .empty).2).2
  have due : (Throttle.use alertThrottle up.now (watch (down :: quiet) (watch past .empty).2).2
    who.key).1 =
      true := by
    rw [tracks.due_iff]
    intro t member
    have early := outage.sent_by _ _ t member
    rw [le_age_iff]
    omega
  rw [sent, if_pos due]
  exact ⟨_, rfl, rfl⟩

end

end Outage

/-- When a subject goes down and stays down, a `went DOWN` alert is sent exactly when no alert about
it, of either kind, was sent in the 60 s before; when it comes up after more than 60 s, a recovery
alert is sent in any case. -/
theorem outage_announced_iff (who : Subject) (past : List Moment) (down : Moment)
    (quiet : List Moment) (outage : Outage who past down quiet) :
    let before := watch past .empty
    let during := watch (down :: quiet) before.2
    ((∃ sent ∈ during.1, sent.1.event = who.event false ∧ sent.2.body = who.body false) ↔
      ∀ sent ∈ before.1, sent.1.event.subject = some who → sent.1.now + alertThrottle ≤ down.now) ∧
    ∀ up : Moment, up.event = who.event true → up.Ready → (∀ m ∈ quiet, m.now ≤ up.now) →
      down.now + alertThrottle < up.now →
        ∃ frame, (handleEvent up during.2).1 = some frame ∧ frame.body = who.body true := by
  constructor
  · exact outage.announced_iff.trans outage.due_iff
  · intro up comes prepared after long
    exact outage.recovered comes prepared after long

def Moment.at (secs : Int) (event : Event) : Moment where
  now := seconds secs
  event := event
  alerts := some ⟨"lxmf:bridge", []⟩
  plugins := Map.empty.insert "lxmf" ⟨1, ⟨true, true, none⟩, true⟩
  channels := Map.empty.insert 1 ⟨[], 64, false⟩

theorem Moment.ready_at (secs : Int) (event : Event) : (Moment.at secs event).Ready :=
  ⟨⟨"lxmf:bridge", []⟩, "lxmf", "bridge", ⟨1, ⟨true, true, none⟩, true⟩, ⟨[], 64, false⟩, rfl,
    fun _ _ => rfl, by decide, rfl, rfl, rfl, by decide⟩

/-- A plugin that goes down for the first time after a quiet minute is announced, and so is its
coming back. -/
theorem outage_announced_iff_first :
    let who := Subject.plugin "meshcore"
    let down := Moment.at 10 (who.event false)
    let up := Moment.at 100 (who.event true)
    Outage who [] down [] ∧
      (∃ sent ∈ (watch [down] .empty).1, sent.1.event = who.event false ∧
        sent.2.body = who.body false) ∧
      ∃ frame, (handleEvent up (watch [down] .empty).2).1 = some frame ∧
        frame.body = who.body true := by
  intro who down up
  have outage : Outage who [] down [] := by
    refine ⟨pairwise_singleton _ _, fun m member _ => ?_, rfl, fun m member =>
      absurd member not_mem_nil⟩
    obtain rfl := mem_singleton.mp member
    exact Moment.ready_at _ _
  obtain ⟨announced, recovery⟩ := outage_announced_iff who [] down [] outage
  exact ⟨outage, announced.mpr (fun sent member => absurd member not_mem_nil),
    recovery up rfl (Moment.ready_at _ _) (fun m member => absurd member not_mem_nil) (by decide)⟩

/-- A plugin that goes down ten seconds after it came up stays down unannounced, here for a quarter
of an hour and more: the alert of its coming up has taken the minute. -/
theorem flapping_outage_unannounced :
    let who := Subject.plugin "meshcore"
    let past := [Moment.at 0 (who.event true)]
    let down := Moment.at 10 (who.event false)
    let quiet := [Moment.at 1000 (.plugin "signal" true)]
    Outage who past down quiet ∧ (∀ m ∈ quiet, down.now + alertThrottle < m.now) ∧
      ¬∃ sent ∈ (watch (down :: quiet) (watch past .empty).2).1, sent.1.event =
        who.event false := by
  intro who past down quiet
  refine ⟨⟨?_, fun m member _ => ?_, rfl, by decide⟩, by decide, by decide +kernel⟩
  · simp [past, down, quiet, Moment.at, seconds]
  · have made : ∃ secs event, m = Moment.at secs event := by
      simp only [past, down, quiet, cons_append, nil_append, mem_cons, not_mem_nil,
        or_false] at member
      rcases member with rfl | rfl | rfl
      · exact ⟨_, _, rfl⟩
      · exact ⟨_, _, rfl⟩
      · exact ⟨_, _, rfl⟩
    obtain ⟨secs, event, rfl⟩ := made
    exact Moment.ready_at ..

end Alerts

end RelayFabric
