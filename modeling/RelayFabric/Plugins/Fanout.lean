/- source: plugins/lxmf/relayfabric_lxmf.py (channel_members, FanoutTracker, Bridge)
   digest: One report for a send to all members of an LXMF channel. -/

import Mathlib.Data.List.Perm.Basic
import RelayFabric.Plugins.SendQueue

namespace RelayFabric.Lxmf

open List

structure Channel where
  name : String
  members : List String
  deriving DecidableEq, Repr

def channelByName (channels : List Channel) (name : String) : Option Channel :=
  channels.find? (fun c => c.name == name)

def channelMembers (channel : Channel) (dynamic : String → List String) : List String :=
  channel.members ++ (dynamic channel.name).filter (fun m => !channel.members.contains m)

def shortName (m : String) : String := String.ofList (m.toList.take 8)

abbrev DeliveryResult := Sdk.DeliveryResult Int

structure FanoutTracker where
  corr : Int
  members : List String
  total : Nat
  resolved : Finset String
  delivered : Nat
  failed : List String
  soft : List (String × String)
  pending : List String
  reported : Bool

def fanoutDetail (failed pending : List String) (soft : List (String × String)) : Option String :=
  let parts :=
    (if failed = [] then [] else ["failed: " ++ ",".intercalate failed]) ++
    (if pending = [] then [] else ["timed out, still attempting: " ++ ",".intercalate pending]) ++
    (if soft = [] then [] else
      ["delivered but unconfirmed at recipient device (queued via " ++
        ",".intercalate (soft.map (fun s => s.1 ++ "=" ++ s.2)) ++ ")"])
  if parts = [] then none else some ("; ".intercalate parts)

def softKind (kind : Option String) : Option String :=
  kind.filter (fun k => k != "" && k != "direct")

namespace FanoutTracker

def new (corr : Int) (members : List String) : FanoutTracker :=
  ⟨corr, members.map shortName, members.length, ∅, 0, [], [], [], false⟩

def result (t : FanoutTracker) : DeliveryResult :=
  ⟨t.corr, decide (0 < t.delivered), fanoutDetail t.failed t.pending t.soft⟩

def resolve (t : FanoutTracker) (member : String) (success : Bool) (kind : Option String) :
    FanoutTracker :=
  if success then
    { t with
      resolved := insert member t.resolved
      delivered := t.delivered + 1
      soft := t.soft ++ ((softKind kind).map (fun k => (member, k))).toList }
  else { t with resolved := insert member t.resolved, failed := t.failed ++ [member] }

def memberDone (t : FanoutTracker) (member : String) (success : Bool) (kind : Option String) :
    Option DeliveryResult × FanoutTracker :=
  if t.reported then (none, t)
  else
    let noted := t.resolve member success kind
    if noted.resolved.card < noted.total then (none, noted)
    else (some noted.result, { noted with reported := true })

def finalizeOnTimeout (t : FanoutTracker) : Option DeliveryResult × FanoutTracker :=
  if t.reported then (none, t)
  else
    let closed := { t with
      reported := true
      pending := t.members.filter (fun m => m ∉ t.resolved) }
    (some closed.result, closed)

end FanoutTracker

structure Bridge where
  channels : List Channel
  dynamic : String → List String
  inflight : Finset Int

inductive SendStart
  | answer (result : DeliveryResult)
  | duplicate
  | fanout (tracker : FanoutTracker) (members : List String)

def Bridge.handleSend (b : Bridge) (corr : Int) (endpoint : String) : SendStart × Bridge :=
  match channelByName b.channels endpoint with
  | none => (.answer ⟨corr, false, some "unknown channel"⟩, b)
  | some channel =>
    let members := channelMembers channel b.dynamic
    if members = [] then (.answer ⟨corr, false, some "no members"⟩, b)
    else if corr ∈ b.inflight then (.duplicate, b)
    else (.fanout (.new corr members) members, { b with inflight := insert corr b.inflight })

theorem Bridge.handleSend_fanout {b b' : Bridge} {corr : Int} {endpoint : String}
    {tracker : FanoutTracker} {members : List String}
    (started : b.handleSend corr endpoint = (.fanout tracker members, b')) :
    tracker = .new corr members ∧ members ≠ [] := by
  unfold Bridge.handleSend at started
  cases found : channelByName b.channels endpoint with
  | none =>
    rw [found] at started
    cases started
  | some channel =>
    rw [found] at started
    dsimp only at started
    split_ifs at started with empty held
    · cases started
    · cases started
    · obtain ⟨same, -⟩ := Prod.mk.inj started
      obtain ⟨rfl, rfl⟩ := SendStart.fanout.inj same
      exact ⟨rfl, empty⟩

structure Outcome where
  member : String
  success : Bool
  kind : Option String

inductive Signal
  | outcome (o : Outcome)
  | watchdog

def FanoutTracker.signal (t : FanoutTracker) : Signal → Option DeliveryResult × FanoutTracker
  | .outcome o => t.memberDone (shortName o.member) o.success o.kind
  | .watchdog => t.finalizeOnTimeout

def FanoutTracker.answers : FanoutTracker → List Signal → List (Option DeliveryResult)
  | _, [] => []
  | t, s :: rest => (t.signal s).1 :: answers (t.signal s).2 rest

def FanoutTracker.after : FanoutTracker → List Signal → FanoutTracker
  | t, [] => t
  | t, s :: rest => after (t.signal s).2 rest

/-- The outcomes in the order they arrive, and the watchdog before the one of the given index, after
all of them, or never. -/
def schedule (order : List Outcome) : Option Nat → List Signal
  | none => order.map .outcome
  | some k => (order.take k).map .outcome ++ .watchdog :: (order.drop k).map .outcome

def Signal.outcome? : Signal → Option Outcome
  | .outcome o => some o
  | .watchdog => none

def outcomes (signals : List Signal) : List Outcome := signals.filterMap Signal.outcome?

def failedNames (outs : List Outcome) : List String :=
  (outs.filter (fun o => !o.success)).map (fun o => shortName o.member)

def softNames (outs : List Outcome) : List (String × String) :=
  (outs.filter Outcome.success).flatMap (fun o =>
    ((softKind o.kind).map (fun k => (shortName o.member, k))).toList)

structure Report (corr : Int) (members : List String) (tracker : FanoutTracker)
    (order : List Outcome)
    (watch : Option Nat) (before : List Signal) (last : Signal) (later : List Signal)
    (result : DeliveryResult) : Prop where
  split : schedule order watch = before ++ last :: later
  once : tracker.answers (schedule order watch) =
    before.map (fun _ => none) ++ some result :: later.map (fun _ => none)
  corr_eq : result.corr = corr
  prompt : (∀ k ∈ watch, order.length ≤ k) → last ≠ .watchdog ∧ outcomes later = []
  delivered : result.delivered = true ↔ ∃ o ∈ outcomes (before ++ [last]), o.success = true
  named : last = .watchdog → result.detail = fanoutDetail (failedNames (outcomes before))
    ((members.diff ((outcomes before).map Outcome.member)).map shortName)
    (softNames (outcomes before))

section Tracking

variable {corr : Int} {members : List String} {outs : List Outcome} {o : Outcome}

def names (outs : List Outcome) : List String := outs.map (fun o => shortName o.member)

def tracked (corr : Int) (members : List String) (outs : List Outcome) : FanoutTracker :=
  ⟨corr, members.map shortName, members.length, (names outs).toFinset,
    (outs.filter Outcome.success).length, failedNames outs, softNames outs, [], false⟩

theorem tracked_nil (corr : Int) (members : List String) :
    tracked corr members [] = .new corr members := rfl

theorem resolve_tracked :
    (tracked corr members outs).resolve (shortName o.member) o.success o.kind =
      tracked corr members (outs ++ [o]) := by
  have noted : (names (outs ++ [o])).toFinset =
      insert (shortName o.member) (names outs).toFinset := by
    simp [names]
  cases success : o.success with
  | true | false => simp [FanoutTracker.resolve, tracked, noted, failedNames, softNames, success]

theorem signal_open (missing : (names (outs ++ [o])).toFinset.card < members.length) :
    (tracked corr members outs).signal (.outcome o) =
      (none, tracked corr members (outs ++ [o])) := by
  have fresh : (tracked corr members outs).reported = false := rfl
  rw [FanoutTracker.signal, FanoutTracker.memberDone, fresh, if_neg Bool.false_ne_true,
    resolve_tracked]
  exact if_pos missing

theorem signal_last (complete : members.length ≤ (names (outs ++ [o])).toFinset.card) :
    (tracked corr members outs).signal (.outcome o) =
      (some (tracked corr members (outs ++ [o])).result,
        { tracked corr members (outs ++ [o]) with reported := true }) := by
  have fresh : (tracked corr members outs).reported = false := rfl
  rw [FanoutTracker.signal, FanoutTracker.memberDone, fresh, if_neg Bool.false_ne_true,
    resolve_tracked]
  exact if_neg (Nat.not_lt.mpr complete)

theorem signal_reported {t : FanoutTracker} (reported : t.reported = true) (s : Signal) :
    t.signal s = (none, t) := by
  cases s with
  | outcome o => rw [FanoutTracker.signal, FanoutTracker.memberDone, if_pos reported]
  | watchdog => rw [FanoutTracker.signal, FanoutTracker.finalizeOnTimeout, if_pos reported]

theorem answers_reported {t : FanoutTracker} (reported : t.reported = true)
    (signals : List Signal) : t.answers signals = signals.map (fun _ => none) := by
  induction signals with
  | nil => rfl
  | cons s signals ih =>
    rw [FanoutTracker.answers, signal_reported reported, ih]
    rfl

theorem answers_append (t : FanoutTracker) (first second : List Signal) :
    t.answers (first ++ second) = t.answers first ++ (t.after first).answers second := by
  induction first generalizing t with
  | nil => rfl
  | cons s first ih =>
    rw [cons_append, FanoutTracker.answers, FanoutTracker.answers, FanoutTracker.after, ih]
    rfl

theorem run_open (corr : Int) (outs rest : List Outcome)
    (missing : (names (outs ++ rest)).toFinset.card < members.length) :
    (tracked corr members outs).answers (rest.map .outcome) = rest.map (fun _ => none) ∧
      (tracked corr members outs).after (rest.map .outcome) = tracked corr members
      (outs ++ rest) := by
  induction rest generalizing outs with
  | nil =>
    rw [append_nil]
    exact ⟨rfl, rfl⟩
  | cons o rest ih =>
    have whole : outs ++ o :: rest = (outs ++ [o]) ++ rest := by simp
    have sooner : (names (outs ++ [o])).toFinset.card < members.length := by
      refine lt_of_le_of_lt (Finset.card_le_card ?_) missing
      intro name present
      rw [whole, names, map_append, toFinset_append]
      exact Finset.mem_union_left _ present
    rw [whole] at missing ⊢
    obtain ⟨silent, state⟩ := ih _ missing
    rw [map_cons, FanoutTracker.answers, FanoutTracker.after, signal_open sooner, silent, state]
    exact ⟨rfl, rfl⟩

end Tracking

@[simp] theorem outcomes_map (outs : List Outcome) : outcomes (outs.map .outcome) = outs := by
  induction outs with
  | nil => rfl
  | cons o outs ih =>
    exact congrArg (o :: ·) ih

@[simp] theorem outcomes_append (first second : List Signal) :
    outcomes (first ++ second) = outcomes first ++ outcomes second := filterMap_append

theorem result_delivered_tracked (corr : Int) (members : List String) (outs : List Outcome) :
    (tracked corr members outs).result.delivered = true ↔ ∃ o ∈ outs, o.success = true := by
  rw [FanoutTracker.result, decide_eq_true_iff]
  change 0 < (outs.filter Outcome.success).length ↔ _
  rw [length_pos_iff_exists_mem]
  simp

section Complete

variable {corr : Int} {members : List String} {order : List Outcome}

theorem names_perm (arrive : (order.map Outcome.member).Perm members) :
    (names order).Perm (members.map shortName) := by
  have mapped := arrive.map shortName
  rw [map_map] at mapped
  exact mapped

theorem card_names_lt {outs rest : List Outcome} (some_ : rest ≠ [])
    (arrive : ((outs ++ rest).map Outcome.member).Perm members) :
    (names outs).toFinset.card < members.length := by
  have total := arrive.length_eq
  have short := toFinset_card_le (names outs)
  have left := length_pos_iff.mpr some_
  simp only [length_map, length_append, names] at total short
  unfold names
  omega

theorem report_by_last (corr : Int) (distinct : (members.map shortName).Nodup)
    {init : List Outcome} {o : Outcome}
    (arrive : ((init ++ [o]).map Outcome.member).Perm members) {watch : Option Nat}
    (late : ∀ k ∈ watch, (init ++ [o]).length ≤ k) :
    ∃ later, outcomes later = [] ∧ Report corr members (.new corr members) (init ++ [o]) watch
      (init.map .outcome) (.outcome o) later (tracked corr members (init ++ [o])).result := by
  -- the watchdog fires after all outcomes or not at all
  obtain ⟨later, silent, whole⟩ : ∃ later, outcomes later = [] ∧
      schedule (init ++ [o]) watch = init.map .outcome ++ .outcome o :: later := by
    cases watch with
    | none => exact ⟨[], rfl, by simp [schedule]⟩
    | some k =>
      have past := late k rfl
      refine ⟨[.watchdog], rfl, ?_⟩
      rw [schedule, take_of_length_le past, drop_of_length_le past]
      simp
  have complete : members.length ≤ (names (init ++ [o])).toFinset.card := by
    rw [toFinset_card_of_nodup ((names_perm arrive).nodup_iff.mpr distinct),
      (names_perm arrive).length_eq, length_map]
  obtain ⟨quiet, state⟩ := run_open corr [] init (card_names_lt (cons_ne_nil o []) arrive)
  rw [nil_append, tracked_nil] at state
  rw [tracked_nil] at quiet
  refine ⟨later, silent, whole, ?_, rfl, fun _ => ⟨by rintro ⟨⟩, silent⟩, ?_, by rintro ⟨⟩⟩
  · rw [whole, answers_append, quiet, state, FanoutTracker.answers, signal_last complete,
      answers_reported rfl, map_map]
    rfl
  · rw [result_delivered_tracked, outcomes_append, outcomes_map]
    rfl

theorem pending_tracked (distinct : (members.map shortName).Nodup) {outs : List Outcome}
    (known : ∀ o ∈ outs, o.member ∈ members) :
    (members.map shortName).filter (fun name => name ∉ (names outs).toFinset) =
      (members.diff (outs.map Outcome.member)).map shortName := by
  rw [(List.Nodup.of_map _ distinct).sdiff_eq_filter, filter_map]
  refine congrArg (List.map shortName) (filter_congr (fun m present => ?_))
  have same : shortName m ∈ (names outs).toFinset ↔ m ∈ outs.map Outcome.member := by
    rw [mem_toFinset, names, mem_map, mem_map]
    constructor
    · rintro ⟨o, listed, short⟩
      exact ⟨o, listed, inj_on_of_nodup_map distinct (known o listed) present short⟩
    · rintro ⟨o, listed, rfl⟩
      exact ⟨o, listed, rfl⟩
  exact decide_eq_decide.mpr (not_congr same)

theorem report_by_watchdog (corr : Int) (distinct : (members.map shortName).Nodup)
    (arrive : (order.map Outcome.member).Perm members) {k : Nat} (early : k < order.length) :
    ∃ result, Report corr members (.new corr members) order (some k) ((order.take k).map .outcome)
      .watchdog ((order.drop k).map .outcome) result := by
  have apart : (order.take k ++ order.drop k).map Outcome.member |>.Perm members := by
    rw [take_append_drop]
    exact arrive
  have some_ : order.drop k ≠ [] := by
    rw [← length_pos_iff, length_drop]
    omega
  obtain ⟨quiet, state⟩ := run_open corr [] (order.take k) (card_names_lt some_ apart)
  rw [nil_append, tracked_nil] at state
  rw [tracked_nil] at quiet
  have known : ∀ o ∈ order.take k, o.member ∈ members := fun o listed =>
    arrive.subset (mem_map_of_mem (mem_of_mem_take listed))
  refine ⟨(tracked corr members (order.take k)).finalizeOnTimeout.2.result, rfl, ?_, rfl,
    ?_, ?_, ?_⟩
  · rw [schedule, answers_append, quiet, state, FanoutTracker.answers, map_map]
    refine congrArg₂ (· ++ ·) rfl (congrArg₂ List.cons rfl ?_)
    exact answers_reported rfl _
  · intro late
    exact absurd (late k rfl) (by omega)
  · rw [outcomes_append, outcomes_map, show outcomes [Signal.watchdog] = [] from rfl, append_nil]
    exact result_delivered_tracked corr members (order.take k)
  · intro _
    rw [outcomes_map, ← pending_tracked distinct known]
    rfl

theorem report_of_collision (collide : ¬(members.map shortName).Nodup) {before later : List Signal}
    {last : Signal} {result : DeliveryResult} (arrive : (order.map Outcome.member).Perm members)
    (report : Report corr members (.new corr members) order (some order.length) before last later
      result) : last = .watchdog := by
  have missing : (names order).toFinset.card < members.length := by
    have bound := toFinset_card_le (names order)
    have size := (names_perm arrive).length_eq
    rw [length_map] at size
    refine lt_of_le_of_ne (size ▸ bound) (fun full => collide ?_)
    rw [← (names_perm arrive).nodup_iff]
    exact Multiset.toFinset_card_eq_card_iff_nodup.mp (full.trans size.symm)
  obtain ⟨quiet, -⟩ := run_open corr [] order missing
  rw [tracked_nil] at quiet
  have whole : schedule order (some order.length) = order.map .outcome ++ [.watchdog] := by
    rw [schedule, take_of_length_le le_rfl, drop_of_length_le le_rfl]
    rfl
  have answers := report.once
  have split := report.split
  rw [whole] at answers split
  rw [answers_append, quiet] at answers
  rcases eq_nil_or_concat' later with rfl | ⟨init, final, rfl⟩
  · have ends : [Signal.watchdog] = [last] := append_inj_right' split rfl
    exact (List.cons.inj ends).1.symm
  · -- the call before the end is an outcome, and ..
    have sooner : before.length < order.length := by
      have size := congrArg List.length split
      simp only [length_append, length_map, length_cons, length_nil] at size
      omega
    have answer := congrArg (fun l => l[before.length]?) answers
    simp [List.getElem?_append, sooner] at answer

end Complete

/-- The tracker makes one report of the fan-out, as it should, whatever the schedule is. -/
def Reports (corr : Int) (members : List String) (tracker : FanoutTracker) (order : List Outcome)
    (watch : Option Nat) : Prop :=
  ∃ before last later result, Report corr members tracker order watch before last later result

/-- Over every send that fans out: the tracker makes its one report for every order of the outcomes
and every moment of the watchdog exactly if the shortened names of the members are distinct. -/
theorem fanout_reports_iff (b b' : Bridge) (corr : Int) (endpoint : String)
    (tracker : FanoutTracker)
    (members : List String) (started : b.handleSend corr endpoint = (.fanout tracker members, b')) :
    (∀ (order : List Outcome) (watch : Option Nat), (order.map Outcome.member).Perm members →
      (∀ k ∈ watch, k ≤ order.length) → Reports corr members tracker order watch) ↔
      (members.map shortName).Nodup := by
  obtain ⟨rfl, some_⟩ := Bridge.handleSend_fanout started
  constructor
  · intro reports
    by_contra collide
    -- all members succeed, and ..
    let order : List Outcome := members.map (fun m => ⟨m, true, none⟩)
    have arrive : (order.map Outcome.member).Perm members := by
      rw [map_map]
      exact .of_eq (map_id members)
    obtain ⟨before, last, later, result, report⟩ := reports order (some order.length) arrive
      (fun k here => (Option.some.inj here).ge)
    have prompt := (report.prompt (fun k here => (Option.some.inj here).le)).1
    exact prompt (report_of_collision collide arrive report)
  · intro distinct order watch arrive within
    by_cases late : ∀ k ∈ watch, order.length ≤ k
    · rcases eq_nil_or_concat' order with rfl | ⟨init, o, rfl⟩
      · exact absurd (List.Perm.nil_eq arrive).symm some_
      · obtain ⟨later, -, report⟩ := report_by_last corr distinct arrive late
        exact ⟨_, _, later, _, report⟩
    · push Not at late
      obtain ⟨k, rfl, early⟩ := late
      obtain ⟨result, report⟩ := report_by_watchdog corr distinct arrive early
      exact ⟨_, _, _, result, report⟩

def Bridge.pair (configured joined : String) : Bridge :=
  ⟨[⟨"net", [configured]⟩], fun name => if name = "net" then [joined] else [], ∅⟩

theorem fanout_reports_iff_pair :
    ∃ b', (Bridge.pair "1a2b3c4d01" "5e6f708102").handleSend 7 "net" =
        (.fanout (.new 7 ["1a2b3c4d01", "5e6f708102"]) ["1a2b3c4d01", "5e6f708102"], b') ∧
      ∀ (order : List Outcome) (watch : Option Nat),
        (order.map Outcome.member).Perm ["1a2b3c4d01", "5e6f708102"] →
        (∀ k ∈ watch, k ≤ order.length) →
        Reports 7 ["1a2b3c4d01", "5e6f708102"] (.new 7 ["1a2b3c4d01", "5e6f708102"]) order watch :=
  ⟨_, rfl, (fanout_reports_iff (.pair "1a2b3c4d01" "5e6f708102") _ 7 "net" _ _ rfl).mpr (by decide)⟩

/-- Two members whose names start alike: both sends succeed, and only the watchdog reports. -/
theorem shared_start_waits_for_watchdog :
    ∃ b', (Bridge.pair "1a2b3c4d01" "1a2b3c4d02").handleSend 7 "net" =
        (.fanout (.new 7 ["1a2b3c4d01", "1a2b3c4d02"]) ["1a2b3c4d01", "1a2b3c4d02"], b') ∧
      let order : List Outcome :=
      [⟨"1a2b3c4d01", true, some "direct"⟩, ⟨"1a2b3c4d02", true, some "direct"⟩]
      (FanoutTracker.new 7 ["1a2b3c4d01", "1a2b3c4d02"]).answers (schedule order none) =
      [none, none] ∧
      (FanoutTracker.new 7 ["1a2b3c4d01", "1a2b3c4d02"]).answers (schedule order (some 2)) =
        [none, none, some ⟨7, true, none⟩] ∧
      ¬Reports 7 ["1a2b3c4d01", "1a2b3c4d02"] (.new 7 ["1a2b3c4d01", "1a2b3c4d02"]) order
      (some 2) := by
  refine ⟨_, rfl, by decide, by decide, ?_⟩
  rintro ⟨before, last, later, result, report⟩
  have prompt := (report.prompt (fun k here => (Option.some.inj here).le)).1
  have collide : ¬(["1a2b3c4d01", "1a2b3c4d02"].map shortName).Nodup := by decide
  exact prompt (report_of_collision collide (.refl _) report)

end RelayFabric.Lxmf
