/- source: plugins/nostr/relayfabric_nostr.py (subscription_filter, NostrBackend)
   digest: From when on each subscription asks for events. -/

import RelayFabric.Lib.Run
import RelayFabric.Lib.Table

namespace RelayFabric.Nostr

open Lib

def subscribeOverlapSecs : Int := 60

def futureSkewSecs : Int := 900

def subscriptionFilter (base lastSeen : Option Int) (now : Int) : Int :=
  base.getD (lastSeen.getD (now - subscribeOverlapSecs))

structure Req where
  channel : String
  since : Int
  sentAt : Int
  deriving DecidableEq

def Req.Admits (r : Req) (createdAt : Int) : Prop := r.since ≤ createdAt

/-- The backend's loop. The tasks of all relays share `lastSeen`, and a disconnect leaves it as it
is. -/
structure Backend where
  clock : Int
  lastSeen : Map String Int
  reqs : List Req

inductive BackendMove
  | event (sub : String) (createdAt : Int)
  | req (channel : String)
  | clock (now : Int)

namespace Backend

def subId (channel : String) : String := "rf-" ++ channel

def noteSeen (b : Backend) (sub : String) (createdAt : Int) : Backend :=
  if b.clock + futureSkewSecs < createdAt then b
  else if (b.lastSeen sub).getD (-1) < createdAt then
    { b with lastSeen := b.lastSeen.insert sub createdAt }
  else b

def step (channels : List (String × Option Int)) : BackendMove → Backend → Option Backend
  | .event sub createdAt, b =>
    if sub ∈ channels.map (fun c => subId c.1) then some (b.noteSeen sub createdAt) else some b
  | .req channel, b => (channels.lookup channel).map (fun base =>
      { b with reqs := b.reqs ++
        [⟨channel, subscriptionFilter base (b.lastSeen (subId channel)) b.clock, b.clock⟩] })
  | .clock now, b => some { b with clock := now }

/-- The clock is not set back, and an event of a configured subscription is at most `ahead` seconds
early or so early that it is not noted. -/
def Prompt (channels : List (String × Option Int)) (ahead : Int) (move : BackendMove)
    (b : Backend) : Prop :=
  match move with
  | .event sub createdAt => sub ∈ channels.map (fun c => subId c.1) →
      createdAt ≤ b.clock + ahead ∨ b.clock + futureSkewSecs < createdAt
  | .req _ => True
  | .clock now => b.clock ≤ now

instance (channels : List (String × Option Int)) (ahead : Int) (move : BackendMove) (b : Backend) :
    Decidable (Prompt channels ahead move b) :=
  match move with
  | .event _ _ => inferInstanceAs (Decidable (_ → _ ∨ _))
  | .req _ => inferInstanceAs (Decidable True)
  | .clock _ => inferInstanceAs (Decidable (_ ≤ _))

structure Within (channels : List (String × Option Int)) (ahead : Int) (b : Backend) : Prop where
  seen : ∀ sub t, b.lastSeen sub = some t → t ≤ b.clock + ahead
  asked : ∀ r ∈ b.reqs, channels.lookup r.channel = some none → r.since ≤ r.sentAt + ahead

section

variable {channels : List (String × Option Int)} {ahead : Int} {b b' : Backend}

theorem noteSeen_eq_or (b : Backend) (sub : String) (createdAt : Int) :
    b.noteSeen sub createdAt = b ∨
    createdAt ≤ b.clock + futureSkewSecs ∧
      b.noteSeen sub createdAt = { b with lastSeen := b.lastSeen.insert sub createdAt } := by
  unfold noteSeen
  split
  · exact Or.inl rfl
  · rename_i near
    split
    · exact Or.inr ⟨Int.not_lt.mp near, rfl⟩
    · exact Or.inl rfl

theorem Within.noteSeen (within : b.Within channels ahead) (sub : String) {createdAt : Int}
    (prompt : createdAt ≤ b.clock + ahead ∨ b.clock + futureSkewSecs < createdAt) :
    (b.noteSeen sub createdAt).Within channels ahead := by
  rcases noteSeen_eq_or b sub createdAt with same | ⟨near, same⟩
  · exact same.symm ▸ within
  · rw [same]
    refine ⟨fun sub' t noted => ?_, within.asked⟩
    simp only [Map.insert_apply] at noted
    split at noted
    · cases noted
      exact prompt.resolve_right (Int.not_lt.mpr near)
    · exact within.seen sub' t noted

theorem Within.step (positive : 0 ≤ ahead) {move : BackendMove}
    (prompt : Prompt channels ahead move b)
    (stepped : Backend.step channels move b = some b') (within : b.Within channels ahead) :
    b'.Within channels ahead := by
  cases move with
  | event sub createdAt =>
    simp only [Backend.step] at stepped
    split at stepped
    case isTrue configured =>
      cases stepped
      exact within.noteSeen sub (prompt configured)
    case isFalse =>
      cases stepped
      exact within
  | req channel =>
    obtain ⟨base, configured, rfl⟩ := Option.map_eq_some_iff.mp stepped
    refine ⟨within.seen, fun r member bare => ?_⟩
    rcases List.mem_append.mp member with old | new
    · exact within.asked r old bare
    · obtain rfl := List.mem_singleton.mp new
      obtain rfl : base = none := Option.some.inj (configured.symm.trans bare)
      cases noted : b.lastSeen (subId channel) with
      | none =>
        simp only [subscriptionFilter, Option.getD_none, subscribeOverlapSecs]
        omega
      | some t => exact within.seen _ t noted
  | clock now =>
    cases stepped
    refine ⟨fun sub t noted => ?_, within.asked⟩
    have before : b.clock ≤ now := prompt
    have bound := within.seen sub t noted
    change t ≤ now + ahead
    omega

end

/-- If no event is early, no REQ looks past the present; in any case it does by fifteen minutes at
most. -/
theorem since_at_most_now (channels : List (String × Option Int)) (start : Int)
    {moves : List BackendMove}
    {b : Backend} (reached : runAll (step channels) moves ⟨start, Map.empty, []⟩ = some b) :
    (Meets (step channels) (Prompt channels 0) moves ⟨start, Map.empty, []⟩ →
      ∀ r ∈ b.reqs, channels.lookup r.channel = some none →
        r.since ≤ r.sentAt ∧ ∀ createdAt, r.sentAt ≤ createdAt → r.Admits createdAt) ∧
    (Meets (step channels) (Prompt channels futureSkewSecs) moves ⟨start, Map.empty, []⟩ →
      ∀ r ∈ b.reqs, channels.lookup r.channel = some none →
        r.since ≤ r.sentAt + futureSkewSecs) := by
  have within (ahead : Int) (positive : 0 ≤ ahead)
      (prompt : Meets (step channels) (Prompt channels ahead) moves ⟨start, Map.empty, []⟩) :
      b.Within channels ahead :=
    runAll_preserves (Within channels ahead)
      (fun _ _ _ meets stepped => Within.step positive meets stepped)
      moves _ b prompt reached ⟨by simp [Map.empty], by simp⟩
  constructor
  · intro prompt r member bare
    have bound := (within 0 (by decide) prompt).asked r member bare
    exact ⟨by omega, fun createdAt later => by unfold Req.Admits; omega⟩
  · intro steady
    exact (within futureSkewSecs (by decide) steady).asked

/-- A reconnect after an event of the present. -/
theorem since_at_most_now_reconnect : ∃ b, runAll (step [("town", none)])
      [.req "town", .event "rf-town" 100, .clock 130, .req "town"] ⟨100, Map.empty, []⟩ = some b ∧
    b.reqs = [⟨"town", 40, 100⟩, ⟨"town", 100, 130⟩] ∧ ∀ r ∈ b.reqs, r.since ≤ r.sentAt := by
  obtain ⟨b, reached, reqs⟩ : ∃ b, runAll (step [("town", none)])
      [.req "town", .event "rf-town" 100, .clock 130, .req "town"] ⟨100, Map.empty, []⟩ = some b ∧
    b.reqs = [⟨"town", 40, 100⟩, ⟨"town", 100, 130⟩] := by decide +kernel
  refine ⟨b, reached, reqs, fun r member => ?_⟩
  refine ((since_at_most_now _ 100 reached).1 (by decide +kernel) r member ?_).1
  rw [reqs] at member
  rcases List.mem_pair.mp member with rfl | rfl <;> rfl

/-- An event stamped fifteen minutes ahead makes the next REQ ask for nothing before that. -/
theorem since_ahead_of_clock :
    ∃ b, runAll (step [("town", none)]) [.event "rf-town" 1000, .req "town"]
      ⟨100, Map.empty, []⟩ = some b ∧
    b.reqs = [⟨"town", 1000, 100⟩] ∧ ¬(⟨"town", 1000, 100⟩ : Req).Admits 100 := by
  simp only [Req.Admits]
  decide +kernel

end Backend

end RelayFabric.Nostr
