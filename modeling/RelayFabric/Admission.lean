/- source: dedup.rs, limits.rs
   digest: The duplicate cache and the sliding-window limiters, all held in memory. -/

import RelayFabric.Core
import RelayFabric.Lib.Table

namespace RelayFabric

open Lib

structure Dedup where
  ttl : Int
  seen : Map String (Int × Int)

namespace Dedup

def new (ttl : Int) : Dedup := ⟨ttl, Map.empty⟩

/-- An entry lives for the TTL that was in force when it was recorded. -/
def fresh (now : Int) (entry : Int × Int) : Bool :=
  decide (durationSince now entry.1 < entry.2)

def prune (d : Dedup) (now : Int) : Dedup :=
  { d with seen := d.seen.retain (fun _ entry => fresh now entry) }

def isDuplicate (d : Dedup) (key : String) (now : Int) : Bool × Dedup :=
  ((d.prune now).seen.contains key, d.prune now)

theorem prune_prune (d : Dedup) (now : Int) : (d.prune now).prune now = d.prune now := by
  unfold prune
  simp [Map.retain_retain]

def record (d : Dedup) (key : String) (now : Int) : Dedup :=
  { d with seen := d.seen.insert key (now, d.ttl) }

def setTtl (d : Dedup) (ttl : Int) : Dedup := { d with ttl := ttl }

def Holds (d : Dedup) (key : String) (now : Int) : Prop :=
  ∃ entry, d.seen key = some entry ∧ fresh now entry = true

theorem isDuplicate_iff (d : Dedup) (key : String) (now : Int) :
    (d.isDuplicate key now).1 = true ↔ d.Holds key now :=
  Map.contains_retain d.seen (fun _ entry => fresh now entry) key

theorem contains_of_isDuplicate {d : Dedup} {key : String} {now : Int}
    (found : (d.isDuplicate key now).1 = true) : d.seen.contains key = true := by
  obtain ⟨entry, present, _⟩ := (d.isDuplicate_iff ..).mp found
  simp [Map.contains, present]

theorem contains_of_prune {d : Dedup} {key : String} {now : Int}
    (found : (d.prune now).seen.contains key = true) : d.seen.contains key = true :=
  @contains_of_isDuplicate d key now found

theorem contains_record (d : Dedup) (key : String) (now : Int) (other : String) :
    (d.record key now).seen.contains other = (decide (other = key) || d.seen.contains other) :=
  Map.contains_insert ..

theorem holds_record (c : Dedup) (key other : String) (now t : Int) :
    (c.record key now).Holds other t ↔
      if other = key then fresh t (now, c.ttl) = true else c.Holds other t := by
  unfold Holds record
  dsimp only
  rw [Map.insert_apply]
  split <;> simp

theorem fresh_mono {now later : Int} {entry : Int × Int} (order : now ≤ later)
    (alive : fresh later entry = true) : fresh now entry = true := by
  unfold fresh durationSince at alive ⊢
  rw [decide_eq_true_eq] at alive ⊢
  omega

theorem holds_prune (c : Dedup) {now t : Int} (order : now ≤ t) (key : String) :
    (c.prune now).Holds key t ↔ c.Holds key t := by
  unfold Holds prune
  constructor
  · rintro ⟨entry, found, alive⟩
    exact ⟨entry, (Option.filter_eq_some_iff.mp found).1, alive⟩
  · rintro ⟨entry, found, alive⟩
    exact ⟨entry, Option.filter_eq_some_iff.mpr ⟨found, fresh_mono order alive⟩, alive⟩

end Dedup

def minute : Int := seconds 60

def hour : Int := seconds 3600

structure SenderLimiter where
  messagesPerMinute : Nat
  bytesPerHour : Nat
  windows : Map String (List (Int × Nat))

namespace SenderLimiter

def new (messagesPerMinute bytesPerHour : Nat) : SenderLimiter :=
  ⟨messagesPerMinute, bytesPerHour, Map.empty⟩

def sweep (l : SenderLimiter) (now : Int) : SenderLimiter :=
  let horizon := if 0 < l.bytesPerHour then hour else minute
  let trim (entries : List (Int × Nat)) : List (Int × Nat) :=
    entries.filter (fun e => decide (durationSince now e.1 < horizon))
  { l with windows := fun key => ((l.windows key).map trim).filter (fun es => !es.isEmpty) }

/-- Counts are `u32` and byte sums `u64`, both wrapping. -/
def allow (l : SenderLimiter) (key : String) (bytes : Nat) (now : Int) : Bool × SenderLimiter :=
  if l.messagesPerMinute = 0 ∧ l.bytesPerHour = 0 then (true, l)
  else
    let swept := l.sweep now
    let entries := (swept.windows key).getD []
    let inMinute := (entries.filter (fun e => decide (durationSince now e.1 < minute))).length
    let inHour := (entries.map Prod.snd).sum
    if 0 < l.messagesPerMinute ∧ l.messagesPerMinute ≤ inMinute % 2 ^ 32 then (false, swept)
    else if 0 < l.bytesPerHour ∧ l.bytesPerHour < (inHour + bytes) % 2 ^ 64 then (false, swept)
    else (true, { swept with windows := swept.windows.insert key (entries ++ [(now, bytes)]) })

end SenderLimiter

structure BudgetLimiter where
  windows : Map String (List Int)

namespace BudgetLimiter

def new : BudgetLimiter := ⟨Map.empty⟩

def recent (l : BudgetLimiter) (key : String) (now : Int) : List Int :=
  ((l.windows key).getD []).filter (fun t => decide (durationSince now t < minute))

def allow (l : BudgetLimiter) (key : String) (perMinute : Nat) (now : Int) :
    Bool × BudgetLimiter :=
  if perMinute = 0 then (true, l)
  else
    let entries := l.recent key now
    if perMinute ≤ entries.length % 2 ^ 32 then (false, ⟨l.windows.insert key entries⟩)
    else (true, ⟨l.windows.insert key (entries ++ [now])⟩)

end BudgetLimiter

end RelayFabric
