/- source: limits.rs (SenderLimiter::allow)
   digest: The sender limiter over whole histories of calls. -/

import RelayFabric.Admission
import RelayFabric.Lib.Window
import Mathlib.Data.List.Induction

namespace RelayFabric

open List Lib

structure Charge where
  key : String
  bytes : Fin (2 ^ 64)
  now : Int
  deriving DecidableEq

namespace SenderLimiter

def charge (l : SenderLimiter) (c : Charge) : Bool × SenderLimiter := l.allow c.key c.bytes c.now

def after (l : SenderLimiter) : List Charge → SenderLimiter
  | [] => l
  | c :: rest => (l.charge c).2.after rest

def decides (l : SenderLimiter) : List Charge → List Bool
  | [] => []
  | c :: rest => (l.charge c).1 :: (l.charge c).2.decides rest

def allowed (l : SenderLimiter) : List Charge → List Charge
  | [] => []
  | c :: rest =>
    if (l.charge c).1 then c :: (l.charge c).2.allowed rest else (l.charge c).2.allowed rest

theorem allowed_cons (l : SenderLimiter) (c : Charge) (rest : List Charge) :
    l.allowed (c :: rest) =
      (if (l.charge c).1 then [c] else []) ++ (l.charge c).2.allowed rest := by
  rw [allowed]
  split <;> rfl

theorem allowed_append (l : SenderLimiter) (calls : List Charge) (c : Charge) :
    l.allowed (calls ++ [c]) =
      l.allowed calls ++ if ((l.after calls).charge c).1 then [c] else [] := by
  induction calls generalizing l with
  | nil =>
    rw [nil_append, allowed_cons]
    exact append_nil _
  | cons d rest ih => rw [cons_append, allowed_cons, allowed_cons, ih, append_assoc, after]

end SenderLimiter

abbrev Ordered (calls : List Charge) : Prop := calls.Pairwise (fun a b => a.now ≤ b.now)

theorem ordered_upto {before rest : List Charge} {c : Charge}
    (ordered : Ordered (before ++ c :: rest)) : Ordered (before ++ [c]) :=
  ordered.sublist (List.Sublist.append_left (by simp) before)

def ownEvents (w : Charge → Nat) (key : String) (log : List Charge) : List Event :=
  (log.filter (fun c => c.key == key)).map (fun c => (c.now, w c))

abbrev ownBytes : String → List Charge → List Event := ownEvents (fun c => c.bytes.val)

abbrev ownCalls : String → List Charge → List Event := ownEvents (fun _ => 1)

def quotaAllows (M : Fin (2 ^ 32)) (B : Fin (2 ^ 64)) (log : List Charge) (c : Charge) : Bool :=
  !(decide (0 < M.val ∧ M.val ≤ weight (recent c.now minute) (ownCalls c.key log) % 2 ^ 32)) &&
  !(decide (0 < B.val ∧ B.val <
    (weight (recent c.now hour) (ownBytes c.key log) + c.bytes.val) % 2 ^ 64))

def quotaLog (M : Fin (2 ^ 32)) (B : Fin (2 ^ 64)) (log : List Charge) (c : Charge) : List Charge :=
  if quotaAllows M B log c then log ++ [c] else log

theorem ownEvents_append (w : Charge → Nat) (key : String) (log : List Charge) (c : Charge) :
    ownEvents w key (log ++ [c]) =
      ownEvents w key log ++ if c.key = key then [(c.now, w c)] else [] := by
  unfold ownEvents
  by_cases same : c.key = key <;> simp [same]

theorem ownCalls_eq (key : String) (log : List Charge) :
    ownCalls key log = (ownBytes key log).map (fun e => (e.1, 1)) := by
  unfold ownCalls ownBytes ownEvents
  rw [map_map]
  rfl

theorem weight_ones (select : Int → Bool) (events : List Event) :
    weight select (events.map (fun e => (e.1, 1))) =
      (events.filter (fun e => select e.1)).length := by
  induction events with
  | nil => rfl
  | cons e rest ih =>
    rw [map_cons, weight_cons, ih, filter_cons]
    cases chosen : select e.1 with
    | false => simp
    | true =>
      simp only [if_true, length_cons]
      omega

theorem mem_ownEvents {w : Charge → Nat} {key : String} {log : List Charge} {e : Event}
    (member : e ∈ ownEvents w key log) : ∃ c ∈ log, c.now = e.1 := by
  obtain ⟨c, listed, rfl⟩ := mem_map.mp member
  exact ⟨c, (mem_filter.mp listed).1, rfl⟩

def horizon (B : Fin (2 ^ 64)) : Int := if 0 < B.val then hour else minute

theorem horizon_pos (B : Fin (2 ^ 64)) : 0 < horizon B := by
  unfold horizon
  split <;> decide

theorem minute_le_horizon (B : Fin (2 ^ 64)) : minute ≤ horizon B := by
  unfold horizon
  split <;> decide

structure Tracks (M : Fin (2 ^ 32)) (B : Fin (2 ^ 64)) (l : SenderLimiter) (log : List Charge)
    (T : Int) : Prop where
  messages : l.messagesPerMinute = M
  bytes : l.bytesPerHour = B
  past : ∀ c ∈ log, c.now ≤ T
  windows : ¬(M.val = 0 ∧ B.val = 0) → ∀ key,
    (l.windows key).getD [] = (ownBytes key log).filter (fun e => recent T (horizon B) e.1)

theorem tracks_new (M : Fin (2 ^ 32)) (B : Fin (2 ^ 64)) (T : Int) :
    Tracks M B (.new M B) [] T :=
  ⟨rfl, rfl, by simp, fun _ _ => rfl⟩

namespace Tracks

variable {M : Fin (2 ^ 32)} {B : Fin (2 ^ 64)} {l : SenderLimiter} {log : List Charge} {T now : Int}

theorem swept (tracks : Tracks M B l log T) (later : T ≤ now) (limited : ¬(M.val = 0 ∧ B.val = 0))
    (key : String) : ((l.sweep now).windows key).getD [] =
      (ownBytes key log).filter (fun e => recent now (horizon B) e.1) := by
  have trimmed : ((l.sweep now).windows key).getD [] =
      ((l.windows key).getD []).filter (fun e => decide (durationSince now e.1 < horizon B)) := by
    unfold SenderLimiter.sweep horizon
    rw [tracks.bytes]
    dsimp only
    cases l.windows key with
    | none => rfl
    | some entries =>
      rw [Option.map_some, Option.getD_some]
      generalize entries.filter _ = kept
      cases kept <;> rfl
  rw [trimmed, tracks.windows limited, filter_filter]
  refine filter_congr (fun e member => ?_)
  obtain ⟨c, logged, time⟩ := mem_ownEvents member
  have positive := horizon_pos B
  unfold recent durationSince
  rw [← Bool.decide_and, decide_eq_decide]
  omega

theorem decision (tracks : Tracks M B l log T) (c : Charge) (later : T ≤ c.now) :
    (l.charge c).1 = quotaAllows M B log c := by
  have sweeps := tracks.swept later
  have times : ∀ e ∈ ownBytes c.key log, durationSince c.now e.1 = c.now - e.1 := by
    intro e member
    obtain ⟨d, logged, time⟩ := mem_ownEvents member
    have past := tracks.past d logged
    unfold durationSince
    omega
  unfold SenderLimiter.charge SenderLimiter.allow quotaAllows
  rw [tracks.messages, tracks.bytes]
  by_cases unlimited : M.val = 0 ∧ B.val = 0
  · rw [if_pos unlimited, unlimited.1, unlimited.2]
    simp
  rw [if_neg unlimited]
  dsimp only
  rw [sweeps unlimited]
  -- the minute lies inside the horizon
  have inMinute : (((ownBytes c.key log).filter (fun e => recent c.now (horizon B) e.1)).filter
      (fun e => decide (durationSince c.now e.1 < minute))).length =
        weight (recent c.now minute) (ownCalls c.key log) := by
    rw [ownCalls_eq, weight_ones, filter_filter]
    refine congrArg List.length (filter_congr (fun e member => ?_))
    have wide := minute_le_horizon B
    rw [times e member]
    unfold recent
    rw [← Bool.decide_and, decide_eq_decide]
    omega
  rw [inMinute]
  by_cases full : 0 < M.val ∧ M.val ≤ weight (recent c.now minute) (ownCalls c.key log) % 2 ^ 32
  · rw [if_pos full, decide_eq_true full]
    rfl
  rw [if_neg full, decide_eq_false full]
  by_cases counted : 0 < B.val
  · have wide : horizon B = hour := if_pos counted
    rw [wide]
    unfold weight
    split <;> rename_i exceeds
    · rw [decide_eq_true exceeds]
      rfl
    · rw [decide_eq_false exceeds]
      rfl
  · have free : ∀ n : Nat, ¬(0 < B.val ∧ B.val < n) := fun n both => counted both.1
    rw [if_neg (free _), decide_eq_false (free _)]
    rfl

private theorem charge_limited {c : Charge}
    (limited : ¬(l.messagesPerMinute = 0 ∧ l.bytesPerHour = 0)) :
    (l.charge c).2 = if (l.charge c).1 then
      { l.sweep c.now with
        windows := (l.sweep c.now).windows.insert c.key
          (((l.sweep c.now).windows c.key).getD [] ++ [(c.now, c.bytes.val)]) }
      else l.sweep c.now := by
  unfold SenderLimiter.charge SenderLimiter.allow
  dsimp only
  split_ifs <;> simp_all

theorem step (tracks : Tracks M B l log T) (c : Charge) (later : T ≤ c.now) :
    Tracks M B (l.charge c).2 (quotaLog M B log c) c.now := by
  have past : ∀ d ∈ quotaLog M B log c, d.now ≤ c.now := by
    intro d member
    unfold quotaLog at member
    split at member
    · rcases mem_append.mp member with old | new
      · exact (tracks.past d old).trans later
      · rw [mem_singleton.mp new]
    · exact (tracks.past d member).trans later
  by_cases unlimited : M.val = 0 ∧ B.val = 0
  · have same : (l.charge c).2 = l := by
      unfold SenderLimiter.charge SenderLimiter.allow
      rw [tracks.messages, tracks.bytes, if_pos unlimited]
    rw [same]
    exact ⟨tracks.messages, tracks.bytes, past, fun limited => absurd unlimited limited⟩
  have limits : ¬(l.messagesPerMinute = 0 ∧ l.bytesPerHour = 0) := by
    rw [tracks.messages, tracks.bytes]
    exact unlimited
  have sweeps := tracks.swept later unlimited
  rw [charge_limited limits, tracks.decision c later]
  unfold quotaLog at past ⊢
  revert past
  cases quotaAllows M B log c with
  | false => exact fun past => ⟨tracks.messages, tracks.bytes, past, fun _ key => sweeps key⟩
  | true =>
    intro past
    refine ⟨tracks.messages, tracks.bytes, past, fun _ key => ?_⟩
    have fresh : recent c.now (horizon B) c.now = true := by
      have positive := horizon_pos B
      refine decide_eq_true ?_
      omega
    simp only [if_true]
    have grown : ownBytes key (log ++ [c]) = _ := ownEvents_append _ key log c
    rw [Map.insert_apply, grown, filter_append]
    by_cases same : key = c.key
    · subst same
      rw [if_pos rfl, if_pos rfl, Option.getD_some, sweeps,
        filter_cons_of_pos (by simpa using fresh), filter_nil]
    · rw [if_neg same, if_neg (Ne.symm same), filter_nil, append_nil]
      exact sweeps key

theorem run (tracks : Tracks M B l log T) {calls : List Charge} (ordered : Ordered calls)
    (later : ∀ c ∈ calls, T ≤ c.now) :
    ∃ T', Tracks M B (l.after calls) (log ++ l.allowed calls) T' ∧
      ∀ t, T ≤ t → (∀ c ∈ calls, c.now ≤ t) → T' ≤ t := by
  induction calls generalizing l log T with
  | nil => exact ⟨T, by simpa [SenderLimiter.after, SenderLimiter.allowed] using tracks,
      fun t above _ => above⟩
  | cons c rest ih =>
    have parts := pairwise_cons.mp ordered
    have next := tracks.step c (later c mem_cons_self)
    obtain ⟨T', reached, bound⟩ := ih next parts.2 (fun d member => parts.1 d member)
    refine ⟨T', ?_, fun t above past => ?_⟩
    · have logged : log ++ l.allowed (c :: rest) =
          quotaLog M B log c ++ (l.charge c).2.allowed rest := by
        have decided := tracks.decision c (later c mem_cons_self)
        rw [SenderLimiter.allowed_cons, decided, quotaLog]
        cases quotaAllows M B log c <;> simp
      rw [logged]
      exact reached
    · exact bound t (past c mem_cons_self)
        (fun d member => past d (mem_cons_of_mem _ member))

theorem decides_eq {l' : SenderLimiter} {T' : Int} (tracks : Tracks M B l log T)
    (tracks' : Tracks M B l' log T') {calls : List Charge} (ordered : Ordered calls)
    (later : ∀ c ∈ calls, T ≤ c.now) (later' : ∀ c ∈ calls, T' ≤ c.now) :
    l.decides calls = l'.decides calls := by
  induction calls generalizing l l' log T T' with
  | nil => rfl
  | cons c rest ih =>
    have parts := pairwise_cons.mp ordered
    have here := later c mem_cons_self
    have here' := later' c mem_cons_self
    unfold SenderLimiter.decides
    rw [tracks.decision c here, tracks'.decision c here',
      ih (tracks.step c here) (tracks'.step c here') parts.2 parts.1 parts.1]

end Tracks

/-- The sender quota over one history of calls, from a new limiter: at most `M` allowed calls of a
key in any minute and at most `B` bytes in any hour, where a limit of zero is none; a denied call
leaves no trace in later decisions; and any other history with the same allowed calls of a key gives
that key the same decision. -/
structure SenderQuota (M : Fin (2 ^ 32)) (B : Fin (2 ^ 64)) (calls : List Charge) : Prop where
  messages : 0 < M.val → ∀ key start,
    weight (within start minute) (ownCalls key ((SenderLimiter.new M B).allowed calls)) ≤ M
  bytes : 0 < B.val → ∀ key start,
    weight (within start hour) (ownBytes key ((SenderLimiter.new M B).allowed calls)) ≤ B
  denied : ∀ before c rest, calls = before ++ c :: rest →
    (((SenderLimiter.new M B).after before).charge c).1 = false →
      ((SenderLimiter.new M B).after (before ++ [c])).decides rest =
        ((SenderLimiter.new M B).after before).decides rest
  own : ∀ before c rest other, calls = before ++ c :: rest → Ordered (other ++ [c]) →
    ((SenderLimiter.new M B).allowed before).filter (fun d => d.key == c.key) =
      ((SenderLimiter.new M B).allowed other).filter (fun d => d.key == c.key) →
    (((SenderLimiter.new M B).after before).charge c).1 =
      (((SenderLimiter.new M B).after other).charge c).1

section History

variable (M : Fin (2 ^ 32)) (B : Fin (2 ^ 64))

variable {calls : List Charge} {c : Charge}

theorem tracks_after (ordered : Ordered calls) :
    ∃ T, Tracks M B ((SenderLimiter.new M B).after calls)
    ((SenderLimiter.new M B).allowed calls) T ∧
      ∀ t, (∀ c ∈ calls, c.now ≤ t) → calls ≠ [] → T ≤ t := by
  cases calls with
  | nil => exact ⟨0, tracks_new M B 0, fun _ _ nonempty => absurd rfl nonempty⟩
  | cons first rest =>
    have parts := pairwise_cons.mp ordered
    have start : ∀ c ∈ first :: rest, first.now ≤ c.now := by
      intro c member
      rcases mem_cons.mp member with rfl | later
      · exact le_rfl
      · exact parts.1 c later
    obtain ⟨T, tracks, bound⟩ := (tracks_new ..).run ordered start
    exact ⟨T, tracks, fun t past _ => bound t (past first mem_cons_self) past⟩

theorem decision_after {before : List Charge} (ordered : Ordered (before ++ [c])) :
    (((SenderLimiter.new M B).after before).charge c).1 =
      quotaAllows M B ((SenderLimiter.new M B).allowed before) c := by
  have parts := pairwise_append.mp ordered
  have past : ∀ d ∈ before, d.now ≤ c.now := fun d member => parts.2.2 d member c (by simp)
  by_cases empty : before = []
  · subst empty
    exact (tracks_new ..).decision c le_rfl
  · obtain ⟨T, tracks, bound⟩ := tracks_after M B parts.1
    exact tracks.decision c (bound c.now past empty)

theorem quotaAllows_own {log log' : List Charge}
    (same : log.filter (fun d => d.key == c.key) = log'.filter (fun d => d.key == c.key)) :
    quotaAllows M B log c = quotaAllows M B log' c := by
  unfold quotaAllows ownCalls ownBytes ownEvents
  rw [same]

theorem allowed_subset (l : SenderLimiter) (calls : List Charge) : l.allowed calls ⊆ calls := by
  induction calls generalizing l with
  | nil => exact fun _ member => member
  | cons c rest ih =>
    intro d member
    rw [SenderLimiter.allowed_cons] at member
    rcases mem_append.mp member with here | later
    · split at here
      · rw [mem_singleton.mp here]
        exact mem_cons_self
      · cases here
    · exact mem_cons_of_mem _ (ih _ later)

theorem allowed_before {l : SenderLimiter} {d : Charge}
    (ordered : Ordered (calls ++ [c])) (logged : d ∈ l.allowed calls) : d.now ≤ c.now :=
  (pairwise_append.mp ordered).2.2 d (allowed_subset l calls logged) c (by simp)

theorem own_window {w : Charge → Nat} {width : Int} {bound : Nat} (ordered : Ordered calls)
    (key : String)
    (room : ∀ log, ∀ c ∈ calls, quotaAllows M B log c = true → c.key = key →
      weight (recent c.now width) (ownEvents w key log) ≤ bound →
        weight (recent c.now width) (ownEvents w key log) + w c ≤ bound) (start : Int) :
    weight (within start width) (ownEvents w key ((SenderLimiter.new M B).allowed calls)) ≤
      bound := by
  induction calls using List.reverseRecOn generalizing start with
  | nil => exact Nat.zero_le _
  | append_singleton calls c ih =>
    have earlier := ih (pairwise_append.mp ordered).1
      (fun log d member => room log d (mem_append_left _ member))
    rw [SenderLimiter.allowed_append, decision_after M B ordered]
    split
    · rename_i allowed
      rw [ownEvents_append]
      split
      · rename_i same
        refine window_append earlier (room _ c (by simp) allowed same ?_) start
        -- what is recent at this call lies in the window that ends with it
        refine le_trans (weight_mono (fun e member chosen => ?_)) (earlier (c.now - width + 1))
        have close : c.now - e.1 < width := of_decide_eq_true chosen
        obtain ⟨d, logged, time⟩ := mem_ownEvents member
        have before : d.now ≤ c.now := allowed_before ordered logged
        refine decide_eq_true ?_
        omega
      · rw [append_nil]
        exact earlier start
    · rw [append_nil]
      exact earlier start

theorem messages_window (ordered : Ordered calls) (limited : 0 < M.val)
    (key : String) (start : Int) :
    weight (within start minute) (ownCalls key ((SenderLimiter.new M B).allowed calls)) ≤ M := by
  refine own_window M B ordered key (fun log c _ allowed same counted => ?_) start
  have unwrapped := Nat.mod_eq_of_lt (lt_of_le_of_lt counted M.isLt)
  unfold quotaAllows at allowed
  rw [Bool.and_eq_true, Bool.not_eq_true', Bool.not_eq_true', decide_eq_false_iff_not, same,
    unwrapped] at allowed
  omega

theorem bytes_window (ordered : Ordered calls)
    (small : ∀ c ∈ calls, c.bytes.val + B.val < 2 ^ 64) (limited : 0 < B.val) (key : String)
    (start : Int) :
    weight (within start hour) (ownBytes key ((SenderLimiter.new M B).allowed calls)) ≤ B := by
  refine own_window M B ordered key (fun log c member allowed same counted => ?_) start
  change weight (recent c.now hour) (ownBytes key log) ≤ B at counted
  change weight (recent c.now hour) (ownBytes key log) + c.bytes.val ≤ B
  have fits := small c member
  have unwrapped : (weight (recent c.now hour) (ownBytes key log) + c.bytes.val) % 2 ^ 64 =
      weight (recent c.now hour) (ownBytes key log) + c.bytes.val := by
    omega
  unfold quotaAllows at allowed
  rw [Bool.and_eq_true, Bool.not_eq_true', Bool.not_eq_true', decide_eq_false_iff_not,
    decide_eq_false_iff_not, same, unwrapped] at allowed
  omega

/-- A history whose calls each leave a `u64` room above the byte limit keeps the sender quota. -/
theorem sender_quota (calls : List Charge) (ordered : Ordered calls)
    (small : ∀ c ∈ calls, c.bytes.val + B.val < 2 ^ 64) : SenderQuota M B calls := by
  refine ⟨fun limited key start => messages_window M B ordered limited ..,
    fun limited key start => bytes_window M B ordered small limited .., ?_, ?_⟩
  · rintro before c rest rfl refused
    have parts := pairwise_append.mp ordered
    have tail := pairwise_cons.mp parts.2.1
    -- both limiters track the log before the denied call
    obtain ⟨T, tracks, bound⟩ := tracks_after M B (ordered_upto ordered)
    have early : T ≤ c.now := by
      refine bound c.now (fun d member => ?_) (by simp)
      rcases mem_append.mp member with old | new
      · exact parts.2.2 d old c mem_cons_self
      · rw [mem_singleton.mp new]
    rw [SenderLimiter.allowed_append, refused, if_neg (by simp), append_nil] at tracks
    by_cases empty : before = []
    · subst empty
      exact tracks.decides_eq (tracks_new M B c.now) tail.2
        (fun d member => early.trans (tail.1 d member)) tail.1
    · obtain ⟨T', tracks', bound'⟩ := tracks_after M B parts.1
      have early' : T' ≤ c.now :=
        bound' c.now (fun d member => parts.2.2 d member c mem_cons_self) empty
      exact tracks.decides_eq tracks' tail.2 (fun d member => early.trans (tail.1 d member))
        (fun d member => early'.trans (tail.1 d member))
  · rintro before c rest other rfl elsewhere same
    rw [decision_after M B (ordered_upto ordered), decision_after M B elsewhere]
    exact quotaAllows_own M B same

end History

/-- Three calls of one key, the last over the limits. -/
theorem sender_quota_three : SenderQuota 2 100
    [⟨"ann", 60, 0⟩, ⟨"ann", 40, seconds 30⟩, ⟨"ann", 1, seconds 59⟩] :=
  sender_quota 2 100 _ (by decide) (by decide)

/-- A claimed size near the top of a `u64` wraps the sum past the limit. -/
theorem wrapped_bytes_exceed_quota :
    Ordered [⟨"ann", 50, 0⟩, ⟨"ann", ⟨2 ^ 64 - 40, by decide⟩, 0⟩] ∧
      ¬SenderQuota 0 100 [⟨"ann", 50, 0⟩, ⟨"ann", ⟨2 ^ 64 - 40, by decide⟩, 0⟩] := by
  refine ⟨by decide, fun quota => ?_⟩
  have bound := quota.bytes (by decide) "ann" 0
  revert bound
  decide +kernel

end RelayFabric
