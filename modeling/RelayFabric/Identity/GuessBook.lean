/- source: engine.rs (note_failed_link_guess, initiate_link), storage.rs (create_challenge)
   digest: The guesses in the map account for the wrong codes that a challenge has seen. -/

import RelayFabric.Identity.Desk

namespace RelayFabric

open List Lib Option

private theorem lookup_cons_ne {β : Type} {k name : String} (other : k ≠ name) (v : β)
    (rest : List (String × β)) : ((name, v) :: rest).lookup k = rest.lookup k := by
  rw [lookup_cons, beq_false_of_ne other]

private theorem lookup_filter {β : Type} {entries : List (String × β)} {keep : String × β → Bool}
    {k : String} (kept : ∀ v, entries.lookup k = some v → keep (k, v) = true) :
    (entries.filter keep).lookup k = entries.lookup k := by
  induction entries with
  | nil => rfl
  | cons entry rest ih =>
    obtain ⟨name, v⟩ := entry
    by_cases named : k = name
    · subst named
      have here : keep (k, v) = true := kept v (by simp)
      rw [filter_cons_of_pos here]
      simp
    · rw [lookup_cons_ne named] at kept ⊢
      rw [← ih kept, filter_cons]
      split
      · exact lookup_cons_ne named v _
      · rfl

private theorem lookup_others {β : Type} (entries : List (String × β)) {k name : String}
    (other : k ≠ name) : (entries.filter (fun e => e.1 != name)).lookup k = entries.lookup k :=
  lookup_filter (fun v _ => by simpa using other)

private theorem lookup_removed {β : Type} (entries : List (String × β)) (name : String) :
    (entries.filter (fun e => e.1 != name)).lookup name = none := by
  rw [lookup_eq_none_iff]
  intro e member
  have kept : e.1 ≠ name := by simpa using of_mem_filter member
  simpa using Ne.symm kept

def liveGuesses (guesses : List (String × Nat × Int)) (now : Int) : List (String × Nat × Int) :=
  guesses.filter (fun e => decide (durationSince now e.2.2 < linkCodeWindow))

section Count

variable {guesses : List (String × Nat × Int)} {key : String} {now : Int}

private theorem lookup_live {k : String}
    (recent : ∀ v, guesses.lookup k = some v → durationSince now v.2 < linkCodeWindow) :
    (liveGuesses guesses now).lookup k = guesses.lookup k :=
  lookup_filter (fun v found => by simpa using recent v found)

theorem lookup_countGuess_other {k : String}
    (room : (liveGuesses guesses now).length < linkCodeMapMax) (other : k ≠ key)
    (recent : ∀ v, guesses.lookup k = some v → durationSince now v.2 < linkCodeWindow) :
    (countGuess guesses key now).2.lookup k = guesses.lookup k := by
  have bounded : ¬linkCodeMapMax ≤ (liveGuesses guesses now).length := by omega
  have kept : ((liveGuesses guesses now).filter (fun e => e.1 != key)).lookup k =
      guesses.lookup k :=
    (lookup_others _ other).trans (lookup_live recent)
  unfold liveGuesses at bounded kept
  unfold countGuess
  simp only [if_neg bounded]
  split
  · exact kept
  · rw [lookup_append, kept, lookup_cons_ne other]
    exact or_none

theorem countGuess_own (room : (liveGuesses guesses now).length < linkCodeMapMax)
    (recent : ∀ v, guesses.lookup key = some v → durationSince now v.2 < linkCodeWindow) :
    (countGuess guesses key now).1 = ((guesses.lookup key).getD (0, now)).1 + 1 ∧
      (countGuess guesses key now).2.lookup key =
        if linkCodeMaxGuesses ≤ ((guesses.lookup key).getD (0, now)).1 + 1 then none
        else some (((guesses.lookup key).getD (0, now)).1 + 1,
        ((guesses.lookup key).getD (0, now)).2) := by
  have bounded : ¬linkCodeMapMax ≤ (liveGuesses guesses now).length := by omega
  have same := lookup_live recent
  unfold liveGuesses at bounded same
  unfold countGuess
  simp only [if_neg bounded, same]
  split
  · exact ⟨rfl, lookup_removed _ _⟩
  · refine ⟨rfl, ?_⟩
    rw [lookup_append, lookup_removed]
    simp

theorem lookup_countGuess_none {k : String} (other : k ≠ key) (absent : guesses.lookup k = none) :
    (countGuess guesses key now).2.lookup k = none := by
  have live : (liveGuesses guesses now).lookup k = none :=
    (lookup_live (fun v found => absurd (absent.symm.trans found) nofun)).trans absent
  have kept : ((if linkCodeMapMax ≤ (liveGuesses guesses now).length then []
      else liveGuesses guesses now).filter (fun e => e.1 != key)).lookup k = none := by
    rw [lookup_others _ other]
    split
    · rfl
    · exact live
  unfold liveGuesses at kept
  unfold countGuess
  dsimp only
  generalize (if linkCodeMapMax ≤ _ then [] else _) = remaining at kept ⊢
  split
  · exact kept
  · rw [lookup_append, kept, lookup_cons_ne other]
    rfl

end Count

def guessKey (who : Identity) : String := who.protocol ++ "|" ++ who.ref

/-- Plugin names are made of letters, digits, underscores and hyphens, so they have no bar. -/
def Barless (name : String) : Prop := '|' ∉ name.toList

instance (name : String) : Decidable (Barless name) := inferInstanceAs (Decidable (¬_))

private theorem append_bar_injective {x y z w : List Char} (left : '|' ∉ x) (right : '|' ∉ y)
    (same : x ++ '|' :: z = y ++ '|' :: w) : x = y ∧ z = w := by
  induction x generalizing y with
  | nil =>
    cases y with
    | nil => exact ⟨rfl, (List.cons.inj same).2⟩
    | cons c rest => exact absurd (List.cons.inj same).1 (fun eq => right (eq ▸ mem_cons_self))
  | cons c rest ih =>
    cases y with
    | nil => exact absurd (List.cons.inj same).1 (fun eq => left (eq ▸ mem_cons_self))
    | cons c' rest' =>
      obtain ⟨rfl, later⟩ := List.cons.inj same
      obtain ⟨rfl, rfl⟩ := ih (fun member => left (mem_cons_of_mem _ member))
        (fun member => right (mem_cons_of_mem _ member)) later
      exact ⟨rfl, rfl⟩

theorem guessKey_injective {who other : Identity} (plain : Barless who.protocol)
    (plain' : Barless other.protocol) (same : guessKey who = guessKey other) : who = other := by
  have texts := congrArg String.toList same
  simp only [guessKey, String.toList_append] at texts
  have bar : ("|" : String).toList = ['|'] := rfl
  rw [bar, append_assoc, append_assoc, singleton_append, singleton_append] at texts
  obtain ⟨protocol, reference⟩ := append_bar_injective plain plain' texts
  rw [Identity.mk.injEq]
  exact ⟨String.ext protocol, String.ext reference⟩

/-- What a call for an identity stands in the middle of: between a lookup without a match and its
count, between the last count and the revocation, or between clearing the count and the
challenge. -/
inductive GuessPhase
  | closed | missed | spent | cleared | ready
  | aiming (now : Int)
  deriving DecidableEq, Repr

def GuessPhase.owes : GuessPhase → Nat
  | closed => 0
  | missed => 1
  | spent => linkCodeMaxGuesses
  | cleared | ready | aiming _ => linkCodeMaxGuesses - 1

def GuessPhase.asking : GuessPhase → Bool
  | cleared | ready | aiming _ => true
  | _ => false

structure GuessBook where
  d : Daemon
  checks : List Nat
  phase : Identity → GuessPhase

namespace GuessBook

def entry (L : GuessBook) (who : Identity) : Option (Nat × Int) :=
  L.d.linkGuesses.lookup (guessKey who)

def tally (L : GuessBook) (who : Identity) : Nat := ((L.entry who).map Prod.fst).getD 0

structure Watched (L : GuessBook) (c : Challenge) : Prop where
  plain : Barless c.targetProtocol
  alone : ∀ e ∈ L.d.store.challenges.rows, e.target = c.target → e = c
  born : c.createdAt ≤ L.d.clock.utc
  life : c.expiresAt = c.createdAt + challengeLifetime
  counted : L.d.clock.utc < c.expiresAt →
    L.checks.count c.id ≤ L.tally c.target + (L.phase c.target).owes
  recorded : L.d.clock.utc < c.expiresAt → ∀ count first, L.entry c.target = some (count, first) →
    count < linkCodeMaxGuesses ∧ c.createdAt - L.d.clock.utc + L.d.clock.instant ≤ first

def Aims (base : Nat) (d : Daemon) (who : Identity) (c : Challenge) : Prop :=
  c ∈ d.store.challenges.rows ∧ base ≤ c.id ∧ c.target = who ∧ d.clock.utc < c.expiresAt

structure Inv (base : Nat) (L : GuessBook) : Prop where
  issued : ∀ n ∈ L.checks, n < L.d.store.challenges.next
  most : ∀ n, base ≤ n → L.checks.count n ≤ linkCodeMaxGuesses
  row : ∀ c ∈ L.d.store.challenges.rows, base ≤ c.id → L.Watched c
  cleared : ∀ who, (L.phase who).asking = true → L.entry who = none
  dated : ∀ who now, L.phase who = .aiming now → now ≤ L.d.clock.utc
  plain : ∀ who, L.phase who ≠ .closed → Barless who.protocol

variable {base : Nat} {L L' : GuessBook} {c : Challenge} {who : Identity} {d' : Daemon}

theorem Watched.recent (watched : L.Watched c) (live : L.d.clock.utc < c.expiresAt) :
    ∀ v, L.entry c.target = some v → durationSince L.d.clock.instant v.2 < linkCodeWindow := by
  rintro ⟨count, first⟩ found
  have bound := (watched.recorded live count first found).2
  have life := watched.life
  have window : linkCodeWindow = challengeLifetime := rfl
  have positive : (0 : Int) < challengeLifetime := by decide
  unfold durationSince
  rw [max_lt_iff]
  constructor <;> omega

theorem Watched.tally_lt (watched : L.Watched c) (live : L.d.clock.utc < c.expiresAt) :
    L.tally c.target < linkCodeMaxGuesses := by
  unfold tally
  cases found : L.entry c.target with
  | none => exact (by decide : 0 < linkCodeMaxGuesses)
  | some v => exact (watched.recorded live v.1 v.2 found).1

theorem Watched.carry (old : L.Watched c)
    (alone : ∀ e ∈ L'.d.store.challenges.rows, e.target = c.target → e = c)
    (clock : L'.d.clock = L.d.clock)
    (entry : L.d.clock.utc < c.expiresAt → L'.entry c.target = L.entry c.target)
    (checks : L'.checks.count c.id = L.checks.count c.id)
    (phase : L'.phase c.target = L.phase c.target) : L'.Watched c := by
  refine ⟨old.plain, alone, clock ▸ old.born, old.life, fun live => ?_, fun live => ?_⟩
  · rw [clock] at live
    unfold tally
    rw [checks, phase, entry live]
    exact old.counted live
  · rw [clock] at live ⊢
    rw [entry live]
    exact old.recorded live

theorem Inv.drift (inv : L.Inv base) (next : d'.store.challenges.next = L.d.store.challenges.next)
    (rows : ∀ c ∈ d'.store.challenges.rows, c ∈ L.d.store.challenges.rows)
    (guesses : d'.linkGuesses = L.d.linkGuesses) (later : L.d.clock.utc ≤ d'.clock.utc)
    (alike : d'.clock.utc - L.d.clock.utc = d'.clock.instant - L.d.clock.instant) :
    Inv base { L with d := d' } := by
  have entry : ∀ who, GuessBook.entry { L with d := d' } who = L.entry who := by
    intro who
    unfold GuessBook.entry
    rw [guesses]
  refine ⟨fun n member => next ▸ inv.issued n member, inv.most, fun c member late => ?_,
    fun who asking => (entry who).trans (inv.cleared who asking),
    fun who now aims => (inv.dated who now aims).trans later, inv.plain⟩
  have old := inv.row c (rows c member) late
  refine ⟨old.plain, fun e present same => old.alone e (rows e present) same, old.born.trans later,
    old.life, fun live => ?_, fun live count first found => ?_⟩
  · unfold tally
    rw [entry]
    exact old.counted (later.trans_lt live)
  · rw [entry] at found
    obtain ⟨few, bound⟩ := old.recorded (later.trans_lt live) count first found
    refine ⟨few, ?_⟩
    show c.createdAt - d'.clock.utc + d'.clock.instant ≤ first
    omega

theorem Inv.rephase (inv : L.Inv base) (who : Identity) (p : GuessPhase)
    (plain : p ≠ .closed → Barless who.protocol)
    (cleared : p.asking = true → L.entry who = none)
    (dated : ∀ now, p = .aiming now → now ≤ L.d.clock.utc)
    (within : ∀ c, Aims base L.d who c → L.checks.count c.id ≤ L.tally who + p.owes) :
    Inv base { L with phase := Function.update L.phase who p } := by
  have split : ∀ {P : Identity → GuessPhase → Prop}, P who p → (∀ other, P other (L.phase other)) →
      ∀ other, P other (Function.update L.phase who p other) := by
    intro P here there other
    by_cases same : other = who
    · rw [same, Function.update_self]
      exact here
    · rw [Function.update_of_ne same]
      exact there other
  refine ⟨inv.issued, inv.most, fun c member late => ?_, ?_, ?_, ?_⟩
  · have old := inv.row c member late
    refine { old with counted := fun live => ?_ }
    show L.checks.count c.id ≤ L.tally c.target + (Function.update L.phase who p c.target).owes
    by_cases same : c.target = who
    · rw [same, Function.update_self]
      exact within c ⟨member, late, same, live⟩
    · rw [Function.update_of_ne same]
      exact old.counted live
  · exact split (P := fun other p => p.asking = true → L.entry other = none) cleared inv.cleared
  · exact split (P := fun _ p => ∀ now, p = .aiming now → now ≤ L.d.clock.utc) dated inv.dated
  · exact split (P := fun other p => p ≠ .closed → Barless other.protocol) plain inv.plain

def live (d : Daemon) (who : Identity) : List Nat :=
  (d.store.challenges.rows.filter (fun c => decide (c.target = who) &&
    decide (d.clock.utc < c.expiresAt))).map Challenge.id

theorem mem_live {n : Nat} : n ∈ live L.d who ↔ ∃ c ∈ L.d.store.challenges.rows,
    c.id = n ∧ c.target = who ∧ L.d.clock.utc < c.expiresAt := by
  unfold live
  simp only [List.mem_map, mem_filter, Bool.and_eq_true, decide_eq_true_eq]
  constructor
  · rintro ⟨c, ⟨row, target, alive⟩, same⟩
    exact ⟨c, row, same, target, alive⟩
  · rintro ⟨c, row, same, target, alive⟩
    exact ⟨c, ⟨row, target, alive⟩, same⟩

theorem count_live_le (d : Daemon) (who : Identity) (n : Nat) : (live d who).count n ≤ 1 :=
  nodup_iff_count_le_one.mp (d.store.challenges.distinct.sublist (filter_sublist.map _)) n

theorem count_live_other (row : c ∈ L.d.store.challenges.rows) (other : c.target ≠ who) :
    (live L.d who).count c.id = 0 := by
  rw [count_eq_zero]
  intro member
  obtain ⟨e, present, same, target, _⟩ := mem_live.mp member
  obtain rfl := inj_on_of_nodup_map L.d.store.challenges.distinct present row same
  exact other target

theorem Inv.aimed (inv : L.Inv base) (aims : Aims base L.d who c) :
    L.Watched c ∧ L.checks.count c.id ≤ L.tally who + (L.phase who).owes ∧
      L.tally who < linkCodeMaxGuesses := by
  obtain ⟨row, late, rfl, alive⟩ := aims
  have watched := inv.row c row late
  exact ⟨watched, watched.counted alive, watched.tally_lt alive⟩

theorem Inv.asked (inv : L.Inv base) (aims : Aims base L.d who c)
    (asking : (L.phase who).asking = true) : L.checks.count c.id < linkCodeMaxGuesses := by
  obtain ⟨_, counted, _⟩ := inv.aimed aims
  have owes : (L.phase who).owes = linkCodeMaxGuesses - 1 := by
    generalize L.phase who = p at asking
    cases p <;> first | rfl | cases asking
  unfold tally at counted
  rw [inv.cleared who asking, owes] at counted
  exact counted.trans_lt (by decide)

theorem Inv.check (inv : L.Inv base) (behind : ∀ c, Aims base L.d who c →
      L.checks.count c.id < linkCodeMaxGuesses ∧
      L.checks.count c.id < L.tally who + (L.phase who).owes) :
    Inv base { L with checks := live L.d who ++ L.checks } := by
  refine { inv with issued := ?_, most := ?_, row := ?_ }
  · intro n member
    rcases mem_append.mp member with new | old
    · obtain ⟨c, row, rfl, _⟩ := mem_live.mp new
      exact L.d.store.challenges.below c row
    · exact inv.issued n old
  · intro n late
    rw [count_append]
    by_cases charged : n ∈ live L.d who
    · obtain ⟨c, row, rfl, target, alive⟩ := mem_live.mp charged
      have few := (behind c ⟨row, late, target, alive⟩).1
      have once := count_live_le L.d who c.id
      omega
    · have none := count_eq_zero.mpr charged
      have most := inv.most n late
      omega
  · intro c row late
    have old := inv.row c row late
    by_cases own : c.target = who
    · refine { old with counted := fun alive => ?_ }
      have few := (behind c ⟨row, late, own, alive⟩).2
      have once := count_live_le L.d who c.id
      show (live L.d who ++ L.checks).count c.id ≤ L.tally c.target + (L.phase c.target).owes
      rw [count_append, own]
      omega
    · refine old.carry old.alone rfl (fun _ => rfl) ?_ rfl
      show (live L.d who ++ L.checks).count c.id = _
      rw [count_append, count_live_other row own, Nat.zero_add]

theorem Inv.recount (inv : L.Inv base) (guesses : List (String × Nat × Int))
    (spent : L.phase who = .spent)
    (others : ∀ other c, other ≠ who → Aims base L.d other c →
      guesses.lookup (guessKey other) = L.entry other)
    (absent : ∀ other, other ≠ who → L.phase other ≠ .closed → L.entry other = none →
      guesses.lookup (guessKey other) = none)
    (own : ∀ c, Aims base L.d who c → ∀ count first,
      guesses.lookup (guessKey who) = some (count, first) →
      count < linkCodeMaxGuesses ∧ c.createdAt - L.d.clock.utc + L.d.clock.instant ≤ first) :
    Inv base { L with d := { L.d with linkGuesses := guesses } } := by
  refine { inv with row := fun c member late => ?_, cleared := fun other asking => ?_ }
  · have old := inv.row c member late
    by_cases same : c.target = who
    · refine { old with counted := fun _ => ?_, recorded := fun alive => ?_ }
      · show L.checks.count c.id ≤ _ + (L.phase c.target).owes
        rw [same, spent]
        exact (inv.most c.id late).trans (Nat.le_add_left ..)
      · rw [same]
        exact own c ⟨member, late, same, alive⟩
    · exact old.carry old.alone rfl (fun alive => others _ c same ⟨member, late, rfl, alive⟩) rfl
        rfl
  · refine absent other ?_ ?_ (inv.cleared other asking)
    · rintro rfl
      rw [spent] at asking
      cases asking
    · intro closed
      rw [closed] at asking
      cases asking

theorem Inv.miss (inv : L.Inv base) (closed : L.phase who = .closed)
    (plain : Barless who.protocol) :
    Inv base ⟨L.d, live L.d who ++ L.checks, Function.update L.phase who .missed⟩ := by
  have before : ∀ c, Aims base L.d who c →
      L.checks.count c.id ≤ L.tally who ∧ L.tally who < linkCodeMaxGuesses := by
    intro c aims
    obtain ⟨_, counted, few⟩ := inv.aimed aims
    rw [closed] at counted
    exact ⟨counted, few⟩
  have opened : Inv base { L with phase := Function.update L.phase who .missed } :=
    inv.rephase who .missed (fun _ => plain) nofun nofun
      (fun c aims => (before c aims).1.trans (Nat.le_add_right ..))
  refine opened.check (fun c aims => ?_)
  obtain ⟨counted, few⟩ := before c aims
  refine ⟨counted.trans_lt few, ?_⟩
  show _ < L.tally who + (Function.update L.phase who .missed who).owes
  rw [Function.update_self]
  exact Nat.lt_succ_of_le counted

theorem Inv.count (inv : L.Inv base) (missed : L.phase who = .missed)
    (room : (liveGuesses L.d.linkGuesses L.d.clock.instant).length < linkCodeMapMax) :
    Inv base ⟨{ L.d with
        linkGuesses := (countGuess L.d.linkGuesses (guessKey who) L.d.clock.instant).2 },
      L.checks, Function.update L.phase who
        (if (countGuess L.d.linkGuesses (guessKey who) L.d.clock.instant).1 < linkCodeMaxGuesses
          then .closed else .spent)⟩ := by
  have plain := inv.plain who (by simp [missed])
  have pending : ∀ c, Aims base L.d who c → L.checks.count c.id ≤ L.tally who + 1 := by
    intro c aims
    have counted := (inv.aimed aims).2.1
    rwa [missed] at counted
  have own : ∀ c, Aims base L.d who c →
      (countGuess L.d.linkGuesses (guessKey who) L.d.clock.instant).1 = L.tally who + 1 ∧
        (countGuess L.d.linkGuesses (guessKey who) L.d.clock.instant).2.lookup (guessKey who) =
          if linkCodeMaxGuesses ≤ L.tally who + 1 then none
          else some (L.tally who + 1, ((L.entry who).getD (0, L.d.clock.instant)).2) := by
    intro c aims
    have recent := (inv.aimed aims).1.recent aims.2.2.2
    rw [aims.2.2.1] at recent
    have tally : L.tally who = ((L.entry who).getD (0, L.d.clock.instant)).1 := by
      unfold tally
      cases L.entry who <;> rfl
    rw [tally]
    exact countGuess_own room recent
  have others : ∀ other c, other ≠ who → Aims base L.d other c →
      (countGuess L.d.linkGuesses (guessKey who) L.d.clock.instant).2.lookup (guessKey other) =
        L.entry other := by
    rintro _ c apart ⟨row, late, rfl, alive⟩
    have watched := inv.row c row late
    exact lookup_countGuess_other room
      (fun same => apart (guessKey_injective watched.plain plain same)) (watched.recent alive)
  have absent : ∀ other, other ≠ who → Barless other.protocol → L.entry other = none →
      (countGuess L.d.linkGuesses (guessKey who) L.d.clock.instant).2.lookup (guessKey other) =
        none :=
    fun other apart bare => lookup_countGuess_none
      (fun same => apart (guessKey_injective bare plain same))
  generalize countGuess L.d.linkGuesses (guessKey who) L.d.clock.instant = counting at *
  have waiting : Inv base { L with phase := Function.update L.phase who .spent } :=
    inv.rephase who .spent (fun _ => plain) nofun nofun
      (fun c aims => (pending c aims).trans (Nat.add_le_add_left (by decide) _))
  have counted : Inv base ⟨{ L.d with linkGuesses := counting.2 }, L.checks,
      Function.update L.phase who .spent⟩ := by
    refine waiting.recount _ (Function.update_self ..) others
      (fun other apart busy => absent other apart (waiting.plain other busy)) ?_
    intro c aims count first found
    rw [(own c aims).2] at found
    split at found
    · cases found
    · next below =>
      cases found
      refine ⟨by omega, ?_⟩
      have watched := (inv.aimed aims).1
      -- the entry is the old one, or begins now
      cases old : L.entry who with
      | none =>
        have born := watched.born
        show c.createdAt - L.d.clock.utc + L.d.clock.instant ≤ L.d.clock.instant
        omega
      | some v => exact (watched.recorded aims.2.2.2 v.1 v.2 (aims.2.2.1 ▸ old)).2
  have done := counted.rephase who (if counting.1 < linkCodeMaxGuesses then .closed else .spent)
    (fun _ => plain) (by split <;> nofun) (by split <;> nofun) (fun c aims => ?_)
  · simpa only [Function.update_idem] using done
  · obtain ⟨number, lookup⟩ := own c aims
    have before := pending c aims
    rw [number]
    split
    · next few =>
      rw [if_neg (by omega)] at lookup
      unfold tally entry
      rw [lookup]
      exact before
    · exact (inv.most c.id aims.2.1).trans (Nat.le_add_left ..)

theorem Inv.clear (inv : L.Inv base) (closed : L.phase who = .closed)
    (plain : Barless who.protocol) :
    Inv base ⟨{ L.d with linkGuesses := L.d.linkGuesses.filter (fun e => e.1 != guessKey who) },
      L.checks, Function.update L.phase who .cleared⟩ := by
  have before : ∀ c, Aims base L.d who c → L.checks.count c.id ≤ linkCodeMaxGuesses - 1 := by
    intro c aims
    obtain ⟨_, counted, few⟩ := inv.aimed aims
    rw [closed] at counted
    exact counted.trans (Nat.le_sub_one_of_lt few)
  have forgotten := lookup_removed L.d.linkGuesses (guessKey who)
  have kept : ∀ other, other ≠ who → Barless other.protocol →
      (L.d.linkGuesses.filter (fun e => e.1 != guessKey who)).lookup (guessKey other) =
        L.entry other :=
    fun other apart bare => lookup_others _ (fun same => apart (guessKey_injective bare plain same))
  have waiting : Inv base { L with phase := Function.update L.phase who .spent } :=
    inv.rephase who .spent (fun _ => plain) nofun nofun
      (fun c aims => ((before c aims).trans (by decide)).trans (Nat.le_add_left ..))
  have emptied := waiting.recount (L.d.linkGuesses.filter (fun e => e.1 != guessKey who))
    (Function.update_self ..) ?_ ?_ ?_
  · have done := emptied.rephase who .cleared (fun _ => plain) (fun _ => forgotten) nofun
      (fun c aims => (before c aims).trans (Nat.le_add_left ..))
    simpa only [Function.update_idem] using done
  · rintro _ c apart ⟨row, late, rfl, _⟩
    exact kept _ apart (inv.row c row late).plain
  · exact fun other apart busy absent => (kept other apart (waiting.plain other busy)).trans absent
  · exact fun c aims count first found => absurd (forgotten.symm.trans found) nofun

theorem Inv.create {code : String} {target requester : Endpoint} {displayName : String} {now : Int}
    (inv : L.Inv base) (aim : who = ⟨target.protocol, target.endpoint⟩)
    (aims : L.phase who = .aiming now) :
    Inv base ⟨{ L.d with store := (L.d.store.createChallenge code target requester displayName now
        (now + challengeLifetime)).2 }, L.checks, Function.update L.phase who .closed⟩ := by
  subst aim
  have unchecked : L.checks.count L.d.store.challenges.next = 0 := by
    rw [count_eq_zero]
    exact fun member => (inv.issued _ member).false
  have absent := inv.cleared _ (show (L.phase _).asking = true by rw [aims]; rfl)
  have created : Inv base { L with d := { L.d with store := (L.d.store.createChallenge code target
      requester displayName now (now + challengeLifetime)).2 } } := by
    refine { inv with issued := fun n member => ?_, row := fun c member late => ?_ }
    · exact Nat.lt_succ_of_lt (inv.issued n member)
    · rcases Store.mem_createChallenge.mp member with ⟨old, other⟩ | rfl
      · have watched := inv.row c old late
        refine watched.carry (fun e present same => ?_) rfl (fun _ => rfl) rfl rfl
        rcases Store.mem_createChallenge.mp present with ⟨before, _⟩ | rfl
        · exact watched.alone e before same
        · exact absurd same.symm other
      · refine ⟨inv.plain _ (by rw [aims]; nofun), fun e present same => ?_,
          inv.dated _ now aims, rfl,
          fun _ => ?_, fun _ count first found => absurd (absent.symm.trans found) nofun⟩
        · rcases Store.mem_createChallenge.mp present with ⟨_, different⟩ | rfl
          · exact absurd same different
          · rfl
        · exact unchecked.le.trans (Nat.zero_le _)
  refine created.rephase _ .closed (fun busy => absurd rfl busy) nofun nofun (fun c mine => ?_)
  rcases Store.mem_createChallenge.mp mine.1 with ⟨_, other⟩ | rfl
  · exact absurd mine.2.2.1 other
  · exact unchecked.le.trans (Nat.zero_le _)

end GuessBook

end RelayFabric
