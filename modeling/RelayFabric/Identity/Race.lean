/- source: engine.rs (handle_inbound, confirm_link, note_failed_link_guess, initiate_link)
   digest: The window between looking a challenge up and consuming it. -/

import RelayFabric.Identity.Desk

namespace RelayFabric

open List Lib

namespace Desk

variable {K : Crypto} {σ σ' : Desk} {stage : Nat → DeskStage}

structure Held (σ : Desk) (i : Nat) (c : Challenge) : Prop where
  identity : σ.identity i = some c.target
  issued : c.id < σ.d.store.challenges.next
  unconfirmed : c.id ∉ σ.confirmed
  current : c.id ∉ σ.retired
  row : ∀ e ∈ σ.d.store.challenges.rows, e.id = c.id → e = c

def Past (s : Store) (n : Nat) : Prop :=
  n < s.challenges.next ∧ ∀ c ∈ s.challenges.rows, c.id ≠ n

structure Inv (stage : Nat → DeskStage) (σ : Desk) : Prop where
  stages : σ.Stages stage
  held : ∀ i c, stage i = .holding c → σ.Held i c
  agree : ∀ i j c e, stage i = .holding c → stage j = .holding e → c.id = e.id → c = e
  once : σ.confirmed.Nodup
  confirmed : ∀ n ∈ σ.confirmed, Past σ.d.store n
  retired : ∀ n ∈ σ.retired, Past σ.d.store n

variable {s' : Store} {n i : Nat} {c : Challenge} {who : Identity}

theorem Past.evolves {s : Store} (past : Past s n) (evolves : s.Evolves s') :
    Past s' n := by
  refine ⟨past.1.trans_le evolves.next, fun c member same => ?_⟩
  rcases evolves.rows c member with old | new
  · exact past.2 c old same
  · have issued := past.1
    omega

theorem Held.row_evolves (held : σ.Held i c)
    (evolves : σ.d.store.Evolves s') : ∀ e ∈ s'.challenges.rows, e.id = c.id → e = c := by
  intro e member same
  rcases evolves.rows e member with old | new
  · exact held.row e old same
  · have issued := held.issued
    omega

theorem label_of_holding (stages : σ.Stages stage) (holding : stage i = .holding c) :
    ∃ who p, σ.calls[i]? = some (who, p) ∧ σ.label i = some (.confirm c.id) := by
  have bound : i < σ.calls.length := by
    by_contra beyond
    rw [stages.beyond i (by omega)] at holding
    cases holding
  obtain ⟨⟨who, p⟩, found⟩ : ∃ call, σ.calls[i]? = some call := ⟨_, List.getElem?_eq_getElem bound⟩
  refine ⟨who, p, found, ?_⟩
  have follows := stages.follows i who p found
  rw [holding] at follows
  unfold label
  rw [found]
  cases p with
  | ret a =>
    have final := Prog.follows_ret follows
    cases final
  | act l effect next =>
    obtain ⟨q, offered, _⟩ := Prog.follows_act follows (s := σ.d) trivial
    exact congrArg some offered.confirms

theorem holding_of_label (stages : σ.Stages stage) (label : σ.label i = some (.confirm n)) :
    ∃ c, stage i = .holding c ∧ c.id = n := by
  obtain ⟨⟨who, p⟩, found, named⟩ := Option.bind_eq_some_iff.mp label
  have follows := stages.follows i who p found
  cases p with
  | ret a => cases named
  | act l effect next =>
    cases named
    obtain ⟨q, offered, _⟩ := Prog.follows_act follows (s := σ.d) trivial
    exact offered.holding

theorem no_other_holds {j : Nat} {l : Section} (stages : σ.Stages stage)
    (excludes : σ.excludes (.section i) = true) (label : σ.label i = some l)
    (decides : l.decides = true)
    (other : j ≠ i) (holding : stage j = .holding c) : σ.identity j ≠ σ.identity i := by
  obtain ⟨who, p, found, confirming⟩ := label_of_holding stages holding
  have bound : j < σ.calls.length := (List.getElem?_eq_some_iff.mp found).1
  simp only [Desk.excludes] at excludes
  rw [label, Option.any_some, decides, Bool.not_true, Bool.false_or, all_eq_true] at excludes
  have free := excludes j (mem_range.mpr bound)
  have holds : σ.holds j = true := by
    unfold Desk.holds
    rw [confirming]
    rfl
  simpa [other, holds] using free

theorem Inv.around {d' : Daemon} (inv : σ.Inv stage) (evolves : σ.d.store.Evolves d'.store) :
    Inv stage { σ with d := d' } where
  stages := inv.stages
  held i c holding :=
    have old := inv.held i c holding
    { old with issued := old.issued.trans_le evolves.next, row := old.row_evolves evolves }
  agree := inv.agree
  once := inv.once
  confirmed n member := (inv.confirmed n member).evolves evolves
  retired n member := (inv.retired n member).evolves evolves

theorem Inv.spawn {p : Engine Unit} (inv : σ.Inv stage)
    (starts : AtDesk who .idle p) : Inv stage { σ with calls := σ.calls ++ [(who, p)] } := by
  refine { inv with stages := inv.stages.spawn starts, held := fun i c holding => ?_ }
  have old := inv.held i c holding
  refine { old with identity := ?_ }
  obtain ⟨call, found, _⟩ := Option.map_eq_some_iff.mp old.identity
  have bound : i < σ.calls.length := (List.getElem?_eq_some_iff.mp found).1
  have same : identity { σ with calls := σ.calls ++ [(who, p)] } i = σ.identity i := by
    unfold identity
    rw [List.getElem?_append_left bound]
  exact same.trans old.identity

theorem mem_removedChallenges {s : Store} (member : n ∈ removedChallenges s s') :
    (∃ c ∈ s.challenges.rows, c.id = n) ∧ ∀ c ∈ s'.challenges.rows, c.id ≠ n := by
  obtain ⟨listed, absent⟩ := mem_filter.mp member
  exact ⟨mem_map.mp listed, (Table.get?_eq_none _).mp (Option.isNone_iff_eq_none.mp absent)⟩

theorem removedChallenges_self (s : Store) : removedChallenges s s = [] := by
  rw [eq_nil_iff_forall_not_mem]
  intro n member
  obtain ⟨⟨c, row, same⟩, absent⟩ := mem_removedChallenges member
  exact absent c row same

section Section

variable {i : Nat} {who : Identity} {l : Section} {d' : Daemon} {q : DeskStage}

theorem Inv.spares (inv : σ.Inv stage) (excludes : σ.excludes (.section i) = true)
    (label : σ.label i = some l) (identity : σ.identity i = some who)
    (step : DeskStep who (stage i) l σ.d d' q) {j : Nat} {c : Challenge} (other : j ≠ i)
    (holding : stage j = .holding c) :
    c.id ∉ l.confirms.toList ∧ c.id ∉ removedChallenges σ.d.store d'.store := by
  have held := inv.held j c holding
  -- two calls that hold challenges of one key hold one challenge, so they are for one identity
  have apart : ∀ e, stage i = .holding e → e.id ≠ c.id := by
    intro e mine same
    have equal := inv.agree i j e c mine holding same
    have named := (inv.held i e mine).identity
    obtain ⟨who', p, found, confirming⟩ := label_of_holding inv.stages mine
    rw [label] at confirming
    have decides : l.decides = true := by rw [Option.some.inj confirming]; rfl
    refine no_other_holds inv.stages excludes label decides other holding ?_
    rw [held.identity, named, equal]
  constructor
  · intro consumed
    have confirms : l.confirms = some c.id := by simpa using consumed
    have confirming : σ.label i = some (.confirm c.id) := by
      rw [label, Section.confirms_eq_some.mp confirms]
    obtain ⟨e, mine, same⟩ := holding_of_label inv.stages confirming
    exact apart e mine same
  · intro removed
    obtain ⟨⟨e, row, same⟩, absent⟩ := mem_removedChallenges removed
    obtain rfl := held.row e row same
    obtain ⟨decides, target | ⟨e', mine, same'⟩⟩ := step.removes row (fun left => absent e left rfl)
    · refine no_other_holds inv.stages excludes label decides other holding ?_
      rw [held.identity, identity, target]
    · exact apart e' mine same'

theorem Inv.takes (inv : σ.Inv stage) (step : DeskStep who (stage i) l σ.d d' q) {c : Challenge}
    (holding : q = .holding c) :
    d' = σ.d ∧ l.confirms = none ∧ c ∈ σ.d.store.challenges.rows ∧ c.target = who ∧
      c.id ∉ σ.confirmed ∧ c.id ∉ σ.retired := by
  generalize stage i = before at step
  cases step with
  | found _ e row target =>
    obtain rfl := DeskStage.holding.inj holding
    exact ⟨rfl, rfl, row, target, fun member => (inv.confirmed _ member).2 e row rfl,
      fun member => (inv.retired _ member).2 e row rfl⟩
  | other | create | revoke | confirm => cases holding

theorem Inv.consumes (inv : σ.Inv stage) (step : DeskStep who (stage i) l σ.d d' q) {n : Nat}
    (confirms : l.confirms = some n) : n ∉ σ.confirmed ∧ Past d'.store n := by
  cases mine : stage i with
  | idle =>
    rw [mine] at step
    cases step with
    | other _ _ _ quiet _ =>
      exact absurd (Section.confirms_eq_some.mp confirms) (quiet n)
    | found | create | revoke => cases confirms
  | holding c =>
    have held := inv.held i c mine
    rw [mine] at step
    have evolves := step.evolves
    cases step with
    | confirm _ _ now =>
      cases confirms
      refine ⟨held.unconfirmed, held.issued.trans_le evolves.next, fun e member => ?_⟩
      rw [Store.challenges_confirmLinkStore] at member
      exact (Store.mem_deleteChallenge.mp member).2

end Section

theorem Inv.section {l : Section} {effect : Daemon → Daemon}
    {next : Daemon → Engine Unit} (inv : σ.Inv stage)
    (running : σ.calls[i]? = some (who, .act l effect next))
    (excludes : σ.excludes (.section i) = true) :
    ∃ stage', Inv stage'
      { d := effect σ.d
        calls := σ.calls.set i (who, next σ.d)
        confirmed := l.confirms.toList ++ σ.confirmed
        retired := removedChallenges σ.d.store (effect σ.d).store ++ σ.retired } := by
  obtain ⟨q, step, later⟩ := inv.stages.act running σ.d
  have here : Function.update stage i q i = q := Function.update_self ..
  have there {j : Nat} (other : j ≠ i) : Function.update stage i q j = stage j :=
    Function.update_of_ne other ..
  have label : σ.label i = some l := by
    unfold Desk.label
    rw [running]
    rfl
  have identity : σ.identity i = some who := by
    unfold Desk.identity
    rw [running]
    rfl
  have evolves := step.evolves
  refine ⟨Function.update stage i q, later, ?_, ?_, ?_, ?_, ?_⟩
  · intro j c holding
    by_cases same : j = i
    · subst same
      rw [here] at holding
      obtain ⟨still, quiet, row, target, unconfirmed, current⟩ := inv.takes step holding
      refine ⟨(identity_set running).trans (identity.trans (congrArg some target.symm)), ?_,
        ?_, ?_, ?_⟩
      · exact (σ.d.store.challenges.below c row).trans_le evolves.next
      · rw [quiet]
        exact unconfirmed
      · rw [still, removedChallenges_self]
        exact current
      · rw [still]
        exact fun e member same => inj_on_of_nodup_map σ.d.store.challenges.distinct member row same
    · rw [there same] at holding
      have held := inv.held j c holding
      obtain ⟨unconsumed, kept⟩ := inv.spares excludes label identity step same holding
      refine ⟨(identity_set running).trans held.identity, held.issued.trans_le evolves.next, ?_, ?_,
        held.row_evolves evolves⟩
      · rw [mem_append, not_or]
        exact ⟨unconsumed, held.unconfirmed⟩
      · rw [mem_append, not_or]
        exact ⟨kept, held.current⟩
  · -- a challenge that was looked up now is the row that another call holds
    have fresh {j : Nat} {c e : Challenge} (mine : q = .holding c) (yours : stage j = .holding e)
        (same : c.id = e.id) : c = e :=
      (inv.held j e yours).row c (inv.takes step mine).2.2.1 same
    intro j k c e first second same
    by_cases jHere : j = i <;> by_cases kHere : k = i
    · rw [jHere, here] at first
      rw [kHere, here, first] at second
      exact DeskStage.holding.inj second
    · rw [jHere, here] at first
      rw [there kHere] at second
      exact fresh first second same
    · rw [there jHere] at first
      rw [kHere, here] at second
      exact (fresh second first same.symm).symm
    · rw [there jHere] at first
      rw [there kHere] at second
      exact inv.agree j k c e first second same
  · cases consumed : l.confirms with
    | none => exact inv.once
    | some n => exact nodup_cons.mpr ⟨(inv.consumes step consumed).1, inv.once⟩
  · intro n member
    rcases mem_append.mp member with new | old
    · exact (inv.consumes step (by simpa using new)).2
    · exact (inv.confirmed n old).evolves evolves
  · intro n member
    rcases mem_append.mp member with new | old
    · obtain ⟨⟨c, row, same⟩, absent⟩ := mem_removedChallenges new
      refine ⟨?_, absent⟩
      rw [← same]
      exact (σ.d.store.challenges.below c row).trans_le evolves.next
    · exact (inv.retired n old).evolves evolves

theorem Inv.step {a : DeskMove} (step : Desk.step K a σ = some σ') (excludes : σ.excludes a = true)
    (inv : σ.Inv stage) : ∃ stage', σ'.Inv stage' := by
  cases a with
  | inbound io a =>
    cases step
    exact ⟨stage, inv.spawn (handle_desk ..)⟩
  | initiate names notice code requester target displayName =>
    cases step
    exact ⟨stage, inv.spawn (initiate_stages ..)⟩
  | «section» i =>
    simp only [Desk.step] at step
    split at step
    · next who l effect next running =>
      cases step
      exact inv.section running excludes
    · cases step
  | purge now =>
    cases step
    refine ⟨stage, inv.around ⟨le_rfl, fun c member => .inl ?_⟩⟩
    exact (Store.mem_purgeExpiredChallenges.mp member).1
  | unlink id =>
    cases step
    exact ⟨stage, inv.around ⟨le_rfl, fun _ member => .inl member⟩⟩
  | around change =>
    cases step
    exact ⟨stage, inv.around ⟨le_rfl, fun _ member => .inl member⟩⟩

end Desk

end RelayFabric
