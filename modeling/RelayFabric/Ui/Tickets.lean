/- source: relayfabric-ui/src/auth.rs (Auth::new_challenge, Auth::take_challenge)
   digest: Each challenge token completes one ceremony at most. -/

import RelayFabric.Ui.Console

namespace RelayFabric.Ui

open List Lib Function

def Event.issues : Event → Option String
  | .issued token _ _ => some token
  | _ => none

def Event.redeems : Event → Option String
  | .redeemed token _ _ => some token
  | _ => none

def Event.completes : Event → Option (String × Purpose)
  | .stored token _ _ _ _ _ => some (token, .register)
  | .validated token _ _ _ => some (token, .login)
  | _ => none

def completions (log : List Event) : List (String × Purpose) := log.filterMap Event.completes

variable {e : Event}

theorem Event.issues_eq_some {token : String} :
    e.issues = some token ↔ ∃ purpose expires, e = .issued token purpose expires := by
  cases e <;> simp [Event.issues]

theorem Event.redeems_eq_some {token : String} :
    e.redeems = some token ↔ ∃ purpose time, e = .redeemed token purpose time := by
  cases e <;> simp [Event.redeems]

theorem nodup_filterMap_append {log : List Event} {read : Event → Option String}
    (distinct : (log.filterMap read).Nodup)
    (new : ∀ token, read e = some token → ∀ event ∈ log, read event ≠ some token) :
    ((log ++ [e]).filterMap read).Nodup := by
  rw [filterMap_append, nodup_append]
  refine ⟨distinct, ?_, ?_⟩
  · rw [filterMap_cons, filterMap_nil]
    cases read e <;> simp
  · intro t old t' last same
    obtain ⟨event, member, reads⟩ := mem_filterMap.mp old
    have reads' : read e = some t' := by simpa using last
    exact new t' reads' event member (same ▸ reads)

structure Tickets (tokens : List String) (rows : List (String × Challenge)) (log : List Event)
    (stage : Nat → Stage) : Prop where
  drawn : tokens.Nodup
  issued : ∀ token purpose expires, .issued token purpose expires ∈ log →
    ∃ i, tokens[i]? = some token ∧ stage i = .done
  issuedOnce : (log.filterMap Event.issues).Nodup
  outstanding : ∀ row ∈ rows, .issued row.1 row.2.purpose row.2.expires ∈ log ∧
    ∀ purpose time, .redeemed row.1 purpose time ∉ log
  redeemed : ∀ token purpose time, .redeemed token purpose time ∈ log →
    ∃ expires, .issued token purpose expires ∈ log ∧ time < expires
  redeemedOnce : (log.filterMap Event.redeems).Nodup
  held : ∀ i token purpose admin, stage i = .holding token purpose admin →
    (∃ time, .redeemed token purpose time ∈ log) ∧ token ∉ (completions log).map Prod.fst
  apart : ∀ i j token purpose purpose' admin admin', stage i = .holding token purpose admin →
    stage j = .holding token purpose' admin' → i = j
  completed : ∀ token purpose, (token, purpose) ∈ completions log →
    ∃ time, .redeemed token purpose time ∈ log
  once : ((completions log).map Prod.fst).Nodup

namespace Tickets

variable {tokens : List String} {rows rows' : List (String × Challenge)} {log : List Event}
  {stage : Nat → Stage} {i : Nat} {q : Stage}

variable {token : String} {purpose : Purpose}

theorem held_update {j : Nat} {admin : Bool}
    (released : ∀ token purpose admin, q ≠ .holding token purpose admin)
    (holds : Function.update stage i q j = .holding token purpose admin) :
    j ≠ i ∧ stage j = .holding token purpose admin := by
  by_cases own : j = i
  · subst own
    rw [update_self] at holds
    exact absurd holds (released token purpose admin)
  · rw [update_of_ne own] at holds
    exact ⟨own, holds⟩

section

variable (inv : Tickets tokens rows log stage)
include inv

theorem release (active : stage i ≠ .done)
    (released : ∀ token purpose admin, q ≠ .holding token purpose admin)
    (within : ∀ row ∈ rows', row ∈ rows) :
    Tickets tokens rows' log (Function.update stage i q) := by
  refine { inv with issued := ?_, outstanding := ?_, held := ?_, apart := ?_ }
  · intro token purpose expires event
    obtain ⟨j, drawn, ended⟩ := inv.issued token purpose expires event
    have other : j ≠ i := by
      rintro rfl
      exact active ended
    exact ⟨j, drawn, by rw [update_of_ne other, ended]⟩
  · intro row member
    exact inv.outstanding row (within row member)
  · intro j token purpose admin holds
    exact inv.held j token purpose admin (held_update released holds).2
  · intro j k token purpose purpose' admin admin' holds holds'
    exact inv.apart j k token purpose purpose' admin admin' (held_update released holds).2
      (held_update released holds').2

theorem hold (active : stage i ≠ .done) (admin : Bool)
    (redeemed : ∃ time, .redeemed token purpose time ∈ log)
    (fresh : token ∉ (completions log).map Prod.fst)
    (alone : ∀ j purpose admin, stage j ≠ .holding token purpose admin) :
    Tickets tokens rows log (Function.update stage i (.holding token purpose admin)) := by
  have before : ∀ j token' purpose' admin', j ≠ i →
      Function.update stage i (.holding token purpose admin) j = .holding token' purpose' admin' →
        stage j = .holding token' purpose' admin' := by
    intro j token' purpose' admin' other holds
    rwa [update_of_ne other] at holds
  have mine : ∀ token' purpose' admin',
      Function.update stage i (.holding token purpose admin) i = .holding token' purpose' admin' →
        token = token' ∧ purpose = purpose' := by
    intro token' purpose' admin' holds
    rw [update_self] at holds
    obtain ⟨named, kind, -⟩ := Stage.holding.inj holds
    exact ⟨named, kind⟩
  refine { inv with issued := ?_, held := ?_, apart := ?_ }
  · intro token' purpose' expires event
    obtain ⟨j, drawn, ended⟩ := inv.issued token' purpose' expires event
    have other : j ≠ i := by
      rintro rfl
      exact active ended
    exact ⟨j, drawn, by rw [update_of_ne other, ended]⟩
  · intro j token' purpose' admin' holds
    by_cases own : j = i
    · subst own
      obtain ⟨rfl, rfl⟩ := mine token' purpose' admin' holds
      exact ⟨redeemed, fresh⟩
    · exact inv.held j token' purpose' admin' (before j token' purpose' admin' own holds)
  · intro j k token' purpose' purpose'' admin' admin'' holds holds'
    by_cases first : j = i
    · by_cases second : k = i
      · rw [first, second]
      · subst first
        obtain ⟨rfl, -⟩ := mine token' purpose' admin' holds
        exact absurd (before k token purpose'' admin'' second holds') (alone k purpose'' admin'')
    · have holding := before j token' purpose' admin' first holds
      by_cases second : k = i
      · subst second
        obtain ⟨rfl, -⟩ := mine token' purpose'' admin'' holds'
        exact absurd holding (alone j purpose' admin')
      · exact inv.apart j k token' purpose' purpose'' admin' admin'' holding
          (before k token' purpose'' admin'' second holds')

theorem add {expires : Nat}
    (issued : .issued token purpose expires ∈ log)
    (fresh : ∀ purpose time, .redeemed token purpose time ∉ log)
    (within : ∀ row ∈ rows', (row.1 = token ∧ row.2.purpose = purpose ∧ row.2.expires = expires) ∨
      row ∈ rows) : Tickets tokens rows' log stage := by
  refine { inv with outstanding := ?_ }
  intro row member
  rcases within row member with ⟨rfl, rfl, rfl⟩ | old
  · exact ⟨issued, fresh⟩
  · exact inv.outstanding row old

end

theorem completions_append (log : List Event) (e : Event) :
    completions (log ++ [e]) = completions log ++ e.completes.toList := by
  unfold completions
  cases completed : e.completes <;> simp [completed]

section

variable (inv : Tickets tokens rows log stage)
include inv

theorem append (e : Event)
    (issuing : ∀ token purpose expires, e = .issued token purpose expires →
      (∃ i, tokens[i]? = some token ∧ stage i = .done) ∧
        ∀ purpose expires, .issued token purpose expires ∉ log)
    (redeeming : ∀ token purpose time, e = .redeemed token purpose time →
      (∃ expires, .issued token purpose expires ∈ log ∧ time < expires) ∧
        (∀ row ∈ rows, row.1 ≠ token) ∧ ∀ purpose time, .redeemed token purpose time ∉ log)
    (completing : ∀ token purpose, e.completes = some (token, purpose) →
      (∃ time, .redeemed token purpose time ∈ log) ∧ token ∉ (completions log).map Prod.fst ∧
        ∀ i purpose admin, stage i ≠ .holding token purpose admin) :
    Tickets tokens rows (log ++ [e]) stage := by
  have later : ∀ {event : Event}, event ∈ log → event ∈ log ++ [e] := mem_append_left _
  refine ⟨inv.drawn, ?_, ?_, ?_, ?_, ?_, ?_, inv.apart, ?_, ?_⟩
  · intro token purpose expires event
    rcases mem_append.mp event with old | new
    · exact inv.issued token purpose expires old
    · exact (issuing token purpose expires (mem_singleton.mp new).symm).1
  · refine nodup_filterMap_append inv.issuedOnce (fun token issues event member issues' => ?_)
    obtain ⟨purpose, expires, rfl⟩ := Event.issues_eq_some.mp issues
    obtain ⟨purpose', expires', rfl⟩ := Event.issues_eq_some.mp issues'
    exact (issuing token purpose expires rfl).2 purpose' expires' member
  · intro row member
    obtain ⟨issued, fresh⟩ := inv.outstanding row member
    refine ⟨later issued, fun purpose time event => ?_⟩
    rcases mem_append.mp event with old | new
    · exact fresh purpose time old
    · exact (redeeming row.1 purpose time (mem_singleton.mp new).symm).2.1 row member rfl
  · intro token purpose time event
    rcases mem_append.mp event with old | new
    · obtain ⟨expires, issued, early⟩ := inv.redeemed token purpose time old
      exact ⟨expires, later issued, early⟩
    · obtain ⟨⟨expires, issued, early⟩, -⟩ :=
        redeeming token purpose time (mem_singleton.mp new).symm
      exact ⟨expires, later issued, early⟩
  · refine nodup_filterMap_append inv.redeemedOnce (fun token redeems event member redeems' => ?_)
    obtain ⟨purpose, time, rfl⟩ := Event.redeems_eq_some.mp redeems
    obtain ⟨purpose', time', rfl⟩ := Event.redeems_eq_some.mp redeems'
    exact (redeeming token purpose time rfl).2.2 purpose' time' member
  · intro j token purpose admin holds
    obtain ⟨⟨time, event⟩, fresh⟩ := inv.held j token purpose admin holds
    refine ⟨⟨time, later event⟩, ?_⟩
    rw [completions_append, map_append, mem_append]
    rintro (old | new)
    · exact fresh old
    · obtain ⟨⟨token', purpose'⟩, completed, rfl⟩ := mem_map.mp new
      exact (completing token' purpose' (by simpa using completed)).2.2 j purpose admin holds
  · intro token purpose member
    rw [completions_append] at member
    rcases mem_append.mp member with old | new
    · obtain ⟨time, event⟩ := inv.completed token purpose old
      exact ⟨time, later event⟩
    · obtain ⟨⟨time, event⟩, -⟩ := completing token purpose (by simpa using new)
      exact ⟨time, later event⟩
  · rw [completions_append, map_append, nodup_append]
    refine ⟨inv.once, by cases e.completes <;> simp, ?_⟩
    intro t old t' new same
    obtain ⟨⟨token', purpose'⟩, completed, rfl⟩ := mem_map.mp new
    rw [same] at old
    exact (completing token' purpose' (by simpa using completed)).2.1 old

theorem unissued (own : tokens[i]? = some token)
    (active : stage i ≠ .done) (purpose : Purpose) (expires : Nat) :
    .issued token purpose expires ∉ log := by
  intro event
  obtain ⟨j, drawn, ended⟩ := inv.issued token purpose expires event
  have bound := (List.getElem?_eq_some_iff.mp own).1
  have same := (List.getElem?_inj bound inv.drawn).mp (own.trans drawn.symm)
  rw [same] at active
  exact active ended

theorem issue {expires : Nat} (own : tokens[i]? = some token)
    (active : stage i ≠ .done)
    (within : ∀ row ∈ rows', (row.1 = token ∧ row.2.purpose = purpose ∧ row.2.expires = expires) ∨
      row ∈ rows) :
    Tickets tokens rows' (log ++ [.issued token purpose expires])
      (Function.update stage i .done) := by
  have fresh := inv.unissued own active
  have ended := inv.release (q := .done) active (by rintro _ _ _ ⟨⟩) (fun row member => member)
  have seen := ended.append (.issued token purpose expires)
    (by
      rintro _ _ _ ⟨⟩
      exact ⟨⟨i, own, update_self ..⟩, fresh⟩)
    (by rintro _ _ _ ⟨⟩) (by rintro _ _ ⟨⟩)
  refine seen.add (mem_append_right _ (mem_singleton_self _)) ?_ within
  intro purpose' time event
  have redeemed : .redeemed token purpose' time ∈ log := by simpa using event
  obtain ⟨expires', issued, _⟩ := inv.redeemed token purpose' time redeemed
  exact fresh purpose' expires' issued

theorem redeem {c : Challenge} {time : Nat}
    (admin : Bool) (active : stage i ≠ .done) (outstanding : (token, c) ∈ rows)
    (early : time < c.expires) (within : ∀ row ∈ rows', row ∈ rows ∧ row.1 ≠ token) :
    Tickets tokens rows' (log ++ [.redeemed token c.purpose time])
      (Function.update stage i (.holding token c.purpose admin)) := by
  obtain ⟨issued, fresh⟩ := inv.outstanding (token, c) outstanding
  have dropped : Tickets tokens rows' log stage :=
    { inv with outstanding := fun row member => inv.outstanding row (within row member).1 }
  have seen := dropped.append (.redeemed token c.purpose time) (by rintro _ _ _ ⟨⟩)
    (by
      rintro _ _ _ ⟨⟩
      exact ⟨⟨c.expires, issued, early⟩, fun row member => (within row member).2, fresh⟩)
    (by rintro _ _ ⟨⟩)
  refine seen.hold active admin ⟨time, mem_append_right _ (mem_singleton_self _)⟩ ?_ ?_
  · rw [completions_append, map_append]
    intro completed
    have before : token ∈ (completions log).map Prod.fst := by
      simpa [Event.completes] using completed
    obtain ⟨⟨_, purpose⟩, member, rfl⟩ := mem_map.mp before
    obtain ⟨time', event⟩ := inv.completed _ purpose member
    exact fresh purpose time' event
  · intro j purpose admin' holds
    obtain ⟨⟨time', event⟩, -⟩ := inv.held j token purpose admin' holds
    exact fresh purpose time' event

theorem complete {admin : Bool} {e : Event}
    (holds : stage i = .holding token purpose admin)
    (released : ∀ token purpose admin, q ≠ .holding token purpose admin)
    (completes : e.completes = some (token, purpose)) :
    Tickets tokens rows (log ++ [e]) (Function.update stage i q) := by
  obtain ⟨redeemed, fresh⟩ := inv.held i token purpose admin holds
  have active : stage i ≠ .done := by
    rw [holds]
    rintro ⟨⟩
  have moved := inv.release active released (fun row member => member)
  refine moved.append e ?_ ?_ ?_
  · rintro _ _ _ rfl
    cases completes
  · rintro _ _ _ rfl
    cases completes
  · intro token' purpose' completes'
    obtain ⟨rfl, rfl⟩ := Prod.mk.inj (Option.some.inj (completes.symm.trans completes'))
    refine ⟨redeemed, fresh, fun j purpose' admin' holds' => ?_⟩
    obtain ⟨other, holding⟩ := held_update released holds'
    exact other (inv.apart j i token purpose' purpose admin' admin holding holds)

end

end Tickets

namespace Console

variable {L : Libraries} {C : AuthConfig} {σ σ' : Console} {stage : Nat → Stage} {move : Move}

def tokens (σ : Console) : List String := σ.calls.map (fun call => call.1.draw.token)

/-- A request that arrives draws a token that no other request has drawn. -/
def fresh (move : Move) (σ : Console) : Bool :=
  match move with
  | .arrive call => !σ.tokens.contains call.draw.token
  | _ => true

def TicketsKept (σ : Console) (stage : Nat → Stage) : Prop :=
  Tickets σ.tokens σ.auth.challenges.rows σ.log stage

theorem TicketsKept.act (inv : σ.TicketsKept stage) {i : Nat} {call : Call} {l : Section}
    {a' : Auth} {q : Stage} {e : Option Event} (own : σ.tokens[i]? = some call.draw.token)
    (step : AuthStep call (stage i) l σ.auth a' q e) :
    Tickets σ.tokens a'.challenges.rows (σ.log ++ e.toList) (Function.update stage i q) := by
  have active : stage i ≠ .done := by
    intro ended
    rw [ended] at step
    exact step.not_done
  have rest : ∀ {q'}, (∀ token purpose admin, q' ≠ Stage.holding token purpose admin) →
      ∀ {rows'}, (∀ row ∈ rows', row ∈ σ.auth.challenges.rows) →
        Tickets σ.tokens rows' (σ.log ++ (none : Option Event).toList)
          (Function.update stage i q') := by
    intro q' released rows' within
    rw [Option.toList_none, append_nil]
    exact inv.release active released within
  generalize before : stage i = q₀ at step
  cases step with
  | session token =>
    refine rest (by rintro _ _ _ ⟨⟩) (fun row member => ?_)
    rwa [(σ.auth.sessionInfo_frame token).2.1] at member
  | credentials | logout | refuse | reject | openSession | keep =>
    exact rest (by rintro _ _ _ ⟨⟩) (fun row member => member)
  | newChallenge admin purpose =>
    refine inv.issue own active (fun row member => ?_)
    rcases Entries.mem_of_mem_put member with rfl | ⟨old, _⟩
    · exact Or.inl ⟨rfl, rfl, rfl⟩
    · exact Or.inr old
  | take admin token purpose challenge _ serves =>
    obtain ⟨c, outstanding, rfl, early, -⟩ := (σ.auth.takeChallenge_eq_some token).mp serves
    exact inv.redeem admin active outstanding early
      (fun row member => σ.auth.mem_takeChallenge token member)
  | miss admin token purpose =>
    exact rest (by rintro _ _ _ ⟨⟩) (fun row member => (σ.auth.mem_takeChallenge token member).1)
  | store token admin requireEmpty record =>
    rw [Auth.challenges_persist]
    exact inv.complete before (by rintro _ _ _ ⟨⟩) rfl
  | validate token credentialId admin counter cred =>
    have same : (if cred.counter < counter then
        ({ σ.auth with creds := Auth.setCounter credentialId counter σ.auth.creds }).persist
          call.draw.works
        else σ.auth).challenges = σ.auth.challenges := by
      split
      · rw [Auth.challenges_persist]
      · rfl
    rw [same]
    exact inv.complete before (by rintro _ _ _ ⟨⟩) rfl
  | remove id =>
    rw [Auth.challenges_persist]
    have moved := inv.release (q := .done) active (by rintro _ _ _ ⟨⟩) (fun row member => member)
    exact moved.append (.removed id) (by rintro _ _ _ ⟨⟩) (by rintro _ _ _ ⟨⟩) (by rintro _ _ ⟨⟩)

theorem tokens_set {i : Nat} {call : Call} {p : AuthProg Reply}
    (called : (σ.calls[i]?).map Prod.fst = some call) :
    σ.tokens[i]? = some call.draw.token ∧
      (σ.calls.set i (call, p)).map (fun call => call.1.draw.token) = σ.tokens := by
  obtain ⟨running, found, rfl⟩ := Option.map_eq_some_iff.mp called
  have own : σ.tokens[i]? = some running.1.draw.token := by
    unfold tokens
    rw [List.getElem?_map, found]
    rfl
  refine ⟨own, ?_⟩
  obtain ⟨bound, got⟩ := List.getElem?_eq_some_iff.mp own
  have unchanged : σ.tokens.set i σ.tokens[i] = σ.tokens := set_getElem_self bound
  rw [got] at unchanged
  rw [map_set]
  exact unchanged

theorem TicketsKept.init (loaded : List CredentialRecord) (now : Nat) :
    (Console.init loaded now).TicketsKept (fun _ => .idle false) where
  drawn := nodup_nil
  issued := by rintro _ _ _ ⟨⟩
  issuedOnce := nodup_nil
  outstanding := by rintro _ ⟨⟩
  redeemed := by rintro _ _ _ ⟨⟩
  redeemedOnce := nodup_nil
  held := by rintro _ _ _ _ ⟨⟩
  apart := by rintro _ _ _ _ _ _ _ ⟨⟩
  completed := by rintro _ _ ⟨⟩
  once := nodup_nil

theorem TicketsKept.step (inv : σ.TicketsKept stage) (stages : σ.Stages stage)
    (drawn : σ.fresh move = true) (stepped : Console.step L C move σ = some σ') :
    ∃ stage', σ'.Stages stage' ∧ σ'.TicketsKept stage' := by
  obtain ⟨stage', change, stages'⟩ := stages.step stepped
  refine ⟨stage', stages', ?_⟩
  cases change with
  | arrive call p =>
    have new : call.draw.token ∉ σ.tokens := by simpa [Console.fresh] using drawn
    have listed : tokens { σ with calls := σ.calls ++ [(call, p)] } =
        σ.tokens ++ [call.draw.token] := by
      simp [tokens]
    unfold TicketsKept
    rw [listed]
    refine { inv with drawn := ?_, issued := ?_ }
    · rw [nodup_append]
      refine ⟨inv.drawn, nodup_singleton _, ?_⟩
      intro t old t' last same
      rw [mem_singleton.mp last] at same
      exact new (same ▸ old)
    · intro token purpose expires event
      obtain ⟨i, own, ended⟩ := inv.issued token purpose expires event
      have bound := (List.getElem?_eq_some_iff.mp own).1
      exact ⟨i, by rw [List.getElem?_append_left bound, own], ended⟩
  | tick elapsed => exact inv
  | act i call l p a' q e labelled called step =>
    obtain ⟨own, same⟩ := tokens_set (p := p) called
    have kept := inv.act own step
    unfold TicketsKept tokens
    rw [same]
    exact kept

end Console

end RelayFabric.Ui
