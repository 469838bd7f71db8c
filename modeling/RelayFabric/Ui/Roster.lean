/- source: relayfabric-ui/src/auth.rs (Auth::register, Auth::login, Auth::remove_credential)
   digest: The credentials along every run: an administrator among them, and growing counters. -/

import RelayFabric.Ui.Console

namespace RelayFabric.Ui

open List Lib

section

variable {creds : List CredentialRecord} {cred : CredentialRecord} {id : String} {counter : Nat}

def HasAdmin (creds : List CredentialRecord) : Prop := ∃ c ∈ creds, c.role = .administrator

theorem HasAdmin.ne_nil (admin : HasAdmin creds) : creds ≠ [] := by
  obtain ⟨c, member, _⟩ := admin
  exact ne_nil_of_mem member

theorem HasAdmin.append (admin : HasAdmin creds) (record : CredentialRecord) :
    HasAdmin (creds ++ [record]) := by
  obtain ⟨c, member, role⟩ := admin
  exact ⟨c, mem_append_left _ member, role⟩

@[simp] theorem map_role_setCounter (id : String) (counter : Nat) (creds : List CredentialRecord) :
    (Auth.setCounter id counter creds).map CredentialRecord.role =
      creds.map CredentialRecord.role := by
  induction creds with
  | nil => rfl
  | cons c rest ih =>
    unfold Auth.setCounter
    split
    · rfl
    · rw [map_cons, map_cons, ih]

theorem hasAdmin_iff_mem : HasAdmin creds ↔ .administrator ∈ creds.map CredentialRecord.role := by
  rw [mem_map]
  rfl

theorem eraseP_of_find? {p : CredentialRecord → Bool} (found : creds.find? p = some cred) :
    ∃ before after, creds = before ++ cred :: after ∧ creds.eraseP p = before ++ after := by
  obtain ⟨selected, before, after, rfl, skipped⟩ := List.find?_eq_some_iff_append.mp found
  refine ⟨before, after, rfl, ?_⟩
  rw [eraseP_append_right _ (fun c member => by simpa using skipped c member),
    eraseP_cons_of_pos selected]

theorem HasAdmin.eraseP {p : CredentialRecord → Bool} (admin : HasAdmin creds)
    (found : creds.find? p = some cred)
    (others : ¬(cred.role = .administrator ∧ creds.countP (fun c => c.role = .administrator) = 1)) :
    HasAdmin (creds.eraseP p) := by
  obtain ⟨before, after, rfl, erased⟩ := eraseP_of_find? found
  rw [erased]
  by_cases role : cred.role = .administrator
  · have several : 0 < (before ++ after).countP (fun c => c.role = .administrator) := by
      have count : ¬(before ++ cred :: after).countP (fun c => c.role = .administrator) = 1 :=
        fun one => others ⟨role, one⟩
      rw [countP_append, countP_cons_of_pos (by simpa using role)] at count
      rw [countP_append]
      omega
    obtain ⟨c, member, is⟩ := countP_pos_iff.mp several
    exact ⟨c, member, by simpa using is⟩
  · obtain ⟨c, member, is⟩ := admin
    refine ⟨c, ?_, is⟩
    have apart : c ≠ cred := fun same => role (same ▸ is)
    rw [mem_append] at member ⊢
    rcases member with early | late
    · exact Or.inl early
    · exact Or.inr ((mem_cons.mp late).resolve_left apart)

end

def Stage.Inside : Stage → Prop
  | .idle admin => admin = true
  | .holding _ _ admin => admin = true
  | .validated _ _ => True
  | .done => False

def Event.setup? : Event → Option Bool
  | .stored _ true wasEmpty _ _ _ => some wasEmpty
  | _ => none

def setups (log : List Event) : List Bool := log.filterMap Event.setup?

theorem setups_append (log : List Event) (e : Option Event) :
    setups (log ++ e.toList) = setups log ++ (e.bind Event.setup?).toList := by
  unfold setups
  rw [filterMap_append]
  cases e with
  | none => rfl
  | some e => cases used : e.setup? <;> simp [used]

section

variable {call : Call} {q q' : Stage} {l : Section} {a a' : Auth} {e : Option Event}

theorem AuthStep.roles (step : AuthStep call q l a a' q' e) :
    (a'.creds.map CredentialRecord.role = a.creds.map CredentialRecord.role ∧
        e.bind Event.setup? = none) ∨
      (∃ token admin requireEmpty record wasEmpty counter time, q = .holding token .register admin ∧
        e = some (.stored token requireEmpty wasEmpty record.id counter time) ∧
        wasEmpty = a.creds.isEmpty ∧ a'.creds = a.creds ++ [record] ∧
        (requireEmpty = true → record.role = .administrator) ∧
        (requireEmpty = false → admin = true) ∧ (requireEmpty = true → a.creds = [])) ∨
      ∃ id cred, e = some (.removed id) ∧ a.creds.find? (fun c => c.id == id) = some cred ∧
        ¬(cred.role = .administrator ∧ a.creds.countP (fun c => c.role = .administrator) = 1) ∧
        a'.creds = a.creds.eraseP (fun c => c.id == id) := by
  cases step with
  | session token => exact Or.inl ⟨congrArg _ (a.sessionInfo_frame token).1, rfl⟩
  | credentials | logout | newChallenge | refuse | reject | openSession | keep =>
    exact Or.inl ⟨rfl, rfl⟩
  | take _ token purpose | miss _ token purpose =>
    exact Or.inl ⟨congrArg _ (a.takeChallenge_frame ..).1, rfl⟩
  | store token admin requireEmpty record _ bootstrap allowed alone =>
    refine Or.inr
      (Or.inl ⟨token, admin, requireEmpty, record, _, _, _, rfl, rfl, rfl, ?_, bootstrap,
      allowed, alone⟩)
    rw [Auth.creds_persist]
  | validate token credentialId _ counter cred =>
    refine Or.inl ⟨?_, rfl⟩
    split
    · rw [Auth.creds_persist, map_role_setCounter]
    · rfl
  | remove id cred _ found others =>
    refine Or.inr (Or.inr ⟨id, cred, rfl, found, others, ?_⟩)
    rw [Auth.creds_persist]

theorem AuthStep.inside (step : AuthStep call q l a a' q' e) (inside : q'.Inside) :
    q.Inside ∨ (∃ s, s ∈ a.sessions.rows) ∨ a.creds ≠ [] := by
  cases step with
  | session token =>
    have admin : isAdmin (a.sessionInfo token).1 = true := inside
    cases read : (a.sessionInfo token).1 with
    | none =>
      rw [read] at admin
      cases admin
    | some info =>
      obtain ⟨s, member, _⟩ := a.liveSession_eq_some token read
      exact Or.inr (Or.inl ⟨_, member⟩)
  | credentials | take => exact Or.inl inside
  | validate _ _ _ _ cred _ found =>
    exact Or.inr (Or.inr (ne_nil_of_mem (mem_of_find?_eq_some found)))
  | logout | newChallenge | miss | store | refuse | reject | openSession | remove | keep =>
    exact inside.elim

end

namespace Console

variable {L : Libraries} {C : AuthConfig} {σ σ' : Console} {stage : Nat → Stage} {move : Move}
  {loaded : List CredentialRecord}

/-- A store that is not empty has an administrator; whoever is inside got there through it; the
setup token has been used at most once, on an empty store. -/
structure Roster (loaded : List CredentialRecord) (σ : Console) (stage : Nat → Stage) : Prop where
  stages : σ.Stages stage
  admin : σ.auth.creds ≠ [] → HasAdmin σ.auth.creds
  sessions : (∃ s, s ∈ σ.auth.sessions.rows) → σ.auth.creds ≠ []
  inside : ∀ i, (stage i).Inside → σ.auth.creds ≠ []
  distinct : (loaded.map CredentialRecord.id).Nodup → (σ.auth.creds.map CredentialRecord.id).Nodup
  unused : σ.auth.creds = [] → setups σ.log = []
  once : setups σ.log = [] ∨ setups σ.log = [true]

theorem Roster.hasAdmin (inv : σ.Roster loaded stage) {i : Nat} {call : Call} {l : Section}
    {a' : Auth} {q : Stage} {e : Option Event} (step : AuthStep call (stage i) l σ.auth a' q e) :
    (σ.auth.creds ≠ [] → HasAdmin a'.creds) ∧ (a'.creds ≠ [] → HasAdmin a'.creds) := by
  rcases step.roles with ⟨same, -⟩ |
    ⟨token, admin, requireEmpty, record, _, _, _, holds, -, -, added, bootstrap, allowed, -⟩ |
    ⟨id, cred, -, found, others, erased⟩
  · have kept : HasAdmin σ.auth.creds → HasAdmin a'.creds := by
      rw [hasAdmin_iff_mem, hasAdmin_iff_mem, same]
      exact fun member => member
    refine ⟨fun nonempty => kept (inv.admin nonempty), fun nonempty => kept (inv.admin ?_)⟩
    intro empty
    rw [empty, map_nil, map_eq_nil_iff] at same
    exact nonempty same
  · have new : HasAdmin a'.creds := by
      rw [added]
      cases required : requireEmpty with
      | true => exact ⟨record, by simp, bootstrap required⟩
      | false =>
        have inside : (stage i).Inside := by
          rw [holds]
          exact allowed required
        exact (inv.admin (inv.inside i inside)).append record
    exact ⟨fun _ => new, fun _ => new⟩
  · have left : HasAdmin a'.creds := by
      rw [erased]
      have present := ne_nil_of_mem (mem_of_find?_eq_some found)
      exact (inv.admin present).eraseP found others
    exact ⟨fun _ => left, fun _ => left⟩

theorem Roster.act (inv : σ.Roster loaded stage) {i : Nat} {call : Call} {l : Section}
    {a' : Auth} {q : Stage} {e : Option Event} {σ' : Console}
    (step : AuthStep call (stage i) l σ.auth a' q e) (stored : σ'.auth = a')
    (logged : σ'.log = σ.log ++ e.toList) (stages : σ'.Stages (Function.update stage i q)) :
    σ'.Roster loaded (Function.update stage i q) := by
  subst stored
  obtain ⟨stays, holds⟩ := inv.hasAdmin step
  have nonempty : σ.auth.creds ≠ [] → σ'.auth.creds ≠ [] := fun present => (stays present).ne_nil
  refine ⟨stages, holds, ?_, ?_, fun distinct => step.distinct (inv.distinct distinct), ?_, ?_⟩
  · rintro ⟨s, member⟩
    rcases step.sessions member with ⟨old, _⟩ | ⟨role, opening, _⟩
    · exact nonempty (inv.sessions ⟨s, old⟩)
    · refine nonempty (inv.inside i ?_)
      rw [opening]
      trivial
  · intro j inside
    by_cases own : j = i
    · subst own
      rw [Function.update_self] at inside
      rcases step.inside inside with was | session | present
      · exact nonempty (inv.inside j was)
      · exact nonempty (inv.sessions session)
      · exact nonempty present
    · rw [Function.update_of_ne own] at inside
      exact nonempty (inv.inside j inside)
  · intro empty
    have before : σ.auth.creds = [] := by
      by_contra present
      exact nonempty present empty
    rw [logged, setups_append, inv.unused before]
    rcases step.roles with
      ⟨-, quiet⟩ | ⟨_, _, _, record, _, _, _, -, -, -, added, -⟩ | ⟨_, _, rfl, -⟩
    · rw [quiet]
      rfl
    · rw [added] at empty
      simp at empty
    · rfl
  · rw [logged, setups_append]
    rcases step.roles with ⟨-, quiet⟩ |
      ⟨_, _, requireEmpty, record, wasEmpty, _, _, -, rfl, rfl, -, -, -, alone⟩ | ⟨_, _, rfl, -⟩
    · rw [quiet]
      simpa using inv.once
    · cases required : requireEmpty with
      | true =>
        have empty := alone required
        rw [inv.unused empty, empty]
        exact Or.inr rfl
      | false => simpa [Event.setup?] using inv.once
    · simpa [Event.setup?] using inv.once

end Console

def Event.counts (id : String) (seen : List Nat) : Event → List Nat
  | .stored _ _ _ other counter _ => if other = id then [counter] else seen
  | .validated _ other counter _ => if other = id then seen ++ [counter] else seen
  | .removed other => if other = id then [] else seen
  | _ => seen

def counters (loaded : List CredentialRecord) (log : List Event) (id : String) : List Nat :=
  log.foldl (Event.counts id)
    ((loaded.find? (fun c => c.id == id)).map CredentialRecord.counter).toList

theorem counters_append (loaded : List CredentialRecord) (log : List Event) (e : Option Event)
    (id : String) :
    counters loaded (log ++ e.toList) id =
      match e with
      | none => counters loaded log id
      | some e => e.counts id (counters loaded log id) := by
  unfold counters
  rw [foldl_append]
  cases e <;> rfl

section

variable {creds : List CredentialRecord} {cred : CredentialRecord} {id other : String}
  {counter : Nat}

theorem find?_setCounter_self (found : creds.find? (fun c => c.id == id) = some cred) :
    (Auth.setCounter id counter creds).find? (fun c => c.id == id) =
      some { cred with counter := counter } := by
  induction creds with
  | nil => cases found
  | cons c rest ih =>
    unfold Auth.setCounter
    by_cases named : c.id = id
    · rw [List.find?_cons_of_pos (by simpa using named)] at found
      cases found
      rw [if_pos named, List.find?_cons_of_pos (by simpa using named)]
    · rw [List.find?_cons_of_neg (by simpa using named)] at found
      rw [if_neg named, List.find?_cons_of_neg (by simpa using named)]
      exact ih found

theorem find?_setCounter_of_ne (apart : other ≠ id) :
    (Auth.setCounter id counter creds).find? (fun c => c.id == other) =
      creds.find? (fun c => c.id == other) := by
  induction creds with
  | nil => rfl
  | cons c rest ih =>
    unfold Auth.setCounter
    by_cases named : c.id = id
    · have skips : ¬(c.id == other) = true := by simpa [named] using Ne.symm apart
      rw [if_pos named, List.find?_cons_of_neg (by exact skips),
        List.find?_cons_of_neg (by exact skips)]
    · rw [if_neg named, List.find?_cons, List.find?_cons, ih]

theorem find?_eraseP_of_ne (found : creds.find? (fun c => c.id == id) = some cred)
    (apart : other ≠ id) :
    (creds.eraseP (fun c => c.id == id)).find? (fun c => c.id == other) =
      creds.find? (fun c => c.id == other) := by
  have named : cred.id = id := by simpa using List.find?_some found
  obtain ⟨before, after, rfl, erased⟩ := eraseP_of_find? found
  have skips : ¬(cred.id == other) = true := by simpa [named] using Ne.symm apart
  rw [erased, List.find?_append, List.find?_append, List.find?_cons_of_neg (by exact skips)]

end

namespace Console

variable {L : Libraries} {C : AuthConfig} {σ σ' : Console} {stage : Nat → Stage} {move : Move}
  {loaded : List CredentialRecord}

def Remembers (a : Auth) (id : String) (seen : List Nat) : Prop :=
  ∀ c ∈ seen, ∃ cred, a.creds.find? (fun r => r.id == id) = some cred ∧ c ≤ cred.counter

/-- The counters of each credential rise from the first that is not zero, and none is above the
stored one. -/
structure Counters (loaded : List CredentialRecord) (σ : Console) : Prop where
  rising : ∀ id, (counters loaded σ.log id).Pairwise (fun c c' => c ≠ 0 → c < c')
  remembered : ∀ id, Remembers σ.auth id (counters loaded σ.log id)

theorem Remembers.of_find? {a a' : Auth} {id : String} {seen : List Nat}
    (held : Remembers a id seen)
    (same : a'.creds.find? (fun r => r.id == id) = a.creds.find? (fun r => r.id == id)) :
    Remembers a' id seen := by
  intro c member
  rw [same]
  exact held c member

theorem Remembers.login {a : Auth} {id : String} {seen : List Nat} {cred : CredentialRecord}
    {counter : Nat} (held : Remembers a id seen)
    (found : a.creds.find? (fun c => c.id == id) = some cred) (works : Bool) :
    Remembers (if cred.counter < counter then
        ({ a with creds := Auth.setCounter id counter a.creds }).persist works
      else a) id (seen ++ [counter]) := by
  intro c member
  have below : c ≤ cred.counter ∨ c = counter := by
    rcases mem_append.mp member with old | new
    · obtain ⟨stored, found', below⟩ := held c old
      rw [found] at found'
      cases found'
      exact Or.inl below
    · exact Or.inr (mem_singleton.mp new)
  split
  · next advanced =>
    refine ⟨{ cred with counter := counter }, ?_, ?_⟩
    · rw [Auth.creds_persist]
      exact find?_setCounter_self found
    · change c ≤ counter
      omega
  · exact ⟨cred, found, by omega⟩

theorem Counters.rises {id : String} {counter : Nat} {cred : CredentialRecord}
    (inv : Counters loaded σ) (found : σ.auth.creds.find? (fun c => c.id == id) = some cred)
    (advances : counter ≠ 0 ∨ cred.counter ≠ 0 → cred.counter < counter) :
    (counters loaded σ.log id ++ [counter]).Pairwise (fun c c' => c ≠ 0 → c < c') := by
  rw [pairwise_append]
  refine ⟨inv.rising id, pairwise_singleton _ _, ?_⟩
  intro c member c' new nonzero
  obtain rfl := mem_singleton.mp new
  obtain ⟨stored, found', below⟩ := inv.remembered id c member
  rw [found] at found'
  cases found'
  omega

theorem Counters.act (inv : Counters loaded σ) {call : Call} {l : Section} {a' : Auth}
    {q q' : Stage} {e : Option Event} (step : AuthStep call q l σ.auth a' q' e) (id : String) :
    (counters loaded (σ.log ++ e.toList) id).Pairwise (fun c c' => c ≠ 0 → c < c') ∧
      Remembers a' id (counters loaded (σ.log ++ e.toList) id) := by
  have rising := inv.rising id
  have held := inv.remembered id
  rw [counters_append]
  cases step with
  | session token =>
    exact ⟨rising, held.of_find? (congrArg _ (σ.auth.sessionInfo_frame token).1)⟩
  | credentials | logout | newChallenge | refuse | reject | openSession | keep =>
    exact ⟨rising, held⟩
  | take _ token purpose | miss _ token purpose =>
    exact ⟨rising, held.of_find? (by rw [(σ.auth.takeChallenge_frame token purpose).1])⟩
  | store token _ requireEmpty record _ _ _ _ free =>
    simp only [Event.counts]
    split
    · next named =>
      refine ⟨pairwise_singleton _ _, fun c member => ?_⟩
      obtain rfl := mem_singleton.mp member
      have absent : σ.auth.creds.find? (fun r => r.id == id) = none := by
        rw [List.find?_eq_none]
        intro c present
        simpa [named] using free c present
      rw [Auth.creds_persist, List.find?_append, absent]
      simp [named]
    · next apart =>
      refine ⟨rising, held.of_find? ?_⟩
      rw [Auth.creds_persist, List.find?_append, List.find?_cons_of_neg (by simpa using apart)]
      simp
  | validate token credentialId _ counter cred _ found advances =>
    simp only [Event.counts]
    split
    · next named =>
      subst named
      exact ⟨inv.rises found advances, held.login found call.draw.works⟩
    · next apart =>
      refine ⟨rising, held.of_find? ?_⟩
      split
      · rw [Auth.creds_persist, find?_setCounter_of_ne (Ne.symm apart)]
      · rfl
  | remove gone cred _ found =>
    simp only [Event.counts]
    split
    · exact ⟨List.Pairwise.nil, by rintro c ⟨⟩⟩
    · next apart =>
      refine ⟨rising, held.of_find? ?_⟩
      rw [Auth.creds_persist, find?_eraseP_of_ne found (Ne.symm apart)]

theorem Counters.init (loaded : List CredentialRecord) (now : Nat) :
    Counters loaded (Console.init loaded now) := by
  constructor
  · intro id
    change List.Pairwise _ (Option.toList _)
    cases loaded.find? (fun c => c.id == id) with
    | none => exact List.Pairwise.nil
    | some cred => exact pairwise_singleton _ _
  · intro id c member
    obtain ⟨cred, found, rfl⟩ := Option.map_eq_some_iff.mp (Option.mem_toList.mp member)
    exact ⟨cred, found, le_refl _⟩

theorem Counters.step (inv : Counters loaded σ) (stages : σ.Stages stage)
    (stepped : Console.step L C move σ = some σ') : Counters loaded σ' := by
  obtain ⟨stage', change, _⟩ := stages.step stepped
  cases change with
  | arrive call p | tick elapsed => exact ⟨inv.rising, inv.remembered⟩
  | act i call l p a' q e labelled called step =>
    exact ⟨fun id => (inv.act step id).1, fun id => (inv.act step id).2⟩

theorem Roster.init (now : Nat) (admin : loaded ≠ [] → HasAdmin loaded) :
    (Console.init loaded now).Roster loaded (fun _ => .idle false) where
  stages := Stages.init loaded now
  admin := admin
  sessions := by
    rintro ⟨s, member⟩
    cases member
  inside := by
    intro i inside
    cases inside
  distinct distinct := distinct
  unused _ := rfl
  once := Or.inl rfl

theorem Roster.step (inv : σ.Roster loaded stage) (stepped : Console.step L C move σ = some σ') :
    ∃ stage', σ'.Roster loaded stage' := by
  obtain ⟨stage', change, stages⟩ := inv.stages.step stepped
  refine ⟨stage', ?_⟩
  cases change with
  | arrive call p | tick elapsed => exact { inv with stages := stages }
  | act i call l p a' q e labelled called step => exact inv.act step rfl rfl stages

end Console

end RelayFabric.Ui
