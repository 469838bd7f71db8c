/- source: relayfabric-ui/src/auth.rs (Auth), relayfabric-ui/src/main.rs (auth_endpoint)
   digest: What holds of the passkey store along every interleaving of requests. -/

import RelayFabric.Ui.Registration
import RelayFabric.Ui.Roster
import RelayFabric.Ui.Tickets

namespace RelayFabric.Ui

open Lib

namespace Console

structure Sound (loaded : List CredentialRecord) (σ : Console) : Prop where
  roster : ∃ stage, σ.Roster loaded stage
  counters : Counters loaded σ
  tickets : ∃ stage, σ.Stages stage ∧ σ.TicketsKept stage

theorem Sound.init {loaded : List CredentialRecord} (now : Nat)
    (admin : loaded ≠ [] → HasAdmin loaded) : Sound loaded (Console.init loaded now) where
  roster := ⟨_, Roster.init now admin⟩
  counters := Counters.init loaded now
  tickets := ⟨_, Stages.init loaded now, TicketsKept.init loaded now⟩

theorem Sound.step {L : Libraries} {C : AuthConfig} {loaded : List CredentialRecord}
    {σ σ' : Console} {move : Move} (inv : Sound loaded σ) (drawn : σ.fresh move = true)
    (stepped : Console.step L C move σ = some σ') : Sound loaded σ' := by
  obtain ⟨stage, roster⟩ := inv.roster
  obtain ⟨stage', stages, tickets⟩ := inv.tickets
  exact ⟨roster.step stepped, inv.counters.step stages stepped, tickets.step stages drawn stepped⟩

end Console

/-- In every run in which no token is drawn twice: a store that is not empty has an administrator,
the setup token stores one credential at most, ids stay distinct, a challenge completes one ceremony
at most, and counters rise. -/
theorem passkey_store_sound (L : Libraries) (C : AuthConfig) (loaded : List CredentialRecord)
    (now : Nat) (admin : loaded ≠ [] → HasAdmin loaded) (moves : List Move) (σ : Console)
    (drawn : Meets (Console.step L C) (fun move σ => σ.fresh move = true) moves
      (Console.init loaded now))
    (reached : runAll (Console.step L C) moves (Console.init loaded now) = some σ) :
    (σ.auth.creds ≠ [] → HasAdmin σ.auth.creds) ∧
      (setups σ.log = [] ∨ setups σ.log = [true]) ∧
      ((loaded.map CredentialRecord.id).Nodup → (σ.auth.creds.map CredentialRecord.id).Nodup) ∧
      (σ.log.filterMap Event.issues).Nodup ∧ (σ.log.filterMap Event.redeems).Nodup ∧
      ((completions σ.log).map Prod.fst).Nodup ∧
      (∀ token purpose, (token, purpose) ∈ completions σ.log → ∃ expires time,
        .issued token purpose expires ∈ σ.log ∧ .redeemed token purpose time ∈ σ.log ∧
          time < expires) ∧
      ∀ id, (counters loaded σ.log id).Pairwise (fun c c' => c ≠ 0 → c < c') := by
  have inv := runAll_preserves (Console.Sound loaded)
    (fun move σ σ' drawn stepped inv => inv.step drawn stepped) moves _ _ drawn reached
    (Console.Sound.init now admin)
  obtain ⟨_, roster⟩ := inv.roster
  obtain ⟨_, _, tickets⟩ := inv.tickets
  refine ⟨roster.admin, roster.once, roster.distinct, tickets.issuedOnce, tickets.redeemedOnce,
    tickets.once, ?_, inv.counters.rising⟩
  intro token purpose completed
  obtain ⟨time, redeemed⟩ := tickets.completed token purpose completed
  obtain ⟨expires, issued, early⟩ := tickets.redeemed token purpose time redeemed
  exact ⟨expires, time, issued, redeemed, early⟩

namespace Sample

def bootstrap : List Move :=
  [Move.arrive ⟨none, draw "c" [7], .auth (.registerOptions (some "setup"))⟩,
    Move.act 0, Move.act 0,
    Move.arrive ⟨none, draw "x" [], .auth (.register (some "setup") "c" (clientData 0 [7])
      (attestation 3 [1, 2, 3]) none "key")⟩,
    Move.act 1, Move.act 1]

def firstLogin : List Move :=
  [Move.act 1, Move.arrive ⟨none, draw "d" [8], .auth .loginOptions⟩, Move.act 2,
    Move.arrive ⟨none, draw "s" [],
      .auth (.login "d" "AQID" (clientData 1 [8]) (authData 5) signature)⟩,
    Move.act 3, Move.act 3, Move.act 3]

end Sample

theorem passkey_store_sound_first :
    ∃ σ, runAll (Console.step Sample.libraries Sample.config)
        (Sample.bootstrap ++ Sample.firstLogin) (Console.init [] 0) = some σ ∧
      σ.auth.creds.map CredentialRecord.id = ["AQID"] ∧ setups σ.log = [true] ∧
      counters [] σ.log "AQID" = [3, 5] ∧
      completions σ.log = [("c", .register), ("d", .login)] ∧ HasAdmin σ.auth.creds := by
  obtain ⟨σ, reached, ids, used, counted, completed⟩ :
      ∃ σ, runAll (Console.step Sample.libraries Sample.config)
          (Sample.bootstrap ++ Sample.firstLogin) (Console.init [] 0) = some σ ∧
        σ.auth.creds.map CredentialRecord.id = ["AQID"] ∧ setups σ.log = [true] ∧
        counters [] σ.log "AQID" = [3, 5] ∧
        completions σ.log = [("c", .register), ("d", .login)] := by
    decide +kernel
  have drawn : Meets (Console.step Sample.libraries Sample.config)
      (fun move σ => σ.fresh move = true) (Sample.bootstrap ++ Sample.firstLogin)
      (Console.init [] 0) := by
    decide +kernel
  have sound := passkey_store_sound Sample.libraries Sample.config [] 0
    (fun present => absurd rfl present) _ σ drawn reached
  refine ⟨σ, reached, ids, used, counted, completed, sound.1 ?_⟩
  intro empty
  rw [empty] at ids
  cases ids

/-- A challenge that is redeemed in time may complete its ceremony when it has expired; and a file
with one id twice is loaded as it is. -/
theorem ceremony_completes_late :
    ((runAll (Console.step Sample.libraries Sample.config)
        (Sample.bootstrap ++ [Move.tick challengeTtl, Move.act 1]) (Console.init [] 0)).map
      (fun σ => (σ.reply 1, σ.log))) =
      some (some (.registered "AQID" .administrator),
        [.issued "c" .register challengeTtl, .redeemed "c" .register 0,
          .stored "c" true true "AQID" 3 challengeTtl]) ∧
    (Console.init [Sample.key "A" .administrator, Sample.key "A" .viewer] 0).auth.creds.map
      CredentialRecord.id = ["A", "A"] := by
  decide +kernel

end RelayFabric.Ui
