/- source: storage.rs (purge_terminal, mark_delivered, mark_terminal), engine.rs (pump)
   digest: The moment a row ends against the time its retention is counted from. -/

import RelayFabric.Delivery.Priority

namespace RelayFabric

open Lib Option

/-- A station, and the moment at which each row entered the terminal state it is in. -/
structure Watched where
  station : Station
  ended : Nat → Option Int

abbrev Watched.d (w : Watched) : Daemon := w.station.node.d

def markEnded (before after : Store) (utc : Int) (ended : Nat → Option Int) (n : Nat) :
    Option Int :=
  match after.row n with
  | none => none
  | some r' =>
    if r'.state.live then none
    else if (before.row n).any (fun r => decide (r.state = r'.state)) then ended n
    else some utc

def Watched.step (K : Crypto) (a : StationMove) (w : Watched) : Option Watched :=
  (Station.step K a w.station).map (fun h =>
    ⟨h, markEnded w.d.store h.node.d.store w.d.clock.utc w.ended⟩)

abbrev Watched.run (K : Crypto) : List StationMove → Watched → Option Watched :=
  runAll (Watched.step K)

def Stamped (utc : Int) (before after : Option Delivery) : Prop :=
  ∀ r', after = some r' → r'.state.live = false →
    before = some r' ∨ (r'.updatedAt = utc ∧ ∀ r, before = some r → r.state.live = true)

namespace Stamped

variable {utc : Int} {before after : Option Delivery}

theorem keep (o : Option Delivery) : Stamped utc o o := fun _ found _ => .inl found

theorem gone : Stamped utc before none := fun _ found => by cases found

variable {r' : Delivery}

theorem queued (live : r'.state.live = true) : Stamped utc before (some r') := by
  intro r found finished
  cases found
  rw [live] at finished
  cases finished

theorem ends {r : Delivery} (live : r.state.live = true) (stamp : r'.updatedAt = utc) :
    Stamped utc (some r) (some r') := by
  intro r'' found _
  cases found
  refine .inr ⟨stamp, fun r₀ same => ?_⟩
  cases same
  exact live

theorem born (stamp : r'.updatedAt = utc) : Stamped utc none (some r') := by
  intro r'' found _
  cases found
  exact .inr ⟨stamp, fun r₀ same => by cases same⟩

end Stamped

variable {utc : Int}

theorem QuietMove.stamped {before after : Option Delivery} (move : QuietMove before after) :
    Stamped utc before after := by
  cases move with
  | keep => exact .keep _
  | delete => exact .gone
  | reclaim | retry => exact .queued rfl

theorem CallMove.stamped {l : Section} {s : Store} {n : Nat}
    {before after : Option Delivery} (move : CallMove utc l s n before after)
    (known : n < s.deliveries.next) : Stamped utc before after := by
  cases move with
  | keep => exact .keep _
  | insert r fresh => omega
  | delete => exact .gone
  | deliver r sent => exact .ends (by rw [sent]; rfl) rfl
  | retry | requeue => exact .queued rfl
  | exhaust r live => exact .ends live rfl

theorem Store.Grows.stamped {s s' : Store}
    (grows : s.Grows (fun r => r.updatedAt = utc) s') (n : Nat) :
    Stamped utc (s.row n) (s'.row n) := by
  rcases grows.rows n with same | ⟨unborn, r, found, stamp⟩
  · rw [same]
    exact .keep _
  · rw [found, Store.row_of_next_le unborn]
    exact .born stamp

theorem EgressStep.stamped {good : Nat → Fed → Prop} {del : Delivery} {now : Int} {q q' : Phase}
    {l : Section} {d d' : Daemon} (step : EgressStep good del now q l d d' q') (n : Nat) :
    Stamped d.clock.utc (d.store.row n) (d'.store.row n) := by
  cases step with
  | look _ _ _ _ clear store =>
    rw [store]
    exact .keep _
  | terminate _ _ clear state reason finished unsent spent =>
    exact Store.move_updateDelivery .keep _ _ _ _ _ (fun r _ live => .ends live rfl) n
  | postpone => exact Store.move_updateDelivery .keep _ _ _ _ _ (fun r _ live => .queued rfl) n
  | attempt => exact Store.move_updateDelivery .keep _ _ _ _ _ (fun r _ _ => .queued rfl) n
  | requeue => exact Store.move_updateDelivery .keep _ _ _ _ _ (fun r _ live => .queued rfl) n
  | away | hold | charge | placePlugin | placeFed | refuse => exact .keep _

theorem NodeEffect.stamped {good : Delivery → Nat → Fed → Prop} {ok : Daemon → Prop} {σ σ' : Node}
    {v v' : View} {a : Move} (effect : NodeEffect good ok σ v a σ' v') (alone : ∀ i, a ≠ .call i)
    (n : Nat) : Stamped σ.d.clock.utc (σ.d.store.row n) (σ'.d.store.row n) := by
  cases effect with
  | quiet _ _ _ store =>
    rw [store]
    exact .keep _
  | call i => exact absurd rfl (alone i)
  | snapshot now => exact (reclaimStale_move _ _ n).stamped
  | attempt now del q' l d' pump held time label current does => exact does.stamped n
  | sweep now l d' pump idle does => exact (does.1.row_move n).stamped
  | restart => exact (recover_move _ n).stamped

section Errands

variable {ok : Daemon → Prop} {e : Errand} {utc : Int} {l : Section} {s s' : Store}

private theorem stamped_of_call (effect : StoreEffect utc l s s')
    (next : s'.deliveries.next = s.deliveries.next) (n : Nat) :
    Stamped utc (s.row n) (s'.row n) := by
  intro r' found
  have known := Table.lt_next_of_get? _ found
  rw [next] at known
  exact (effect.row_move n).stamped known r' found

theorem ErrandEffect.stamped (effect : ErrandEffect ok e utc l s s') (n : Nat) :
    Stamped utc (s.row n) (s'.row n) := by
  cases effect with
  | tables _ _ _ quiet deliveries =>
    rw [Store.row_congr deliveries n]
    exact .keep _
  | ingress effect =>
    cases effect with
    | keep | revoke => exact .keep _
    | confirm =>
      rw [Store.row_congr (deliveries_confirmLinkStore ..) n]
      exact .keep _
    | inbound => exact ((inboundStore_grows ..).mono (fun _ => Fanned.written)).stamped n
    | persist => exact ((persistStore_grows ..).mono (fun _ => Fanned.written)).stamped n
    | reject now env | noticeFull now env =>
      exact Store.Grows.stamped ((s.grows_insertMessage _ env).trans
        (Store.grows_insertDeadDelivery _ _ _ _ _ _ _ _ (fun _ => rfl))) n
    | notice now env =>
      exact Store.Grows.stamped ((s.grows_insertMessage _ env).trans
        (Store.grows_insertDelivery _ _ _ _ _ _ _ _ (fun _ => rfl))) n
  | result plugin corr delivered =>
    exact stamped_of_call (.result plugin corr delivered s)
      (next_resultStore s utc plugin corr delivered) n
  | ack peerKey m => exact stamped_of_call (.ack peerKey m s) (next_ackStore s utc peerKey m) n
  | requeue row => exact stamped_of_call (.requeue row s) rfl n
  | purgeDead =>
    have effect : StoreEffect utc .purgeDead s s.purgeDeadLetters.2 := .purgeDead s
    exact stamped_of_call effect rfl n

end Errands

/-- The column `updated_at` of a row that is over holds the moment it ended. -/
def Watched.Dated (w : Watched) : Prop :=
  ∀ n r, w.d.store.row n = some r → r.state.live = false → w.ended n = some r.updatedAt

theorem markEnded_of_stamped {before after : Store} {ended : Nat → Option Int} {n : Nat}
    (stamped : Stamped utc (before.row n) (after.row n))
    (dated : ∀ r, before.row n = some r → r.state.live = false → ended n = some r.updatedAt)
    {r' : Delivery} (found : after.row n = some r') (finished : r'.state.live = false) :
    markEnded before after utc ended n = some r'.updatedAt := by
  unfold markEnded
  rw [found]
  dsimp only
  rw [if_neg (by simp [finished])]
  rcases stamped r' found finished with same | ⟨stamp, live⟩
  · rw [same, if_pos (by simp)]
    exact dated r' same finished
  · rw [if_neg, stamp]
    intro any
    cases present : before.row n with
    | none => simp [present] at any
    | some r =>
      have state : r.state = r'.state := by simpa [present] using any
      rw [← state, live r present] at finished
      cases finished

/-- The retention period stays, and the clock does not step back. -/
def Watched.calm (T : Nat) (w : Watched) : StationMove → Prop
  | .outside change =>
    (change w.d).cfg.retentionSecs = T ∧ w.d.clock.utc ≤ (change w.d).clock.utc
  | .pump | .purge | .ask _ | .act _ | .restart => True

instance (T : Nat) (a : StationMove) (w : Watched) : Decidable (w.calm T a) :=
  match a with
  | .outside _ => inferInstanceAs (Decidable (_ ∧ _))
  | .pump | .purge | .ask _ | .act _ | .restart => inferInstanceAs (Decidable True)

structure Watched.Kept (T : Nat) (w : Watched) : Prop where
  inv : ∃ v, w.station.Inv (fun d => d.cfg.retentionSecs = T) v ∧
    ∀ now, v.time = some now → now ≤ w.d.clock.utc
  retention : w.d.cfg.retentionSecs = T
  dated : w.Dated

section Runs

variable {K : Crypto} {T : Nat} {w w' : Watched} {a : StationMove}

variable {ok : Daemon → Prop} {h h' : Station} {v v' : View} {now : Int} {n : Nat} {r : Delivery}

theorem StationEffect.stamped (effect : StationEffect ok h v a h' v') (n : Nat) :
    Stamped h.node.d.clock.utc (h.node.d.store.row n) (h'.node.d.store.row n) := by
  cases effect with
  | still _ _ own deliveries =>
    rw [Store.row_congr deliveries n]
    exact .keep _
  | own _ b _ _ other apart alone does => exact does.stamped alone n
  | act i e l effect next running does => exact does.1.stamped n

theorem NodeEffect.time {good : Delivery → Nat → Fed → Prop} {σ σ' : Node}
    {b : Move} (effect : NodeEffect good ok σ v b σ' v')
    (past : ∀ now, v.time = some now → now ≤ σ.d.clock.utc) (read : v'.time = some now) :
    now ≤ σ.d.clock.utc := by
  cases effect with
  | quiet _ _ _ _ _ _ _ _ time =>
    rcases time with same | ended | ⟨-, fresh⟩
    · exact past now (same.symm.trans read)
    · rw [ended] at read
      cases read
    · exact (Option.some.inj (fresh.symm.trans read)).ge
  | call | attempt | sweep => exact past now read
  | snapshot now' pump idle => exact past now (by rw [idle]; exact read)
  | restart => cases read

theorem StationEffect.time (effect : StationEffect ok h v a h' v')
    (past : ∀ now, v.time = some now → now ≤ h.node.d.clock.utc)
    (read : v'.time = some now) : now ≤ h.node.d.clock.utc := by
  cases effect with
  | still | act => exact past now read
  | own _ b _ _ other apart alone does => exact does.time past read

theorem Watched.Kept.step (kept : w.Kept T) (calm : w.calm T a)
    (step : Watched.step K a w = some w') : w'.Kept T := by
  obtain ⟨⟨v, inv, past⟩, retention, dated⟩ := kept
  obtain ⟨h, moved, rfl⟩ := map_eq_some_iff.mp step
  obtain ⟨v', effect, after⟩ := Station.step_effect moved inv retention
  have settings : h.node.d.cfg.retentionSecs = T ∧ w.d.clock.utc ≤ h.node.d.clock.utc := by
    by_cases outer : ∃ change, a = .outside change
    · obtain ⟨change, rfl⟩ := outer
      cases moved
      exact calm
    · obtain ⟨config, clock⟩ := effect.settings (fun change same => outer ⟨change, same⟩)
      exact ⟨config ▸ retention, by rw [clock]⟩
  refine ⟨⟨v', after, fun now read => (effect.time past read).trans settings.2⟩, settings.1, ?_⟩
  intro n r' found finished
  exact markEnded_of_stamped (effect.stamped n) (fun r => dated n r) found finished

theorem EgressStep.isSome_row {good : Nat → Fed → Prop} {del : Delivery} {q q' : Phase}
    {l : Section} {d d' : Daemon} (step : EgressStep good del now q l d d' q') (n : Nat) :
    (d'.store.row n).isSome = (d.store.row n).isSome := by
  have update (id : Nat) (guard change keyed) :
      ((d.store.updateDelivery id guard change keyed).row n).isSome = (d.store.row n).isSome :=
    Store.move_updateDelivery (M := fun o o' => o'.isSome = o.isSome) (fun _ => rfl)
      d.store id guard change keyed (fun _ _ _ => rfl) n
  cases step with
  | look _ _ _ _ clear store => rw [store]
  | terminate | postpone | attempt | requeue => exact update ..
  | away | hold | charge | placePlugin | placeFed | refuse => rfl

theorem row_purgeTerminal_eq_none {s : Store} {cutoff : Int} (found : s.row n = some r) :
    (s.purgeTerminal cutoff).2.row n = none ↔ r.state.live = false ∧ r.nextAttempt < cutoff := by
  rw [Store.row_purgeTerminal, found, filter_eq_none_iff]
  simp

theorem SweepEffect.removed {s s' : Store}
    (effect : SweepEffect (fun d => d.cfg.retentionSecs = T) now s s') (found : s.row n = some r)
    (gone : s'.row n = none) : r.nextAttempt < now - seconds T := by
  cases effect with
  | purge read fine =>
    rw [← fine]
    exact ((row_purgeTerminal_eq_none found).mp gone).2
  | keep | challenges | adverts => exact absurd (found.symm.trans gone) (by simp)

theorem NodeEffect.removed {good : Delivery → Nat → Fed → Prop} {σ σ' : Node} {b : Move}
    (effect : NodeEffect good (fun d => d.cfg.retentionSecs = T) σ v b σ' v')
    (alone : ∀ i, b ≠ .call i) (found : σ.d.store.row n = some r) (gone : σ'.d.store.row n = none) :
    ∃ now, v.time = some now ∧ r.nextAttempt < now - seconds T := by
  cases effect with
  | quiet _ _ _ store =>
    rw [store, found] at gone
    cases gone
  | call i => exact absurd rfl (alone i)
  | snapshot now =>
    rw [Store.row_reclaimStale, found] at gone
    cases gone
  | restart =>
    have recovered := Store.row_recover σ.d.store n
    rw [found] at recovered
    exact absurd (recovered.symm.trans gone) (by simp)
  | attempt now del q' l d' pump held time label current does =>
    have present := does.isSome_row n
    rw [found, gone] at present
    cases present
  | sweep now l d' pump idle does =>
    exact ⟨now, by rw [idle], does.1.removed found gone⟩

end Runs

def Watched.empty (cfg : Config) : Watched := ⟨.empty cfg, fun _ => none⟩

end RelayFabric
