/- source: sdk/python/relayfabric_sdk/cache.py, plugins/nostr/relayfabric_nostr.py,
     plugins/bitchat/relayfabric_bitchat.py
   digest: The loop guard of the relay plugins, and which echoes of their own posts it stops. -/

import RelayFabric.Lib.Table
import RelayFabric.Plugins.SendQueue

namespace RelayFabric.Nostr

open Lib Function

/-- Of the plugin's own posts by endpoint and text: when each was recorded. -/
structure SentCache where
  ttl : Int
  entries : Map (String × String) Int

namespace SentCache

def prune (c : SentCache) (now : Int) : SentCache :=
  { c with entries := c.entries.retain (fun _ t => !decide (c.ttl < now - t)) }

def record (c : SentCache) (key : String × String) (now : Int) : SentCache :=
  { c.prune now with entries := (c.prune now).entries.insert key now }

def matchEntry (c : SentCache) (key : String × String) (now : Int) : Bool × SentCache :=
  (((c.prune now).entries key).isSome,
    { c.prune now with entries := (c.prune now).entries.erase key })

theorem prune_of_young {c : SentCache} {key : String × String} {t now : Int}
    (found : c.entries key = some t) (young : now - t ≤ c.ttl) :
    (c.prune now).entries key = some t := by
  change (c.entries key).filter _ = some t
  rw [found, Option.filter_some, if_pos]
  simpa using young

end SentCache

structure Setup where
  label : String
  pubkey : String
  channels : List (String × List String)
  maxTextBytes : Nat
  ttl : Int

def Setup.relays (P : Setup) (endpoint : String) : Option (List String) :=
  P.channels.lookup endpoint

structure Post where
  endpoint : String
  text : String
  createdAt : Int
  deriving DecidableEq, Repr

structure Event where
  channel : String
  sender : String
  text : String
  ts : Int
  own : Option Nat
  deriving DecidableEq, Repr

structure Task where
  post : Nat
  relays : List String
  anyOk : Bool
  deriving DecidableEq, Repr

inductive Sending
  | idle
  | publishing (corr : Int) (endpoint body : String) (task : Nat)
  | published (corr : Int) (endpoint body : String)
  | recording (corr : Int) (endpoint body : String) (now : Int)
  | reporting (corr : Int)
  deriving DecidableEq, Repr

inductive Reading
  | waiting
  | handling (ev : Event)
  | matching (ev : Event) (now : Int)
  deriving DecidableEq, Repr

inductive LastUse
  | never
  | recorded (at_ : Int)
  | matched
  deriving DecidableEq, Repr

/-- The plugin between the daemon and its relays. `echoes` are the copies of own posts that relays
hold and have not sent back; `posts` and `last` are histories. -/
structure Plugin where
  clock : Int
  cache : SentCache
  tasks : List Task
  echoes : List (Nat × String)
  queue : List Event
  sending : Sending
  reading : Reading
  inbound : List Event
  results : List (Sdk.DeliveryResult Int)
  posts : List Post
  last : String × String → LastUse

inductive Move
  | send (corr : Int) (endpoint body : String)
  | relay (task : Nat) (sent : Bool)
  | settle
  | timeout
  | stamp
  | record
  | report
  | echo (post : Nat) (url : String)
  | foreign (channel sender text : String) (ts : Int)
  | take
  | look
  | matchEntry
  | tick (span : Nat)
  deriving DecidableEq, Repr

def eventQueueMax : Nat := 256

namespace Plugin

def start (P : Setup) (clock : Int) : Plugin :=
  ⟨clock, ⟨P.ttl, Map.empty⟩, [], [], [], .idle, .waiting, [], [], [], fun _ => .never⟩

def answer (p : Plugin) (corr : Int) (delivered : Bool) (detail : Option String) : Plugin :=
  { p with results := p.results ++ [⟨corr, delivered, detail⟩] }

def send (P : Setup) (corr : Int) (endpoint body : String) (p : Plugin) : Plugin :=
  match P.relays endpoint with
  | none => p.answer corr false (some "unknown endpoint")
  | some relays =>
    let bodyBytes := body.utf8ByteSize
    if P.maxTextBytes < bodyBytes then
      p.answer corr false
        (some s!"body {bodyBytes} B exceeds max_text_bytes {P.maxTextBytes} B")
    else
      { p with
        posts := p.posts ++ [⟨endpoint, body, p.clock⟩]
        tasks := p.tasks ++ [⟨p.posts.length, relays, false⟩]
        sending := .publishing corr endpoint body p.tasks.length }

def receive (ev : Event) (p : Plugin) : Plugin :=
  if ev.text = "" ∨ eventQueueMax ≤ p.queue.length then p else { p with queue := p.queue ++ [ev] }

def finishEvent (ev : Event) (now : Int) (p : Plugin) : Plugin :=
  let key := (ev.channel, ev.text)
  { p with
    cache := (p.cache.matchEntry key now).2
    last := Function.update p.last key .matched
    reading := .waiting
    inbound := if (p.cache.matchEntry key now).1 then p.inbound else p.inbound ++ [ev] }

def step (P : Setup) : Move → Plugin → Option Plugin
  | .send corr endpoint body, p =>
    if p.sending = .idle then some (send P corr endpoint body p) else none
  -- one relay of a task: without a connection, or if the send fails, the next one is tried
  | .relay i sent, p =>
    match p.tasks[i]? with
    | some ⟨post, url :: rest, anyOk⟩ =>
      some { p with
        tasks := p.tasks.set i ⟨post, rest, anyOk || sent⟩
        echoes := if sent then p.echoes ++ [(post, url)] else p.echoes }
    | _ => none
  | .settle, p =>
    match p.sending with
    | .publishing corr endpoint body i =>
      match p.tasks[i]? with
      | some ⟨_, [], true⟩ => some { p with sending := .published corr endpoint body }
      | some ⟨_, [], false⟩ =>
        some { p.answer corr false (some (s!"{P.label} publish to '{endpoint}' failed: " ++
          "no reachable relay among [" ++ ", ".intercalate (((P.relays endpoint).getD []).map
            (fun url => "'" ++ url ++ "'")) ++ "]")) with sending := .idle }
      | _ => none
    | _ => none
  -- `fut.result(timeout=30)` gives up, and the task goes on
  | .timeout, p =>
    match p.sending with
    | .publishing corr endpoint _ _ =>
      some { p.answer corr false (some s!"{P.label} publish to '{endpoint}' failed: ") with
        sending := .idle }
    | _ => none
  | .stamp, p =>
    match p.sending with
    | .published corr endpoint body =>
      some { p with sending := .recording corr endpoint body p.clock }
    | _ => none
  | .record, p =>
    match p.sending with
    | .recording corr endpoint body now =>
      some { p with
        cache := p.cache.record (endpoint, body) now
        last := Function.update p.last (endpoint, body) (.recorded now)
        sending := .reporting corr }
    | _ => none
  | .report, p =>
    match p.sending with
    | .reporting corr => some { p.answer corr true none with sending := .idle }
    | _ => none
  | .echo i url, p =>
    match p.posts[i]? with
    | some post =>
      if (i, url) ∈ p.echoes then
        some (receive ⟨post.endpoint, P.label ++ ":" ++ P.pubkey, post.text, post.createdAt, some i⟩
          { p with echoes := p.echoes.erase (i, url) })
      else none
    | none => none
  | .foreign channel sender text ts, p =>
    if (P.relays channel).isSome then some (receive ⟨channel, sender, text, ts, none⟩ p) else none
  | .take, p =>
    match p.reading, p.queue with
    | .waiting, ev :: rest => some { p with queue := rest, reading := .handling ev }
    | _, _ => none
  | .look, p =>
    match p.reading with
    | .handling ev => some { p with reading := .matching ev p.clock }
    | _ => none
  | .matchEntry, p =>
    match p.reading with
    | .matching ev now => some (finishEvent ev now p)
    | _ => none
  | .tick span, p => some { p with clock := p.clock + span }

abbrev run (P : Setup) : List Move → Plugin → Option Plugin := runAll (step P)

/-- An echo of an own post is looked up while the last thing done with its pair was a record that is
not older than the limit. -/
def heard (P : Setup) (p : Plugin) : Move → Bool
  | .matchEntry =>
    match p.reading with
    | .matching ev _ =>
      ev.own.isNone ||
        (match p.last (ev.channel, ev.text) with
          | .recorded t => decide (p.clock - t ≤ P.ttl)
          | .never | .matched => false)
    | .waiting | .handling _ => true
  | _ => true

structure Inv (P : Setup) (p : Plugin) : Prop where
  ttl : p.cache.ttl = P.ttl
  kept : ∀ key t, p.last key = .recorded t → p.clock - t ≤ P.ttl → p.cache.entries key = some t
  stamped : ∀ corr endpoint body now, p.sending = .recording corr endpoint body now → now ≤ p.clock
  looked : ∀ ev now, p.reading = .matching ev now → now ≤ p.clock
  clean : ∀ ev ∈ p.inbound, ev.own = none

section Steps

variable {P : Setup} {p p' : Plugin}

theorem Inv.start (P : Setup) (clock : Int) : (Plugin.start P clock).Inv P :=
  ⟨rfl, by rintro key t ⟨⟩, by rintro _ _ _ _ ⟨⟩, by rintro _ _ ⟨⟩,
    fun ev member => absurd member List.not_mem_nil⟩

theorem Inv.of_same (inv : p.Inv P) (cache : p'.cache = p.cache) (last : p'.last = p.last)
    (clock : p'.clock = p.clock) (inbound : p'.inbound = p.inbound)
    (stamped : ∀ corr endpoint body now, p'.sending = .recording corr endpoint body now →
      p.sending = .recording corr endpoint body now ∨ now = p.clock)
    (looked : ∀ ev now, p'.reading = .matching ev now → p.reading = .matching ev now ∨
      now = p.clock) :
    p'.Inv P := by
  constructor
  · rw [cache]
    exact inv.ttl
  · rw [cache, last, clock]
    exact inv.kept
  · intro corr endpoint body now held
    rw [clock]
    rcases stamped corr endpoint body now held with before | rfl
    · exact inv.stamped corr endpoint body now before
    · exact le_rfl
  · intro ev now held
    rw [clock]
    rcases looked ev now held with before | rfl
    · exact inv.looked ev now before
    · exact le_rfl
  · rw [inbound]
    exact inv.clean

theorem Inv.kept_of_prune (inv : p.Inv P) {now : Int} (past : now ≤ p.clock) {key : String × String}
    {t : Int} (recorded : p.last key = .recorded t) (young : p.clock - t ≤ P.ttl) :
    (p.cache.prune now).entries key = some t := by
  refine SentCache.prune_of_young (inv.kept key t recorded young) ?_
  rw [inv.ttl]
  omega

theorem Inv.record {corr : Int} {endpoint body : String} {now : Int} (inv : p.Inv P)
    (held : p.sending = .recording corr endpoint body now) :
    Inv P { p with
      cache := p.cache.record (endpoint, body) now
      last := Function.update p.last (endpoint, body) (.recorded now)
      sending := .reporting corr } := by
  have past := inv.stamped corr endpoint body now held
  refine ⟨inv.ttl, ?_, by rintro _ _ _ _ ⟨⟩, inv.looked, inv.clean⟩
  intro key t recorded young
  dsimp only at recorded
  change Map.insert _ _ _ key = some t
  rw [Map.insert_apply]
  by_cases same : key = (endpoint, body)
  · subst same
    rw [update_self] at recorded
    obtain rfl := LastUse.recorded.inj recorded
    exact if_pos rfl
  · rw [update_of_ne same] at recorded
    rw [if_neg same]
    exact inv.kept_of_prune past recorded young

theorem Inv.finishEvent {ev : Event} {now : Int} (inv : p.Inv P)
    (held : p.reading = .matching ev now) (heard : p.heard P .matchEntry = true) :
    (p.finishEvent ev now).Inv P := by
  have past := inv.looked ev now held
  refine ⟨inv.ttl, ?_, inv.stamped, by rintro _ _ ⟨⟩, ?_⟩
  · intro key t recorded young
    change Map.erase _ _ key = some t
    rw [Map.erase_apply]
    by_cases same : key = (ev.channel, ev.text)
    · subst same
      change Function.update p.last _ _ _ = _ at recorded
      rw [update_self] at recorded
      cases recorded
    · change Function.update p.last _ _ _ = _ at recorded
      rw [update_of_ne same] at recorded
      rw [if_neg same]
      exact inv.kept_of_prune past recorded young
  · cases foreign : ev.own with
    | none =>
      intro other member
      have known : other ∈ p.inbound ∨ other = ev := by
        change other ∈ ite _ _ _ at member
        split at member
        · exact .inl member
        · simpa using member
      rcases known with before | rfl
      · exact inv.clean other before
      · exact foreign
    | some i =>
      -- the pair was recorded last, so its entry is there
      have found : (p.cache.matchEntry (ev.channel, ev.text) now).1 = true := by
        unfold Plugin.heard at heard
        rw [held] at heard
        dsimp only at heard
        rw [foreign] at heard
        cases use : p.last (ev.channel, ev.text) with
        | never | matched =>
          rw [use] at heard
          cases heard
        | recorded t =>
          rw [use] at heard
          have young : p.clock - t ≤ P.ttl := by simpa using heard
          change ((p.cache.prune now).entries _).isSome = true
          rw [inv.kept_of_prune past use young]
          rfl
      change ∀ other ∈ ite _ _ _, _
      rw [if_pos found]
      exact inv.clean

theorem inv_receive {ev : Event} (inv : p.Inv P) : (p.receive ev).Inv P := by
  unfold receive
  split
  · exact inv
  · exact inv.of_same rfl rfl rfl rfl (fun _ _ _ _ => .inl) (fun _ _ => .inl)

theorem inv_send (corr : Int) (endpoint body : String) (inv : p.Inv P) :
    (p.send P corr endpoint body).Inv P := by
  unfold send
  split
  · exact inv.of_same rfl rfl rfl rfl (fun _ _ _ _ => .inl) (fun _ _ => .inl)
  · dsimp only
    split
    · exact inv.of_same rfl rfl rfl rfl (fun _ _ _ _ => .inl) (fun _ _ => .inl)
    · exact inv.of_same rfl rfl rfl rfl (by rintro _ _ _ _ ⟨⟩) (fun _ _ => .inl)

theorem Inv.step {a : Move} (inv : p.Inv P) (heard : p.heard P a = true)
    (step : Plugin.step P a p = some p') : p'.Inv P := by
  have idle {q : Plugin} (cache : q.cache = p.cache) (last : q.last = p.last)
      (clock : q.clock = p.clock) (inbound : q.inbound = p.inbound)
      (reading : q.reading = p.reading)
      (free : ∀ corr endpoint body now, q.sending ≠ .recording corr endpoint body now) : q.Inv P :=
    inv.of_same cache last clock inbound
      (fun corr endpoint body now held => absurd held (free corr endpoint body now))
      (fun _ _ held => .inl (reading ▸ held))
  cases a with
  | send corr endpoint body =>
    simp only [Plugin.step] at step
    split at step
    · cases step
      exact inv_send corr endpoint body inv
    · cases step
  | relay i sent =>
    simp only [Plugin.step] at step
    split at step
    · cases step
      exact inv.of_same rfl rfl rfl rfl (fun _ _ _ _ => .inl) (fun _ _ => .inl)
    · cases step
  | settle =>
    simp only [Plugin.step] at step
    split at step
    · split at step
      · cases step
        exact idle rfl rfl rfl rfl rfl (by rintro _ _ _ _ ⟨⟩)
      · cases step
        exact idle rfl rfl rfl rfl rfl (by rintro _ _ _ _ ⟨⟩)
      · cases step
    · cases step
  | timeout | report =>
    simp only [Plugin.step] at step
    split at step
    · cases step
      exact idle rfl rfl rfl rfl rfl (by rintro _ _ _ _ ⟨⟩)
    · cases step
  | stamp =>
    simp only [Plugin.step] at step
    split at step
    · cases step
      refine inv.of_same rfl rfl rfl rfl (fun corr endpoint body now held => .inr ?_)
        (fun _ _ => .inl)
      exact (Sending.recording.inj held).2.2.2.symm
    · cases step
  | record =>
    simp only [Plugin.step] at step
    split at step
    · rename_i held
      cases step
      exact inv.record held
    · cases step
  | echo i url =>
    simp only [Plugin.step] at step
    split at step
    · split at step
      · cases step
        exact inv_receive (inv.of_same rfl rfl rfl rfl (fun _ _ _ _ => .inl) (fun _ _ => .inl))
      · cases step
    · cases step
  | foreign channel sender text ts =>
    simp only [Plugin.step] at step
    split at step
    · cases step
      exact inv_receive inv
    · cases step
  | take =>
    simp only [Plugin.step] at step
    split at step
    · cases step
      exact inv.of_same rfl rfl rfl rfl (fun _ _ _ _ => .inl) (by rintro _ _ ⟨⟩)
    · cases step
  | look =>
    simp only [Plugin.step] at step
    split at step
    · cases step
      refine inv.of_same rfl rfl rfl rfl (fun _ _ _ _ => .inl) (fun ev now held => .inr ?_)
      exact (Reading.matching.inj held).2.symm
    · cases step
  | matchEntry =>
    simp only [Plugin.step] at step
    split at step
    · rename_i held
      cases step
      exact inv.finishEvent held heard
    · cases step
  | tick span =>
    cases step
    refine ⟨inv.ttl, fun key t recorded young => inv.kept key t recorded ?_, ?_, ?_, inv.clean⟩
    · dsimp only at young
      omega
    · intro corr endpoint body now held
      have past := inv.stamped corr endpoint body now held
      dsimp only
      omega
    · intro ev now held
      have past := inv.looked ev now held
      dsimp only
      omega

end Steps

end Plugin

/-- In every run in which each echo of an own post is looked up while the last use of its pair is a
record within the limit, no echo of an own post is forwarded to the daemon. -/
theorem own_echoes_dropped (P : Setup) (clock : Int) (moves : List Move) (p : Plugin)
    (met : Meets (Plugin.step P) (fun a p => p.heard P a = true) moves (.start P clock))
    (reached : Plugin.run P moves (.start P clock) = some p) :
    ∀ ev ∈ p.inbound, ev.own = none := by
  have inv : p.Inv P :=
    runAll_preserves (Plugin.Inv P) (fun _ _ _ heard step held => held.step heard step)
      moves _ p met reached (.start P clock)
  exact inv.clean

def Setup.small (relays : List String) : Setup := ⟨"nostr", "ab", [("town", relays)], 1000, 3600⟩

def sendMoves (relays : Nat) : List Move :=
  Move.send 7 "town" "hello" :: List.replicate relays (Move.relay 0 true)

def recordMoves : List Move := [Move.settle, Move.stamp, Move.record, Move.report]

def echoMoves (url : String) : List Move := [Move.echo 0 url, Move.take, Move.look, Move.matchEntry]

theorem own_echoes_dropped_single :
    ∃ p, Plugin.run (.small ["wss://a"])
        (sendMoves 1 ++ recordMoves ++ [Move.tick 60] ++ echoMoves "wss://a")
        (.start (.small ["wss://a"]) 0) =
        some p ∧ p.results = [⟨7, true, none⟩] ∧ p.echoes = [] ∧ ∀ ev ∈ p.inbound,
        ev.own = none := by
  obtain ⟨p, reached, results, echoes⟩ : ∃ p, Plugin.run (.small ["wss://a"])
      (sendMoves 1 ++ recordMoves ++ [Move.tick 60] ++ echoMoves "wss://a")
      (.start (.small ["wss://a"]) 0) = some p ∧ p.results = [⟨7, true, none⟩] ∧ p.echoes = [] := by
    decide +kernel
  exact ⟨p, reached, results, echoes, own_echoes_dropped _ _ _ p (by decide +kernel) reached⟩

/-- The second relay's copy of one post, and a copy that is faster than the record, are
forwarded. -/
theorem own_echo_forwarded :
    (∃ p, Plugin.run (.small ["wss://a", "wss://b"])
        (sendMoves 2 ++ recordMoves ++ echoMoves "wss://a" ++ echoMoves "wss://b")
        (.start (.small ["wss://a", "wss://b"]) 0) = some p ∧
      p.inbound = [⟨"town", "nostr:ab", "hello", 0, some 0⟩] ∧
      p.posts[0]? = some ⟨"town", "hello", 0⟩) ∧
    ∃ p, Plugin.run (.small ["wss://a"]) (sendMoves 1 ++ echoMoves "wss://a" ++ recordMoves)
        (.start (.small ["wss://a"]) 0) = some p ∧
      p.inbound = [⟨"town", "nostr:ab", "hello", 0, some 0⟩] ∧
      p.posts[0]? = some ⟨"town", "hello", 0⟩ := by
  decide +kernel

end RelayFabric.Nostr
