/- source: plugins/meshtastic-direct/relayfabric_meshtastic_direct.py (normalize_packet, Bridge)
   digest: Which endpoint a packet from the radio is shown on. -/

import RelayFabric.Core

namespace RelayFabric.Meshtastic

open List

def broadcastNum : Nat := 0xFFFFFFFF

structure Decoded where
  portnum : Option String
  text : Option String

/-- A packet as the library delivers it; `none` is a missing key. -/
structure Packet where
  fromId : Option String
  fromNum : Option Nat
  toNum : Option Nat
  channel : Option Int
  rxTime : Option Nat
  decoded : Option Decoded

structure Inbound where
  endpoint : String
  sender : String
  text : String
  ts : Option Nat
  deriving DecidableEq

def textFields (pkt : Packet) : Option (String × String × Option Nat) := do
  let decoded ← pkt.decoded
  guard (decoded.portnum = some "TEXT_MESSAGE_APP")
  let text ← decoded.text
  guard (text ≠ "")
  let sender ← pkt.fromId <|> pkt.fromNum.map (fun n =>
    String.ofList ('!' :: hexDigits 8 (n % 2 ^ 32)))
  pure (sender, text, pkt.rxTime)

/-- The configured channels in order, the own node number if it could be read, and what the sent
cache answers. -/
structure Bridge where
  channels : List (String × Int)
  myNodeNum : Option Nat
  sentCache : String → String → Bool

def Bridge.byIndex (b : Bridge) (index : Int) : Option String :=
  ((b.channels.filter (fun c => c.2 == index)).map Prod.fst).getLast?

def normalizePacket (b : Bridge) (pkt : Packet) :
    Option (String × String × String × Option Nat) := do
  let (sender, text, ts) ← textFields pkt
  let name ← b.byIndex (pkt.channel.getD 0)
  pure (name, sender, text, ts)

def Bridge.handleEvent (b : Bridge) (pkt : Packet) : Option Inbound :=
  if b.myNodeNum.isSome ∧ pkt.toNum = b.myNodeNum ∧ pkt.toNum ≠ some broadcastNum then
    (textFields pkt).map (fun (sender, text, ts) => ⟨"direct:" ++ sender, sender, text, ts⟩)
  else (normalizePacket b pkt).bind (fun (name, sender, text, ts) =>
    if b.sentCache name text then none else some ⟨name, sender, text, ts⟩)

section

variable {b : Bridge} {pkt : Packet} {sender text name : String} {ts : Option Nat} {node : Nat}

theorem handleEvent_own (fields : textFields pkt = some (sender, text, ts))
    (single : node ≠ broadcastNum)
    (addressed : pkt.toNum = some node) (own : b.myNodeNum = some node) :
    b.handleEvent pkt = some ⟨"direct:" ++ sender, sender, text, ts⟩ := by
  have direct : b.myNodeNum.isSome ∧ pkt.toNum = b.myNodeNum ∧ pkt.toNum ≠ some broadcastNum := by
    simp [addressed, own, single]
  rw [Bridge.handleEvent, if_pos direct, fields]
  rfl

theorem handleEvent_foreign (fields : textFields pkt = some (sender, text, ts))
    (addressed : pkt.toNum = some node) (foreign : b.myNodeNum ≠ some node) :
    b.handleEvent pkt = (b.byIndex (pkt.channel.getD 0)).bind (fun name =>
      if b.sentCache name text then none else some ⟨name, sender, text, ts⟩) := by
  have other : ¬(b.myNodeNum.isSome ∧ pkt.toNum = b.myNodeNum ∧ pkt.toNum ≠ some broadcastNum) := by
    rintro ⟨_, same, _⟩
    exact foreign (same.symm.trans addressed)
  rw [Bridge.handleEvent, if_neg other]
  cases mapped : b.byIndex (pkt.channel.getD 0) <;> simp [normalizePacket, fields, mapped]

theorem mem_channels_of_byIndex {index : Int} (mapped : b.byIndex index = some name) :
    name ∈ b.channels.map Prod.fst := by
  obtain ⟨c, member, rfl⟩ := mem_map.mp (mem_of_getLast? mapped)
  exact mem_map_of_mem (mem_filter.mp member).1

/-- A message to one node stays on its sender's endpoint if it is addressed to this very node, and
else just when its channel is not configured or the text is taken for an echo. -/
theorem direct_stays_private_iff (plain : ∀ name ∈ b.channels.map Prod.fst, ∀ rest,
      name ≠ "direct:" ++ rest)
    (fields : textFields pkt = some (sender, text, ts)) (addressed : pkt.toNum = some node)
    (single : node ≠ broadcastNum) :
    (∀ frame, b.handleEvent pkt = some frame →
        frame.endpoint = "direct:" ++ sender ∧ frame.endpoint ∉ b.channels.map Prod.fst) ↔
      b.myNodeNum = some node ∨
        ∀ name, b.byIndex (pkt.channel.getD 0) = some name → b.sentCache name text = true := by
  by_cases own : b.myNodeNum = some node
  · refine iff_of_true (fun frame emitted => ?_) (Or.inl own)
    rw [handleEvent_own fields single addressed own] at emitted
    cases emitted
    exact ⟨rfl, fun configured => plain _ configured sender rfl⟩
  · rw [handleEvent_foreign fields addressed own, or_iff_right own]
    constructor
    · intro hidden name mapped
      by_contra fresh
      have emitted :=
        hidden ⟨name, sender, text, ts⟩ (by rw [mapped, Option.bind_some, if_neg fresh])
      exact emitted.2 (mem_channels_of_byIndex mapped)
    · intro echoed frame emitted
      obtain ⟨name, mapped, emitted⟩ := Option.bind_eq_some_iff.mp emitted
      rw [if_pos (echoed name mapped)] at emitted
      cases emitted

end

def Packet.toSeven : Packet :=
  ⟨some "!00000009", some 9, some 7, none, none, some ⟨some "TEXT_MESSAGE_APP", some "secret"⟩⟩

def Bridge.town (own : Option Nat) : Bridge := ⟨[("town", 0)], own, fun _ _ => false⟩

theorem direct_stays_private_seven :
    ∃ frame, (Bridge.town (some 7)).handleEvent .toSeven = some frame ∧
    frame.endpoint = "direct:!00000009" ∧ frame.endpoint ∉ ["town"] := by
  have plain : ∀ name ∈ (Bridge.town (some 7)).channels.map Prod.fst, ∀ rest, name ≠ "direct:" ++
      rest := by
    intro name member rest same
    rw [mem_singleton.mp member] at same
    have letters := congrArg (fun s => s.toList.head?) same
    simp at letters
  have fields : textFields .toSeven = some ("!00000009", "secret", none) := by decide +kernel
  exact ⟨_, rfl, (direct_stays_private_iff plain fields rfl (by decide)).mpr (Or.inl rfl) _ rfl⟩

/-- With the own number unknown, or another one, the text is shown on the channel. -/
theorem direct_message_on_channel :
    (Bridge.town none).handleEvent .toSeven = some ⟨"town", "!00000009", "secret", none⟩ ∧
      (Bridge.town (some 5)).handleEvent .toSeven = some ⟨"town", "!00000009", "secret", none⟩ := by
  decide +kernel

end RelayFabric.Meshtastic
