/- source: transform.rs, engine.rs (process_due), crates/relay-ipc/src/lib.rs (write_frame)
   digest: The text and the frame that process_due hands to a plugin, and the limits they keep. -/

import Mathlib.Algebra.Order.BigOperators.Group.List
import RelayFabric.Wire.Frame

namespace RelayFabric

open List Lib
open Prog hiding bind run
open Lib.Cbor (Value headSize)
open Lib.Cbor.Value (record)
open String (utf8Len utf8Len_cons utf8Len_append utf8Len_nil)

def isCharBoundary : List Char → Nat → Bool
  | _, 0 => true
  | [], _ + 1 => false
  | c :: rest, n + 1 => decide (c.utf8Size ≤ n + 1) && isCharBoundary rest (n + 1 - c.utf8Size)

def floorBoundary (cs : List Char) : Nat → Nat
  | 0 => 0
  | n + 1 => if isCharBoundary cs (n + 1) then n + 1 else floorBoundary cs n

theorem utf8Len_takeBytes_of_boundary {cs : List Char} {n : Nat}
    (boundary : isCharBoundary cs n = true) :
    utf8Len (takeBytes n cs) = n := by
  induction cs generalizing n with
  | nil =>
    cases n with
    | zero => rfl
    | succ n => exact absurd boundary Bool.false_ne_true
  | cons c rest ih =>
    cases n with
    | zero =>
      have wide := c.utf8Size_pos
      rw [takeBytes, if_neg (by omega)]
      rfl
    | succ n =>
      rw [isCharBoundary, Bool.and_eq_true, decide_eq_true_eq] at boundary
      rw [takeBytes, if_pos boundary.1, utf8Len_cons, ih boundary.2]
      omega

theorem takeBytes_succ {cs : List Char} {n : Nat} (inside : isCharBoundary cs (n + 1) = false) :
    takeBytes (n + 1) cs = takeBytes n cs := by
  induction cs generalizing n with
  | nil => rfl
  | cons c rest ih =>
    rw [isCharBoundary, Bool.and_eq_false_iff, decide_eq_false_iff_not] at inside
    by_cases whole : c.utf8Size ≤ n + 1
    · have later := inside.resolve_left (not_not.mpr whole)
      obtain ⟨m, left⟩ : ∃ m, n + 1 - c.utf8Size = m + 1 := by
        refine Nat.exists_eq_succ_of_ne_zero (fun zero => ?_)
        rw [zero] at later
        exact absurd later (by simp [isCharBoundary])
      have shorter : n - c.utf8Size = m := by omega
      rw [left] at later
      rw [takeBytes, takeBytes, if_pos whole, if_pos (by omega), left, shorter, ih later]
    · rw [takeBytes, takeBytes, if_neg whole, if_neg (by omega)]

theorem utf8Len_takeBytes (cs : List Char) (n : Nat) :
    utf8Len (takeBytes n cs) = floorBoundary cs n := by
  induction n with
  | zero => exact utf8Len_takeBytes_of_boundary (by cases cs <;> rfl)
  | succ n ih =>
    rw [floorBoundary]
    split_ifs with boundary
    · exact utf8Len_takeBytes_of_boundary boundary
    · rw [takeBytes_succ (by simpa using boundary), ih]

theorem takeBytes_split {cs : List Char} {n : Nat} (long : n < utf8Len cs) :
    ∃ next back, cs = takeBytes n cs ++ next :: back ∧ utf8Len (takeBytes n cs) ≤ n ∧
      n < utf8Len (takeBytes n cs) + next.utf8Size := by
  induction cs generalizing n with
  | nil => exact absurd long (Nat.not_lt_zero n)
  | cons c rest ih =>
    rw [utf8Len_cons] at long
    by_cases whole : c.utf8Size ≤ n
    · obtain ⟨next, back, split, fits, full⟩ := ih (show n - c.utf8Size < utf8Len rest by omega)
      refine ⟨next, back, ?_, ?_, ?_⟩
      · rw [takeBytes, if_pos whole, cons_append, ← split]
      · rw [takeBytes, if_pos whole, utf8Len_cons]
        omega
      · rw [takeBytes, if_pos whole, utf8Len_cons]
        omega
    · refine ⟨c, rest, ?_, ?_, ?_⟩ <;> rw [takeBytes, if_neg whole]
      · rfl
      · exact Nat.zero_le n
      · rw [utf8Len_nil]
        omega

def shortened (body : String) (maxChars : Nat) : String :=
  if 0 < maxChars then truncateBody body maxChars else body

def assembled (tag : Option String) (body notes : String) (maxChars : Nat) : String :=
  tag.elim "" (fun t => "[" ++ t ++ "]\n") ++ shortened body maxChars ++ notes

theorem render_none (tag : Option String) (body notes : String) (maxChars : Nat) :
    render tag (shortened body maxChars ++ notes) none = assembled tag body notes maxChars := by
  unfold render assembled
  cases tag with
  | none => simp
  | some t => simp [String.append_assoc]

def ellipsis (limit : Nat) : List Char := if limit < 3 then [] else ['…']

/-- The text that goes out for an assembled one: within the limit, whole if it fits, and else the
longest start that leaves room for the mark. -/
structure Rendered (full : String) (limit : Nat) (text : String) : Prop where
  fits : text.utf8ByteSize ≤ limit
  valid : text.toByteArray.IsValidUTF8
  whole : full.utf8ByteSize ≤ limit → text = full
  cut : limit < full.utf8ByteSize → ∃ front next back, full.toList = front ++ next :: back ∧
    text.toList = front ++ ellipsis limit ∧ limit < utf8Len (front ++ next :: ellipsis limit)

theorem utf8ByteSize_eq (s : String) : s.utf8ByteSize = utf8Len s.toList := by
  conv_lhs => rw [← String.ofList_toList (s := s)]
  exact String.utf8ByteSize_ofList _

theorem render_some (tag : Option String) (body : String) (limit : Nat) :
    Rendered (render tag body none) limit (render tag body (some limit)) := by
  have same : render tag body (some limit) =
      if (render tag body none).utf8ByteSize ≤ limit then render tag body none
      else String.ofList
      (takeBytes (limit - utf8Len (ellipsis limit)) (render tag body none).toList ++
        ellipsis limit) := by
    have mark : utf8Len ['…'] = 3 := by decide
    unfold render ellipsis
    dsimp only
    split_ifs
    · rfl
    · rw [append_nil, utf8Len_nil, Nat.sub_zero]
    · rw [mark]
  generalize render tag body none = full at same
  have room : utf8Len (ellipsis limit) ≤ limit := by
    unfold ellipsis
    split_ifs with tiny
    · exact Nat.zero_le limit
    · exact Nat.le_of_not_lt tiny
  rw [same]
  by_cases small : full.utf8ByteSize ≤ limit
  · rw [if_pos small]
    exact ⟨small, String.isValidUTF8 _, fun _ => rfl, fun large =>
      absurd small (Nat.not_le.mpr large)⟩
  · rw [if_neg small]
    rw [utf8ByteSize_eq] at small
    obtain ⟨next, back, split, within, over_⟩ :=
      takeBytes_split (show limit - utf8Len (ellipsis limit) < utf8Len full.toList by omega)
    refine ⟨?_, String.isValidUTF8 _, fun whole => absurd (utf8ByteSize_eq full ▸ whole) small,
      fun _ => ⟨_, next, back, split, String.toList_ofList, ?_⟩⟩
    · rw [String.utf8ByteSize_ofList, utf8Len_append]
      omega
    · rw [utf8Len_append, utf8Len_cons]
      omega

theorem truncateBody_spec (body : String) {maxChars : Nat} (positive : 1 ≤ maxChars) :
    (truncateBody body maxChars).toList.length ≤ maxChars ∧
      (body.toList.length ≤ maxChars → truncateBody body maxChars = body) ∧
      (maxChars < body.toList.length →
        (truncateBody body maxChars).toList = body.toList.take (maxChars - 1) ++ ['…']) := by
  unfold truncateBody
  split_ifs with short
  · exact ⟨short, fun _ => rfl, fun long => absurd short (Nat.not_le.mpr long)⟩
  · refine ⟨?_, fun fits => absurd fits short, fun _ => String.toList_ofList⟩
    rw [String.toList_ofList, length_append, length_take, length_singleton]
    omega

def IpcAttachment.toValue (a : IpcAttachment) : Value :=
  record [("filename", .text a.filename), ("mime", .text a.mime), ("data", .bytes a.data)]

def sendValue (corr : Int) (endpoint kind body : String) (attachments : List IpcAttachment) :
    Value :=
  record [("t", .text "send"), ("corr", intValue corr), ("endpoint", .text endpoint),
    ("kind", .text kind), ("body", .text body),
    ("attachments", .array (attachments.map IpcAttachment.toValue))]

def DaemonToPlugin.toValue : DaemonToPlugin → Value
  | .send corr endpoint kind body attachments => sendValue corr endpoint kind body attachments
  | .sendDirect corr nativeRef body => record
    [("t", .text "send_direct"), ("corr", intValue corr), ("native_ref", .text nativeRef),
      ("body", .text body)]

def writeFrame (frame : DaemonToPlugin) : Option Bytes :=
  let body := frame.toValue.encode
  if body.length < 2 ^ 32 ∧ body.length ≤ maxFrame then some (bigEndian 4 body.length ++ body)
  else none

theorem size_ipcAttachment (a : IpcAttachment) : a.toValue.size =
    20 + (textBytes a.filename + textBytes a.mime + blobBytes a.data.length) := by
  have names : textBytes "filename" = 9 ∧ textBytes "mime" = 5 ∧ textBytes "data" = 5 := by decide
  have map : headSize 3 = 1 := by decide
  unfold IpcAttachment.toValue
  simp only [size_record, length_cons, length_nil, map_cons, map_nil,
    sum_cons, sum_nil, size_text, size_bytes, names, map]
  omega

theorem length_sendValue_le (corr : Int) (endpoint kind body : String)
    (attachments : List IpcAttachment) :
    (sendValue corr endpoint kind body attachments).encode.length ≤
      frameEstimate body endpoint kind attachments := by
  have names : textBytes "t" = 2 ∧ textBytes "send" = 5 ∧ textBytes "corr" = 5 ∧
      textBytes "endpoint" = 9 ∧ textBytes "kind" = 5 ∧ textBytes "body" = 5 ∧
      textBytes "attachments" = 12 ∧ headSize 6 = 1 := by decide
  have text : ∀ s : String, textBytes s ≤ 9 + s.utf8ByteSize := by
    intro s
    have head := headSize_le_nine s.utf8ByteSize
    unfold textBytes
    omega
  have each : ∀ a : IpcAttachment, a.toValue.size ≤
      a.data.length + a.filename.utf8ByteSize + a.mime.utf8ByteSize + 64 := by
    intro a
    have head := headSize_le_nine a.data.length
    have filename := text a.filename
    have mime := text a.mime
    rw [size_ipcAttachment, blobBytes]
    omega
  have files : (attachments.map (fun a => a.toValue.size)).sum ≤ (attachments.map (fun a =>
      a.data.length + a.filename.utf8ByteSize + a.mime.utf8ByteSize + 64)).sum :=
    sum_le_sum (fun a _ => each a)
  have count := headSize_le_nine attachments.length
  have number := size_intValue_le corr
  have e := text endpoint
  have k := text kind
  have b := text body
  rw [Value.length_encode]
  unfold sendValue frameEstimate
  simp only [size_record, length_cons, length_nil, map_cons, map_nil,
    sum_cons, sum_nil, size_text, size_array (fun _ => rfl), names]
  omega

def HandsPlugin (good : DaemonToPlugin → Prop) (_ : Section) (d d' : Daemon) : Prop :=
  ∀ tx c', d'.pluginChannels tx = some c' → ∀ frame ∈ c'.queue,
    good frame ∨ ∃ c, d.pluginChannels tx = some c ∧ frame ∈ c.queue

structure PluginReads where
  handle : PluginHandle
  policy : TransportPolicy
  routeCfg : Option RouteConfig
  tag : Option String
  attachments : List IpcAttachment
  notes : String

namespace PluginReads

def maxChars (r : PluginReads) : Nat := (r.routeCfg.map (fun cfg => cfg.render.maxChars)).getD 0

def limit (r : PluginReads) (maxPayload : Option Nat) : Option Nat :=
  tighten maxPayload
    (some (min (r.handle.capabilities.maxPayload.getD (2 ^ 64 - 1)) r.policy.maxPayloadBytes))

def body (r : PluginReads) (env : Envelope) (maxPayload : Option Nat) : String :=
  render r.tag (shortened env.body r.maxChars ++ r.notes) (r.limit maxPayload)

/-- Each part was read from a daemon that was `ok`: the handle of a connected plugin, the policy of
its transport, the row's route, the tag that the route shows and what became of the attachments. -/
structure From (ok : Daemon → Prop) (K : Crypto) (del : Delivery) (env : Envelope) (allowed : Bool)
    (cap : Option Nat) (r : PluginReads) : Prop where
  handle : ∃ d, ok d ∧ d.plugins del.destination.protocol = some r.handle ∧
    r.handle.connected = true
  policy : ∃ d, ok d ∧ d.cfg.transportPolicy del.destination.protocol = r.policy
  routeCfg : ∃ d, ok d ∧ d.cfg.routeCfg del.route = r.routeCfg
  tag : MayReturn ok (displayTag K del env r.routeCfg) r.tag
  loaded : MayReturn ok
    (outgoingAttachments K env (allowed && r.handle.capabilities.attachments) cap
    r.policy) (r.attachments, r.notes)

structure Builds (r : PluginReads) (del : Delivery) (env : Envelope) (maxPayload : Option Nat)
    (frame : DaemonToPlugin) : Prop where
  frame : frame = .send del.id del.destination.endpoint env.kind (r.body env maxPayload)
    r.attachments
  small : frameEstimate (r.body env maxPayload) del.destination.endpoint env.kind
    r.attachments ≤ maxFrame

end PluginReads

section Hands

variable {α : Type} {good : DaemonToPlugin → Prop}

theorem handsPlugin_of_same {l : Section} {d d' : Daemon}
    (same : d'.pluginChannels = d.pluginChannels) : HandsPlugin good l d d' :=
  fun _ c' found _ member => .inr ⟨c', same ▸ found, member⟩

theorem hands_of_reads {p : Engine α} (reads : Reads p) : Always (HandsPlugin good) p :=
  always_mono reads (fun _ _ _ read => handsPlugin_of_same (by rw [read.2.2]))

theorem handsPlugin_trySendPlugin (l : Section) (d : Daemon) (row tx : Nat) {frame : DaemonToPlugin}
    (is : good frame) : HandsPlugin good l d (d.trySendPlugin row tx frame).2 := by
  unfold Daemon.trySendPlugin
  cases answer : (d.pluginChannels tx).bind (fun c => c.trySend frame) with
  | none => exact handsPlugin_of_same rfl
  | some c =>
    obtain ⟨old, found, took⟩ := Option.bind_eq_some_iff.mp answer
    obtain ⟨_, rfl⟩ := Channel.room_of_trySend took
    intro other c' held frame' member
    change (d.pluginChannels.insert tx _) other = some c' at held
    rw [Map.insert_apply] at held
    split_ifs at held with here
    · cases held
      rcases mem_append.mp member with before | new
      · exact .inr ⟨old, here ▸ found, before⟩
      · exact .inl (mem_singleton.mp new ▸ is)
    · exact .inr ⟨c', held, member⟩

theorem processDuePlugin_hands {ok : Daemon → Prop} (K : Crypto) (del : Delivery) (env : Envelope)
    (now : Int) (maxPayload : Option Nat) (allowed : Bool) (cap : Option Nat)
    (is : ∀ (r : PluginReads) frame, r.From ok K del env allowed cap →
      r.Builds del env maxPayload frame → good frame) :
    Follows ok (fun _ l d d' (_ : Unit) => HandsPlugin good l d d') (fun _ _ => True) ()
      (processDuePlugin K del env now maxPayload allowed cap) := by
  have anywhere {α : Type} {p : Engine α} (always : Always (HandsPlugin good) p) :
      Follows ok (fun _ l d d' (_ : Unit) => HandsPlugin good l d d') (fun _ _ => True) () p :=
    follows_final (follows_of_always always (fun _ _ _ hands => hands)) (fun _ _ _ => trivial)
  have puts : ∀ t, Always (HandsPlugin good) (retryAt del.id t) :=
    fun t => always_modify (fun _ => handsPlugin_of_same rfl)
  have budget : Always (HandsPlugin good) (transportBudgetAllows del) :=
    always_ite (always_bind (hands_of_reads (reads_observe (by simp) rfl)) (fun _ =>
      always_critical (fun _ => handsPlugin_of_same rfl))) (always_pure _)
  refine follows_observe_bind (fun d fine => ⟨(), handsPlugin_of_same rfl, ?_⟩)
  cases handle : (d.plugins del.destination.protocol).filter PluginHandle.connected with
  | none => exact anywhere (puts _)
  | some h =>
    obtain ⟨there, connected⟩ := Option.filter_eq_some_iff.mp handle
    refine follows_observe_bind (fun e fine' => ⟨(), handsPlugin_of_same rfl, ?_⟩)
    refine follows_bind (anywhere budget) (fun _ allows _ => ?_)
    refine follows_ite (fun _ => ?_) (fun _ => anywhere (puts _))
    refine follows_observe_bind (fun f fine'' => ⟨(), handsPlugin_of_same rfl, ?_⟩)
    refine follows_bind_mayReturn (anywhere (hands_of_reads (reads_displayTag ..)))
      (fun _ tag _ tagged => ?_)
    refine follows_bind_mayReturn (anywhere (hands_of_reads (reads_outgoingAttachments ..)))
      (fun _ loaded _ rode => anywhere ?_)
    refine always_dite (fun _ => always_modify (fun _ => handsPlugin_of_same rfl)) (fun large => ?_)
    refine always_bind (always_modify (fun _ => handsPlugin_of_same rfl)) (fun _ => ?_)
    refine always_bind (always_critical (fun d => ?_))
      (fun taken => always_ite (always_pure _) (puts _))
    exact handsPlugin_trySendPlugin _ d _ _ (is ⟨h, _, _, tag, loaded.1, loaded.2⟩ _
      ⟨⟨_, fine, there, connected⟩, ⟨e, fine', rfl⟩, ⟨f, fine'', rfl⟩, tagged, rode⟩
      ⟨rfl, Nat.le_of_not_lt large⟩)

end Hands

/-- Rendering keeps its limits, and every text that `process_due` hands to a plugin is assembled
from the tag, the body and the notes of the attempt and rendered under the limits that it has
read. -/
theorem rendering_limits :
    (∀ tag body notes maxChars limit, Rendered (assembled tag body notes maxChars) limit
      (render tag (shortened body maxChars ++ notes) (some limit))) ∧
    (∀ (body : String) (maxChars : Nat), 1 ≤ maxChars →
      (truncateBody body maxChars).toList.length ≤ maxChars ∧
        (body.toList.length ≤ maxChars → truncateBody body maxChars = body)) ∧
    (∀ cs n, utf8Len (takeBytes n cs) = floorBoundary cs n) ∧
    ∀ ok K del env now maxPayload allowed cap,
      Follows ok (fun _ l d d' (_ : Unit) => HandsPlugin (fun frame =>
          ∃ r : PluginReads, r.From ok K del env allowed cap ∧ r.Builds del env maxPayload frame ∧
            ∃ limit, r.limit maxPayload = some limit ∧
              Rendered (assembled r.tag env.body r.notes r.maxChars) limit (r.body env maxPayload))
          l d d')
        (fun _ _ => True) () (processDuePlugin K del env now maxPayload allowed cap) := by
  have each : ∀ tag body notes maxChars limit, Rendered (assembled tag body notes maxChars) limit
      (render tag (shortened body maxChars ++ notes) (some limit)) := by
    intro tag body notes maxChars limit
    rw [← render_none]
    exact render_some tag _ limit
  refine ⟨each, ?_, utf8Len_takeBytes, ?_⟩
  · intro body maxChars positive
    obtain ⟨short, same, _⟩ := truncateBody_spec body positive
    exact ⟨short, same⟩
  · intro ok K del env now maxPayload allowed cap
    refine processDuePlugin_hands K del env now maxPayload allowed cap
      (fun r frame reads builds => ?_)
    exact ⟨r, reads, builds, _, rfl, each ..⟩

/-- The estimate is an upper bound of the encoding, so no frame that `process_due` hands over is
dropped by the writer. -/
theorem frame_estimate_bounds :
    (∀ (corr : Int) (endpoint kind body : String) (attachments : List IpcAttachment),
      frameEstimate body endpoint kind attachments ≤ maxFrame →
        (sendValue corr endpoint kind body attachments).encode.length ≤ maxFrame) ∧
    ∀ K del env now maxPayload allowed cap,
      Always (HandsPlugin (fun frame => (writeFrame frame).isSome = true))
        (processDuePlugin K del env now maxPayload allowed cap) := by
  have bounded : ∀ (corr : Int) (endpoint kind body : String) (attachments : List IpcAttachment),
      frameEstimate body endpoint kind attachments ≤ maxFrame →
        (sendValue corr endpoint kind body attachments).encode.length ≤ maxFrame :=
    fun corr endpoint kind body attachments small =>
      (length_sendValue_le ..).trans small
  refine ⟨bounded, ?_⟩
  intro K del env now maxPayload allowed cap
  refine always_of_follows (processDuePlugin_hands K del env now maxPayload allowed cap ?_)
  intro r frame _ builds
  have fits := bounded del.id _ _ _ _ builds.small
  have width : maxFrame < 2 ^ 32 := by decide
  rw [builds.frame]
  unfold writeFrame
  rw [if_pos ⟨fits.trans_lt width, fits⟩, Option.isSome_some]

end RelayFabric
