/- source: fed/noise.rs (FedChannel), snow
   digest: The frames of a channel, put together by reads from calls that may be dropped. -/

import RelayFabric.Lib.Framing
import RelayFabric.Wire.Frame

namespace RelayFabric

open List Lib Option

def maxNoiseMsg : Nat := 65535

def noiseTagLen : Nat := 16

def maxNoisePayload : Nat := maxNoiseMsg - noiseTagLen

/-- One direction of `snow::TransportState`: what the sender makes of its message of a number, and
what the receiver makes of the bytes it takes for that message. -/
structure Transport where
  writeMessage : Nat → Bytes → Option Bytes
  readMessage : Nat → Bytes → Option Bytes

/-- What was written as a message opens as that message, and a message is its text and a tag. -/
structure Transport.Paired (T : Transport) : Prop where
  opens : ∀ n plaintext ct, T.writeMessage n plaintext = some ct →
    T.readMessage n ct = some plaintext
  tagged : ∀ n plaintext ct, T.readMessage n ct = some plaintext →
    ct.length = plaintext.length + noiseTagLen

structure Writer where
  nonce : Nat := 0
  written : Bytes := []

def writeNoiseMsg (msg : Bytes) : Option Bytes :=
  if msg.length < 2 ^ 16 then some (framed 2 msg) else none

namespace Writer

def sendChunks (T : Transport) : List Bytes → Writer → Bool × Writer
  | [], w => (true, w)
  | chunk :: rest, w => match T.writeMessage w.nonce chunk with
    | none => (false, w)
    | some ct => match writeNoiseMsg ct with
      | none => (false, { w with nonce := w.nonce + 1 })
      | some bytes => sendChunks T rest ⟨w.nonce + 1, w.written ++ bytes⟩

def sendFrame (T : Transport) (plaintext : Bytes) (w : Writer) : Bool × Writer :=
  if RelayFabric.sendFrame plaintext then
    w.sendChunks T (chunks maxNoisePayload (framed 4 plaintext))
  else (false, w)

def sendAll (T : Transport) : List Bytes → Writer → List Bytes × Writer
  | [], w => ([], w)
  | frame :: rest, w => match w.sendFrame T frame with
    | (false, w') => ([], w')
    | (true, w') =>
      let (sent, w'') := sendAll T rest w'
      (frame :: sent, w'')

end Writer

/-- A transport message that is being read: the filled part of its two-byte length, the size of the
body once the length is known, and the filled part of the body. -/
structure PartialRead where
  hdr : Bytes := []
  size : Nat := 0
  body : Bytes := []

structure FedChannel where
  nonce : Nat := 0
  rxBuf : Bytes := []
  partialRead : PartialRead := {}

inductive RecvError
  | io
  | oversize
  | decrypt
  deriving DecidableEq, Repr

/-- The read that a `recv_frame` future waits in, with the locals it holds there: `len` of the body
loop, and `total_len` once the second loop of `recv_frame` is entered. -/
inductive Awaiting
  | hdr (want : Option Nat)
  | body (len : Nat) (want : Option Nat)

inductive Poll
  | ready (result : Except RecvError Bytes)
  | pending (site : Awaiting)

namespace FedChannel

def recvBody (pull : Option Nat → FedChannel × Poll) (ch : FedChannel) (total : Nat) :
    FedChannel × Poll :=
  if ch.rxBuf.length < 4 + total then pull (some total)
  else ({ ch with rxBuf := ch.rxBuf.drop (4 + total) }, .ready (.ok ((ch.rxBuf.drop 4).take total)))

def recvHead (pull : Option Nat → FedChannel × Poll) (ch : FedChannel) : FedChannel × Poll :=
  if ch.rxBuf.length < 4 then pull none
  else
    let total := announced 4 ch.rxBuf
    if maxFrame < total then (ch, .ready (.error .oversize)) else recvBody pull ch total

def recvLoop (pull : Option Nat → FedChannel × Poll) (ch : FedChannel) :
    Option Nat → FedChannel × Poll
  | none => recvHead pull ch
  | some total => recvBody pull ch total

def pullChunk (T : Transport) (ch : FedChannel) (want : Option Nat) : FedChannel × Poll :=
  let ct := ch.partialRead.body
  match T.readMessage ch.nonce ct with
  | none => ({ ch with partialRead := {} }, .ready (.error .decrypt))
  | some plaintext =>
    let ch' : FedChannel := ⟨ch.nonce + 1, ch.rxBuf ++ plaintext, {}⟩
    recvLoop (fun want => (ch', .pending (.hdr want))) ch' want

def readBody (T : Transport) (ch : FedChannel) (len : Nat) (want : Option Nat) :
    FedChannel × Poll :=
  if ch.partialRead.body.length < len then (ch, .pending (.body len want)) else pullChunk T ch want

def readNoiseMsg (T : Transport) (ch : FedChannel) (want : Option Nat) : FedChannel × Poll :=
  if ch.partialRead.hdr.length < 2 then (ch, .pending (.hdr want))
  else readBody T ch ch.partialRead.size want

def recvFrame (T : Transport) (ch : FedChannel) : FedChannel × Poll :=
  recvHead (readNoiseMsg T ch) ch

def room (ch : FedChannel) : Awaiting → Nat
  | .hdr _ => 2 - ch.partialRead.hdr.length
  | .body len _ => len - ch.partialRead.body.length

def resume (T : Transport) (ch : FedChannel) (bytes : Bytes) : Awaiting → FedChannel × Poll
  | .hdr want =>
    let hdr := ch.partialRead.hdr ++ bytes
    if hdr.length = 2 then
      let size := ofBigEndian hdr
      readBody T { ch with partialRead := ⟨hdr, size, []⟩ } size want
    else ({ ch with partialRead := { ch.partialRead with hdr := hdr } }, .pending (.hdr want))
  | .body len want =>
    readBody T
      { ch with partialRead := { ch.partialRead with body := ch.partialRead.body ++ bytes } }
      len want

end FedChannel

def heldBytes : FedChannel × Poll → Nat
  | (ch, .ready (.ok frame)) => 4 + frame.length + ch.rxBuf.length
  | (ch, _) => ch.rxBuf.length

/-- A receiver: the call in progress, the bytes that it has not read, what its calls returned, and
the most its buffer ever held. -/
structure Receiver where
  ch : FedChannel := {}
  call : Option Awaiting := none
  wire : Bytes
  results : List (Except RecvError Bytes) := []
  peak : Nat := 0

/-- A call of `recv_frame`; a read of some bytes; a future dropped while it waits; a read that fails
or finds the end of the stream. -/
inductive ReceiverMove
  | call
  | read (n : Nat)
  | drop
  | fault
  deriving DecidableEq, Repr

namespace Receiver

def settle (r : Receiver) (polled : FedChannel × Poll) : Receiver :=
  let r' := { r with
    ch := polled.1
    peak := max r.peak (heldBytes polled) }
  match polled.2 with
  | .ready result => { r' with
      call := none
      results := r.results ++ [result] }
  | .pending site => { r' with call := some site }

def step (T : Transport) : ReceiverMove → Receiver → Option Receiver
  | .call, r => if r.call.isNone then some (r.settle (r.ch.recvFrame T)) else none
  | .read n, r => r.call.bind (fun site =>
    if 0 < n ∧ n ≤ r.ch.room site ∧ n ≤ r.wire.length then
      some ({ r with wire := r.wire.drop n }.settle (r.ch.resume T (r.wire.take n) site))
    else none)
  | .drop, r => r.call.map (fun _ => { r with call := none })
  | .fault, r => r.call.map (fun _ => { r with
      call := none
      results := r.results ++ [.error .io] })

def frames (r : Receiver) : List Bytes := r.results.filterMap Except.toOption

end Receiver

def Waits (buffer : Bytes) : Option Nat → Prop
  | none => buffer.length < 4
  | some total => 4 ≤ buffer.length ∧ total = announced 4 buffer ∧ total ≤ maxFrame ∧
      buffer.length < 4 + total

def Agrees (buffer : Bytes) : Option Nat → Prop
  | none => True
  | some total => 4 ≤ buffer.length ∧ total = announced 4 buffer ∧ total ≤ maxFrame

theorem Waits.agrees_append {buffer : Bytes} {want : Option Nat} (waits : Waits buffer want)
    (more : Bytes) : Agrees (buffer ++ more) want := by
  cases want with
  | none => trivial
  | some total =>
    obtain ⟨four, same, small, _⟩ := waits
    refine ⟨by rw [length_append]; omega, ?_, small⟩
    unfold announced at same ⊢
    rw [take_append_of_le_length four]
    exact same

def PartialRead.raw (p : PartialRead) : Bytes := p.hdr ++ p.body

def PartialRead.Resting (p : PartialRead) : Prop :=
  (p.hdr.length < 2 ∧ p.body = []) ∨
    (p.hdr.length = 2 ∧ p.size = ofBigEndian p.hdr ∧ p.body.length < p.size)

theorem PartialRead.resting_start : ({} : PartialRead).Resting := Or.inl ⟨Nat.zero_lt_two, rfl⟩

namespace FedChannel

def Sits (ch : FedChannel) : Awaiting → Prop
  | .hdr want => ch.partialRead.hdr.length < 2 ∧ ch.partialRead.body = [] ∧ Waits ch.rxBuf want
  | .body len want => ch.partialRead.hdr.length = 2 ∧
      ch.partialRead.size = ofBigEndian ch.partialRead.hdr ∧
      len = ch.partialRead.size ∧ ch.partialRead.body.length < len ∧ Waits ch.rxBuf want

theorem Sits.resting {ch : FedChannel} {site : Awaiting} (sits : ch.Sits site) :
    ch.partialRead.Resting := by
  cases site with
  | hdr want => exact Or.inl ⟨sits.1, sits.2.1⟩
  | body len want =>
    obtain ⟨two, size, same, less, _⟩ := sits
    exact Or.inr ⟨two, size, same ▸ less⟩

theorem Sits.waits {ch : FedChannel} {site : Awaiting} (sits : ch.Sits site) :
    ∃ want, Waits ch.rxBuf want := by
  cases site with
  | hdr want => exact ⟨want, sits.2.2⟩
  | body len want => exact ⟨want, sits.2.2.2.2⟩

section Rules

variable {T : Transport} {P : FedChannel × Poll → Prop} {ch : FedChannel} {want : Option Nat}

theorem recvLoop_rule {pull : Option Nat → FedChannel × Poll} (agrees : Agrees ch.rxBuf want)
    (waiting : ∀ want, Waits ch.rxBuf want → P (pull want))
    (oversize : 4 ≤ ch.rxBuf.length → maxFrame < announced 4 ch.rxBuf →
      P (ch, .ready (.error .oversize)))
    (whole : 4 ≤ ch.rxBuf.length → announced 4 ch.rxBuf ≤ maxFrame →
      4 + announced 4 ch.rxBuf ≤ ch.rxBuf.length →
      P ({ ch with rxBuf := ch.rxBuf.drop (4 + announced 4 ch.rxBuf) },
        .ready (.ok ((ch.rxBuf.drop 4).take (announced 4 ch.rxBuf))))) :
    P (recvLoop pull ch want) := by
  have body : 4 ≤ ch.rxBuf.length → announced 4 ch.rxBuf ≤ maxFrame →
      P (recvBody pull ch (announced 4 ch.rxBuf)) := by
    intro four small
    unfold recvBody
    split
    · next short => exact waiting _ ⟨four, rfl, small, short⟩
    · next long => exact whole four small (by omega)
  cases want with
  | some total =>
    obtain ⟨four, same, small⟩ := agrees
    rw [recvLoop, same]
    exact body four (same ▸ small)
  | none =>
    rw [recvLoop]
    unfold recvHead
    split
    · next short => exact waiting none short
    · next long =>
      dsimp only
      split
      · next huge => exact oversize (by omega) huge
      · next small => exact body (by omega) (by omega)

theorem readNoiseMsg_resting (T : Transport) (resting : ch.partialRead.Resting)
    (waits : Waits ch.rxBuf want) :
    ∃ site, ch.readNoiseMsg T want = (ch, .pending site) ∧ ch.Sits site := by
  unfold readNoiseMsg
  rcases resting with ⟨short, empty⟩ | ⟨two, size, less⟩
  · rw [if_pos short]
    exact ⟨_, rfl, short, empty, waits⟩
  · rw [if_neg (by omega), readBody, if_pos less]
    exact ⟨_, rfl, two, size, rfl, less, waits⟩

theorem resume_rule {site : Awaiting} {bytes : Bytes} (sits : ch.Sits site)
    (fits : bytes.length ≤ ch.room site)
    (short : ∀ p site', p.raw = ch.partialRead.raw ++ bytes →
      ({ ch with partialRead := p } : FedChannel).Sits site' →
      P ({ ch with partialRead := p }, .pending site'))
    (full : ∀ hdr body want, hdr.length = 2 → body.length = ofBigEndian hdr →
      hdr ++ body = ch.partialRead.raw ++ bytes → Waits ch.rxBuf want →
      P (pullChunk T { ch with partialRead := ⟨hdr, ofBigEndian hdr, body⟩ } want)) :
    P (resume T ch bytes site) := by
  cases site with
  | hdr want =>
    obtain ⟨less, empty, waits⟩ := sits
    have length : (ch.partialRead.hdr ++ bytes).length ≤ 2 := by
      rw [length_append]
      simp only [room] at fits
      omega
    have raw : ch.partialRead.raw = ch.partialRead.hdr := by
      rw [PartialRead.raw, empty, append_nil]
    rw [resume]
    split
    · next two =>
      unfold readBody
      dsimp only
      split
      · next positive =>
        refine short _ _ ?_ ⟨two, rfl, rfl, positive, waits⟩
        rw [raw]
        exact append_nil _
      · next zero =>
        refine full _ [] want two (by rw [length_nil] at zero ⊢; omega) ?_ waits
        rw [raw, append_nil]
    · next one =>
      refine short _ _ ?_ ⟨by change (ch.partialRead.hdr ++ bytes).length < 2; omega, empty, waits⟩
      rw [raw]
      change _ ++ ch.partialRead.body = _
      rw [empty, append_nil]
  | body len want =>
    obtain ⟨two, size, same, less, waits⟩ := sits
    have length : (ch.partialRead.body ++ bytes).length ≤ len := by
      rw [length_append]
      simp only [room] at fits
      omega
    have raw : ch.partialRead.hdr ++ (ch.partialRead.body ++ bytes) = ch.partialRead.raw ++ bytes :=
      (append_assoc _ _ _).symm
    rw [resume]
    unfold readBody
    dsimp only
    split
    · next incomplete => exact short _ _ raw ⟨two, size, same, incomplete, waits⟩
    · next complete =>
      have all := full _ (ch.partialRead.body ++ bytes) want two (by omega) raw waits
      exact all

theorem pullChunk_rule (waits : Waits ch.rxBuf want)
    (bad : T.readMessage ch.nonce ch.partialRead.body = none →
      P ({ ch with partialRead := {} }, .ready (.error .decrypt)))
    (good : ∀ plaintext, T.readMessage ch.nonce ch.partialRead.body = some plaintext →
      Agrees (ch.rxBuf ++ plaintext) want →
      P (recvLoop (fun want => (⟨ch.nonce + 1, ch.rxBuf ++ plaintext, {}⟩, .pending (.hdr want)))
        ⟨ch.nonce + 1, ch.rxBuf ++ plaintext, {}⟩ want)) :
    P (pullChunk T ch want) := by
  unfold pullChunk
  dsimp only
  cases opened : T.readMessage ch.nonce ch.partialRead.body with
  | none => exact bad opened
  | some plaintext => exact good plaintext opened (waits.agrees_append plaintext)

end Rules

end FedChannel

inductive Opens (T : Transport) : Nat → List Bytes → List Bytes → Prop
  | nil (n : Nat) : Opens T n [] []
  | cons {n : Nat} {ct plaintext : Bytes} {cts plaintexts : List Bytes}
      (opened : T.readMessage n ct = some plaintext) (short : ct.length < 2 ^ 16)
      (rest : Opens T (n + 1) cts plaintexts) : Opens T n (ct :: cts) (plaintext :: plaintexts)

theorem Opens.append {T : Transport} {n : Nat} {cts cts' plaintexts plaintexts' : List Bytes}
    (first : Opens T n cts plaintexts) (second : Opens T (n + cts.length) cts' plaintexts') :
    Opens T n (cts ++ cts') (plaintexts ++ plaintexts') := by
  induction first with
  | nil n => simpa using second
  | cons opened short rest ih =>
    refine .cons opened short (ih ?_)
    rwa [Nat.add_right_comm, Nat.add_assoc]

/-- What comes after the frames of a stream: a part of one more, which was not written to its end,
and the number of the message after the last. -/
structure Tail where
  last : Bytes
  more : Bytes
  next : Nat
  small : last.length ≤ maxFrame
  positive : 0 < more.length
  within : more.length ≤ 4 + last.length

def Tail.clean (next : Nat) : Tail where
  last := []
  more := framed 4 []
  next := next
  small := Nat.zero_le _
  positive := by simp
  within := by simp

def Carries (T : Transport) (tail : Tail) (n : Nat) (cts : List Bytes) (buffer : Bytes)
    (frames : List Bytes) : Prop :=
  n + cts.length = tail.next ∧ (∀ f ∈ frames, f.length ≤ maxFrame) ∧
    ∃ plaintexts, Opens T n cts plaintexts ∧
      buffer ++ plaintexts.flatten ++ tail.more = framedAll 4 (frames ++ [tail.last])

theorem Carries.nil (T : Transport) (n : Nat) : Carries T (.clean n) n [] [] [] :=
  ⟨rfl, nofun, [], .nil n, by simp [Tail.clean]⟩

theorem length_le_of_sendFrame {plaintext : Bytes} (taken : sendFrame plaintext = true) :
    plaintext.length ≤ maxFrame := by
  unfold sendFrame at taken
  rw [Bool.and_eq_true, decide_eq_true_eq, decide_eq_true_eq] at taken
  exact taken.2

namespace Writer

variable {T : Transport}

theorem sendChunks_spec (paired : T.Paired) (pieces : List Bytes) (w : Writer) :
    ∃ cts plaintexts left, Opens T w.nonce cts plaintexts ∧ pieces = plaintexts ++ left ∧
      (w.sendChunks T pieces).2.written = w.written ++ framedAll 2 cts ∧
      ((w.sendChunks T pieces).1 = false → left ≠ []) ∧
      ((w.sendChunks T pieces).1 = true → left = [] ∧
        (w.sendChunks T pieces).2.nonce = w.nonce + cts.length) := by
  induction pieces generalizing w with
  | nil => exact ⟨[], [], [], .nil _, rfl, by simp [sendChunks], nofun, fun _ => ⟨rfl, rfl⟩⟩
  | cons chunk rest ih =>
    -- stopped before this piece
    have stopped : ∀ w', w'.written = w.written → w.sendChunks T (chunk :: rest) = (false, w') →
        ∃ cts plaintexts left, Opens T w.nonce cts plaintexts ∧ chunk :: rest = plaintexts ++ left ∧
          (w.sendChunks T (chunk :: rest)).2.written = w.written ++ framedAll 2 cts ∧
          ((w.sendChunks T (chunk :: rest)).1 = false → left ≠ []) ∧
          ((w.sendChunks T (chunk :: rest)).1 = true → left = [] ∧
            (w.sendChunks T (chunk :: rest)).2.nonce = w.nonce + cts.length) := by
      intro w' same result
      rw [result]
      exact ⟨[], [], chunk :: rest, .nil _, rfl, by simp [same], fun _ => nofun, nofun⟩
    cases wrote : T.writeMessage w.nonce chunk with
    | none => exact stopped w rfl (by rw [sendChunks, wrote])
    | some ct =>
      by_cases short : ct.length < 2 ^ 16
      swap
      · refine stopped { w with nonce := w.nonce + 1 } rfl ?_
        rw [sendChunks, wrote]
        dsimp only
        rw [writeNoiseMsg, if_neg short]
      have next : w.sendChunks T (chunk :: rest) =
          sendChunks T rest ⟨w.nonce + 1, w.written ++ framed 2 ct⟩ := by
        rw [sendChunks, wrote]
        dsimp only
        rw [writeNoiseMsg, if_pos short]
      obtain ⟨cts, plaintexts, left, opens, pieces, written, failed, done⟩ :=
        ih ⟨w.nonce + 1, w.written ++ framed 2 ct⟩
      rw [next]
      refine ⟨ct :: cts, chunk :: plaintexts, left, .cons (paired.opens _ _ _ wrote) short
        opens, ?_, ?_, failed, ?_⟩
      · rw [pieces, cons_append]
      · rw [written, framedAll_cons, append_assoc]
      · intro success
        obtain ⟨empty, nonce⟩ := done success
        refine ⟨empty, ?_⟩
        rw [nonce, length_cons]
        dsimp only
        omega

theorem sendAll_carries (paired : T.Paired) (frames : List Bytes) (w : Writer) :
    ∃ cts tail, (w.sendAll T frames).2.written = w.written ++ framedAll 2 cts ∧
      Carries T tail w.nonce cts [] (w.sendAll T frames).1 := by
  induction frames generalizing w with
  | nil => exact ⟨[], _, by simp [sendAll], .nil T w.nonce⟩
  | cons frame rest ih =>
    by_cases taken : RelayFabric.sendFrame frame = true
    swap
    · have refused : w.sendAll T (frame :: rest) = ([], w) := by
        rw [sendAll, sendFrame, if_neg taken]
      rw [refused]
      exact ⟨[], _, by simp, .nil T w.nonce⟩
    have small := length_le_of_sendFrame taken
    obtain ⟨cts, plaintexts, left, opens, pieces, written, failed, done⟩ :=
      sendChunks_spec paired (chunks maxNoisePayload (framed 4 frame)) w
    have text : plaintexts.flatten ++ left.flatten = framed 4 frame := by
      rw [← flatten_append, ← pieces]
      exact flatten_chunks (by decide) _
    have send : w.sendFrame T frame = w.sendChunks T (chunks maxNoisePayload (framed 4 frame)) := by
      rw [sendFrame, if_pos taken]
    cases result : w.sendChunks T (chunks maxNoisePayload (framed 4 frame)) with
    | mk success w' =>
      rw [result] at written failed done
      rw [result] at send
      cases success with
      | false =>
        have stopped : w.sendAll T (frame :: rest) = ([], w') := by
          rw [sendAll, send]
        have filled : left.flatten ≠ [] := by
          intro empty
          obtain ⟨piece, others, same⟩ := exists_cons_of_ne_nil (failed rfl)
          have member : piece ∈ chunks maxNoisePayload (framed 4 frame) := by
            rw [pieces, same]
            simp
          have nonempty := (bounds_of_mem_chunks (by decide) member).1
          rw [same, flatten_cons, append_eq_nil_iff] at empty
          exact length_pos_iff.mp nonempty empty.1
        have total := congrArg List.length text
        rw [length_append, length_framed] at total
        let tail : Tail :=
          { last := frame
            more := left.flatten
            next := w.nonce + cts.length
            small := small
            positive := length_pos_iff.mpr filled
            within := by omega }
        rw [stopped]
        refine ⟨cts, tail, written, rfl, nofun, plaintexts, opens, ?_⟩
        rw [nil_append, nil_append, text, framedAll_cons, framedAll_nil, append_nil]
      | true =>
        obtain ⟨empty, nonce⟩ := done rfl
        obtain ⟨cts', tail, written', next, bounds, plaintexts', opens', stream⟩ := ih w'
        have sent : w.sendAll T (frame :: rest) =
            (frame :: (sendAll T rest w').1, (sendAll T rest w').2) := by
          rw [sendAll, send]
        rw [sent]
        dsimp only at written nonce
        refine ⟨cts ++ cts', tail, ?_, ?_, ?_, plaintexts ++ plaintexts', ?_, ?_⟩
        · rw [written', written, framedAll_append, append_assoc]
        · rw [length_append, ← next]
          omega
        · intro f member
          rcases mem_cons.mp member with rfl | later
          · exact small
          · exact bounds f later
        · exact opens.append (nonce ▸ opens')
        · rw [empty, flatten_nil, append_nil] at text
          rw [nil_append] at stream
          rw [cons_append, framedAll_cons, ← stream, nil_append, flatten_append, text,
            append_assoc]

end Writer

def Remains (T : Transport) (tail : Tail) (ch : FedChannel) (wire : Bytes) (frames : List Bytes) :
    Prop :=
  ∃ cts, ch.partialRead.raw ++ wire = framedAll 2 cts ∧ Carries T tail ch.nonce cts ch.rxBuf frames

def Settled (T : Transport) (tail : Tail) (wire : Bytes) (frames : List Bytes) :
    FedChannel × Poll → Prop
  | (ch, .ready (.ok frame)) => ∃ rest, frames = frame :: rest ∧ Remains T tail ch wire rest ∧
      ch.partialRead.Resting
  | (_, .ready (.error _)) => False
  | (ch, .pending site) => Remains T tail ch wire frames ∧ ch.Sits site

section Receives

variable {T : Transport} {tail : Tail} {n : Nat} {cts frames : List Bytes} {buffer wire : Bytes}
  {ch : FedChannel}

theorem Carries.first (carries : Carries T tail n cts buffer frames) (four : 4 ≤ buffer.length) :
    announced 4 buffer ≤ maxFrame ∧ (4 + announced 4 buffer ≤ buffer.length →
      ∃ rest, frames = (buffer.drop 4).take (announced 4 buffer) :: rest ∧
        Carries T tail n cts (buffer.drop (4 + announced 4 buffer)) rest) := by
  obtain ⟨next, bounds, plaintexts, opens, stream⟩ := carries
  have width : maxFrame < 256 ^ 4 := by decide
  cases frames with
  | nil =>
    rw [nil_append, framedAll_cons, append_assoc] at stream
    have small := tail.small
    have same := announced_of_append (by omega) stream four
    refine ⟨by omega, ?_⟩
    -- all of the last frame would be there, but a part of it was never written
    have length := congrArg List.length stream
    simp only [length_append, framedAll_nil, length_nil, length_framed] at length
    have positive := tail.positive
    omega
  | cons frame rest =>
    rw [cons_append, framedAll_cons, append_assoc] at stream
    have small := bounds frame (by simp)
    have same := announced_of_append (by omega) stream four
    refine ⟨by omega, ?_⟩
    intro whole
    rw [same] at whole ⊢
    obtain ⟨payload, back⟩ := payload_of_append stream whole
    refine ⟨rest, by rw [payload], next, ?_, plaintexts, opens, ?_⟩
    · intro f member
      exact bounds f (mem_cons_of_mem frame member)
    · rw [append_assoc]
      exact back

theorem recvLoop_settled {pull : Option Nat → FedChannel × Poll} {want : Option Nat}
    (agrees : Agrees ch.rxBuf want) (resting : ch.partialRead.Resting)
    (remains : Remains T tail ch wire frames)
    (waiting : ∀ want, Waits ch.rxBuf want → Settled T tail wire frames (pull want)) :
    Settled T tail wire frames (FedChannel.recvLoop pull ch want) := by
  obtain ⟨cts, raw, carries⟩ := remains
  refine FedChannel.recvLoop_rule agrees waiting ?_ ?_
  · intro four huge
    exact absurd (carries.first four).1 (by omega)
  · intro four _ whole
    obtain ⟨rest, same, carries'⟩ := (carries.first four).2 whole
    exact ⟨rest, same, ⟨cts, raw, carries'⟩, resting⟩

theorem recvFrame_settled (resting : ch.partialRead.Resting)
    (remains : Remains T tail ch wire frames) : Settled T tail wire frames (ch.recvFrame T) := by
  have call : ch.recvFrame T = FedChannel.recvLoop (ch.readNoiseMsg T) ch none := rfl
  rw [call]
  refine recvLoop_settled trivial resting remains ?_
  intro want waits
  obtain ⟨site, polled, sits⟩ := FedChannel.readNoiseMsg_resting T resting waits
  rw [polled]
  exact ⟨remains, sits⟩

theorem resume_settled {site : Awaiting} {bytes : Bytes} (sits : ch.Sits site)
    (fits : bytes.length ≤ ch.room site) (remains : Remains T tail ch (bytes ++ wire) frames) :
    Settled T tail wire frames (ch.resume T bytes site) := by
  obtain ⟨cts, raw, carries⟩ := remains
  rw [← append_assoc] at raw
  refine FedChannel.resume_rule sits fits ?_ ?_
  · intro p site' same sits'
    exact ⟨⟨cts, by rw [same]; exact raw, carries⟩, sits'⟩
  · intro hdr body want two size same waits
    rw [← same] at raw
    have length : (hdr ++ body).length = 2 + ofBigEndian hdr := by
      rw [length_append, two, size]
    -- the first message to come is the one that was read
    obtain ⟨next, bounds, plaintexts, opens, stream⟩ := carries
    cases opens with
    | nil =>
      have none := congrArg List.length raw
      rw [length_append, length, framedAll_nil, length_nil] at none
      omega
    | @cons _ ct plaintext cts' plaintexts' opened short opens' =>
      have known : announced 2 (hdr ++ body) = ct.length :=
        announced_of_append (by omega) raw (by omega)
      have front : announced 2 (hdr ++ body) = ofBigEndian hdr := by
        unfold announced
        rw [take_left' two]
      obtain ⟨payload, back⟩ := payload_of_append raw (by omega)
      rw [drop_left' two, take_of_length_le (by omega)] at payload
      rw [drop_of_length_le (by omega), nil_append] at back
      refine FedChannel.pullChunk_rule waits ?_ ?_
      · intro failed
        rw [payload, opened] at failed
        cases failed
      · intro text read agrees
        rw [payload, opened] at read
        cases read
        have remains' : Remains T tail ⟨ch.nonce + 1, ch.rxBuf ++ plaintext, {}⟩ wire frames := by
          rw [length_cons] at next
          refine ⟨cts', back, by dsimp only; omega, bounds, plaintexts', opens', ?_⟩
          rw [flatten_cons, ← append_assoc] at stream
          exact stream
        refine recvLoop_settled agrees PartialRead.resting_start remains' ?_
        intro want waits'
        exact ⟨remains', by simp, rfl, waits'⟩

theorem Remains.none_left {site : Awaiting} (remains : Remains T tail ch [] frames)
    (sits : ch.Sits site) :
    frames = [] := by
  obtain ⟨cts, raw, _, bounds, plaintexts, opens, stream⟩ := remains
  rw [append_nil] at raw
  cases opens with
  | @cons _ ct _ cts' _ _ short _ =>
    -- the message that is being read would be complete
    rw [framedAll_cons] at raw
    have total := congrArg List.length raw
    rw [length_append, length_framed] at total
    rcases sits.resting with ⟨less, empty⟩ | ⟨two, size, less⟩
    · rw [PartialRead.raw, empty, append_nil] at total
      omega
    · have split : ch.partialRead.raw ++ [] = framed 2 ct ++ framedAll 2 cts' := by
        rw [append_nil]
        exact raw
      have known := announced_of_append (by omega) split (by omega)
      rw [announced, PartialRead.raw, take_left' two, ← size] at known
      rw [PartialRead.raw, length_append, two] at total
      omega
  | nil =>
    rw [flatten_nil, append_nil] at stream
    cases frames with
    | nil => rfl
    | cons frame rest =>
      have small := bounds frame (by simp)
      have within := tail.within
      have width : maxFrame < 256 ^ 4 := by decide
      have total := congrArg List.length stream
      simp only [cons_append, framedAll_cons, framedAll_append, framedAll_nil, append_nil,
        length_append, length_framed] at total
      obtain ⟨want, waits⟩ := sits.waits
      have same := announced_of_append (by omega) stream (by omega)
      cases want with
      | none =>
        have short : ch.rxBuf.length < 4 := waits
        omega
      | some total' =>
        obtain ⟨_, local', _, less⟩ := waits
        omega

end Receives

def rxBound : Nat := 4 + maxFrame + maxNoisePayload

def Within (polled : FedChannel × Poll) : Prop :=
  heldBytes polled ≤ rxBound ∧ polled.1.partialRead.Resting ∧
    ∀ site, polled.2 = .pending site → polled.1.Sits site

section Bound

variable {T : Transport} {ch : FedChannel}

theorem Waits.length_lt {buffer : Bytes} {want : Option Nat} (waits : Waits buffer want) :
    buffer.length < 4 + maxFrame := by
  cases want with
  | none =>
    have short : buffer.length < 4 := waits
    omega
  | some total =>
    obtain ⟨_, _, small, less⟩ := waits
    omega

theorem FedChannel.Sits.within {site : Awaiting} (sits : ch.Sits site) :
    Within (ch, .pending site) := by
  obtain ⟨want, waits⟩ := sits.waits
  have short := waits.length_lt
  refine ⟨?_, sits.resting, ?_⟩
  · change ch.rxBuf.length ≤ rxBound
    unfold rxBound
    omega
  · intro site' same
    cases same
    exact sits

theorem recvLoop_within {pull : Option Nat → FedChannel × Poll} {want : Option Nat}
    (agrees : Agrees ch.rxBuf want) (resting : ch.partialRead.Resting)
    (small : ch.rxBuf.length ≤ rxBound)
    (waiting : ∀ want, Waits ch.rxBuf want → Within (pull want)) :
    Within (FedChannel.recvLoop pull ch want) := by
  refine FedChannel.recvLoop_rule agrees waiting ?_ ?_
  · intro _ _
    exact ⟨small, resting, nofun⟩
  · intro _ _ whole
    refine ⟨?_, resting, nofun⟩
    simp only [heldBytes, length_take, length_drop]
    omega

theorem recvFrame_within (resting : ch.partialRead.Resting) (small : ch.rxBuf.length ≤ rxBound) :
    Within (ch.recvFrame T) := by
  have call : ch.recvFrame T = FedChannel.recvLoop (ch.readNoiseMsg T) ch none := rfl
  rw [call]
  refine recvLoop_within trivial resting small ?_
  intro want waits
  obtain ⟨site, polled, sits⟩ := FedChannel.readNoiseMsg_resting T resting waits
  rw [polled]
  exact sits.within

theorem resume_within (paired : T.Paired) {site : Awaiting} {bytes : Bytes} (sits : ch.Sits site)
    (fits : bytes.length ≤ ch.room site) : Within (ch.resume T bytes site) := by
  refine FedChannel.resume_rule sits fits ?_ ?_
  · intro p site' _ sits'
    exact sits'.within
  · intro hdr body want two size _ waits
    have short := waits.length_lt
    have body_lt : body.length < 256 ^ 2 := by
      rw [size, ← two]
      exact ofBigEndian_lt hdr
    refine FedChannel.pullChunk_rule waits ?_ ?_
    · intro _
      refine ⟨?_, PartialRead.resting_start, nofun⟩
      change ch.rxBuf.length ≤ rxBound
      unfold rxBound
      omega
    · intro plaintext opened agrees
      have length := paired.tagged _ _ _ opened
      refine recvLoop_within agrees PartialRead.resting_start ?_ ?_
      · rw [length_append]
        unfold rxBound maxNoisePayload maxNoiseMsg
        dsimp only at length ⊢
        omega
      · intro want waits'
        exact FedChannel.Sits.within ⟨by simp, rfl, waits'⟩

end Bound

namespace Receiver

variable {T : Transport} {r r' : Receiver} {sent : List Bytes}

def Inv (T : Transport) (sent : List Bytes) (r : Receiver) : Prop :=
  (∀ e, .error e ∈ r.results → e = .io) ∧ r.ch.partialRead.Resting ∧
    (∀ site, r.call = some site → r.ch.Sits site) ∧
    ∃ rest tail, sent = r.frames ++ rest ∧ Remains T tail r.ch r.wire rest

theorem frames_append (results : List (Except RecvError Bytes)) (result : Except RecvError Bytes) :
    (results ++ [result]).filterMap Except.toOption =
      results.filterMap Except.toOption ++ result.toOption.toList := by
  cases result <;> simp [filterMap_append, Except.toOption]

variable {polled : FedChannel × Poll} {move : ReceiverMove}

theorem settle_inv {tail : Tail} {wire : Bytes} {rest : List Bytes}
    (faults : ∀ e, .error e ∈ r.results → e = .io) (all : sent = r.frames ++ rest)
    (settled : Settled T tail wire rest polled) :
    Inv T sent ({ r with wire := wire }.settle polled) := by
  obtain ⟨ch, poll⟩ := polled
  cases poll with
  | pending site =>
    obtain ⟨remains, sits⟩ := settled
    refine ⟨faults, sits.resting, ?_, rest, tail, all, remains⟩
    intro site' same
    cases same
    exact sits
  | ready result =>
    cases result with
    | error e => exact settled.elim
    | ok frame =>
      obtain ⟨rest', same, remains, resting⟩ := settled
      refine ⟨?_, resting, nofun, rest', tail, ?_, remains⟩
      · intro e member
        rcases mem_append.mp member with old | new
        · exact faults e old
        · cases mem_singleton.mp new
      · have returned : (r.results ++ [Except.ok frame]).filterMap Except.toOption =
            r.frames ++ [frame] := frames_append r.results (.ok frame)
        change sent = (r.results ++ [Except.ok frame]).filterMap Except.toOption ++ rest'
        rw [returned, all, same, append_assoc]
        rfl

theorem step_cases (stepped : step T move r = some r') :
    (r.call = none ∧ r' = r.settle (r.ch.recvFrame T)) ∨
    (∃ n site, r.call = some site ∧ 0 < n ∧ n ≤ r.ch.room site ∧ n ≤ r.wire.length ∧
      r' = { r with wire := r.wire.drop n }.settle (r.ch.resume T (r.wire.take n) site)) ∨
    r' = { r with call := none } ∨ r' = { r with
      call := none
      results := r.results ++ [.error .io] } := by
  cases move with
  | call =>
    rw [step] at stepped
    by_cases idle : r.call.isNone = true
    · rw [if_pos idle] at stepped
      exact Or.inl ⟨isNone_iff_eq_none.mp idle, (Option.some.inj stepped).symm⟩
    · rw [if_neg idle] at stepped
      cases stepped
  | read n =>
    obtain ⟨site, waiting, read⟩ := bind_eq_some_iff.mp stepped
    by_cases bounds : 0 < n ∧ n ≤ r.ch.room site ∧ n ≤ r.wire.length
    · rw [if_pos bounds] at read
      exact Or.inr (Or.inl ⟨n, site, waiting, bounds.1, bounds.2.1, bounds.2.2,
        (Option.some.inj read).symm⟩)
    · rw [if_neg bounds] at read
      cases read
  | drop =>
    obtain ⟨_, _, same⟩ := map_eq_some_iff.mp stepped
    exact Or.inr (Or.inr (Or.inl same.symm))
  | fault =>
    obtain ⟨_, _, same⟩ := map_eq_some_iff.mp stepped
    exact Or.inr (Or.inr (Or.inr same.symm))

theorem step_inv (stepped : step T move r = some r') (inv : Inv T sent r) :
    Inv T sent r' := by
  obtain ⟨faults, resting, sits, rest, tail, all, remains⟩ := inv
  rcases step_cases stepped with ⟨_, rfl⟩ | ⟨n, site, waiting, _, room, available, rfl⟩ | rfl | rfl
  · exact settle_inv faults all (recvFrame_settled resting remains)
  · rw [← take_append_drop n r.wire] at remains
    refine settle_inv faults all (resume_settled (sits site waiting) ?_ remains)
    rw [length_take]
    omega
  · exact ⟨faults, resting, nofun, rest, tail, all, remains⟩
  · have returned : (r.results ++ [Except.error RecvError.io]).filterMap Except.toOption =
        r.frames := by
      rw [frames_append]
      exact append_nil _
    refine ⟨?_, resting, nofun, rest, tail, ?_, remains⟩
    · intro e member
      rcases mem_append.mp member with old | new
      · exact faults e old
      · cases mem_singleton.mp new
        rfl
    · change sent = (r.results ++ [Except.error RecvError.io]).filterMap Except.toOption ++ rest
      rw [returned]
      exact all

theorem Inv.complete (inv : Inv T sent r) (waiting : r.call.isSome) (empty : r.wire = []) :
    r.frames = sent := by
  obtain ⟨_, _, sits, rest, tail, all, remains⟩ := inv
  obtain ⟨site, same⟩ := isSome_iff_exists.mp waiting
  rw [empty] at remains
  rw [all, remains.none_left (sits site same), append_nil]

def work (sent : List Bytes) (r : Receiver) : Nat :=
  2 * (r.wire.length + (sent.length - r.frames.length)) + (if r.call.isNone then 1 else 0)

theorem frames_settle (r : Receiver) (polled : FedChannel × Poll) :
    r.frames.length ≤ (r.settle polled).frames.length := by
  obtain ⟨ch, poll⟩ := polled
  cases poll with
  | pending site => exact le_rfl
  | ready result =>
    change _ ≤ ((r.results ++ [result]).filterMap Except.toOption).length
    rw [frames_append, length_append]
    exact Nat.le_add_right _ _

theorem wire_settle (r : Receiver) (polled : FedChannel × Poll) :
    (r.settle polled).wire = r.wire := by
  obtain ⟨ch, poll⟩ := polled
  cases poll <;> rfl

theorem work_call (inv : Inv T sent r) (idle : r.call = none) :
    work sent (r.settle (r.ch.recvFrame T)) < work sent r := by
  obtain ⟨_, resting, _, rest, tail, all, remains⟩ := inv
  have settled := recvFrame_settled resting remains
  have called : work sent r = 2 * (r.wire.length + (sent.length - r.frames.length)) + 1 := by
    rw [work, idle]
    rfl
  cases polled : r.ch.recvFrame T with
  | mk ch poll =>
    rw [polled] at settled
    cases poll with
    | pending site =>
      change 2 * (r.wire.length + (sent.length - r.frames.length)) + 0 < _
      omega
    | ready result =>
      cases result with
      | error e => exact settled.elim
      | ok frame =>
        obtain ⟨rest', same, _⟩ := settled
        have returned : (r.results ++ [Except.ok frame]).filterMap Except.toOption =
            r.frames ++ [frame] := frames_append r.results (.ok frame)
        have total := congrArg List.length all
        rw [length_append, same, length_cons] at total
        change 2 * (r.wire.length + (sent.length -
          ((r.results ++ [Except.ok frame]).filterMap Except.toOption).length)) + 1 < _
        rw [returned, length_append, length_singleton]
        omega

theorem work_read {n : Nat} {site : Awaiting} (waiting : r.call = some site)
    (positive : 0 < n) (available : n ≤ r.wire.length) :
    work sent ({ r with wire := r.wire.drop n }.settle polled) < work sent r := by
  have more := frames_settle { r with wire := r.wire.drop n } polled
  have called : work sent r = 2 * (r.wire.length + (sent.length - r.frames.length)) + 0 := by
    rw [work, waiting]
    rfl
  have same : ({ r with wire := r.wire.drop n } : Receiver).frames = r.frames := rfl
  rw [same] at more
  unfold work
  rw [wire_settle, length_drop]
  split <;> omega

theorem room_pos {ch : FedChannel} {site : Awaiting} (sits : ch.Sits site) : 0 < ch.room site := by
  cases site with
  | hdr want =>
    have less := sits.1
    simp only [FedChannel.room]
    omega
  | body len want =>
    have less := sits.2.2.2.1
    simp only [FedChannel.room]
    omega

theorem Inv.reaches (inv : Inv T sent r) :
    ∃ moves r', runAll (step T) moves r = some r' ∧ r'.frames = sent := by
  generalize measure : work sent r = m
  induction m using Nat.strong_induction_on generalizing r with
  | _ m ih =>
    have next : ∀ move r', step T move r = some r' → work sent r' < m →
        ∃ moves r'', runAll (step T) moves r = some r'' ∧ r''.frames = sent := by
      intro move r' stepped less
      obtain ⟨moves, r'', reached, all⟩ := ih _ less (step_inv stepped inv) rfl
      refine ⟨move :: moves, r'', ?_, all⟩
      rw [runAll, stepped]
      exact reached
    cases waiting : r.call with
    | none =>
      refine next .call _ ?_ (measure ▸ work_call inv waiting)
      rw [step, if_pos (by rw [waiting]; rfl)]
    | some site =>
      by_cases empty : r.wire = []
      · exact ⟨[], r, rfl, inv.complete (by rw [waiting]; rfl) empty⟩
      · have available := length_pos_iff.mpr empty
        have room := room_pos (inv.2.2.1 site waiting)
        have stepped : step T (.read 1) r =
            some ({ r with wire := r.wire.drop 1 }.settle
            (r.ch.resume T (r.wire.take 1) site)) := by
          rw [step, waiting, bind_some, if_pos ⟨Nat.one_pos, room, available⟩]
        exact next _ _ stepped (measure ▸ work_read waiting Nat.one_pos available)

def Small (r : Receiver) : Prop :=
  r.peak ≤ rxBound ∧ r.ch.rxBuf.length ≤ r.peak ∧ r.ch.partialRead.Resting ∧
    ∀ site, r.call = some site → r.ch.Sits site

theorem settle_small {wire : Bytes} (peak : r.peak ≤ rxBound)
    (within : Within polled) : Small ({ r with wire := wire }.settle polled) := by
  obtain ⟨ch, poll⟩ := polled
  obtain ⟨held, resting, sits⟩ := within
  have enough : ch.rxBuf.length ≤ heldBytes (ch, poll) := by
    cases poll with
    | pending site => exact le_rfl
    | ready result =>
      cases result with
      | error e => exact le_rfl
      | ok frame => exact Nat.le_add_left _ _
  have bounds : max r.peak (heldBytes (ch, poll)) ≤ rxBound ∧
      ch.rxBuf.length ≤ max r.peak (heldBytes (ch, poll)) := by
    omega
  cases poll with
  | pending site =>
    refine ⟨bounds.1, bounds.2, resting, ?_⟩
    intro site' same
    cases same
    exact sits site rfl
  | ready result => exact ⟨bounds.1, bounds.2, resting, nofun⟩

theorem step_small (paired : T.Paired) (stepped : step T move r = some r')
    (small : Small r) : Small r' := by
  obtain ⟨peak, buffer, resting, sits⟩ := small
  rcases step_cases stepped with ⟨_, rfl⟩ | ⟨n, site, waiting, _, room, available, rfl⟩ | rfl | rfl
  · exact settle_small peak (recvFrame_within resting (buffer.trans peak))
  · refine settle_small peak (resume_within paired (sits site waiting) ?_)
    rw [length_take]
    omega
  · exact ⟨peak, buffer, resting, nofun⟩
  · exact ⟨peak, buffer, resting, nofun⟩

end Receiver

theorem Writer.sendAll_eq {T : Transport} (paired : T.Paired)
    (accepts : ∀ n plaintext, plaintext.length ≤ maxNoisePayload →
      (T.writeMessage n plaintext).isSome)
    (frames : List Bytes) (small : ∀ f ∈ frames, f.length ≤ maxFrame) (w : Writer) :
    (w.sendAll T frames).1 = frames := by
  have pieces : ∀ (pieces : List Bytes) (w : Writer), (∀ p ∈ pieces, p.length ≤ maxNoisePayload) →
      (w.sendChunks T pieces).1 = true := by
    intro pieces
    induction pieces with
    | nil => exact fun _ _ => rfl
    | cons piece rest ih =>
      intro w fits
      have fit := fits piece mem_cons_self
      obtain ⟨ct, wrote⟩ := isSome_iff_exists.mp (accepts w.nonce piece fit)
      have short : ct.length < 2 ^ 16 := by
        have length := paired.tagged _ _ _ (paired.opens _ _ _ wrote)
        have payload : maxNoisePayload + noiseTagLen < 2 ^ 16 := by decide
        omega
      rw [sendChunks, wrote]
      dsimp only
      rw [writeNoiseMsg, if_pos short]
      exact ih _ (fun p member => fits p (mem_cons_of_mem piece member))
  induction frames generalizing w with
  | nil => rfl
  | cons frame rest ih =>
    have fit := small frame mem_cons_self
    have taken : RelayFabric.sendFrame frame = true := by
      have width : maxFrame < 2 ^ 32 := by decide
      unfold RelayFabric.sendFrame
      rw [Bool.and_eq_true, decide_eq_true_eq, decide_eq_true_eq]
      omega
    have done := pieces (chunks maxNoisePayload (framed 4 frame)) w
      (fun p member => (bounds_of_mem_chunks (by decide) member).2)
    rw [sendAll, sendFrame, if_pos taken]
    cases result : w.sendChunks T (chunks maxNoisePayload (framed 4 frame)) with
    | mk success w' =>
      rw [result] at done
      cases done
      dsimp only
      rw [ih (fun f member => small f (mem_cons_of_mem frame member)) w']

theorem Writer.sendAll_prefix (T : Transport) (frames : List Bytes) (w : Writer) :
    (w.sendAll T frames).1 <+: frames := by
  induction frames generalizing w with
  | nil => exact prefix_refl _
  | cons frame rest ih =>
    rw [sendAll]
    cases result : w.sendFrame T frame with
    | mk success w' =>
      cases success with
      | false => exact nil_prefix
      | true => exact (prefix_cons_inj frame).mpr (ih w')

/-- However the stream is cut into reads and calls are dropped: what the calls returned is a first
part of what was sent, a call fails only with its read, the rest can be had from any point on, and
whatever a peer sends the buffer stays within a length, a frame and a payload. -/
theorem channel_framing (T : Transport) (paired : T.Paired) :
    (∀ frames : List Bytes,
      let sent := (({} : Writer).sendAll T frames).1
      let wire := (({} : Writer).sendAll T frames).2.written
      sent <+: frames ∧
      ((∀ n plaintext, plaintext.length ≤ maxNoisePayload → (T.writeMessage n plaintext).isSome) →
        (∀ f ∈ frames, f.length ≤ maxFrame) → sent = frames) ∧
      ∀ moves r, runAll (Receiver.step T) moves { wire := wire } = some r →
        r.frames <+: sent ∧ (∀ e, .error e ∈ r.results → e = .io) ∧
        (r.call.isSome → r.wire = [] → r.frames = sent) ∧
        ∃ more r', runAll (Receiver.step T) more r = some r' ∧ r'.frames = sent) ∧
    (∀ (wire : Bytes) moves r, runAll (Receiver.step T) moves { wire := wire } = some r →
      r.peak ≤ 4 + maxFrame + maxNoisePayload ∧ r.ch.rxBuf.length ≤ r.peak) := by
  refine ⟨?_, ?_⟩
  · intro frames sent wire
    refine ⟨Writer.sendAll_prefix .., fun accepts small => Writer.sendAll_eq paired accepts _
      small _, ?_⟩
    intro moves r reached
    obtain ⟨cts, tail, written, carries⟩ := Writer.sendAll_carries paired frames {}
    have start : Receiver.Inv T sent { wire := wire } :=
      ⟨nofun, PartialRead.resting_start, nofun, sent, tail, rfl, cts, written, carries⟩
    have inv : Receiver.Inv T sent r :=
      runAll_invariant _ (fun _ _ _ stepped => Receiver.step_inv stepped) reached start
    obtain ⟨rest, _, all, _⟩ := inv.2.2.2
    exact ⟨⟨rest, all.symm⟩, inv.1, inv.complete, inv.reaches⟩
  · intro wire moves r reached
    have start : Receiver.Small { wire := wire } :=
      ⟨Nat.zero_le _, le_rfl, PartialRead.resting_start, nofun⟩
    have small : Receiver.Small r :=
      runAll_invariant _ (fun _ _ _ stepped => Receiver.step_small paired stepped) reached start
    exact ⟨small.1, small.2.1⟩

def Transport.clear : Transport where
  writeMessage n plaintext := some (plaintext ++ List.replicate noiseTagLen (UInt8.ofNat n))
  readMessage n ct :=
    let text := ct.take (ct.length - noiseTagLen)
    if ct = text ++ List.replicate noiseTagLen (UInt8.ofNat n) then some text else none

theorem Transport.clear_paired : Transport.clear.Paired where
  opens n plaintext ct wrote := by
    cases wrote
    have text : (plaintext ++ List.replicate noiseTagLen (UInt8.ofNat n)).take
        ((plaintext ++ List.replicate noiseTagLen (UInt8.ofNat n)).length - noiseTagLen) =
        plaintext := by
      rw [length_append, length_replicate, Nat.add_sub_cancel, take_left]
    simp [clear]
  tagged n plaintext ct read := by
    simp only [clear] at read
    split at read
    swap
    · cases read
    next whole =>
    cases read
    have length := congrArg List.length whole
    rw [length_append, length_replicate] at length
    exact length

/-- Two frames, read in pieces by calls of which one is dropped within a length and one within a
body. -/
theorem channel_framing_clear : Transport.clear.Paired ∧
    ∃ moves r, .drop ∈ moves ∧ runAll (Receiver.step .clear) moves
        { wire := (({} : Writer).sendAll .clear [[1, 2], []]).2.written } = some r ∧
      r.frames = [[1, 2], []] := by
  refine ⟨Transport.clear_paired, ?_⟩
  obtain ⟨r, reached, waiting, empty⟩ : ∃ r, runAll (Receiver.step .clear)
      [.call, .read 1, .drop, .call, .read 1, .read 5, .drop, .call, .read 17, .call, .read 2,
      .read 20, .call] { wire := (({} : Writer).sendAll .clear [[1, 2], []]).2.written } = some r ∧
        r.call.isSome ∧ r.wire = [] := by
    decide +kernel
  obtain ⟨_, all, framing⟩ := (channel_framing .clear Transport.clear_paired).1 [[1, 2], []]
  obtain ⟨_, _, complete, _⟩ := framing _ r reached
  refine ⟨_, r, by decide, reached, ?_⟩
  rw [complete waiting empty]
  exact all (fun _ _ _ => rfl) (by decide)

end RelayFabric
