/- source: fed/conn.rs (run_conn, send_fed, decode_inbound, handle_frame), fed/noise.rs
   digest: Two connection loops over a byte stream, each of which stops reading while it sends. -/

import RelayFabric.Wire.Channel

namespace RelayFabric

open List Lib Option

structure Pipe where
  capacity : Nat
  bytes : Bytes
  positive : 0 < capacity
  fits : bytes.length ≤ capacity

namespace Pipe

def empty (capacity : Nat) (positive : 0 < capacity) : Pipe :=
  ⟨capacity, [], positive, Nat.zero_le _⟩

def free (p : Pipe) : Nat := p.capacity - p.bytes.length

def push (p : Pipe) (more : Bytes) (room : more.length ≤ p.free) : Pipe where
  capacity := p.capacity
  bytes := p.bytes ++ more
  positive := p.positive
  fits := by
    have fits := p.fits
    rw [length_append]
    unfold free at room
    omega

def pull (p : Pipe) (n : Nat) : Pipe where
  capacity := p.capacity
  bytes := p.bytes.drop n
  positive := p.positive
  fits := by
    have fits := p.fits
    rw [length_drop]
    omega

theorem free_push {p : Pipe} {more : Bytes} (room : more.length ≤ p.free) :
    (p.push more room).free = p.free - more.length := by
  unfold free push
  dsimp only
  rw [length_append]
  omega

theorem length_pos_of_free_eq_zero {p : Pipe} (full : p.free = 0) : 0 < p.bytes.length := by
  have positive := p.positive
  unfold free at full
  omega

end Pipe

/-- Where a loop is: in `select!`, about to answer a frame, inside `send_fed` with bytes left to
write, or left. -/
inductive ConnPhase
  | select
  | reply (frame : Fed)
  | sending (rest : Bytes)
  | ended

/-- One `run_conn`, with the frames it still has to send of its own (handed in through the channel
or due by the tick) and the stream it writes to. `sent` and `got` record the frames whose sending
was entered and those that were received. -/
structure ConnLoop (δ : Type) where
  daemon : δ
  ch : FedChannel := {}
  nonce : Nat := 0
  queue : List Fed
  phase : ConnPhase := .select
  out : Pipe
  sent : List Bytes := []
  got : List Bytes := []

abbrev React (δ : Type) := δ → Bytes → Option Fed × δ

def connReact (C : Chrono) (K : Crypto) (io : Faults) (peerNodeId peerKey : String) :
    React Daemon :=
  fun d bytes => match decodeInbound C d peerNodeId bytes with
    | none => (none, d)
    | some frame => (handleFrame K io peerNodeId peerKey frame).run d

/-- A read of some bytes, or of none if a whole frame is buffered; the start of a send; a write. -/
inductive ConnAct
  | read (n : Nat)
  | start
  | write (n : Nat)
  deriving DecidableEq, Repr

namespace ConnLoop

variable {δ : Type}

def wireBytes (C : Chrono) (T : Transport) (nonce : Nat) (frame : Fed) : Bytes :=
  (Writer.sendFrame T (frame.encode C) ⟨nonce, []⟩).2.written

def enter (C : Chrono) (T : Transport) (l : ConnLoop δ) (frame : Fed) : ConnLoop δ :=
  match Writer.sendFrame T (frame.encode C) ⟨l.nonce, []⟩ with
  | (true, w) => { l with
      nonce := w.nonce
      phase := .sending w.written
      sent := l.sent ++ [frame.encode C] }
  | (false, _) => { l with phase := .ended }

def next (l : ConnLoop δ) : Option (Fed × ConnLoop δ) :=
  match l.phase with
  | .reply frame => some (frame, l)
  | .select => match l.queue with
    | [] => none
    | frame :: rest => some (frame, { l with queue := rest })
  | _ => none

def polled (react : React δ) (l : ConnLoop δ) : FedChannel × Poll → ConnLoop δ
  | (ch, .pending _) => { l with ch := ch }
  | (ch, .ready (.error _)) => { l with
      ch := ch
      phase := .ended }
  | (ch, .ready (.ok bytes)) =>
    let (answer, d) := react l.daemon bytes
    { l with
      ch := ch
      daemon := d
      got := l.got ++ [bytes]
      phase := answer.elim .select .reply }

def read (T : Transport) (react : React δ) (n : Nat) (me peer : ConnLoop δ) :
    Option (ConnLoop δ × ConnLoop δ) :=
  match me.phase with
  | .select => match me.ch.recvFrame T with
    | (ch, .pending site) =>
      if 0 < n ∧ n ≤ ch.room site ∧ n ≤ peer.out.bytes.length then
        some (me.polled react (ch.resume T (peer.out.bytes.take n) site),
          { peer with out := peer.out.pull n })
      else none
    | (ch, .ready result) =>
      if n = 0 then some (me.polled react (ch, .ready result), peer) else none
  | _ => none

def write (n : Nat) (me : ConnLoop δ) : Option (ConnLoop δ) :=
  match me.phase with
  | .sending rest =>
    if fits : (0 < n ∧ n ≤ rest.length) ∧ (rest.take n).length ≤ me.out.free then
      some { me with
        out := me.out.push (rest.take n) fits.2
        phase := if n = rest.length then .select else .sending (rest.drop n) }
    else none
  | _ => none

def act (C : Chrono) (T : Transport) (react : React δ) (me peer : ConnLoop δ) :
    ConnAct → Option (ConnLoop δ × ConnLoop δ)
  | .read n => me.read T react n peer
  | .start => me.next.map (fun (frame, me') => (me'.enter C T frame, peer))
  | .write n => (me.write n).map (fun me' => (me', peer))

/-- The loop waits in `send_fed` for room. -/
def Blocked (l : ConnLoop δ) : Prop :=
  match l.phase with
  | .sending _ => l.out.free = 0
  | _ => False

/-- The loop is not inside a send of which more is left than there is room for. -/
def Clear (l : ConnLoop δ) : Prop :=
  match l.phase with
  | .sending rest => rest.length ≤ l.out.free
  | _ => True

/-- When a send is entered: all of the frame finds room, or the other loop is clear. -/
def Roomy (C : Chrono) (T : Transport) (me peer : ConnLoop δ) : ConnAct → Prop
  | .start => match me.next with
    | some (frame, _) => (wireBytes C T me.nonce frame).length ≤ me.out.free ∨ peer.Clear
    | none => True
  | _ => True

instance (l : ConnLoop δ) : Decidable l.Blocked :=
  match l with
  | ⟨_, _, _, _, .sending _, _, _, _⟩ => inferInstanceAs (Decidable (_ = _))
  | ⟨_, _, _, _, .select, _, _, _⟩ => inferInstanceAs (Decidable False)
  | ⟨_, _, _, _, .reply _, _, _, _⟩ => inferInstanceAs (Decidable False)
  | ⟨_, _, _, _, .ended, _, _, _⟩ => inferInstanceAs (Decidable False)

instance (l : ConnLoop δ) : Decidable l.Clear :=
  match l with
  | ⟨_, _, _, _, .sending _, _, _, _⟩ => inferInstanceAs (Decidable (_ ≤ _))
  | ⟨_, _, _, _, .select, _, _, _⟩ => inferInstanceAs (Decidable True)
  | ⟨_, _, _, _, .reply _, _, _, _⟩ => inferInstanceAs (Decidable True)
  | ⟨_, _, _, _, .ended, _, _, _⟩ => inferInstanceAs (Decidable True)

instance (C : Chrono) (T : Transport) (me peer : ConnLoop δ) (a : ConnAct) :
    Decidable (Roomy C T me peer a) :=
  match a with
  | .read _ => isTrue trivial
  | .write _ => isTrue trivial
  | .start =>
    match given : me.next with
    | none => isTrue (by rw [Roomy, given]; trivial)
    | some (frame, _) =>
      decidable_of_iff ((wireBytes C T me.nonce frame).length ≤ me.out.free ∨ peer.Clear)
        (by rw [Roomy, given])

end ConnLoop

inductive LinkEnd
  | left
  | right
  deriving DecidableEq, Repr

structure Duplex (δ : Type) where
  left : ConnLoop δ
  right : ConnLoop δ

namespace Duplex

variable {δ : Type}

def start (d d' : δ) (queue queue' : List Fed) (out out' : Pipe) : Duplex δ :=
  ⟨{ daemon := d, queue := queue, out := out }, { daemon := d', queue := queue', out := out' }⟩

section Steps

variable (C : Chrono) (T : Transport) (react : LinkEnd → React δ)

def step (move : LinkEnd × ConnAct) (s : Duplex δ) : Option (Duplex δ) :=
  match move.1 with
  | .left => (s.left.act C T (react .left) s.right move.2).map (fun (l, r) => ⟨l, r⟩)
  | .right => (s.right.act C T (react .right) s.left move.2).map (fun (r, l) => ⟨l, r⟩)

def Roomy (move : LinkEnd × ConnAct) (s : Duplex δ) : Prop :=
  match move.1 with
  | .left => s.left.Roomy C T s.right move.2
  | .right => s.right.Roomy C T s.left move.2

instance (move : LinkEnd × ConnAct) (s : Duplex δ) : Decidable (Roomy C T move s) :=
  match move with
  | (.left, a) => inferInstanceAs (Decidable (s.left.Roomy C T s.right a))
  | (.right, a) => inferInstanceAs (Decidable (s.right.Roomy C T s.left a))

end Steps

/-- Both loops wait for room, and neither reads. -/
def Deadlocked (s : Duplex δ) : Prop := s.left.Blocked ∧ s.right.Blocked

instance (s : Duplex δ) : Decidable s.Deadlocked := inferInstanceAs (Decidable (_ ∧ _))

def Undelivered (s : Duplex δ) : Prop :=
  s.left.next.isSome ∨ s.right.next.isSome ∨ s.left.sent ≠ s.right.got ∨ s.right.sent ≠ s.left.got

end Duplex

theorem Remains.snoc {T : Transport} (paired : T.Paired) {ch : FedChannel} {wire frame : Bytes}
    {flying : List Bytes}
    {nonce : Nat} {w : Writer} (remains : Remains T (.clean nonce) ch wire flying)
    (sent : Writer.sendFrame T frame ⟨nonce, []⟩ = (true, w)) :
    w.written ≠ [] ∧ Remains T (.clean w.nonce) ch (wire ++ w.written) (flying ++ [frame]) := by
  unfold Writer.sendFrame at sent
  split at sent
  swap
  · cases sent
  next taken =>
  have small := length_le_of_sendFrame taken
  obtain ⟨cts', plaintexts', left, opens', pieces, written, _, done⟩ :=
    Writer.sendChunks_spec paired (chunks maxNoisePayload (framed 4 frame)) ⟨nonce, []⟩
  rw [sent] at written done
  obtain ⟨empty, next'⟩ := done rfl
  have text : plaintexts'.flatten = framed 4 frame := by
    rw [empty, append_nil] at pieces
    rw [← pieces]
    exact flatten_chunks (by decide) (framed 4 frame)
  rw [nil_append] at written
  obtain ⟨cts, raw, next, bounds, plaintexts, opens, stream⟩ := remains
  have whole : ch.rxBuf ++ plaintexts.flatten = framedAll 4 flying := by
    rw [framedAll_append, framedAll_cons, framedAll_nil, append_nil] at stream
    exact append_cancel_right stream
  refine ⟨?_, cts ++ cts', ?_, ?_, ?_, plaintexts ++ plaintexts', ?_, ?_⟩
  · intro none
    have nothing : cts' = [] := by
      cases cts' with
      | nil => rfl
      | cons ct rest =>
        rw [written] at none
        have length := congrArg List.length none
        rw [framedAll_cons, length_append, length_framed, length_nil] at length
        omega
    rw [nothing] at opens'
    cases opens' with
    | nil =>
      have length := congrArg List.length text
      rw [flatten_nil, length_nil, length_framed] at length
      omega
  · rw [written, framedAll_append, ← append_assoc, raw]
  · rw [length_append, ← Nat.add_assoc, next]
    exact next'.symm
  · intro f member
    rcases mem_append.mp member with old | new
    · exact bounds f old
    · exact mem_singleton.mp new ▸ small
  · exact opens.append (next ▸ opens')
  · rw [flatten_append, text, ← append_assoc, whole]
    simp [Tail.clean]

namespace ConnLoop

variable {δ : Type} {C : Chrono} {T : Transport} {react : React δ} {me peer me' peer' : ConnLoop δ}

def unsent (l : ConnLoop δ) : Bytes :=
  match l.phase with
  | .sending rest => rest
  | _ => []

theorem unsent_of_phase {l : ConnLoop δ} (quiet : ∀ rest, l.phase ≠ .sending rest) :
    l.unsent = [] := by
  unfold unsent
  cases phase : l.phase with
  | sending rest => exact absurd phase (quiet rest)
  | select | reply frame | ended => rfl

theorem clear_of_phase {l : ConnLoop δ} (quiet : ∀ rest, l.phase ≠ .sending rest) : l.Clear := by
  unfold Clear
  cases phase : l.phase with
  | sending rest => exact absurd phase (quiet rest)
  | select | reply frame | ended => trivial

theorem next_cases {frame : Fed} (given : me.next = some (frame, me')) :
    (∀ rest, me.phase ≠ .sending rest) ∧ ∃ queue, me' = { me with queue := queue } := by
  unfold next at given
  cases phase : me.phase with
  | sending rest | ended =>
    rw [phase] at given
    cases given
  | reply answer =>
    rw [phase] at given
    cases given
    exact ⟨nofun, me.queue, by rw [← phase]⟩
  | select =>
    rw [phase] at given
    cases queue : me.queue with
    | nil =>
      rw [queue] at given
      cases given
    | cons first rest =>
      rw [queue] at given
      cases given
      exact ⟨nofun, rest, rfl⟩

theorem enter_cases (C : Chrono) (T : Transport) (l : ConnLoop δ) (frame : Fed) :
    (∃ w, Writer.sendFrame T (frame.encode C) ⟨l.nonce, []⟩ = (true, w) ∧
      l.enter C T frame = { l with
        nonce := w.nonce
        phase := .sending w.written
        sent := l.sent ++ [frame.encode C] }) ∨
    l.enter C T frame = { l with phase := .ended } := by
  unfold enter
  cases sent : Writer.sendFrame T (frame.encode C) ⟨l.nonce, []⟩ with
  | mk success w =>
    cases success with
    | true => exact Or.inl ⟨w, rfl, rfl⟩
    | false => exact Or.inr rfl

theorem write_cases {n : Nat} (written : me.write n = some me') :
    ∃ rest, me.phase = .sending rest ∧ 0 < n ∧ n ≤ rest.length ∧
      ∃ room : (rest.take n).length ≤ me.out.free, me' = { me with
        out := me.out.push (rest.take n) room
        phase := if n = rest.length then .select else .sending (rest.drop n) } := by
  unfold write at written
  cases phase : me.phase with
  | sending rest =>
    rw [phase] at written
    dsimp only at written
    split at written
    · next fits => exact ⟨rest, rfl, fits.1.1, fits.1.2, fits.2, (Option.some.inj written).symm⟩
    · cases written
  | select | reply frame | ended =>
    rw [phase] at written
    cases written

theorem read_cases {n : Nat} (done : me.read T react n peer = some (me', peer')) :
    me.phase = .select ∧
      ((∃ ch site, me.ch.recvFrame T = (ch, .pending site) ∧ 0 < n ∧ n ≤ ch.room site ∧
          n ≤ peer.out.bytes.length ∧
          me' = me.polled react (ch.resume T (peer.out.bytes.take n) site) ∧
          peer' = { peer with out := peer.out.pull n }) ∨
        ∃ ch result, me.ch.recvFrame T = (ch, .ready result) ∧
          me' = me.polled react (ch, .ready result) ∧ peer' = peer) := by
  unfold read at done
  cases phase : me.phase with
  | sending rest | reply frame | ended =>
    rw [phase] at done
    cases done
  | select =>
    rw [phase] at done
    refine ⟨rfl, ?_⟩
    cases call : me.ch.recvFrame T with
    | mk ch poll =>
      rw [call] at done
      cases poll with
      | pending site =>
        dsimp only at done
        split at done
        · next fits =>
          cases done
          exact Or.inl ⟨ch, site, rfl, fits.1, fits.2.1, fits.2.2, rfl, rfl⟩
        · cases done
      | ready result =>
        dsimp only at done
        split at done
        · cases done
          exact Or.inr ⟨ch, result, rfl, rfl, rfl⟩
        · cases done

theorem polled_frame (react : React δ) (l : ConnLoop δ) (result : FedChannel × Poll) :
    (l.polled react result).out = l.out ∧ (l.polled react result).nonce = l.nonce ∧
      (l.polled react result).sent = l.sent ∧
      (l.phase = .select → ∀ rest, (l.polled react result).phase ≠ .sending rest) := by
  obtain ⟨ch, poll⟩ := result
  cases poll with
  | pending site => exact ⟨rfl, rfl, rfl, fun phase rest same => nomatch phase.symm.trans same⟩
  | ready result =>
    cases result with
    | error e => exact ⟨rfl, rfl, rfl, fun _ _ same => nomatch same⟩
    | ok bytes =>
      refine ⟨rfl, rfl, rfl, fun _ rest same => ?_⟩
      simp only [polled] at same
      cases answer : (react l.daemon bytes).1 with
      | none | some frame =>
        rw [answer] at same
        cases same

variable {a : ConnAct}

theorem act_clear (done : me.act C T react peer a = some (me', peer'))
    (roomy : me.Roomy C T peer a) (clear : me.Clear ∨ peer.Clear) : me'.Clear ∨ peer'.Clear := by
  cases a with
  | read n =>
    obtain ⟨phase, polled⟩ := read_cases done
    refine Or.inl (clear_of_phase ?_)
    rcases polled with ⟨ch, site, _, _, _, _, rfl, _⟩ | ⟨ch, result, _, rfl, _⟩
    · exact (polled_frame ..).2.2.2 phase
    · exact (polled_frame ..).2.2.2 phase
  | start =>
    obtain ⟨⟨frame, l⟩, given, same⟩ := map_eq_some_iff.mp done
    cases same
    obtain ⟨_, queue, rfl⟩ := next_cases given
    rw [Roomy, given] at roomy
    rcases roomy with fits | other
    · refine Or.inl ?_
      rcases enter_cases C T { me with queue := queue } frame with ⟨w, sent, entered⟩ | entered
      · rw [entered]
        unfold wireBytes at fits
        rw [sent] at fits
        exact fits
      · rw [entered]
        exact clear_of_phase nofun
    · exact Or.inr other
  | write n =>
    obtain ⟨l, written, same⟩ := map_eq_some_iff.mp done
    cases same
    obtain ⟨rest, phase, positive, most, room, rfl⟩ := write_cases written
    rcases clear with mine | other
    · refine Or.inl ?_
      unfold Clear at mine ⊢
      rw [phase] at mine
      split
      · next sending =>
        split at sending
        · cases sending
        · obtain rfl := ConnPhase.sending.inj sending
          rw [Pipe.free_push, length_drop, length_take]
          omega
      · trivial
    · exact Or.inr other

theorem Blocked.cases (blocked : me.Blocked) :
    ∃ rest, me.phase = .sending rest ∧ me.out.free = 0 := by
  unfold Blocked at blocked
  cases phase : me.phase with
  | sending rest =>
    rw [phase] at blocked
    exact ⟨rest, rfl, blocked⟩
  | select | reply frame | ended =>
    rw [phase] at blocked
    exact blocked.elim

theorem Blocked.not_clear (blocked : me.Blocked)
    (filled : ∀ rest, me.phase = .sending rest → rest ≠ []) :
    ¬ me.Clear := by
  obtain ⟨rest, phase, full⟩ := blocked.cases
  have some_left := length_pos_iff.mpr (filled rest phase)
  unfold Clear
  rw [phase]
  omega

def Flow (T : Transport) (me peer : ConnLoop δ) : Prop :=
  (∀ rest, me.phase = .sending rest → rest ≠ []) ∧ peer.ch.partialRead.Resting ∧
    ∃ flying, me.sent = peer.got ++ flying ∧
      Remains T (.clean me.nonce) peer.ch (me.out.bytes ++ me.unsent) flying

theorem polled_flow {wire : Bytes} {result : FedChannel × Poll} {flying : List Bytes}
    (react : React δ) (all : peer.sent = me.got ++ flying)
    (settled : Settled T (.clean peer.nonce) wire flying result) :
    (me.polled react result).ch.partialRead.Resting ∧
      ∃ flying', peer.sent = (me.polled react result).got ++ flying' ∧
        Remains T (.clean peer.nonce) (me.polled react result).ch wire flying' := by
  obtain ⟨ch, poll⟩ := result
  cases poll with
  | pending site =>
    obtain ⟨remains, sits⟩ := settled
    exact ⟨sits.resting, flying, all, remains⟩
  | ready result =>
    cases result with
    | error e => exact settled.elim
    | ok bytes =>
      obtain ⟨rest, same, remains, resting⟩ := settled
      refine ⟨resting, rest, ?_, remains⟩
      rw [all, same]
      exact (append_assoc me.got [bytes] rest).symm

theorem act_flow (paired : T.Paired) (done : me.act C T react peer a = some (me', peer'))
    (forth : Flow T me peer) (back : Flow T peer me) : Flow T me' peer' ∧ Flow T peer' me' := by
  obtain ⟨filled, resting, flying, all, remains⟩ := forth
  obtain ⟨filled', resting', flying', all', remains'⟩ := back
  cases a with
  | read n =>
    obtain ⟨phase, polled⟩ := read_cases done
    have quiet : me.unsent = [] := unsent_of_phase (by rw [phase]; exact nofun)
    have called := recvFrame_settled resting' remains'
    -- what the loop sends does not change
    have sends : ∀ (result : FedChannel × Poll) (peer' : ConnLoop δ), peer'.got = peer.got →
        peer'.ch = peer.ch → Flow T (me.polled react result) peer' := by
      intro result peer' sameGot sameCh
      obtain ⟨out, nonce, sent, phase'⟩ := polled_frame react me result
      refine ⟨fun rest same => absurd same (phase' phase rest), sameCh ▸ resting, flying, ?_, ?_⟩
      · rw [sent, sameGot, all]
      · rw [out, nonce, sameCh, unsent_of_phase (phase' phase), ← quiet]
        exact remains
    rcases polled with ⟨ch, site, call, _, room, available, rfl, rfl⟩ | ⟨ch, result, call, rfl, rfl⟩
    · rw [call] at called
      obtain ⟨waiting, sits⟩ := called
      rw [← take_append_drop n peer.out.bytes, append_assoc] at waiting
      have fits : (peer.out.bytes.take n).length ≤ ch.room site := by
        rw [length_take]
        omega
      obtain ⟨resting'', flying'', all'', remains''⟩ :=
        polled_flow react all' (resume_settled sits fits waiting)
      exact ⟨sends _ _ rfl rfl, filled', resting'', flying'', all'', remains''⟩
    · rw [call] at called
      obtain ⟨resting'', flying'', all'', remains''⟩ := polled_flow react all' called
      exact ⟨sends _ _ rfl rfl, filled', resting'', flying'', all'', remains''⟩
  | start =>
    obtain ⟨⟨frame, l⟩, given, same⟩ := map_eq_some_iff.mp done
    cases same
    obtain ⟨quiet, queue, rfl⟩ := next_cases given
    rw [unsent_of_phase quiet, append_nil] at remains
    rcases enter_cases C T { me with queue := queue } frame with ⟨w, sent, entered⟩ | entered
    · rw [entered]
      obtain ⟨nonempty, remains''⟩ := Remains.snoc paired remains sent
      refine ⟨⟨?_, resting, flying ++ [frame.encode C], ?_, remains''⟩,
        filled', resting', flying', all', remains'⟩
      · intro rest same
        obtain rfl := ConnPhase.sending.inj same
        exact nonempty
      · change me.sent ++ [frame.encode C] = _
        rw [all, append_assoc]
    · rw [entered]
      refine ⟨⟨nofun, resting, flying, all, ?_⟩, filled', resting', flying', all', remains'⟩
      change Remains T _ _ (me.out.bytes ++ []) flying
      rw [append_nil]
      exact remains
  | write n =>
    obtain ⟨l, written, same⟩ := map_eq_some_iff.mp done
    cases same
    obtain ⟨rest, phase, positive, most, room, rfl⟩ := write_cases written
    have before : me.unsent = rest := by
      unfold unsent
      rw [phase]
    have after :
      ∀ p : ConnPhase, p = (if n = rest.length then .select else .sending (rest.drop n)) →
        (∀ r, p = .sending r → r ≠ []) ∧
        ({ me with
          out := me.out.push (rest.take n) room
          phase := p } : ConnLoop δ).unsent = rest.drop n := by
      intro p same
      by_cases all : n = rest.length
      · rw [if_pos all] at same
        rw [same]
        exact ⟨nofun, (drop_of_length_le (by omega)).symm⟩
      · rw [if_neg all] at same
        rw [same]
        refine ⟨?_, rfl⟩
        rintro r sending rfl
        have empty := congrArg List.length (ConnPhase.sending.inj sending)
        rw [length_drop, length_nil] at empty
        omega
    obtain ⟨filled'', unsent''⟩ := after _ rfl
    refine ⟨⟨filled'', resting, flying, all, ?_⟩, filled', resting', flying', all', remains'⟩
    have wire : me.out.bytes ++ rest.take n ++ rest.drop n = me.out.bytes ++ me.unsent := by
      rw [append_assoc, take_append_drop, before]
    rw [← wire] at remains
    rw [unsent'']
    exact remains

section

variable (react : React δ)

theorem read_enabled (phase : me.phase = .select) (back : Flow T peer me)
    (bytes : 0 < peer.out.bytes.length) : ∃ n, (me.act C T react peer (.read n)).isSome := by
  obtain ⟨_, resting, flying, _, remains⟩ := back
  have called := recvFrame_settled resting remains
  cases call : me.ch.recvFrame T with
  | mk ch poll =>
    rw [call] at called
    cases poll with
    | pending site =>
      have room := Receiver.room_pos called.2
      refine ⟨1, ?_⟩
      rw [act, read, phase]
      rw [call]
      dsimp only
      rw [if_pos ⟨Nat.one_pos, room, bytes⟩]
      rfl
    | ready result =>
      refine ⟨0, ?_⟩
      rw [act, read, phase]
      rw [call]
      rfl

theorem read_enabled_of_missing (phase : me.phase = .select) (back : Flow T peer me)
    (wire : peer.out.bytes ++ peer.unsent = []) (missing : peer.sent ≠ me.got) :
    (me.act C T react peer (.read 0)).isSome := by
  obtain ⟨_, resting, flying, all, remains⟩ := back
  rw [wire] at remains
  have called := recvFrame_settled resting remains
  cases call : me.ch.recvFrame T with
  | mk ch poll =>
    rw [call] at called
    cases poll with
    | pending site =>
      rw [called.1.none_left called.2, append_nil] at all
      exact absurd all missing
    | ready result =>
      rw [act, read, phase]
      rw [call]
      rfl

theorem write_enabled {rest : Bytes} (phase : me.phase = .sending rest)
    (filled : rest ≠ [])
    (room : 0 < me.out.free) : (me.act C T react peer (.write 1)).isSome := by
  have left := length_pos_iff.mpr filled
  rw [act, write, phase]
  dsimp only
  rw [dif_pos ⟨⟨Nat.one_pos, left⟩, by rw [length_take]; omega⟩]
  rfl

theorem start_enabled (given : me.next.isSome) :
    (me.act C T react peer .start).isSome := by
  rw [act, isSome_map]
  exact given

end

theorem Blocked.length_pos (blocked : me.Blocked) : 0 < me.out.bytes.length := by
  obtain ⟨_, _, full⟩ := blocked.cases
  exact Pipe.length_pos_of_free_eq_zero full

theorem Blocked.act_eq_none (blocked : me.Blocked) (a : ConnAct) :
    me.act C T react peer a = none := by
  obtain ⟨rest, phase, full⟩ := blocked.cases
  cases a with
  | read n => rw [act, read, phase]
  | start => rw [act, next, phase, map_none]
  | write n =>
    rw [act, write, phase]
    dsimp only
    rw [dif_neg]
    · rfl
    · rintro ⟨⟨positive, most⟩, room⟩
      rw [length_take] at room
      omega

theorem cases_of_not_clear (loaded : ¬ me.Clear) :
    ∃ rest, me.phase = .sending rest ∧ me.out.free < rest.length := by
  unfold Clear at loaded
  cases phase : me.phase with
  | sending rest =>
    rw [phase] at loaded
    exact ⟨rest, rfl, not_le.mp loaded⟩
  | select | reply frame | ended =>
    rw [phase] at loaded
    exact absurd trivial loaded

theorem blocked_after_write (loaded : ¬ me.Clear) :
    me.Blocked ∨ ∃ n me', me.write n = some me' ∧ me'.Blocked := by
  obtain ⟨rest, phase, less⟩ := cases_of_not_clear loaded
  by_cases full : me.out.free = 0
  · refine Or.inl ?_
    unfold Blocked
    rw [phase]
    exact full
  · have length : (rest.take me.out.free).length = me.out.free := by
      rw [length_take]
      omega
    have written : me.write me.out.free = some { me with
        out := me.out.push (rest.take me.out.free) (le_of_eq length)
        phase := .sending (rest.drop me.out.free) } := by
      rw [write, phase]
      dsimp only
      rw [dif_pos ⟨⟨by omega, by omega⟩, by omega⟩, if_neg (by omega)]
    refine Or.inr ⟨_, _, written, ?_⟩
    unfold Blocked
    dsimp only
    rw [Pipe.free_push, length, Nat.sub_self]

theorem loaded_of_not_roomy (done : me.act C T react peer a = some (me', peer'))
    (crowded : ¬ me.Roomy C T peer a) (running : me'.phase ≠ .ended) :
    ¬ me'.Clear ∧ ¬ peer'.Clear := by
  cases a with
  | read n | write n => exact absurd trivial crowded
  | start =>
    obtain ⟨⟨frame, l⟩, given, same⟩ := map_eq_some_iff.mp done
    cases same
    obtain ⟨_, queue, rfl⟩ := next_cases given
    rw [Roomy, given] at crowded
    obtain ⟨large, other⟩ := not_or.mp crowded
    refine ⟨?_, other⟩
    rcases enter_cases C T { me with queue := queue } frame with ⟨w, sent, entered⟩ | entered
    · rw [entered]
      unfold wireBytes at large
      rw [sent] at large
      exact large
    · rw [entered] at running
      exact absurd rfl running

end ConnLoop

namespace Duplex

variable {δ : Type} {C : Chrono} {T : Transport} {react : LinkEnd → React δ} {s s' : Duplex δ}

theorem step_left (a : ConnAct) :
    step C T react (.left, a) s = (s.left.act C T (react .left) s.right a).map
      (fun (l, r) => ⟨l, r⟩) := rfl

theorem step_right (a : ConnAct) :
    step C T react (.right, a) s = (s.right.act C T (react .right) s.left a).map
      (fun (r, l) => ⟨l, r⟩) := rfl

def Flows (T : Transport) (s : Duplex δ) : Prop :=
  ConnLoop.Flow T s.left s.right ∧ ConnLoop.Flow T s.right s.left

variable {move : LinkEnd × ConnAct}

theorem step_flows (paired : T.Paired) (done : step C T react move s = some s')
    (flows : Flows T s) : Flows T s' := by
  obtain ⟨e, a⟩ := move
  cases e with
  | left =>
    obtain ⟨⟨l, r⟩, acted, rfl⟩ := map_eq_some_iff.mp done
    exact ConnLoop.act_flow paired acted flows.1 flows.2
  | right =>
    obtain ⟨⟨r, l⟩, acted, rfl⟩ := map_eq_some_iff.mp done
    exact (ConnLoop.act_flow paired acted flows.2 flows.1).symm

theorem step_clear (done : step C T react move s = some s')
    (roomy : Roomy C T move s) (clear : s.left.Clear ∨ s.right.Clear) :
    s'.left.Clear ∨ s'.right.Clear := by
  obtain ⟨e, a⟩ := move
  cases e with
  | left =>
    obtain ⟨⟨l, r⟩, acted, rfl⟩ := map_eq_some_iff.mp done
    exact ConnLoop.act_clear acted roomy clear
  | right =>
    obtain ⟨⟨r, l⟩, acted, rfl⟩ := map_eq_some_iff.mp done
    exact (ConnLoop.act_clear acted roomy clear.symm).symm

theorem not_deadlocked (flows : Flows T s) (clear : s.left.Clear ∨ s.right.Clear) :
    ¬ s.Deadlocked := by
  rintro ⟨left, right⟩
  rcases clear with free | free
  · exact left.not_clear flows.1.1 free
  · exact right.not_clear flows.2.1 free

theorem idle_or_blocked {l : ConnLoop δ} (running : l.phase ≠ .ended) (none : l.next = none)
    (full : ∀ rest, l.phase = .sending rest → l.out.free = 0) : l.phase = .select ∨ l.Blocked := by
  unfold ConnLoop.next at none
  cases phase : l.phase with
  | select => exact Or.inl rfl
  | reply frame =>
    rw [phase] at none
    cases none
  | sending rest =>
    refine Or.inr ?_
    unfold ConnLoop.Blocked
    rw [phase]
    exact full rest phase
  | ended => exact absurd phase running

theorem read_enabled_of_idle {me peer : ConnLoop δ} (react : React δ) (phase : me.phase = .select)
    (idle : peer.phase = .select) (back : ConnLoop.Flow T peer me) (missing : peer.sent ≠ me.got) :
    ∃ n, (me.act C T react peer (.read n)).isSome := by
  by_cases bytes : 0 < peer.out.bytes.length
  · exact ConnLoop.read_enabled react phase back bytes
  · refine ⟨0, ConnLoop.read_enabled_of_missing react phase back ?_ missing⟩
    have unsent : peer.unsent = [] := ConnLoop.unsent_of_phase (by rw [idle]; exact nofun)
    rw [unsent, append_nil]
    exact length_eq_zero_iff.mp (by omega)

theorem enabled_of_undelivered (flows : Flows T s) (clear : s.left.Clear ∨ s.right.Clear)
    (running : s.left.phase ≠ .ended) (running' : s.right.phase ≠ .ended)
    (undelivered : s.Undelivered) : ∃ move, (step C T react move s).isSome := by
  by_contra stuck
  have left : ∀ a, ¬ (s.left.act C T (react .left) s.right a).isSome := by
    intro a enabled
    refine stuck ⟨(.left, a), ?_⟩
    rw [step_left, isSome_map]
    exact enabled
  have right : ∀ a, ¬ (s.right.act C T (react .right) s.left a).isSome := by
    intro a enabled
    refine stuck ⟨(.right, a), ?_⟩
    rw [step_right, isSome_map]
    exact enabled
  have next : s.left.next = none :=
    not_isSome_iff_eq_none.mp (fun given => left _ (ConnLoop.start_enabled _ given))
  have next' : s.right.next = none :=
    not_isSome_iff_eq_none.mp (fun given => right _ (ConnLoop.start_enabled _ given))
  have full : ∀ rest, s.left.phase = .sending rest → s.left.out.free = 0 := by
    intro rest phase
    by_contra room
    exact left _ (ConnLoop.write_enabled _ phase (flows.1.1 rest phase) (by omega))
  have full' : ∀ rest, s.right.phase = .sending rest → s.right.out.free = 0 := by
    intro rest phase
    by_contra room
    exact right _ (ConnLoop.write_enabled _ phase (flows.2.1 rest phase) (by omega))
  rcases idle_or_blocked running next full with idle | blocked
  · rcases idle_or_blocked running' next' full' with idle' | blocked'
    · rcases undelivered with given | given | missing | missing
      · rw [next] at given
        cases given
      · rw [next'] at given
        cases given
      · obtain ⟨n, enabled⟩ := read_enabled_of_idle (react .right) idle' idle flows.1 missing
        exact right _ enabled
      · obtain ⟨n, enabled⟩ := read_enabled_of_idle (react .left) idle idle' flows.2 missing
        exact left _ enabled
    · obtain ⟨n, enabled⟩ :=
        ConnLoop.read_enabled (react .left) idle flows.2 blocked'.length_pos
      exact left _ enabled
  · rcases idle_or_blocked running' next' full' with idle' | blocked'
    · obtain ⟨n, enabled⟩ :=
        ConnLoop.read_enabled (react .right) idle' flows.1 blocked.length_pos
      exact right _ enabled
    · exact not_deadlocked flows clear ⟨blocked, blocked'⟩

theorem deadlock_of_loaded (loaded : ¬ s.left.Clear) (loaded' : ¬ s.right.Clear) :
    ∃ moves s', runAll (step C T react) moves s = some s' ∧ s'.Deadlocked := by
  have second : ∀ l : ConnLoop δ, l.Blocked →
      ∃ moves s', runAll (step C T react) moves ⟨l, s.right⟩ = some s' ∧ s'.Deadlocked := by
    intro l blocked
    rcases ConnLoop.blocked_after_write loaded' with blocked' | ⟨n, r, written, blocked'⟩
    · exact ⟨[], _, rfl, blocked, blocked'⟩
    · refine ⟨[(.right, .write n)], ⟨l, r⟩, ?_, blocked, blocked'⟩
      rw [runAll, step_right, ConnLoop.act, written]
      rfl
  rcases ConnLoop.blocked_after_write loaded with blocked | ⟨n, l, written, blocked⟩
  · exact second s.left blocked
  · obtain ⟨moves, s', reached, dead⟩ := second l blocked
    refine ⟨(.left, .write n) :: moves, s', ?_, dead⟩
    rw [runAll, step_left, ConnLoop.act, written]
    exact reached

theorem stuck_of_deadlocked (dead : s.Deadlocked) (move : LinkEnd × ConnAct) :
    step C T react move s = none := by
  obtain ⟨e, a⟩ := move
  cases e with
  | left => rw [step_left, dead.1.act_eq_none, map_none]
  | right => rw [step_right, dead.2.act_eq_none, map_none]

theorem loaded_of_not_roomy (done : step C T react move s = some s')
    (crowded : ¬ Roomy C T move s) (running : s'.left.phase ≠ .ended)
    (running' : s'.right.phase ≠ .ended) : ¬ s'.left.Clear ∧ ¬ s'.right.Clear := by
  obtain ⟨e, a⟩ := move
  cases e with
  | left =>
    obtain ⟨⟨l, r⟩, acted, rfl⟩ := map_eq_some_iff.mp done
    exact ConnLoop.loaded_of_not_roomy acted crowded running
  | right =>
    obtain ⟨⟨r, l⟩, acted, rfl⟩ := map_eq_some_iff.mp done
    exact (ConnLoop.loaded_of_not_roomy acted crowded running').symm

end Duplex

/-- While each send that is entered finds room for the whole frame or leaves the other loop clear,
the loops never both wait, and a frame to be delivered can make progress. A send that is entered
otherwise leads by writes alone to a state in which nothing can be done again. -/
theorem send_deadlock_freedom {δ : Type} (C : Chrono) (T : Transport) (paired : T.Paired)
    (react : LinkEnd → React δ) (d d' : δ) (queue queue' : List Fed) (capacity capacity' : Nat)
    (positive : 0 < capacity) (positive' : 0 < capacity') :
    let start :=
    Duplex.start d d' queue queue' (.empty capacity positive) (.empty capacity' positive')
    (∀ moves s, Meets (Duplex.step C T react) (Duplex.Roomy C T) moves start →
      runAll (Duplex.step C T react) moves start = some s →
      ¬ s.Deadlocked ∧ (s.left.phase ≠ .ended → s.right.phase ≠ .ended → s.Undelivered →
        ∃ move, (Duplex.step C T react move s).isSome)) ∧
    (∀ moves s move s', runAll (Duplex.step C T react) moves start = some s →
      Duplex.step C T react move s = some s' → ¬ Duplex.Roomy C T move s →
      s'.left.phase ≠ .ended → s'.right.phase ≠ .ended →
      ∃ writes s'', runAll (Duplex.step C T react) writes s' = some s'' ∧ s''.Deadlocked ∧
        ∀ move, Duplex.step C T react move s'' = none) := by
  intro start
  have flows : Duplex.Flows T start := by
    have fresh : Remains T (.clean 0) {} [] [] := ⟨[], rfl, .nil T 0⟩
    exact ⟨⟨nofun, PartialRead.resting_start, [], rfl, fresh⟩,
      nofun, PartialRead.resting_start, [], rfl, fresh⟩
  refine ⟨?_, ?_⟩
  · intro moves s roomy reached
    obtain ⟨flows', clear⟩ := runAll_preserves
      (fun s => Duplex.Flows T s ∧ (s.left.Clear ∨ s.right.Clear))
      (fun _ _ _ roomy done inv =>
        ⟨Duplex.step_flows paired done inv.1, Duplex.step_clear done roomy inv.2⟩)
      moves start s roomy reached ⟨flows, Or.inl trivial⟩
    exact ⟨Duplex.not_deadlocked flows' clear, Duplex.enabled_of_undelivered flows' clear⟩
  · intro moves s move s' _ done crowded running running'
    obtain ⟨loaded, loaded'⟩ := Duplex.loaded_of_not_roomy done crowded running running'
    obtain ⟨writes, s'', reached, dead⟩ := Duplex.deadlock_of_loaded (C := C) loaded loaded'
    exact ⟨writes, s'', reached, dead, Duplex.stuck_of_deadlocked dead⟩

def Duplex.pings (capacity : Nat) (positive : 0 < capacity) : Duplex Daemon :=
  .start (.small .empty) (.small .empty) [.ping] [.ping] (.empty capacity positive)
    (.empty capacity positive)

def pingReact : LinkEnd → React Daemon
  | .left => connReact .gregorian (.clear "rf:a") .none "rf:b" "b"
  | .right => connReact .gregorian (.clear "rf:b") .none "rf:a" "a"

/-- Buffers that hold both pings. -/
theorem send_deadlock_freedom_pings : Transport.clear.Paired ∧
    ∃ moves s, runAll (Duplex.step .gregorian .clear pingReact) moves
      (.pings 64 (by decide)) = some s ∧ s.right.got ≠ [] ∧ ¬ s.Deadlocked := by
  refine ⟨Transport.clear_paired, ?_⟩
  let moves : List (LinkEnd × ConnAct) :=
    [(.left, .start), (.right, .start), (.left, .write 30), (.right, .write 30), (.right, .read 2),
      (.right, .read 28), (.right, .start)]
  obtain ⟨s, reached, got⟩ : ∃ s, runAll (Duplex.step .gregorian .clear pingReact) moves
      (.pings 64 (by decide)) = some s ∧ s.right.got ≠ [] := by
    decide +kernel
  have roomy : Meets (Duplex.step .gregorian .clear pingReact)
      (Duplex.Roomy .gregorian .clear) moves (.pings 64 (by decide)) := by
    decide +kernel
  have free :=
    (send_deadlock_freedom .gregorian .clear Transport.clear_paired pingReact (.small .empty)
    (.small .empty) [.ping] [.ping] 64 64 (by decide) (by decide)).1 moves s roomy reached
  exact ⟨moves, s, reached, got, free.1⟩

/-- Two pings over buffers that hold half of one: each loop waits for the other to read. -/
theorem pings_deadlock :
    ∃ moves s, runAll (Duplex.step .gregorian .clear pingReact) moves
      (.pings 16 (by decide)) = some s ∧
      s.Deadlocked ∧ s.Undelivered ∧ ∀ move, Duplex.step .gregorian .clear pingReact move s =
      none := by
  obtain ⟨s, reached, dead, missing⟩ : ∃ s, runAll (Duplex.step .gregorian .clear pingReact)
      [(.left, .start), (.right, .start), (.left, .write 16), (.right, .write 16)]
      (.pings 16 (by decide)) = some s ∧ s.Deadlocked ∧ s.left.sent ≠ s.right.got := by
    decide +kernel
  exact ⟨_, s, reached, dead, Or.inr (Or.inr (Or.inl missing)), Duplex.stuck_of_deadlocked dead⟩

end RelayFabric
