/- source: sdk/python/relayfabric_sdk/runner.py (_SendQueue, run_plugin)
   digest: The bounded queue between a plugin's read loop and its one sender. -/

import Mathlib.Data.Finset.Card
import Mathlib.Data.Finset.Dedup
import RelayFabric.Lib.Run

namespace RelayFabric.Sdk

open List Lib Option

structure DeliveryResult (κ : Type) where
  corr : κ
  delivered : Bool
  detail : Option String
  deriving DecidableEq, Repr

def sendQueueMax : Nat := 256

/-- The value of a frame's `corr`. Keys stand for Python's classes of equal hashable values. -/
inductive Corr (κ : Type)
  | null
  | unhashable
  | key (k : κ)
  deriving DecidableEq, Repr

inductive SendKind
  | send
  | sendDirect
  deriving DecidableEq, Repr

structure Frame (κ φ : Type) where
  corr : Corr κ
  content : φ
  deriving DecidableEq, Repr

abbrev Work (κ φ : Type) := SendKind × Frame κ φ

def Corr.key? {κ : Type} : Corr κ → Option κ
  | .key k => some k
  | .null | .unhashable => none

def Work.key? {κ φ : Type} (w : Work κ φ) : Option κ := w.2.corr.key?

/-- Where the read loop is: between frames, inside `offer` after `put_nowait` and before the corr is
added (with the lock held), inside `close`, or past it. -/
inductive Reader (κ : Type)
  | reading
  | adding (k : κ)
  | closing
  | joining
  deriving DecidableEq, Repr

/-- Where the sender is: in `get`, with an item, in `_dispatch`, before `release`, or returned. -/
inductive Worker (κ φ : Type)
  | waiting
  | taken (w : Work κ φ)
  | dispatching (w : Work κ φ)
  | releasing (w : Work κ φ)
  | stopped
  deriving DecidableEq, Repr

/-- The queue with its two threads, and the frames the read loop has written. The last two fields
are histories: what was put in the queue, and what `_dispatch` was called with. -/
structure Runner (κ φ : Type) where
  queue : List (Option (Work κ φ))
  pending : Finset κ
  reader : Reader κ
  worker : Worker κ φ
  answers : List (DeliveryResult (Corr κ))
  accepted : List (Work κ φ)
  dispatched : List (Work κ φ)

inductive Move (κ φ : Type)
  | offer (w : Work κ φ)
  | add
  | close
  | put
  | get
  | dispatch
  | finish
  | release
  deriving DecidableEq, Repr

variable {κ φ : Type}

def Move.byWorker : Move κ φ → Bool
  | .get | .dispatch | .finish | .release => true
  | .offer _ | .add | .close | .put => false

namespace Runner

def start : Runner κ φ := ⟨[], ∅, .reading, .waiting, [], [], []⟩

variable [DecidableEq κ]

def offer (w : Work κ φ) (s : Runner κ φ) : Runner κ φ :=
  if (Work.key? w).any (fun k => decide (k ∈ s.pending)) then s
  else if sendQueueMax ≤ s.queue.length then
    { s with
      answers := s.answers ++
        (if w.2.corr = .null then [] else [⟨w.2.corr, false, some "plugin busy"⟩]) }
  else
    { s with
      queue := s.queue ++ [some w]
      accepted := s.accepted ++ [w]
      reader := (Work.key? w).elim .reading .adding }

def discard (w : Work κ φ) (pending : Finset κ) : Finset κ :=
  (Work.key? w).elim pending pending.erase

/-- One atomic part. Under the lock are the two parts of `offer` and `release`; `get` and the put of
`close` are atomic in the queue's own lock, and block while it is empty or full. -/
def step : Move κ φ → Runner κ φ → Option (Runner κ φ)
  | .offer w, s => if s.reader = .reading then some (s.offer w) else none
  | .add, s =>
    match s.reader with
    | .adding k => some { s with pending := insert k s.pending, reader := .reading }
    | _ => none
  | .close, s => if s.reader = .reading then some { s with reader := .closing } else none
  | .put, s =>
    if s.reader = .closing ∧ s.queue.length < sendQueueMax then
      some { s with queue := s.queue ++ [none], reader := .joining }
    else none
  | .get, s =>
    match s.worker, s.queue with
    | .waiting, some w :: rest => some { s with queue := rest, worker := .taken w }
    | .waiting, none :: rest => some { s with queue := rest, worker := .stopped }
    | _, _ => none
  | .dispatch, s =>
    match s.worker with
    | .taken w => some { s with worker := .dispatching w, dispatched := s.dispatched ++ [w] }
    | _ => none
  | .finish, s =>
    match s.worker with
    | .dispatching w => some { s with worker := .releasing w }
    | _ => none
  | .release, s =>
    match s.worker, s.reader with
    | .releasing _, .adding _ => none
    | .releasing w, _ => some { s with pending := discard w s.pending, worker := .waiting }
    | _, _ => none

abbrev run : List (Move κ φ) → Runner κ φ → Option (Runner κ φ) := runAll step

end Runner

def Reader.closed : Reader κ → Bool
  | .joining => true
  | .reading | .adding _ | .closing => false

def Reader.between : Reader κ → Bool
  | .adding _ => false
  | .reading | .closing | .joining => true

def Worker.running : Worker κ φ → Bool
  | .stopped => false
  | .waiting | .taken _ | .dispatching _ | .releasing _ => true

def Worker.current : Worker κ φ → List (Work κ φ)
  | .taken w | .dispatching w | .releasing w => [w]
  | .waiting | .stopped => []

def Worker.undispatched : Worker κ φ → List (Work κ φ)
  | .taken w => [w]
  | .waiting | .dispatching _ | .releasing _ | .stopped => []

namespace Runner

def items (s : Runner κ φ) : List (Work κ φ) := s.queue.filterMap id

def held (s : Runner κ φ) : List (Work κ φ) := s.worker.current ++ s.items

def keys (s : Runner κ φ) : List κ := s.held.filterMap Work.key?

def settled [DecidableEq κ] (s : Runner κ φ) : Finset κ :=
  match s.reader with
  | .adding k => insert k s.pending
  | .reading | .closing | .joining => s.pending

structure Inv [DecidableEq κ] (s : Runner κ φ) : Prop where
  shape : s.queue = s.items.map some ++ (if s.reader.closed && s.worker.running then [none] else [])
  ended : s.worker = .stopped → s.reader = .joining ∧ s.items = []
  order : s.accepted = s.dispatched ++ s.worker.undispatched ++ s.items
  single : s.keys.Nodup
  pending : s.settled = s.keys.toFinset

variable [DecidableEq κ]

theorem Inv.start : (Runner.start : Runner κ φ).Inv :=
  ⟨rfl, by rintro ⟨⟩, rfl, nodup_nil, rfl⟩

variable {s s' : Runner κ φ}

section

variable (inv : s.Inv)
include inv

theorem Inv.queue_open (opened : s.reader.closed = false) :
    s.queue = s.items.map some := by
  have shape := inv.shape
  rw [opened, Bool.false_and, if_neg Bool.false_ne_true, append_nil] at shape
  exact shape

theorem Inv.running (opened : s.reader ≠ .joining) : s.worker ≠ .stopped :=
  fun stopped => opened (inv.ended stopped).1

theorem Inv.enqueue {w : Work κ φ} (reading : s.reader = .reading)
    (unlisted : ∀ k, Work.key? w = some k → k ∉ s.pending) :
    Inv { s with
      queue := s.queue ++ [some w]
      accepted := s.accepted ++ [w]
      reader := (Work.key? w).elim .reading .adding } := by
  have items : (s.queue ++ [some w]).filterMap id = s.items ++ [w] := by
    rw [filterMap_append]
    rfl
  have keys : (s.worker.current ++ (s.queue ++ [some w]).filterMap id).filterMap Work.key? =
      s.keys ++ (Work.key? w).toList := by
    rw [items, ← append_assoc, filterMap_append]
    rfl
  have settled : s.pending = s.keys.toFinset := by
    have pending := inv.pending
    unfold Runner.settled at pending
    rw [reading] at pending
    exact pending
  have opened : ((Work.key? w).elim Reader.reading Reader.adding).closed = false := by
    cases Work.key? w <;> rfl
  constructor
  · change s.queue ++ [some w] = ((s.queue ++ [some w]).filterMap id).map some ++ _
    rw [items, opened, inv.queue_open (by rw [reading]; rfl)]
    simp
  · intro stopped
    exact absurd stopped (inv.running (by rw [reading]; rintro ⟨⟩))
  · change s.accepted ++ [w] = s.dispatched ++ s.worker.undispatched ++
      (s.queue ++ [some w]).filterMap id
    rw [items, inv.order, append_assoc]
  · change ((s.worker.current ++ (s.queue ++ [some w]).filterMap id).filterMap Work.key?).Nodup
    rw [keys]
    cases found : Work.key? w with
    | none => simpa using inv.single
    | some k =>
      have absent : k ∉ s.keys := by
        rw [← List.mem_toFinset, ← settled]
        exact unlisted k found
      simpa using nodup_append_comm.mp (nodup_cons.mpr ⟨absent, inv.single⟩)
  · unfold Runner.settled
    change _ = ((s.worker.current ++ (s.queue ++ [some w]).filterMap id).filterMap
      Work.key?).toFinset
    rw [keys]
    cases found : Work.key? w with
    | none => simpa using settled
    | some k =>
      rw [settled]
      simp

theorem Inv.offer {w : Work κ φ} (reading : s.reader = .reading) :
    (s.offer w).Inv := by
  unfold Runner.offer
  split
  · exact inv
  · rename_i fresh
    split
    · exact ⟨inv.shape, inv.ended, inv.order, inv.single, inv.pending⟩
    · refine inv.enqueue reading (fun k found listed => fresh ?_)
      rw [found]
      exact decide_eq_true listed

theorem Inv.add {k : κ} (adding : s.reader = .adding k) :
    Inv { s with pending := insert k s.pending, reader := .reading } := by
  have opened : s.reader.closed = false := by rw [adding]; rfl
  have running := inv.running (by rw [adding]; rintro ⟨⟩)
  refine ⟨?_, fun stopped => absurd stopped running, inv.order, inv.single, ?_⟩
  · exact (inv.queue_open opened).trans (append_nil _).symm
  · have pending := inv.pending
    unfold Runner.settled at pending
    rw [adding] at pending
    exact pending

theorem Inv.close (reading : s.reader = .reading) :
    Inv { s with reader := .closing } := by
  have running := inv.running (by rw [reading]; rintro ⟨⟩)
  refine ⟨?_, fun stopped => absurd stopped running, inv.order, inv.single, ?_⟩
  · exact (inv.queue_open (by rw [reading]; rfl)).trans (append_nil _).symm
  · have pending := inv.pending
    unfold Runner.settled at pending
    rw [reading] at pending
    exact pending

theorem Inv.put (closing : s.reader = .closing) :
    Inv { s with queue := s.queue ++ [none], reader := .joining } := by
  have running := inv.running (by rw [closing]; rintro ⟨⟩)
  have items : (s.queue ++ [none]).filterMap id = s.items := by
    rw [filterMap_append]
    exact append_nil _
  have held : s.worker.current ++ (s.queue ++ [none]).filterMap id = s.held := by
    rw [items]
    rfl
  have alive : s.worker.running = true := by
    cases phase : s.worker with
    | stopped => exact absurd phase running
    | waiting | taken | dispatching | releasing => rfl
  constructor
  · change s.queue ++ [none] = ((s.queue ++ [none]).filterMap id).map some ++
      (if true && s.worker.running then [none] else [])
    rw [items, alive, inv.queue_open (by rw [closing]; rfl)]
    rfl
  · exact fun stopped => absurd stopped running
  · change s.accepted = s.dispatched ++ s.worker.undispatched ++ (s.queue ++ [none]).filterMap id
    rw [items]
    exact inv.order
  · change ((s.worker.current ++ (s.queue ++ [none]).filterMap id).filterMap Work.key?).Nodup
    rw [held]
    exact inv.single
  · have pending := inv.pending
    unfold Runner.settled at pending
    rw [closing] at pending
    change s.pending =
      ((s.worker.current ++ (s.queue ++ [none]).filterMap id).filterMap Work.key?).toFinset
    rw [held]
    exact pending

theorem Inv.take {w : Work κ φ} {rest : List (Option (Work κ φ))}
    (waiting : s.worker = .waiting) (first : s.queue = some w :: rest) :
    Inv { s with queue := rest, worker := .taken w } := by
  have items : s.items = w :: rest.filterMap id := by
    rw [Runner.items, first]
    rfl
  have held : s.held = [w] ++ rest.filterMap id := by
    rw [Runner.held, waiting, items]
    rfl
  have keys : s.keys = ([w] ++ rest.filterMap id).filterMap Work.key? := by
    rw [Runner.keys, held]
  constructor
  · have shape := inv.shape
    rw [first, items, waiting, map_cons, cons_append] at shape
    exact (List.cons.inj shape).2
  · rintro ⟨⟩
  · change s.accepted = s.dispatched ++ [w] ++ rest.filterMap id
    rw [inv.order, waiting, items]
    simp [Worker.undispatched]
  · change (([w] ++ rest.filterMap id).filterMap Work.key?).Nodup
    rw [← keys]
    exact inv.single
  · change s.settled = (([w] ++ rest.filterMap id).filterMap Work.key?).toFinset
    rw [← keys]
    exact inv.pending

theorem Inv.stop {rest : List (Option (Work κ φ))} (waiting : s.worker = .waiting)
    (first : s.queue = none :: rest) : Inv { s with queue := rest, worker := .stopped } := by
  have shape := inv.shape
  -- only the sentinel can stand first
  have empty : s.items = [] := by
    cases some_ : s.items with
    | nil => rfl
    | cons w items =>
      rw [first, some_, map_cons, cons_append] at shape
      cases (List.cons.inj shape).1
  rw [first, empty, map_nil, nil_append] at shape
  have closed : s.reader.closed = true := by
    cases opened : s.reader.closed with
    | true => rfl
    | false =>
      rw [opened] at shape
      cases shape
  have joining : s.reader = .joining := by
    cases phase : s.reader with
    | joining => rfl
    | reading | adding | closing =>
      rw [phase] at closed
      cases closed
  rw [closed, waiting] at shape
  obtain rfl : rest = [] := (List.cons.inj shape).2
  have held : s.held = [] := by
    rw [Runner.held, waiting, empty]
    rfl
  have keys : s.keys = [] := by
    rw [Runner.keys, held]
    rfl
  constructor
  · change [] = [] ++ (if s.reader.closed && false then [none] else [])
    rw [Bool.and_false]
    rfl
  · exact fun _ => ⟨joining, rfl⟩
  · change s.accepted = s.dispatched ++ [] ++ []
    rw [inv.order, waiting, empty]
    rfl
  · exact nodup_nil
  · change s.settled = ∅
    rw [inv.pending, keys]
    rfl

theorem Inv.dispatch {w : Work κ φ} (taken : s.worker = .taken w) :
    Inv { s with worker := .dispatching w, dispatched := s.dispatched ++ [w] } := by
  obtain ⟨shape, -, order, single, pending⟩ := inv
  unfold Runner.keys Runner.held at single pending
  rw [taken] at shape order single pending
  refine ⟨shape, by rintro ⟨⟩, ?_, single, pending⟩
  change s.accepted = s.dispatched ++ [w] ++ [] ++ s.items
  rw [order, append_nil]
  rfl

theorem Inv.finish {w : Work κ φ} (dispatching : s.worker = .dispatching w) :
    Inv { s with worker := .releasing w } := by
  obtain ⟨shape, -, order, single, pending⟩ := inv
  unfold Runner.keys Runner.held at single pending
  rw [dispatching] at shape order single pending
  exact ⟨shape, by rintro ⟨⟩, order, single, pending⟩

theorem Inv.release {w : Work κ φ} (releasing : s.worker = .releasing w)
    (between : s.reader.between = true) :
    Inv { s with pending := discard w s.pending, worker := .waiting } := by
  obtain ⟨shape, -, order, single, pending⟩ := inv
  have settled : s.settled = s.pending := by
    unfold Runner.settled
    cases phase : s.reader with
    | adding k =>
      rw [phase] at between
      cases between
    | reading | closing | joining => rfl
  have keys : s.keys = (Work.key? w).toList ++ s.items.filterMap Work.key? := by
    rw [Runner.keys, Runner.held, releasing, filterMap_append]
    cases found : Work.key? w with
    | none | some k => simp [Worker.current, found]
  rw [settled, keys] at pending
  rw [keys] at single
  rw [releasing] at shape order
  refine ⟨shape, by rintro ⟨⟩, order, (nodup_append.mp single).2.1, ?_⟩
  have still : Runner.settled { s with pending := discard w s.pending, worker := .waiting } =
      discard w s.pending := by
    cases phase : s.reader with
    | adding k =>
      rw [phase] at between
      cases between
    | reading | closing | joining => rfl
  rw [still]
  change discard w s.pending = (s.items.filterMap Work.key?).toFinset
  rw [discard, pending]
  cases found : Work.key? w with
  | none => simp
  | some k =>
    rw [found] at single
    have absent : k ∉ (s.items.filterMap Work.key?).toFinset := by
      rw [List.mem_toFinset]
      exact (nodup_cons.mp single).1
    simp only [elim_some, toList_some, singleton_append, toFinset_cons]
    exact Finset.erase_insert absent

theorem Inv.step {a : Move κ φ} (step : Runner.step a s = some s') : s'.Inv := by
  cases a with
  | offer w =>
    simp only [Runner.step] at step
    split at step
    · rename_i reading
      cases step
      exact inv.offer reading
    · cases step
  | add =>
    simp only [Runner.step] at step
    split at step
    · rename_i k adding
      cases step
      exact inv.add adding
    · cases step
  | close =>
    simp only [Runner.step] at step
    split at step
    · rename_i reading
      cases step
      exact inv.close reading
    · cases step
  | put =>
    simp only [Runner.step] at step
    split at step
    · rename_i ready
      cases step
      exact inv.put ready.1
    · cases step
  | get =>
    simp only [Runner.step] at step
    split at step
    · rename_i w rest waiting first
      cases step
      exact inv.take waiting first
    · rename_i rest waiting first
      cases step
      exact inv.stop waiting first
    · cases step
  | dispatch =>
    simp only [Runner.step] at step
    split at step
    · rename_i w taken
      cases step
      exact inv.dispatch taken
    · cases step
  | finish =>
    simp only [Runner.step] at step
    split at step
    · rename_i w dispatching
      cases step
      exact inv.finish dispatching
    · cases step
  | release =>
    simp only [Runner.step] at step
    split at step
    · cases step
    · rename_i w releasing apart
      cases step
      refine inv.release releasing ?_
      cases phase : s.reader with
      | adding k => exact absurd phase (apart k)
      | reading | closing | joining => rfl
    · cases step

end

def Drains (s : Runner κ φ) : Prop :=
  ∃ moves s', (∀ a ∈ moves, Move.byWorker a = true) ∧ Runner.run moves s = some s' ∧
    s'.worker = .stopped

theorem Drains.of_step {a : Move κ φ} (own : a.byWorker = true) (step : Runner.step a s = some s')
    (drains : s'.Drains) : s.Drains := by
  obtain ⟨moves, last, each, reached, stopped⟩ := drains
  refine ⟨a :: moves, last, fun b member => ?_, ?_, stopped⟩
  · rcases mem_cons.mp member with rfl | later
    · exact own
    · exact each b later
  · rw [Runner.run, runAll, step]
    exact reached

theorem drains_of_releasing {w : Work κ φ} (joining : s.reader = .joining)
    (phase : s.worker = .releasing w)
    (next : Drains { s with pending := discard w s.pending, worker := .waiting }) : s.Drains := by
  refine Drains.of_step (a := .release) rfl ?_ next
  simp [Runner.step, phase, joining]

theorem drains_of_dispatching {w : Work κ φ} (joining : s.reader = .joining)
    (phase : s.worker = .dispatching w)
    (next : Drains { s with pending := discard w s.pending, worker := .waiting }) : s.Drains := by
  have released : Drains { s with worker := .releasing w } := drains_of_releasing joining rfl next
  refine Drains.of_step (a := .finish) rfl ?_ released
  simp [Runner.step, phase]

theorem drains_of_taken {w : Work κ φ} (joining : s.reader = .joining) (phase : s.worker = .taken w)
    (next : Drains { s with
      pending := discard w s.pending, worker := .waiting, dispatched := s.dispatched ++ [w] }) :
    s.Drains := by
  have sent : Drains { s with worker := .dispatching w, dispatched := s.dispatched ++ [w] } :=
    drains_of_dispatching joining rfl next
  refine Drains.of_step (a := .dispatch) rfl ?_ sent
  simp [Runner.step, phase]

theorem drains_of_waiting (items : List (Work κ φ)) :
    ∀ s : Runner κ φ, s.reader = .joining → s.worker = .waiting →
      s.queue = items.map some ++ [none] → s.Drains := by
  induction items with
  | nil =>
    intro s joining waiting shape
    have stopped : Drains { s with queue := [], worker := .stopped } :=
      ⟨[], _, fun a member => absurd member not_mem_nil, rfl, rfl⟩
    refine Drains.of_step (a := .get) rfl ?_ stopped
    simp only [Runner.step, waiting, shape]
    rfl
  | cons w items ih =>
    intro s joining waiting shape
    have taken : Drains { s with queue := items.map some ++ [none], worker := .taken w } :=
      drains_of_taken joining rfl (ih _ joining rfl rfl)
    refine Drains.of_step (a := .get) rfl ?_ taken
    simp only [Runner.step, waiting, shape]
    rfl

theorem Inv.drains (inv : s.Inv) (joining : s.reader = .joining) : s.Drains := by
  have shape (running : s.worker.running = true) : s.queue = s.items.map some ++ [none] := by
    have shape := inv.shape
    rw [joining, running] at shape
    exact shape
  cases phase : s.worker with
  | stopped => exact ⟨[], s, fun a member => absurd member not_mem_nil, rfl, phase⟩
  | waiting => exact drains_of_waiting s.items s joining phase (shape (by rw [phase]; rfl))
  | taken w =>
    refine drains_of_taken joining phase (drains_of_waiting s.items _ joining rfl ?_)
    exact shape (by rw [phase]; rfl)
  | dispatching w =>
    refine drains_of_dispatching joining phase (drains_of_waiting s.items _ joining rfl ?_)
    exact shape (by rw [phase]; rfl)
  | releasing w =>
    refine drains_of_releasing joining phase (drains_of_waiting s.items _ joining rfl ?_)
    exact shape (by rw [phase]; rfl)

/-- What holds in every state: no two frames of one corr are queued or in dispatch, work is
dispatched once and in the order of the offers, all of it when the sender returns, and between
operations the set is that of the corrs queued or in dispatch. -/
structure Sound (s : Runner κ φ) : Prop where
  single : s.keys.Nodup
  order : s.accepted = s.dispatched ++ s.worker.undispatched ++ s.items
  complete : s.worker = .stopped → s.dispatched = s.accepted
  drains : s.reader = .joining → s.Drains
  pending : s.reader.between = true → s.pending = s.keys.toFinset

theorem Inv.sound (inv : s.Inv) : s.Sound where
  single := inv.single
  order := inv.order
  complete := fun stopped => by
    have order := inv.order
    rw [stopped, (inv.ended stopped).2] at order
    simpa [Worker.undispatched] using order.symm
  drains := inv.drains
  pending := fun between => by
    have pending := inv.pending
    unfold Runner.settled at pending
    cases phase : s.reader with
    | adding k =>
      rw [phase] at between
      cases between
    | reading | closing | joining =>
      rw [phase] at pending
      exact pending

theorem close_completes_iff (reading : s.reader = .reading) :
    (Runner.run [.close, .put] s).isSome = true ↔ s.queue.length < sendQueueMax := by
  simp only [Runner.run, runAll, Runner.step, reading, if_true, bind_some, true_and]
  split
  · rename_i room
    simpa using room
  · rename_i full
    simpa using full

end Runner

/-- In every state that the read loop and the sender reach, in any interleaving, the queue is sound;
and `close` completes without waiting for the sender exactly if the queue is not full. -/
theorem send_queue_sound [DecidableEq κ] (moves : List (Move κ φ)) (s : Runner κ φ)
    (reached : Runner.run moves .start = some s) :
    s.Sound ∧ (s.reader = .reading →
      ((Runner.run [.close, .put] s).isSome = true ↔ s.queue.length < sendQueueMax)) := by
  have inv : s.Inv :=
    runAll_invariant Runner.Inv (fun _ _ _ step held => held.step step) reached .start
  exact ⟨inv.sound, Runner.close_completes_iff⟩

def sendOf (corr : Nat) : Work Nat Unit := (.send, ⟨.key corr, ()⟩)

def shutdownMoves : List (Move Nat Unit) :=
  [Move.offer (sendOf 1), Move.add, Move.get, Move.dispatch, Move.offer (sendOf 2), Move.add,
    Move.offer (sendOf 1), Move.close, Move.put]

theorem send_queue_sound_shutdown :
    ∃ s, Runner.run shutdownMoves .start = some s ∧ s.accepted = [sendOf 1, sendOf 2] ∧
      s.Sound := by
  have states : (Runner.run shutdownMoves .start).map Runner.accepted =
      some [sendOf 1, sendOf 2] := by
    decide
  obtain ⟨s, reached, accepted⟩ := map_eq_some_iff.mp states
  exact ⟨s, reached, accepted, (send_queue_sound shutdownMoves s reached).1⟩

def Runner.stuck (queued : Nat) : Runner Nat Unit :=
  let sends := (List.range queued).map (fun n => sendOf (n + 1))
  ⟨sends.map some, (Finset.range (queued + 1)), .reading, .dispatching (sendOf 0), [],
    sendOf 0 :: sends, [sendOf 0]⟩

def stuckMoves (queued : Nat) : List (Move Nat Unit) :=
  [Move.offer (sendOf 0), Move.add, Move.get, Move.dispatch] ++
    (List.range queued).flatMap (fun n => [Move.offer (sendOf (n + 1)), Move.add])

theorem run_stuckMoves {queued : Nat} (room : queued ≤ sendQueueMax) :
    Runner.run (stuckMoves queued) .start = some (.stuck queued) := by
  induction queued with
  | zero => rfl
  | succ n ih =>
    have more : stuckMoves (n + 1) = stuckMoves n ++ [Move.offer (sendOf (n + 1)), Move.add] := by
      simp [stuckMoves, range_succ]
    have offered : (Runner.stuck n).offer (sendOf (n + 1)) =
        { Runner.stuck (n + 1) with
          pending := Finset.range (n + 1), reader := .adding (n + 1) } := by
      have fresh : (Work.key? (sendOf (n + 1))).any
          (fun k => decide (k ∈ (Runner.stuck n).pending)) = false := by
        simp [Work.key?, sendOf, Corr.key?, Runner.stuck]
      have open_ : ¬sendQueueMax ≤ (Runner.stuck n).queue.length := by
        simp only [Runner.stuck, length_map, length_range]
        omega
      rw [Runner.offer, fresh, if_neg Bool.false_ne_true, if_neg open_]
      simp [Runner.stuck, range_succ, Work.key?, sendOf, Corr.key?]
    rw [more, Runner.run, runAll_append, ← Runner.run, ih (by omega)]
    simp only [bind_some, Runner.run, runAll, Runner.step, offered]
    rw [show (Runner.stuck n).reader = .reading from rfl, if_pos rfl]
    simp only [bind_some]
    rw [show insert (n + 1) (Finset.range (n + 1)) = Finset.range (n + 1 + 1) from
      Finset.range_add_one.symm]
    rfl

/-- Shutdown then waits for the sender. -/
theorem close_blocks_when_full :
    ∃ s, Runner.run (stuckMoves sendQueueMax) .start = some s ∧ s.reader = .reading ∧
      s.worker = .dispatching (sendOf 0) ∧ s.queue.length = sendQueueMax ∧
      Runner.run [.close, .put] s = none := by
  have full : (Runner.stuck sendQueueMax).queue.length = sendQueueMax := by
    simp [Runner.stuck]
  refine ⟨.stuck sendQueueMax, run_stuckMoves le_rfl, rfl, rfl, full, ?_⟩
  have completes := Runner.close_completes_iff (s := .stuck sendQueueMax) rfl
  rw [full] at completes
  exact not_isSome_iff_eq_none.mp (fun done => Nat.lt_irrefl _ (completes.mp done))

end RelayFabric.Sdk
