import Nl6.Lib.Threads
import Nl6.Syslog.Framing

/-! # The TCP transport

Any number of goroutines call `Send` on a device's transport while the loop of `run` replaces its
connection. `Send` chooses the connection before it takes `writeMu` and retires it after it has
released it, so a second sender that has chosen the same connection can write to it behind a frame
that stopped short. As long as this does not happen, every stream is a row of whole frames and at
most one truncated one, and a collector recovers the frame of every `Send` that returned without an
error (`streams_framed`).

The octets of a frame reach the connection one at a time, with requests of other goroutines in
between, and the connection can fail in front of each. A failed dial, the backoff and the bound on
concurrent dials only delay the loop.
-/

namespace Nl6

open Numeral Delimited Program

/-- What the goroutines of a transport share. -/
inductive TransportOp where
  /-- `t.conn.Load()`. -/
  | load
  | lock
  | unlock
  /-- One octet of a `Write` on a connection. -/
  | push (cp : Nat) (octet : UInt8)
  /-- `t.conn.CompareAndSwap(cp, nil)`. -/
  | compareAndSwap (cp : Nat)
  | close (cp : Nat)
  /-- `dialOnce` with the `t.conn.Store` that follows a success. -/
  | connect
  /-- Read from a connection until it breaks. -/
  | read (cp : Nat)
  /-- `t.closing.Load() || t.ctx.Err() != nil`. -/
  | closing
  /-- `t.closing.Store(true)` and `t.cancel()`. -/
  | shutdown
  /-- `t.conn.Swap(nil)`. -/
  | swap
  deriving DecidableEq

@[reducible] def TransportOp.Reply : TransportOp → Type
  | .load | .connect | .swap => Option Nat
  | .push _ _ | .compareAndSwap _ | .closing => Bool
  | .lock | .unlock | .close _ | .read _ | .shutdown => Unit

def transportRequests : Requests := ⟨TransportOp, TransportOp.Reply⟩

inductive SendError where
  | notConnected
  | write
  deriving DecidableEq, Repr

abbrev Transporting (α : Type) : Type := Program transportRequests α

namespace Transporting

def request (op : TransportOp) : Transporting op.Reply := perform (ι := transportRequests) op

/-- `c.Write`: whether all octets were taken. -/
def write (cp : Nat) : Bytes → Transporting Bool
  | [] => return true
  | octet :: rest => do
      let taken ← request (.push cp octet)
      if taken then write cp rest else return false

def send (framing : SyslogFraming) (pdu : Bytes) : Transporting (Option SendError) := do
  match ← request .load with
  | none => return some .notConnected
  | some cp =>
    request .lock
    let written ← write cp (frame framing pdu)
    request .unlock
    if written then return none
    else
      -- A half-written frame has desynchronised the stream.
      let swapped ← request (.compareAndSwap cp)
      if swapped then
        request (.close cp)
        return some .write
      else return some .write

/-- One turn of the loop of `tcpTransport.run`. -/
def runTurn : Transporting (Option SendError) := do
  let closing ← request .closing
  if closing then return none
  else
    match ← request .connect with
    | none => return none
    | some cp =>
      request (.read cp)
      let _ ← request (.compareAndSwap cp)
      request (.close cp)
      return none

def close : Transporting (Option SendError) := do
  request .shutdown
  match ← request .swap with
  | none => return none
  | some cp =>
    request (.close cp)
    return none

end Transporting

/-! ### Goroutines -/

/-- A connection: the octets it took, and whether it is still open at this end. -/
structure Connection where
  stream : Bytes
  isOpen : Bool
  deriving DecidableEq, Repr

/-- The shared part of a `tcpTransport`. Connections are numbered as they were dialled. -/
structure TcpTransport where
  conn : Option Nat
  connections : List Connection
  writeMu : Bool
  isClosing : Bool

namespace TcpTransport

def initial : TcpTransport := ⟨none, [], false, false⟩

def streams (s : TcpTransport) : List Bytes := s.connections.map (·.stream)

def closeConnection (s : TcpTransport) (cp : Nat) : TcpTransport :=
  { s with connections := s.connections.modify cp fun c => { c with isOpen := false } }

/-- Serve a request. `well` decides whether a dial succeeds and whether an open connection takes an
octet. -/
def serve (s : TcpTransport) (op : TransportOp) (well : Bool) : Option (TcpTransport × op.Reply) :=
  match op with
  | .load => some (s, s.conn)
  | .lock => if s.writeMu then none else some ({ s with writeMu := true }, ())
  | .unlock => some ({ s with writeMu := false }, ())
  | .push cp octet =>
    match s.connections[cp]? with
    | none => none
    | some c =>
      if c.isOpen && well then
        let taken := { c with stream := c.stream ++ [octet] }
        some ({ s with connections := s.connections.set cp taken }, true)
      else some (s, false)
  | .compareAndSwap cp =>
    if s.conn = some cp then some ({ s with conn := none }, true) else some (s, false)
  | .close cp => some (s.closeConnection cp, ())
  | .connect =>
    if well then
      some ({ s with
        conn := some s.connections.length
        connections := s.connections ++ [⟨[], true⟩] }, some s.connections.length)
    else some (s, none)
  | .read _ => some (s, ())
  | .closing => some (s, s.isClosing)
  | .shutdown => some ({ s with isClosing := true }, ())
  | .swap => some ({ s with conn := none }, s.conn)

end TcpTransport

/-- Who runs in a goroutine. -/
inductive Caller where
  | send (pdu : Bytes)
  | run
  | close
  deriving DecidableEq, Repr

/-- What a `Send` has done so far: the frame it was given, the connection it chose, whether it is
inside of `writeMu`, and the octets that were taken. -/
structure Sending where
  text : Bytes
  conn : Option Nat
  holds : Bool
  written : Bytes
  deriving DecidableEq, Repr

/-- Before anything was done. -/
def Sending.start (text : Bytes) : Sending := ⟨text, none, false, []⟩

/-- Follows a `Send`. -/
def sendings : Monitor transportRequests Sending where
  permits s op :=
    match op with
    | .load | .lock => s.holds = false ∧ s.written = []
    | .push cp octet => s.holds = true ∧ s.conn = some cp ∧ s.written ++ [octet] <+: s.text
    | .unlock => s.holds = true
    | _ => True
  advance s op reply :=
    match op, reply with
    | .load, some cp => { s with conn := some cp }
    | .lock, _ => { s with holds := true }
    | .push _ octet, true => { s with written := s.written ++ [octet] }
    | .unlock, _ => { s with holds := false }
    | _, _ => s

abbrev TransportPool : Type :=
  Pool transportRequests Caller Sending (Option SendError) TcpTransport

/-- A message that one of the encoders has made. -/
inductive SyslogEncoded (pdu : Bytes) : Prop where
  | rfc5424 {msg : SyslogResolved} {now : UtcTime}
      (keys : ∀ kv ∈ msg.structuredData, IsSDName kv.1)
      (accepted : RFC5424Encoder.encode msg now = some pdu)
  | rfc3164 {msg : SyslogResolved} {now : UtcTime}
      (accepted : RFC3164Encoder.encode msg now = some pdu)

theorem SyslogEncoded.framable {pdu : Bytes} (encoded : SyslogEncoded pdu) : Framable pdu := by
  cases encoded with
  | rfc5424 keys accepted => exact RFC5424Encoder.framable keys accepted
  | rfc3164 accepted => exact RFC3164Encoder.framable accepted

/-- What can happen next. -/
inductive TransportAction where
  /-- `Send` is called. -/
  | send (pdu : Bytes) (encoded : SyslogEncoded pdu)
  /-- The loop begins a turn. -/
  | turn
  /-- `Close` is called. -/
  | close
  /-- A goroutine makes its next request. -/
  | advance (index : Nat) (well : Bool)
  /-- The watcher of the loop closes a connection after the transport was cancelled. -/
  | watch (cp : Nat)

namespace TransportPool

def initial : TransportPool := ⟨TcpTransport.initial, []⟩

def step (framing : SyslogFraming) (pool : TransportPool) : TransportAction → Option TransportPool
  | .send pdu _ =>
    some (pool.spawn (.send pdu) (.start (frame framing pdu)) (Transporting.send framing pdu))
  | .turn =>
    -- There is one loop, so a turn begins when the last one is over.
    if pool.threads.all fun t => t.tag ≠ .run || t.result.isSome then
      some (pool.spawn .run (.start []) Transporting.runTurn)
    else none
  | .close => some (pool.spawn .close (.start []) Transporting.close)
  | .advance index well => pool.advance sendings (fun s _ => s.serve) index well
  | .watch cp =>
    if pool.shared.isClosing then some { pool with shared := pool.shared.closeConnection cp }
    else none

/-- The messages `Send` was called with. -/
def sends (pool : TransportPool) : List Bytes :=
  pool.threads.filterMap fun t =>
    match t.tag with
    | .send pdu => some pdu
    | _ => none

/-- The messages of the `Send`s that chose a connection and returned nil. -/
def sent (pool : TransportPool) (cp : Nat) : List Bytes :=
  pool.threads.filterMap fun t =>
    match t.tag with
    | .send pdu => if t.seen.conn = some cp ∧ t.result = some none then some pdu else none
    | _ => none

/-- A `Send` puts the first octet of its frame on a connection whose stream ends inside of a
frame. -/
def startsInside (framing : SyslogFraming) (pool : TransportPool) : TransportAction → Bool
  | .advance index well =>
    match pool.threads[index]? with
    | some ⟨_, seen, .ask (.push cp _) _⟩ =>
      match pool.shared.connections[cp]? with
      | some c =>
        c.isOpen && well && seen.written = [] && (collect (unframe framing) c.stream).2 ≠ []
      | none => false
    | _ => false
  | _ => false

end TransportPool

/-! ### What a goroutine does -/

/-- A `Send` that returns nil has written its frame. -/
def SendReturns (s : Sending) (result : Option SendError) : Prop :=
  result = none → s.text ≠ [] → s.written = s.text ∧ s.conn ≠ none

namespace Transporting

theorem write_keeps {cp : Nat} {s : Sending} (holds : s.holds = true) (chosen : s.conn = some cp)
    {rest : Bytes} (split : s.written ++ rest = s.text) :
    Keeps sendings s (write cp rest) fun s' taken =>
      ∃ written, s' = { s with written := written } ∧ (taken = true → written = s.text) := by
  induction rest generalizing s with
  | nil => exact ⟨s.written, rfl, fun _ => (List.append_nil _).symm.trans split⟩
  | cons octet rest ih =>
    have further : (s.written ++ [octet]) ++ rest = s.text := by
      rw [List.append_assoc]
      exact split
    refine ⟨⟨holds, chosen, rest, further⟩, fun taken => ?_⟩
    cases taken with
    | false => exact ⟨s.written, rfl, nofun⟩
    | true => exact ih (s := { s with written := s.written ++ [octet] }) holds chosen further

theorem send_keeps (framing : SyslogFraming) (pdu : Bytes) :
    Keeps sendings (.start (frame framing pdu)) (send framing pdu) SendReturns := by
  refine ⟨⟨rfl, rfl⟩, fun chosen => ?_⟩
  cases chosen with
  | none => exact nofun
  | some cp =>
    refine ⟨⟨rfl, rfl⟩, fun _ => ?_⟩
    refine (write_keeps rfl rfl rfl).bind ?_
    rintro s taken ⟨written, rfl, whole⟩
    refine ⟨rfl, fun _ => ?_⟩
    cases taken with
    | true => exact fun _ _ => ⟨whole rfl, Option.some_ne_none cp⟩
    | false =>
      refine ⟨trivial, fun swapped => ?_⟩
      cases swapped with
      | true => exact ⟨trivial, fun _ => nofun⟩
      | false => exact nofun

theorem runTurn_keeps : Keeps sendings (.start []) runTurn SendReturns := by
  refine ⟨trivial, fun closing => ?_⟩
  cases closing with
  | true => exact fun _ some => absurd rfl some
  | false =>
    refine ⟨trivial, fun connected => ?_⟩
    cases connected with
    | none => exact fun _ some => absurd rfl some
    | some cp =>
      exact ⟨trivial, fun _ => ⟨trivial, fun _ => ⟨trivial, fun _ _ some => absurd rfl some⟩⟩⟩

theorem close_keeps : Keeps sendings (.start []) close SendReturns := by
  refine ⟨trivial, fun _ => ⟨trivial, fun swapped => ?_⟩⟩
  cases swapped with
  | none => exact fun _ some => absurd rfl some
  | some cp => exact ⟨trivial, fun _ _ some => absurd rfl some⟩

end Transporting

/-! ### What the streams hold -/

abbrev TransportThread : Type := Thread transportRequests Caller Sending (Option SendError)

/-- A `Send` has the frame of its message; the others have none. -/
def TransportThread.Labelled (framing : SyslogFraming) (t : TransportThread) : Prop :=
  match t.tag with
  | .send pdu => t.seen.text = frame framing pdu ∧ Framable pdu
  | .run | .close => t.seen.text = []

/-- A `Send` of a message whose whole frame a connection took. -/
def TransportThread.completed (cp : Nat) (pdu : Bytes) (t : TransportThread) : Bool :=
  t.tag = .send pdu && t.seen.conn = some cp && t.seen.written = t.seen.text

/-- A stream stands at whole frames of messages and a truncated frame: the whole frames are those of
the `Send`s that completed theirs, and a `Send` inside of its frame has written the truncated
one. -/
structure Stands (framing : SyslogFraming) (threads : List TransportThread) (cp : Nat)
    (stream : Bytes) (messages : List Bytes) (tail : Bytes) : Prop where
  shape : stream = messages.flatMap (frame framing) ++ tail
  cut : tail = [] ∨ ∃ pdu, (∃ t ∈ threads, t.tag = .send pdu) ∧
    ∃ n < (frame framing pdu).length, tail = (frame framing pdu).take n
  inside : ∀ t ∈ threads, t.seen.holds = true → t.seen.conn = some cp → t.seen.written ≠ [] →
    t.seen.written ≠ t.seen.text → t.seen.written = tail
  complete : ∀ pdu, threads.countP (TransportThread.completed cp pdu) = messages.count pdu

namespace Stands

variable {framing : SyslogFraming} {threads : List TransportThread} {cp : Nat} {stream : Bytes}
  {messages : List Bytes} {tail : Bytes} {back front : List TransportThread}
  {t t' : TransportThread}

theorem tag_of_mem (stands : Stands framing threads cp stream messages tail) {pdu : Bytes}
    (mem : pdu ∈ messages) : ∃ t ∈ threads, t.tag = .send pdu ∧ t.seen.conn = some cp := by
  have positive : 0 < threads.countP (TransportThread.completed cp pdu) := by
    rw [stands.complete]
    exact List.count_pos_iff.mpr mem
  obtain ⟨t, among, completed⟩ := List.countP_pos_iff.mp positive
  simp only [TransportThread.completed, Bool.and_eq_true, decide_eq_true_eq] at completed
  exact ⟨t, among, completed.1.1, completed.1.2⟩

/-- A collector recovers the whole frames. -/
theorem collect_eq (stands : Stands framing threads cp stream messages tail)
    (labelled : ∀ t ∈ threads, t.Labelled framing) :
    collect (unframe framing) stream = (messages, tail) := by
  have framable : ∀ {t : TransportThread} {pdu : Bytes}, t ∈ threads → t.tag = .send pdu →
      Framable pdu := by
    intro t pdu mem tag
    have label := labelled t mem
    rw [TransportThread.Labelled, tag] at label
    exact label.2
  have carried : ∀ pdu ∈ messages, CutsOff (unframe framing) (frame framing) pdu := by
    intro pdu mem
    obtain ⟨t, among, tag, -⟩ := stands.tag_of_mem mem
    exact cutsOff_frame framing (framable among tag)
  have stuck : unframe framing tail = none := by
    rcases stands.cut with rfl | ⟨pdu, ⟨t, among, tag⟩, n, short, rfl⟩
    · exact unframe_nil framing
    · exact unframe_cut framing (framable among tag) short
  rw [stands.shape]
  exact collect_flatMap carried stuck

/-- A goroutine that does not touch the stream goes on. -/
theorem exchange (stands : Stands framing (front ++ t :: back) cp stream messages tail)
    (tag : t'.tag = t.tag) (same : ∀ pdu, t'.completed cp pdu = t.completed cp pdu)
    (obliged : t'.seen.holds = true → t'.seen.conn = some cp → t'.seen.written ≠ [] →
      t'.seen.written ≠ t'.seen.text → t'.seen.written = tail) :
    Stands framing (front ++ t' :: back) cp stream messages tail where
  shape := stands.shape
  cut := by
    refine stands.cut.imp_right fun ⟨pdu, ⟨u, mem, sends⟩, truncated⟩ => ⟨pdu, ?_, truncated⟩
    rcases List.mem_append.mp mem with before | behind
    · exact ⟨u, List.mem_append_left _ before, sends⟩
    · rcases List.mem_cons.mp behind with rfl | after
      · exact ⟨t', List.mem_append_right _ List.mem_cons_self, tag.trans sends⟩
      · exact ⟨u, List.mem_append_right _ (List.mem_cons_of_mem _ after), sends⟩
  inside := Pool.forall_mem_exchange stands.inside obliged
  complete pdu := by
    have counts := Pool.countP_exchange (TransportThread.completed cp pdu) front back t t'
    rw [same, stands.complete] at counts
    exact Nat.add_right_cancel counts

theorem spawn (stands : Stands framing threads cp stream messages tail)
    (idle : t.seen.holds = false) (unchosen : t.seen.conn = none) :
    Stands framing (threads ++ [t]) cp stream messages tail where
  shape := stands.shape
  cut := stands.cut.imp_right fun ⟨pdu, ⟨u, mem, sends⟩, truncated⟩ =>
    ⟨pdu, ⟨u, List.mem_append_left _ mem, sends⟩, truncated⟩
  inside u mem holds := by
    rcases List.mem_append.mp mem with old | new
    · exact stands.inside u old holds
    · rw [List.mem_singleton.mp new, idle] at holds
      exact nomatch holds
  complete pdu := by
    rw [List.countP_append, stands.complete, List.countP_singleton, if_neg, Nat.add_zero]
    simp [TransportThread.completed, unchosen]

theorem fresh (unchosen : ∀ t ∈ threads, t.seen.conn ≠ some cp) :
    Stands framing threads cp [] [] [] where
  shape := rfl
  cut := .inl rfl
  inside t mem _ chosen := absurd chosen (unchosen t mem)
  complete pdu := by
    rw [List.count_nil, List.countP_eq_zero]
    intro t mem completed
    simp only [TransportThread.completed, Bool.and_eq_true, decide_eq_true_eq] at completed
    exact unchosen t mem completed.1.2

theorem push {pdu : Bytes} {octet : UInt8}
    (stands : Stands framing (front ++ t :: back) cp stream messages tail)
    (alone : ∀ u ∈ front ++ back, u.seen.holds = false) (isSend : t.tag = .send pdu)
    (text : t.seen.text = frame framing pdu) (chosen : t.seen.conn = some cp)
    (at_tail : t.seen.written = tail) (more : t.seen.written ++ [octet] <+: t.seen.text)
    (tag : t'.tag = t.tag) (seen : t'.seen = { t.seen with written := t.seen.written ++ [octet] }) :
    ∃ messages tail, Stands framing (front ++ t' :: back) cp (stream ++ [octet]) messages tail := by
  have unfinished : t.seen.written ≠ t.seen.text := by
    intro whole
    have := more.length_le
    rw [whole, List.length_append, List.length_singleton] at this
    omega
  have before : ∀ other, t.completed cp other = false := by
    intro other
    simp [TransportThread.completed, unfinished]
  have there : ∃ u ∈ front ++ t' :: back, u.tag = .send pdu :=
    ⟨t', List.mem_append_right _ List.mem_cons_self, tag.trans isSend⟩
  have othersIdle : ∀ u ∈ front ++ t' :: back, u.seen.holds = true → u = t' := by
    intro u mem holds
    rcases List.mem_append.mp mem with first | behind
    · rw [alone u (List.mem_append_left _ first)] at holds
      exact nomatch holds
    · rcases List.mem_cons.mp behind with rfl | last
      · rfl
      · rw [alone u (List.mem_append_right _ last)] at holds
        exact nomatch holds
  have written' : t'.seen.written = t.seen.written ++ [octet] := by rw [seen]
  have text' : t'.seen.text = frame framing pdu := by rw [seen]; exact text
  have chosen' : t'.seen.conn = some cp := by rw [seen]; exact chosen
  have counts := fun other =>
    Pool.countP_exchange (TransportThread.completed cp other) front back t t'
  simp only [before, Bool.false_eq_true, ↓reduceIte, Nat.add_zero] at counts
  by_cases whole : t.seen.written ++ [octet] = t.seen.text
  · -- The frame is complete: its message joins the others.
    refine ⟨messages ++ [pdu], [], ?_, .inl rfl, ?_, fun other => ?_⟩
    · rw [stands.shape, ← at_tail, List.append_assoc, whole, text]
      simp
    · intro u mem holds _ _ incomplete
      obtain rfl := othersIdle u mem holds
      exact absurd (written'.trans (whole.trans (text.trans text'.symm))) incomplete
    · have completes : t'.completed cp other = decide (pdu = other) := by
        simp [TransportThread.completed, tag, isSend, chosen', written', text', whole, text]
      rw [counts, stands.complete, completes, List.count_append, List.count_singleton]
      simp [beq_eq_decide]
  · -- The frame is still truncated.
    have short : (t.seen.written ++ [octet]).length < (frame framing pdu).length := by
      rw [← text]
      exact lt_of_le_of_ne more.length_le fun same => whole (more.eq_of_length same)
    refine ⟨messages, t.seen.written ++ [octet], ?_, .inr ⟨pdu, there, _, short, ?_⟩, ?_,
      fun other => ?_⟩
    · rw [stands.shape, ← at_tail, List.append_assoc]
    · rw [← text]
      exact List.prefix_iff_eq_take.mp more
    · intro u mem holds _ _ _
      obtain rfl := othersIdle u mem holds
      exact written'
    · have incomplete : t'.completed cp other = false := by
        simp [TransportThread.completed, written', text', ← text, whole]
      rw [counts, stands.complete, incomplete]
      rfl

end Stands

/-! ### Every run -/

namespace TransportPool

/-- What holds of the goroutines, the mutex and the streams between any two requests. -/
structure Sound (framing : SyslogFraming) (pool : TransportPool) : Prop where
  follows : pool.Follows sendings SendReturns
  labelled : ∀ t ∈ pool.threads, TransportThread.Labelled framing t
  holders : pool.threads.countP (·.seen.holds) = if pool.shared.writeMu then 1 else 0
  chosen : ∀ t ∈ pool.threads, ∀ cp, t.seen.conn = some cp → cp < pool.shared.streams.length
  current : ∀ cp, pool.shared.conn = some cp → cp < pool.shared.streams.length
  streams : ∀ cp stream, pool.shared.streams[cp]? = some stream →
    ∃ messages tail, Stands framing pool.threads cp stream messages tail

variable {framing : SyslogFraming} {pool next : TransportPool}

theorem sound_initial : Sound framing initial where
  follows _ mem := absurd mem List.not_mem_nil
  labelled _ mem := absurd mem List.not_mem_nil
  holders := rfl
  chosen _ mem := absurd mem List.not_mem_nil
  current _ chosen := nomatch chosen
  streams _ _ found := nomatch found

theorem Sound.spawn (sound : Sound framing pool) {tag : Caller} {text : Bytes}
    {program : Transporting (Option SendError)}
    (keeps : Keeps sendings (.start text) program SendReturns)
    (label : TransportThread.Labelled framing ⟨tag, .start text, program⟩) :
    Sound framing (pool.spawn tag (.start text) program) where
  follows := sound.follows.spawn keeps
  labelled t mem := by
    rcases List.mem_append.mp mem with old | new
    · exact sound.labelled t old
    · rw [List.mem_singleton.mp new]
      exact label
  holders := by
    rw [Pool.spawn, List.countP_append, sound.holders]
    rfl
  chosen t mem cp chosen := by
    rcases List.mem_append.mp mem with old | new
    · exact sound.chosen t old cp chosen
    · rw [List.mem_singleton.mp new] at chosen
      exact nomatch chosen
  current := sound.current
  streams cp stream found := by
    obtain ⟨messages, tail, stands⟩ := sound.streams cp stream found
    exact ⟨messages, tail, stands.spawn rfl rfl⟩

theorem streams_closeConnection (s : TcpTransport) (cp : Nat) :
    (s.closeConnection cp).streams = s.streams := by
  refine List.ext_getElem? fun i => ?_
  simp only [TcpTransport.streams, TcpTransport.closeConnection, List.getElem?_map,
    List.getElem?_modify]
  cases s.connections[i]? with
  | none => rfl
  | some c => by_cases same : cp = i <;> simp [same]

theorem Sound.closeConnection (sound : Sound framing pool) (cp : Nat) :
    Sound framing { pool with shared := pool.shared.closeConnection cp } where
  follows := sound.follows
  labelled := sound.labelled
  holders := sound.holders
  chosen := (streams_closeConnection pool.shared cp).symm ▸ sound.chosen
  current := (streams_closeConnection pool.shared cp).symm ▸ sound.current
  streams := (streams_closeConnection pool.shared cp).symm ▸ sound.streams

section Exchange

variable {shared shared' : TcpTransport} {front back : List TransportThread}
  {t t' : TransportThread}

/-- A goroutine goes on without touching a stream: it may choose a connection before it has written
anything, and enter or leave the mutex. -/
theorem Sound.exchange (sound : Sound framing ⟨shared, front ++ t :: back⟩)
    (follows : Pool.Follows sendings SendReturns (⟨shared', front ++ t' :: back⟩ : TransportPool))
    (tag : t'.tag = t.tag) (text : t'.seen.text = t.seen.text)
    (streams : shared'.streams = shared.streams)
    (current : ∀ cp, shared'.conn = some cp → shared.conn = some cp)
    (holders : (front ++ t' :: back).countP (·.seen.holds) = if shared'.writeMu then 1 else 0)
    (chosen : ∀ cp, t'.seen.conn = some cp → cp < shared.streams.length)
    (written : (t'.seen.written = [] ∧ t.seen.written = []) ∨
      (t'.seen.written = t.seen.written ∧ t'.seen.conn = t.seen.conn ∧
        (t'.seen.holds = true → t.seen.holds = true))) :
    Sound framing ⟨shared', front ++ t' :: back⟩ where
  follows := follows
  labelled := by
    refine Pool.forall_mem_exchange sound.labelled ?_
    have label := sound.labelled t (by simp)
    rwa [TransportThread.Labelled, tag, text]
  holders := holders
  chosen := by
    rw [streams]
    exact Pool.forall_mem_exchange sound.chosen chosen
  current cp choice := streams ▸ sound.current cp (current cp choice)
  streams cp stream found := by
    obtain ⟨messages, tail, stands⟩ := sound.streams cp stream (streams ▸ found)
    have mem : t ∈ front ++ t :: back := by simp
    refine ⟨messages, tail, stands.exchange tag (fun pdu => ?_) ?_⟩
    · rcases written with ⟨none', none⟩ | ⟨same, sameConn, -⟩
      · -- Nothing was written, and a frame is not empty.
        by_cases isSend : t.tag = .send pdu
        · have label := sound.labelled t mem
          rw [TransportThread.Labelled, isSend] at label
          have nonempty : [] ≠ t.seen.text := by
            rw [label.1]
            exact (frame_ne_nil framing pdu).symm
          simp [TransportThread.completed, text, none', none, nonempty]
        · simp [TransportThread.completed, tag, isSend]
      · simp only [TransportThread.completed, tag, text, same, sameConn]
    · intro holds choice some unfinished
      rcases written with ⟨none', -⟩ | ⟨same, sameConn, sameHolds⟩
      · exact absurd none' some
      · rw [same, text] at unfinished
        rw [same] at some ⊢
        exact stands.inside t mem (sameHolds holds) (sameConn ▸ choice) some unfinished

theorem Sound.alone (sound : Sound framing ⟨shared, front ++ t :: back⟩)
    (holds : t.seen.holds = true) :
    shared.writeMu = true ∧ ∀ u ∈ front ++ back, u.seen.holds = false := by
  have count : (front ++ t :: back).countP (·.seen.holds) = if shared.writeMu then 1 else 0 :=
    sound.holders
  simp only [List.countP_append, List.countP_cons, holds, ↓reduceIte] at count
  have locked : shared.writeMu = true := by
    by_contra free
    rw [if_neg free] at count
    omega
  rw [if_pos locked] at count
  have none : (front ++ back).countP (·.seen.holds) = 0 := by
    rw [List.countP_append]
    omega
  refine ⟨locked, fun u mem => ?_⟩
  have := List.countP_eq_zero.mp none u mem
  simpa using this

theorem Sound.push (sound : Sound framing ⟨shared, front ++ t :: back⟩) {cp : Nat} {octet : UInt8}
    {stream : Bytes}
    (follows : Pool.Follows sendings SendReturns (⟨shared', front ++ t' :: back⟩ : TransportPool))
    (permitted : sendings.permits t.seen (.push cp octet))
    (found : shared.streams[cp]? = some stream)
    (boundary : t.seen.written = [] → (collect (unframe framing) stream).2 = [])
    (tag : t'.tag = t.tag)
    (seen : t'.seen = { t.seen with written := t.seen.written ++ [octet] })
    (streams : shared'.streams = shared.streams.set cp (stream ++ [octet]))
    (current : shared'.conn = shared.conn) (mutex : shared'.writeMu = shared.writeMu) :
    Sound framing ⟨shared', front ++ t' :: back⟩ := by
  obtain ⟨holds, choice, more⟩ := permitted
  have mem : t ∈ front ++ t :: back := by simp
  have label := sound.labelled t mem
  have length : shared'.streams.length = shared.streams.length := by
    rw [streams, List.length_set]
  obtain ⟨pdu, isSend, text⟩ : ∃ pdu, t.tag = .send pdu ∧ t.seen.text = frame framing pdu := by
    rw [TransportThread.Labelled] at label
    split at label
    · next pdu isSend => exact ⟨pdu, isSend, label.1⟩
    all_goals
      rw [label] at more
      exact absurd (List.prefix_nil.mp more) (by simp)
  refine ⟨follows, ?_, ?_, ?_, ?_, ?_⟩
  · refine Pool.forall_mem_exchange sound.labelled ?_
    rwa [TransportThread.Labelled, tag, seen]
  · have counts := Pool.countP_exchange (·.seen.holds) front back t t'
    have same : t'.seen.holds = t.seen.holds := by rw [seen]
    rw [same] at counts
    rw [mutex]
    exact (Nat.add_right_cancel counts).trans sound.holders
  · rw [length]
    refine Pool.forall_mem_exchange sound.chosen fun cp' choice' => ?_
    rw [seen] at choice'
    exact sound.chosen t mem cp' choice'
  · rw [length, current]
    exact sound.current
  · intro cp' stream' found'
    rw [streams] at found'
    by_cases here : cp = cp'
    · subst here
      have below := (List.getElem?_eq_some_iff.mp found).1
      rw [List.getElem?_set_self below] at found'
      cases found'
      obtain ⟨messages, tail, stands⟩ := sound.streams cp stream found
      have atTail : t.seen.written = tail := by
        by_cases first : t.seen.written = []
        · have left := boundary first
          rw [stands.collect_eq sound.labelled] at left
          exact first.trans left.symm
        · refine stands.inside t mem holds choice first fun whole => ?_
          have := more.length_le
          rw [whole, List.length_append, List.length_singleton] at this
          omega
      exact stands.push (sound.alone holds).2 isSend text choice atTail more tag seen
    · rw [List.getElem?_set_ne here] at found'
      obtain ⟨messages, tail, stands⟩ := sound.streams cp' stream' found'
      have other : t.seen.conn ≠ some cp' := by
        rw [choice]
        exact fun same => here (Option.some.inj same)
      have other' : t'.seen.conn ≠ some cp' := by
        rw [seen]
        exact other
      refine ⟨messages, tail, stands.exchange tag (fun pdu => ?_) fun _ elsewhere => ?_⟩
      · simp [TransportThread.completed, other, other']
      · exact absurd elsewhere other'

end Exchange

theorem Sound.connect {shared : TcpTransport} {threads : List TransportThread}
    (sound : Sound framing ⟨shared, threads⟩) :
    Sound framing ⟨{ shared with
      conn := some shared.connections.length
      connections := shared.connections ++ [⟨[], true⟩] }, threads⟩ := by
  have streams : ({ shared with
      conn := some shared.connections.length
      connections := shared.connections ++ [⟨[], true⟩] } : TcpTransport).streams =
      shared.streams ++ [[]] := by
    simp [TcpTransport.streams]
  have count : shared.streams.length = shared.connections.length := List.length_map _
  refine ⟨sound.follows, sound.labelled, sound.holders, fun t mem cp choice => ?_,
    fun cp choice => ?_, fun cp stream found => ?_⟩
  · have := sound.chosen t mem cp choice
    rw [streams, List.length_append]
    exact Nat.lt_add_right _ this
  · cases choice
    rw [streams, List.length_append, count]
    exact Nat.lt_succ_self _
  · rw [streams] at found
    by_cases old : cp < shared.streams.length
    · rw [List.getElem?_append_left old] at found
      exact sound.streams cp stream found
    · rw [List.getElem?_append_right (by omega)] at found
      obtain ⟨_, empty⟩ := List.mem_singleton.mp (List.mem_of_getElem? found)
      exact ⟨[], [], .fresh fun t mem choice => old (sound.chosen t mem cp choice)⟩

/-- **A request keeps the invariant**, if it does not start a frame inside of another one. -/
theorem Sound.advance (sound : Sound framing pool) {index : Nat} {well : Bool}
    (boundary : startsInside framing pool (.advance index well) = false)
    (advances : pool.advance sendings (fun s _ => s.serve) index well = some next) :
    Sound framing next := by
  have follows := sound.follows.advance advances
  obtain ⟨front, t, back, op, resume, after, reply, threads, position, asks, served, rfl⟩ :=
    Pool.advance_cases advances
  obtain ⟨shared, _⟩ := pool
  obtain rfl : _ = front ++ t :: back := threads
  have mem : t ∈ front ++ t :: back := by simp
  have permitted : sendings.permits t.seen op := by
    have keeps := sound.follows t mem
    rw [asks] at keeps
    exact keeps.1
  have chosen : ∀ cp, t.seen.conn = some cp → cp < shared.streams.length := sound.chosen t mem
  have holders : (front ++ t :: back).countP (·.seen.holds) = if shared.writeMu then 1 else 0 :=
    sound.holders
  have counts := Pool.countP_exchange (·.seen.holds) front back t
    ⟨t.tag, sendings.advance t.seen op reply, resume reply⟩
  rw [holders] at counts
  -- Most requests change neither a stream nor what the monitor has seen.
  have quiet {after : TcpTransport} (same : sendings.advance t.seen op reply = t.seen)
      (streams : after.streams = shared.streams)
      (current : ∀ cp, after.conn = some cp → shared.conn = some cp)
      (mutex : after.writeMu = shared.writeMu) : Sound framing
        ⟨after, front ++ ⟨t.tag, sendings.advance t.seen op reply, resume reply⟩ :: back⟩ := by
    rw [same] at counts
    refine sound.exchange (fun u => follows u) rfl (congrArg Sending.text same) streams current ?_ ?_
      (.inr ⟨congrArg Sending.written same, congrArg Sending.conn same, ?_⟩) <;> rw [same]
    · exact mutex ▸ Nat.add_right_cancel counts
    · exact chosen
    · exact id
  cases op with
  | load =>
    cases served
    obtain ⟨outside, nothing⟩ := permitted
    cases current : shared.conn with
    | none => exact current ▸ quiet (by rw [current]; rfl) rfl (fun _ => id) rfl
    | some cp =>
      rw [current] at counts follows
      refine sound.exchange follows rfl rfl rfl (fun _ => id) (Nat.add_right_cancel counts) ?_
        (.inl ⟨nothing, nothing⟩)
      exact fun cp' choice => sound.current cp' (current.trans choice)
  | lock =>
    simp only [TcpTransport.serve] at served
    split at served
    · exact nomatch served
    · next free =>
        cases served
        obtain ⟨outside, nothing⟩ := permitted
        refine sound.exchange follows rfl rfl rfl (fun _ => id) ?_ chosen (.inl ⟨nothing, nothing⟩)
        rw [if_neg free, outside] at counts
        exact counts
  | unlock =>
    cases served
    refine sound.exchange follows rfl rfl rfl (fun _ => id) ?_ chosen
      (.inr ⟨rfl, rfl, fun _ => permitted⟩)
    have inside : t.seen.holds = true := permitted
    rw [if_pos (sound.alone permitted).1, inside] at counts
    exact Nat.succ.inj counts
  | push cp octet =>
    simp only [TcpTransport.serve] at served
    split at served
    · exact nomatch served
    · next c found =>
        split at served
        · next takes =>
            cases served
            obtain ⟨isOpen, rfl⟩ := Bool.and_eq_true_iff.mp takes
            have here : (front ++ t :: back)[index]? = some t := by simp [← position]
            obtain ⟨label, sending, rest⟩ := t
            obtain rfl : rest = _ := asks
            simp only [startsInside, here, found, isOpen, Bool.and_true, Bool.true_and,
              Bool.and_eq_false_iff, decide_eq_false_iff_not, not_not] at boundary
            have outside : sending.written = [] → (collect (unframe framing) c.stream).2 = [] :=
              fun first => boundary.resolve_left (absurd first)
            have stream : shared.streams[cp]? = some c.stream := by
              rw [TcpTransport.streams, List.getElem?_map, found]
              rfl
            refine sound.push follows permitted stream outside rfl rfl ?_ rfl rfl
            simp [TcpTransport.streams, List.map_set]
        · cases served
          exact quiet rfl rfl (fun _ => id) rfl
  | compareAndSwap cp =>
    simp only [TcpTransport.serve] at served
    split at served <;> cases served
    · exact quiet rfl rfl (fun _ => nofun) rfl
    · exact quiet rfl rfl (fun _ => id) rfl
  | close cp =>
    cases served
    exact quiet rfl (streams_closeConnection shared cp) (fun _ => id) rfl
  | connect =>
    simp only [TcpTransport.serve] at served
    split at served <;> cases served
    · exact (@quiet shared rfl rfl (fun _ => id) rfl).connect
    · exact quiet rfl rfl (fun _ => id) rfl
  | read | closing | shutdown =>
    cases served
    exact quiet rfl rfl (fun _ => id) rfl
  | swap =>
    cases served
    exact quiet rfl rfl (fun _ => nofun) rfl

theorem Sound.step (sound : Sound framing pool) {action : TransportAction}
    (boundary : startsInside framing pool action = false)
    (steps : step framing pool action = some next) : Sound framing next := by
  cases action with
  | send pdu encoded =>
    cases steps
    exact sound.spawn (Transporting.send_keeps framing pdu) ⟨rfl, encoded.framable⟩
  | turn =>
    simp only [TransportPool.step] at steps
    split at steps
    · cases steps
      exact sound.spawn Transporting.runTurn_keeps rfl
    · exact nomatch steps
  | close =>
    cases steps
    exact sound.spawn Transporting.close_keeps rfl
  | advance index well => exact sound.advance boundary steps
  | watch cp =>
    simp only [TransportPool.step] at steps
    split at steps
    · cases steps
      exact sound.closeConnection cp
    · exact nomatch steps

/-- Every `Send` that returned nil has written its frame. -/
theorem Sound.completed_of_sent (sound : Sound framing pool) {t : TransportThread} {pdu : Bytes}
    (mem : t ∈ pool.threads) (tag : t.tag = .send pdu) (returned : t.result = some none) :
    ∃ cp, t.seen.conn = some cp ∧ t.completed cp pdu = true := by
  have keeps := sound.follows t mem
  have label := sound.labelled t mem
  rw [TransportThread.Labelled, tag] at label
  rw [Thread.result] at returned
  split at returned
  · next result ends =>
      cases returned
      rw [ends] at keeps
      have some' : t.seen.text ≠ [] := by
        rw [label.1]
        exact frame_ne_nil framing pdu
      obtain ⟨whole, chosen⟩ := keeps rfl some'
      obtain ⟨cp, chosen⟩ := Option.ne_none_iff_exists'.mp chosen
      exact ⟨cp, chosen, by simp [TransportThread.completed, tag, chosen, whole]⟩
  · exact nomatch returned

/-- The messages sent on a connection are among the recovered ones, as often as they were sent. -/
theorem Sound.sent_subperm (sound : Sound framing pool) {cp : Nat} {stream : Bytes}
    {messages : List Bytes} {tail : Bytes}
    (stands : Stands framing pool.threads cp stream messages tail) :
    (pool.sent cp).Subperm messages := by
  refine List.subperm_ext_iff.mpr fun pdu _ => ?_
  rw [← stands.complete, sent, List.count_filterMap]
  refine List.countP_mono_left fun t mem among => ?_
  have found := eq_of_beq among
  split at found
  · next other tag =>
      split at found
      · next returned =>
          cases found
          obtain ⟨cp', chosen, completed⟩ := sound.completed_of_sent mem tag returned.2
          obtain rfl : cp = cp' := Option.some.inj (returned.1.symm.trans chosen)
          exact completed
      · exact nomatch found
  · exact nomatch found

/-- **The streams stay framed.** In every run in which no `Send` starts its frame on a connection
whose stream ends inside of another one, the octets on each connection are whole frames and at most
one truncated frame of messages that were sent, a collector recovers the whole ones, and the
messages of the `Send`s that returned nil are among them. -/
theorem streams_framed (framing : SyslogFraming) {actions : List TransportAction}
    {last : TransportPool} (runs : Runs.run (step framing) initial actions = some last)
    (aligned : Runs.Along (step framing)
      (fun pool action => startsInside framing pool action = false) initial actions) :
    (∀ cp c, last.shared.connections[cp]? = some c →
      ∃ messages tail, c.stream = messages.flatMap (frame framing) ++ tail ∧
        (∀ pdu ∈ messages, pdu ∈ last.sends) ∧
        (tail = [] ∨ ∃ pdu ∈ last.sends, ∃ n < (frame framing pdu).length,
          tail = (frame framing pdu).take n) ∧
        collect (unframe framing) c.stream = (messages, tail) ∧
        (last.sent cp).Subperm messages) ∧
    ∀ t ∈ last.threads, ∀ pdu, t.tag = .send pdu → t.result = some none →
      ∃ cp c, last.shared.connections[cp]? = some c ∧ pdu ∈ last.sent cp := by
  have sound : Sound framing last :=
    Runs.invariant (fun _ _ _ sound boundary steps => sound.step boundary steps) sound_initial
      aligned runs
  have sends : ∀ pdu, (∃ t ∈ last.threads, t.tag = .send pdu) → pdu ∈ last.sends := by
    rintro pdu ⟨t, mem, tag⟩
    exact List.mem_filterMap.mpr ⟨t, mem, by rw [tag]⟩
  refine ⟨fun cp c found => ?_, fun t mem pdu tag returned => ?_⟩
  · have stream : last.shared.streams[cp]? = some c.stream := by
      rw [TcpTransport.streams, List.getElem?_map, found]
      rfl
    obtain ⟨messages, tail, stands⟩ := sound.streams cp c.stream stream
    refine ⟨messages, tail, stands.shape, fun pdu mem => ?_, ?_, stands.collect_eq sound.labelled,
      sound.sent_subperm stands⟩
    · obtain ⟨t, among, tag, -⟩ := stands.tag_of_mem mem
      exact sends pdu ⟨t, among, tag⟩
    · exact stands.cut.imp_right fun ⟨pdu, sent, truncated⟩ => ⟨pdu, sends pdu sent, truncated⟩
  · obtain ⟨cp, chosen, -⟩ := sound.completed_of_sent mem tag returned
    have below := sound.chosen t mem cp chosen
    rw [TcpTransport.streams, List.length_map] at below
    refine ⟨cp, _, List.getElem?_eq_getElem below, List.mem_filterMap.mpr ⟨t, mem, ?_⟩⟩
    rw [tag]
    exact if_pos ⟨chosen, returned⟩

/-- A short entry in the old format. -/
def bareEntry : SyslogResolved where
  facility := 0
  severity := 0
  appName := ascii "a"
  msgID := []
  hostname := ascii "h"
  structuredData := []
  message := []

theorem bareEntry_encoded : SyslogEncoded (write3164 bareEntry newYear) :=
  @SyslogEncoded.rfc3164 _ bareEntry newYear (by decide +kernel)

/-- Two calls of `Send` on one connection. Both choose it, and the first one stops short. -/
def stopsShort : List TransportAction :=
  [.turn, .advance 0 true, .advance 0 true, .send _ bareEntry_encoded, .send _ bareEntry_encoded,
    .advance 1 true, .advance 2 true, .advance 1 true, .advance 1 true, .advance 1 false,
    .advance 1 true]

/-- The first `Send` retires the connection, the loop dials again, and a third `Send` succeeds. -/
def dialsAgain : List TransportAction :=
  [.advance 1 true, .advance 1 true, .advance 0 true, .advance 0 true, .advance 0 true, .turn,
    .advance 3 true, .advance 3 true, .send _ bareEntry_encoded] ++
      List.replicate 29 (.advance 4 true)

theorem streams_framed_dialsAgain :
    ∃ last c, Runs.run (step .octetCounting) initial (stopsShort ++ dialsAgain) = some last ∧
      last.shared.connections[1]? = some c ∧
      write3164 bareEntry newYear ∈ (collect (unframe .octetCounting) c.stream).1 := by
  have aligned : Runs.Along (step .octetCounting)
      (fun pool action => startsInside .octetCounting pool action = false) initial
      (stopsShort ++ dialsAgain) := by
    decide +kernel
  have reached : (match Runs.run (step .octetCounting) initial (stopsShort ++ dialsAgain) with
      | some last => last.shared.connections[1]?.isSome &&
          decide (write3164 bareEntry newYear ∈ last.sent 1)
      | none => false) = true := by
    decide +kernel
  split at reached
  · next last runs =>
      obtain ⟨dialled, sent⟩ := Bool.and_eq_true_iff.mp reached
      obtain ⟨c, found⟩ := Option.isSome_iff_exists.mp dialled
      obtain ⟨messages, tail, -, -, -, recovered, among⟩ :=
        (streams_framed .octetCounting runs aligned).1 1 c found
      refine ⟨last, c, runs, found, ?_⟩
      rw [recovered]
      exact among.subset (of_decide_eq_true sent)
  · exact nomatch reached

/-- The second `Send` gets the mutex before the first one has retired the connection. It writes its
whole frame behind the truncated one and returns nil, and a collector never finds it. -/
theorem frame_behind_truncated :
    ∃ last, Runs.run (step .octetCounting) initial
        (stopsShort ++ List.replicate 28 (.advance 2 true)) = some last ∧
      let pdu := write3164 bareEntry newYear
      let stream := (frame .octetCounting pdu).take 1 ++ frame .octetCounting pdu
      last.shared.streams = [stream] ∧ last.sent 0 = [pdu] ∧
        (collect (unframe .octetCounting) stream).1 = [] := by
  have reached : (match Runs.run (step .octetCounting) initial
        (stopsShort ++ List.replicate 28 (.advance 2 true)) with
      | some last =>
        let pdu := write3164 bareEntry newYear
        let stream := (frame .octetCounting pdu).take 1 ++ frame .octetCounting pdu
        decide (last.shared.streams = [stream] ∧ last.sent 0 = [pdu] ∧
          (collect (unframe .octetCounting) stream).1 = [])
      | none => false) = true := by
    decide +kernel
  split at reached
  · next last runs => exact ⟨last, runs, of_decide_eq_true reached⟩
  · exact nomatch reached

end TransportPool

end Nl6
