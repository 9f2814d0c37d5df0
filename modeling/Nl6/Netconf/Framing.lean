import Nl6.Lib.Delimited
import Nl6.Lib.Numeral

/-! # NETCONF framing

`netconf_framing.go`: messages on a byte stream, either followed by an end-of-message marker or cut
into chunks that are announced by their size. Both readers are loops over the stream; a reading
also says how long the buffer became in which the message is put together.
-/

namespace Nl6

open Numeral Delimited

def netconfMaxMessageBytes : Nat := 1 <<< 20

def netconfEOM : Bytes := ascii "]]>]]>"

def newline : UInt8 := 10

def numberSign : UInt8 := 35

inductive NetconfError
  | eof
  | unexpectedEOF
  | messageSize
  | badChunkHeader
  | badEndOfChunks
  | chunkSizeTooLong
  | badChunkSize
  deriving DecidableEq, Repr

/-- What a call returns, what it leaves of the stream, and the length its buffer grew to. -/
structure NetconfReading where
  result : Except NetconfError Bytes
  rest : Bytes
  peak : Nat

/-- `readEOM`, with the octets it has read. -/
def readEOM (msg : Bytes) : Bytes → NetconfReading
  | [] => ⟨.error .eof, [], msg.length⟩
  | b :: rest =>
    let msg := msg ++ [b]
    if b = 62 ∧ netconfEOM <:+ msg then
      let message := msg.take (msg.length - netconfEOM.length)
      if message.length > netconfMaxMessageBytes then ⟨.error .messageSize, rest, msg.length⟩
      else ⟨.ok message, rest, msg.length⟩
    else if msg.length > netconfMaxMessageBytes + netconfEOM.length then
      ⟨.error .messageSize, rest, msg.length⟩
    else readEOM msg rest

/-- The checks on the digits of a chunk size, the last one by `strconv.ParseUint`. -/
def chunkSize (digits : Bytes) : Except NetconfError Nat :=
  if digits.headD 0 < 49 ∨ digits.headD 0 > 57 then .error .badChunkSize
  else if digits.all isDigit = false then .error .badChunkSize
  else if readDigits digits ≥ 2 ^ 32 then .error .badChunkSize
  else .ok (readDigits digits)

/-- The inner loop of `readChunked`: the size and what stands behind its line. -/
def readChunkSize (digits : Bytes) : Bytes → Except NetconfError Nat × Bytes
  | [] => (.error .eof, [])
  | b :: rest =>
    if b = newline then (chunkSize digits, rest)
    else if (digits ++ [b]).length > 10 then (.error .chunkSizeTooLong, rest)
    else readChunkSize (digits ++ [b]) rest

theorem length_readChunkSize (digits stream : Bytes) :
    (readChunkSize digits stream).2.length ≤ stream.length := by
  induction stream generalizing digits with
  | nil => exact le_rfl
  | cons b rest ih =>
    rw [readChunkSize]
    split_ifs
    · simp
    · simp
    · exact (ih _).trans (Nat.le_succ _)

/-- `readChunked`, with the chunks it has put together. -/
def readChunked (msg : Bytes) (stream : Bytes) : NetconfReading :=
  match stream with
  | [] => ⟨.error .eof, [], msg.length⟩
  | [_] => ⟨.error .unexpectedEOF, [], msg.length⟩
  | a :: b :: stream =>
    if a ≠ newline ∨ b ≠ numberSign then ⟨.error .badChunkHeader, stream, msg.length⟩
    else
      match stream with
      | [] => ⟨.error .eof, [], msg.length⟩
      | first :: stream =>
        if first = numberSign then
          match stream with
          | [] => ⟨.error .eof, [], msg.length⟩
          | nl :: rest =>
            if nl ≠ newline then ⟨.error .badEndOfChunks, rest, msg.length⟩
            else ⟨.ok msg, rest, msg.length⟩
        else
          match _ : readChunkSize [first] stream with
          | (.error fault, rest) => ⟨.error fault, rest, msg.length⟩
          | (.ok n, rest) =>
            if msg.length + n > netconfMaxMessageBytes then
              ⟨.error .messageSize, rest, msg.length⟩
            else if rest.length < n then
              ⟨.error (if rest = [] then .eof else .unexpectedEOF), [], msg.length + n⟩
            else readChunked (msg ++ rest.take n) (rest.drop n)
termination_by stream.length
decreasing_by
  next sized _ _ =>
    have shorter := length_readChunkSize [first] stream
    rw [sized] at shorter
    simp only [List.length_cons, List.length_drop] at shorter ⊢
    omega

/-- `ReadMessage`. -/
def readMessage (chunked : Bool) (stream : Bytes) : NetconfReading :=
  if chunked then readChunked [] stream else readEOM [] stream

/-- A chunk behind its size. -/
def netconfChunk (chunk : Bytes) : Bytes :=
  newline :: numberSign :: (itoa chunk.length ++ newline :: chunk)

/-- The end of a chunked message. -/
def netconfEndOfChunks : Bytes := [newline, numberSign, numberSign, newline]

/-- `WriteMessage`: what it hands to `Write`. -/
def writeMessage (chunked : Bool) (msg : Bytes) : Bytes :=
  if chunked then (if msg.length > 0 then netconfChunk msg else []) ++ netconfEndOfChunks
  else msg ++ netconfEOM

/-- Behind a message stands no marker but its own. -/
def Unmarked (msg : Bytes) : Prop :=
  ∀ before after, msg ++ netconfEOM = before ++ netconfEOM ++ after → after = []

/-! ### End-of-message framing -/

/-- The loop, from any place inside a message that its marker follows. -/
theorem readEOM_inside {msg : Bytes} (small : msg.length ≤ netconfMaxMessageBytes)
    (unmarked : Unmarked msg) (rest : Bytes) {front back : Bytes} (inside : back ≠ [])
    (whole : front ++ back = msg ++ netconfEOM) :
    readEOM front (back ++ rest) = ⟨.ok msg, rest, (msg ++ netconfEOM).length⟩ := by
  induction back generalizing front with
  | nil => exact absurd rfl inside
  | cons b back ih =>
    rw [List.cons_append, readEOM]
    have whole : (front ++ [b]) ++ back = msg ++ netconfEOM := by simpa using whole
    by_cases marked : b = 62 ∧ netconfEOM <:+ front ++ [b]
    · obtain ⟨-, before, is⟩ := id marked
      obtain rfl := unmarked before back (by rw [is, whole])
      rw [List.append_nil] at whole
      rw [whole] at marked ⊢
      simp [marked, small]
    · have further : back ≠ [] := by
        rintro rfl
        rw [List.append_nil] at whole
        have last := congrArg List.getLast? whole
        simp only [List.getLast?_append, List.getLast?_singleton, Option.some_or] at last
        exact marked ⟨Option.some.inj last, whole ▸ List.suffix_append _ _⟩
      have total := congrArg List.length whole
      simp only [List.length_append] at total
      rw [if_neg marked, if_neg (by simp only [List.length_append]; omega), ih further whole]

theorem peak_readEOM (stream : Bytes) {msg : Bytes}
    (small : msg.length ≤ netconfMaxMessageBytes + netconfEOM.length) :
    (readEOM msg stream).peak ≤ netconfMaxMessageBytes + netconfEOM.length + 1 := by
  induction stream generalizing msg with
  | nil => exact small.trans (Nat.le_succ _)
  | cons b stream ih =>
    have longer : (msg ++ [b]).length ≤ netconfMaxMessageBytes + netconfEOM.length + 1 := by
      simpa using small
    simp only [readEOM]
    split_ifs with marked large large
    · exact longer
    · exact longer
    · exact longer
    · exact ih (not_lt.mp large)

/-! ### Chunked framing -/

theorem readChunkSize_line {digits more : Bytes} (rest : Bytes) (plain : newline ∉ more)
    (short : digits.length + more.length ≤ 10) :
    readChunkSize digits (more ++ newline :: rest) = (chunkSize (digits ++ more), rest) := by
  induction more generalizing digits with
  | nil => simp [readChunkSize]
  | cons b more ih =>
    obtain ⟨other, plain⟩ := not_or.mp (List.mem_cons.not.mp plain)
    simp only [List.length_cons] at short
    rw [List.cons_append, readChunkSize, if_neg (Ne.symm other), if_neg (by simp; omega),
      ih plain (by simp; omega), List.append_assoc, List.singleton_append]

/-- The canonical numeral of a size is read back. -/
theorem chunkSize_itoa {n : Nat} (positive : 0 < n) (small : n < 2 ^ 32) :
    chunkSize (itoa n) = .ok n := by
  have digits : (itoa n).all isDigit = true :=
    List.all_eq_true.mpr fun c => isDigit_of_mem_itoa
  obtain ⟨first, more, spelled⟩ := List.exists_cons_of_ne_nil (itoa_ne_nil n)
  have leading := head?_itoa_ne_zero positive
  have isFirst : isDigit first = true := isDigit_of_mem_itoa (spelled ▸ List.mem_cons_self)
  rw [spelled, List.head?_cons] at leading
  have bounds : ¬ (first < 49 ∨ first > 57) := by
    simp only [isDigit, Bool.and_eq_true, decide_eq_true_eq] at isFirst
    simp only [ne_eq, Option.some.injEq, ← UInt8.toNat_inj] at leading
    simp only [UInt8.lt_iff_toNat_lt, gt_iff_lt]
    simp at leading ⊢
    omega
  have head : (itoa n).headD 0 = first := by rw [spelled]; rfl
  rw [chunkSize, head, if_neg bounds, digits, readDigits_itoa]
  simp
  omega

theorem readChunked_chunk {msg chunk : Bytes} (rest : Bytes) (nonempty : chunk ≠ [])
    (small : (msg ++ chunk).length ≤ netconfMaxMessageBytes) :
    readChunked msg (netconfChunk chunk ++ rest) = readChunked (msg ++ chunk) rest := by
  have positive := List.length_pos_of_ne_nil nonempty
  have limit : netconfMaxMessageBytes = 2 ^ 20 := rfl
  simp only [List.length_append] at small
  obtain ⟨first, more, spelled⟩ := List.exists_cons_of_ne_nil (itoa_ne_nil chunk.length)
  have digits : ∀ c ∈ first :: more, isDigit c = true := fun c mem =>
    isDigit_of_mem_itoa (spelled ▸ mem)
  have plain : newline ∉ more := fun mem =>
    absurd (digits _ (List.mem_cons_of_mem _ mem)) (by decide)
  have other : first ≠ numberSign := by
    rintro rfl
    exact absurd (digits _ List.mem_cons_self) (by decide)
  have short : [first].length + more.length ≤ 10 := by
    have bound : (itoa chunk.length).length ≤ 10 := length_itoa_le (by omega) (by omega)
    rw [spelled, List.length_cons] at bound
    simpa [Nat.add_comm] using bound
  have sized : readChunkSize [first] (more ++ newline :: (chunk ++ rest)) =
      (.ok chunk.length, chunk ++ rest) := by
    rw [readChunkSize_line _ plain short, List.singleton_append, ← spelled,
      chunkSize_itoa positive (by omega)]
  rw [netconfChunk, spelled]
  simp only [List.cons_append, List.append_assoc]
  rw [readChunked.eq_def]
  simp only [ne_eq, not_true_eq_false, or_self, ↓reduceIte, other]
  split
  · next fails => exact nomatch congrArg Prod.fst (sized.symm.trans fails)
  · next reads =>
    obtain ⟨size, rfl⟩ := Prod.mk.inj (sized.symm.trans reads)
    obtain rfl := Except.ok.inj size
    rw [if_neg (by omega), if_neg (by simp), List.take_left, List.drop_left]

theorem readChunked_chunks {chunks : List Bytes} (rest : Bytes) {msg : Bytes}
    (nonempty : ∀ chunk ∈ chunks, chunk ≠ [])
    (small : (msg ++ chunks.flatten).length ≤ netconfMaxMessageBytes) :
    readChunked msg (chunks.flatMap netconfChunk ++ netconfEndOfChunks ++ rest) =
      ⟨.ok (msg ++ chunks.flatten), rest, (msg ++ chunks.flatten).length⟩ := by
  induction chunks generalizing msg with
  | nil =>
    rw [List.flatMap_nil, List.nil_append, List.flatten_nil, List.append_nil]
    simp [netconfEndOfChunks, readChunked]
  | cons chunk chunks ih =>
    obtain ⟨here, later⟩ := List.forall_mem_cons.mp nonempty
    rw [List.flatten_cons, ← List.append_assoc] at small ⊢
    rw [List.flatMap_cons, List.append_assoc, List.append_assoc, readChunked_chunk _ here,
      ← List.append_assoc, ih later small]
    simp only [List.length_append] at small ⊢
    omega

theorem peak_readChunked (msg stream : Bytes) (small : msg.length ≤ netconfMaxMessageBytes) :
    (readChunked msg stream).peak ≤ netconfMaxMessageBytes := by
  fun_induction readChunked msg stream with
  | case10 msg _ _ _ _ _ _ n _ _ fits _ => exact not_lt.mp fits
  | case11 msg _ _ _ _ _ _ n _ _ fits _ ih =>
    refine ih ?_
    simp only [List.length_append, List.length_take]
    omega
  | _ => exact small

/-! ### Both framings -/

/-- `ReadMessage` as a reader that takes a message off the front of a stream. -/
def unframeMessage (chunked : Bool) (stream : Bytes) : Option (Bytes × Bytes) :=
  match (readMessage chunked stream).result with
  | .ok msg => some (msg, (readMessage chunked stream).rest)
  | .error _ => none

theorem readMessage_writeMessage {chunked : Bool} {msg : Bytes}
    (small : msg.length ≤ netconfMaxMessageBytes) (unmarked : chunked = false → Unmarked msg)
    (rest : Bytes) :
    (readMessage chunked (writeMessage chunked msg ++ rest)).result = .ok msg ∧
      (readMessage chunked (writeMessage chunked msg ++ rest)).rest = rest := by
  cases chunked with
  | false =>
    have read := @readEOM_inside msg small (unmarked rfl) rest [] (msg ++ netconfEOM)
      (by simp [netconfEOM, ascii]) rfl
    exact ⟨congrArg NetconfReading.result read, congrArg NetconfReading.rest read⟩
  | true =>
    by_cases empty : msg = []
    · subst empty
      simp [readMessage, writeMessage, netconfEndOfChunks, readChunked]
    · have read := @readChunked_chunks [msg] rest [] (by simpa using empty) (by simpa using small)
      have some' : msg.length > 0 := List.length_pos_of_ne_nil empty
      simp only [List.flatMap_singleton, List.flatten_singleton, List.nil_append] at read
      simp only [readMessage, writeMessage, ↓reduceIte, some', read, and_self]

/-- **Framing.** Messages that are written one after another are read back, and then the stream
ends; a message may be cut into chunks in any way; and the buffer grows at most one octet beyond the
limit and the marker, in chunked mode not beyond the limit. -/
theorem netconf_framing (chunked : Bool) :
    (∀ msgs : List Bytes, (∀ msg ∈ msgs, msg.length ≤ netconfMaxMessageBytes ∧
        (chunked = false → Unmarked msg)) →
      collect (unframeMessage chunked) (msgs.flatMap (writeMessage chunked)) = (msgs, [])) ∧
    (readMessage chunked []).result = .error .eof ∧
    (∀ (chunks : List Bytes) (rest : Bytes), (∀ chunk ∈ chunks, chunk ≠ []) →
      chunks.flatten.length ≤ netconfMaxMessageBytes →
      unframeMessage true (chunks.flatMap netconfChunk ++ netconfEndOfChunks ++ rest) =
        some (chunks.flatten, rest)) ∧
    ∀ stream, (readMessage chunked stream).peak ≤
      if chunked then netconfMaxMessageBytes
      else netconfMaxMessageBytes + netconfEOM.length + 1 := by
  refine ⟨fun msgs fit => ?_, ?_, fun chunks rest nonempty small => ?_, fun stream => ?_⟩
  · have cuts : ∀ msg ∈ msgs, CutsOff (unframeMessage chunked) (writeMessage chunked) msg := by
      intro msg mem
      obtain ⟨small, unmarked⟩ := fit msg mem
      refine ⟨?_, fun rest => ?_⟩
      · cases chunked <;> simp [writeMessage, netconfEOM, netconfEndOfChunks, ascii]
      · obtain ⟨result, left⟩ := readMessage_writeMessage small unmarked rest
        rw [unframeMessage, result, left]
    have stuck : unframeMessage chunked [] = none := by
      cases chunked <;> simp [unframeMessage, readMessage, readEOM, readChunked]
    simpa using collect_flatMap cuts stuck
  · cases chunked <;> simp [readMessage, readEOM, readChunked]
  · have read := @readChunked_chunks chunks rest [] nonempty (by simpa using small)
    simp only [List.nil_append] at read
    simp only [unframeMessage, readMessage, ↓reduceIte, read]
  · cases chunked with
    | false => exact peak_readEOM stream (Nat.zero_le _)
    | true => exact peak_readChunked [] stream (Nat.zero_le _)

/-- Two messages in a row, the first one empty. -/
theorem netconf_framing_two :
    collect (unframeMessage true) ([[], [1, 2]].flatMap (writeMessage true)) = ([[], [1, 2]], []) :=
  (netconf_framing true).1 [[], [1, 2]] (by
    intro msg mem
    obtain rfl | rfl := List.mem_pair.mp mem
    · exact ⟨Nat.zero_le _, nofun⟩
    · exact ⟨by decide, nofun⟩)

/-- Without a marker the buffer takes one octet more than the limit and a marker. -/
theorem readEOM_replicate {msg : Bytes} {n : Nat}
    (length : msg.length + n = netconfMaxMessageBytes + netconfEOM.length + 1) :
    (readEOM msg (List.replicate n 97)).peak = msg.length + n := by
  induction n generalizing msg with
  | zero => rfl
  | succ n ih =>
    rw [List.replicate_succ, readEOM]
    have last : ¬ ((97 : UInt8) = 62 ∧ netconfEOM <:+ msg ++ [97]) := fun both => nomatch both.1
    simp only [last, ↓reduceIte]
    split_ifs with large
    · simp only [List.length_append, List.length_singleton] at large ⊢
      omega
    · rw [ih (by simp; omega)]
      simp
      omega

theorem readEOM_passes_marker : ∃ stream,
    netconfMaxMessageBytes + netconfEOM.length < (readMessage false stream).peak := by
  refine ⟨List.replicate (netconfMaxMessageBytes + netconfEOM.length + 1) 97, ?_⟩
  rw [readMessage, if_neg Bool.false_ne_true, readEOM_replicate (Nat.zero_add _)]
  simp

end Nl6
