import Nl6.Syslog.Encode

/-! # Frames on a stream

Over TCP a message is framed, by its length in front of it or by a line feed behind it. `unframe` is
the reader of a collector, which takes one frame off the front of the stream. It finds each frame
again in front of whatever follows (`cutsOff_frame`) and finds none in a frame that stops short
(`unframe_cut`).

Together with the grammar this is what keeps an entry from forging messages: the octets of one
message cannot end it early, and inside it they cannot pass for another part (`unforgeable_iff`).
-/

namespace Nl6

open Numeral Delimited Syslog

inductive SyslogFraming where
  | octetCounting
  | nonTransparent
  deriving DecidableEq, Repr

def frame (framing : SyslogFraming) (pdu : Bytes) : Bytes :=
  match framing with
  | .nonTransparent => pdu ++ [lf]
  | .octetCounting => itoa pdu.length ++ [sp] ++ pdu

/-- The collector's reader of RFC 6587: the first message of a stream and what follows its frame. A
length starts with a digit other than zero. -/
def unframe (framing : SyslogFraming) (stream : Bytes) : Option (Bytes × Bytes) :=
  match framing with
  | .nonTransparent =>
    match stream.dropWhile (· != lf) with
    | [] => none
    | _ :: rest => some (stream.takeWhile (· != lf), rest)
  | .octetCounting =>
    let digits := stream.takeWhile isDigit
    match stream.dropWhile isDigit with
    | [] => none
    | separator :: body =>
      if digits = [] ∨ digits.head? = some 48 ∨ separator ≠ sp ∨
          body.length < readDigits digits then none
      else some (body.take (readDigits digits), body.drop (readDigits digits))

/-! ### Frames are found again -/

/-- A message that can be framed either way: not empty, and without a line feed. -/
structure Framable (pdu : Bytes) : Prop where
  nonempty : pdu ≠ []
  noLineFeed : ∀ c ∈ pdu, c ≠ lf

variable {bytes pdu : Bytes} {msg : SyslogResolved} {now : UtcTime}

theorem Framable.noLineFeed_bne (framable : Framable pdu) : ∀ c ∈ pdu, (c != lf) = true :=
  fun c mem => bne_iff_ne.mpr (framable.noLineFeed c mem)

theorem takeWhile_itoa (n : Nat) (body : Bytes) :
    (itoa n ++ sp :: body).takeWhile isDigit = itoa n := by
  rw [List.takeWhile_append_of_pos fun c => isDigit_of_mem_itoa]
  exact List.append_nil _

theorem dropWhile_itoa (n : Nat) (body : Bytes) :
    (itoa n ++ sp :: body).dropWhile isDigit = sp :: body := by
  rw [List.dropWhile_append_of_pos fun c => isDigit_of_mem_itoa]
  rfl

theorem unframe_octetCounting {n : Nat} (positive : 0 < n) (body : Bytes) :
    unframe .octetCounting (itoa n ++ sp :: body) =
      if body.length < n then none else some (body.take n, body.drop n) := by
  simp [unframe, takeWhile_itoa, dropWhile_itoa, itoa_ne_nil, head?_itoa_ne_zero positive,
    readDigits_itoa]

theorem frame_ne_nil (framing : SyslogFraming) (pdu : Bytes) : frame framing pdu ≠ [] := by
  cases framing with
  | octetCounting => simp [frame]
  | nonTransparent => simp [frame]

/-- **Frames are found again**, in front of whatever follows. -/
theorem cutsOff_frame (framing : SyslogFraming) (framable : Framable pdu) :
    CutsOff (unframe framing) (frame framing) pdu := by
  refine ⟨frame_ne_nil framing pdu, fun rest => ?_⟩
  cases framing with
  | octetCounting =>
    have positive := List.length_pos_iff.mpr framable.nonempty
    have text : frame .octetCounting pdu ++ rest = itoa pdu.length ++ sp :: (pdu ++ rest) := by
      simp [frame]
    rw [text, unframe_octetCounting positive, if_neg (by simp), List.take_left, List.drop_left]
  | nonTransparent =>
    have text : frame .nonTransparent pdu ++ rest = pdu ++ lf :: rest := by simp [frame]
    have taken : (pdu ++ lf :: rest).takeWhile (· != lf) = pdu := by
      rw [List.takeWhile_append_of_pos framable.noLineFeed_bne]
      simp
    have dropped : (pdu ++ lf :: rest).dropWhile (· != lf) = lf :: rest := by
      rw [List.dropWhile_append_of_pos framable.noLineFeed_bne]
      simp
    rw [text]
    simp only [unframe, taken, dropped]

theorem unframe_cut (framing : SyslogFraming) (framable : Framable pdu) {n : Nat}
    (short : n < (frame framing pdu).length) :
    unframe framing ((frame framing pdu).take n) = none := by
  cases framing with
  | octetCounting =>
    have positive := List.length_pos_iff.mpr framable.nonempty
    have text : frame .octetCounting pdu = itoa pdu.length ++ sp :: pdu := by simp [frame]
    rw [text] at short ⊢
    rw [List.length_append, List.length_cons] at short
    by_cases inLength : n ≤ (itoa pdu.length).length
    · -- Only digits were written: the reader waits for the separator.
      rw [List.take_append_of_le_length inLength]
      have nothing : ((itoa pdu.length).take n).dropWhile isDigit = [] :=
        List.dropWhile_eq_nil_iff.mpr fun c mem => isDigit_of_mem_itoa (List.mem_of_mem_take mem)
      simp only [unframe, nothing]
    · -- The length was written whole, and the body is shorter than it says.
      obtain ⟨count, rfl⟩ : ∃ count, n = (itoa pdu.length).length + (count + 1) :=
        ⟨n - (itoa pdu.length).length - 1, by omega⟩
      rw [List.take_length_add_append, List.take_succ_cons, unframe_octetCounting positive,
        if_pos]
      rw [List.length_take]
      omega
  | nonTransparent =>
    have text : frame .nonTransparent pdu = pdu ++ [lf] := rfl
    rw [text, List.length_append, List.length_singleton] at short
    rw [text, List.take_append_of_le_length (by omega)]
    have nothing : (pdu.take n).dropWhile (· != lf) = [] :=
      List.dropWhile_eq_nil_iff.mpr fun c mem =>
        framable.noLineFeed_bne c (List.mem_of_mem_take mem)
    simp only [unframe, nothing]

theorem unframe_nil (framing : SyslogFraming) : unframe framing [] = none := by
  cases framing <;> rfl

theorem Unbroken.noLineFeed {s : Bytes} (unbroken : Unbroken s) : ∀ c ∈ s, c ≠ lf := by
  rintro c mem rfl
  exact absurd (unbroken lf mem) (by decide)

theorem RFC5424Encoder.framable (keys : ∀ kv ∈ msg.structuredData, IsSDName kv.1)
    (accepted : encode msg now = some bytes) : Framable bytes := by
  refine ⟨?_, (unbroken keys accepted).noLineFeed⟩
  unfold encode at accepted
  split at accepted
  · exact nomatch accepted
  · cases accepted
    simp [write5424, calculatePRI]

theorem RFC3164Encoder.framable (accepted : encode msg now = some bytes) : Framable bytes := by
  refine ⟨?_, (unbroken accepted).noLineFeed⟩
  unfold encode at accepted
  split at accepted
  · exact nomatch accepted
  split at accepted
  · exact nomatch accepted
  · cases accepted
    simp [write3164, calculatePRI]

/-! ### No forged messages -/

/-- A message of the grammar gives back an entry: the priority, the sanitised header fields with
NILVALUE for the empty ones, the sanitised values in their order and the sanitised message. -/
structure SyslogResolved.GivenBack (msg : SyslogResolved) (m : SyslogMsg) : Prop where
  pri : readDigits m.prival = msg.facility.toNat * 8 + msg.severity.toNat
  hostname : m.hostname =
    if msg.hostname = [] then nilValue else sanitiseHostname msg.hostname
  appName : m.appName = if msg.appName = [] then nilValue else sanitiseHeaderField msg.appName
  msgID : m.msgID = if msg.msgID = [] then nilValue else sanitiseHeaderField msg.msgID
  values : m.structuredData.flatMap SDElement.params =
    msg.structuredData.map fun kv => (kv.1, sanitiseMessageBody kv.2)
  message : m.message = if msg.message = [] then none else some (sanitiseMessageBody msg.message)

/-- The bytes hold no line break and are a message in exactly one way, that gives back the entry. -/
def SyslogResolved.Unforgeable (msg : SyslogResolved) (bytes : Bytes) : Prop :=
  Unbroken bytes ∧ ∃ m, IsSyslogMsg m ∧ m.render = bytes ∧ msg.GivenBack m ∧
    ∀ m', IsSyslogMsg m' → m'.render = bytes → m' = m

theorem writeSyslog5424Field_sanitiseHostname (s : Bytes) :
    writeSyslog5424Field (sanitiseHostname s) =
      if s = [] then nilValue else sanitiseHostname s := by
  simp only [writeSyslog5424Field, sanitiseHostname, List.map_eq_nil_iff, nilValue]

theorem writeSyslog5424Field_sanitiseHeaderField (s : Bytes) :
    writeSyslog5424Field (sanitiseHeaderField s) =
      if s = [] then nilValue else sanitiseHeaderField s := by
  simp only [writeSyslog5424Field, sanitiseHeaderField, List.map_eq_nil_iff, nilValue]

theorem SyslogResolved.Admitted.givenBack (admitted : msg.Admitted now) :
    msg.GivenBack (msg.parts now) where
  pri := (readDigits_itoa _).trans (prival_eq admitted.facility admitted.severity)
  hostname := writeSyslog5424Field_sanitiseHostname msg.hostname
  appName := writeSyslog5424Field_sanitiseHeaderField msg.appName
  msgID := writeSyslog5424Field_sanitiseHeaderField msg.msgID
  values := by
    simp only [parts]
    split
    · next empty => rw [empty]; rfl
    · simp
  message := rfl

theorem length_le_of_isToken {s sanitised : Bytes} {max : Nat} (positive : 0 < max)
    (same : sanitised.length = s.length)
    (token : IsToken max (if s = [] then nilValue else sanitised)) : s.length ≤ max := by
  split at token
  · next empty =>
      rw [empty]
      exact Nat.zero_le _
  · rw [← same]
    cases token with
    | nil => exact positive
    | token _ short _ => exact short

theorem SyslogResolved.GivenBack.fieldsFit {m : SyslogMsg} (given : msg.GivenBack m)
    (is : IsSyslogMsg m) : msg.FieldsFit where
  hostname := length_le_of_isToken (by omega) (length_sanitiseHostname _)
    (given.hostname ▸ is.hostname)
  appName := length_le_of_isToken (by omega) (length_sanitiseHeaderField _)
    (given.appName ▸ is.appName)
  msgID := length_le_of_isToken (by omega) (length_sanitiseHeaderField _) (given.msgID ▸ is.msgID)

theorem RFC5424Encoder.render_parts (accepted : encode msg now = some bytes) :
    (msg.parts now).render = bytes := by
  unfold encode at accepted
  split at accepted
  · exact nomatch accepted
  · rw [← write5424_eq_render]
    exact Option.some.inj accepted

/-- **No forged messages.** What the RFC 5424 encoder makes of an admitted entry has no line break
and is a message in exactly one way, which gives back the entry, if and only if the header fields
are within the lengths of the grammar. Without that condition, the accepted messages of any sequence
of entries are read off a stream of their frames exactly as they were written, with either
framing. -/
theorem unforgeable_iff (framing : SyslogFraming) :
    (∀ (msg : SyslogResolved) (now : UtcTime) (bytes : Bytes), msg.Admitted now →
      RFC5424Encoder.encode msg now = some bytes → (msg.Unforgeable bytes ↔ msg.FieldsFit)) ∧
    ∀ entries : List (SyslogResolved × UtcTime), (∀ entry ∈ entries, entry.1.Admitted entry.2) →
      let messages := entries.filterMap fun entry => RFC5424Encoder.encode entry.1 entry.2
      collect (unframe framing) (messages.flatMap (frame framing)) = (messages, []) := by
  refine ⟨fun msg now bytes admitted accepted => ?_, fun entries admitted => ?_⟩
  · refine ⟨fun ⟨_, m, is, _, given, _⟩ => given.fieldsFit is, fun fit => ?_⟩
    have rendered := RFC5424Encoder.render_parts accepted
    refine ⟨RFC5424Encoder.unbroken admitted.keys accepted, msg.parts now,
      admitted.isSyslogMsg fit, rendered, admitted.givenBack, fun m' is' same => ?_⟩
    exact is'.unambiguous (admitted.isSyslogMsg fit) (same.trans rendered.symm)
  · intro messages
    have carried : ∀ message ∈ messages, CutsOff (unframe framing) (frame framing) message := by
      intro message mem
      obtain ⟨entry, among, accepted⟩ := List.mem_filterMap.mp mem
      exact cutsOff_frame framing (RFC5424Encoder.framable (admitted entry among).keys accepted)
    have read := collect_flatMap carried (unframe_nil framing)
    rwa [List.append_nil] at read

/-- The first instant of 2024. -/
def newYear : UtcTime where
  year := 2024
  month := 1
  day := 1
  hour := 0
  minute := 0
  second := 0
  nanosecond := 0
  month_range := by decide
  day_range := by decide
  hour_lt := by decide
  minute_lt := by decide
  second_lt := by decide
  nanosecond_lt := by decide

/-- An entry whose message tries to start a second one and whose value tries to leave its quotes. -/
def hostileEntry : SyslogResolved where
  facility := 1
  severity := 5
  appName := ascii "app name"
  msgID := []
  hostname := ascii "host"
  structuredData := [(ascii "key", ascii "a\"] b\\")]
  message := ascii "x\n<0>1 - - - - - -"

theorem hostileEntry_admitted : hostileEntry.Admitted newYear where
  facility := by decide
  severity := by decide
  year := by decide
  keys := List.forall_mem_singleton.mpr ⟨by decide, by decide, by decide +kernel⟩

theorem unforgeable_iff_hostile :
    ∃ bytes, RFC5424Encoder.encode hostileEntry newYear = some bytes ∧
      hostileEntry.Unforgeable bytes ∧
      collect (unframe .nonTransparent) (frame .nonTransparent bytes) = ([bytes], []) := by
  have taken : (RFC5424Encoder.encode hostileEntry newYear).isSome = true := by decide +kernel
  obtain ⟨bytes, accepted⟩ := Option.isSome_iff_exists.mp taken
  have fit : hostileEntry.FieldsFit := ⟨by decide, by decide, by decide⟩
  obtain ⟨single, sequence⟩ := unforgeable_iff .nonTransparent
  refine ⟨bytes, accepted, (single _ _ _ hostileEntry_admitted accepted).mpr fit, ?_⟩
  have read := sequence [(hostileEntry, newYear)]
    (List.forall_mem_singleton.mpr hostileEntry_admitted)
  simpa [accepted] using read

/-- An APP-NAME of 49 characters is written out, and no message of the grammar has one. -/
theorem longAppName_not_unforgeable :
    let msg := { hostileEntry with appName := List.replicate 49 97 }
    ∃ bytes, msg.Admitted newYear ∧ RFC5424Encoder.encode msg newYear = some bytes ∧
      ¬ msg.Unforgeable bytes := by
  intro msg
  have taken : (RFC5424Encoder.encode msg newYear).isSome = true := by decide +kernel
  obtain ⟨bytes, accepted⟩ := Option.isSome_iff_exists.mp taken
  refine ⟨bytes, ⟨hostileEntry_admitted.facility, hostileEntry_admitted.severity,
    hostileEntry_admitted.year, hostileEntry_admitted.keys⟩, accepted, ?_⟩
  rintro ⟨_, m, is, _, given, _⟩
  exact absurd (given.fieldsFit is).appName (by decide)

end Nl6
