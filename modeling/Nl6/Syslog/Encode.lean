import Nl6.Syslog.Grammar

/-! # The syslog encoders

`RFC5424Encoder.encode` and `RFC3164Encoder.encode` assemble a message from the resolved entry of a
catalog. Whatever the strings of the entry hold, no line break or NUL is left anywhere
(`RFC5424Encoder.unbroken`, `RFC3164Encoder.unbroken`), and what the first writes is the rendering
of the sanitised parts (`write5424_eq_render`). These parts are a message of the grammar if the
header fields are not too long, which the encoder does not see to
(`SyslogResolved.Admitted.isSyslogMsg`).
-/

namespace Nl6

open Numeral Delimited Syslog

/-! ### Sanitising -/

namespace Syslog

def tab : UInt8 := 9
def lf : UInt8 := 10
def cr : UInt8 := 13
def underscore : UInt8 := 95

end Syslog

/-- The bytes that would break a header token. -/
def breaksToken (c : UInt8) : Bool :=
  c.toNat < 33 || 126 < c.toNat || c == less || c == greater || c == open' || c == close ||
    c == quote

def sanitiseHostname (s : Bytes) : Bytes :=
  s.map fun c =>
    if c = sp ∨ c = tab then hyphen else if breaksToken c then underscore else c

def sanitiseHeaderField (s : Bytes) : Bytes :=
  s.map fun c => if breaksToken c then underscore else c

/-- The bytes `sanitiseMessageBody` replaces. -/
def breaksLine (c : UInt8) : Bool := c == 0 || c == cr || c == lf

def sanitiseMessageBody (s : Bytes) : Bytes := s.map fun c => if breaksLine c then sp else c

/-! ### Encoding -/

structure SyslogResolved where
  facility : UInt8
  severity : UInt8
  appName : Bytes
  msgID : Bytes
  hostname : Bytes
  structuredData : List (Bytes × Bytes)
  message : Bytes
  deriving DecidableEq, Repr

/-- A UTC time as the clock reports it. -/
structure UtcTime where
  year : Nat
  month : Nat
  day : Nat
  hour : Nat
  minute : Nat
  second : Nat
  nanosecond : Nat
  month_range : 1 ≤ month ∧ month ≤ 12
  day_range : 1 ≤ day ∧ day ≤ daysIn year month
  hour_lt : hour < 24
  minute_lt : minute < 60
  second_lt : second < 60
  nanosecond_lt : nanosecond < 10 ^ 9

/-- A decimal number with leading zeros, `%04d` and its like. -/
def padded (width n : Nat) : Bytes := List.replicate (width - (itoa n).length) 48 ++ itoa n

/-- `calculatePRI`, without the brackets. -/
def prival (facility severity : UInt8) : Nat :=
  (facility &&& 0x1F).toNat * 8 + (severity &&& 0x07).toNat

def calculatePRI (facility severity : UInt8) : Bytes :=
  less :: (itoa (prival facility severity) ++ [greater])

/-- The TIMESTAMP: RFC 3339 with milliseconds. -/
def formatTimestamp (now : UtcTime) : Bytes :=
  padded 4 now.year ++ hyphen :: (padded 2 now.month ++ hyphen :: (padded 2 now.day ++ letterT ::
    (padded 2 now.hour ++ colon :: (padded 2 now.minute ++ colon :: (padded 2 now.second ++
      ((dot :: padded 3 (now.nanosecond / 1000000)) ++ [letterZ]))))))

def writeSyslog5424Field (v : Bytes) : Bytes := if v = [] then [hyphen] else v

def writeSyslog5424SDParamValue (v : Bytes) : Bytes :=
  v.flatMap fun c => if c = quote ∨ c = backslash ∨ c = close then [backslash, c] else [c]

def syslogSDID : Bytes := ascii "meta@32473"

def maxSyslogMessageBytes : Nat := 1400

def writeStructuredData (pairs : List (Bytes × Bytes)) : Bytes :=
  if pairs = [] then [hyphen]
  else [open'] ++ syslogSDID ++ pairs.flatMap (fun kv =>
    [sp] ++ kv.1 ++ [equal, quote] ++ writeSyslog5424SDParamValue (sanitiseMessageBody kv.2) ++
      [quote]) ++ [close]

/-- What `RFC5424Encoder.Encode` writes. -/
def write5424 (msg : SyslogResolved) (now : UtcTime) : Bytes :=
  calculatePRI msg.facility msg.severity ++ [49, sp] ++ formatTimestamp now ++ [sp] ++
    writeSyslog5424Field (sanitiseHostname msg.hostname) ++ [sp] ++
    writeSyslog5424Field (sanitiseHeaderField msg.appName) ++ [sp] ++ [hyphen] ++ [sp] ++
    writeSyslog5424Field (sanitiseHeaderField msg.msgID) ++ [sp] ++
    writeStructuredData msg.structuredData ++
    (if msg.message = [] then [] else [sp] ++ sanitiseMessageBody msg.message)

/-- `RFC5424Encoder.Encode`: what it appends, or the refusal of a message that is too long. -/
def RFC5424Encoder.encode (msg : SyslogResolved) (now : UtcTime) : Option Bytes :=
  if maxSyslogMessageBytes < (write5424 msg now).length then none else some (write5424 msg now)

def syslogTagMaxLen : Nat := 32

/-- The first three letters of the name of a month. -/
def monthAbbreviation (month : Nat) : Bytes :=
  ascii (["Jan", "Feb", "Mar", "Apr", "May", "Jun", "Jul", "Aug", "Sep", "Oct", "Nov", "Dec"].getD
    (month - 1) "")

def writeTag (appName : Bytes) : Bytes :=
  let tag := sanitiseHeaderField appName
  let tag := if tag = [] then ascii "unknown" else tag
  if syslogTagMaxLen < tag.length then tag.take syslogTagMaxLen else tag

/-- What `RFC3164Encoder.Encode` writes. -/
def write3164 (msg : SyslogResolved) (now : UtcTime) : Bytes :=
  calculatePRI msg.facility msg.severity ++ monthAbbreviation now.month ++
    (if now.day < 10 then [sp, sp] else [sp]) ++ itoa now.day ++ [sp] ++ padded 2 now.hour ++
    [colon] ++ padded 2 now.minute ++ [colon] ++ padded 2 now.second ++ [sp] ++
    sanitiseHostname msg.hostname ++ [sp] ++ writeTag msg.appName ++ [colon] ++
    (if msg.message = [] then [] else [sp] ++ sanitiseMessageBody msg.message)

/-- `RFC3164Encoder.Encode`: an entry without a hostname is refused as well. -/
def RFC3164Encoder.encode (msg : SyslogResolved) (now : UtcTime) : Option Bytes :=
  if msg.hostname = [] then none
  else if maxSyslogMessageBytes < (write3164 msg now).length then none
  else some (write3164 msg now)

/-! ### What is encoded -/

/-- The parts of the message an entry is encoded to: its header fields and values sanitised. -/
def SyslogResolved.parts (msg : SyslogResolved) (now : UtcTime) : SyslogMsg where
  prival := itoa (prival msg.facility msg.severity)
  version := [49]
  timestamp := formatTimestamp now
  hostname := writeSyslog5424Field (sanitiseHostname msg.hostname)
  appName := writeSyslog5424Field (sanitiseHeaderField msg.appName)
  procID := nilValue
  msgID := writeSyslog5424Field (sanitiseHeaderField msg.msgID)
  structuredData :=
    if msg.structuredData = [] then []
    else [⟨syslogSDID, msg.structuredData.map fun kv => (kv.1, sanitiseMessageBody kv.2)⟩]
  message := if msg.message = [] then none else some (sanitiseMessageBody msg.message)

theorem writeSyslog5424SDParamValue_eq (v : Bytes) :
    writeSyslog5424SDParamValue v = escape reserved backslash v := by
  induction v with
  | nil => rfl
  | cons c v ih =>
    have cases : (c = quote ∨ c = backslash ∨ c = close) ↔ reserved c = true := by
      simp [reserved, or_assoc]
    rw [writeSyslog5424SDParamValue, List.flatMap_cons, escape]
    rw [writeSyslog5424SDParamValue] at ih
    by_cases special : reserved c = true
    · rw [if_pos (cases.mpr special), if_pos special, ih]
      rfl
    · rw [if_neg (mt cases.mp special), if_neg special, ih]
      rfl

theorem writeStructuredData_eq (pairs : List (Bytes × Bytes)) :
    writeStructuredData pairs = renderStructuredData
      (if pairs = [] then []
        else [⟨syslogSDID, pairs.map fun kv => (kv.1, sanitiseMessageBody kv.2)⟩]) := by
  unfold writeStructuredData
  split
  · rfl
  · simp [renderStructuredData, SDElement.render, renderParam, List.flatMap_map,
      writeSyslog5424SDParamValue_eq]

/-- **The encoding.** What is written is the rendering of the sanitised parts. -/
theorem write5424_eq_render (msg : SyslogResolved) (now : UtcTime) :
    write5424 msg now = (msg.parts now).render := by
  have message : (if msg.message = [] then [] else [sp] ++ sanitiseMessageBody msg.message) =
      renderMessage (msg.parts now).message := by
    unfold SyslogResolved.parts
    split <;> rfl
  rw [write5424, writeStructuredData_eq, message]
  simp [SyslogMsg.render, SyslogResolved.parts, calculatePRI, nilValue]

/-! ### Numbers -/

theorem readDigits_replicate_zero (count : Nat) (s : Bytes) :
    readDigits (List.replicate count 48 ++ s) = readDigits s := by
  induction count with
  | zero => rfl
  | succ count ih => exact ih

theorem isNumber_padded {n width low high : Nat} (below : n < 10 ^ width) (positive : 0 < width)
    (low_le : low ≤ n) (le_high : n ≤ high) : IsNumber width low high (padded width n) := by
  have value : readDigits (padded width n) = n := by
    rw [padded, readDigits_replicate_zero, readDigits_itoa]
  have short := length_itoa_le below positive
  refine ⟨?_, fun c mem => ?_, low_le.trans_eq value.symm, value.trans_le le_high⟩
  · rw [padded, List.length_append, List.length_replicate]
    omega
  · rcases List.mem_append.mp mem with zero | digit
    · rw [List.eq_of_mem_replicate zero]
      rfl
    · exact isDigit_of_mem_itoa digit

variable {now : UtcTime} {c : UInt8} {s v : Bytes} {msg : SyslogResolved}

theorem isTimestamp_formatTimestamp (year : now.year ≤ 9999) :
    IsTimestamp (formatTimestamp now) := by
  have days : daysIn now.year now.month ≤ 31 := by
    unfold daysIn
    split_ifs <;> omega
  have yearRead : readDigits (padded 4 now.year) = now.year := by
    rw [padded, readDigits_replicate_zero, readDigits_itoa]
  have monthRead : readDigits (padded 2 now.month) = now.month := by
    rw [padded, readDigits_replicate_zero, readDigits_itoa]
  obtain ⟨lowMonth, highMonth⟩ := now.month_range
  obtain ⟨lowDay, highDay⟩ := now.day_range
  have hour := now.hour_lt
  have minute := now.minute_lt
  have second := now.second_lt
  have millisecond : now.nanosecond / 1000000 < 10 ^ 3 := by
    have := now.nanosecond_lt
    omega
  have fraction : IsNumber 3 0 999 (padded 3 (now.nanosecond / 1000000)) :=
    isNumber_padded millisecond (by omega) (by omega) (by omega)
  refine .stamp (isNumber_padded (by omega) (by omega) (by omega) year)
    (isNumber_padded (by omega) (by omega) lowMonth highMonth)
    (isNumber_padded (by omega) (by omega) lowDay ?_)
    (isNumber_padded (by omega) (by omega) (by omega) (by omega))
    (isNumber_padded (by omega) (by omega) (by omega) (by omega))
    (isNumber_padded (by omega) (by omega) (by omega) (by omega)) (.some ?_ ?_ fraction.digits) .utc
  · rwa [yearRead, monthRead]
  · rw [← List.length_pos_iff, fraction.width_eq]
    omega
  · rw [fraction.width_eq]
    omega

/-! ### Header fields -/

theorem printUSASCII_of_not_breaksToken (plain : breaksToken c = false) :
    printUSASCII c = true := by
  simp only [breaksToken, Bool.or_eq_false_iff, decide_eq_false_iff_not] at plain
  simp only [printUSASCII, Bool.and_eq_true, decide_eq_true_eq]
  omega

theorem printable_sanitiseHeaderField (s : Bytes) :
    ∀ c ∈ sanitiseHeaderField s, printUSASCII c = true := by
  intro c mem
  obtain ⟨b, -, rfl⟩ := List.mem_map.mp mem
  split
  · rfl
  · next plain => exact printUSASCII_of_not_breaksToken (by simpa using plain)

theorem printable_sanitiseHostname (s : Bytes) :
    ∀ c ∈ sanitiseHostname s, printUSASCII c = true := by
  intro c mem
  obtain ⟨b, -, rfl⟩ := List.mem_map.mp mem
  split
  · rfl
  · split
    · rfl
    · next plain => exact printUSASCII_of_not_breaksToken (by simpa using plain)

theorem length_sanitiseHeaderField (s : Bytes) :
    (sanitiseHeaderField s).length = s.length := List.length_map _

theorem length_sanitiseHostname (s : Bytes) : (sanitiseHostname s).length = s.length :=
  List.length_map _

theorem isToken_writeSyslog5424Field_iff (printable : ∀ c ∈ v, printUSASCII c = true) {max : Nat}
    (positive : 0 < max) : IsToken max (writeSyslog5424Field v) ↔ v.length ≤ max := by
  unfold writeSyslog5424Field
  split
  · next empty =>
      subst empty
      exact iff_of_true .nil (Nat.zero_le _)
  · next nonempty =>
      refine ⟨fun token => ?_, fun short => .token nonempty short printable⟩
      cases token with
      | nil => exact positive
      | token _ short _ => exact short

theorem prival_eq {facility severity : UInt8} (isFacility : facility.toNat ≤ 23)
    (isSeverity : severity.toNat ≤ 7) :
    prival facility severity = facility.toNat * 8 + severity.toNat := by
  have low : (facility &&& 0x1F).toNat = facility.toNat := by
    rw [UInt8.toNat_and]
    exact (Nat.and_two_pow_sub_one_eq_mod _ 5).trans (Nat.mod_eq_of_lt (by omega))
  have lowest : (severity &&& 0x07).toNat = severity.toNat := by
    rw [UInt8.toNat_and]
    exact (Nat.and_two_pow_sub_one_eq_mod _ 3).trans (Nat.mod_eq_of_lt (by omega))
  rw [prival, low, lowest]

theorem isSDName_syslogSDID : IsSDName syslogSDID :=
  ⟨by decide, by decide, by decide +kernel⟩

/-- The header fields are within the lengths of the grammar. -/
structure SyslogResolved.FieldsFit (msg : SyslogResolved) : Prop where
  hostname : msg.hostname.length ≤ 255
  appName : msg.appName.length ≤ 48
  msgID : msg.msgID.length ≤ 32

/-- An entry as the catalog admits it, at a time the format has four digits for. -/
structure SyslogResolved.Admitted (msg : SyslogResolved) (now : UtcTime) : Prop where
  facility : msg.facility.toNat ≤ 23
  severity : msg.severity.toNat ≤ 7
  year : now.year ≤ 9999
  keys : ∀ kv ∈ msg.structuredData, IsSDName kv.1

/-- The parts of an entry are a message of the grammar if the header fields fit. -/
theorem SyslogResolved.Admitted.isSyslogMsg (admitted : msg.Admitted now) (fit : msg.FieldsFit) :
    IsSyslogMsg (msg.parts now) := by
  have pri : prival msg.facility msg.severity ≤ 191 := by
    rw [prival_eq admitted.facility admitted.severity]
    have := admitted.facility
    have := admitted.severity
    omega
  refine
    { prival_ne := itoa_ne_nil _
      prival_short := length_itoa_le (by omega) (by omega)
      prival_digits := fun c => isDigit_of_mem_itoa
      prival_le := (readDigits_itoa _).trans_le pri
      version_first := ⟨49, [], rfl, by decide⟩
      version_short := show 1 ≤ 3 by omega
      version_digits := List.forall_mem_singleton.mpr (by decide)
      timestamp := isTimestamp_formatTimestamp admitted.year
      hostname := (isToken_writeSyslog5424Field_iff (printable_sanitiseHostname _) (by omega)).mpr
        ((length_sanitiseHostname _).trans_le fit.hostname)
      appName := (isToken_writeSyslog5424Field_iff (printable_sanitiseHeaderField _)
        (by omega)).mpr ((length_sanitiseHeaderField _).trans_le fit.appName)
      procID := .nil
      msgID := (isToken_writeSyslog5424Field_iff (printable_sanitiseHeaderField _) (by omega)).mpr
        ((length_sanitiseHeaderField _).trans_le fit.msgID)
      elements := ?_ }
  intro element mem
  simp only [parts] at mem
  split at mem
  · exact absurd mem List.not_mem_nil
  · obtain rfl := List.mem_singleton.mp mem
    refine ⟨isSDName_syslogSDID, fun param named => ?_⟩
    obtain ⟨kv, pair, rfl⟩ := List.mem_map.mp named
    exact admitted.keys kv pair

/-! ### Line breaks -/

/-- A text without CR, LF and NUL. -/
def Unbroken (s : Bytes) : Prop := ∀ c ∈ s, breaksLine c = false

instance (s : Bytes) : Decidable (Unbroken s) := inferInstanceAs (Decidable (∀ c ∈ s, _))

theorem unbroken_append {t : Bytes} : Unbroken (s ++ t) ↔ Unbroken s ∧ Unbroken t :=
  List.forall_mem_append

theorem unbroken_cons : Unbroken (c :: s) ↔ breaksLine c = false ∧ Unbroken s :=
  List.forall_mem_cons

theorem unbroken_nil : Unbroken [] := fun _ mem => absurd mem List.not_mem_nil

theorem breaksLine_of_printUSASCII (printable : printUSASCII c = true) : breaksLine c = false := by
  simp only [breaksLine, Bool.or_eq_false_iff, beq_eq_false_iff_ne]
  refine ⟨⟨?_, ?_⟩, ?_⟩
  all_goals
    rintro rfl
    exact absurd printable (by decide)

theorem unbroken_of_printable (printable : ∀ c ∈ s, printUSASCII c = true) : Unbroken s :=
  fun c mem => breaksLine_of_printUSASCII (printable c mem)

theorem printUSASCII_of_isDigit (digit : isDigit c = true) : printUSASCII c = true := by
  simp only [isDigit, Bool.and_eq_true, decide_eq_true_eq] at digit
  simp only [printUSASCII, Bool.and_eq_true, decide_eq_true_eq]
  omega

theorem unbroken_itoa (n : Nat) : Unbroken (itoa n) :=
  unbroken_of_printable fun _ mem => printUSASCII_of_isDigit (isDigit_of_mem_itoa mem)

theorem unbroken_padded (width n : Nat) : Unbroken (padded width n) := by
  refine unbroken_append.mpr ⟨fun c mem => ?_, unbroken_itoa n⟩
  rw [List.eq_of_mem_replicate mem]
  rfl

theorem unbroken_sanitiseMessageBody (s : Bytes) : Unbroken (sanitiseMessageBody s) := by
  intro c mem
  obtain ⟨b, -, rfl⟩ := List.mem_map.mp mem
  split
  · rfl
  · next plain => exact Bool.eq_false_iff.mpr plain

theorem unbroken_calculatePRI (facility severity : UInt8) :
    Unbroken (calculatePRI facility severity) :=
  unbroken_cons.mpr ⟨rfl, unbroken_append.mpr ⟨unbroken_itoa _, by decide +kernel⟩⟩

theorem unbroken_formatTimestamp (now : UtcTime) : Unbroken (formatTimestamp now) := by
  simp only [formatTimestamp, unbroken_append, unbroken_cons, unbroken_padded, true_and,
    unbroken_nil, and_true]
  decide +kernel

theorem unbroken_writeSyslog5424Field (unbroken : Unbroken v) :
    Unbroken (writeSyslog5424Field v) := by
  unfold writeSyslog5424Field
  split
  · decide +kernel
  · exact unbroken

theorem unbroken_writeSyslog5424SDParamValue (unbroken : Unbroken v) :
    Unbroken (writeSyslog5424SDParamValue v) := by
  rw [writeSyslog5424SDParamValue_eq]
  intro c mem
  rcases mem_escape mem with rfl | mem
  · rfl
  · exact unbroken c mem

theorem IsSDName.unbroken (name : IsSDName s) : Unbroken s := by
  refine unbroken_of_printable fun c mem => ?_
  have char := name.chars c mem
  simp only [sdNameChar, Bool.and_eq_true] at char
  exact char.1.1.1

theorem unbroken_writeStructuredData {pairs : List (Bytes × Bytes)}
    (keys : ∀ kv ∈ pairs, IsSDName kv.1) : Unbroken (writeStructuredData pairs) := by
  have params : Unbroken (pairs.flatMap fun kv =>
      [sp] ++ kv.1 ++ [equal, quote] ++ writeSyslog5424SDParamValue (sanitiseMessageBody kv.2) ++
        [quote]) := by
    intro c mem
    obtain ⟨kv, pair, written⟩ := List.mem_flatMap.mp mem
    have value := unbroken_writeSyslog5424SDParamValue (unbroken_sanitiseMessageBody kv.2)
    have whole : Unbroken ([sp] ++ kv.1 ++ [equal, quote] ++
        writeSyslog5424SDParamValue (sanitiseMessageBody kv.2) ++ [quote]) := by
      simp only [unbroken_append]
      exact ⟨⟨⟨⟨by decide +kernel, (keys kv pair).unbroken⟩, by decide +kernel⟩, value⟩,
        by decide +kernel⟩
    exact whole c written
  unfold writeStructuredData
  split
  · decide +kernel
  · simp only [unbroken_append]
    exact ⟨⟨⟨by decide +kernel, isSDName_syslogSDID.unbroken⟩, params⟩, by decide +kernel⟩

theorem unbroken_messageSuffix (message : Bytes) :
    Unbroken (if message = [] then [] else [sp] ++ sanitiseMessageBody message) := by
  split
  · exact unbroken_nil
  · exact unbroken_append.mpr ⟨by decide +kernel, unbroken_sanitiseMessageBody message⟩

/-- **No line breaks.** -/
theorem RFC5424Encoder.unbroken {bytes : Bytes} (keys : ∀ kv ∈ msg.structuredData, IsSDName kv.1)
    (accepted : encode msg now = some bytes) : Unbroken bytes := by
  unfold encode at accepted
  split at accepted
  · exact nomatch accepted
  · cases accepted
    have hostname := unbroken_writeSyslog5424Field
      (unbroken_of_printable (printable_sanitiseHostname msg.hostname))
    have appName := unbroken_writeSyslog5424Field
      (unbroken_of_printable (printable_sanitiseHeaderField msg.appName))
    have msgID := unbroken_writeSyslog5424Field
      (unbroken_of_printable (printable_sanitiseHeaderField msg.msgID))
    have data := unbroken_writeStructuredData keys
    have message := unbroken_messageSuffix msg.message
    simp only [write5424, unbroken_append, unbroken_calculatePRI, unbroken_formatTimestamp,
      hostname, appName, msgID, data, message, and_true, true_and]
    decide +kernel

theorem unbroken_monthAbbreviation {month : Nat} (range : 1 ≤ month ∧ month ≤ 12) :
    Unbroken (monthAbbreviation month) := by
  obtain ⟨low, high⟩ := range
  interval_cases month <;> decide +kernel

theorem unbroken_writeTag (appName : Bytes) : Unbroken (writeTag appName) := by
  have tag : Unbroken (if sanitiseHeaderField appName = [] then ascii "unknown"
      else sanitiseHeaderField appName) := by
    split
    · decide +kernel
    · exact unbroken_of_printable (printable_sanitiseHeaderField appName)
  unfold writeTag
  extract_lets sanitised named
  split
  · exact fun c mem => tag c (List.mem_of_mem_take mem)
  · exact tag

theorem RFC3164Encoder.unbroken {bytes : Bytes} (accepted : encode msg now = some bytes) :
    Unbroken bytes := by
  unfold encode at accepted
  split at accepted
  · exact nomatch accepted
  split at accepted
  · exact nomatch accepted
  · cases accepted
    have month := unbroken_monthAbbreviation now.month_range
    have pad : Unbroken (if now.day < 10 then [sp, sp] else [sp]) := by split <;> decide +kernel
    have hostname := unbroken_of_printable (printable_sanitiseHostname msg.hostname)
    have message := unbroken_messageSuffix msg.message
    simp only [write3164, unbroken_append, unbroken_calculatePRI, month, pad, unbroken_itoa,
      unbroken_padded, hostname, unbroken_writeTag, message, and_true, true_and]
    decide +kernel

end Nl6
