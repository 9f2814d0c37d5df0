import Nl6.Lib.Delimited
import Nl6.Lib.Numeral

/-! # The grammar of RFC 5424 messages

What the productions of the RFC derive, as a collector sees it: `SyslogMsg` holds the parts of a
message, `IsSyslogMsg` the constraints of the productions on them, and `SyslogMsg.render` the bytes.
A text is a message in as many ways as there are parts that render to it, and there is at most one
(`IsSyslogMsg.unambiguous`).

A header field is kept as its token, so that NILVALUE is the token `-`. Octets of a parameter value
or a message are not restricted to UTF-8, as the production of UTF-8-STRING is `*OCTET`.
-/

namespace Nl6

open Numeral Delimited

/-! ### Characters -/

namespace Syslog

def sp : UInt8 := 32
def quote : UInt8 := 34
def plus : UInt8 := 43
def hyphen : UInt8 := 45
def colon : UInt8 := 58
def less : UInt8 := 60
def equal : UInt8 := 61
def greater : UInt8 := 62
def letterT : UInt8 := 84
def letterZ : UInt8 := 90
def open' : UInt8 := 91
def backslash : UInt8 := 92
def close : UInt8 := 93

/-- PRINTUSASCII. -/
def printUSASCII (c : UInt8) : Bool := 33 ≤ c.toNat && c.toNat ≤ 126

/-- The characters of an SD-NAME. -/
def sdNameChar (c : UInt8) : Bool := printUSASCII c && c != equal && c != close && c != quote

/-- NILVALUE. -/
def nilValue : Bytes := [hyphen]

/-- The characters escaped in a PARAM-VALUE. -/
def reserved (c : UInt8) : Bool := c == quote || c == backslash || c == close

end Syslog

open Syslog

/-! ### Parts and bytes -/

/-- SD-ELEMENT: an SD-ID and SD-PARAMs. -/
structure SDElement where
  id : Bytes
  params : List (Bytes × Bytes)
  deriving DecidableEq, Repr

/-- SYSLOG-MSG. No elements of structured data are NILVALUE; the MSG may be missing. -/
structure SyslogMsg where
  prival : Bytes
  version : Bytes
  timestamp : Bytes
  hostname : Bytes
  appName : Bytes
  procID : Bytes
  msgID : Bytes
  structuredData : List SDElement
  message : Option Bytes
  deriving DecidableEq, Repr

/-- SD-PARAM, behind its SP. -/
def renderParam (param : Bytes × Bytes) : Bytes :=
  sp :: (param.1 ++ equal :: quote :: (escape reserved backslash param.2 ++ [quote]))

def SDElement.render (element : SDElement) : Bytes :=
  open' :: (element.id ++ (element.params.flatMap renderParam ++ [close]))

/-- STRUCTURED-DATA. -/
def renderStructuredData : List SDElement → Bytes
  | [] => nilValue
  | elements => elements.flatMap SDElement.render

def renderMessage : Option Bytes → Bytes
  | none => []
  | some message => sp :: message

def SyslogMsg.render (m : SyslogMsg) : Bytes :=
  less :: (m.prival ++ greater :: (m.version ++ sp :: (m.timestamp ++ sp :: (m.hostname ++ sp ::
    (m.appName ++ sp :: (m.procID ++ sp :: (m.msgID ++ sp ::
      (renderStructuredData m.structuredData ++ renderMessage m.message))))))))

/-! ### Productions -/

/-- A number of a fixed width, in a range. -/
structure IsNumber (width low high : Nat) (s : Bytes) : Prop where
  width_eq : s.length = width
  digits : ∀ c ∈ s, isDigit c = true
  low_le : low ≤ readDigits s
  le_high : readDigits s ≤ high

/-- The days of a month of the Gregorian calendar. -/
def daysIn (year month : Nat) : Nat :=
  if month = 2 then (if year % 4 = 0 ∧ (year % 100 ≠ 0 ∨ year % 400 = 0) then 29 else 28)
  else if month = 4 ∨ month = 6 ∨ month = 9 ∨ month = 11 then 30 else 31

/-- TIME-OFFSET. -/
inductive IsOffset : Bytes → Prop where
  | utc : IsOffset [letterZ]
  | numeric {sign : UInt8} {hour minute : Bytes} (signed : sign = plus ∨ sign = hyphen)
      (isHour : IsNumber 2 0 23 hour) (isMinute : IsNumber 2 0 59 minute) :
      IsOffset (sign :: (hour ++ colon :: minute))

/-- TIME-SECFRAC, if there is one. -/
inductive IsFraction : Bytes → Prop where
  | none : IsFraction []
  | some {digits : Bytes} (nonempty : digits ≠ []) (short : digits.length ≤ 6)
      (digit : ∀ c ∈ digits, isDigit c = true) : IsFraction (dot :: digits)

/-- TIMESTAMP. -/
inductive IsTimestamp : Bytes → Prop where
  | nil : IsTimestamp nilValue
  | stamp {year month day hour minute second fraction offset : Bytes}
      (isYear : IsNumber 4 0 9999 year) (isMonth : IsNumber 2 1 12 month)
      (isDay : IsNumber 2 1 (daysIn (readDigits year) (readDigits month)) day)
      (isHour : IsNumber 2 0 23 hour) (isMinute : IsNumber 2 0 59 minute)
      (isSecond : IsNumber 2 0 59 second) (isFraction : IsFraction fraction)
      (isOffset : IsOffset offset) :
      IsTimestamp (year ++ hyphen :: (month ++ hyphen :: (day ++ letterT :: (hour ++ colon ::
        (minute ++ colon :: (second ++ (fraction ++ offset)))))))

/-- A header field of at most `max` characters. -/
inductive IsToken (max : Nat) : Bytes → Prop where
  | nil : IsToken max nilValue
  | token {s : Bytes} (nonempty : s ≠ []) (short : s.length ≤ max)
      (printable : ∀ c ∈ s, printUSASCII c = true) : IsToken max s

/-- SD-NAME. -/
structure IsSDName (s : Bytes) : Prop where
  nonempty : s ≠ []
  short : s.length ≤ 32
  chars : ∀ c ∈ s, sdNameChar c = true

/-- The names of an element. -/
def SDElement.Named (element : SDElement) : Prop :=
  IsSDName element.id ∧ ∀ param ∈ element.params, IsSDName param.1

/-- The productions of RFC 5424 on the parts of a message. -/
structure IsSyslogMsg (m : SyslogMsg) : Prop where
  prival_ne : m.prival ≠ []
  prival_short : m.prival.length ≤ 3
  prival_digits : ∀ c ∈ m.prival, isDigit c = true
  prival_le : readDigits m.prival ≤ 191
  version_first : ∃ first rest, m.version = first :: rest ∧ first ≠ 48
  version_short : m.version.length ≤ 3
  version_digits : ∀ c ∈ m.version, isDigit c = true
  timestamp : IsTimestamp m.timestamp
  hostname : IsToken 255 m.hostname
  appName : IsToken 48 m.appName
  procID : IsToken 128 m.procID
  msgID : IsToken 32 m.msgID
  elements : ∀ element ∈ m.structuredData, element.Named

/-! ### Unambiguity -/

theorem ne_sp_of_isDigit {c : UInt8} (digit : isDigit c = true) : c ≠ sp := by
  rintro rfl
  exact absurd digit (by decide)

variable {rest rest' s : Bytes} {elements elements' : List SDElement}
  {message message' : Option Bytes}

theorem IsNumber.ne_sp {width low high : Nat} (number : IsNumber width low high s) :
    ∀ c ∈ s, c ≠ sp :=
  fun c mem => ne_sp_of_isDigit (number.digits c mem)

theorem IsOffset.ne_sp (offset : IsOffset s) : ∀ c ∈ s, c ≠ sp := by
  cases offset with
  | utc => exact List.forall_mem_singleton.mpr (by decide)
  | numeric signed isHour isMinute =>
    have signNe : ∀ sign : UInt8, sign = plus ∨ sign = hyphen → sign ≠ sp := by
      rintro sign (rfl | rfl) <;> decide
    simp only [List.forall_mem_cons, List.forall_mem_append]
    exact ⟨signNe _ signed, isHour.ne_sp, by decide, isMinute.ne_sp⟩

theorem IsFraction.ne_sp (fraction : IsFraction s) : ∀ c ∈ s, c ≠ sp := by
  cases fraction with
  | none => exact fun c mem => absurd mem List.not_mem_nil
  | some nonempty short digit =>
    exact List.forall_mem_cons.mpr ⟨by decide, fun c mem => ne_sp_of_isDigit (digit c mem)⟩

theorem IsTimestamp.ne_sp (timestamp : IsTimestamp s) : ∀ c ∈ s, c ≠ sp := by
  cases timestamp with
  | nil => exact List.forall_mem_singleton.mpr (by decide)
  | stamp isYear isMonth isDay isHour isMinute isSecond isFraction isOffset =>
    simp only [List.forall_mem_cons, List.forall_mem_append]
    exact ⟨isYear.ne_sp, by decide, isMonth.ne_sp, by decide, isDay.ne_sp, by decide,
      isHour.ne_sp, by decide, isMinute.ne_sp, by decide, isSecond.ne_sp, isFraction.ne_sp,
      isOffset.ne_sp⟩

theorem IsToken.printable {max : Nat} (token : IsToken max s) : ∀ c ∈ s, printUSASCII c = true := by
  cases token with
  | nil => exact List.forall_mem_singleton.mpr (by decide)
  | token nonempty short printable => exact printable

theorem IsToken.ne_sp {max : Nat} (token : IsToken max s) : ∀ c ∈ s, c ≠ sp := by
  rintro c mem rfl
  exact absurd (token.printable sp mem) (by decide)

theorem renderParam_inj {param param' : Bytes × Bytes} (name : IsSDName param.1)
    (name' : IsSDName param'.1) (same : renderParam param ++ rest = renderParam param' ++ rest') :
    param = param' ∧ rest = rest' := by
  simp only [renderParam, List.cons_append, List.append_assoc, List.cons.injEq, true_and] at same
  obtain ⟨sameName, -, same⟩ := run_inj name.chars name'.chars (by decide) (by decide) same
  obtain ⟨sameValue, same⟩ := escape_inj (by decide) (by decide) (by decide) (List.cons.inj same).2
  exact ⟨Prod.ext sameName sameValue, same⟩

theorem renderParams_inj {params params' : List (Bytes × Bytes)}
    (names : ∀ param ∈ params, IsSDName param.1) (names' : ∀ param ∈ params', IsSDName param.1)
    (same : params.flatMap renderParam ++ close :: rest =
      params'.flatMap renderParam ++ close :: rest') : params = params' ∧ rest = rest' := by
  induction params generalizing params' with
  | nil =>
    cases params' with
    | nil => exact ⟨rfl, (List.cons.inj same).2⟩
    | cons param' params' => exact absurd (List.cons.inj same).1 (by decide)
  | cons param params ih =>
    cases params' with
    | nil => exact absurd (List.cons.inj same).1 (by decide)
    | cons param' params' =>
      obtain ⟨name, later⟩ := List.forall_mem_cons.mp names
      obtain ⟨name', later'⟩ := List.forall_mem_cons.mp names'
      rw [List.flatMap_cons, List.flatMap_cons, List.append_assoc, List.append_assoc] at same
      obtain ⟨sameParam, sameTail⟩ := renderParam_inj name name' same
      obtain ⟨sameParams, sameRest⟩ := ih later later' sameTail
      exact ⟨by rw [sameParam, sameParams], sameRest⟩

theorem SDElement.render_inj {element element' : SDElement} (named : element.Named)
    (named' : element'.Named) (same : element.render ++ rest = element'.render ++ rest') :
    element = element' ∧ rest = rest' := by
  -- Behind the SD-ID stands the SP of a parameter or the closing bracket.
  have ends : ∀ (params : List (Bytes × Bytes)) (rest : Bytes), ∃ stop more,
      params.flatMap renderParam ++ close :: rest = stop :: more ∧ ¬ sdNameChar stop = true := by
    intro params rest
    cases params with
    | nil => exact ⟨close, rest, rfl, by decide⟩
    | cons param params => exact ⟨sp, _, rfl, by decide⟩
  simp only [render, List.cons_append, List.append_assoc, List.cons.injEq, true_and,
    List.nil_append] at same
  obtain ⟨stop, more, split, outside⟩ := ends element.params rest
  obtain ⟨stop', more', split', outside'⟩ := ends element'.params rest'
  rw [split, split'] at same
  obtain ⟨sameId, sameStop, sameMore⟩ := run_inj named.1.chars named'.1.chars outside outside' same
  rw [sameStop, sameMore, ← split'] at split
  obtain ⟨sameParams, sameRest⟩ := renderParams_inj named.2 named'.2 split
  refine ⟨?_, sameRest⟩
  cases element
  cases element'
  exact congrArg₂ SDElement.mk sameId sameParams

theorem renderElements_inj (named : ∀ element ∈ elements, element.Named)
    (named' : ∀ element ∈ elements', element.Named)
    (same : elements.flatMap SDElement.render ++ renderMessage message =
      elements'.flatMap SDElement.render ++ renderMessage message') :
    elements = elements' ∧ renderMessage message = renderMessage message' := by
  -- Elements start with a bracket, what follows them with an SP or not at all.
  have apart : ∀ (element : SDElement) (rest : Bytes) (message : Option Bytes),
      element.render ++ rest ≠ renderMessage message := by
    intro element rest message equal
    cases message with
    | none => exact absurd equal (by simp [SDElement.render, renderMessage])
    | some message => exact absurd (List.cons.inj equal).1 (by decide)
  induction elements generalizing elements' with
  | nil =>
    cases elements' with
    | nil => exact ⟨rfl, same⟩
    | cons element' elements' =>
      rw [List.flatMap_cons, List.append_assoc] at same
      exact absurd same.symm (apart element' _ message)
  | cons element elements ih =>
    cases elements' with
    | nil =>
      rw [List.flatMap_cons, List.append_assoc] at same
      exact absurd same (apart element _ message')
    | cons element' elements' =>
      obtain ⟨here, later⟩ := List.forall_mem_cons.mp named
      obtain ⟨here', later'⟩ := List.forall_mem_cons.mp named'
      rw [List.flatMap_cons, List.flatMap_cons, List.append_assoc, List.append_assoc] at same
      obtain ⟨sameElement, sameTail⟩ := SDElement.render_inj here here' same
      obtain ⟨sameElements, sameMessage⟩ := ih later later' sameTail
      exact ⟨by rw [sameElement, sameElements], sameMessage⟩

theorem renderMessage_injective : Function.Injective renderMessage := by
  intro message message' same
  cases message with
  | none =>
    cases message' with
    | none => rfl
    | some body' => exact absurd same (List.cons_ne_nil _ _).symm
  | some body =>
    cases message' with
    | none => exact absurd same (List.cons_ne_nil _ _)
    | some body' => rw [(List.cons.inj same).2]

theorem renderStructuredData_inj (named : ∀ element ∈ elements, element.Named)
    (named' : ∀ element ∈ elements', element.Named)
    (same : renderStructuredData elements ++ renderMessage message =
      renderStructuredData elements' ++ renderMessage message') :
    elements = elements' ∧ message = message' := by
  cases elements with
  | nil =>
    cases elements' with
    | nil => exact ⟨rfl, renderMessage_injective (List.cons.inj same).2⟩
    | cons element' elements' => exact absurd (List.cons.inj same).1 (by decide)
  | cons element elements =>
    cases elements' with
    | nil => exact absurd (List.cons.inj same).1 (by decide)
    | cons element' elements' =>
      obtain ⟨sameElements, sameMessage⟩ := renderElements_inj named named' same
      exact ⟨sameElements, renderMessage_injective sameMessage⟩

/-- **The grammar is unambiguous.** A text is a message in at most one way. -/
theorem IsSyslogMsg.unambiguous {m m' : SyslogMsg} (is : IsSyslogMsg m) (is' : IsSyslogMsg m')
    (same : m.render = m'.render) : m = m' := by
  simp only [SyslogMsg.render, List.cons.injEq, true_and] at same
  obtain ⟨prival, -, afterPri⟩ :=
    run_inj is.prival_digits is'.prival_digits (by decide) (by decide) same
  obtain ⟨version, -, afterVersion⟩ :=
    run_inj is.version_digits is'.version_digits (by decide) (by decide) afterPri
  obtain ⟨timestamp, -, afterTimestamp⟩ :=
    run_inj is.timestamp.ne_sp is'.timestamp.ne_sp (by simp) (by simp) afterVersion
  obtain ⟨hostname, -, afterHostname⟩ :=
    run_inj is.hostname.ne_sp is'.hostname.ne_sp (by simp) (by simp) afterTimestamp
  obtain ⟨appName, -, afterAppName⟩ :=
    run_inj is.appName.ne_sp is'.appName.ne_sp (by simp) (by simp) afterHostname
  obtain ⟨procID, -, afterProcID⟩ :=
    run_inj is.procID.ne_sp is'.procID.ne_sp (by simp) (by simp) afterAppName
  obtain ⟨msgID, -, afterMsgID⟩ :=
    run_inj is.msgID.ne_sp is'.msgID.ne_sp (by simp) (by simp) afterProcID
  obtain ⟨structuredData, message⟩ :=
    renderStructuredData_inj is.elements is'.elements afterMsgID
  cases m
  cases m'
  simp_all only

end Nl6
