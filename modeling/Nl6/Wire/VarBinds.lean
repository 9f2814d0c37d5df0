import Nl6.Wire.OidCodec

/-! # Variable-bindings lists

`parseVarBinds` and `parseVarBindNames` walk the list of a request, with and without its values.
`IsVarBinds` is the grammar of such a list. Both walkers are proved against it: they return on every
buffer, what they accept is well formed, and they accept every well-formed list
(`parseVarBinds_spec`, `parseVarBinds_at`, `parseVarBindNames_eq`, and `varBinds_walkers_exact` as a
whole).
-/

namespace Nl6

open Numeral Checked Ber

/-- `snmpVarBind`: a binding of a request with its value kept. -/
structure SnmpVarBind where
  name : Bytes
  tag : UInt8
  content : Bytes
  deriving DecidableEq, Repr

/-- What a list walker reports: the list was never reached, it is malformed, or its contents. -/
inductive ListResult (α : Type) where
  | absent
  | malformed
  | parsed (result : α)
  deriving DecidableEq, Repr

/-- One round of the loop of `parseVarBinds`: the binding at the cursor and the cursor behind it. -/
def readVarBind (data : Bytes) (stop pos : Int) : Checked (Option (SnmpVarBind × Int)) := do
  let first ← index data pos
  if first ≠ asn1Sequence then return none
  let (vbLen, newPos) ← parseLength data (pos + 1)
  if vbLen < 0 then return none
  let pos := newPos
  if vbLen > stop - pos then return none
  let nextVarBind := pos + vbLen
  if pos ≥ nextVarBind then return none
  let nameTag ← index data pos
  if nameTag ≠ asn1ObjectID then return none
  let (oidLen, newPos) ← parseLength data (pos + 1)
  if oidLen < 0 ∨ oidLen > nextVarBind - newPos then return none
  let oid ← decodeOID (← slice data newPos (newPos + oidLen))
  if oid = [] then return none
  let pos := newPos + oidLen
  if pos ≥ nextVarBind then return none
  let tag ← index data pos
  let (valLen, newPos) ← parseLength data (pos + 1)
  if valLen < 0 ∨ valLen > nextVarBind - newPos ∨ newPos + valLen ≠ nextVarBind then return none
  let content ← slice data newPos nextVarBind
  return some (⟨oid, tag, content⟩, nextVarBind)

/-- The loop of `parseVarBinds`. -/
def varBindsLoop (data : Bytes) (stop : Int) : Nat → Int → Checked (Option (List SnmpVarBind))
  | 0, _ => .error .outOfFuel
  | fuel + 1, pos => do
      if pos < stop then
        match ← readVarBind data stop pos with
        | none => return none
        | some (bind, next) => return (← varBindsLoop data stop fuel next).map (bind :: ·)
      else return some []

/-- `parseVarBinds`: the bindings of the list at the cursor and the list's contents. -/
def parseVarBinds (data : Bytes) (pos : Int) : Checked (ListResult (List SnmpVarBind × Bytes)) := do
  if pos ≥ data.length then return .absent
  let tag ← index data pos
  if tag ≠ asn1Sequence then return .absent
  let (vbListLen, newPos) ← parseLength data (pos + 1)
  if vbListLen < 0 then return .absent
  let pos := newPos
  if vbListLen > data.length - pos then return .malformed
  let stop := pos + vbListLen
  let contents ← slice data pos stop
  match ← varBindsLoop data stop (data.length + 1) pos with
  | none => return .malformed
  | some binds => return .parsed (binds, contents)

/-- One round of the loop of `parseVarBindNames`. The value is checked for its shape and dropped. -/
def readVarBindName (data : Bytes) (stop pos : Int) : Checked (Option (Bytes × Int)) := do
  let first ← index data pos
  if first ≠ asn1Sequence then return none
  let (vbLen, newPos) ← parseLength data (pos + 1)
  if vbLen < 0 then return none
  let pos := newPos
  let nextVarBind := pos + vbLen
  if nextVarBind > stop then return none
  if pos ≥ nextVarBind then return none
  let nameTag ← index data pos
  if nameTag ≠ asn1ObjectID then return none
  let (oidLen, newPos) ← parseLength data (pos + 1)
  if oidLen < 0 ∨ newPos + oidLen > nextVarBind then return none
  let oid ← decodeOID (← slice data newPos (newPos + oidLen))
  if oid = [] then return none
  let pos := newPos + oidLen
  if pos ≥ nextVarBind then return none
  let (valLen, newPos) ← parseLength data (pos + 1)
  if valLen < 0 ∨ newPos + valLen ≠ nextVarBind then return none
  return some (oid, nextVarBind)

/-- The loop of `parseVarBindNames`. -/
def varBindNamesLoop (data : Bytes) (stop : Int) : Nat → Int → Checked (Option (List Bytes))
  | 0, _ => .error .outOfFuel
  | fuel + 1, pos => do
      if pos < stop then
        match ← readVarBindName data stop pos with
        | none => return none
        | some (oid, next) => return (← varBindNamesLoop data stop fuel next).map (oid :: ·)
      else return some []

/-- `parseVarBindNames`: the names of the list at the cursor, none of them when the list is empty or
was never reached, or nothing when it is malformed. -/
def parseVarBindNames (data : Bytes) (pos : Int) : Checked (Option (List Bytes)) := do
  if pos ≥ data.length then return some []
  let tag ← index data pos
  if tag ≠ asn1Sequence then return some []
  let (vbListLen, newPos) ← parseLength data (pos + 1)
  if vbListLen < 0 then return some []
  let pos := newPos
  let stop := pos + vbListLen
  if stop > data.length then return none
  varBindNamesLoop data stop (data.length + 1) pos

/-! ### The grammar -/

/-- The bytes are one binding: a SEQUENCE of a name and a value of any tag. -/
def IsVarBind (bind : SnmpVarBind) (bytes : Bytes) : Prop :=
  ∃ body nameBytes valueBytes arcs, IsTlv asn1ObjectID body nameBytes ∧
    decodeArcs body = some arcs ∧ bind.name = dotted arcs ∧
    IsTlv bind.tag bind.content valueBytes ∧ IsTlv asn1Sequence (nameBytes ++ valueBytes) bytes

inductive IsVarBinds : List SnmpVarBind → Bytes → Prop where
  | nil : IsVarBinds [] []
  | cons {bind : SnmpVarBind} {binds : List SnmpVarBind} {bytes rest : Bytes}
      (first : IsVarBind bind bytes) (more : IsVarBinds binds rest) :
      IsVarBinds (bind :: binds) (bytes ++ rest)

variable {bytes data rest : Bytes} {binds : List SnmpVarBind} {pos stop : Int} {fuel : Nat}

theorem IsVarBind.ne_nil {bind : SnmpVarBind} (binding : IsVarBind bind bytes) : bytes ≠ [] := by
  obtain ⟨-, -, -, -, -, -, -, -, -, -, rfl⟩ := binding
  simp

theorem IsVarBinds.isOID (bindings : IsVarBinds binds bytes) : ∀ bind ∈ binds, IsOID bind.name := by
  induction bindings with
  | nil => simp
  | cons first _ ih =>
    obtain ⟨_, _, _, arcs, _, decoded, named, _⟩ := first
    rintro bind (_ | ⟨_, member⟩)
    · rw [named]
      exact isOID_of_decodeArcs decoded
    · exact ih bind member

/-! ### One binding -/

theorem readVarBind_at {bind : SnmpVarBind} (here : At data pos (bytes ++ rest))
    (binding : IsVarBind bind bytes) (inside : pos + bytes.length ≤ stop) :
    readVarBind data stop pos = .ok (some (bind, pos + bytes.length)) := by
  obtain ⟨body, nameBytes, valueBytes, arcs, name, decoded, named, value, whole⟩ := binding
  obtain ⟨inner, tagRead, lengthRead, -, innerAt, innerEnd⟩ := element_at here whole
  rw [List.length_append] at lengthRead innerEnd
  rw [List.append_assoc] at innerAt
  obtain ⟨nameBody, nameTag, nameLength, nameOnward, nameAt, nameEnd⟩ := element_at innerAt name
  obtain ⟨valueBody, valueTag, valueLength, valueOnward, valueAt, valueEnd⟩ :=
    element_at innerAt.advance value
  have fits : ¬ ((nameBytes.length + valueBytes.length : Nat) : Int) > stop - inner := by omega
  have started : ¬ inner ≥ pos + bytes.length := by omega
  have nameFits : ¬ (body.length : Int) > pos + bytes.length - nameBody := by omega
  have valued : ¬ nameBody + body.length ≥ pos + bytes.length := by omega
  have valueFits : ¬ (bind.content.length : Int) > pos + bytes.length - valueBody := by omega
  have exact_end : valueBody + (bind.content.length : Int) = pos + bytes.length := by omega
  have oid : decodeOID body = .ok bind.name := by
    rw [decodeOID_eq, decoded, named, Option.elim_some]
  have someName : bind.name ≠ [] := by simpa [named] using decodeArcs_ne_nil decoded
  have contentSlice : slice data valueBody (pos + bytes.length) = .ok bind.content :=
    exact_end ▸ valueAt.slice
  rw [← nameEnd] at valueTag valueLength
  simp only [readVarBind, tagRead, ok_bind, ne_eq, not_true_eq_false, ↓reduceIte, lengthRead,
    Int.natCast_nonneg, not_lt.mpr, fits, innerEnd, started, nameTag, nameLength, nameFits, or_self,
    nameAt.slice, oid, someName, valued, valueTag, valueLength, valueFits, exact_end, contentSlice,
    pure_eq_ok]

/-- **One binding.** Inside the list the reader returns on every buffer, and a binding it reports is
one. -/
theorem readVarBind_spec (nonneg : 0 ≤ pos) (inside : pos < stop) (bounded : stop ≤ data.length) :
    Yields (readVarBind data stop pos) fun result => ∀ bind next, result = some (bind, next) →
      ∃ bytes rest, At data pos (bytes ++ rest) ∧ IsVarBind bind bytes ∧
        next = pos + bytes.length ∧ next ≤ stop := by
  obtain ⟨first, behind, here⟩ := At.of_lt nonneg (inside.trans_le bounded)
  rw [readVarBind, here.index, ok_bind]
  refine Yields.guard nofun fun isSequence => ?_
  refine (element_spec here).bind ?_
  rintro ⟨vbLen, inner⟩ ⟨onward, innerInside, read⟩
  refine Yields.guard nofun fun natural => ?_
  refine Yields.guard nofun fun fits => ?_
  refine Yields.guard nofun fun nonempty => ?_
  obtain ⟨contents, bytes, rest, counted, whole, bytesAt, contentsAt, bytesEnd⟩ :=
    (read.resolve_left (by omega)).2.2 (by omega)
  obtain ⟨nameTag, nameBehind, nameHere⟩ :=
    At.of_lt (by omega) (show inner < data.length by omega)
  refine (Yields.of_eq nameHere.index).bind ?_
  rintro _ rfl
  refine Yields.guard nofun fun isName => ?_
  refine (element_spec nameHere).bind ?_
  rintro ⟨oidLen, nameBody⟩ ⟨nameOnward, nameInside, nameRead⟩
  refine Yields.guard nofun fun nameFits => ?_
  obtain ⟨body, nameBytes, nameRest, nameCounted, name, nameBytesAt, bodyAt, nameEnd⟩ :=
    (nameRead.resolve_left (by omega)).2.2 (by omega)
  have bodySlice : slice data nameBody (nameBody + oidLen) = .ok body := nameCounted ▸ bodyAt.slice
  refine (Yields.of_eq bodySlice).bind ?_
  rintro _ rfl
  refine (Yields.of_eq (decodeOID_eq body)).bind ?_
  rintro _ rfl
  refine Yields.guard nofun fun named => ?_
  refine Yields.guard nofun fun valued => ?_
  obtain ⟨tag, valueBehind, valueHere⟩ :=
    At.of_lt (by omega) (show nameBody + oidLen < data.length by omega)
  refine (Yields.of_eq valueHere.index).bind ?_
  rintro _ rfl
  refine (element_spec valueHere).bind ?_
  rintro ⟨valLen, valueBody⟩ ⟨valueOnward, valueInside, valueRead⟩
  refine Yields.guard nofun fun valueFits => ?_
  obtain ⟨content, valueBytes, valueRest, valueCounted, value, valueBytesAt, contentAt, valueEnd⟩ :=
    (valueRead.resolve_left (by omega)).2.2 (by omega)
  have contentSlice : slice data valueBody (inner + vbLen) = .ok content := by
    have ends : inner + vbLen = valueBody + content.length := by omega
    rw [ends]
    exact contentAt.slice
  refine (Yields.of_eq contentSlice).bind ?_
  rintro _ rfl
  refine Yields.ok ?_
  rintro bind next ⟨⟩
  obtain ⟨arcs, decoded⟩ : ∃ arcs, decodeArcs body = some arcs := by
    refine Option.ne_none_iff_exists'.mp fun refused => named ?_
    rw [refused, Option.elim_none]
  have nameRest_eq : nameRest = valueBytes ++ valueRest :=
    nameBytesAt.advance.unique (nameEnd ▸ valueBytesAt)
  rw [nameRest_eq, ← List.append_assoc] at nameBytesAt
  have split : contents = nameBytes ++ valueBytes := by
    refine (contentsAt.append_inj nameBytesAt ?_).1
    rw [List.length_append]
    omega
  rw [not_not.mp isSequence, split] at whole
  rw [not_not.mp isName] at name
  refine ⟨bytes, rest, bytesAt, ⟨body, nameBytes, valueBytes, arcs, name, decoded, ?_, value, whole⟩,
    bytesEnd, by omega⟩
  rw [decoded, Option.elim_some]

/-- The two rounds read the same bindings. -/
theorem readVarBindName_eq (nonneg : 0 ≤ pos) (inside : pos < stop) (bounded : stop ≤ data.length) :
    readVarBindName data stop pos =
      (Option.map fun (bind, next) => (bind.name, next)) <$> readVarBind data stop pos := by
  obtain ⟨first, behind, here⟩ := At.of_lt nonneg (inside.trans_le bounded)
  obtain ⟨⟨vbLen, inner⟩, lengthRead, onward, innerInside, -⟩ := element_spec here
  simp only [readVarBind, readVarBindName, here.index, ok_bind, lengthRead]
  by_cases notSequence : first ≠ asn1Sequence
  · simp [notSequence]
  by_cases unread : vbLen < 0
  · simp [notSequence, unread]
  by_cases overrun : vbLen > stop - inner
  · simp [notSequence, unread, overrun, show inner + vbLen > stop by omega]
  by_cases empty : inner ≥ inner + vbLen
  · simp [notSequence, unread, overrun, show ¬ inner + vbLen > stop by omega, empty]
  obtain ⟨nameTag, nameBehind, nameHere⟩ :=
    At.of_lt (by omega) (show inner < data.length by omega)
  obtain ⟨⟨oidLen, nameBody⟩, nameRead, nameOnward, nameInside, -⟩ := element_spec nameHere
  simp only [notSequence, unread, overrun, show ¬ inner + vbLen > stop by omega, empty, ↓reduceIte,
    nameHere.index, ok_bind, nameRead]
  by_cases notName : nameTag ≠ asn1ObjectID
  · simp [notName]
  by_cases nameOverrun : oidLen < 0 ∨ oidLen > inner + vbLen - nameBody
  · simp [notName, nameOverrun, show oidLen < 0 ∨ nameBody + oidLen > inner + vbLen by omega]
  obtain ⟨body, bodySlice, -⟩ := Yields.slice (by omega)
    (show nameBody ≤ nameBody + oidLen by omega) (show nameBody + oidLen ≤ data.length by omega)
  simp only [notName, nameOverrun, show ¬ (oidLen < 0 ∨ nameBody + oidLen > inner + vbLen) by omega,
    ↓reduceIte, bodySlice, ok_bind, decodeOID_eq]
  by_cases unnamed : (decodeArcs body).elim [] dotted = []
  · simp [unnamed]
  by_cases valueless : nameBody + oidLen ≥ inner + vbLen
  · simp [unnamed, valueless]
  obtain ⟨tag, valueBehind, valueHere⟩ :=
    At.of_lt (by omega) (show nameBody + oidLen < data.length by omega)
  obtain ⟨⟨valLen, valueBody⟩, valueRead, valueOnward, valueInside, -⟩ := element_spec valueHere
  simp only [unnamed, valueless, ↓reduceIte, valueHere.index, ok_bind, valueRead]
  by_cases misfit : valLen < 0 ∨ valueBody + valLen ≠ inner + vbLen
  · simp [misfit, show valLen < 0 ∨ valLen > inner + vbLen - valueBody ∨
      valueBody + valLen ≠ inner + vbLen by omega]
  · obtain ⟨content, contentSlice, -⟩ := Yields.slice (by omega)
      (show valueBody ≤ inner + vbLen by omega) (show inner + vbLen ≤ data.length by omega)
    simp [misfit, show ¬ (valLen < 0 ∨ valLen > inner + vbLen - valueBody ∨
      valueBody + valLen ≠ inner + vbLen) by omega, contentSlice]

/-! ### The loops -/

theorem varBindsLoop_at (here : At data pos (bytes ++ rest)) (bindings : IsVarBinds binds bytes)
    (ends : pos + bytes.length = stop) (enough : bytes.length < fuel) :
    varBindsLoop data stop fuel pos = .ok (some binds) := by
  induction bindings generalizing pos fuel with
  | nil =>
    obtain ⟨fuel, rfl⟩ : ∃ k, fuel = k + 1 := ⟨fuel - 1, by omega⟩
    have finished : ¬ pos < stop := by
      simp only [List.length_nil, Nat.cast_zero] at ends
      omega
    simp [varBindsLoop, finished]
  | @cons bind binds bytes more first _ ih =>
    obtain ⟨fuel, rfl⟩ : ∃ k, fuel = k + 1 := ⟨fuel - 1, by omega⟩
    rw [List.append_assoc] at here
    rw [List.length_append] at ends enough
    have positive := List.length_pos_iff.mpr first.ne_nil
    have goesOn : pos < stop := by omega
    have followed := ih here.advance (by omega) (show more.length < fuel by omega)
    have read := readVarBind_at here first (show pos + bytes.length ≤ stop by omega)
    simp [varBindsLoop, goesOn, read, followed]

/-- **The list loop.** It returns on every buffer, and what it accepts is a run of bindings that
fills the list. -/
theorem varBindsLoop_spec (nonneg : 0 ≤ pos) (inside : pos ≤ stop) (bounded : stop ≤ data.length)
    (enough : (stop - pos).toNat < fuel) :
    Yields (varBindsLoop data stop fuel pos) fun result => ∀ binds, result = some binds →
      ∃ bytes rest, At data pos (bytes ++ rest) ∧ IsVarBinds binds bytes ∧
        pos + bytes.length = stop := by
  induction fuel generalizing pos with
  | zero => omega
  | succ fuel ih =>
    rw [varBindsLoop]
    refine Yields.ite (fun goesOn => ?_) fun finished => Yields.ok ?_
    · refine (readVarBind_spec nonneg goesOn bounded).andThen (Yields.ok nofun) ?_
      rintro ⟨bind, next⟩ read
      obtain ⟨bytes, rest, here, first, moved, nextInside⟩ := read bind next rfl
      have positive := List.length_pos_iff.mpr first.ne_nil
      refine (ih (by omega) nextInside (by omega)).bind ?_
      intro tail followed
      refine Yields.ok ?_
      rintro binds found
      obtain ⟨more, rfl, rfl⟩ := Option.map_eq_some_iff.mp found
      obtain ⟨moreBytes, moreRest, moreHere, moreBindings, moreEnds⟩ := followed more rfl
      subst moved
      have restEq := here.advance.unique moreHere
      subst restEq
      refine ⟨bytes ++ moreBytes, moreRest, by simpa using here, .cons first moreBindings, ?_⟩
      rw [List.length_append]
      omega
    · rintro binds ⟨⟩
      have here := At.of_le nonneg (show pos ≤ data.length by omega)
      exact ⟨[], _, here, .nil, by simp; omega⟩

theorem varBindNamesLoop_eq (nonneg : 0 ≤ pos) (bounded : stop ≤ data.length) :
    varBindNamesLoop data stop fuel pos =
      (Option.map (List.map SnmpVarBind.name)) <$> varBindsLoop data stop fuel pos := by
  induction fuel generalizing pos with
  | zero => rfl
  | succ fuel ih =>
    rw [varBindNamesLoop, varBindsLoop]
    by_cases goesOn : pos < stop
    · obtain ⟨result, returned, read⟩ := readVarBind_spec nonneg goesOn bounded
      simp only [goesOn, ↓reduceIte, readVarBindName_eq nonneg goesOn bounded, returned, map_ok,
        ok_bind]
      cases result with
      | none => rfl
      | some found =>
        obtain ⟨bind, next⟩ := found
        obtain ⟨bytes, rest, here, -, rfl, -⟩ := read bind next rfl
        have moved := ih (show 0 ≤ pos + (bytes.length : Int) by omega)
        cases followed : varBindsLoop data stop fuel (pos + bytes.length) with
        | error fault => simp [moved, followed]
        | ok tail => cases tail <;> simp [moved, followed]
    · simp [goesOn]

/-! ### The walkers -/

/-- A well-formed list at the cursor is read, whatever follows it. -/
theorem parseVarBinds_at {contents : Bytes} (here : At data pos (bytes ++ rest))
    (list : IsTlv asn1Sequence contents bytes) (bindings : IsVarBinds binds contents) :
    parseVarBinds data pos = .ok (.parsed (binds, contents)) := by
  obtain ⟨body, tagRead, lengthRead, onward, contentsAt, ends⟩ := element_at here list
  have nonneg := here.nonneg
  have total := contentsAt.length_eq
  rw [List.length_append] at total
  have inside : ¬ pos ≥ data.length := by omega
  have fits : ¬ (contents.length : Int) > data.length - body := by omega
  have looped := varBindsLoop_at contentsAt bindings rfl
    (show contents.length < data.length + 1 by omega)
  simp [parseVarBinds, inside, tagRead, lengthRead, not_lt.mpr, fits,
    contentsAt.slice, looped]

/-- **The walker with values.** It returns on every buffer, and a list it accepts is well formed. -/
theorem parseVarBinds_spec (data : Bytes) (nonneg : 0 ≤ pos) :
    Yields (parseVarBinds data pos) fun result => ∀ binds contents,
      result = .parsed (binds, contents) → ∃ bytes rest, At data pos (bytes ++ rest) ∧
        IsTlv asn1Sequence contents bytes ∧ IsVarBinds binds contents := by
  rw [parseVarBinds]
  refine Yields.guard nofun fun inside => ?_
  obtain ⟨tag, behind, here⟩ := At.of_lt nonneg (not_le.mp inside)
  refine (Yields.of_eq here.index).bind ?_
  rintro _ rfl
  refine Yields.guard nofun fun isSequence => ?_
  refine (element_spec here).bind ?_
  rintro ⟨listLen, body⟩ ⟨onward, bodyInside, read⟩
  refine Yields.guard nofun fun natural => ?_
  refine Yields.guard nofun fun fits => ?_
  obtain ⟨contents, bytes, rest, counted, list, bytesAt, contentsAt, ends⟩ :=
    (read.resolve_left (by omega)).2.2 (by omega)
  have contentsSlice : slice data body (body + listLen) = .ok contents := counted ▸ contentsAt.slice
  refine (Yields.of_eq contentsSlice).bind ?_
  rintro _ rfl
  refine (varBindsLoop_spec (by omega) (show body ≤ body + listLen by omega)
    (show body + listLen ≤ data.length by omega) (by omega)).bind ?_
  rintro (_ | binds) looped
  · exact Yields.ok nofun
  · refine Yields.ok ?_
    rintro _ _ ⟨⟩
    obtain ⟨read, more, readAt, bindings, readEnds⟩ := looped binds rfl
    obtain ⟨rfl, -⟩ := readAt.append_inj contentsAt (by omega)
    rw [not_not.mp isSequence] at list
    exact ⟨bytes, rest, bytesAt, list, bindings⟩

/-- The names a list result has: none when the list was not reached, nothing when malformed. -/
def ListResult.names : ListResult (List SnmpVarBind × Bytes) → Option (List Bytes)
  | .absent => some []
  | .malformed => none
  | .parsed (binds, _) => some (binds.map SnmpVarBind.name)

/-- **The walkers agree.** The walker without values reports the names of the walker with values. -/
theorem parseVarBindNames_eq (data : Bytes) (nonneg : 0 ≤ pos) :
    parseVarBindNames data pos = ListResult.names <$> parseVarBinds data pos := by
  rw [parseVarBindNames, parseVarBinds]
  by_cases inside : pos ≥ data.length
  · simp [inside, ListResult.names]
  obtain ⟨tag, behind, here⟩ := At.of_lt nonneg (not_le.mp inside)
  obtain ⟨⟨listLen, body⟩, lengthRead, onward, bodyInside, -⟩ := element_spec here
  simp only [inside, ↓reduceIte, here.index, ok_bind, lengthRead]
  by_cases notSequence : tag ≠ asn1Sequence
  · simp [notSequence, ListResult.names]
  by_cases unread : listLen < 0
  · simp [notSequence, unread, ListResult.names]
  by_cases overrun : listLen > data.length - body
  · simp [notSequence, unread, overrun, show body + listLen > data.length by omega,
      ListResult.names]
  obtain ⟨contents, contentsSlice, -⟩ := Yields.slice (show 0 ≤ body by omega)
    (show body ≤ body + listLen by omega) (show body + listLen ≤ data.length by omega)
  simp only [notSequence, unread, overrun, show ¬ body + listLen > data.length by omega, ↓reduceIte,
    contentsSlice, ok_bind, varBindNamesLoop_eq (show 0 ≤ body by omega)
      (show body + listLen ≤ data.length by omega)]
  cases varBindsLoop data (body + listLen) (data.length + 1) body with
  | error fault => rfl
  | ok result => cases result <;> simp [ListResult.names]

theorem parseVarBindNames_spec (data : Bytes) (nonneg : 0 ≤ pos) :
    Yields (parseVarBindNames data pos) fun result =>
      ∀ names, result = some names → ∀ name ∈ names, IsOID name := by
  obtain ⟨result, returned, spec⟩ := parseVarBinds_spec data nonneg
  rw [parseVarBindNames_eq data nonneg, returned, map_ok]
  refine Yields.ok fun names found name member => ?_
  cases result with
  | absent =>
    cases found
    simp at member
  | malformed => exact absurd found nofun
  | parsed result =>
    obtain ⟨binds, contents⟩ := result
    obtain ⟨-, -, -, -, bindings⟩ := spec binds contents rfl
    cases found
    obtain ⟨bind, inside, rfl⟩ := List.mem_map.mp member
    exact bindings.isOID bind inside

/-! ### The grammar in the words of the readers -/

/-- A SEQUENCE of exactly one name that `decodeOID` accepts and exactly one value. -/
def IsBinding (bind : SnmpVarBind) (bytes : Bytes) : Prop :=
  ∃ body nameBytes valueBytes, IsTlv asn1ObjectID body nameBytes ∧ decodeOID body = .ok bind.name ∧
    bind.name ≠ [] ∧ IsTlv bind.tag bind.content valueBytes ∧
    IsTlv asn1Sequence (nameBytes ++ valueBytes) bytes

/-- The bytes at the cursor are the list: a SEQUENCE that fits the buffer, whose contents are the
bindings one after the other. -/
def IsVarBindList (data : Bytes) (pos : Nat) (binds : List SnmpVarBind) (contents : Bytes) : Prop :=
  ∃ front bytes rest, data = front ++ bytes ++ rest ∧ front.length = pos ∧
    IsTlv asn1Sequence contents bytes ∧
    ∃ parts, List.Forall₂ IsBinding binds parts ∧ contents = parts.flatten

theorem isVarBind_iff (bind : SnmpVarBind) (bytes : Bytes) :
    IsVarBind bind bytes ↔ IsBinding bind bytes := by
  constructor
  · rintro ⟨body, nameBytes, valueBytes, arcs, name, decoded, named, value, whole⟩
    refine ⟨body, nameBytes, valueBytes, name, ?_, ?_, value, whole⟩
    · rw [decodeOID_eq, decoded, named, Option.elim_some]
    · simpa [named] using decodeArcs_ne_nil decoded
  · rintro ⟨body, nameBytes, valueBytes, name, accepted, nonempty, value, whole⟩
    rw [decodeOID_eq] at accepted
    have named := Except.ok.inj accepted
    cases decoded : decodeArcs body with
    | none =>
      rw [decoded, Option.elim_none] at named
      exact absurd named.symm nonempty
    | some arcs =>
      rw [decoded, Option.elim_some] at named
      exact ⟨body, nameBytes, valueBytes, arcs, name, decoded, named.symm, value, whole⟩

theorem isVarBinds_iff (binds : List SnmpVarBind) (contents : Bytes) :
    IsVarBinds binds contents ↔
      ∃ parts, List.Forall₂ IsBinding binds parts ∧ contents = parts.flatten := by
  constructor
  · intro bindings
    induction bindings with
    | nil => exact ⟨[], .nil, rfl⟩
    | @cons bind binds bytes rest first _ ih =>
      obtain ⟨parts, tiled, rfl⟩ := ih
      exact ⟨bytes :: parts, .cons ((isVarBind_iff bind bytes).mp first) tiled, rfl⟩
  · rintro ⟨parts, tiled, rfl⟩
    induction tiled with
    | nil => exact .nil
    | cons first _ ih => exact .cons ((isVarBind_iff _ _).mpr first) ih

/-- **The walkers accept exactly the grammar, and agree.** On every buffer and from every cursor both
walkers return, the one without values with the verdict and the names of the one with values. A list
is reported exactly if it is at the cursor, with its bindings in order and with its contents. -/
theorem varBinds_walkers_exact (data : Bytes) (pos : Nat) :
    (∃ result, parseVarBinds data pos = .ok result ∧
      parseVarBindNames data pos = .ok result.names) ∧
    ∀ binds contents, parseVarBinds data pos = .ok (.parsed (binds, contents)) ↔
      IsVarBindList data pos binds contents := by
  have nonneg : (0 : Int) ≤ pos := Int.natCast_nonneg pos
  obtain ⟨result, returned, spec⟩ := parseVarBinds_spec data nonneg
  refine ⟨⟨result, returned, ?_⟩, fun binds contents => ⟨fun accepted => ?_, ?_⟩⟩
  · rw [parseVarBindNames_eq data nonneg, returned, map_ok]
  · rw [returned] at accepted
    obtain ⟨bytes, rest, here, list, bindings⟩ := spec binds contents (Except.ok.inj accepted)
    refine ⟨data.take pos, bytes, rest, ?_, ?_, list, (isVarBinds_iff binds contents).mp bindings⟩
    · have behind := here.drop_eq
      rw [Int.toNat_natCast] at behind
      rw [List.append_assoc, ← behind, List.take_append_drop]
    · have inside := here.le_length
      rw [List.length_take]
      omega
  · rintro ⟨front, bytes, rest, rfl, rfl, list, tiled⟩
    have here : At (front ++ bytes ++ rest) front.length (bytes ++ rest) := by
      rw [List.append_assoc]
      exact At.append front (bytes ++ rest)
    exact parseVarBinds_at here list ((isVarBinds_iff binds contents).mpr tiled)

end Nl6
