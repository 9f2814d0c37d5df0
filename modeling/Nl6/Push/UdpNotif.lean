import Nl6.Lib.Octets

/-! # UDP-notif framing

`udpnotif.go`: the envelope of a push notification goes out in one datagram, or in numbered segments
that a collector puts together again. `SegmentRun` says what a well-formed run of segments is;
the loop of `udpNotifFrame` only makes such runs (`carries_segments`), and what a collector reads of
them is read off that.
-/

namespace Nl6

open Octets

def udpNotifMediaJSON : Nat := 1

def udpNotifBaseHeader : Nat := 12

/-- The base header with the segment option: type 1, length 4, number and last flag. -/
def udpNotifSegHeader : Nat := udpNotifBaseHeader + 4

/-- The first segment is sized that much below the later ones. -/
def udpNotifFirstSegShortfall : Nat := 9

/-- `putUdpNotifBase`. -/
def putUdpNotifBase (headerLen : Nat) (publisherID messageID : UInt32) (msgLen : Nat) : Bytes :=
  UInt8.ofNat (1 <<< 5 ||| udpNotifMediaJSON) :: UInt8.ofNat headerLen ::
    (fixed 2 msgLen ++ fixed 4 publisherID.toNat ++ fixed 4 messageID.toNat)

/-- The datagram that one turn of the loop appends. -/
def udpNotifSegment (publisherID messageID : UInt32) (n : Nat) (last : Bool) (chunk : Bytes) :
    Bytes :=
  let opt := UInt16.ofNat n <<< 1
  putUdpNotifBase udpNotifSegHeader publisherID messageID (udpNotifSegHeader + chunk.length) ++
    1 :: 4 :: fixed 2 (if last then opt ||| 1 else opt).toNat ++ chunk

/-- The loop of `udpNotifFrame`, from the turn numbered `n` on. -/
def udpNotifSegments (publisherID messageID : UInt32) (segSize : Nat) :
    (fuel n room : Nat) → (payload : Bytes) → List Bytes
  | 0, _, _, _ => []
  | fuel + 1, n, room, payload =>
    let chunk := min room payload.length
    let last := decide (chunk = payload.length)
    udpNotifSegment publisherID messageID n last (payload.take chunk) ::
      if last then []
      else udpNotifSegments publisherID messageID segSize fuel (n + 1)
        (segSize - udpNotifSegHeader) (payload.drop chunk)

/-- `udpNotifFrame`; nothing when it panics. -/
def udpNotifFrame (publisherID messageID : UInt32) (payload : Bytes) (segSize : Int) :
    Option (List Bytes) :=
  if segSize ≤ udpNotifSegHeader + udpNotifFirstSegShortfall then none
  else if segSize > 65535 then none
  else if udpNotifBaseHeader + payload.length ≤ segSize then
    some [putUdpNotifBase udpNotifBaseHeader publisherID messageID
      (udpNotifBaseHeader + payload.length) ++ payload]
  else
    some (udpNotifSegments publisherID messageID segSize.toNat (payload.length + 1) 0
      (segSize.toNat - udpNotifSegHeader - udpNotifFirstSegShortfall) payload)

/-! ### What a collector reads -/

/-- The length field of a datagram. -/
def udpNotifMsgLen (d : Bytes) : Nat := value ((d.drop 2).take 2)

/-- The header is longer than the base header: there is a segment option. -/
def udpNotifSegmented (d : Bytes) : Bool := udpNotifBaseHeader < (d.getD 1 0).toNat

def udpNotifSegmentNumber (d : Bytes) : Nat := value ((d.drop 14).take 2) / 2

def udpNotifLastSegment (d : Bytes) : Bool := value ((d.drop 14).take 2) % 2 = 1

/-- What stands behind the header. -/
def udpNotifPayload (d : Bytes) : Bytes := d.drop (d.getD 1 0).toNat

section Read

variable {publisherID messageID : UInt32} {headerLen msgLen n : Nat} {last : Bool}
  {chunk tail : Bytes}

@[simp] theorem length_putUdpNotifBase :
    (putUdpNotifBase headerLen publisherID messageID msgLen).length = udpNotifBaseHeader := by
  simp [putUdpNotifBase, udpNotifBaseHeader]

theorem udpNotifMsgLen_base (small : msgLen < 65536) :
    udpNotifMsgLen (putUdpNotifBase headerLen publisherID messageID msgLen ++ tail) = msgLen := by
  have field : (fixed 2 msgLen ++ (fixed 4 publisherID.toNat ++ (fixed 4 messageID.toNat ++
      tail))).take 2 = fixed 2 msgLen := List.take_left' (length_fixed 2 msgLen)
  simp only [udpNotifMsgLen, putUdpNotifBase, List.cons_append, List.append_assoc,
    List.drop_succ_cons, List.drop_zero, field, value_fixed]
  exact Nat.mod_eq_of_lt small

/-- The option field of a segment whose number fits. -/
theorem toNat_option (fits : n < 2 ^ 15) :
    (if last then UInt16.ofNat n <<< 1 ||| 1 else UInt16.ofNat n <<< 1).toNat =
      2 * n + last.toNat := by
  have shifted : (UInt16.ofNat n <<< 1).toNat = 2 * n := by
    rw [UInt16.toNat_shiftLeft, UInt16.toNat_ofNat', Nat.shiftLeft_eq]
    simp only [UInt16.reduceToNat, Nat.reduceMod, pow_one]
    omega
  cases last with
  | false => simpa using shifted
  | true =>
    rw [if_pos rfl, UInt16.toNat_or, shifted]
    simpa using (Nat.two_pow_add_eq_or_of_lt (show 1 < 2 ^ 1 by decide) n).symm

/-- The parts of a segment, where a collector looks for them. -/
theorem segment_parts (fits : n < 2 ^ 15) (small : udpNotifSegHeader + chunk.length < 65536) :
    let d := udpNotifSegment publisherID messageID n last chunk
    d.length = udpNotifSegHeader + chunk.length ∧ udpNotifMsgLen d = d.length ∧
      udpNotifSegmented d = true ∧ udpNotifSegmentNumber d = n ∧ udpNotifLastSegment d = last ∧
      udpNotifPayload d = chunk := by
  intro d
  have length : d.length = udpNotifSegHeader + chunk.length := by
    simp [d, udpNotifSegment, udpNotifSegHeader]
    omega
  have second : (d.getD 1 0).toNat = udpNotifSegHeader := rfl
  have option : value ((d.drop 14).take 2) = 2 * n + last.toNat := by
    have split : d = (putUdpNotifBase udpNotifSegHeader publisherID messageID
        (udpNotifSegHeader + chunk.length) ++ ([1, 4] : Bytes)) ++ (fixed 2 (if last then
          UInt16.ofNat n <<< 1 ||| 1 else UInt16.ofNat n <<< 1).toNat ++ chunk) := by
      simp [d, udpNotifSegment]
    rw [split, List.drop_left' (by simp [udpNotifBaseHeader]), List.take_left' (length_fixed _ _),
      value_fixed, toNat_option fits]
    exact Nat.mod_eq_of_lt (by cases last <;> simp <;> omega)
  refine ⟨length, ?_, ?_, ?_, ?_, ?_⟩
  · rw [length]
    simp only [d, udpNotifSegment, List.append_assoc]
    exact udpNotifMsgLen_base small
  · rw [udpNotifSegmented, second]
    rfl
  · rw [udpNotifSegmentNumber, option]
    cases last
    · simp
    · simp
      omega
  · rw [udpNotifLastSegment, option]
    cases last <;> simp
  · rw [udpNotifPayload, second]
    exact List.drop_left' (by simp [udpNotifSegHeader])

end Read

/-! ### Runs of segments -/

/-- `SegmentRun n payload ds`: the datagrams are the segments from number `n` on that carry the payload
in pieces that are not empty, and the last of them says so. -/
inductive SegmentRun (publisherID messageID : UInt32) (limit : Nat) :
    Nat → Bytes → List Bytes → Prop
  | last {n : Nat} {chunk : Bytes} (nonempty : chunk ≠ []) (short : chunk.length ≤ limit) :
      SegmentRun publisherID messageID limit n chunk
        [udpNotifSegment publisherID messageID n true chunk]
  | more {n : Nat} {chunk payload : Bytes} {ds : List Bytes} (nonempty : chunk ≠ [])
      (short : chunk.length ≤ limit)
      (rest : SegmentRun publisherID messageID limit (n + 1) payload ds) :
      SegmentRun publisherID messageID limit n (chunk ++ payload)
        (udpNotifSegment publisherID messageID n false chunk :: ds)

section Runs

variable {publisherID messageID : UInt32} {limit segSize n room fuel : Nat} {payload : Bytes}
  {ds : List Bytes}

/-- The loop makes such a run: every turn has room for at least one octet, so the payload shrinks
until a turn takes all that is left. -/
theorem carries_segments (nonempty : payload ≠ []) (some' : 0 < room)
    (within : room ≤ segSize - udpNotifSegHeader) (enough : payload.length ≤ fuel) :
    SegmentRun publisherID messageID (segSize - udpNotifSegHeader) n payload
      (udpNotifSegments publisherID messageID segSize fuel n room payload) := by
  induction fuel generalizing n room payload with
  | zero => exact absurd (List.length_eq_zero_iff.mp (Nat.le_zero.mp enough)) nonempty
  | succ fuel ih =>
    rw [udpNotifSegments]
    by_cases all : min room payload.length = payload.length
    · simp only [all, List.take_length, decide_true, ↓reduceIte]
      exact .last nonempty (by omega)
    · have cut : min room payload.length = room := by omega
      have run := @ih (n + 1) (segSize - udpNotifSegHeader) (payload.drop room)
        (fun none => by simp at none; omega) (by omega) le_rfl (by simp; omega)
      have piece : payload.take room ≠ [] := by
        simp [nonempty, some'.ne']
      have joined := SegmentRun.more piece (by simp; omega) run
      simpa [all, cut, show ¬ room = payload.length by omega] using joined

/-- What a collector reads of a run. -/
theorem SegmentRun.read (run : SegmentRun publisherID messageID limit n payload ds)
    (few : n + ds.length ≤ 2 ^ 15) (small : udpNotifSegHeader + limit < 65536) :
    (∀ d ∈ ds, d.length ≤ udpNotifSegHeader + limit ∧ udpNotifMsgLen d = d.length ∧
        udpNotifSegmented d = true ∧ udpNotifPayload d ≠ []) ∧
      (∀ i (inside : i < ds.length), udpNotifSegmentNumber ds[i] = n + i ∧
        (udpNotifLastSegment ds[i] = true ↔ i + 1 = ds.length)) ∧
      (ds.map udpNotifPayload).flatten = payload := by
  induction run with
  | @last n chunk nonempty short =>
    simp only [List.length_singleton] at few
    obtain ⟨length, field, segmented, number, final, carried⟩ := @segment_parts publisherID
      messageID n true chunk (by omega) (by omega)
    refine ⟨?_, ?_, by simp [carried]⟩
    · rintro d mem
      obtain rfl := List.mem_singleton.mp mem
      exact ⟨by omega, field, segmented, carried ▸ nonempty⟩
    · intro i inside
      obtain rfl : i = 0 := by simpa using inside
      exact ⟨number, by simp [final]⟩
  | @more n chunk payload ds nonempty short rest ih =>
    simp only [List.length_cons] at few
    obtain ⟨length, field, segmented, number, final, carried⟩ := @segment_parts publisherID
      messageID n false chunk (by omega) (by omega)
    obtain ⟨each, numbers, whole⟩ := ih (by omega)
    have further : ds ≠ [] := by cases rest <;> simp
    refine ⟨?_, ?_, by simp [carried, whole]⟩
    · rintro d mem
      obtain rfl | later := List.mem_cons.mp mem
      · exact ⟨by omega, field, segmented, carried ▸ nonempty⟩
      · exact each d later
    · rintro (_ | i) inside
      · exact ⟨number, by simp [final, further]⟩
      · obtain ⟨next, flag⟩ := numbers i (by simpa using inside)
        exact ⟨by simp [next]; omega, by simp [flag]⟩

end Runs

/-- **Framing and putting together.** Every datagram is at most as long as the segment size and
says how long it is. There is one datagram without a segment option exactly when the payload fits
behind the base header. Otherwise the segments are numbered from zero in order, the last one alone
is flagged, none is empty, and together they carry the payload. -/
theorem udpNotifFrame_read (publisherID messageID : UInt32) (payload : Bytes) (segSize : Int)
    (least : 512 ≤ segSize) (most : segSize ≤ 65507) :
    ∃ ds, udpNotifFrame publisherID messageID payload segSize = some ds ∧
      (ds.length < 2 ^ 15 →
        (∀ d ∈ ds, (d.length : Int) ≤ segSize ∧ udpNotifMsgLen d = d.length) ∧
        ((∃ d, ds = [d] ∧ udpNotifSegmented d = false) ↔
          udpNotifBaseHeader + payload.length ≤ segSize) ∧
        (segSize < udpNotifBaseHeader + payload.length →
          (∀ i (inside : i < ds.length), udpNotifSegmentNumber ds[i] = i ∧
            (udpNotifLastSegment ds[i] = true ↔ i + 1 = ds.length)) ∧
          ∀ d ∈ ds, udpNotifSegmented d = true ∧ udpNotifPayload d ≠ []) ∧
        (ds.map udpNotifPayload).flatten = payload) := by
  have roomy : ¬ segSize ≤ udpNotifSegHeader + udpNotifFirstSegShortfall := by
    simp only [udpNotifSegHeader, udpNotifBaseHeader, udpNotifFirstSegShortfall]
    omega
  rw [udpNotifFrame, if_neg roomy, if_neg (by omega)]
  split_ifs with fits
  · refine ⟨_, rfl, fun _ => ⟨?_, ?_, fun long => absurd fits (not_le.mpr long), ?_⟩⟩
    · rintro d mem
      obtain rfl := List.mem_singleton.mp mem
      rw [List.length_append, length_putUdpNotifBase, udpNotifMsgLen_base (by omega)]
      exact ⟨mod_cast fits, rfl⟩
    · exact iff_of_true ⟨_, rfl, rfl⟩ fits
    · simp only [List.map_singleton, List.flatten_singleton]
      exact List.drop_left' length_putUdpNotifBase
  · simp only [udpNotifSegHeader, udpNotifBaseHeader, udpNotifFirstSegShortfall] at fits roomy
    have run := @carries_segments publisherID messageID segSize.toNat 0
      (segSize.toNat - udpNotifSegHeader - udpNotifFirstSegShortfall) (payload.length + 1) payload
      (fun none => by simp [none] at fits; omega)
      (by simp only [udpNotifSegHeader, udpNotifBaseHeader, udpNotifFirstSegShortfall]; omega)
      (Nat.sub_le _ _) (Nat.le_succ _)
    refine ⟨_, rfl, fun few => ?_⟩
    have header : udpNotifSegHeader = 16 := rfl
    obtain ⟨each, numbers, whole⟩ := run.read (by omega) (by omega)
    refine ⟨fun d mem => ⟨?_, (each d mem).2.1⟩, ?_, fun _ => ⟨?_, ?_⟩, whole⟩
    · have short := (each d mem).1
      omega
    · refine iff_of_false ?_ fits
      rintro ⟨d, is, plain⟩
      have segmented := (each d (is ▸ List.mem_singleton_self d)).2.2.1
      exact nomatch plain.symm.trans segmented
    · intro i inside
      obtain ⟨number, flag⟩ := numbers i inside
      exact ⟨by omega, flag⟩
    · intro d mem
      exact (each d mem).2.2

/-- A payload of six hundred octets takes two segments of at most 512. -/
theorem udpNotifFrame_read_two :
    ∃ ds, udpNotifFrame 7 1 (List.replicate 600 65) 512 = some ds ∧ ds.length = 2 ∧
      (ds.map udpNotifPayload).flatten = List.replicate 600 65 := by
  obtain ⟨ds, framed, read⟩ := udpNotifFrame_read 7 1 (List.replicate 600 65) 512 (by decide)
    (by decide)
  have two : (udpNotifFrame 7 1 (List.replicate 600 65) 512).map List.length = some 2 := by
    decide +kernel
  rw [framed] at two
  have two : ds.length = 2 := Option.some.inj two
  exact ⟨ds, framed, two, (read (by omega)).2.2.2⟩

end Nl6
