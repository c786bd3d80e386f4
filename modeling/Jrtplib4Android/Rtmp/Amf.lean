import Jrtplib4Android.Core.Block
import Jrtplib4Android.Core.Bytes
import Jrtplib4Android.Core.CInt
import Jrtplib4Android.Core.Double
import Jrtplib4Android.Core.Loop

/-!
# AMF objects

The AMF0 half of `amf.c`. An encoder is given the room that is left, `outend - output`,
and returns the bytes it puts there, or nothing where the source returns `NULL`: what it has
written by then is not kept. A decoder runs on the bytes from `pBuffer` on, next to the count
`nSize` that the source keeps of them by itself: a read behind the last byte is a fault,
whatever the count says.

The lemmas at the end are about single fields: what is written in front of anything is read,
and what is compared with the end mark of an object.
-/

namespace Jrtplib4Android

open CSem

/-- `AVal`: the bytes that the pointer and the length single out. -/
abbrev AVal := List UInt8

/-- `AMFDataType`, less the mark of an invalid property. -/
inductive AMFDataType where
  | number | boolean | string | object | movieClip | null | undefined | reference | ecmaArray
  | objectEnd | strictArray | date | longString | unsupported | recordSet | xmlDoc | typedObject
  | avmPlus
  deriving DecidableEq, Repr

namespace AMFDataType

/-- The byte of a type. -/
def code (t : AMFDataType) : UInt8 := UInt8.ofNat t.ctorIdx

/-- The types by their byte. -/
def all : List AMFDataType :=
  [number, boolean, string, object, movieClip, null, undefined, reference, ecmaArray, objectEnd,
    strictArray, date, longString, unsupported, recordSet, xmlDoc, typedObject, avmPlus]

/-- The type of a byte. -/
def ofCode (b : Nat) : Option AMFDataType := all[b]?

theorem ofCode_code (t : AMFDataType) : ofCode t.code.toNat = some t := by
  cases t <;> rfl

end AMFDataType

/-- `AMFObjectProperty` by its `p_type`; a number is kept as the pattern of the `double`.
A boolean is a number too. -/
inductive AMFObjectProperty where
  | invalid
  | number (p_name : AVal) (p_number : UInt64)
  | boolean (p_name : AVal) (p_number : UInt64)
  | string (p_name : AVal) (p_aval : AVal)
  | object (p_name : AVal) (o_props : List AMFObjectProperty)
  | null (p_name : AVal)
  | date (p_name : AVal) (p_number : UInt64) (p_UTCoffset : Nat)

/-- `AMF_EncodeInt16`, `AMF_EncodeInt24` and `AMF_EncodeInt32`, by their width. -/
def amfEncodeInt (w room nVal : Nat) : Option (List UInt8) :=
  if room < w then none else some (beBytes w nVal)

def amfEncodeInt16 := amfEncodeInt 2
def amfEncodeInt24 := amfEncodeInt 3
def amfEncodeInt32 := amfEncodeInt 4

/-- `AMF_EncodeString`. -/
def amfEncodeString (room : Nat) (bv : AVal) : Option (List UInt8) := do
  if bv.length < 65536 ∧ room < 1 + 2 + bv.length ∨ room < 1 + 4 + bv.length then none
  else if bv.length < 65536 then
    let size ← amfEncodeInt16 (room - 1) bv.length
    some (AMFDataType.string.code :: (size ++ bv))
  else
    let size ← amfEncodeInt32 (room - 1) bv.length
    some (AMFDataType.longString.code :: (size ++ bv))

/-- `AMF_EncodeNumber`. -/
def amfEncodeNumber (room : Nat) (dVal : UInt64) : Option (List UInt8) :=
  if room < 1 + 8 then none else some (AMFDataType.number.code :: beBytes 8 dVal.toNat)

/-- `AMF_EncodeBoolean`. -/
def amfEncodeBoolean (room : Nat) (bVal : Bool) : Option (List UInt8) :=
  if room < 2 then none else some [AMFDataType.boolean.code, if bVal then 1 else 0]

/-- A name in front of a value. -/
def amfEncodeNamed (room : Nat) (strName : AVal) (value : Nat → Option (List UInt8)) :
    Option (List UInt8) := do
  if room < 2 + strName.length then none
  else
    let size ← amfEncodeInt16 room strName.length
    let bs ← value (room - 2 - strName.length)
    some (size ++ (strName ++ bs))

/-- `AMF_EncodeNamedString`. -/
def amfEncodeNamedString (room : Nat) (strName strValue : AVal) : Option (List UInt8) :=
  amfEncodeNamed room strName fun room => amfEncodeString room strValue

/-- `AMF_EncodeNamedNumber`. -/
def amfEncodeNamedNumber (room : Nat) (strName : AVal) (dVal : UInt64) : Option (List UInt8) :=
  amfEncodeNamed room strName fun room => amfEncodeNumber room dVal

/-- `AMF_EncodeNamedBoolean`. -/
def amfEncodeNamedBoolean (room : Nat) (strName : AVal) (bVal : Bool) : Option (List UInt8) :=
  amfEncodeNamed room strName fun room => amfEncodeBoolean room bVal

/-- The name of a property, which is written only if there is one. -/
def amfNameWire (p_name : AVal) : List UInt8 :=
  if p_name.length = 0 then [] else beBytes 2 p_name.length ++ p_name

/-- The checks of `AMFProp_Encode` that come before the value, and the value behind the
name. -/
def amfPropEncodeWith (room : Nat) (p_name : AVal) (value : Nat → Option (List UInt8)) :
    Option (List UInt8) := do
  if room ≤ p_name.length + 2 + 1 then none
  else
    let bs ← value (room - (amfNameWire p_name).length)
    some (amfNameWire p_name ++ bs)

/-- `AMF_Encode` around the properties: the marks at both ends. -/
def amfEncodeWith (room : Nat) (props : Nat → List UInt8) : Option (List UInt8) := do
  if room ≤ 4 then none
  else
    let bs := props (room - 1)
    if room - 1 - bs.length ≤ 3 then none
    else
      let mark ← amfEncodeInt24 (room - 1 - bs.length) 9
      some (AMFDataType.object.code :: (bs ++ mark))

mutual

/-- `AMFProp_Encode`. -/
def amfPropEncode (room : Nat) : AMFObjectProperty → Option (List UInt8)
  | .invalid => none
  | .number p_name v => amfPropEncodeWith room p_name fun room => amfEncodeNumber room v
  | .boolean p_name v =>
    amfPropEncodeWith room p_name fun room => amfEncodeBoolean room (!Double.isZero v)
  | .string p_name bv => amfPropEncodeWith room p_name fun room => amfEncodeString room bv
  | .object p_name o =>
    amfPropEncodeWith room p_name fun room => amfEncodeWith room fun room => amfPropsEncode room o
  -- a null property is written without its name
  | .null _ => if room ≤ 1 then none else some [AMFDataType.null.code]
  | .date p_name _ _ => amfPropEncodeWith room p_name fun _ => none

/-- The loop of `AMF_Encode`, which a failure ends. -/
def amfPropsEncode (room : Nat) : List AMFObjectProperty → List UInt8
  | [] => []
  | prop :: props =>
    match amfPropEncode room prop with
    | none => []
    | some bs => bs ++ amfPropsEncode (room - bs.length) props

end

/-- `AMF_Encode`. -/
def amfEncode (room : Nat) (o_props : List AMFObjectProperty) : Option (List UInt8) :=
  amfEncodeWith room fun room => amfPropsEncode room o_props

/-- `AMF_DecodeInt16`, `AMF_DecodeInt24`, `AMF_DecodeInt32` and a single byte, by their
width. -/
def amfDecodeInt (w : Nat) (data : List UInt8) : Except Fault Nat :=
  if data.length < w then .error .read else .ok (beNat (data.take w))

/-- `AMF_DecodeNumber`. -/
def amfDecodeNumber (data : List UInt8) : Except Fault UInt64 :=
  (amfDecodeInt 8 data).map UInt64.ofNat

/-- `AMF_DecodeString` and `AMF_DecodeLongString`, by the width of the length. -/
def amfDecodeAVal (w : Nat) (data : List UInt8) : Except Fault AVal := do
  let av_len ← amfDecodeInt w data
  return (data.drop w).take av_len

/-- The variables of the loop of `AMF_Decode`. -/
structure AMFDecoder where
  pBuffer : List UInt8
  nSize : Int
  bError : Bool
  obj : List AMFObjectProperty

/-- What a decoder returns: nothing for `-1`, else the value and the number of bytes. -/
abbrev AMFAnswer (α : Type) := Option (α × Int)

/-- Is there an end mark at `pBuffer`? -/
def amfAtEnd (pBuffer : List UInt8) (nSize : Int) : Except Fault Bool :=
  if nSize < 3 then .ok false else (amfDecodeInt 3 pBuffer).map (· == 9)

/-- One pass of the loop of `AMF_Decode`; `prop` is `AMFProp_Decode`. -/
def amfDecodePass (prop : List UInt8 → Int → Except Fault (AMFAnswer AMFObjectProperty))
    (d : AMFDecoder) : Pass AMFDecoder (Except Fault AMFDecoder) :=
  if d.nSize ≤ 0 then .leave (.ok d)
  else Pass.attempt do
    if ← amfAtEnd d.pBuffer d.nSize then
      return .leave (.ok { d with nSize := d.nSize - 3, bError := false })
    -- an error is followed byte by byte up to the next end mark
    if d.bError then
      return .again { d with nSize := d.nSize - 1, pBuffer := d.pBuffer.drop 1 }
    match ← prop d.pBuffer d.nSize with
    | none => return .again { d with bError := true }
    | some (p, nRes) =>
      return .again { d with
        nSize := d.nSize - nRes
        pBuffer := d.pBuffer.drop nRes.toNat
        obj := d.obj ++ [p] }

/-- `AMF_Decode` over a decoder of properties. -/
def amfDecodeWith (prop : List UInt8 → Int → Except Fault (AMFAnswer AMFObjectProperty))
    (pBuffer : List UInt8) (nSize : Int) : Except Fault (AMFAnswer (List AMFObjectProperty)) :=
  match loop (amfDecodePass prop) (nSize.toNat + 2) ⟨pBuffer, nSize, false, []⟩ with
  | none => .error .spin
  | some r => r.map fun d => if d.bError then none else some (d.obj, nSize - d.nSize)

/-- The loop of `AMF_DecodeArray`, with the rest of `nSize` and the error flag. -/
def amfDecodeArrayLoop (prop : List UInt8 → Int → Except Fault (AMFAnswer AMFObjectProperty)) :
    Nat → AMFDecoder → Except Fault AMFDecoder
  | 0, d => .ok d
  | n + 1, d => do
    match ← prop d.pBuffer d.nSize with
    | none => amfDecodeArrayLoop prop n { d with bError := true }
    | some (p, nRes) =>
      amfDecodeArrayLoop prop n { d with
        nSize := d.nSize - nRes
        pBuffer := d.pBuffer.drop nRes.toNat
        obj := d.obj ++ [p] }

/-- `AMF_DecodeArray` over a decoder of properties. -/
def amfDecodeArrayWith (prop : List UInt8 → Int → Except Fault (AMFAnswer AMFObjectProperty))
    (pBuffer : List UInt8) (nSize : Int) (nArrayLen : Int) :
    Except Fault (AMFAnswer (List AMFObjectProperty)) :=
  (amfDecodeArrayLoop prop nArrayLen.toNat ⟨pBuffer, nSize, false, []⟩).map fun d =>
    if d.bError then none else some (d.obj, nSize - d.nSize)

/-- The name in `AMFProp_Decode`, with the bytes it takes. -/
def amfNameDecode (bDecodeName : Bool) (pBuffer : List UInt8) (nSize : Int) :
    Except Fault (Option (AVal × Nat)) := do
  if bDecodeName then
    if nSize < 4 then return none
    let nNameSize ← amfDecodeInt 2 pBuffer
    if nSize - 2 < nNameSize then return none
    return some (← amfDecodeAVal 2 pBuffer, 2 + nNameSize)
  return some ([], 0)

section

-- `AMF3_Decode`
variable (amf3Decode : List UInt8 → Int → Except Fault (AMFAnswer (List AMFObjectProperty)))

/-- The value in `AMFProp_Decode`, behind its type: the property and what is left of
`nSize`. -/
def amfValueDecode (prop : Bool → List UInt8 → Int → Except Fault (AMFAnswer AMFObjectProperty))
    (p_type : Option AMFDataType) (p_name : AVal) (pBuffer : List UInt8) (nSize : Int) :
    Except Fault (AMFAnswer AMFObjectProperty) :=
  -- an object that the bytes of `nSize` are taken from
  let obj (nSize : Int) (r : Except Fault (AMFAnswer (List AMFObjectProperty))) :
      Except Fault (AMFAnswer AMFObjectProperty) :=
    r.map (Option.map fun (o, nRes) => (.object p_name o, nSize - nRes))
  match p_type with
  | some .number => do
    if nSize < 8 then return none
    return some (.number p_name (← amfDecodeNumber pBuffer), nSize - 8)
  | some .boolean => do
    if nSize < 1 then return none
    let b ← amfDecodeInt 1 pBuffer
    return some (.boolean p_name (if b = 0 then Double.ofNat 0 else Double.ofNat 1), nSize - 1)
  | some .string => do
    let nStringSize ← amfDecodeInt 2 pBuffer
    if nSize < nStringSize + 2 then return none
    return some (.string p_name (← amfDecodeAVal 2 pBuffer), nSize - (2 + nStringSize))
  | some .object => obj nSize (amfDecodeWith (prop true) pBuffer nSize)
  | some .null | some .undefined | some .unsupported => return some (.null p_name, nSize)
  | some .ecmaArray => obj (nSize - 4) (amfDecodeWith (prop true) (pBuffer.drop 4) (nSize - 4))
  | some .strictArray => do
    let nArrayLen ← amfDecodeInt 4 pBuffer
    obj (nSize - 4)
      (amfDecodeArrayWith (prop false) (pBuffer.drop 4) (nSize - 4) (toInt nArrayLen))
  | some .date => do
    if nSize < 10 then return none
    let v ← amfDecodeNumber pBuffer
    return some (.date p_name v (← amfDecodeInt 2 (pBuffer.drop 8)), nSize - 10)
  | some .longString => do
    let nStringSize ← amfDecodeInt 4 pBuffer
    if nSize < nStringSize + 4 then return none
    return some (.string p_name (← amfDecodeAVal 4 pBuffer), nSize - (4 + nStringSize))
  | some .avmPlus => obj nSize (amf3Decode pBuffer nSize)
  | some .objectEnd | some .movieClip | some .reference | some .recordSet | some .xmlDoc
  | some .typedObject | none => return none

/-- `AMFProp_Decode`; `depth` bounds the nesting. -/
def amfPropDecode : Nat → Bool → List UInt8 → Int → Except Fault (AMFAnswer AMFObjectProperty)
  | 0, _, _, _ => .error .spin
  | depth + 1, bDecodeName, pBuffer, nSize => do
    if nSize = 0 then return none
    match ← amfNameDecode bDecodeName pBuffer nSize with
    | none => return none
    | some (p_name, n) =>
      if nSize - n = 0 then return none
      let type ← amfDecodeInt 1 (pBuffer.drop n)
      let r ← amfValueDecode amf3Decode (amfPropDecode depth) (AMFDataType.ofCode type) p_name
        (pBuffer.drop (n + 1)) (nSize - n - 1)
      return r.map fun (p, rest) => (p, nSize - rest)

/-- `AMF_Decode`; a value is nested in at least one byte. -/
def amfDecode (pBuffer : List UInt8) (nSize : Int) (bDecodeName : Bool) :
    Except Fault (AMFAnswer (List AMFObjectProperty)) :=
  amfDecodeWith (amfPropDecode amf3Decode (pBuffer.length + 1) bDecodeName) pBuffer nSize

end

/-- A field in front of anything is read. -/
theorem amfDecodeInt_append {w : Nat} {bs : List UInt8} (h : bs.length = w) (rest : List UInt8) :
    amfDecodeInt w (bs ++ rest) = .ok (beNat bs) := by
  subst h
  have hlen : ¬ (bs ++ rest).length < bs.length := by
    rw [List.length_append]
    omega
  rw [amfDecodeInt, if_neg hlen, List.take_left]

/-- A number that fits its field is read back. -/
theorem amfDecodeInt_beBytes {w n : Nat} (h : n < 256 ^ w) (rest : List UInt8) :
    amfDecodeInt w (beBytes w n ++ rest) = .ok n := by
  rw [amfDecodeInt_append (length_beBytes w n), beNat_beBytes h]

/-- The pattern of a `double` is read back. -/
theorem amfDecodeNumber_beBytes (v : UInt64) (rest : List UInt8) :
    amfDecodeNumber (beBytes 8 v.toNat ++ rest) = .ok v := by
  rw [amfDecodeNumber, amfDecodeInt_beBytes v.toNat_lt]
  exact congrArg Except.ok (UInt64.ofNat_toNat)

/-- A string behind its length is read back. -/
theorem amfDecodeAVal_append {w : Nat} {bv : AVal} (h : bv.length < 256 ^ w) (rest : List UInt8) :
    amfDecodeAVal w (beBytes w bv.length ++ (bv ++ rest)) = .ok bv := by
  rw [amfDecodeAVal, amfDecodeInt_beBytes h]
  have hdrop : (beBytes w bv.length ++ (bv ++ rest)).drop w = bv ++ rest :=
    List.drop_left' (length_beBytes w _)
  simp only [bind, Except.bind, hdrop, List.take_left, pure, Except.pure]

/-- The three bytes that are compared with the end mark. -/
theorem amfDecodeInt_three {data : List UInt8} {n : Nat} (h : amfDecodeInt 3 data = .ok n) :
    ∃ a b c rest, data = a :: b :: c :: rest ∧
      n = 65536 * a.toNat + 256 * b.toNat + c.toNat := by
  match data with
  | [] | [_] | [_, _] => cases h
  | a :: b :: c :: rest =>
    refine ⟨a, b, c, rest, rfl, ?_⟩
    have hlen : ¬ (a :: b :: c :: rest).length < 3 := by
      simp only [List.length_cons]
      omega
    rw [amfDecodeInt, if_neg hlen] at h
    cases h
    simp only [List.take_succ_cons, List.take_zero, beNat, List.foldl_cons, List.foldl_nil]
    omega

/-- What starts with a type other than that of a number is no end mark. -/
theorem amfDecodeInt_three_ne {a : UInt8} (ha : 0 < a.toNat) (data : List UInt8) :
    amfDecodeInt 3 (a :: data) ≠ .ok 9 := by
  intro h
  obtain ⟨a', b, c, rest, hdata, hval⟩ := amfDecodeInt_three h
  cases hdata
  omega

theorem beBytes_two_eq (n : Nat) : beBytes 2 n = [UInt8.ofNat (n / 256), UInt8.ofNat n] := rfl

/-- A name is no end mark. -/
theorem amfDecodeInt_three_name_ne {n : Nat} (h0 : 0 < n) (hn : n < 65536) (data : List UInt8) :
    amfDecodeInt 3 (beBytes 2 n ++ data) ≠ .ok 9 := by
  intro h
  obtain ⟨a, b, c, rest, hdata, hval⟩ := amfDecodeInt_three h
  rw [beBytes_two_eq] at hdata
  simp only [List.cons_append, List.nil_append, List.cons.injEq] at hdata
  obtain ⟨rfl, rfl, -⟩ := hdata
  rw [UInt8.toNat_ofNat', UInt8.toNat_ofNat'] at hval
  omega

/-- The leading bytes of a field. -/
theorem beBytes_add (a b n : Nat) : beBytes (a + b) n = beBytes a (n / 256 ^ b) ++ beBytes b n := by
  induction b generalizing n with
  | zero => simp only [Nat.add_zero, Nat.pow_zero, Nat.div_one, beBytes, List.append_nil]
  | succ b ih =>
    rw [← Nat.add_assoc, beBytes, ih, beBytes, Nat.div_div_eq_div_mul, List.append_assoc,
      Nat.pow_succ']

/-- A number is no end mark, unless its first two bytes are those of the mark. -/
theorem amfDecodeInt_three_number_ne {v : UInt64} (hv : v.toNat / 2 ^ 48 ≠ 9)
    (data : List UInt8) : amfDecodeInt 3 (0 :: (beBytes 8 v.toNat ++ data)) ≠ .ok 9 := by
  intro h
  obtain ⟨a, b, c, rest, hdata, hval⟩ := amfDecodeInt_three h
  rw [show beBytes 8 v.toNat = beBytes (2 + 6) v.toNat from rfl, beBytes_add, beBytes_two_eq]
    at hdata
  simp only [List.cons_append, List.nil_append, List.cons.injEq] at hdata
  obtain ⟨rfl, rfl, rfl, -⟩ := hdata
  have hlt := v.toNat_lt
  rw [UInt8.toNat_ofNat', UInt8.toNat_ofNat'] at hval
  have h0 : (0 : UInt8).toNat = 0 := rfl
  omega

end Jrtplib4Android
