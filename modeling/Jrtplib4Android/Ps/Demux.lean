import Jrtplib4Android.Core.Block
import Jrtplib4Android.Core.CInt
import Jrtplib4Android.Core.Loop

/-!
# The program stream demuxer

`GetH246FromPs` and its helpers on checked blocks. A helper answers with its
return value and the output parameters of the caller, gathered in a `PsCursor`;
pointers into the pack are offsets, `none` is the null pointer. Lengths are
`int`, and every expression with a `sizeof` operand is computed in `size_t`.
-/

namespace Jrtplib4Android

open CSem

/-- `H264_FRAME_SIZE_MAX`. -/
def h264FrameSizeMax : Nat := 1024 * 1024 * 2

/-- `PS_BUF_SIZE`. -/
def psBufSize : Nat := 1024 * 1024 * 4

/-- `sizeof(pack_start_code)`. -/
def packStartCodeSize : Nat := 4

/-- `sizeof(littel_endian_size)`. -/
def littelEndianSizeSize : Nat := 2

/-- `sizeof(program_stream_pack_header)`. -/
def programStreamPackHeaderSize : Nat := 14

/-- `sizeof(program_stream_map)`. -/
def programStreamMapSize : Nat := 6

/-- `sizeof(program_stream_e)`. -/
def programStreamESize : Nat := 9

/-- The output parameters of the helpers. -/
structure PsCursor where
  nextPack : Option Nat
  leftlength : Int
  payloadData : Option Nat
  payloadDataLen : Int

/-- `ProgramStreamPackHeader`. -/
def programStreamPackHeader (b : Block) (pack : Nat) (length : Int) (c : PsCursor) :
    Except Fault (Int × PsCursor) := do
  let stuffinglen ← b.load (pack + 13)
  let packStuffingLength := (stuffinglen &&& 7).toNat
  let leftlength :=
    toInt (toSize (toSize (length - programStreamPackHeaderSize) - packStuffingLength))
  let c := { c with
    leftlength := leftlength
    nextPack := some (pack + programStreamPackHeaderSize + packStuffingLength) }
  if leftlength < 4 then return (0, c)
  return (leftlength, c)

/-- The `PackLength` field, whose bytes are exchanged. -/
def packLength (b : Block) (pack : Nat) : Except Fault Nat := do
  let byte0 ← b.load (pack + 5)
  let byte1 ← b.load (pack + 4)
  return byte0.toNat + 256 * byte1.toNat

/-- The common text of `ProgramStreamMap` and `ProgramShHead`. -/
def skipSection (b : Block) (pack : Nat) (length : Int) (c : PsCursor) :
    Except Fault (Int × PsCursor) := do
  let c := { c with payloadData := none, payloadDataLen := 0 }
  if toUnsigned length < programStreamMapSize then return (0, c)
  let psmLength ← packLength b pack
  let leftlength := toInt (toSize (toSize (length - psmLength) - programStreamMapSize))
  let c := { c with leftlength := leftlength }
  if leftlength ≤ 0 then return (0, c)
  return (leftlength, { c with nextPack := some (pack + psmLength + programStreamMapSize) })

/-- `ProgramStreamMap`. -/
def programStreamMap (b : Block) (pack : Nat) (length : Int) (c : PsCursor) :
    Except Fault (Int × PsCursor) :=
  skipSection b pack length c

/-- `ProgramShHead`. -/
def programShHead (b : Block) (pack : Nat) (length : Int) (c : PsCursor) :
    Except Fault (Int × PsCursor) :=
  skipSection b pack length c

/-- `Pes`. -/
def pes (b : Block) (pack : Nat) (length : Int) (c : PsCursor) :
    Except Fault (Int × PsCursor) := do
  let c := { c with payloadData := none, payloadDataLen := 0 }
  if toUnsigned length < programStreamESize then return (0, c)
  let pseLength ← packLength b pack
  let stuffingLength ← b.load (pack + 8)
  let payloadDataLen : Int := pseLength - 2 - 1 - stuffingLength.toNat
  let leftlength := toInt (toSize (toSize (toSize (length - pseLength) - packStartCodeSize) -
    littelEndianSizeSize))
  let c := { c with
    payloadDataLen := payloadDataLen
    payloadData :=
      if 0 < payloadDataLen then some (pack + programStreamESize + stuffingLength.toNat) else none
    leftlength := leftlength }
  if leftlength ≤ 0 then return (0, c)
  return (leftlength,
    { c with nextPack := some (pack + packStartCodeSize + littelEndianSizeSize + pseLength) })

/-- The variables of the main loop. -/
structure DemuxState where
  cursor : PsCursor
  /-- The frame buffer and the write position in it. -/
  frame : Block
  h264Buffer : Nat
  h264length : Int

/-- The payload copy, which stands on the success and on the failure return of `Pes`. -/
def copyPayload (b : Block) (st : DemuxState) : Except Fault DemuxState :=
  if st.cursor.payloadDataLen = 0 then .ok st
  else if st.cursor.payloadDataLen + st.h264length < h264FrameSizeMax then do
    let frame ← memcpy st.frame st.h264Buffer b st.cursor.payloadData st.cursor.payloadDataLen
    return { st with
      frame := frame
      h264Buffer := st.h264Buffer + st.cursor.payloadDataLen.toNat
      h264length := st.h264length + st.cursor.payloadDataLen }
  else .ok st

/-- The body of the main loop. -/
def demuxPass (b : Block) (st : DemuxState) : Pass DemuxState (Except Fault DemuxState) :=
  .attempt do
    if toUnsigned st.cursor.leftlength < packStartCodeSize then return .leave (.ok st)
    let c := { st.cursor with payloadData := none, payloadDataLen := 0 }
    match c.nextPack with
    | none => .error .null
    | some next =>
      if ← b.startsWith next [0, 0, 1, 0xe0] then
        let (ret, c) ← pes b next c.leftlength c
        let st ← copyPayload b { st with cursor := c }
        return if ret = 0 then .leave (.ok st) else .again st
      else if ← b.startsWith next [0, 0, 1, 0xbb] then
        let (ret, c) ← programShHead b next c.leftlength c
        let st := { st with cursor := c }
        return if ret = 0 then .leave (.ok st) else .again st
      else if ← b.startsWith next [0, 0, 1, 0xbc] then
        let (ret, c) ← programStreamMap b next c.leftlength c
        let st := { st with cursor := c }
        return if ret = 0 then .leave (.ok st) else .again st
      else if ← b.startsWith next [0, 0, 1, 0xc0] then
        return .leave (.ok { st with cursor := c })
      else if ← b.startsWith next [0, 0, 1, 0xbd] then
        return .leave (.ok { st with cursor := c })
      else
        -- the log line prints the four bytes
        let _ ← b.load next
        let _ ← b.load (next + 1)
        let _ ← b.load (next + 2)
        let _ ← b.load (next + 3)
        return .leave (.ok { st with cursor := c })

/-- `GetH246FromPs`: the frame length and the frame buffer afterwards. -/
def getH246FromPs (buffer : Block) (length : Int) (h264Buffer : Block) :
    Except Fault (Int × Block) := do
  let (ret, c) ← programStreamPackHeader buffer 0 length ⟨none, 0, none, 0⟩
  if ret = 0 then return (0, h264Buffer)
  let st ← (loop (demuxPass buffer) (length.toNat + 1) ⟨c, h264Buffer, 0, 0⟩).getD (.error .spin)
  return (st.h264length, st.frame)

end Jrtplib4Android
