/-!
# The glyphs of the watermark

Each array that `initOsd` copies is written row by row: 23 rows of 17 pixels, a digit for
each.
-/

namespace Jrtplib4Android

namespace Glyph

/-- The pixels of a row. -/
def row (bits : Nat) : List UInt8 :=
  (List.range 17).map fun k => if bits.testBit (16 - k) then 1 else 0

/-- `NUM_0`. -/
def num0 : List UInt8 := [
  0b00000000000000000, 0b00000011111110000, 0b00000111111111000, 0b00001111111111100,
  0b00011111000111110, 0b00011110000011110, 0b00011100000011110, 0b00111100000001110,
  0b00111100000001111, 0b00111100000001111, 0b00111100000001111, 0b00111100000001111,
  0b00111100000001111, 0b00111100000001111, 0b00111100000001111, 0b00111100000001111,
  0b00111100000001111, 0b00111100000001110, 0b00011110000011110, 0b00011110000011110,
  0b00011111101111110, 0b00001111111111100, 0b00000111111111000].flatMap row

/-- `NUM_1`. -/
def num1 : List UInt8 := [
  0b00000000001100000, 0b00000001111100000, 0b00001111111100000, 0b00011111111100000,
  0b00011111111100000, 0b00011100111100000, 0b00000000111100000, 0b00000000111100000,
  0b00000000111100000, 0b00000000111100000, 0b00000000111100000, 0b00000000111100000,
  0b00000000111100000, 0b00000000111100000, 0b00000000111100000, 0b00000000111100000,
  0b00000000111100000, 0b00000000111100000, 0b00000000111100000, 0b00000000111100000,
  0b00000000111100000, 0b00000000111100000, 0b00000000000000000].flatMap row

/-- `NUM_2`. -/
def num2 : List UInt8 := [
  0b00000011111110000, 0b00001111111111100, 0b00011111111111100, 0b00011111000111110,
  0b00111100000011110, 0b00111100000011110, 0b00111100000001110, 0b00000000000011110,
  0b00000000000011110, 0b00000000000111100, 0b00000000001111100, 0b00000000001111000,
  0b00000000011111000, 0b00000000111110000, 0b00000001111100000, 0b00000011111000000,
  0b00000111110000000, 0b00001111100000000, 0b00011111000000000, 0b00111111111111111,
  0b00111111111111111, 0b00111111111111111, 0b00000000000000000].flatMap row

/-- `NUM_3`. -/
def num3 : List UInt8 := [
  0b00000000000000000, 0b00000011111110000, 0b00001111111111000, 0b00011111111111100,
  0b00011111000111110, 0b00111100000011110, 0b00111100000011110, 0b00111100000011110,
  0b00000000000011110, 0b00000000000111110, 0b00000000011111100, 0b00000011111111000,
  0b00000011111111100, 0b00000011111111100, 0b00000000000111110, 0b00000000000011110,
  0b00000000000001110, 0b00111100000001110, 0b00111100000011110, 0b00111110000011110,
  0b00011111111111110, 0b00011111111111100, 0b00001111111111000].flatMap row

/-- `NUM_4`. -/
def num4 : List UInt8 := [
  0b00000000001111000, 0b00000000011111000, 0b00000000111111000, 0b00000000111111000,
  0b00000001111111000, 0b00000011111111000, 0b00000011111111000, 0b00000111101111000,
  0b00000111101111000, 0b00001111001111000, 0b00011110001111000, 0b00011110001111000,
  0b00111100001111000, 0b01111000001111000, 0b01111111111111111, 0b11111111111111111,
  0b11111111111111111, 0b11111111111111111, 0b00000000001111000, 0b00000000001111000,
  0b00000000001111000, 0b00000000001111000, 0b00000000000000000].flatMap row

/-- `NUM_5`. -/
def num5 : List UInt8 := [
  0b00000000000000000, 0b00000111111111111, 0b00000111111111111, 0b00001111111111111,
  0b00001111111111111, 0b00001111000000000, 0b00001111000000000, 0b00001111000000000,
  0b00001110000000000, 0b00001111111111000, 0b00001111111111100, 0b00001111111111110,
  0b00001111000111111, 0b00000000000001111, 0b00000000000001111, 0b00000000000001111,
  0b00000000000001111, 0b00011100000001111, 0b00011110000001111, 0b00011110000011111,
  0b00001111111111110, 0b00001111111111110, 0b00000111111111100].flatMap row

/-- `NUM_6`. -/
def num6 : List UInt8 := [
  0b00000000000000000, 0b00000000001111000, 0b00000001111111000, 0b00000011111111000,
  0b00000111111100000, 0b00001111100000000, 0b00001111000000000, 0b00011110000000000,
  0b00011110000000000, 0b00011111111111000, 0b00011111111111100, 0b00011111111111110,
  0b00011111000011110, 0b00111110000011111, 0b00111100000001111, 0b00111100000001111,
  0b00011100000001111, 0b00011110000001111, 0b00011110000001111, 0b00011111000011110,
  0b00001111111111110, 0b00000111111111100, 0b00000111111111000].flatMap row

/-- `NUM_7`. -/
def num7 : List UInt8 := [
  0b00111111111111111, 0b00111111111111111, 0b00111111111111111, 0b00000000000001111,
  0b00000000000011110, 0b00000000000011110, 0b00000000000111100, 0b00000000000111100,
  0b00000000001111000, 0b00000000001111000, 0b00000000001111000, 0b00000000011110000,
  0b00000000011110000, 0b00000000111100000, 0b00000000111100000, 0b00000001111000000,
  0b00000001111000000, 0b00000011110000000, 0b00000011110000000, 0b00000111100000000,
  0b00000111100000000, 0b00001111100000000, 0b00000000000000000].flatMap row

/-- `NUM_8`. -/
def num8 : List UInt8 := [
  0b00000000000000000, 0b00000011111110000, 0b00001111111111000, 0b00001111111111100,
  0b00011111000111110, 0b00011110000011110, 0b00011110000011110, 0b00011100000011110,
  0b00011110000011110, 0b00011110000011110, 0b00001111111111100, 0b00001111111111000,
  0b00001111111111100, 0b00011111111111110, 0b00011110000011110, 0b00111100000011111,
  0b00111100000001111, 0b00111100000001111, 0b00111100000001111, 0b00111110000011110,
  0b00011111101111110, 0b00011111111111100, 0b00000111111111000].flatMap row

/-- `NUM_9`. -/
def num9 : List UInt8 := [
  0b00000000000000000, 0b00000011111100000, 0b00001111111111000, 0b00011111111111100,
  0b00011111001111100, 0b00111110000111110, 0b00111100000011110, 0b00111100000011110,
  0b00111100000001110, 0b00111100000001110, 0b00111100000001110, 0b00111100000011110,
  0b00011110000111110, 0b00011111111111110, 0b00001111111111110, 0b00000111111111110,
  0b00000000000011110, 0b00000000000011110, 0b00000000000111100, 0b00000000011111100,
  0b00000111111111000, 0b00000111111110000, 0b00000111111000000].flatMap row

/-- `NUM_LINE`. -/
def numLine : List UInt8 := [
  0b00000000000000000, 0b00000000000000000, 0b00000000000000000, 0b00000000000000000,
  0b00000000000000000, 0b00000000000000000, 0b00000000000000000, 0b00000000000000000,
  0b00001111111100000, 0b00001111111100000, 0b00001111111100000, 0b00001111111100000,
  0b00000000000000000, 0b00000000000000000, 0b00000000000000000, 0b00000000000000000,
  0b00000000000000000, 0b00000000000000000, 0b00000000000000000, 0b00000000000000000,
  0b00000000000000000, 0b00000000000000000, 0b00000000000000000].flatMap row

/-- `NUM_SPACE`. -/
def numSpace : List UInt8 := [
  0b00000000000000000, 0b00000000000000000, 0b00000000000000000, 0b00000000000000000,
  0b00000000000000000, 0b00000000000000000, 0b00000000000000000, 0b00000000000000000,
  0b00000000000000000, 0b00000000000000000, 0b00000000000000000, 0b00000000000000000,
  0b00000000000000000, 0b00000000000000000, 0b00000000000000000, 0b00000000000000000,
  0b00000000000000000, 0b00000000000000000, 0b00000000000000000, 0b00000000000000000,
  0b00000000000000000, 0b00000000000000000, 0b00000000000000000].flatMap row

/-- `NUM_COLON`. -/
def numColon : List UInt8 := [
  0b00000000000000000, 0b00000000000000000, 0b00000000000000000, 0b00000000011000000,
  0b00000000111100000, 0b00000000111100000, 0b00000000111100000, 0b00000000011000000,
  0b00000000000000000, 0b00000000000000000, 0b00000000000000000, 0b00000000000000000,
  0b00000000000000000, 0b00000000000000000, 0b00000000000000000, 0b00000000000000000,
  0b00000000011000000, 0b00000000111100000, 0b00000000111100000, 0b00000000111100000,
  0b00000000011000000, 0b00000000000000000, 0b00000000000000000].flatMap row

/-- `char_YEAR`. -/
def charYear : List UInt8 := [
  0b01110000000000000, 0b01110000000000000, 0b11110000000000000, 0b11111111111111111,
  0b11111111111111111, 0b11111111111111111, 0b11000000011000000, 0b10000000011000000,
  0b00000000011000000, 0b00000000011000000, 0b11111111111111111, 0b11111111111111111,
  0b11111111111111111, 0b11000000011000000, 0b11000000011000000, 0b11000000011000000,
  0b11000000011000000, 0b11000000011000000, 0b11111111111111111, 0b11111111111111111,
  0b11111111111111111, 0b00000000011000000, 0b00000000011000000].flatMap row

/-- `char_MONTH`. -/
def charMonth : List UInt8 := [
  0b00000000000000000, 0b00000000000000000, 0b00011111111111111, 0b00011111111111111,
  0b00011111111111111, 0b00011100000000000, 0b00011100000000000, 0b00011100000000000,
  0b00011100000000000, 0b00011100000000000, 0b00011111111111111, 0b00011111111111111,
  0b00011100000000000, 0b00011100000000000, 0b00011100000000000, 0b00011100000000000,
  0b00011100000000000, 0b00011111111111111, 0b00011111111111111, 0b00111100000000000,
  0b00111000000000000, 0b00111000000000000, 0b01111000000000000].flatMap row

/-- `char_DAY`. -/
def charDay : List UInt8 := [
  0b00000000000000000, 0b00000000000000000, 0b00001111111111111, 0b00001111111111111,
  0b00001111111111111, 0b00001110000000000, 0b00001110000000000, 0b00001110000000000,
  0b00001110000000000, 0b00001110000000000, 0b00001110000000000, 0b00001110000000000,
  0b00001111111111111, 0b00001111111111111, 0b00001111111111111, 0b00001110000000000,
  0b00001110000000000, 0b00001110000000000, 0b00001110000000000, 0b00001110000000000,
  0b00001110000000000, 0b00001110000000000, 0b00001111111111111].flatMap row

end Glyph

/-- The arrays in the order in which they are copied. -/
def glyphs : List (List UInt8) :=
  [Glyph.num0, Glyph.num1, Glyph.num2, Glyph.num3, Glyph.num4, Glyph.num5, Glyph.num6, Glyph.num7,
    Glyph.num8, Glyph.num9, Glyph.numLine, Glyph.numSpace, Glyph.numColon, Glyph.charYear,
    Glyph.charMonth, Glyph.charDay]

end Jrtplib4Android
