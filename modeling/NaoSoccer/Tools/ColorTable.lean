import NaoSoccer.Common.AnnotationFile

/-!
# Color tables

A color table has a color for every cell of two by two by two values of a pixel.  The memory of a
table and of an image is a function of the place in it, so that a place outside of them is read as
well.  The enumeration of colors is stored as a byte, which may be none of its values.
-/

namespace NaoSoccer

/-- The value of a color in the enumeration. -/
def Color.value : Color → UInt8
  | c_UNDEFINED => 0
  | c_FIELD_GREEN => 1
  | c_WHITE => 2
  | c_ORANGE => 3
  | c_PINK => 4
  | c_BLUE => 5
  | c_YELLOW => 6
  | c_ROBOT_WHITE => 7

/-- Colors have different values. -/
lemma Color.value_injective : Function.Injective Color.value := by
  intro a b h
  cases a <;> cases b <;> first | rfl | exact absurd h (by decide)

/-- The memory from `colorTable` on. -/
abbrev ColorTable := ℕ → UInt8

namespace ColorTableMethods

/-- The place of a cell in a color table. -/
def cellIndex (y u v : ℕ) : ℕ := (y >>> 1) <<< 14 + (u >>> 1) <<< 7 + v >>> 1

/-- `ColorTableMethods::xy2yuv` -/
def xy2yuv (image : ℤ → UInt8) (x y width : ℤ) : UInt8 × UInt8 × UInt8 :=
  let tempX := x - x.tmod 2
  let index := (y * width + tempX) * 2
  (if x.tmod 2 = 1 then image (index + 2) else image index, image (index + 1), image (index + 3))

/-- `ColorTableMethods::yuv2color` -/
def yuv2color (table : ColorTable) (y u v : ℕ) : UInt8 := table (cellIndex y u v)

/-- `ColorTableMethods::xy2color` -/
def xy2color (image : ℤ → UInt8) (table : ColorTable) (x y width : ℤ) : UInt8 :=
  let yuv := xy2yuv image x y width
  yuv2color table yuv.1.toNat yuv.2.1.toNat yuv.2.2.toNat

/-- `ColorTableMethods::assignColor` -/
def assignColor (table : ColorTable) (y u v : ℕ) (c : Color) : ColorTable :=
  Function.update table (cellIndex y u v) c.value

end ColorTableMethods

end NaoSoccer
