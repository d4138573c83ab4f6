set_option autoImplicit false

/-! # Little-endian numbers

Code is a list of bytes, and every operand of more than one byte is stored with its least
significant byte first. `toLittleEndian` writes a number in a given width and
`littleEndian` reads the bytes back; they are inverse to each other up to the width.
-/

namespace ManagedCode

/-- The instruction bytes of a method. -/
abbrev Code := List UInt8

/-- The number whose base-256 digits are `bytes`, least significant first. -/
def littleEndian : List UInt8 → Nat
  | [] => 0
  | b :: bytes => b.toNat + 256 * littleEndian bytes

/-- The low `width` base-256 digits of `n`, least significant first. -/
def toLittleEndian : (width n : Nat) → List UInt8
  | 0, _ => []
  | width + 1, n => UInt8.ofNat n :: toLittleEndian width (n / 256)

/-- How many numbers `width` bytes can tell apart. -/
def byteRange : (width : Nat) → Nat
  | 0 => 1
  | width + 1 => 256 * byteRange width

/-- The number stored in the first `width` bytes; `none` when fewer bytes are left. -/
def readLittleEndian (width : Nat) (bytes : List UInt8) : Option Nat :=
  if (bytes.take width).length = width then some (littleEndian (bytes.take width)) else none

/-- The bytes of a 16-bit word. -/
def bytes16 (n : UInt16) : List UInt8 := toLittleEndian 2 n.toNat

/-- The bytes of a 32-bit word. -/
def bytes32 (n : UInt32) : List UInt8 := toLittleEndian 4 n.toNat

/-- The bytes of a 64-bit word. -/
def bytes64 (n : UInt64) : List UInt8 := toLittleEndian 8 n.toNat

/-! ## Writing and reading are inverse -/

@[simp]
theorem length_toLittleEndian (width n : Nat) : (toLittleEndian width n).length = width := by
  induction width generalizing n with
  | zero => rfl
  | succ width ih => simp [toLittleEndian, ih]

/-- What is read back is the number that was written, up to the width. -/
theorem littleEndian_toLittleEndian (width n : Nat) :
    littleEndian (toLittleEndian width n) = n % byteRange width := by
  induction width generalizing n with
  | zero => simp [toLittleEndian, littleEndian, byteRange, Nat.mod_one]
  | succ width ih =>
      rw [toLittleEndian, littleEndian, ih, byteRange, Nat.mod_mul, UInt8.toNat_ofNat']

theorem littleEndian_lt (bytes : List UInt8) : littleEndian bytes < byteRange bytes.length := by
  induction bytes with
  | nil => simp [littleEndian, byteRange]
  | cons b bytes ih =>
      have hb := b.toNat_lt
      simp only [littleEndian, List.length_cons, byteRange]
      omega

/-- What is written back are the bytes that were read. -/
theorem toLittleEndian_littleEndian (bytes : List UInt8) :
    toLittleEndian bytes.length (littleEndian bytes) = bytes := by
  induction bytes with
  | nil => rfl
  | cons b bytes ih =>
      have hb := b.toNat_lt
      simp only [littleEndian, List.length_cons, toLittleEndian]
      have hhead : UInt8.ofNat (b.toNat + 256 * littleEndian bytes) = b := by
        apply UInt8.toNat_inj.mp
        rw [UInt8.toNat_ofNat']
        omega
      have htail : (b.toNat + 256 * littleEndian bytes) / 256 = littleEndian bytes := by omega
      rw [hhead, htail, ih]

end ManagedCode
