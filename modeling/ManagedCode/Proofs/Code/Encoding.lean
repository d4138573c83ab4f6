import ManagedCode.Proofs.Code.Listing
import Mathlib.Algebra.Order.Ring.Int

set_option autoImplicit false

/-! # Reading what was written

Bytes encode an operand of a layout when they are read as this operand whatever follows them
(`Layout.Encodes`). There is one such fact for each layout, and together with the bytes of the
opcode it says that an instruction is read back (`Opcode.encodes`).

An encoded instruction at the front of the code comes first in the listing, and the listing goes on
with what lies behind it (`disassembleFrom_append`).
-/

namespace ManagedCode

/-! ## Numbers -/

/-- What was written is read, whatever follows. -/
theorem readLittleEndian_append (width n : Nat) (rest : List UInt8) :
    readLittleEndian width (toLittleEndian width n ++ rest) = some (n % byteRange width) := by
  have htake : (toLittleEndian width n ++ rest).take width = toLittleEndian width n :=
    List.take_left' (length_toLittleEndian width n)
  unfold readLittleEndian
  rw [htake, if_pos (length_toLittleEndian width n), littleEndian_toLittleEndian]

theorem readLittleEndian_byte (b : UInt8) (rest : List UInt8) :
    readLittleEndian 1 ([b] ++ rest) = some b.toNat := by
  simp [readLittleEndian, littleEndian]

theorem readLittleEndian_bytes16 (n : UInt16) (rest : List UInt8) :
    readLittleEndian 2 (bytes16 n ++ rest) = some n.toNat := by
  have hlt : n.toNat < byteRange 2 := n.toNat_lt
  rw [bytes16, readLittleEndian_append, Nat.mod_eq_of_lt hlt]

theorem readLittleEndian_bytes32 (n : UInt32) (rest : List UInt8) :
    readLittleEndian 4 (bytes32 n ++ rest) = some n.toNat := by
  have hlt : n.toNat < byteRange 4 := n.toNat_lt
  rw [bytes32, readLittleEndian_append, Nat.mod_eq_of_lt hlt]

theorem readLittleEndian_bytes64 (n : UInt64) (rest : List UInt8) :
    readLittleEndian 8 (bytes64 n ++ rest) = some n.toNat := by
  have hlt : n.toNat < byteRange 8 := n.toNat_lt
  rw [bytes64, readLittleEndian_append, Nat.mod_eq_of_lt hlt]

theorem length_bytes32 (n : UInt32) : (bytes32 n).length = 4 := length_toLittleEndian 4 _

/-- A signed byte that is wide enough keeps the displacement. -/
theorem displacement8_toUInt8 {distance : Int} (hmin : -128 ≤ distance) (hmax : distance ≤ 127) :
    displacement8 (Int8.ofInt distance).toUInt8.toNat = distance := by
  have hlt : distance < 2 ^ 7 := by omega
  rw [displacement8, UInt8.ofNat_toNat, Int8.toInt8_toUInt8]
  exact Int8.toInt_ofInt_of_le hmin hlt

theorem displacement32_toUInt32 {distance : Int} (hmin : -2 ^ 31 ≤ distance)
    (hmax : distance < 2 ^ 31) :
    displacement32 (Int32.ofInt distance).toUInt32.toNat = distance := by
  rw [displacement32, UInt32.ofNat_toNat, Int32.toInt32_toUInt32]
  exact Int32.toInt_ofInt_of_le hmin hmax

/-- The low byte of a displacement that fits in one. -/
theorem displacement8_lowByte {displacement : Int32} (hmin : -128 ≤ displacement.toInt)
    (hmax : displacement.toInt ≤ 127) :
    displacement8 (UInt8.ofNat displacement.toUInt32.toNat).toNat = displacement.toInt := by
  have hlt : displacement.toUInt32.toNat < 2 ^ 32 := UInt32.toNat_lt _
  have htoInt : displacement.toInt = Int.bmod displacement.toUInt32.toNat (2 ^ 32) :=
    BitVec.toInt_eq_toNat_bmod _
  have hlow : ∀ n, displacement8 (UInt8.ofNat n).toNat = Int.bmod n (2 ^ 8) := by
    intro n
    rw [displacement8, UInt8.ofNat_toNat, Int8.toInt, BitVec.toInt_eq_toNat_bmod]
    exact Int.emod_bmod n 256
  -- One number, taken modulo two powers of two, gives the same if the result is small.
  rw [hlow]
  rw [htoInt] at hmin hmax ⊢
  simp only [Int.bmod] at hmin hmax ⊢
  omega

/-! ## Operands -/

/-- The bytes are read as the operand, whatever follows them. -/
def Layout.Encodes (layout : Layout) (start : Nat) (operand : Operand) (bytes : List UInt8) :
    Prop :=
  ∀ rest, layout.read start (bytes ++ rest) = some (operand, bytes.length)

namespace Layout

variable {layout : Layout} {start : Nat}

theorem encodes_none (hlayout : layout = .none) : layout.Encodes start .none [] := by
  subst hlayout
  exact fun _ => rfl

/-- An operand that is one number. -/
theorem encodes_number {width n : Nat} {bytes : List UInt8} (operand : Nat → Operand)
    (hread : ∀ code, layout.read start code =
      (readLittleEndian width code).bind fun n => some (operand n, width))
    (hlength : bytes.length = width)
    (hnumber : ∀ rest, readLittleEndian width (bytes ++ rest) = some n) :
    layout.Encodes start (operand n) bytes := by
  intro rest
  rw [hread, hnumber rest, hlength]
  rfl

theorem encodes_byte (operand : UInt8 → Operand)
    (hread : ∀ code, layout.read start code =
      (readLittleEndian 1 code).bind fun n => some (operand (UInt8.ofNat n), 1)) (value : UInt8) :
    layout.Encodes start (operand value) [value] := by
  have h := encodes_number _ hread List.length_singleton (readLittleEndian_byte value)
  rwa [UInt8.ofNat_toNat] at h

theorem encodes_word32 (operand : UInt32 → Operand)
    (hread : ∀ code, layout.read start code =
      (readLittleEndian 4 code).bind fun n => some (operand (UInt32.ofNat n), 4)) (value : UInt32) :
    layout.Encodes start (operand value) (bytes32 value) := by
  have h := encodes_number _ hread (length_bytes32 value) (readLittleEndian_bytes32 value)
  rwa [UInt32.ofNat_toNat] at h

theorem encodes_word64 (operand : UInt64 → Operand)
    (hread : ∀ code, layout.read start code =
      (readLittleEndian 8 code).bind fun n => some (operand (UInt64.ofNat n), 8)) (value : UInt64) :
    layout.Encodes start (operand value) (bytes64 value) := by
  have h := encodes_number _ hread (length_toLittleEndian 8 _) (readLittleEndian_bytes64 value)
  rwa [UInt64.ofNat_toNat] at h

/-- The operand that a byte is in a layout of one byte. -/
def operand8 (layout : Layout) (value : UInt8) : Operand :=
  match layout with
  | .int8 => .int8 value.toInt8
  | _ => .uint8 value

theorem encodes_operand8 (h : layout = .int8 ∨ layout = .uint8)
    (value : UInt8) : layout.Encodes start (layout.operand8 value) [value] := by
  refine encodes_byte layout.operand8 ?_ value
  rcases h with rfl | rfl
  · exact fun _ => rfl
  · exact fun _ => rfl

theorem encodes_uint16 (hlayout : layout = .uint16) (value : UInt16) :
    layout.Encodes start (.uint16 value) (bytes16 value) := by
  subst hlayout
  have h : uint16.Encodes start (.uint16 (UInt16.ofNat value.toNat)) (bytes16 value) :=
    encodes_number (fun n => .uint16 (UInt16.ofNat n)) (fun _ => rfl) (length_toLittleEndian 2 _)
      (readLittleEndian_bytes16 value)
  rwa [UInt16.ofNat_toNat] at h

/-- The operand that a word is in a layout of four bytes. -/
def operand32 (layout : Layout) (value : UInt32) : Operand :=
  match layout with
  | .int32 => .int32 value.toInt32
  | .float32 => .float32 value
  | _ => .token value

theorem encodes_operand32
    (h : (layout = .int32 ∨ layout = .float32) ∨ layout = .token) (value : UInt32) :
    layout.Encodes start (layout.operand32 value) (bytes32 value) := by
  refine encodes_word32 layout.operand32 ?_ value
  rcases h with (rfl | rfl) | rfl
  · exact fun _ => rfl
  · exact fun _ => rfl
  · exact fun _ => rfl

/-- A short branch is told the distance from the instruction behind it. -/
theorem encodes_shortBranch (hlayout : layout = .shortBranch) {byte : UInt8} {distance : Int}
    (hbyte : displacement8 byte.toNat = distance) :
    layout.Encodes start (.branch (start + 1 + distance)) [byte] := by
  subst hlayout hbyte
  exact encodes_number (fun n => .branch (start + 1 + displacement8 n)) (fun _ => rfl)
    List.length_singleton (readLittleEndian_byte byte)

theorem encodes_branch (hlayout : layout = .branch) {word : UInt32} {distance : Int}
    (hword : displacement32 word.toNat = distance) :
    layout.Encodes start (.branch (start + 4 + distance)) (bytes32 word) := by
  subst hlayout hword
  exact encodes_number (fun n => .branch (start + 4 + displacement32 n)) (fun _ => rfl)
    (length_bytes32 word) (readLittleEndian_bytes32 word)

/-- The bytes of the table of a switch. -/
def caseBytes (distances : List Int) : List UInt8 :=
  distances.flatMap fun distance => bytes32 (Int32.ofInt distance).toUInt32

theorem length_caseBytes (distances : List Int) :
    (caseBytes distances).length = 4 * distances.length := by
  induction distances with
  | nil => rfl
  | cons distance distances ih =>
      rw [caseBytes, List.flatMap_cons, List.length_append, length_bytes32, List.length_cons]
      unfold caseBytes at ih
      omega

/-- Numbers that were written one behind the other are read. -/
theorem readWords_append {words : List Nat} (hwords : ∀ word ∈ words, word < byteRange 4)
    (rest : List UInt8) :
    readWords words.length (words.flatMap (toLittleEndian 4) ++ rest) = some words := by
  induction words with
  | nil => rfl
  | cons word words ih =>
      obtain ⟨hword, hwords⟩ := List.forall_mem_cons.mp hwords
      have hdrop : (toLittleEndian 4 word ++ (words.flatMap (toLittleEndian 4) ++ rest)).drop 4 =
          words.flatMap (toLittleEndian 4) ++ rest :=
        List.drop_left' (length_toLittleEndian 4 word)
      rw [List.flatMap_cons, List.append_assoc, List.length_cons, readWords,
        readLittleEndian_append, Nat.mod_eq_of_lt hword, hdrop, ih hwords]
      rfl

theorem readWords_caseBytes (distances : List Int) (rest : List UInt8) :
    readWords distances.length (caseBytes distances ++ rest) =
      some (distances.map fun distance => (Int32.ofInt distance).toUInt32.toNat) := by
  have hwords : ∀ word ∈ distances.map fun distance => (Int32.ofInt distance).toUInt32.toNat,
      word < byteRange 4 := by
    intro word hword
    obtain ⟨distance, _, rfl⟩ := List.mem_map.mp hword
    exact UInt32.toNat_lt _
  have hread := readWords_append hwords rest
  rw [List.length_map, List.flatMap_map] at hread
  exact hread

theorem encodes_switch {distances : List Int}
    (hrange : ∀ distance ∈ distances, -2 ^ 31 ≤ distance ∧ distance < 2 ^ 31)
    (hcount : distances.length < 2 ^ 32) :
    switch.Encodes start
      (.switch (distances.map fun distance => start + (4 + 4 * distances.length) + distance))
      (bytes32 (UInt32.ofNat distances.length) ++ caseBytes distances) := by
  intro rest
  have hcount' : (UInt32.ofNat distances.length).toNat = distances.length :=
    UInt32.toNat_ofNat_of_lt' hcount
  have hdrop : ((bytes32 (UInt32.ofNat distances.length) ++ caseBytes distances) ++ rest).drop 4 =
      caseBytes distances ++ rest := by
    rw [List.append_assoc]
    exact List.drop_left' (length_bytes32 _)
  have hmap : ∀ distance ∈ distances,
      displacement32 (Int32.ofInt distance).toUInt32.toNat = distance :=
    fun distance hmem => displacement32_toUInt32 (hrange distance hmem).1 (hrange distance hmem).2
  have hlength : (bytes32 (UInt32.ofNat distances.length) ++ caseBytes distances).length =
      4 + 4 * distances.length := by
    rw [List.length_append, length_bytes32, length_caseBytes]
  have hread : readLittleEndian 4
      ((bytes32 (UInt32.ofNat distances.length) ++ caseBytes distances) ++ rest) =
        some distances.length := by
    rw [List.append_assoc, readLittleEndian_bytes32, hcount']
  simp only [read, hread, hdrop, hlength, readWords_caseBytes, Option.bind_eq_bind,
    Option.bind_some, List.map_map, Option.pure_def]
  congr 3
  refine List.map_congr_left fun distance hmem => ?_
  simp only [Function.comp_apply, hmap distance hmem]
  push_cast
  rfl

theorem encodes_payload8 {payload : List UInt8} (hlength : payload.length < 256) :
    payload8.Encodes start (.payload payload.length)
      ([UInt8.ofNat payload.length] ++ payload) := by
  intro rest
  have hcount : (UInt8.ofNat payload.length).toNat = payload.length :=
    UInt8.toNat_ofNat_of_lt' hlength
  have hread : readLittleEndian 1 (([UInt8.ofNat payload.length] ++ payload) ++ rest) =
      some payload.length := by
    rw [List.append_assoc, readLittleEndian_byte, hcount]
  have hdrop : (([UInt8.ofNat payload.length] ++ payload) ++ rest).drop 1 = payload ++ rest := rfl
  simp only [read, hread, hdrop, Option.bind_eq_bind, Option.bind_some, List.take_left, if_true,
    List.length_append, List.length_singleton]
  rfl

theorem encodes_payload32 {payload : List UInt8} (hlength : payload.length < 2 ^ 32) :
    payload32.Encodes start (.payload payload.length)
      (bytes32 (UInt32.ofNat payload.length) ++ payload) := by
  intro rest
  have hcount : (UInt32.ofNat payload.length).toNat = payload.length :=
    UInt32.toNat_ofNat_of_lt' hlength
  have hread : readLittleEndian 4 ((bytes32 (UInt32.ofNat payload.length) ++ payload) ++ rest) =
      some payload.length := by
    rw [List.append_assoc, readLittleEndian_bytes32, hcount]
  have hdrop : ((bytes32 (UInt32.ofNat payload.length) ++ payload) ++ rest).drop 4 =
      payload ++ rest := by
    rw [List.append_assoc]
    exact List.drop_left' (length_bytes32 _)
  simp only [read, hread, hdrop, Option.bind_eq_bind, Option.bind_some, List.take_left, if_true,
    List.length_append, length_bytes32]
  rfl

end Layout

/-! ## Instructions -/

theorem readOpcodeIndex_append (opcode : Opcode) (rest : List UInt8) :
    readOpcodeIndex (opcode.encoding ++ rest) = some opcode.index := by
  cases opcode <;> rfl

/-- The bytes are read as the instruction, whatever follows them. -/
structure Instruction.Encodes (i : Instruction) (bytes : List UInt8) : Prop where
  read_eq : ∀ rest, Instruction.read i.offset (bytes ++ rest) = .ok i
  size_eq : i.size = bytes.length

/-- An opcode in front of an operand of its layout. -/
theorem Opcode.encodes {opcode : Opcode} {offset : Nat} {operand : Operand} {bytes : List UInt8}
    (h : opcode.layout.Encodes (offset + opcode.length) operand bytes) :
    Instruction.Encodes ⟨offset, opcode, opcode.length + bytes.length, operand⟩
      (opcode.encoding ++ bytes) := by
  refine ⟨fun rest => ?_, ?_⟩
  · have hdrop : (opcode.encoding ++ (bytes ++ rest)).drop opcode.length = bytes ++ rest :=
      List.drop_left' opcode.length_encoding
    rw [List.append_assoc, Instruction.read, readOpcodeIndex_append]
    simp only [Opcode.ofIndex?_index, hdrop, h rest]
  · rw [List.length_append, opcode.length_encoding]

/-- An instruction at the front of the code comes first in the listing. -/
theorem disassembleFrom_append {i : Instruction} {bytes : List UInt8} (h : i.Encodes bytes)
    (rest : List UInt8) :
    disassembleFrom i.offset (bytes ++ rest) =
      ⟨i :: (disassembleFrom i.next rest).instructions, (disassembleFrom i.next rest).fault⟩ := by
  obtain ⟨hread, hlength⟩ := h
  cases bytes with
  | nil =>
      have hsize := Instruction.size_pos_of_read (hread rest)
      rw [hlength] at hsize
      exact absurd hsize (Nat.lt_irrefl 0)
  | cons b tail =>
      have htail : (tail ++ rest).drop (i.size - 1) = rest := by
        refine List.drop_left' ?_
        rw [hlength, List.length_cons, Nat.add_sub_cancel]
      rw [List.cons_append, disassembleFrom_cons, ← List.cons_append, hread rest]
      simp only [htail]

end ManagedCode
