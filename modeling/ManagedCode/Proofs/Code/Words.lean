import ManagedCode.Proofs.Code.PrefixCode

set_option autoImplicit false

/-! # Decoding in machine words

A machine computes in words of a fixed width, and it reads code by index. `Words.decode` decodes on
such a machine: whatever is computed goes into a word of the width that is used for it, and whatever
is read is fetched at an index. A number that does not fit into its word is a trap, and so is an
index behind the code.

There is no trap in code shorter than `2 ^ 32` bytes, whatever counts and lengths stand in it: the
machine decodes what `Instruction.decode` does (`Words.decode_eq`). The reason is the order of the
checks. A count is read from bytes that are there, so its table extends over less than `2 ^ 34`
bytes. This is compared with the code before any of the table is read, and what lies inside the code
fits into half a word.

A cursor that decodes one instruction after the other comes to an end with the listing of the code
(`Words.Cursor.yields_items`), and a listing tiles the code (`Listing.tiles`).
-/

namespace ManagedCode

/-! ## The machine -/

namespace Words

/-- Why the machine stops. -/
inductive Trap where
  /-- An index lies behind the code. -/
  | outside (index : Nat)
  /-- A number does not fit into its word. -/
  | tooWide (n : Int)
  deriving DecidableEq

/-- A number in an unsigned word. -/
def unsigned (bits n : Nat) : Except Trap Nat :=
  if n < 2 ^ bits then .ok n else .error (.tooWide n)

/-- A number in a signed word of 64 bits. -/
def signed (n : Int) : Except Trap Int :=
  if -2 ^ 63 ≤ n ∧ n < 2 ^ 63 then .ok n else .error (.tooWide n)

/-- The byte at an index. -/
def fetch (code : Code) (index : Nat) : Except Trap UInt8 :=
  match code[index]? with
  | some byte => .ok byte
  | none => .error (.outside index)

/-- The number of `width` bytes at an index. -/
def fetchNumber (code : Code) (index width : Nat) : Except Trap Nat := do
  let bytes ← (List.range width).mapM fun k => do fetch code (← unsigned 64 (index + k))
  return littleEndian bytes

/-- How many bytes an operand has behind its fixed part. -/
def extent (code : Code) (start : Nat) : Layout → Except Trap Nat
  | .switch => do unsigned 64 ((← fetchNumber code start 4) * 4)
  | .payload8 => fetchNumber code start 1
  | .payload32 => fetchNumber code start 4
  | _ => .ok 0

/-- The operand at an index, with targets that count from `next`. -/
def operand (code : Code) (start : Nat) (next : Int) : Layout → Except Trap Operand
  | .none => .ok .none
  | .shortBranch => do
      return .branch (← signed (next + displacement8 (← fetchNumber code start 1)))
  | .branch => do
      return .branch (← signed (next + displacement32 (← fetchNumber code start 4)))
  | .switch => do
      let count ← fetchNumber code start 4
      let targets ← (List.range count).mapM fun k => do
        let index ← unsigned 64 (start + 4 + k * 4)
        signed (next + displacement32 (← fetchNumber code index 4))
      return .switch targets
  | .payload8 => do return .payload (← fetchNumber code start 1)
  | .payload32 => do return .payload (← fetchNumber code start 4)
  | layout => do return layout.ofNumber start (← fetchNumber code start layout.fixedLength)

/-- The instruction at an offset, the `length` bytes of whose opcode have been read. -/
def decodeOperand (code : Code) (offset length : Nat) (opcode : Opcode) :
    Except Trap (Except DecodeError Instruction) := do
  -- No count is read before the fixed part is known to be there, and nothing behind it before the
  -- whole is.
  if code.length < (← unsigned 64 (offset + opcode.size)) then
    return .error (.truncated offset)
  else
    let start ← unsigned 64 (offset + length)
    let total ← unsigned 64 (opcode.size + (← extent code start opcode.layout))
    if code.length < (← unsigned 64 (offset + total)) then
      return .error (.truncated offset)
    else
      let size ← unsigned 32 total
      let next ← signed ((offset + total : Nat) : Int)
      return .ok ⟨offset, opcode, size, ← operand code start next opcode.layout⟩

/-- The instruction at an offset, the `length` bytes of whose opcode have been read as an index. -/
def decodeIndex (code : Code) (offset length index : Nat) :
    Except Trap (Except DecodeError Instruction) :=
  match Opcode.ofIndex? index with
  | none => .ok (.error (.invalidOpcode offset))
  | some opcode => decodeOperand code offset length opcode

/-- The instruction at an offset. -/
def decode (code : Code) (offset : Nat) : Except Trap (Except DecodeError Instruction) :=
  match code[offset]? with
  | none => .ok (.error (.truncated offset))
  | some first =>
      if first = escapeByte then do
        match code[← unsigned 64 (offset + 1)]? with
        | none => return .error (.truncated offset)
        | some second =>
            decodeIndex code offset 2 (← unsigned 16 (escapedBase + second.toNat))
      else decodeIndex code offset 1 first.toNat

/-! ## No traps -/

theorem unsigned_eq {bits n : Nat} (h : n < 2 ^ bits) : unsigned bits n = .ok n := if_pos h

theorem signed_eq {n : Int} (hmin : -2 ^ 63 ≤ n) (hmax : n < 2 ^ 63) : signed n = .ok n :=
  if_pos ⟨hmin, hmax⟩

variable {code : Code} {offset start index width count : Nat} {layout : Layout}

theorem fetch_eq (h : index < code.length) : fetch code index = .ok code[index] := by
  unfold fetch
  rw [List.getElem?_eq_getElem h]

theorem length_window (h : index + width ≤ code.length) :
    (window code index width).length = width := by
  simp only [window, List.length_take, List.length_drop]
  omega

/-- Inside the code every byte of a number can be fetched. -/
theorem fetchNumber_eq (hcode : code.length < 2 ^ 32) (h : index + width ≤ code.length) :
    fetchNumber code index width = .ok (littleEndian (window code index width)) := by
  have hfetch : ∀ k ∈ List.range width,
      (do fetch code (← unsigned 64 (index + k))) = .ok (code.getD (index + k) 0) := by
    intro k hk
    have hlt : k < width := List.mem_range.mp hk
    refine bind_of_ok (unsigned_eq (by omega)) ?_
    have hindex : index + k < code.length := by omega
    rw [fetch_eq hindex, List.getElem_eq_getD 0]
  have hwindow : (List.range width).map (fun k => code.getD (index + k) 0) =
      window code index width := by
    refine List.ext_getElem ?_ fun k hk _ => ?_
    · rw [List.length_map, List.length_range, length_window h]
    · simp only [List.length_map, List.length_range] at hk
      simp only [window, List.getElem_map, List.getElem_range, List.getElem_take,
        List.getElem_drop]
      exact (List.getElem_eq_getD 0).symm
  refine bind_of_ok (mapM_of_ok hfetch) ?_
  rw [hwindow]
  rfl

theorem readLittleEndian_drop (h : index + width ≤ code.length) :
    readLittleEndian width (code.drop index) = some (littleEndian (window code index width)) :=
  if_pos (length_window h)

/-- A table inside the code has its words at every fourth byte. -/
theorem readWords_drop (h : index + 4 * count ≤ code.length) :
    readWords count (code.drop index) =
      some ((List.range count).map fun k => littleEndian (window code (index + k * 4) 4)) := by
  induction count generalizing index with
  | zero => rfl
  | succ count ih =>
      have hshift : (fun k => littleEndian (window code (index + 4 + k * 4) 4)) =
          (fun k => littleEndian (window code (index + k * 4) 4)) ∘ Nat.succ := by
        funext k
        have hindex : index + 4 + k * 4 = index + k.succ * 4 := by omega
        simp only [Function.comp_apply, hindex]
      rw [readWords, readLittleEndian_drop (by omega), List.drop_drop, ih (by omega), hshift,
        List.range_succ_eq_map, List.map_cons, List.map_map, Nat.zero_mul, Nat.add_zero]
      rfl

/-- A number in the code is below the range of its width. -/
theorem littleEndian_window_lt (h : index + width ≤ code.length) :
    littleEndian (window code index width) < byteRange width := by
  have hlt := littleEndian_lt (window code index width)
  rwa [length_window h] at hlt

theorem displacement8_bounds (n : Nat) : -2 ^ 7 ≤ displacement8 n ∧ displacement8 n < 2 ^ 7 :=
  ⟨Int8.le_toInt _, Int8.toInt_lt _⟩

theorem displacement32_bounds (n : Nat) : -2 ^ 31 ≤ displacement32 n ∧ displacement32 n < 2 ^ 31 :=
  ⟨Int32.le_toInt _, Int32.toInt_lt _⟩

/-- The machine finds out how long the operand is. If it lies in the code, it is read, and else
`Layout.read` does not read it either. -/
def Reads (code : Code) (start : Nat) (layout : Layout) : Prop :=
  ∃ tail < 2 ^ 34, extent code start layout = .ok tail ∧
    if start + layout.fixedLength + tail ≤ code.length then
      ∃ value,
        operand code start ((start + layout.fixedLength + tail : Nat) : Int) layout = .ok value ∧
        layout.read start (code.drop start) = some (value, layout.fixedLength + tail)
    else layout.read start (code.drop start) = none

theorem reads_of_isNumber (hcode : code.length < 2 ^ 32) (hlayout : layout.isNumber = true)
    (h : start + layout.fixedLength ≤ code.length) : Reads code start layout := by
  have hextent : extent code start layout = .ok 0 := by
    cases layout <;> first | rfl | cases hlayout
  have hnumber := fetchNumber_eq hcode h
  have hoperand : operand code start ((start + layout.fixedLength : Nat) : Int) layout =
      .ok (layout.ofNumber start (littleEndian (window code start layout.fixedLength))) := by
    cases layout with
    | none | switch | payload8 | payload32 => cases hlayout
    | shortBranch =>
        refine bind_of_ok hnumber (bind_of_ok (signed_eq ?_ ?_) rfl)
        all_goals
          have hbounds := displacement8_bounds (littleEndian (window code start 1))
          simp only [Layout.fixedLength] at h hbounds ⊢
          omega
    | branch =>
        refine bind_of_ok hnumber (bind_of_ok (signed_eq ?_ ?_) rfl)
        all_goals
          have hbounds := displacement32_bounds (littleEndian (window code start 4))
          simp only [Layout.fixedLength] at h hbounds ⊢
          omega
    | _ => exact bind_of_ok hnumber rfl
  refine ⟨0, by decide, hextent, ?_⟩
  simp only [Nat.add_zero]
  rw [if_pos h, Layout.read_of_isNumber hlayout, readLittleEndian_drop h]
  exact ⟨_, hoperand, rfl⟩

theorem reads_of_isPayload (hcode : code.length < 2 ^ 32) (hlayout : layout.isPayload = true)
    (h : start + layout.fixedLength ≤ code.length) : Reads code start layout := by
  have hnumber := fetchNumber_eq hcode h
  have hread := readLittleEndian_drop h
  have hrange : byteRange layout.fixedLength ≤ 2 ^ 32 := by
    cases layout <;> first | decide | cases hlayout
  have hlt := littleEndian_window_lt h
  generalize littleEndian (window code start layout.fixedLength) = length at hnumber hread hlt
  have hextent : extent code start layout = .ok length := by
    cases layout <;> first | exact hnumber | cases hlayout
  have hoperand : ∀ next, operand code start next layout = .ok (.payload length) := by
    intro next
    cases layout <;> first | exact bind_of_ok hnumber rfl | cases hlayout
  refine ⟨length, by omega, hextent, ?_⟩
  rw [Layout.read_of_isPayload hlayout, hread, Option.bind_some, List.drop_drop, List.length_take,
    List.length_drop]
  split
  · rw [if_pos (by omega)]
    exact ⟨_, hoperand _, rfl⟩
  · exact if_neg (by omega)

/-- The table of a switch is read only if all of it lies in the code. -/
theorem reads_switch (hcode : code.length < 2 ^ 32) (h : start + 4 ≤ code.length) :
    Reads code start .switch := by
  have hnumber := fetchNumber_eq hcode h
  have hread := readLittleEndian_drop h
  have hlt : littleEndian (window code start 4) < 2 ^ 32 := littleEndian_window_lt h
  generalize littleEndian (window code start 4) = count at hnumber hread hlt
  have hextent : extent code start .switch = .ok (count * 4) :=
    bind_of_ok hnumber (unsigned_eq (by omega))
  refine ⟨count * 4, by omega, hextent, ?_⟩
  simp only [Layout.read, hread, Option.bind_eq_bind, Option.bind_some, List.drop_drop,
    Layout.fixedLength]
  split
  · rename_i hinside
    have hstop : ((start + 4 + count * 4 : Nat) : Int) = start + (4 + 4 * count : Nat) := by omega
    -- Every entry of the table ends where the table does or before.
    have hcases : ∀ k ∈ List.range count,
        (do
          let index ← unsigned 64 (start + 4 + k * 4)
          signed (start + (4 + 4 * count : Nat) + displacement32 (← fetchNumber code index 4))) =
        .ok (start + (4 + 4 * count : Nat) +
          displacement32 (littleEndian (window code (start + 4 + k * 4) 4))) := by
      intro k hk
      have hlt : k < count := List.mem_range.mp hk
      have hbounds := displacement32_bounds (littleEndian (window code (start + 4 + k * 4) 4))
      refine bind_of_ok (unsigned_eq (by omega)) (bind_of_ok (fetchNumber_eq hcode (by omega)) ?_)
      exact signed_eq (by omega) (by omega)
    rw [readWords_drop (by omega), Option.bind_some, List.map_map, hstop, Nat.mul_comm count 4]
    exact ⟨_, bind_of_ok hnumber (bind_of_ok (mapM_of_ok hcases) rfl), rfl⟩
  · -- Words that are read have their bytes in the code, and this table has not.
    cases hwords : readWords count (code.drop (start + 4)) with
    | none => rfl
    | some words =>
        obtain ⟨hlength, _, hbytes⟩ := readWords_eq_some hwords
        have hsize := congrArg List.length hbytes
        rw [List.length_append, length_wordBytes, List.length_drop] at hsize
        omega

theorem reads (hcode : code.length < 2 ^ 32) (h : start + layout.fixedLength ≤ code.length) :
    Reads code start layout := by
  cases layout with
  | none =>
      refine ⟨0, by decide, rfl, ?_⟩
      simp only [Nat.add_zero, if_pos h]
      exact ⟨_, rfl, rfl⟩
  | switch => exact reads_switch hcode h
  | payload8 | payload32 => exact reads_of_isPayload hcode rfl h
  | int8 | uint8 | uint16 | int32 | int64 | float32 | float64 | token | shortBranch | branch =>
      exact reads_of_isNumber hcode rfl h

/-- An instruction is decoded as by `Layout.read`, if its opcode is there. -/
theorem decodeOperand_eq (hcode : code.length < 2 ^ 32) {opcode : Opcode}
    (h : offset + opcode.length ≤ code.length) :
    decodeOperand code offset opcode.length opcode =
      .ok (match opcode.layout.read (offset + opcode.length)
          (code.drop (offset + opcode.length)) with
        | none => .error (.truncated offset)
        | some (operand, size) => .ok ⟨offset, opcode, opcode.length + size, operand⟩) := by
  have hsize : opcode.size = opcode.length + opcode.layout.fixedLength := rfl
  have hfixed : opcode.layout.fixedLength ≤ 8 := by
    cases opcode.layout <;> decide
  unfold decodeOperand
  refine bind_of_ok (unsigned_eq (by omega)) ?_
  split
  · rename_i hshort
    have hnone : opcode.layout.read (offset + opcode.length)
        (code.drop (offset + opcode.length)) = none := by
      cases hread : opcode.layout.read (offset + opcode.length)
          (code.drop (offset + opcode.length)) with
      | none => rfl
      | some result =>
          -- What is read has its fixed part in the code.
          obtain ⟨written, rest, hbytes, _, hwritten⟩ := Layout.read_eq_some_iff.mp hread
          have hle := hwritten.fixedLength_le
          have hlength := congrArg List.length hbytes
          rw [List.length_drop, List.length_append] at hlength
          omega
    rw [hnone]
    rfl
  · obtain ⟨tail, htail, hextent, hreads⟩ :=
      reads hcode (show offset + opcode.length + opcode.layout.fixedLength ≤ code.length by omega)
    refine bind_of_ok (unsigned_eq (by omega)) (bind_of_ok hextent ?_)
    refine bind_of_ok (unsigned_eq (by omega)) (bind_of_ok (unsigned_eq (by omega)) ?_)
    split
    · rw [if_neg (by omega)] at hreads
      rw [hreads]
      rfl
    · rw [if_pos (by omega)] at hreads
      obtain ⟨value, hoperand, hread⟩ := hreads
      have hnext : offset + (opcode.size + tail) =
          offset + opcode.length + opcode.layout.fixedLength + tail := by omega
      rw [hread, hnext]
      refine bind_of_ok (unsigned_eq (by omega)) (bind_of_ok (signed_eq (by omega) (by omega)) ?_)
      refine bind_of_ok hoperand ?_
      rw [hsize, Nat.add_assoc]
      rfl

theorem decodeIndex_eq (hcode : code.length < 2 ^ 32) {first : UInt8} {rest : List UInt8}
    (hbytes : code.drop offset = first :: rest)
    (hindex : readOpcodeIndex (first :: rest) = some index) :
    decodeIndex code offset (if first = escapeByte then 2 else 1) index =
      .ok (Instruction.decode code offset) := by
  unfold decodeIndex Instruction.decode Instruction.read
  rw [hbytes, hindex]
  dsimp only
  cases hopcode : Opcode.ofIndex? index with
  | none => rfl
  | some opcode =>
      rw [← Opcode.index_of_ofIndex? hopcode] at hindex
      have hlength : (if first = escapeByte then 2 else 1) = opcode.length := by
        simp [Opcode.length, Opcode.isEscaped_of_readOpcodeIndex hindex]
      have hle : offset + opcode.length ≤ code.length := by
        have hsize := congrArg List.length (Opcode.encoding_of_readOpcodeIndex hindex)
        rw [← hbytes, List.length_append, Opcode.length_encoding, List.length_drop] at hsize
        have hpos : 0 < (code.drop offset).length := by simp [hbytes]
        rw [List.length_drop] at hpos
        omega
      rw [hlength, ← hbytes]
      simp only [List.drop_drop]
      exact decodeOperand_eq hcode hle

/-- **Decoding neither traps nor goes wrong in words.** -/
theorem decode_eq (hcode : code.length < 2 ^ 32) (hoffset : offset < 2 ^ 32) :
    decode code offset = .ok (Instruction.decode code offset) := by
  have hfirst : code[offset]? = (code.drop offset)[0]? := by rw [List.getElem?_drop, Nat.add_zero]
  have hsecond : code[offset + 1]? = (code.drop offset)[1]? := by rw [List.getElem?_drop]
  unfold decode
  cases hbytes : code.drop offset with
  | nil =>
      rw [hfirst, hbytes]
      unfold Instruction.decode
      rw [hbytes]
      rfl
  | cons first rest =>
      rw [hfirst, hbytes, List.getElem?_cons_zero]
      by_cases hescape : first = escapeByte
      · simp only [if_pos hescape]
        refine bind_of_ok (unsigned_eq (by omega)) ?_
        rw [hsecond, hbytes]
        cases rest with
        | nil =>
            unfold Instruction.decode
            rw [hbytes, hescape]
            rfl
        | cons second rest =>
            have hwide : escapedBase + second.toNat < 2 ^ 16 := by
              have hlt := second.toNat_lt
              simp only [escapedBase]
              omega
            have hread : readOpcodeIndex (first :: second :: rest) =
                some (escapedBase + second.toNat) := if_pos hescape
            have hdecode := decodeIndex_eq hcode hbytes hread
            rw [if_pos hescape] at hdecode
            exact bind_of_ok (unsigned_eq hwide) hdecode
      · simp only [if_neg hescape]
        have hread : readOpcodeIndex (first :: rest) = some first.toNat := if_neg hescape
        have hdecode := decodeIndex_eq hcode hbytes hread
        rw [if_neg hescape] at hdecode
        exact hdecode

end Words

/-! ## Listings -/

/-- Where the instructions end, the first of which starts at `start`. -/
def Instruction.stop (start : Nat) : List Instruction → Nat
  | [] => start
  | i :: rest => stop i.next rest

namespace Listing

/-- The instructions lie one behind the other, from `start` up to `size` or up to the place of the
error, which lies before. -/
structure Tiles (listing : Listing) (start size : Nat) : Prop where
  consecutive : Instruction.Consecutive start listing.instructions
  complete : listing.fault = none → Instruction.stop start listing.instructions = size
  fault : ∀ e, listing.fault = some e →
    e.offset = Instruction.stop start listing.instructions ∧ e.offset < size

/-- What is found one after the other: the instructions, and at last the error. -/
def items (listing : Listing) : List (Except DecodeError Instruction) :=
  listing.instructions.map .ok ++ listing.fault.toList.map .error

/-- **A listing tiles the code.** -/
theorem tiles (offset : Nat) (bytes : List UInt8) :
    (disassembleFrom offset bytes).Tiles offset (offset + bytes.length) := by
  refine disassembleFrom_rec (P := fun offset bytes listing =>
    listing.Tiles offset (offset + bytes.length)) ?nil ?fault ?cons offset bytes
  case nil =>
    intro offset
    exact ⟨trivial, fun _ => rfl, nofun⟩
  case fault =>
    intro offset bytes e hpos hread
    have hoffset : e.offset = offset := by
      rcases Instruction.read_eq_error hread with rfl | ⟨rfl, _⟩ <;> rfl
    refine ⟨trivial, nofun, fun e' he' => ?_⟩
    cases he'
    exact ⟨hoffset, by omega⟩
  case cons =>
    intro offset bytes i tail _ hread htail
    have hoffset := (Instruction.read_eq_ok hread).1
    have hle := Instruction.size_le_of_read hread
    -- The end is the same, seen from the next instruction.
    have hend : i.next + (bytes.drop i.size).length = offset + bytes.length := by
      simp only [Instruction.next, List.length_drop]
      omega
    rw [hend] at htail
    exact ⟨⟨hoffset, Instruction.size_pos_of_read hread, htail.consecutive⟩, htail.complete,
      htail.fault⟩

end Listing

namespace Words

/-! ## The cursor -/

/-- Where decoding goes on, unless it has failed. -/
structure Cursor where
  offset : Nat := 0
  failed : Bool := false

namespace Cursor

/-- The next item with the cursor behind it, or `none` at the end. -/
def next (code : Code) (c : Cursor) :
    Except Trap (Option (Except DecodeError Instruction × Cursor)) :=
  if c.failed = true ∨ code.length ≤ c.offset then .ok none
  else do
    match ← decode code c.offset with
    | .ok i => return some (.ok i, { c with offset := ← unsigned 32 (i.offset + i.size) })
    | .error e => return some (.error e, { c with failed := true })

/-- The items from a cursor on, up to the end. -/
inductive Yields (code : Code) : Cursor → List (Except DecodeError Instruction) → Prop where
  | nil {c : Cursor} (hnext : c.next code = .ok none) : Yields code c []
  | cons {c c' : Cursor} {item : Except DecodeError Instruction}
      {items : List (Except DecodeError Instruction)}
      (hnext : c.next code = .ok (some (item, c'))) (hitems : Yields code c' items) :
      Yields code c (item :: items)

variable {code : Code}

theorem next_of_decode (hcode : code.length < 2 ^ 32) {offset : Nat} {i : Instruction}
    (hoffset : offset < code.length) (h : Instruction.decode code offset = .ok i) :
    next code { offset } = .ok (some (.ok i, { offset := i.next })) := by
  have hnext : i.next ≤ code.length := by
    have hle := Instruction.size_le_of_read h
    rw [List.length_drop] at hle
    rw [Instruction.next, (Instruction.read_eq_ok h).1]
    omega
  have hgoes : ¬ (false = true ∨ code.length ≤ offset) := by
    simpa using hoffset
  refine (if_neg hgoes).trans (bind_of_ok (decode_eq hcode (Nat.lt_trans hoffset hcode)) ?_)
  rw [h]
  exact bind_of_ok (unsigned_eq (Nat.lt_of_le_of_lt hnext hcode)) rfl

theorem next_of_fault (hcode : code.length < 2 ^ 32) {offset : Nat} {e : DecodeError}
    (hoffset : offset < code.length) (h : Instruction.decode code offset = .error e) :
    next code { offset } = .ok (some (.error e, { offset, failed := true })) := by
  have hgoes : ¬ (false = true ∨ code.length ≤ offset) := by
    simpa using hoffset
  refine (if_neg hgoes).trans (bind_of_ok (decode_eq hcode (Nat.lt_trans hoffset hcode)) ?_)
  rw [h]
  rfl

/-- **The cursor comes to an end**, and on its way it finds what the listing says. -/
theorem yields_items (hcode : code.length < 2 ^ 32) : Yields code {} (disassemble code).items := by
  suffices h : ∀ offset bytes, bytes = code.drop offset →
      Yields code { offset } (disassembleFrom offset bytes).items from h 0 code rfl
  -- What is left for the listing is the code from the cursor on.
  refine disassembleFrom_rec (P := fun offset bytes listing => bytes = code.drop offset →
    Yields code { offset } listing.items) ?nil ?fault ?cons
  case nil =>
    intro offset hbytes
    have hend : code.length ≤ offset := List.drop_eq_nil_iff.mp hbytes.symm
    exact .nil (if_pos (.inr hend))
  case fault =>
    rintro offset _ e hpos hread rfl
    rw [List.length_drop] at hpos
    exact .cons (next_of_fault hcode (by omega) hread) (.nil (if_pos (.inl rfl)))
  case cons =>
    rintro offset _ i tail hpos hread htail rfl
    have hbehind : (code.drop offset).drop i.size = code.drop i.next := by
      rw [List.drop_drop, Instruction.next, (Instruction.read_eq_ok hread).1]
    rw [List.length_drop] at hpos
    exact .cons (next_of_decode hcode (by omega) hread) (htail hbehind)

end Cursor

end Words

/-- **Decoding tiles the code and stays inside it.** From the start of the code a cursor comes to an
end. It finds instructions of at least one byte each, one behind the other, up to the end of the
code or to the one error, which names the place where the next instruction would start. On the way,
and wherever else decoding is begun, no index lies behind the code and no number outgrows its word,
whatever counts stand in the code. -/
theorem disassemble_tiles {code : Code} (hcode : code.length < 2 ^ 32) :
    Words.Cursor.Yields code {} (disassemble code).items ∧
      (disassemble code).Tiles 0 code.length ∧
      ∀ offset < 2 ^ 32, Words.decode code offset = .ok (Instruction.decode code offset) := by
  have htiles := Listing.tiles 0 code
  rw [Nat.zero_add] at htiles
  exact ⟨Words.Cursor.yields_items hcode, htiles,
    fun offset hoffset => Words.decode_eq hcode hoffset⟩

/-- `nop; switch` with as many cases as a count can name, and one byte of the table. -/
def hostileSwitch : Code := [0x00, 0x45, 0xFF, 0xFF, 0xFF, 0xFF, 0x00]

/-- The greatest count does no harm: the switch is truncated where it starts. -/
theorem disassemble_hostileSwitch :
    Words.Cursor.Yields hostileSwitch {} [.ok ⟨0, .nop, 1, .none⟩, .error (.truncated 1)] ∧
      Words.decode hostileSwitch 1 = .ok (.error (.truncated 1)) := by
  have hlisting : disassemble hostileSwitch = ⟨[⟨0, .nop, 1, .none⟩], some (.truncated 1)⟩ := by
    decide +kernel
  have hdecode : Instruction.decode hostileSwitch 1 = .error (.truncated 1) := by decide +kernel
  obtain ⟨hyields, _, hwords⟩ := disassemble_tiles (show hostileSwitch.length < 2 ^ 32 by decide)
  rw [hlisting] at hyields
  exact ⟨hyields, (hwords 1 (by decide)).trans (congrArg Except.ok hdecode)⟩

end ManagedCode
