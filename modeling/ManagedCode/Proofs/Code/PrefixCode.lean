import ManagedCode.Proofs.Code.Encoding

set_option autoImplicit false

/-! # Instructions are a prefix code

`Layout.Written` says how an operand is written, with one case for each kind of layout. Reading is
exact for it: bytes are read as an operand exactly if they begin with a written form of this operand
(`Layout.read_eq_some_iff`), and so with instructions (`Instruction.written_of_read`).

From this follows all that makes instructions a prefix code. The bytes behind an instruction do not
matter. No instruction is the beginning of another one, so what is cut short is read as nothing. And
an operand has one written form, if its layout leaves nothing out; only the bytes that a remark
carries cannot be recovered (`Instruction.decode_prefixCode`).
-/

namespace ManagedCode

/-! ## Numbers -/

/-- A number that was read stands written at the front. -/
theorem readLittleEndian_eq_some {width n : Nat} {bytes : List UInt8}
    (h : readLittleEndian width bytes = some n) :
    n < byteRange width ∧ bytes = toLittleEndian width n ++ bytes.drop width := by
  unfold readLittleEndian at h
  split at h
  · rename_i hlength
    cases h
    have hlt := littleEndian_lt (bytes.take width)
    have hwritten := toLittleEndian_littleEndian (bytes.take width)
    rw [hlength] at hlt hwritten
    refine ⟨hlt, ?_⟩
    rw [hwritten, List.take_append_drop]
  · cases h

theorem readLittleEndian_written {width n : Nat} (hn : n < byteRange width) (rest : List UInt8) :
    readLittleEndian width (toLittleEndian width n ++ rest) = some n := by
  rw [readLittleEndian_append, Nat.mod_eq_of_lt hn]

/-- Numbers that were read stand written at the front, one behind the other. -/
theorem readWords_eq_some {count : Nat} {bytes : List UInt8} {words : List Nat}
    (h : readWords count bytes = some words) :
    words.length = count ∧ (∀ word ∈ words, word < byteRange 4) ∧
      bytes = words.flatMap (toLittleEndian 4) ++ bytes.drop (4 * count) := by
  induction count generalizing bytes words with
  | zero =>
      cases h
      simp
  | succ count ih =>
      obtain ⟨word, hword, h⟩ := Option.bind_eq_some_iff.mp h
      obtain ⟨rest, hrest, h⟩ := Option.bind_eq_some_iff.mp h
      cases h
      obtain ⟨hlt, hfirst⟩ := readLittleEndian_eq_some hword
      obtain ⟨hlength, hlts, hbytes⟩ := ih hrest
      refine ⟨by simp [hlength], List.forall_mem_cons.mpr ⟨hlt, hlts⟩, ?_⟩
      have hdrop : (bytes.drop 4).drop (4 * count) = bytes.drop (4 * (count + 1)) := by
        rw [List.drop_drop]
        congr 1
        omega
      calc bytes = toLittleEndian 4 word ++ bytes.drop 4 := hfirst
        _ = toLittleEndian 4 word ++
              (rest.flatMap (toLittleEndian 4) ++ (bytes.drop 4).drop (4 * count)) := by
            rw [← hbytes]
        _ = (word :: rest).flatMap (toLittleEndian 4) ++ bytes.drop (4 * (count + 1)) := by
            rw [hdrop, List.flatMap_cons, List.append_assoc]

theorem length_wordBytes (words : List Nat) :
    (words.flatMap (toLittleEndian 4)).length = 4 * words.length := by
  induction words with
  | nil => rfl
  | cons word words ih =>
      simp only [List.flatMap_cons, List.length_append, length_toLittleEndian, ih,
        List.length_cons]
      omega

theorem ofNat8_inj {m n : Nat} (hm : m < byteRange 1) (hn : n < byteRange 1)
    (h : UInt8.ofNat m = UInt8.ofNat n) : m = n := by
  have hnat := congrArg UInt8.toNat h
  rwa [UInt8.toNat_ofNat_of_lt' hm, UInt8.toNat_ofNat_of_lt' hn] at hnat

theorem ofNat16_inj {m n : Nat} (hm : m < byteRange 2) (hn : n < byteRange 2)
    (h : UInt16.ofNat m = UInt16.ofNat n) : m = n := by
  have hnat := congrArg UInt16.toNat h
  rwa [UInt16.toNat_ofNat_of_lt' hm, UInt16.toNat_ofNat_of_lt' hn] at hnat

theorem ofNat32_inj {m n : Nat} (hm : m < byteRange 4) (hn : n < byteRange 4)
    (h : UInt32.ofNat m = UInt32.ofNat n) : m = n := by
  have hnat := congrArg UInt32.toNat h
  rwa [UInt32.toNat_ofNat_of_lt' hm, UInt32.toNat_ofNat_of_lt' hn] at hnat

theorem ofNat64_inj {m n : Nat} (hm : m < byteRange 8) (hn : n < byteRange 8)
    (h : UInt64.ofNat m = UInt64.ofNat n) : m = n := by
  have hnat := congrArg UInt64.toNat h
  rwa [UInt64.toNat_ofNat_of_lt' hm, UInt64.toNat_ofNat_of_lt' hn] at hnat

theorem displacement8_inj {m n : Nat} (hm : m < byteRange 1) (hn : n < byteRange 1)
    (h : displacement8 m = displacement8 n) : m = n :=
  ofNat8_inj hm hn (congrArg Int8.toUInt8 (Int8.toInt_inj.mp h))

theorem displacement32_inj {m n : Nat} (hm : m < byteRange 4) (hn : n < byteRange 4)
    (h : displacement32 m = displacement32 n) : m = n :=
  ofNat32_inj hm hn (congrArg Int32.toUInt32 (Int32.toInt_inj.mp h))

/-! ## Operands -/

namespace Layout

/-- The operand is one number, of as many bytes as the layout says. -/
def isNumber : Layout → Bool
  | .none | .switch | .payload8 | .payload32 => false
  | _ => true

/-- The operand is a number of bytes and then as many bytes. -/
def isPayload : Layout → Bool
  | .payload8 | .payload32 => true
  | _ => false

/-- The operand that a number stands for, if it starts at `start`. -/
def ofNumber (start n : Nat) : Layout → Operand
  | .int8 => .int8 (UInt8.ofNat n).toInt8
  | .uint8 => .uint8 (UInt8.ofNat n)
  | .uint16 => .uint16 (UInt16.ofNat n)
  | .int32 => .int32 (UInt32.ofNat n).toInt32
  | .int64 => .int64 (UInt64.ofNat n).toInt64
  | .float32 => .float32 (UInt32.ofNat n)
  | .float64 => .float64 (UInt64.ofNat n)
  | .token => .token (UInt32.ofNat n)
  | .shortBranch => .branch (start + 1 + displacement8 n)
  | .branch => .branch (start + 4 + displacement32 n)
  | _ => .none

/-- How an operand is written, if it starts at `start`. -/
inductive Written (start : Nat) : Layout → Operand → List UInt8 → Prop where
  | none : Written start .none .none []
  | number {layout : Layout} {n : Nat} (hlayout : layout.isNumber = true)
      (hn : n < byteRange layout.fixedLength) :
      Written start layout (layout.ofNumber start n) (toLittleEndian layout.fixedLength n)
  | switch {words : List Nat} (hcount : words.length < byteRange 4)
      (hwords : ∀ word ∈ words, word < byteRange 4) :
      Written start .switch
        (.switch (words.map fun word => start + (4 + 4 * words.length : Nat) + displacement32 word))
        (toLittleEndian 4 words.length ++ words.flatMap (toLittleEndian 4))
  | payload {layout : Layout} {content : List UInt8} (hlayout : layout.isPayload = true)
      (hlength : content.length < byteRange layout.fixedLength) :
      Written start layout (.payload content.length)
        (toLittleEndian layout.fixedLength content.length ++ content)

variable {layout : Layout} {start : Nat} {operand : Operand} {written bytes : List UInt8}

theorem read_of_isNumber (h : layout.isNumber = true) (start : Nat) (bytes : List UInt8) :
    layout.read start bytes = (readLittleEndian layout.fixedLength bytes).bind fun n =>
      some (layout.ofNumber start n, layout.fixedLength) := by
  cases layout with
  | none | switch | payload8 | payload32 => cases h
  | _ => rfl

theorem read_of_isPayload (h : layout.isPayload = true) (start : Nat) (bytes : List UInt8) :
    layout.read start bytes = (readLittleEndian layout.fixedLength bytes).bind fun length =>
      if ((bytes.drop layout.fixedLength).take length).length = length then
        some (.payload length, layout.fixedLength + length)
      else .none := by
  cases layout with
  | payload8 | payload32 => rfl
  | _ => cases h

/-- What is written is read, whatever follows. -/
theorem Written.encodes (h : layout.Written start operand written) :
    layout.Encodes start operand written := by
  intro rest
  cases h with
  | none => rfl
  | number hlayout hn =>
      rw [read_of_isNumber hlayout, readLittleEndian_written hn, length_toLittleEndian]
      rfl
  | @switch words hcount hwords =>
      have hdrop : (toLittleEndian 4 words.length ++
          (words.flatMap (toLittleEndian 4) ++ rest)).drop 4 =
            words.flatMap (toLittleEndian 4) ++ rest :=
        List.drop_left' (length_toLittleEndian 4 _)
      rw [List.append_assoc, List.length_append, length_toLittleEndian, length_wordBytes]
      simp only [read, readLittleEndian_written hcount, Option.bind_eq_bind, Option.bind_some,
        hdrop, readWords_append hwords, Option.pure_def]
  | @payload _ content hlayout hlength =>
      have hdrop : (toLittleEndian layout.fixedLength content.length ++
          (content ++ rest)).drop layout.fixedLength = content ++ rest :=
        List.drop_left' (length_toLittleEndian _ _)
      rw [read_of_isPayload hlayout, List.append_assoc, readLittleEndian_written hlength,
        Option.bind_some, hdrop, List.take_left, if_pos rfl, List.length_append,
        length_toLittleEndian]

theorem written_of_number {size : Nat} (hlayout : layout.isNumber = true)
    (h : layout.read start bytes = some (operand, size)) :
    ∃ written rest, bytes = written ++ rest ∧ written.length = size ∧
      layout.Written start operand written := by
  rw [read_of_isNumber hlayout] at h
  obtain ⟨n, hread, h⟩ := Option.bind_eq_some_iff.mp h
  cases h
  obtain ⟨hn, hbytes⟩ := readLittleEndian_eq_some hread
  exact ⟨_, _, hbytes, length_toLittleEndian _ _, .number hlayout hn⟩

theorem written_of_payload {size : Nat} (hlayout : layout.isPayload = true)
    (h : layout.read start bytes = some (operand, size)) :
    ∃ written rest, bytes = written ++ rest ∧ written.length = size ∧
      layout.Written start operand written := by
  rw [read_of_isPayload hlayout] at h
  obtain ⟨length, hread, h⟩ := Option.bind_eq_some_iff.mp h
  obtain ⟨hlt, hbytes⟩ := readLittleEndian_eq_some hread
  split at h
  · rename_i hlength
    cases h
    have hrest := List.take_append_drop length (bytes.drop layout.fixedLength)
    generalize (bytes.drop layout.fixedLength).take length = content at hlength hrest
    subst hlength
    refine ⟨_, (bytes.drop layout.fixedLength).drop content.length, ?_, ?_,
      .payload hlayout hlt⟩
    · rw [List.append_assoc, hrest]
      exact hbytes
    · rw [List.length_append, length_toLittleEndian]
  · cases h

theorem written_of_switch {size : Nat} (h : switch.read start bytes = some (operand, size)) :
    ∃ written rest, bytes = written ++ rest ∧ written.length = size ∧
      switch.Written start operand written := by
  obtain ⟨count, hread, h⟩ := Option.bind_eq_some_iff.mp h
  obtain ⟨words, hwords, h⟩ := Option.bind_eq_some_iff.mp h
  cases h
  obtain ⟨hcount, hbytes⟩ := readLittleEndian_eq_some hread
  obtain ⟨rfl, hlts, htable⟩ := readWords_eq_some hwords
  refine ⟨_, (bytes.drop 4).drop (4 * words.length), ?_, ?_, .switch hcount hlts⟩
  · rw [List.append_assoc, ← htable]
    exact hbytes
  · rw [List.length_append, length_toLittleEndian, length_wordBytes]

/-- The part of the operand that the layout alone decides is there. -/
theorem Written.fixedLength_le (h : layout.Written start operand written) :
    layout.fixedLength ≤ written.length := by
  cases h with
  | none => exact Nat.zero_le _
  | number => rw [length_toLittleEndian]
  | switch =>
      rw [List.length_append, length_toLittleEndian]
      exact Nat.le_add_right _ _
  | payload =>
      rw [List.length_append, length_toLittleEndian]
      exact Nat.le_add_right _ _

/-- What is read stands written at the front. -/
theorem written_of_read {size : Nat} (h : layout.read start bytes = some (operand, size)) :
    ∃ written rest, bytes = written ++ rest ∧ written.length = size ∧
      layout.Written start operand written := by
  cases layout with
  | none =>
      cases h
      exact ⟨[], bytes, rfl, rfl, .none⟩
  | switch => exact written_of_switch h
  | payload8 | payload32 => exact written_of_payload rfl h
  | int8 | uint8 | uint16 | int32 | int64 | float32 | float64 | token | shortBranch | branch =>
      exact written_of_number rfl h

/-- **Reading is exact**: bytes are read as an operand exactly if a written form of it stands at the
front. -/
theorem read_eq_some_iff {size : Nat} :
    layout.read start bytes = some (operand, size) ↔
      ∃ written rest, bytes = written ++ rest ∧ written.length = size ∧
        layout.Written start operand written := by
  refine ⟨written_of_read, ?_⟩
  rintro ⟨written, rest, rfl, rfl, h⟩
  exact h.encodes rest

/-! ### One written form -/

/-- An operand stands for one number only. -/
theorem ofNumber_inj (hlayout : layout.isNumber = true) {m n : Nat}
    (hm : m < byteRange layout.fixedLength) (hn : n < byteRange layout.fixedLength)
    (h : layout.ofNumber start m = layout.ofNumber start n) : m = n := by
  cases layout with
  | none | switch | payload8 | payload32 => cases hlayout
  | int8 => exact ofNat8_inj hm hn (congrArg Int8.toUInt8 (Operand.int8.inj h))
  | uint8 => exact ofNat8_inj hm hn (Operand.uint8.inj h)
  | uint16 => exact ofNat16_inj hm hn (Operand.uint16.inj h)
  | int32 => exact ofNat32_inj hm hn (congrArg Int32.toUInt32 (Operand.int32.inj h))
  | int64 => exact ofNat64_inj hm hn (congrArg Int64.toUInt64 (Operand.int64.inj h))
  | float32 => exact ofNat32_inj hm hn (Operand.float32.inj h)
  | float64 => exact ofNat64_inj hm hn (Operand.float64.inj h)
  | token => exact ofNat32_inj hm hn (Operand.token.inj h)
  -- A target counts from the end of the operand, which is the same for both.
  | shortBranch => exact displacement8_inj hm hn (Int.add_left_cancel (Operand.branch.inj h))
  | branch => exact displacement32_inj hm hn (Int.add_left_cancel (Operand.branch.inj h))

/-- The targets of a switch stand for one table only. -/
theorem cases_inj {words words' : List Nat} (hwords : ∀ word ∈ words, word < byteRange 4)
    (hwords' : ∀ word ∈ words', word < byteRange 4) (base : Int)
    (h : words.map (fun word => base + displacement32 word) =
      words'.map fun word => base + displacement32 word) : words = words' := by
  induction words generalizing words' with
  | nil => exact (List.map_eq_nil_iff.mp h.symm).symm
  | cons word words ih =>
      cases words' with
      | nil => cases h
      | cons word' words' =>
          obtain ⟨hword, hwords⟩ := List.forall_mem_cons.mp hwords
          obtain ⟨hword', hwords'⟩ := List.forall_mem_cons.mp hwords'
          rw [List.map_cons, List.map_cons, List.cons.injEq] at h
          have hfirst := displacement32_inj hword hword' (Int.add_left_cancel h.1)
          rw [hfirst, ih hwords hwords' h.2]

theorem Written.number_unique {written' : List UInt8} (hlayout : layout.isNumber = true)
    (h : layout.Written start operand written) (h' : layout.Written start operand written') :
    written = written' := by
  have hinv : ∀ bytes, layout.Written start operand bytes → ∃ n < byteRange layout.fixedLength,
      operand = layout.ofNumber start n ∧ bytes = toLittleEndian layout.fixedLength n := by
    intro bytes hbytes
    cases hbytes with
    | none | switch => cases hlayout
    | number _ hn => exact ⟨_, hn, rfl, rfl⟩
    | payload hpayload => cases layout <;> cases hpayload <;> cases hlayout
  obtain ⟨n, hn, hoperand, rfl⟩ := hinv written h
  obtain ⟨n', hn', hoperand', rfl⟩ := hinv written' h'
  rw [ofNumber_inj hlayout hn hn' (hoperand.symm.trans hoperand')]

theorem Written.switch_unique {written' : List UInt8}
    (h : Layout.switch.Written start operand written)
    (h' : Layout.switch.Written start operand written') : written = written' := by
  have hinv : ∀ bytes, Layout.switch.Written start operand bytes → ∃ words : List Nat,
      (∀ word ∈ words, word < byteRange 4) ∧
      operand = .switch (words.map fun word =>
        start + (4 + 4 * words.length : Nat) + displacement32 word) ∧
      bytes = toLittleEndian 4 words.length ++ words.flatMap (toLittleEndian 4) := by
    intro bytes hbytes
    cases hbytes with
    | number hnumber | payload hpayload => contradiction
    | switch _ hwords => exact ⟨_, hwords, rfl, rfl⟩
  obtain ⟨words, hwords, hoperand, rfl⟩ := hinv written h
  obtain ⟨words', hwords', hoperand', rfl⟩ := hinv written' h'
  have htargets := Operand.switch.inj (hoperand.symm.trans hoperand')
  -- The tables are of one length, so the targets count from one place.
  have hlength : words.length = words'.length := by simpa using congrArg List.length htargets
  rw [hlength] at htargets
  rw [cases_inj hwords hwords' _ htargets]

theorem Written.payload_unique {written' : List UInt8} (hlayout : layout.isPayload = true)
    (h : layout.Written start operand written) (h' : layout.Written start operand written') :
    written.take layout.fixedLength = written'.take layout.fixedLength := by
  have hinv : ∀ bytes, layout.Written start operand bytes → ∃ length,
      operand = .payload length ∧
      bytes.take layout.fixedLength = toLittleEndian layout.fixedLength length := by
    intro bytes hbytes
    cases hbytes with
    | none | switch => cases hlayout
    | number hnumber => cases layout <;> cases hnumber <;> cases hlayout
    | payload => exact ⟨_, rfl, List.take_left' (length_toLittleEndian _ _)⟩
  obtain ⟨length, rfl, hbytes⟩ := hinv written h
  obtain ⟨length', hoperand, hbytes'⟩ := hinv written' h'
  rw [hbytes, hbytes', Operand.payload.inj hoperand]

/-- **An operand has one written form**, but for the bytes that a remark carries. -/
theorem Written.unique {written' : List UInt8} (hlayout : layout.isPayload = false)
    (h : layout.Written start operand written) (h' : layout.Written start operand written') :
    written = written' := by
  cases layout with
  | none =>
      have hnil : ∀ bytes, Layout.none.Written start operand bytes → bytes = [] := by
        intro bytes hbytes
        cases hbytes with
        | none => rfl
        | number hnumber | payload hpayload => contradiction
      rw [hnil written h, hnil written' h']
  | switch => exact h.switch_unique h'
  | payload8 | payload32 => cases hlayout
  | int8 | uint8 | uint16 | int32 | int64 | float32 | float64 | token | shortBranch | branch =>
      exact h.number_unique rfl h'

end Layout

/-! ## Opcodes -/

/-- The first byte says whether the opcode has a second one. -/
theorem Opcode.isEscaped_of_readOpcodeIndex {opcode : Opcode} {first : UInt8} {rest : List UInt8}
    (h : readOpcodeIndex (first :: rest) = some opcode.index) :
    opcode.isEscaped = decide (first = escapeByte) := by
  unfold isEscaped
  simp only [readOpcodeIndex] at h
  by_cases hescape : first = escapeByte
  · rw [if_pos hescape] at h
    obtain ⟨second, _, hindex⟩ := Option.map_eq_some_iff.mp h
    simp [← hindex, hescape]
  · rw [if_neg hescape] at h
    have hlt : first.toNat < escapedBase := first.toNat_lt
    simp [← Option.some.inj h, hescape, hlt]

/-- The opcode that was read stands at the front. -/
theorem Opcode.encoding_of_readOpcodeIndex {opcode : Opcode} {bytes : List UInt8}
    (h : readOpcodeIndex bytes = some opcode.index) :
    bytes = opcode.encoding ++ bytes.drop opcode.length := by
  cases bytes with
  | nil => cases h
  | cons first rest =>
      have hescaped := isEscaped_of_readOpcodeIndex h
      simp only [readOpcodeIndex] at h
      by_cases hescape : first = escapeByte
      · rw [if_pos hescape] at h
        cases rest with
        | nil => cases h
        | cons second rest =>
            have hindex : escapedBase + second.toNat = opcode.index := Option.some.inj h
            simp [encoding, length, hescaped, ← hindex, hescape]
      · rw [if_neg hescape] at h
        have hindex : first.toNat = opcode.index := Option.some.inj h
        simp [encoding, length, hescaped, ← hindex, hescape]

theorem Opcode.index_of_ofIndex? {opcode : Opcode} {index : Nat}
    (h : Opcode.ofIndex? index = some opcode) : opcode.index = index := by
  have hfound := List.find?_some h
  simpa using hfound

theorem Opcode.isRemark_eq_isPayload (opcode : Opcode) :
    opcode.isRemark = opcode.layout.isPayload := by
  have h : ∀ opcode ∈ Opcode.all, opcode.isRemark = opcode.layout.isPayload := by decide +kernel
  exact h opcode opcode.mem_all

/-- More bytes do not change the opcode at the front. -/
theorem readOpcodeIndex_extend {bytes : List UInt8} {index : Nat}
    (h : readOpcodeIndex bytes = some index) (rest : List UInt8) :
    readOpcodeIndex (bytes ++ rest) = some index := by
  cases bytes with
  | nil => cases h
  | cons first bytes =>
      cases bytes with
      | nil =>
          simp only [readOpcodeIndex, List.head?_nil, Option.map_none] at h
          split at h
          · cases h
          · rename_i hescape
            simp only [List.cons_append, readOpcodeIndex, if_neg hescape]
            exact h
      | cons second bytes => exact h

/-! ## Instructions -/

namespace Instruction

variable {i : Instruction} {offset : Nat} {bytes : List UInt8}

/-- An instruction is written as its opcode with these bytes behind it. -/
structure Written (i : Instruction) (operand : List UInt8) : Prop where
  written : i.opcode.layout.Written (i.offset + i.opcode.length) i.operand operand
  size_eq : i.size = i.opcode.length + operand.length

theorem Written.encodes {operand : List UInt8} (h : i.Written operand) :
    i.Encodes (i.opcode.encoding ++ operand) := by
  have hencodes := Opcode.encodes h.written.encodes
  rw [← h.size_eq] at hencodes
  exact hencodes

theorem readOpcodeIndex_of_read (h : read offset bytes = .ok i) :
    readOpcodeIndex bytes = some i.opcode.index := by
  unfold read at h
  split at h
  · cases h
  · rename_i index hindex
    split at h
    · cases h
    · rename_i opcode hopcode
      split at h
      · cases h
      · cases h
        rw [hindex, Opcode.index_of_ofIndex? hopcode]

/-- An instruction that was read stands written at the front. -/
theorem written_of_read (h : read offset bytes = .ok i) :
    i.offset = offset ∧
      ∃ operand rest, bytes = i.opcode.encoding ++ operand ++ rest ∧ i.Written operand := by
  obtain ⟨hoffset, size, hread, hsize⟩ := read_eq_ok h
  have hopcode := Opcode.encoding_of_readOpcodeIndex (readOpcodeIndex_of_read h)
  obtain ⟨operand, rest, hbytes, rfl, hwritten⟩ := Layout.read_eq_some_iff.mp hread
  subst hoffset
  refine ⟨rfl, operand, rest, ?_, hwritten, hsize⟩
  rw [List.append_assoc, ← hbytes]
  exact hopcode

theorem size_le_of_read (h : read offset bytes = .ok i) : i.size ≤ bytes.length := by
  obtain ⟨_, operand, rest, rfl, hwritten⟩ := written_of_read h
  rw [List.length_append, ← hwritten.encodes.size_eq]
  exact Nat.le_add_right _ _

/-- What cannot be read ends too soon, or has an opcode that is not assigned. -/
theorem read_eq_error {e : DecodeError} (h : read offset bytes = .error e) :
    e = .truncated offset ∨
      e = .invalidOpcode offset ∧
        ∃ index, readOpcodeIndex bytes = some index ∧ Opcode.ofIndex? index = none := by
  unfold read at h
  split at h
  · cases h
    exact .inl rfl
  · rename_i index hindex
    split at h
    · rename_i hopcode
      cases h
      exact .inr ⟨rfl, index, hindex, hopcode⟩
    · split at h
      · cases h
        exact .inl rfl
      · cases h

/-- **The bytes behind an instruction do not matter.** -/
theorem read_of_take_eq (h : read offset bytes = .ok i) {bytes' : List UInt8}
    (hsame : bytes'.take i.size = bytes.take i.size) : read offset bytes' = .ok i := by
  obtain ⟨rfl, operand, rest, rfl, hwritten⟩ := written_of_read h
  have hencodes := hwritten.encodes
  have htake : bytes'.take i.size = i.opcode.encoding ++ operand := by
    rw [hsame, List.take_left' hencodes.size_eq.symm]
  calc read i.offset bytes'
      = read i.offset (bytes'.take i.size ++ bytes'.drop i.size) := by rw [List.take_append_drop]
    _ = read i.offset (i.opcode.encoding ++ operand ++ bytes'.drop i.size) := by rw [htake]
    _ = .ok i := hencodes.read_eq _

/-- **No instruction is the beginning of another one**: if it is cut short, nothing is read. -/
theorem read_take (h : read offset bytes = .ok i) {count : Nat} (hcount : count < i.size) :
    read offset (bytes.take count) = .error (.truncated offset) := by
  have hbytes : bytes.take count ++ bytes.drop count = bytes := List.take_append_drop count bytes
  cases hread : read offset (bytes.take count) with
  | ok i' =>
      -- What was cut off does not matter, so the instruction is the same, and too long.
      obtain ⟨rfl, operand, rest, hcut, hwritten⟩ := written_of_read hread
      have hwhole := hwritten.encodes.read_eq (rest ++ bytes.drop count)
      rw [← List.append_assoc, ← hcut, hbytes] at hwhole
      cases hwhole.symm.trans h
      have hlength : (bytes.take count).length = i.size + rest.length := by
        rw [hcut, List.length_append, hwritten.encodes.size_eq]
      have hle : (bytes.take count).length ≤ count := List.length_take_le count bytes
      omega
  | error e =>
      rcases read_eq_error hread with rfl | ⟨_, index, hindex, hunassigned⟩
      · rfl
      · -- The opcode is the same as before, and that one is assigned.
        have hwhole := readOpcodeIndex_extend hindex (bytes.drop count)
        rw [hbytes, readOpcodeIndex_of_read h] at hwhole
        cases hwhole
        rw [Opcode.ofIndex?_index] at hunassigned
        cases hunassigned

/-- **An instruction has one written form**, but for the bytes that a remark carries. -/
theorem take_eq_of_read {bytes' : List UInt8} (h : read offset bytes = .ok i)
    (h' : read offset bytes' = .ok i) :
    (i.opcode.isRemark = false → bytes'.take i.size = bytes.take i.size) ∧
      (i.opcode.isRemark = true → bytes'.take i.opcode.size = bytes.take i.opcode.size) := by
  obtain ⟨rfl, operand, rest, rfl, hwritten⟩ := written_of_read h
  obtain ⟨_, operand', rest', rfl, hwritten'⟩ := written_of_read h'
  rw [Opcode.isRemark_eq_isPayload]
  constructor
  · intro hplain
    rw [hwritten'.written.unique hplain hwritten.written,
      List.take_left' hwritten.encodes.size_eq.symm, List.take_left' hwritten.encodes.size_eq.symm]
  · intro hpayload
    have hsame := hwritten'.written.payload_unique hpayload hwritten.written
    have hle := hwritten.written.fixedLength_le
    have hle' := hwritten'.written.fixedLength_le
    rw [Opcode.size, ← Opcode.length_encoding, List.append_assoc, List.append_assoc,
      List.take_length_add_append, List.take_length_add_append,
      List.take_append_of_le_length hle, List.take_append_of_le_length hle', hsame]

end Instruction

/-! ## Code -/

/-- `size` bytes of the code from an offset on, or fewer if the code ends before. -/
def window (code : Code) (offset size : Nat) : List UInt8 := (code.drop offset).take size

/-- **Instructions are a prefix code.** An instruction that is decoded lies in the code. Any code
with the same bytes there has the same instruction. If the code is cut off inside it, it is
truncated, and nothing else is decoded. Any code that has the same instruction there has the same
bytes, but for what a remark carries. -/
theorem Instruction.decode_prefixCode {code : Code} {offset : Nat} {i : Instruction}
    (h : decode code offset = .ok i) :
    offset + i.size ≤ code.length ∧
      (∀ code', window code' offset i.size = window code offset i.size →
        decode code' offset = .ok i) ∧
      (∀ stop < offset + i.size, decode (code.take stop) offset = .error (.truncated offset)) ∧
      ∀ code', decode code' offset = .ok i →
        (i.opcode.isRemark = false → window code' offset i.size = window code offset i.size) ∧
        (i.opcode.isRemark = true →
          window code' offset i.opcode.size = window code offset i.opcode.size) := by
  refine ⟨?_, fun code' hsame => read_of_take_eq h hsame, fun stop hstop => ?_,
    fun code' h' => take_eq_of_read h h'⟩
  · have hle := size_le_of_read h
    have hpos := size_pos_of_read h
    rw [List.length_drop] at hle
    omega
  · unfold decode
    rw [List.drop_take]
    have hpos := size_pos_of_read h
    exact read_take h (by omega)

/-- `nop; switch 0; ret`: the one case leads back to the start. -/
def switchBack : Code := [0x00, 0x45, 0x01, 0x00, 0x00, 0x00, 0xF6, 0xFF, 0xFF, 0xFF, 0x2A]

/-- A switch with its table is decoded whatever lies around it, is truncated if the table is not
complete, and comes from no other bytes. -/
theorem Instruction.decode_switchBack :
    let i : Instruction := ⟨1, .switch, 9, .switch [0]⟩
    let bytes : List UInt8 := [0x45, 0x01, 0x00, 0x00, 0x00, 0xF6, 0xFF, 0xFF, 0xFF]
    decode switchBack 1 = .ok i ∧
      (∀ code, decode code 1 = .ok i ↔ window code 1 9 = bytes) ∧
      ∀ stop < 10, decode (switchBack.take stop) 1 = .error (.truncated 1) := by
  intro i bytes
  have h : decode switchBack 1 = .ok i := by decide +kernel
  have hbytes : window switchBack 1 9 = bytes := rfl
  obtain ⟨_, hlocal, hcut, hunique⟩ := decode_prefixCode h
  refine ⟨h, fun code => ⟨fun hcode => ?_, fun hcode => ?_⟩, hcut⟩
  · exact ((hunique code hcode).1 rfl).trans hbytes
  · exact hlocal code (hcode.trans hbytes.symm)

end ManagedCode
