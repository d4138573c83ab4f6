import ManagedCode.Assembler
import ManagedCode.Proofs.Checks
import ManagedCode.Proofs.Code.Encoding

set_option autoImplicit false

/-! # Programs for the assembler

A program for the assembler is a list of commands: labels are handed out and placed, instructions
are written, and bytes are appended as they are. What a command appends depends only on the offset
(`Command.fragments`). Labels are followed through a whole program by the list of their placements
(`Assembler.bindings`): in the end a label is where it was placed last (`place?_run`), and no label
lies behind the code (`placesWithin_run`).

Once every label has its place, fragments become bytes (`resolveAll`).
-/

namespace ManagedCode

namespace Assembler

/-! ## Commands -/

/-- What the assembler is told: to hand out or place a label, to write an instruction, or to append
bytes as they are. -/
inductive Command where
  | newLabel | mark (label : Nat) | here
  | op (opcode : Opcode)
  | op8 (opcode : Opcode) (value : UInt8)
  | op16 (opcode : Opcode) (value : UInt16)
  | op32 (opcode : Opcode) (value : UInt32)
  | token (opcode : Opcode) (value : Token)
  | loadInt32 (value : Int32) | loadInt8 (value : Int8) | loadInt64 (value : Int64)
  | loadFloat32 (bits : UInt32) | loadFloat64 (bits : UInt64)
  | branch (opcode : Opcode) (label : Nat)
  | branchBy (opcode : Opcode) (displacement : Int32)
  | switch (labels : List Nat)
  | remark (payload : List UInt8)
  | raw (bytes : List UInt8)
  deriving DecidableEq

namespace Command

/-- Carries out a command. -/
def apply (a : Assembler) : Command → Assembler
  | .newLabel => a.label.2
  | .mark label => a.mark label
  | .here => a.here.2
  | .op opcode => a.op opcode
  | .op8 opcode value => a.op8 opcode value
  | .op16 opcode value => a.op16 opcode value
  | .op32 opcode value => a.op32 opcode value
  | .token opcode value => a.token opcode value
  | .loadInt32 value => a.loadInt32 value
  | .loadInt8 value => a.loadInt8 value
  | .loadInt64 value => a.loadInt64 value
  | .loadFloat32 bits => a.loadFloat32 bits
  | .loadFloat64 bits => a.loadFloat64 bits
  | .branch opcode label => a.branch opcode label
  | .branchBy opcode displacement => a.branchBy opcode displacement
  | .switch labels => a.switch labels
  | .remark payload => a.remark payload
  | .raw bytes => a.raw bytes

/-- The placement that a command makes: a label and its place. A label that was not handed out
cannot be placed. -/
def binding (a : Assembler) : Command → List (Nat × Nat)
  | .mark label => if label < a.labels.size then [(label, a.offset)] else []
  | .here => [(a.labels.size, a.offset)]
  | _ => []

/-- What a command appends at an offset. -/
def fragments (offset : Nat) : Command → List Fragment
  | .newLabel | .mark _ | .here => []
  | .op opcode => [.bytes opcode.encoding]
  | .op8 opcode value => [.bytes (opcode.encoding ++ [value])]
  | .op16 opcode value => [.bytes (opcode.encoding ++ bytes16 value)]
  | .op32 opcode value | .token opcode value => [.bytes (opcode.encoding ++ bytes32 value)]
  | .loadInt32 value => [.bytes (Opcode.ldcI4.encoding ++ bytes32 value.toUInt32)]
  | .loadInt8 value => [.bytes (Opcode.ldcI4S.encoding ++ [value.toUInt8])]
  | .loadInt64 value => [.bytes (Opcode.ldcI8.encoding ++ bytes64 value.toUInt64)]
  | .loadFloat32 bits => [.bytes (Opcode.ldcR4.encoding ++ bytes32 bits)]
  | .loadFloat64 bits => [.bytes (Opcode.ldcR8.encoding ++ bytes64 bits)]
  | .branch opcode label =>
      [.bytes opcode.encoding,
        .displacement label (offset + opcode.length + if isShort opcode then 1 else 4) offset
          (isShort opcode)]
  | .branchBy opcode displacement =>
      [.bytes (opcode.encoding ++
        if isShort opcode then (bytes32 displacement.toUInt32).take 1
        else bytes32 displacement.toUInt32)]
  | .switch labels =>
      .bytes (Opcode.switch.encoding ++ bytes32 (UInt32.ofNat labels.length)) ::
        labels.map fun label =>
          .displacement label (offset + Opcode.switch.length + 4 + 4 * labels.length) offset false
  | .remark payload =>
      [.bytes ((if payload.length < 256 then
          Opcode.annDataS.encoding ++ [UInt8.ofNat payload.length]
        else Opcode.annData.encoding ++ bytes32 (UInt32.ofNat payload.length)) ++ payload)]
  | .raw bytes => [.bytes bytes]

end Command

/-- Carries out commands one after the other. -/
def run (a : Assembler) (commands : List Command) : Assembler := commands.foldl Command.apply a

/-- The placements of labels, in the order in which they are made. -/
def bindings (a : Assembler) : List Command → List (Nat × Nat)
  | [] => []
  | c :: rest => c.binding a ++ (c.apply a).bindings rest

/-- The last place that a label was given. -/
def lastBound (commands : List Command) (label : Nat) : Option Nat :=
  (bindings {} commands).reverse.lookup label

/-! ## Fragments -/

/-- Number of bytes of fragments. -/
def fragmentSize (fragments : List Fragment) : Nat := (fragments.map Fragment.size).sum

theorem fragmentSize_append (fragments fragments' : List Fragment) :
    fragmentSize (fragments ++ fragments') = fragmentSize fragments + fragmentSize fragments' := by
  simp only [fragmentSize, List.map_append, List.sum_append]

theorem foldl_append (a : Assembler) (fragments : List Fragment) :
    (fragments.foldl append a).fragments.toList = a.fragments.toList ++ fragments ∧
      (fragments.foldl append a).offset = a.offset + fragmentSize fragments ∧
      (fragments.foldl append a).labels = a.labels := by
  induction fragments generalizing a with
  | nil => simp [fragmentSize]
  | cons fragment rest ih =>
      obtain ⟨hfragments, hoffset, hlabels⟩ := ih (a.append fragment)
      refine ⟨?_, ?_, hlabels⟩
      · rw [List.foldl_cons, hfragments]
        simp [append]
      · rw [List.foldl_cons, hoffset]
        simp only [append, fragmentSize, List.map_cons, List.sum_cons]
        omega

/-- A command appends its fragments, and beside them only labels change. -/
theorem apply_eq_foldl (a : Assembler) (c : Command) :
    c.apply a = { (c.fragments a.offset).foldl append a with labels := (c.apply a).labels } := by
  cases c with
  | switch labels =>
      rw [Command.fragments, List.foldl_cons, List.foldl_map]
      rfl
  | _ => rfl

theorem apply_fragments (a : Assembler) (c : Command) :
    (c.apply a).fragments.toList = a.fragments.toList ++ c.fragments a.offset ∧
      (c.apply a).offset = a.offset + fragmentSize (c.fragments a.offset) := by
  obtain ⟨hfragments, hoffset, _⟩ := foldl_append a (c.fragments a.offset)
  rw [apply_eq_foldl a c]
  exact ⟨hfragments, hoffset⟩

/-- The fragments of a whole program. -/
def program (offset : Nat) : List Command → List Fragment
  | [] => []
  | c :: rest =>
      c.fragments offset ++ program (offset + fragmentSize (c.fragments offset)) rest

theorem run_fragments (a : Assembler) (commands : List Command) :
    (a.run commands).fragments.toList = a.fragments.toList ++ program a.offset commands ∧
      (a.run commands).offset = a.offset + fragmentSize (program a.offset commands) := by
  induction commands generalizing a with
  | nil => exact ⟨(List.append_nil _).symm, rfl⟩
  | cons c rest ih =>
      obtain ⟨hfragments, hoffset⟩ := apply_fragments a c
      obtain ⟨hfragments', hoffset'⟩ := ih (c.apply a)
      rw [hfragments, hoffset] at hfragments'
      rw [hoffset] at hoffset'
      refine ⟨?_, ?_⟩
      · rw [program, ← List.append_assoc]
        exact hfragments'
      · rw [program, fragmentSize_append, ← Nat.add_assoc]
        exact hoffset'

theorem offset_le_run (a : Assembler) (commands : List Command) :
    a.offset ≤ (a.run commands).offset := by
  rw [(run_fragments a commands).2]
  exact Nat.le_add_right _ _

/-! ## Labels -/

variable {a : Assembler}

theorem place?_label (a : Assembler) (label : Nat) : a.label.2.place? label = a.place? label := by
  simp only [Assembler.label, place?, Array.getElem?_push]
  split
  · rename_i heq
    simp [heq]
  · rfl

theorem place?_mark (a : Assembler) (target label : Nat) :
    (a.mark target).place? label =
      if target = label ∧ target < a.labels.size then some a.offset else a.place? label := by
  simp only [mark, place?, Array.getElem?_setIfInBounds]
  by_cases heq : target = label
  · subst heq
    by_cases hlt : target < a.labels.size
    · simp [hlt]
    · simp [hlt]
  · simp [heq]

theorem labels_switch (a : Assembler) (labels : List Nat) :
    (a.switch labels).labels = a.labels := by
  have hkeeps := (foldl_append a ((Command.switch labels).fragments a.offset)).2.2
  rw [Command.fragments, List.foldl_cons, List.foldl_map] at hkeeps
  exact hkeeps

/-- A command gives a label a new place, or leaves it where it was. -/
theorem place?_apply (a : Assembler) (c : Command) (label : Nat) :
    (c.apply a).place? label = ((c.binding a).lookup label).or (a.place? label) := by
  cases c with
  | newLabel => exact place?_label a label
  | mark target =>
      rw [Command.apply, place?_mark]
      by_cases hlt : target < a.labels.size
      · by_cases heq : target = label
        · subst heq
          simp [Command.binding, hlt]
        · simp [Command.binding, hlt, heq, Ne.symm heq]
      · simp [Command.binding, hlt]
  | here =>
      -- The new label was handed out before it is placed.
      have hplace := place?_mark a.label.2 a.labels.size label
      rw [place?_label] at hplace
      refine Eq.trans hplace ?_
      by_cases heq : a.labels.size = label
      · subst heq
        simp [Command.binding, Assembler.label]
      · simp [Command.binding, heq, Ne.symm heq]
  | switch labels =>
      rw [Command.apply, place?, labels_switch]
      rfl
  | _ => rfl

/-- A command makes one placement at most. -/
theorem Command.binding_reverse (a : Assembler) (c : Command) :
    (c.binding a).reverse = c.binding a := by
  cases c with
  | mark target =>
      rw [Command.binding]
      split <;> rfl
  | _ => rfl

theorem place?_run (a : Assembler) (commands : List Command) (label : Nat) :
    (a.run commands).place? label =
      ((a.bindings commands).reverse.lookup label).or (a.place? label) := by
  induction commands generalizing a with
  | nil => rfl
  | cons c rest ih =>
      -- Reversed, the list begins with the placements that come later and count first.
      rw [bindings, List.reverse_append, List.lookup_append, c.binding_reverse, Option.or_assoc,
        ← place?_apply a c label]
      exact ih (c.apply a)

/-- Labels lie in the code that was written so far. -/
def PlacesWithin (a : Assembler) : Prop := ∀ label place, a.place? label = some place →
  place ≤ a.offset

theorem binding_place {c : Command} {label place : Nat}
    (h : (c.binding a).lookup label = some place) : place = a.offset := by
  have hsingle : ∀ target, [(target, a.offset)].lookup label = some place → place = a.offset := by
    intro target hlookup
    rw [List.lookup_cons] at hlookup
    split at hlookup
    · exact (Option.some.inj hlookup).symm
    · cases hlookup
  cases c with
  | mark target =>
      rw [Command.binding] at h
      split at h
      · exact hsingle target h
      · cases h
  | here => exact hsingle a.labels.size h
  | _ => cases h

theorem placesWithin_apply (h : a.PlacesWithin) (c : Command) : (c.apply a).PlacesWithin := by
  intro label place hplace
  have hoffset := (apply_fragments a c).2
  rw [place?_apply] at hplace
  rcases Option.or_eq_some_iff.mp hplace with hnew | ⟨_, hold⟩
  · have hplace := binding_place hnew
    omega
  · have hle := h label place hold
    omega

theorem placesWithin_run (h : a.PlacesWithin) (commands : List Command) :
    (a.run commands).PlacesWithin := by
  induction commands generalizing a with
  | nil => exact h
  | cons c rest ih => exact ih (placesWithin_apply h c)

/-- In the end a label is where it was placed last. -/
theorem place?_eq_lastBound (commands : List Command) :
    (run {} commands).place? = lastBound commands := by
  funext label
  rw [place?_run]
  exact Option.or_none

theorem placesWithin_empty : PlacesWithin {} := by simp [PlacesWithin, place?]

/-! ## Bytes -/

/-- The bytes of fragments, once every label has its place. -/
def resolveAll (a : Assembler) (fragments : List Fragment) : Except AssemblyError Code :=
  (fragments.mapM a.resolve).map List.flatten

theorem finish_eq_resolveAll (commands : List Command) :
    (run {} commands).finish = (run {} commands).resolveAll (program 0 commands) := by
  rw [finish, (run_fragments {} commands).1]
  rfl

theorem resolveAll_nil (a : Assembler) : a.resolveAll [] = .ok [] := rfl

theorem resolveAll_cons (a : Assembler) (fragment : Fragment) (fragments : List Fragment) :
    a.resolveAll (fragment :: fragments) = (do
      let first ← a.resolve fragment
      let rest ← a.resolveAll fragments
      return first ++ rest) := by
  unfold resolveAll
  rw [List.mapM_cons]
  cases a.resolve fragment with
  | error e => rfl
  | ok first =>
      cases fragments.mapM a.resolve with
      | error e => rfl
      | ok rest => rfl

theorem resolveAll_append (a : Assembler) (fragments fragments' : List Fragment) :
    a.resolveAll (fragments ++ fragments') = (do
      let first ← a.resolveAll fragments
      let rest ← a.resolveAll fragments'
      return first ++ rest) := by
  induction fragments with
  | nil =>
      show a.resolveAll fragments' = (a.resolveAll fragments' >>= fun rest => pure rest)
      rw [bind_pure]
  | cons fragment fragments ih =>
      rw [List.cons_append, resolveAll_cons, ih, resolveAll_cons]
      simp only [bind_assoc, pure_bind, List.append_assoc]

theorem resolveAll_singleton (a : Assembler) (fragment : Fragment) :
    a.resolveAll [fragment] = a.resolve fragment := by
  rw [resolveAll_cons]
  show (a.resolve fragment >>= fun first => pure (first ++ [])) = a.resolve fragment
  simp only [List.append_nil, bind_pure]

theorem resolveAll_bytes_cons {content : List UInt8} {fragments : List Fragment} {code : Code}
    (h : a.resolveAll (.bytes content :: fragments) = .ok code) :
    ∃ rest, a.resolveAll fragments = .ok rest ∧ code = content ++ rest := by
  rw [resolveAll_cons] at h
  obtain ⟨first, hfirst, h⟩ := bind_eq_ok h
  obtain ⟨rest, hrest, h⟩ := bind_eq_ok h
  cases hfirst
  exact ⟨rest, hrest, (Except.ok.inj h).symm⟩

theorem resolve_short {label base source : Nat} {bytes : List UInt8}
    (h : a.resolve (.displacement label base source true) = .ok bytes) :
    ∃ place : Nat, a.place? label = some place ∧
      bytes = [(Int8.ofInt (place - base)).toUInt8] ∧
      displacement8 (Int8.ofInt (place - base)).toUInt8.toNat = place - base := by
  unfold resolve at h
  cases hplace : a.place? label with
  | none =>
      simp only [hplace] at h
      cases h
  | some place =>
      simp only [hplace, if_true] at h
      split at h
      · rename_i hrange
        cases h
        exact ⟨place, rfl, rfl, displacement8_toUInt8 hrange.1 hrange.2⟩
      · cases h

theorem resolve_long {label base source : Nat} {bytes : List UInt8}
    (h : a.resolve (.displacement label base source false) = .ok bytes) :
    ∃ place : Nat, a.place? label = some place ∧
      bytes = bytes32 (Int32.ofInt (place - base)).toUInt32 := by
  unfold resolve at h
  cases hplace : a.place? label with
  | none =>
      simp only [hplace] at h
      cases h
  | some place =>
      simp only [hplace] at h
      cases h
      exact ⟨place, rfl, rfl⟩

theorem resolve_length {fragment : Fragment} {bytes : List UInt8}
    (h : a.resolve fragment = .ok bytes) : bytes.length = fragment.size := by
  cases fragment with
  | bytes content =>
      cases h
      rfl
  | displacement label base source short =>
      cases short with
      | true =>
          obtain ⟨_, _, rfl, _⟩ := resolve_short h
          rfl
      | false =>
          obtain ⟨_, _, rfl⟩ := resolve_long h
          exact length_bytes32 _

theorem resolveAll_length {fragments : List Fragment} {code : Code}
    (h : a.resolveAll fragments = .ok code) : code.length = fragmentSize fragments := by
  induction fragments generalizing code with
  | nil =>
      cases h
      rfl
  | cons fragment rest ih =>
      rw [resolveAll_cons] at h
      obtain ⟨first, hfirst, h⟩ := bind_eq_ok h
      obtain ⟨bytes, hbytes, h⟩ := bind_eq_ok h
      cases h
      rw [List.length_append, resolve_length hfirst, ih hbytes]
      rfl

end Assembler

end ManagedCode
