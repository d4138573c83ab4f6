import ManagedCode.Proofs.Code.Commands
import ManagedCode.Proofs.Code.PrefixCode

set_option autoImplicit false

/-! # Displacements are filled in

While code is written, the displacement of a branch to a label stays open, and so does every case of
a switch: there is a gap in the code (`Gap`). Which gaps there are can be said from the commands
alone (`Assembler.gaps`), and where a label is in the end as well (`Assembler.lastBound`).

Code is finished if every gap reaches its label, and then the finished code is the code that was
written with the gaps filled (`Fills`). Otherwise the error is about the first gap that does not
reach its label, in the order in which gaps were left.

Fragments stand between the two. The gaps of fragments (`fragmentGaps`) are those of the commands
that appended them, and what is said about finished code is proved by induction on its fragments,
with the code in front of them as a parameter.
-/

namespace ManagedCode

namespace Assembler

/-! ## Gaps -/

/-- An open displacement: it stands at `position`, in the instruction at `source`, and leads from
`next` to `label`. -/
structure Gap where
  position : Nat
  label : Nat
  next : Nat
  source : Nat
  short : Bool
  deriving DecidableEq

namespace Gap

/-- Number of bytes of a gap. -/
def width (g : Gap) : Nat := if g.short then 1 else 4

/-- The byte at the index belongs to the gap. -/
def Covers (g : Gap) (index : Nat) : Prop := g.position ≤ index ∧ index < g.position + g.width

/-- The distance to the place can be written into the gap. -/
def Fits (g : Gap) (place : Nat) : Prop :=
  g.short = true → -128 ≤ (place : Int) - g.next ∧ (place : Int) - g.next ≤ 127

instance (g : Gap) (place : Nat) : Decidable (g.Fits place) := inferInstanceAs (Decidable (_ → _))

/-- The label has a place, and the distance can be written. -/
def Reaches (placed : Nat → Option Nat) (g : Gap) : Prop :=
  ∃ place, placed g.label = some place ∧ g.Fits place

/-- The error says what is wrong with the gap. -/
def Blames (placed : Nat → Option Nat) (g : Gap) (e : AssemblyError) : Prop :=
  placed g.label = none ∧ e = .unboundLabel g.label ∨
    ∃ place : Nat, placed g.label = some place ∧ ¬ g.Fits place ∧
      e = .displacementOverflow g.source ((place : Int) - g.next)

/-- The displacement that stands in the gap. -/
def displacement (g : Gap) (code : Code) : Int :=
  if g.short then displacement8 (littleEndian (window code g.position g.width))
  else displacement32 (littleEndian (window code g.position g.width))

/-- The gap leads to the place of its label. -/
def Holds (placed : Nat → Option Nat) (g : Gap) (code : Code) : Prop :=
  ∃ place : Nat, placed g.label = some place ∧ g.displacement code = (place : Int) - g.next

theorem Blames.not_reaches {placed : Nat → Option Nat} {g : Gap} {e : AssemblyError}
    (h : g.Blames placed e) : ¬ g.Reaches placed := by
  rintro ⟨place, hplace, hfits⟩
  rcases h with ⟨hnone, _⟩ | ⟨place', hplace', houtside, _⟩
  · rw [hplace] at hnone
    cases hnone
  · rw [hplace] at hplace'
    cases hplace'
    exact houtside hfits

end Gap

/-- The gaps that a command leaves at an offset: one in a branch to a label, and one for each case
of a switch. -/
def Command.gaps (offset : Nat) : Command → List Gap
  | .branch opcode label =>
      let position := offset + opcode.length
      let short := isShort opcode
      [⟨position, label, position + if short then 1 else 4, offset, short⟩]
  | .switch labels =>
      labels.mapIdx fun k label =>
        ⟨offset + 5 + 4 * k, label, offset + 5 + 4 * labels.length, offset, false⟩
  | _ => []

/-- The gaps that commands leave, in the order in which they are left. -/
def gaps (a : Assembler) : List Command → List Gap
  | [] => []
  | c :: rest => c.gaps a.offset ++ (c.apply a).gaps rest

/-- The code is what was written, with the gaps filled and nothing else changed. -/
structure Fills (placed : Nat → Option Nat) (gaps : List Gap) (written code : Code) : Prop where
  length_eq : code.length = written.length
  keeps : ∀ index, (∀ g ∈ gaps, ¬ g.Covers index) → code[index]? = written[index]?
  holds : ∀ g ∈ gaps, g.Holds placed code

end Assembler

/-! ## Gaps of fragments -/

namespace Fragment

open Assembler (Gap)

/-- The bytes of a fragment, with zeros for an open displacement. -/
def blank : Fragment → List UInt8
  | .bytes content => content
  | .displacement _ _ _ short => List.replicate (if short then 1 else 4) 0

/-- The gap that a fragment is, if it is none of bytes. -/
def gaps (position : Nat) : Fragment → List Gap
  | .bytes _ => []
  | .displacement label base source short => [⟨position, label, base, source, short⟩]

theorem length_blank (fragment : Fragment) : fragment.blank.length = fragment.size := by
  cases fragment with
  | bytes content => rfl
  | displacement => exact List.length_replicate

/-- A fragment with a gap is all gap. -/
theorem position_of_gap {fragment : Fragment} {position : Nat} {g : Gap}
    (h : g ∈ fragment.gaps position) : g.position = position ∧ g.width = fragment.size := by
  cases fragment with
  | bytes content => cases h
  | displacement label base source short =>
      cases List.mem_singleton.mp h
      exact ⟨rfl, rfl⟩

end Fragment

namespace Assembler

/-- What was written so far, with zeros for open displacements. -/
def written (a : Assembler) : Code := a.fragments.toList.flatMap Fragment.blank

/-- The gaps of fragments, the first of which stands at `position`. -/
def fragmentGaps (position : Nat) : List Fragment → List Gap
  | [] => []
  | fragment :: rest => fragment.gaps position ++ fragmentGaps (position + fragment.size) rest

theorem fragmentSize_cons (fragment : Fragment) (rest : List Fragment) :
    fragmentSize (fragment :: rest) = fragment.size + fragmentSize rest := rfl

theorem length_blanks (fragments : List Fragment) :
    (fragments.flatMap Fragment.blank).length = fragmentSize fragments := by
  induction fragments with
  | nil => rfl
  | cons fragment rest ih =>
      rw [List.flatMap_cons, List.length_append, fragment.length_blank, ih, fragmentSize_cons]

theorem fragmentGaps_append (position : Nat) (fragments fragments' : List Fragment) :
    fragmentGaps position (fragments ++ fragments') =
      fragmentGaps position fragments ++
        fragmentGaps (position + fragmentSize fragments) fragments' := by
  induction fragments generalizing position with
  | nil => rfl
  | cons fragment rest ih =>
      simp only [List.cons_append, fragmentGaps, ih, List.append_assoc, fragmentSize_cons,
        Nat.add_assoc]

theorem fragmentGaps_within {position : Nat} {fragments : List Fragment} :
    ∀ g ∈ fragmentGaps position fragments,
      position ≤ g.position ∧ g.position + g.width ≤ position + fragmentSize fragments := by
  induction fragments generalizing position with
  | nil => nofun
  | cons fragment rest ih =>
      intro g hg
      rw [fragmentSize_cons]
      rcases List.mem_append.mp hg with hg | hg
      · obtain ⟨hposition, hwidth⟩ := Fragment.position_of_gap hg
        omega
      · have hrest := ih g hg
        omega

/-- **Gaps do not overlap**: a gap ends before the next one begins. -/
theorem fragmentGaps_pairwise (position : Nat) (fragments : List Fragment) :
    (fragmentGaps position fragments).Pairwise fun g g' => g.position + g.width ≤ g'.position := by
  induction fragments generalizing position with
  | nil => exact .nil
  | cons fragment rest ih =>
      refine List.pairwise_append.mpr ⟨?_, ih _, ?_⟩
      · cases fragment with
        | bytes content => exact .nil
        | displacement => exact List.pairwise_singleton _ _
      · intro g hg g' hg'
        obtain ⟨hposition, hwidth⟩ := Fragment.position_of_gap hg
        have hbehind := (fragmentGaps_within g' hg').1
        omega

/-! ## Gaps of commands -/

variable {a : Assembler}

theorem size_switchHead (count : UInt32) :
    Fragment.size (.bytes (Opcode.switch.encoding ++ bytes32 count)) = 5 := by
  rw [Fragment.size, List.length_append, length_bytes32]
  rfl

theorem fragmentSize_cases (next source : Nat) (labels : List Nat) :
    fragmentSize (labels.map fun label => .displacement label next source false) =
      4 * labels.length := by
  induction labels with
  | nil => rfl
  | cons label labels ih =>
      rw [List.map_cons, fragmentSize_cons, ih, List.length_cons]
      simp only [Fragment.size, Bool.false_eq_true, if_false]
      omega

theorem fragmentGaps_cases (position next source : Nat) (labels : List Nat) :
    fragmentGaps position (labels.map fun label => .displacement label next source false) =
      labels.mapIdx fun k label => ⟨position + 4 * k, label, next, source, false⟩ := by
  induction labels generalizing position with
  | nil => rfl
  | cons label labels ih =>
      have hshift : ∀ k, position + 4 + 4 * k = position + 4 * (k + 1) := by omega
      simp only [List.map_cons, fragmentGaps, Fragment.size, Bool.false_eq_true, if_false, ih,
        hshift, List.mapIdx_cons]
      rfl

/-- The fragments that a command appends have its gaps. -/
theorem fragmentGaps_command (offset : Nat) (c : Command) :
    fragmentGaps offset (c.fragments offset) = c.gaps offset := by
  cases c with
  | branch opcode label =>
      simp [Command.fragments, Command.gaps, fragmentGaps, Fragment.gaps, Fragment.size,
        Opcode.length_encoding]
  | switch labels =>
      have hnext : offset + Opcode.switch.length + 4 + 4 * labels.length =
          offset + 5 + 4 * labels.length := by
        rfl
      simp only [Command.fragments, fragmentGaps, Fragment.gaps, size_switchHead, hnext,
        List.nil_append, fragmentGaps_cases, Command.gaps]
  | _ => rfl

theorem fragmentGaps_program (a : Assembler) (commands : List Command) :
    fragmentGaps a.offset (program a.offset commands) = a.gaps commands := by
  induction commands generalizing a with
  | nil => rfl
  | cons c rest ih =>
      -- The command appends its fragments at the offset, so its gaps come first.
      rw [program, fragmentGaps_append, fragmentGaps_command, ← (apply_fragments a c).2, ih, gaps]

/-- Displacements stand in the instruction that is written, and count from the next. -/
theorem Command.offsets_of_gap {offset : Nat} {c : Command} :
    ∀ g ∈ c.gaps offset,
      g.source = offset ∧ g.next = offset + fragmentSize (c.fragments offset) := by
  intro g hg
  cases c with
  | branch opcode label =>
      cases List.mem_singleton.mp hg
      simp [Command.fragments, fragmentSize, Fragment.size, Opcode.length_encoding,
        Nat.add_assoc]
  | switch labels =>
      obtain ⟨k, _, rfl⟩ := List.mem_mapIdx.mp hg
      simp only [Command.fragments, fragmentSize_cons, fragmentSize_cases, size_switchHead,
        Nat.add_assoc, and_self]
  | _ => cases hg

theorem offsets_le_of_gap {commands : List Command} :
    ∀ g ∈ a.gaps commands, g.source ≤ g.next ∧ g.next ≤ (a.run commands).offset := by
  induction commands generalizing a with
  | nil => nofun
  | cons c rest ih =>
      intro g hg
      rcases List.mem_append.mp hg with hg | hg
      · obtain ⟨hsource, hnext⟩ := Command.offsets_of_gap g hg
        rw [hnext, hsource, ← (apply_fragments a c).2]
        exact ⟨offset_le_run a [c], offset_le_run (c.apply a) rest⟩
      · exact ih g hg

/-! ## Filling the gaps -/

variable {fragment : Fragment} {fragments : List Fragment} {bytes : List UInt8} {code : Code}
  {position : Nat} {e : AssemblyError}

/-- A displacement is resolved if its gap reaches the label, and else the error is about it. -/
theorem resolve_displacement (a : Assembler) (position label base source : Nat) (short : Bool) :
    Gap.Reaches a.place? ⟨position, label, base, source, short⟩ ∧
        (∃ bytes, a.resolve (.displacement label base source short) = .ok bytes) ∨
      ∃ e, a.resolve (.displacement label base source short) = .error e ∧
        Gap.Blames a.place? ⟨position, label, base, source, short⟩ e := by
  cases hplace : a.place? label with
  | none =>
      have herror : a.resolve (.displacement label base source short) =
          .error (.unboundLabel label) := by
        simp only [resolve, hplace]
      exact .inr ⟨_, herror, .inl ⟨hplace, rfl⟩⟩
  | some place =>
      by_cases hfits : Gap.Fits ⟨position, label, base, source, short⟩ place
      · refine .inl ⟨⟨place, hplace, hfits⟩, ?_⟩
        cases short with
        | false => simp [resolve, hplace]
        | true =>
            have hrange := hfits rfl
            simp only [resolve, hplace, if_true, if_pos hrange]
            exact ⟨_, rfl⟩
      · cases short with
        | false => exact absurd nofun hfits
        | true =>
            have hrange : ¬ (-128 ≤ (place : Int) - base ∧ (place : Int) - base ≤ 127) :=
              fun hrange => hfits fun _ => hrange
            have herror : a.resolve (.displacement label base source true) =
                .error (.displacementOverflow source ((place : Int) - base)) := by
              simp only [resolve, hplace, if_true, if_neg hrange]
            exact .inr ⟨_, herror, .inr ⟨place, hplace, hfits, rfl⟩⟩

theorem reaches_of_resolve (h : a.resolve fragment = .ok bytes) :
    ∀ g ∈ fragment.gaps position, g.Reaches a.place? := by
  intro g hg
  cases fragment with
  | bytes content => cases hg
  | displacement label base source short =>
      cases List.mem_singleton.mp hg
      rcases resolve_displacement a position label base source short with hreach | ⟨e, he, _⟩
      · exact hreach.1
      · rw [h] at he
        cases he

theorem blames_of_resolve (h : a.resolve fragment = .error e) (position : Nat) :
    ∃ g, fragment.gaps position = [g] ∧ g.Blames a.place? e := by
  cases fragment with
  | bytes content => cases h
  | displacement label base source short =>
      rcases resolve_displacement a position label base source short with
        ⟨_, _, hok⟩ | ⟨e', he', hblames⟩
      · rw [h] at hok
        cases hok
      · rw [h] at he'
        cases he'
        exact ⟨_, rfl, hblames⟩

theorem reaches_of_resolveAll (h : a.resolveAll fragments = .ok code) :
    ∀ g ∈ fragmentGaps position fragments, g.Reaches a.place? := by
  induction fragments generalizing position code with
  | nil => nofun
  | cons fragment rest ih =>
      rw [resolveAll_cons] at h
      obtain ⟨first, hfirst, h⟩ := bind_eq_ok h
      obtain ⟨bytes, hbytes, _⟩ := bind_eq_ok h
      intro g hg
      rcases List.mem_append.mp hg with hg | hg
      · exact reaches_of_resolve hfirst g hg
      · exact ih hbytes g hg

/-- **The error is about the first gap that does not reach its label.** -/
theorem resolveAll_eq_error (h : a.resolveAll fragments = .error e) (position : Nat) :
    ∃ before g after, fragmentGaps position fragments = before ++ g :: after ∧
      (∀ g' ∈ before, g'.Reaches a.place?) ∧ g.Blames a.place? e := by
  induction fragments generalizing position with
  | nil => cases h
  | cons fragment rest ih =>
      rw [resolveAll_cons] at h
      rcases bind_eq_error h with hfirst | ⟨first, hfirst, h⟩
      · obtain ⟨g, hg, hblames⟩ := blames_of_resolve hfirst position
        refine ⟨[], g, fragmentGaps (position + fragment.size) rest, ?_, nofun, hblames⟩
        rw [fragmentGaps, hg]
        rfl
      · rcases bind_eq_error h with hrest | ⟨bytes, _, h⟩
        · obtain ⟨before, g, after, hgaps, hbefore, hblames⟩ := ih hrest (position + fragment.size)
          refine ⟨fragment.gaps position ++ before, g, after, ?_, ?_, hblames⟩
          · rw [fragmentGaps, hgaps, List.append_assoc]
          · intro g' hg'
            rcases List.mem_append.mp hg' with hg' | hg'
            · exact reaches_of_resolve hfirst g' hg'
            · exact hbefore g' hg'
        · cases h

/-- Bytes in the middle can be replaced by as many others without a change before or behind. -/
theorem getElem?_replace {before first first' rest : List UInt8} {index : Nat}
    (hlength : first.length = first'.length)
    (hindex : ¬ (before.length ≤ index ∧ index < before.length + first.length)) :
    (before ++ first ++ rest)[index]? = (before ++ first' ++ rest)[index]? := by
  by_cases hbefore : index < before.length
  · rw [List.append_assoc, List.append_assoc, List.getElem?_append_left hbefore,
      List.getElem?_append_left hbefore]
  · have hbehind : (before ++ first).length ≤ index := by
      rw [List.length_append]
      omega
    have hlengths : (before ++ first).length = (before ++ first').length := by
      rw [List.length_append, List.length_append, hlength]
    rw [List.getElem?_append_right hbehind, List.getElem?_append_right (hlengths ▸ hbehind),
      hlengths]

/-- Nothing outside the gaps is changed. -/
theorem resolveAll_keeps (h : a.resolveAll fragments = .ok code) (before : List UInt8)
    {index : Nat}
    (hindex : ∀ g ∈ fragmentGaps before.length fragments, ¬ g.Covers index) :
    (before ++ code)[index]? = (before ++ fragments.flatMap Fragment.blank)[index]? := by
  induction fragments generalizing before code with
  | nil =>
      cases h
      rfl
  | cons fragment rest ih =>
      rw [resolveAll_cons] at h
      obtain ⟨first, hfirst, h⟩ := bind_eq_ok h
      obtain ⟨bytes, hbytes, h⟩ := bind_eq_ok h
      cases h
      have hlength := resolve_length hfirst
      -- The first fragment joins the code in front, once as it is resolved and once as it is blank.
      have hrest : (before ++ first ++ bytes)[index]? =
          (before ++ first ++ rest.flatMap Fragment.blank)[index]? := by
        refine ih hbytes (before ++ first) fun g hg => hindex g (List.mem_append_right _ ?_)
        rwa [List.length_append, hlength] at hg
      have hhead : (before ++ first ++ rest.flatMap Fragment.blank)[index]? =
          (before ++ fragment.blank ++ rest.flatMap Fragment.blank)[index]? := by
        cases fragment with
        | bytes content =>
            cases hfirst
            rfl
        | displacement label base source short =>
            have houtside := hindex _ (List.mem_append_left _ (List.mem_singleton_self _))
            refine getElem?_replace (hlength.trans (Fragment.length_blank _).symm) ?_
            rw [hlength]
            exact houtside
      rw [List.flatMap_cons, ← List.append_assoc, ← List.append_assoc, hrest, hhead]

theorem littleEndian_bytes32 (n : UInt32) : littleEndian (bytes32 n) = n.toNat := by
  have hlt : n.toNat < byteRange 4 := n.toNat_lt
  rw [bytes32, littleEndian_toLittleEndian, Nat.mod_eq_of_lt hlt]

/-- A displacement that was resolved leads to the place of the label. -/
theorem holds_of_resolve (h : a.resolve fragment = .ok bytes)
    (hplaces : ∀ label place, a.place? label = some place → place < 2 ^ 31)
    (before rest : List UInt8) :
    ∀ g ∈ fragment.gaps before.length, g.next < 2 ^ 31 →
      g.Holds a.place? (before ++ (bytes ++ rest)) := by
  intro g hg hnext
  have hwindow : window (before ++ (bytes ++ rest)) g.position g.width = bytes := by
    obtain ⟨hposition, hwidth⟩ := Fragment.position_of_gap hg
    rw [hposition, hwidth, ← resolve_length h, window, List.drop_left, List.take_left]
  cases fragment with
  | bytes content => cases hg
  | displacement label base source short =>
      cases List.mem_singleton.mp hg
      have hbase : base < 2 ^ 31 := hnext
      cases short with
      | true =>
          obtain ⟨place, hplace, rfl, hdistance⟩ := resolve_short h
          have hbyte (b : UInt8) : littleEndian [b] = b.toNat := by simp [littleEndian]
          refine ⟨place, hplace, ?_⟩
          show displacement8 (littleEndian (window _ _ _)) = (place : Int) - base
          rw [hwindow, hbyte, hdistance]
      | false =>
          obtain ⟨place, hplace, rfl⟩ := resolve_long h
          have hlt := hplaces label place hplace
          have hdistance := displacement32_toUInt32 (show -2 ^ 31 ≤ (place : Int) - base by omega)
            (by omega)
          refine ⟨place, hplace, ?_⟩
          show displacement32 (littleEndian (window _ _ _)) = (place : Int) - base
          rw [hwindow, littleEndian_bytes32, hdistance]

/-- Every gap is filled. -/
theorem resolveAll_holds (h : a.resolveAll fragments = .ok code)
    (hplaces : ∀ label place, a.place? label = some place → place < 2 ^ 31)
    (before : List UInt8) :
    ∀ g ∈ fragmentGaps before.length fragments, g.next < 2 ^ 31 →
      g.Holds a.place? (before ++ code) := by
  induction fragments generalizing before code with
  | nil => nofun
  | cons fragment rest ih =>
      rw [resolveAll_cons] at h
      obtain ⟨first, hfirst, h⟩ := bind_eq_ok h
      obtain ⟨bytes, hbytes, h⟩ := bind_eq_ok h
      cases h
      intro g hg hnext
      rcases List.mem_append.mp hg with hg | hg
      · exact holds_of_resolve hfirst hplaces before bytes g hg hnext
      · rw [← resolve_length hfirst, ← List.length_append] at hg
        rw [← List.append_assoc]
        exact ih hbytes (before ++ first) g hg hnext

/-! ## Finished code -/

/-- **Code is finished exactly if every gap reaches its label, and only gaps are filled.** Take any
commands, with labels from elsewhere, without a place or placed more than once. Gaps do not overlap,
and they lie in what was written. The code is finished exactly if the label of every gap has a place
that can be reached from it. Then it is what was written, with each gap filled by the distance to
the last place of its label. Otherwise the error is about the first gap that does not reach its
label. -/
theorem finish_fills (commands : List Command) (hsize : (run {} commands).offset < 2 ^ 31) :
    ((gaps {} commands).Pairwise fun g g' => g.position + g.width ≤ g'.position) ∧
      (∀ g ∈ gaps {} commands, g.position + g.width ≤ (run {} commands).offset) ∧
      ((∃ code, (run {} commands).finish = .ok code) ↔
        ∀ g ∈ gaps {} commands, g.Reaches (lastBound commands)) ∧
      (∀ code, (run {} commands).finish = .ok code →
        code.length = (run {} commands).offset ∧
        Fills (lastBound commands) (gaps {} commands) (run {} commands).written code) ∧
      ∀ e, (run {} commands).finish = .error e →
        ∃ before g after, gaps {} commands = before ++ g :: after ∧
          (∀ g' ∈ before, g'.Reaches (lastBound commands)) ∧ g.Blames (lastBound commands) e := by
  obtain ⟨hfragments, hoffset⟩ := run_fragments {} commands
  have hnext : ∀ g ∈ gaps {} commands, g.next < 2 ^ 31 := fun g hg =>
    Nat.lt_of_le_of_lt (offsets_le_of_gap g hg).2 hsize
  have hwithin : (run {} commands).PlacesWithin := placesWithin_run placesWithin_empty commands
  have hgaps : fragmentGaps 0 (program 0 commands) = gaps {} commands :=
    fragmentGaps_program {} commands
  have hoffset : (run {} commands).offset = fragmentSize (program 0 commands) := by
    rw [hoffset]
    exact Nat.zero_add _
  rw [← place?_eq_lastBound, finish_eq_resolveAll, written, hfragments]
  rw [← hgaps] at hnext ⊢
  -- From here on only the fragments matter, and no longer which commands they come from.
  generalize program 0 commands = fragments at *
  generalize run {} commands = a at *
  have herror : ∀ e, a.resolveAll fragments = .error e →
      ∃ before g after, fragmentGaps 0 fragments = before ++ g :: after ∧
        (∀ g' ∈ before, g'.Reaches a.place?) ∧ g.Blames a.place? e :=
    fun e h => resolveAll_eq_error h 0
  refine ⟨fragmentGaps_pairwise 0 _, ?_, ⟨?_, ?_⟩, ?_, herror⟩
  · intro g hg
    have hle := (fragmentGaps_within g hg).2
    omega
  · rintro ⟨code, h⟩
    exact reaches_of_resolveAll h
  · intro hreaches
    cases h : a.resolveAll fragments with
    | ok code => exact ⟨code, rfl⟩
    | error e =>
        -- The gap to blame would not reach its label.
        obtain ⟨before, g, after, hsplit, _, hblames⟩ := herror e h
        have hmem : g ∈ fragmentGaps 0 fragments := by simp [hsplit]
        exact absurd (hreaches g hmem) hblames.not_reaches
  · intro code h
    have hlength : code.length = a.offset := (resolveAll_length h).trans hoffset.symm
    refine ⟨hlength, ?_, fun index hindex => resolveAll_keeps h [] hindex, ?_⟩
    · rw [hlength, hoffset]
      exact (length_blanks fragments).symm
    · intro g hg
      refine resolveAll_holds h (fun label place hplace => ?_) [] g hg (hnext g hg)
      exact Nat.lt_of_le_of_lt (hwithin label place hplace) hsize

/-- Two bytes as they are, then a short branch and a switch to a label that is placed twice. -/
def placedTwice : List Command :=
  [.newLabel, .raw [0x00, 0x00], .branch .brS 0, .mark 0, .op .nop, .switch [0, 0], .mark 0,
    .op .ret]

/-- Goes on with a short branch that is too far away, and a branch to a label from elsewhere. -/
def tooFar : List Command :=
  placedTwice ++ [.raw (List.replicate 200 0x00), .branch .brS 0, .branch .br 9]

/-- The second placement counts for all gaps. Of two gaps that do not reach their label, the first
is blamed. -/
theorem finish_placedTwice :
    (∃ code, (run {} placedTwice).finish = .ok code ∧ code.length = 19 ∧
      Fills (lastBound placedTwice) (gaps {} placedTwice) (run {} placedTwice).written code) ∧
      (run {} tooFar).finish = .error (.displacementOverflow 219 (-203)) ∧
      ∃ before g after, gaps {} tooFar = before ++ g :: after ∧
        (∀ g' ∈ before, g'.Reaches (lastBound tooFar)) ∧
        g.Blames (lastBound tooFar) (.displacementOverflow 219 (-203)) := by
  have hplaced : lastBound placedTwice 0 = some 18 := by decide
  have hfits : ∀ g ∈ gaps {} placedTwice, g.label = 0 ∧ g.Fits 18 := by decide
  have hfar : (run {} tooFar).finish = .error (.displacementOverflow 219 (-203)) := by
    decide +kernel
  obtain ⟨_, _, hfinish, hfills, _⟩ := finish_fills placedTwice (by decide)
  obtain ⟨_, _, _, _, hblames⟩ := finish_fills tooFar (by decide +kernel)
  obtain ⟨code, hcode⟩ := hfinish.mpr fun g hg =>
    ⟨18, (hfits g hg).1 ▸ hplaced, (hfits g hg).2⟩
  obtain ⟨hlength, hfilled⟩ := hfills code hcode
  exact ⟨⟨code, hcode, hlength, hfilled⟩, hfar, hblames _ hfar⟩

end Assembler

end ManagedCode
