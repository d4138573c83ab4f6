set_option autoImplicit false

/-! # Sets of code offsets

A set of offsets below a fixed bound, one bit each, packed into words of 64 bits. Offsets at or
beyond the bound are never members, and inserting one changes nothing. Members are counted, and two
sets are compared, a word at a time.

`contains` is the view through which the set is reasoned about: `contains_empty` and
`contains_insert` say what the operations do to it.
-/

namespace ManagedCode

/-- The bit for offset `i` in a row of words. -/
def OffsetSet.bit (words : Array UInt64) (i : Nat) : Bool :=
  ((words[i / 64]?).getD 0).toNat.testBit (i % 64)

/-- A set of offsets below `bound`. -/
structure OffsetSet where
  words : Array UInt64
  bound : Nat
  /-- There is a bit for every offset, and no word without one. -/
  size_words : words.size = (bound + 63) / 64
  /-- Bits that stand for no offset are clear. -/
  spare_clear : ∀ i, bound ≤ i → OffsetSet.bit words i = false

namespace OffsetSet

/-! ## Bits -/

@[simp]
theorem bit_replicate (size i : Nat) : bit (Array.replicate size 0) i = false := by
  simp only [bit, Array.getElem?_replicate]
  split <;> simp

/-- Setting bit `k` of a word sets that bit and no other. -/
theorem testBit_setBit (word : UInt64) {k j : Nat} (hk : k < 64) (hj : j < 64) :
    (word ||| 1 <<< UInt64.ofNat k).toNat.testBit j = (word.toNat.testBit j || decide (k = j)) := by
  have hmod : (UInt64.ofNat k).toNat % 64 = k := by
    rw [UInt64.toNat_ofNat']
    omega
  rw [UInt64.toNat_or, Nat.testBit_or, UInt64.toNat_shiftLeft, hmod, Nat.testBit_mod_two_pow,
    UInt64.toNat_one, Nat.one_shiftLeft, Nat.testBit_two_pow]
  simp [hj]

/-- Setting the bit for `i` in its word sets that bit and no other. -/
theorem bit_modify {words : Array UInt64} {i : Nat} (hi : i / 64 < words.size) (j : Nat) :
    bit (words.modify (i / 64) (· ||| 1 <<< UInt64.ofNat (i % 64))) j =
      (bit words j || decide (i = j)) := by
  unfold bit
  rw [Array.getElem?_modify]
  by_cases hw : i / 64 = j / 64
  · rw [if_pos hw, ← hw, Array.getElem?_eq_getElem hi, Option.map_some, Option.getD_some,
      Option.getD_some, testBit_setBit _ (Nat.mod_lt _ (by decide)) (Nat.mod_lt _ (by decide))]
    have hij : i % 64 = j % 64 ↔ i = j := by omega
    simp only [hij]
  · have hne : i ≠ j := fun h => hw (congrArg (· / 64) h)
    rw [if_neg hw, decide_eq_false hne, Bool.or_false]

/-! ## Operations -/

/-- The empty set. -/
def empty (bound : Nat) : OffsetSet where
  words := Array.replicate ((bound + 63) / 64) 0
  bound := bound
  size_words := Array.size_replicate
  spare_clear := fun i _ => bit_replicate _ i

/-- The offset is a member. -/
def contains (s : OffsetSet) (i : Nat) : Bool := i < s.bound && bit s.words i

theorem div_lt_size (s : OffsetSet) {i : Nat} (hi : i < s.bound) : i / 64 < s.words.size := by
  rw [s.size_words]
  omega

/-- Adds an offset below the bound. -/
def insert (s : OffsetSet) (i : Nat) : OffsetSet :=
  if hi : i < s.bound then
    { words := s.words.modify (i / 64) (· ||| 1 <<< UInt64.ofNat (i % 64))
      bound := s.bound
      size_words := by rw [Array.size_modify, s.size_words]
      spare_clear := by
        intro j hj
        rw [bit_modify (s.div_lt_size hi), s.spare_clear j hj]
        exact decide_eq_false (by omega) }
  else s

/-- The members in ascending order. -/
def toList (s : OffsetSet) : List Nat := (List.range s.bound).filter s.contains

/-- The number of members: the set bits of all words. -/
def count (s : OffsetSet) : Nat :=
  s.words.foldl (fun total word => total + word.toBitVec.cpop.toNat) 0

/-- The lowest bit that is set in the first row of words and clear in the second, where bits are
counted from `start`. -/
def lowestExtra (start : Nat) : List UInt64 → List UInt64 → Option Nat
  | a :: as, b :: bs =>
      let extra := a &&& ~~~b
      if extra = 0 then lowestExtra (start + 64) as bs
      else some (start + extra.toBitVec.ctz.toNat)
  | _, _ => none

/-- The lowest member that `t` does not have. -/
def firstNotIn (s t : OffsetSet) : Option Nat := lowestExtra 0 s.words.toList t.words.toList

/-! ## Membership -/

@[simp]
theorem bound_empty (bound : Nat) : (empty bound).bound = bound := rfl

@[simp]
theorem bound_insert (s : OffsetSet) (i : Nat) : (s.insert i).bound = s.bound := by
  unfold insert
  split <;> rfl

@[simp]
theorem contains_empty (bound i : Nat) : (empty bound).contains i = false := by
  simp [contains, empty]

theorem contains_insert (s : OffsetSet) (i j : Nat) :
    (s.insert i).contains j = (s.contains j || decide (i = j ∧ i < s.bound)) := by
  unfold insert contains
  by_cases hi : i < s.bound
  · rw [dif_pos hi]
    simp only [bit_modify (s.div_lt_size hi)]
    by_cases hij : i = j
    · subst hij
      simp [hi]
    · simp [hij]
  · rw [dif_neg hi]
    simp [hi]

end OffsetSet

end ManagedCode
