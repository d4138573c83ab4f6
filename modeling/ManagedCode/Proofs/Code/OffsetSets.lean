import ManagedCode.OffsetSet
import Mathlib.Data.Finset.Card
import Mathlib.Data.List.Find
import Mathlib.Order.Bounds.Defs

set_option autoImplicit false

/-! # Sets of offsets as finite sets

Counting adds up the set bits of words, and comparing stops at the first word with a bit too many
and counts the zeros at its end. Both say the same as a search through all offsets, one by one
(`OffsetSet.count_eq_countP`, `OffsetSet.firstNotIn_eq_find?`), as a row of words is a row of bits
and the bits behind the bound are clear. So a set of offsets is a finite set of numbers below its
bound, whatever is inserted into it and in whatever order: `OffsetSet.ofList_refines`.
-/

namespace ManagedCode.OffsetSet

/-! ## Rows of words as rows of bits -/

theorem bit_cons_of_lt (word : UInt64) (words : List UInt64) {i : Nat} (hi : i < 64) :
    bit (word :: words).toArray i = word.toNat.testBit i := by
  unfold bit
  rw [Nat.div_eq_of_lt hi, Nat.mod_eq_of_lt hi]
  simp

theorem bit_cons_add (word : UInt64) (words : List UInt64) (i : Nat) :
    bit (word :: words).toArray (64 + i) = bit words.toArray i := by
  unfold bit
  have hdiv : (64 + i) / 64 = i / 64 + 1 := by omega
  have hmod : (64 + i) % 64 = i % 64 := by omega
  rw [hdiv, hmod]
  simp

/-- The bits of a row are those of its first word and then those of the others. -/
theorem range_bits (words : List UInt64) (word : UInt64) :
    List.range (64 * (word :: words).length) =
      List.range 64 ++ (List.range (64 * words.length)).map (64 + ·) := by
  rw [List.length_cons, Nat.mul_succ, Nat.add_comm, List.range_add]

/-! ## Counting -/

theorem cpop_eq_countP (word : UInt64) :
    word.toBitVec.cpop.toNat = (List.range 64).countP word.toNat.testBit := by
  have key : ∀ n, word.toBitVec.cpopNatRec n 0 = (List.range n).countP word.toNat.testBit := by
    intro n
    induction n with
    | zero => rfl
    | succ n ih =>
        rw [BitVec.cpopNatRec_succ, BitVec.cpopNatRec_add, ih, List.range_succ, List.countP_append,
          List.countP_singleton]
        show _ + (word.toNat.testBit n).toNat = _
        cases word.toNat.testBit n <;> rfl
  rw [BitVec.toNat_cpop]
  exact key 64

/-- Adding up the set bits of the words goes through the bits of the row. -/
theorem foldl_cpop (words : List UInt64) (total : Nat) :
    words.foldl (fun total word => total + word.toBitVec.cpop.toNat) total =
      total + (List.range (64 * words.length)).countP (bit words.toArray) := by
  induction words generalizing total with
  | nil => rfl
  | cons word words ih =>
      have hfirst : (List.range 64).countP (bit (word :: words).toArray) =
          (List.range 64).countP word.toNat.testBit :=
        List.countP_congr fun i hi => by rw [bit_cons_of_lt word words (List.mem_range.mp hi)]
      have hrest : bit (word :: words).toArray ∘ (64 + ·) = bit words.toArray :=
        funext (bit_cons_add word words)
      rw [List.foldl_cons, ih, range_bits, List.countP_append, List.countP_map, hfirst, hrest,
        cpop_eq_countP, Nat.add_assoc]

/-! ## Comparing -/

theorem testBit_andNot (a b : UInt64) {i : Nat} (hi : i < 64) :
    (a &&& ~~~b).toNat.testBit i = (a.toNat.testBit i && !b.toNat.testBit i) := by
  show (a &&& ~~~b).toBitVec.getLsbD i = (a.toBitVec.getLsbD i && !b.toBitVec.getLsbD i)
  rw [UInt64.toBitVec_and, UInt64.toBitVec_not, BitVec.getLsbD_and, BitVec.getLsbD_not]
  simp [hi]

/-- The zeros at the end of a word are as many as there are bits to skip before the first one that
is set. -/
theorem find?_testBit {word : UInt64} (h : word ≠ 0) :
    (List.range 64).find? word.toNat.testBit = some word.toBitVec.ctz.toNat := by
  have hne : word.toBitVec ≠ 0#64 := fun hzero => h (UInt64.toBitVec_inj.mp hzero)
  have hset : word.toNat.testBit word.toBitVec.ctz.toNat = true :=
    BitVec.getLsbD_true_ctz_of_ne_zero hne
  have hlt : word.toBitVec.ctz.toNat < 64 := by
    by_contra hge
    have hclear : word.toBitVec.getLsbD word.toBitVec.ctz.toNat = false :=
      BitVec.getLsbD_of_ge _ _ (Nat.le_of_not_lt hge)
    exact Bool.false_ne_true (hclear.symm.trans hset)
  rw [List.find?_range_eq_some]
  refine ⟨hset, List.mem_range.mpr hlt, fun i hi => ?_⟩
  have hclear : word.toNat.testBit i = false := BitVec.getLsbD_false_of_lt_ctz hi
  rw [hclear]
  rfl

theorem lowestExtra_eq_find? {as bs : List UInt64} (h : as.length = bs.length) (start : Nat) :
    lowestExtra start as bs =
      ((List.range (64 * as.length)).find? fun i => bit as.toArray i && !bit bs.toArray i).map
        (start + ·) := by
  induction as generalizing bs start with
  | nil => rfl
  | cons a as ih =>
      cases bs with
      | nil => cases h
      | cons b bs =>
          -- The first 64 bits are those of the first words, where the extra ones show at once.
          have hfirst : ((List.range 64).find? fun i =>
              bit (a :: as).toArray i && !bit (b :: bs).toArray i) =
                (List.range 64).find? (a &&& ~~~b).toNat.testBit := by
            refine List.find?_congr fun i hi => ?_
            have hi : i < 64 := List.mem_range.mp hi
            rw [bit_cons_of_lt a as hi, bit_cons_of_lt b bs hi, testBit_andNot a b hi]
          have hrest : ((fun i => bit (a :: as).toArray i && !bit (b :: bs).toArray i) ∘ (64 + ·)) =
              fun i => bit as.toArray i && !bit bs.toArray i := by
            funext i
            simp only [Function.comp_apply, bit_cons_add]
          rw [range_bits, List.find?_append, List.find?_map, hfirst, hrest, lowestExtra]
          by_cases hextra : a &&& ~~~b = 0
          · -- Nothing is found in the first words, and the others start 64 bits later.
            have hnone : (List.range 64).find? (a &&& ~~~b).toNat.testBit = none := by
              simp [hextra]
            rw [if_pos hextra, ih (Nat.succ.inj h), hnone, Option.none_or, Option.map_map]
            congr 1
            funext i
            simp only [Function.comp_apply]
            omega
          · rw [if_neg hextra, find?_testBit hextra]
            rfl

/-! ## Sets as searches through all offsets -/

variable (s : OffsetSet)

theorem contains_of_lt {i : Nat} (hi : i < s.bound) : s.contains i = bit s.words i := by
  simp [contains, hi]

/-- The bits of the words are those of the offsets and then the spare ones. -/
theorem exists_range_spare : ∃ spare, List.range (64 * s.words.toList.length) =
    List.range s.bound ++ (List.range spare).map (s.bound + ·) := by
  have hle : s.bound ≤ 64 * s.words.toList.length := by
    rw [Array.length_toList, s.size_words]
    omega
  obtain ⟨spare, hspare⟩ := Nat.exists_eq_add_of_le hle
  exact ⟨spare, by rw [hspare, List.range_add]⟩

/-- **Counting bits counts members.** -/
theorem count_eq_countP : s.count = (List.range s.bound).countP s.contains := by
  obtain ⟨spare, hrange⟩ := s.exists_range_spare
  have hmembers : (List.range s.bound).countP (bit s.words) =
      (List.range s.bound).countP s.contains :=
    List.countP_congr fun i hi => by rw [s.contains_of_lt (List.mem_range.mp hi)]
  have hspare : ((List.range spare).map (s.bound + ·)).countP (bit s.words) = 0 := by
    rw [List.countP_eq_zero]
    intro i hi
    obtain ⟨k, _, rfl⟩ := List.mem_map.mp hi
    simp [s.spare_clear _ (Nat.le_add_right s.bound k)]
  calc s.count = (List.range (64 * s.words.toList.length)).countP (bit s.words) := by
        rw [count, ← Array.foldl_toList, foldl_cpop, Nat.zero_add]
    _ = (List.range s.bound).countP s.contains := by
        rw [hrange, List.countP_append, hmembers, hspare, Nat.add_zero]

/-- **Comparing words finds the lowest offset that only one set has.** -/
theorem firstNotIn_eq_find? {s t : OffsetSet} (h : s.bound = t.bound) :
    s.firstNotIn t = (List.range s.bound).find? fun i => s.contains i && !t.contains i := by
  obtain ⟨spare, hrange⟩ := s.exists_range_spare
  have hlength : s.words.toList.length = t.words.toList.length := by
    rw [Array.length_toList, Array.length_toList, s.size_words, t.size_words, h]
  have hmembers : ((List.range s.bound).find? fun i => bit s.words i && !bit t.words i) =
      (List.range s.bound).find? fun i => s.contains i && !t.contains i := by
    refine List.find?_congr fun i hi => ?_
    have hi : i < s.bound := List.mem_range.mp hi
    rw [s.contains_of_lt hi, t.contains_of_lt (h ▸ hi)]
  have hspare : (((List.range spare).map (s.bound + ·)).find? fun i =>
      bit s.words i && !bit t.words i) = none := by
    rw [List.find?_eq_none]
    intro i hi
    obtain ⟨k, _, rfl⟩ := List.mem_map.mp hi
    simp [s.spare_clear _ (Nat.le_add_right s.bound k)]
  calc s.firstNotIn t =
        ((List.range (64 * s.words.toList.length)).find? fun i =>
          bit s.words i && !bit t.words i).map (0 + ·) := lowestExtra_eq_find? hlength 0
    _ = (List.range s.bound).find? fun i => s.contains i && !t.contains i := by
        rw [hrange, List.find?_append, hmembers, hspare, Option.or_none]
        simp

theorem lt_bound_of_contains {s : OffsetSet} {offset : Nat} (h : s.contains offset = true) :
    offset < s.bound := by
  unfold contains at h
  rw [Bool.and_eq_true, decide_eq_true_iff] at h
  exact h.1

/-- The offset that a comparison gives is in the first set and not in the second, and no offset
before it is. -/
theorem firstNotIn_eq_some_iff {s t : OffsetSet} (h : s.bound = t.bound) {i : Nat} :
    s.firstNotIn t = some i ↔ IsLeast {j | s.contains j = true ∧ t.contains j = false} i := by
  rw [firstNotIn_eq_find? h, List.find?_range_eq_some]
  constructor
  · rintro ⟨hi, _, hbefore⟩
    rw [Bool.and_eq_true, Bool.not_eq_true'] at hi
    refine ⟨hi, fun j hj => Nat.le_of_not_lt fun hlt => ?_⟩
    simpa [hj.1, hj.2] using hbefore j hlt
  · rintro ⟨hi, hleast⟩
    refine ⟨by simp [hi.1, hi.2], List.mem_range.mpr (lt_bound_of_contains hi.1), fun j hlt => ?_⟩
    cases hs : s.contains j with
    | false => rfl
    | true =>
        cases ht : t.contains j with
        | false => exact absurd (hleast ⟨hs, ht⟩) (Nat.not_le_of_lt hlt)
        | true => rfl

/-- A comparison gives nothing exactly if the second set has all members of the first. -/
theorem firstNotIn_eq_none_iff {s t : OffsetSet} (h : s.bound = t.bound) :
    s.firstNotIn t = none ↔ ∀ i, s.contains i = true → t.contains i = true := by
  rw [firstNotIn_eq_find? h, List.find?_eq_none]
  constructor
  · intro hnone i hi
    simpa [hi] using hnone i (List.mem_range.mpr (lt_bound_of_contains hi))
  · intro hsub i _ hextra
    rw [Bool.and_eq_true, Bool.not_eq_true'] at hextra
    rw [hsub i hextra.1] at hextra
    exact Bool.noConfusion hextra.2

/-! ## Series of insertions -/

/-- The set of the offsets in a list, inserted one after the other. -/
def ofList (bound : Nat) (offsets : List Nat) : OffsetSet := offsets.foldl insert (empty bound)

theorem bound_foldl (offsets : List Nat) : (offsets.foldl insert s).bound = s.bound := by
  induction offsets generalizing s with
  | nil => rfl
  | cons i rest ih => exact (ih (s.insert i)).trans (s.bound_insert i)

theorem contains_foldl (offsets : List Nat) (i : Nat) :
    (offsets.foldl insert s).contains i = true ↔
      s.contains i = true ∨ i < s.bound ∧ i ∈ offsets := by
  induction offsets generalizing s with
  | nil => simp
  | cons j rest ih =>
      rw [List.foldl_cons, ih, bound_insert, contains_insert, Bool.or_eq_true, decide_eq_true_iff,
        List.mem_cons]
      constructor
      · rintro ((hold | ⟨rfl, hlt⟩) | ⟨hlt, hmem⟩)
        · exact .inl hold
        · exact .inr ⟨hlt, .inl rfl⟩
        · exact .inr ⟨hlt, .inr hmem⟩
      · rintro (hold | ⟨hlt, rfl | hmem⟩)
        · exact .inl (.inl hold)
        · exact .inl (.inr ⟨rfl, hlt⟩)
        · exact .inr ⟨hlt, hmem⟩

@[simp]
theorem bound_ofList (bound : Nat) (offsets : List Nat) : (ofList bound offsets).bound = bound :=
  bound_foldl (empty bound) offsets

theorem contains_ofList (bound : Nat) (offsets : List Nat) (i : Nat) :
    (ofList bound offsets).contains i = true ↔ i < bound ∧ i ∈ offsets := by
  rw [ofList, contains_foldl, contains_empty, bound_empty]
  simp

theorem count_ofList (bound : Nat) (offsets : List Nat) :
    (ofList bound offsets).count = (offsets.toFinset.filter (· < bound)).card := by
  have hmembers : ((List.range bound).filter (ofList bound offsets).contains).toFinset =
      offsets.toFinset.filter (· < bound) := by
    ext i
    simp only [List.mem_toFinset, List.mem_filter, List.mem_range, Finset.mem_filter,
      contains_ofList]
    exact ⟨fun h => ⟨h.2.2, h.1⟩, fun h => ⟨h.2, h.2, h.1⟩⟩
  calc (ofList bound offsets).count
      = ((List.range bound).filter (ofList bound offsets).contains).length := by
        rw [count_eq_countP, bound_ofList, List.countP_eq_length_filter]
    _ = ((List.range bound).filter (ofList bound offsets).contains).toFinset.card :=
        (List.toFinset_card_of_nodup (List.nodup_range.filter _)).symm
    _ = (offsets.toFinset.filter (· < bound)).card := by rw [hmembers]

/-- **A set of offsets is a finite set.** After any insertions its members are the offsets that were
inserted and lie below the bound, and it counts each of them once. Of two sets with the same bound,
a comparison gives the least offset that is in the first and not in the second, and nothing exactly
if there is none. -/
theorem ofList_refines (bound : Nat) (offsets others : List Nat) :
    (∀ i, (ofList bound offsets).contains i = true ↔ i < bound ∧ i ∈ offsets) ∧
      (ofList bound offsets).count = (offsets.toFinset.filter (· < bound)).card ∧
      (∀ i, (ofList bound offsets).firstNotIn (ofList bound others) = some i ↔
        IsLeast {j | (ofList bound offsets).contains j = true ∧
          (ofList bound others).contains j = false} i) ∧
      ((ofList bound offsets).firstNotIn (ofList bound others) = none ↔
        ∀ i, (ofList bound offsets).contains i = true →
          (ofList bound others).contains i = true) := by
  have hsame : (ofList bound offsets).bound = (ofList bound others).bound := by simp
  exact ⟨contains_ofList bound offsets, count_ofList bound offsets,
    fun i => firstNotIn_eq_some_iff hsame, firstNotIn_eq_none_iff hsame⟩

/-- Three offsets in three words, one of them twice and another behind the bound, against a set that
has one of them. -/
example : (ofList 130 [129, 0, 64, 0, 500]).count = 3 ∧
    (ofList 130 [129, 0, 64, 0, 500]).firstNotIn (ofList 130 [0]) = some 64 := by
  decide +kernel

end ManagedCode.OffsetSet
