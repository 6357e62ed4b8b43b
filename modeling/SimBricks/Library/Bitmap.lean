import Mathlib.Data.Nat.Bitwise
import Mathlib.Tactic

/-!
# A machine word as a set

One bit per member: a 64-bit word holds a set of numbers below 64. The
operations are those of the source, a mask shifted into place.
-/

set_option autoImplicit false

namespace Library.Bitmap
open List Nat

def has (m : UInt64) (i : UInt8) : Bool := m &&& (1 <<< i.toUInt64) ≠ 0

def add (m : UInt64) (i : UInt8) : UInt64 := m ||| (1 <<< i.toUInt64)

def remove (m : UInt64) (i : UInt8) : UInt64 := m &&& ~~~(1 <<< i.toUInt64)

lemma toNat_mask {i : UInt8} (hi : i < 64) : ((1 : UInt64) <<< i.toUInt64).toNat = 2^i.toNat := by
  have h : i.toNat < 64 := UInt8.lt_iff_toNat_lt.mp hi
  have hp : 2^i.toNat < 2^64 := Nat.pow_lt_pow_right (by decide) h
  simpa [UInt64.toNat_shiftLeft, mod_eq_of_lt h, shiftLeft_eq] using hp

lemma has_iff_testBit (m : UInt64) {i : UInt8} (hi : i < 64) :
    has m i ↔ m.toNat.testBit i.toNat := by
  have hz : m &&& (1 <<< i.toUInt64) = 0 ↔ m.toNat &&& 2^i.toNat = 0 := by
    rw [← UInt64.toNat_inj, UInt64.toNat_and, toNat_mask hi, UInt64.toNat_zero]
  rw [has, decide_eq_true_eq, ne_eq, hz, and_two_pow]
  cases m.toNat.testBit i.toNat <;> simp

lemma has_add (m : UInt64) {i j : UInt8} (hi : i < 64) (hj : j < 64) :
    has (add m i) j ↔ j = i ∨ has m j := by
  have hij : i.toNat = j.toNat ↔ j = i := by rw [UInt8.toNat_inj, eq_comm]
  rw [has_iff_testBit _ hj, has_iff_testBit _ hj, add, UInt64.toNat_or, toNat_mask hi,
    testBit_or, testBit_two_pow, Bool.or_eq_true, decide_eq_true_eq, hij, or_comm]

lemma has_remove (m : UInt64) {i j : UInt8} (hi : i < 64) (hj : j < 64) :
    has (remove m i) j ↔ j ≠ i ∧ has m j := by
  have hij : i.toNat = j.toNat ↔ j = i := by rw [UInt8.toNat_inj, eq_comm]
  have h64 : j.toNat < 64 := UInt8.lt_iff_toNat_lt.mp hj
  have hp : 2^i.toNat < 2^64 := Nat.pow_lt_pow_right (by decide) (UInt8.lt_iff_toNat_lt.mp hi)
  rw [has_iff_testBit _ hj, has_iff_testBit _ hj, remove, UInt64.toNat_and, testBit_and,
    UInt64.toNat_not, toNat_mask hi, Nat.sub_sub, Nat.add_comm 1]
  rw [show UInt64.size = 2^64 from rfl, testBit_two_pow_sub_succ hp]
  simp [h64, hij, and_comm, testBit_two_pow]

lemma has_zero {i : UInt8} (hi : i < 64) : has 0 i = false := by
  rw [← Bool.not_eq_true, has_iff_testBit 0 hi]
  simp

def popcount (m : UInt64) : ℕ := ((range 64).filter m.toNat.testBit).length

lemma popcount_eq_card {m : UInt64} {S : Finset UInt8} (hS : ∀ i ∈ S, i < 64)
    (h : ∀ i < 64, has m i ↔ i ∈ S) : popcount m = S.card := by
  have himage : ((range 64).filter m.toNat.testBit).toFinset = S.image UInt8.toNat := by
    ext n
    simp only [mem_toFinset, mem_filter, mem_range, Finset.mem_image]
    constructor
    · rintro ⟨hn,_⟩
      have hto : (UInt8.ofNat n).toNat = n := mod_eq_of_lt (show n < 256 by omega)
      have hi : UInt8.ofNat n < 64 := UInt8.lt_iff_toNat_lt.mpr (by rw [hto]; exact hn)
      refine ⟨UInt8.ofNat n,(h _ hi).mp ?_,hto⟩
      rwa [has_iff_testBit m hi, hto]
    · rintro ⟨i,hi,rfl⟩
      have h64 := hS i hi
      exact ⟨UInt8.lt_iff_toNat_lt.mp h64,(has_iff_testBit m h64).mp ((h i h64).mpr hi)⟩
  rw [popcount, ← toFinset_card_of_nodup (nodup_range.filter _), himage]
  exact Finset.card_image_of_injective S fun _ _ => UInt8.toNat_inj.mp

/-! A set of numbers spread over consecutive bytes, eight to a byte. -/

def bit (m : ℕ → UInt8) (i : ℕ) : Bool := (m (i/8)).toNat.testBit (i%8)

def setBit (m : ℕ → UInt8) (i : ℕ) : ℕ → UInt8 :=
  Function.update m (i/8) (m (i/8) ||| (1 <<< UInt8.ofNat (i%8)))

def clear (m : ℕ → UInt8) (n : ℕ) : ℕ → UInt8 := fun i => if i < n then 0 else m i

lemma toNat_byteMask {i : ℕ} (hi : i < 8) : ((1 : UInt8) <<< UInt8.ofNat i).toNat = 2^i := by
  have hp : 2^i < 2^8 := Nat.pow_lt_pow_right (by decide) hi
  have hn : i % 256 = i := mod_eq_of_lt (by omega)
  simpa [UInt8.toNat_shiftLeft, hn, mod_eq_of_lt hi, shiftLeft_eq] using hp

lemma bit_setBit (m : ℕ → UInt8) (i j : ℕ) : bit (setBit m i) j = (decide (j = i) || bit m j) := by
  have hi : i % 8 < 8 := mod_lt _ (by decide)
  unfold bit setBit
  rw [Function.update_apply]
  split_ifs with h
  · rw [UInt8.toNat_or, toNat_byteMask hi, testBit_or, testBit_two_pow, h, Bool.or_comm]
    congr 1
    exact decide_eq_decide.mpr (by omega)
  · rw [decide_eq_false (fun he => h (by rw [he])), Bool.false_or]

lemma bit_clear (m : ℕ → UInt8) (n i : ℕ) :
    bit (clear m n) i = if i < 8*n then false else bit m i := by
  unfold bit clear
  by_cases h : i < 8*n
  · rw [if_pos h, if_pos (by omega), UInt8.toNat_zero, zero_testBit]
  · rw [if_neg h, if_neg (by omega)]

end Library.Bitmap
