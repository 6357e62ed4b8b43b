import SimBricks.Library.Bytes
import SimBricks.Library.Run

/-!
# Operations of the AXI subordinate of `axi_subordinate.hh`

A burst becomes one operation on a flat buffer. Both ports walk the buffer
with an offset and cut off, for each beat, what fits between the lane of
the offset and the end of the bus.
-/

set_option autoImplicit false

namespace SimBricks.AxiSubordinate
open Library Library.Bytes Nat

/-- The template parameters; an AXI data bus has 8 to 1024 bits, a power of
two. -/
structure Bus where
  bytesData : ℕ
  maxInFlight : ℕ
  pow : ∃ k ≤ 7, bytesData = 2^k

structure AXIOperation where
  addr : ℕ
  len : ℕ
  id : UInt64
  buf : Memory
  stepSize : ℕ
  completed : Bool

def AXIOperation.new (addr len : ℕ) (id : UInt64) (stepSize : ℕ) : AXIOperation :=
  ⟨addr,len,id,fun _ => 0,stepSize,false⟩

def pow2 (exponent : ℕ) : ℕ := 1 <<< exponent

def align (bus : Bus) (op : AXIOperation) (off : ℕ) : ℕ := (op.addr+off) % bus.bytesData

def numBytes (bus : Bus) (op : AXIOperation) (off : ℕ) : ℕ :=
  min (min (bus.bytesData-align bus op off) op.stepSize) (op.len-off)

lemma pow2_eq (n : ℕ) : pow2 n = 2^n := by simp [pow2, shiftLeft_eq]

variable {bus : Bus}

lemma Bus.dvd (bus : Bus) {size : ℕ} (h : 2^size ≤ bus.bytesData) : 2^size ∣ bus.bytesData := by
  obtain ⟨k,-,hk⟩ := bus.pow
  rw [hk] at h ⊢
  exact Nat.pow_dvd_pow 2 ((Nat.pow_le_pow_iff_right (by decide)).mp h)

lemma Bus.pos (bus : Bus) : 0 < bus.bytesData := by
  obtain ⟨k,-,hk⟩ := bus.pow
  rw [hk]
  exact Nat.two_pow_pos k

/-- Inside a transfer that starts on a multiple of its size the lanes are
consecutive. -/
lemma lane_add {n W a j : ℕ} (hW : n ∣ W) (ha : n ∣ a) (hj : j < n) (h0 : 0 < W) :
    (a+j) % W = a % W+j := by
  obtain ⟨q,hq⟩ := (dvd_mod_iff hW).mpr ha
  obtain ⟨r,hr⟩ := hW
  have hlt : a % W < W := mod_lt _ h0
  have hqr : q < r := by
    rw [hq, hr] at hlt
    exact Nat.lt_of_mul_lt_mul_left hlt
  have hfit : a % W+j < W := by
    have hmul := mul_le_mul_left n (succ_le_of_lt hqr)
    rw [mul_succ, ← hq, ← hr] at hmul
    omega
  rw [add_mod, mod_eq_of_lt (by omega : j < W), mod_eq_of_lt hfit]

lemma lane_fits {n W a : ℕ} (hW : n ∣ W) (ha : n ∣ a) (hn : 0 < n) (h0 : 0 < W) : a % W+n ≤ W := by
  have h := lane_add hW ha (sub_lt hn one_pos) h0
  have hlt := mod_lt (a+(n-1)) h0
  omega

lemma numBytes_aligned {op : AXIOperation} {i n : ℕ} (hW : op.stepSize ∣ bus.bytesData)
    (ha : op.stepSize ∣ op.addr) (hs : 0 < op.stepSize) (hlen : op.len = op.stepSize*n)
    (hi : i < n) : numBytes bus op (i*op.stepSize) = op.stepSize := by
  have hfit := lane_fits hW (dvd_add ha (dvd_mul_left op.stepSize i)) hs bus.pos
  have hmul := mul_le_mul_left op.stepSize (succ_le_of_lt hi)
  rw [mul_succ, mul_comm op.stepSize i] at hmul
  unfold numBytes align
  omega

end SimBricks.AxiSubordinate
