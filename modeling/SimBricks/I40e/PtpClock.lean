import Mathlib.Data.BitVec
import Mathlib.Data.UInt
import SimBricks.Library.Run

/-!
# The PTP clock of `i40e_ptp.cc`

`ptpmgr` brings its clock up to date only when it is accessed. The reference
is the same device stepped cycle by cycle, which is what the comment in
`update_clock` promises. The times of the calls are those of `TimePs`.
-/

set_option autoImplicit false

namespace SimBricks.PtpClock
open Library.Run Nat UInt64

def psPerCycle : UInt64 := 1600

structure Ptpmgr where
  lastUpdated : UInt64 := 0
  lastVal : BitVec 128 := 0
  offset : UInt64 := 0
  incVal : UInt64 := 0
  adjNeg : Bool := false
  adjVal : UInt32 := 0
  deriving DecidableEq

inductive Call where
  | phcRead
  | phcWrite (val : UInt64)
  | adjGet
  | adjSet (val : UInt32)
  | incSet (inc : UInt64)

def wide (x : UInt64) : BitVec 128 := x.toBitVec.setWidth 128

namespace Ptpmgr
variable (p : Ptpmgr)

def passed (now : UInt64) : UInt64 := now/psPerCycle-p.lastUpdated

def adjust (adj : UInt64) : BitVec 128 :=
  if p.adjNeg then p.lastVal-wide adj <<< 32 else p.lastVal+wide adj <<< 32

def updateClock (now : UInt64) : Ptpmgr :=
  let passed := p.passed now
  let p := { p with
    lastVal := p.lastVal+wide p.incVal*wide passed, lastUpdated := now/psPerCycle }
  if p.adjVal ≠ 0 then
    if p.adjVal.toUInt64 ≤ passed then
      { p with lastVal := p.adjust passed, adjVal := p.adjVal-passed.toUInt32 }
    else { p with lastVal := p.adjust p.adjVal.toUInt64, adjVal := 0 }
  else p

def cycle : Ptpmgr :=
  let p := { p with lastVal := p.lastVal+wide p.incVal, lastUpdated := p.lastUpdated+1 }
  if p.adjVal ≠ 0 then { p with lastVal := p.adjust 1, adjVal := p.adjVal-1 } else p

def cycles (now : UInt64) : Ptpmgr := cycle^[(p.passed now).toNat] p

def time : UInt64 := ⟨(p.lastVal >>> 32).setWidth 64⟩+p.offset

def call : Call → Ptpmgr × List UInt64
  | .phcRead => (p,[p.time])
  | .phcWrite val => ({ p with offset := p.offset+(val-p.time) },[])
  | .adjGet => (p,[((p.adjVal &&& 0x7fffffff) ||| if p.adjNeg then 0x80000000 else 0).toUInt64])
  | .adjSet val => ({ p with adjVal := val &&& 0x7fffffff, adjNeg := val &&& 0x80000000 ≠ 0 },[])
  | .incSet inc => ({ p with incVal := inc },[])

end Ptpmgr

section
variable (update : Ptpmgr → UInt64 → Ptpmgr)

def step (p : Ptpmgr) (c : UInt64 × Call) : Ptpmgr := ((update p c.1).call c.2).1

def results : Ptpmgr → List (UInt64 × Call) → List UInt64
  | _, [] => []
  | p, c::cs => ((update p c.1).call c.2).2++results (step update p c) cs

end

/-- No adjustment is running, or it ends with this access. -/
def Settled (p : Ptpmgr) (c : UInt64 × Call) : Prop :=
  p.adjVal = 0 ∨ p.adjVal.toUInt64 = p.passed c.1
  deriving Decidable

open Ptpmgr

variable {p : Ptpmgr} {now : UInt64}

def Ptpmgr.unit (p : Ptpmgr) : BitVec 128 := if p.adjNeg then -2^32 else 2^32

lemma adjust_eq (adj : UInt64) : p.adjust adj = p.lastVal+wide adj*p.unit := by
  have hshift : wide adj <<< 32 = wide adj*2^32 := BitVec.shiftLeft_eq_mul_twoPow _ _
  unfold adjust unit
  rw [hshift]
  split <;> ring

lemma ofNat_pred {a n : ℕ} (h : n < a) : UInt32.ofNat (a-n)-1 = UInt32.ofNat (a-(n+1)) := by
  rw [(by omega : a-n = a-(n+1)+1), UInt32.ofNat_add]
  exact UInt32.add_sub_cancel ..

lemma iterate_cycle (p : Ptpmgr) (n : ℕ) : cycle^[n] p = { p with
    lastUpdated := p.lastUpdated+.ofNat n
    lastVal := p.lastVal+n*wide p.incVal+(min p.adjVal.toNat n : ℕ)*p.unit
    adjVal := .ofNat (p.adjVal.toNat-n) } := by
  induction n with
  | zero => simp
  | succ n ih =>
    have hlt := p.adjVal.toNat_lt
    have hnext : p.lastUpdated+.ofNat n+1 = p.lastUpdated+.ofNat (n+1) := by
      rw [ofNat_add, add_assoc]
      rfl
    rw [Function.iterate_succ_apply', ih, cycle]
    simp only [adjust_eq, hnext]
    rcases lt_or_ge n p.adjVal.toNat with hn | hn
    · have hne : UInt32.ofNat (p.adjVal.toNat-n) ≠ 0 := by
        intro h0
        have := congrArg UInt32.toNat h0
        simp at this
        omega
      have hone : wide 1 = 1 := by decide
      rw [if_pos hne, ofNat_pred hn, hone, min_eq_right hn.le, min_eq_right hn, cast_succ]
      congr 1
      unfold unit
      ring
    · have h0 : UInt32.ofNat (p.adjVal.toNat-n) = 0 := by rw [Nat.sub_eq_zero_of_le hn]; rfl
      rw [if_neg (not_not.mpr h0), h0, min_eq_left hn, min_eq_left (by omega),
        Nat.sub_eq_zero_of_le (by omega : p.adjVal.toNat ≤ n+1), Nat.cast_succ]
      congr 1
      ring

lemma natCast_toNat (x : UInt64) : (x.toNat : BitVec 128) = wide x := by
  apply BitVec.eq_of_toNat_eq
  simp [wide]

/-- The closed form of the code is right if the adjustment ends now. -/
lemma updateClock_eq (h : p.adjVal = 0 ∨ p.adjVal.toUInt64 = p.passed now) :
    p.updateClock now = p.cycles now := by
  have hnow : p.lastUpdated+.ofNat (p.passed now).toNat = now/psPerCycle := by
    rw [UInt64.ofNat_toNat, passed, UInt64.add_comm, UInt64.sub_add_cancel]
  rw [cycles, iterate_cycle, hnow, natCast_toNat, updateClock, mul_comm (wide _)]
  rcases eq_or_ne p.adjVal 0 with h0 | h0
  · simp [h0]
  · have heq := h.resolve_left h0
    have hnat : p.adjVal.toNat = (p.passed now).toNat := by
      rw [← heq, UInt32.toNat_toUInt64]
    have hsub : p.adjVal-(p.passed now).toUInt32 = 0 := by
      rw [← heq]
      simp
    simp only [adjust_eq, if_pos h0, heq, hsub, hnat, if_pos, UInt64.le_refl, min_self,
      Nat.sub_self,
      natCast_toNat]
    rfl

variable {cs : List (UInt64 × Call)} {t : UInt64}

lemma lazy_eq (h : Along (step updateClock) Settled p cs) :
    run (step updateClock) p cs = run (step cycles) p cs ∧
    results updateClock p cs = results cycles p cs := by
  induction cs generalizing p with
  | nil => exact ⟨rfl,rfl⟩
  | cons c cs ih =>
    have hc := updateClock_eq h.1
    have hstep : step updateClock p c = step cycles p c := by rw [step, step, hc]
    obtain ⟨hrun,hres⟩ := ih h.2
    rw [run_cons, run_cons, results, results, hres, hrun, hstep, hc]
    exact ⟨rfl,rfl⟩

lemma lastUpdated_step (c : UInt64 × Call) : (step cycles p c).lastUpdated = c.1/psPerCycle := by
  have hcycles : (p.cycles c.1).lastUpdated = c.1/psPerCycle := by
    rw [cycles, iterate_cycle, UInt64.ofNat_toNat, passed, UInt64.add_comm, UInt64.sub_add_cancel]
  rw [← hcycles, step]
  cases c.2 <;> rfl

lemma toNat_passed (h : p.lastUpdated ≤ now/psPerCycle) :
    (p.passed now).toNat = (now/psPerCycle).toNat-p.lastUpdated.toNat :=
  UInt64.toNat_sub_of_le _ _ h

/-- A clock that is stepped twice has made the cycles of both times. -/
lemma cycles_cycles (ht : p.lastUpdated ≤ t/psPerCycle) (hnow : t ≤ now) :
    (p.cycles t).cycles now = p.cycles now := by
  have hdiv : t/psPerCycle ≤ now/psPerCycle := by
    rw [UInt64.le_iff_toNat_le, UInt64.toNat_div, UInt64.toNat_div]
    exact Nat.div_le_div_right (le_iff_toNat_le.mp hnow)
  have hlast : (p.cycles t).lastUpdated = t/psPerCycle := lastUpdated_step (t,.phcRead)
  have h1 := le_iff_toNat_le.mp ht
  have h2 := le_iff_toNat_le.mp hdiv
  rw [cycles, toNat_passed (hlast ▸ hdiv), hlast, cycles, cycles,
    ← Function.iterate_add_apply, toNat_passed ht, toNat_passed (UInt64.le_trans ht hdiv)]
  congr 2
  omega

/-- No value depends on reads if adjustments end where the clock is accessed. -/
theorem refines_cycles (cs : List (UInt64 × Call)) (h : Along (step updateClock) Settled {} cs) :
    results updateClock {} cs = results cycles {} cs ∧
    ∀ earlier t later, cs = earlier++(t,.phcRead)::later → cs.Pairwise (·.1 ≤ ·.1) →
      Along (step updateClock) Settled {} (earlier++later) →
      results updateClock (run (step updateClock) {} (earlier++[(t,.phcRead)])) later =
        results updateClock (run (step updateClock) {} earlier) later := by
  refine ⟨(lazy_eq h).2,?_⟩
  rintro earlier t later rfl htimes hdirect
  rw [List.append_cons, along_append] at h
  rw [along_append] at hdirect
  obtain ⟨-,hlate,hbefore⟩ := List.pairwise_append.mp htimes
  have hlast : (run (step cycles) {} earlier).lastUpdated ≤ t/psPerCycle := by
    refine run_invariant (I := fun p : Ptpmgr => p.lastUpdated ≤ t/psPerCycle)
      (C := fun _ (c : UInt64 × Call) => c.1 ≤ t) (fun p c _ hc => ?_) UInt64.zero_le ?_
    · rw [lastUpdated_step, UInt64.le_iff_toNat_le, UInt64.toNat_div, UInt64.toNat_div]
      exact Nat.div_le_div_right (le_iff_toNat_le.mp hc)
    · exact along_of_forall _ (fun c hc => hbefore c hc _ List.mem_cons_self) _
  rw [(lazy_eq h.2).2, (lazy_eq hdirect.2).2, (lazy_eq h.1).1, (lazy_eq hdirect.1).1, run_append]
  cases later with
  | nil => rfl
  | cons c later =>
    have hc := (List.pairwise_cons.mp hlate).1 c List.mem_cons_self
    exact congrArg (fun p => (p.call c.2).2++results cycles (p.call c.2).1 later)
      (cycles_cycles hlast hc)

/-- A rate, then an adjustment of two cycles that is over at the next access. -/
theorem refines_cycles_two :
    results updateClock {} [(0,.incSet (2^32)),(1600,.adjSet 2),(4800,.phcRead)] = [5] := by
  rw [(refines_cycles _ (by decide)).1]
  decide

/-- An adjustment of ten cycles moves the clock by twenty in twenty cycles, and
by ten at once if the clock is read right away. -/
theorem adjustment_lost : results updateClock {} [(0,.adjSet 10),(32000,.phcRead)] = [20] ∧
    results cycles {} [(0,.adjSet 10),(32000,.phcRead)] = [10] ∧
    results updateClock {} [(0,.adjSet 10),(0,.phcRead),(1600,.phcRead)] = [10,10] ∧
    results cycles {} [(0,.adjSet 10),(0,.phcRead),(1600,.phcRead)] = [0,1] := by
  decide

end SimBricks.PtpClock
