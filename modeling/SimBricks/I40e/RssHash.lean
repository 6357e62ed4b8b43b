import Mathlib.Data.BitVec
import SimBricks.Library.Run

/-!
# The RSS hash of `rss.cc`

The windows of the key are expanded when the cache is dirty, each from the
one before by a shift. Key registers are in the byte order of the host.
-/

set_option autoImplicit false

namespace SimBricks.RssHash
open Library.Run BitVec List Nat

abbrev Key := ℕ → BitVec 32

variable (key : Key) (cache : ℕ → BitVec 32)

def keyByte (j : ℕ) : BitVec 8 := (key (j/4) >>> (8*(j%4))).setWidth 8

def nextBit (idx : ℕ) : BitVec 32 :=
  if ((keyByte key (idx/8)).setWidth 32 <<< (idx%8)) &&& 0x80#32 ≠ 0 then 1 else 0

def result : ℕ → BitVec 32
  | 0 => (keyByte key 0).setWidth 32 <<< 24 ||| (keyByte key 1).setWidth 32 <<< 16 |||
    (keyByte key 2).setWidth 32 <<< 8 ||| (keyByte key 3).setWidth 32
  | i+1 => result i <<< 1 ||| nextBit key (32+i)

def build (i : ℕ) : BitVec 32 := if i < 288 then result key i else cache i

def hashLoop {w : ℕ} : ℕ → ℕ → BitVec w → BitVec 32 → BitVec 32
  | 0, _, _, res => res
  | n+1, i, x, res => hashLoop n (i+1) (x <<< 1) (if x.msb then res ^^^ cache i else res)

def hashIpv4 (sip dip : BitVec 32) (sp dp : BitVec 16) : BitVec 32 :=
  hashLoop cache 16 80 dp (hashLoop cache 16 64 sp (hashLoop cache 32 32 dip
    (hashLoop cache 32 0 sip 0)))

structure Device where
  hkey : Key
  cache : ℕ → BitVec 32
  cacheDirty : Bool

def defaultKey (i : ℕ) : BitVec 32 :=
  [0xda565a6d#32,0xc20e5b25#32,0x3d256741#32,0xb08fa343#32,0xcb2bcad0#32,0xb4307bae#32,
    0xa32dcb77#32,0x0cf23080#32,0x3bb7426a#32,0xfa01acbe#32].getD i 0

def kHkey : ℕ := 0x244800

inductive Event where
  | write32 (addr : ℕ) (val : BitVec 32)
  | reset
  | hash (sip dip : BitVec 32) (sp dp : BitVec 16)

def clean (d : Device) : Device :=
  if d.cacheDirty then { d with cache := build d.hkey d.cache, cacheDirty := false } else d

def step (d : Device) : Event → Device
  | .write32 addr val =>
    if kHkey ≤ addr ∧ addr ≤ kHkey+12*128 then
      { d with hkey := Function.update d.hkey ((addr-kHkey)/128) val, cacheDirty := true }
    else d
  | .reset => { d with hkey := defaultKey, cacheDirty := true }
  | .hash .. => clean d

def emit (d : Device) : Event → List (Key × BitVec 96 × BitVec 32)
  | .hash sip dip sp dp => [(d.hkey,sip++dip++sp++dp,hashIpv4 (clean d).cache sip dip sp dp)]
  | _ => []

/-! ## The reference -/

def keyBit (j : ℕ) : Bool := (keyByte key (j/8)).getMsbD (j%8)

def window (i : ℕ) : BitVec 32 :=
  (ofBoolListBE (List.ofFn fun j : Fin 32 => keyBit key (i+j))).cast length_ofFn

def xors (v : ℕ → BitVec 32) (b : ℕ → Bool) (n : ℕ) (res : BitVec 32) : BitVec 32 :=
  (List.range n).foldl (fun h i => if b i then h ^^^ v i else h) res

def toeplitz (input : BitVec 96) : BitVec 32 := xors (window key) input.getMsbD 96 0

variable {key cache} {v : ℕ → BitVec 32} {b : ℕ → Bool} {n : ℕ} {d : Device}

lemma getMsbD_window {i j : ℕ} (hj : j < 32) : (window key i).getMsbD j = keyBit key (i+j) := by
  rw [window, getMsbD_cast, getMsbD_ofBoolListBE, List.getD_eq_getElem?_getD, List.getElem?_ofFn,
    dif_pos hj]
  rfl

lemma nextBit_eq (idx : ℕ) : nextBit key idx = if keyBit key idx then 1 else 0 := by
  have h : idx % 8 < 8 := mod_lt _ (by decide)
  unfold nextBit keyBit
  generalize keyByte key (idx/8) = k
  generalize idx % 8 = s at h
  have h80 : 0x80#32 = twoPow 32 7 := rfl
  have hbit : (k.setWidth 32 <<< s).getLsbD 7 = k.getMsbD s := by
    simp [getMsbD_eq_getLsbD, h]
    omega
  rw [h80, and_twoPow, hbit]
  cases k.getMsbD s <;> decide

lemma getMsbD_result {i j : ℕ} (hj : j < 32) : (result key i).getMsbD j = keyBit key (i+j) := by
  induction i generalizing j with
  | zero =>
    rw [result, keyBit, zero_add]
    interval_cases j <;> simp [getMsbD_eq_getLsbD]
  | succ i ih =>
    rw [result, nextBit_eq, getMsbD_or, getMsbD_shiftLeft]
    rcases lt_or_eq_of_le (le_of_lt_succ hj) with hj' | rfl
    · rw [ih (succ_lt_succ hj'), add_right_comm, add_assoc]
      cases keyBit key (32+i) <;> simp [hj'.ne]
    · rw [add_comm 32]
      cases keyBit key (i+32) <;> simp

lemma result_eq (i : ℕ) : result key i = window key i :=
  eq_of_getMsbD_eq fun _ hj => (getMsbD_result hj).trans (getMsbD_window hj).symm

lemma xors_succ (res : BitVec 32) :
    xors v b (n+1) res = xors (fun i => v (i+1)) (fun i => b (i+1)) n
    (if b 0 then res ^^^ v 0 else res) := by
  rw [xors, range_succ_eq_map, foldl_cons, foldl_map]
  rfl

lemma xors_append {m : ℕ} (x : BitVec n) (y : BitVec m) (res : BitVec 32) :
    xors v (x++y).getMsbD (n+m) res =
      xors (fun i => v (n+i)) y.getMsbD m (xors v x.getMsbD n res) := by
  rw [xors, range_add, foldl_append, foldl_map]
  refine congr_arg₂ (fun f r => (List.range m).foldl f r) ?_ (foldl_ext _ _ _ fun h i hi => ?_)
  · simp [getMsbD_append]
  · simp [getMsbD_append, not_le.mpr (mem_range.mp hi)]

lemma hashLoop_eq {w i : ℕ} (h : ∀ j < 288, cache j = v j) (hi : i+n ≤ 288) (x : BitVec w)
    (res : BitVec 32) :
    hashLoop cache n i x res = xors (fun j => v (i+j)) x.getMsbD n res := by
  induction n generalizing i x res with
  | zero => rfl
  | succ n ih =>
    rw [hashLoop, ih (by omega), xors_succ, msb_eq_getMsbD_zero, h i (by omega),
      show (x <<< 1).getMsbD = _ from funext fun _ => getMsbD_shiftLeft x 1]
    simp only [add_assoc, add_comm 1, add_zero]

lemma hashIpv4_eq (h : ∀ j < 288, cache j = window key j) (sip dip : BitVec 32)
    (sp dp : BitVec 16) :
    hashIpv4 cache sip dip sp dp = toeplitz key (sip++dip++sp++dp) := by
  rw [toeplitz, xors_append, xors_append, xors_append, hashIpv4]
  simp only [hashLoop_eq h, Nat.reduceLeDiff, zero_add]

/-! ## Runs -/

def Inv (d : Device) : Prop := d.cacheDirty = false → ∀ i < 288, d.cache i = window d.hkey i

lemma clean_cache (h : Inv d) {i : ℕ} (hi : i < 288) : (clean d).cache i = window d.hkey i := by
  unfold clean
  split_ifs with hd
  · exact (if_pos hi).trans (result_eq i)
  · exact h (Bool.eq_false_of_not_eq_true hd) i hi

lemma Inv.step (h : Inv d) (e : Event) : Inv (step d e) := by
  cases e with
  | write32 addr val =>
    rw [RssHash.step]
    split_ifs
    · exact nofun
    · exact h
  | reset => exact nofun
  | hash =>
    have hk : (clean d).hkey = d.hkey := by
      unfold clean
      split_ifs <;> rfl
    exact fun _ i hi => hk ▸ clean_cache h hi

/-- Every hash is the one under the key registers at the time of the call,
whatever the cache and the registers held before the first reset. -/
theorem hash_toeplitz (d : Device) (es : List Event) :
    ∀ x ∈ trace step emit (step d .reset) es, x.2.2 = toeplitz x.1 x.2.1 := by
  have hstep : ∀ d e out, (Inv d ∧ ∀ x ∈ out, x.2.2 = toeplitz x.1 x.2.1) →
      Inv (step d e) ∧ ∀ x ∈ out++emit d e, x.2.2 = toeplitz x.1 x.2.1 := by
    rintro d e out ⟨h,hout⟩
    refine ⟨h.step e,fun x hx => (mem_append.mp hx).elim (hout x) fun hx => ?_⟩
    cases e with
    | hash sip dip sp dp =>
      rw [mem_singleton.mp hx]
      exact hashIpv4_eq (fun _ => clean_cache h) ..
    | _ => cases hx
  exact (trace_invariant hstep (step d .reset) [] es ⟨nofun,nofun⟩).2

theorem hash_toeplitz_rewritten : ∃ x ∈ trace step emit (step ⟨0,0,false⟩ .reset)
    [.hash 1 2 3 4,.write32 kHkey 5,.hash 1 2 3 4], x.1 0 = 5 ∧ x.2.2 = toeplitz x.1 x.2.1 :=
  have hm := .tail _ (.head _)
  ⟨_,hm,rfl,hash_toeplitz _ _ _ hm⟩

end SimBricks.RssHash
