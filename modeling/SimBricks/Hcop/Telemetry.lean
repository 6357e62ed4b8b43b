import SimBricks.Hcop.HcopProto
import SimBricks.Library.Text

/-!
# The tier path of a packet, `hcop_telemetry.h`

Every node a packet passes pushes its tier into a register of eight nibbles
and counts in eight bits. The decoder prints as many nibbles as were counted.
-/

set_option autoImplicit false

namespace SimBricks.Telemetry
open Library.Text HcopProto List Nat

inductive SourceTier where
  | switch | dpu | host
  deriving DecidableEq, Repr

def SourceTier.code : SourceTier → UInt8
  | .switch => kTierSwitch
  | .dpu => kTierDpu
  | .host => kTierHost

def hopText (nibble : UInt8) : Bytes :=
  if nibble = 0 then ascii "S"
  else if nibble = 1 then ascii "D"
  else if nibble = 2 then ascii "H"
  else ascii "?"

/-- `(path >> (i * 4)) & 0x0F`; a shift by the width or more has no result. -/
def nibbleAt (path : UInt32) (i : ℕ) : Option UInt8 :=
  if i*4 < 32 then some ((path >>> UInt32.ofNat (i*4)) &&& 0x0F).toUInt8 else none

def decodeFrom (path : UInt32) : ℕ → Bytes → Option Bytes
  | 0, res => some res
  | i+1, res => do
    let nibble ← nibbleAt path i
    let res := res++hopText nibble
    decodeFrom path i (if 0 < i then res++ascii "->" else res)

def decodeTierPath (path : UInt32) (crossings : UInt8) : Option Bytes :=
  if crossings = 0 then some (ascii "Unknown") else decodeFrom path crossings.toNat []

def routed (tiers : List SourceTier) : HcopHeader :=
  tiers.foldl (fun h t => h.appendPath t.code) ⟨0,0,0,0,0,0,0⟩

def pathText (tiers : List SourceTier) : Bytes :=
  if tiers = [] then ascii "Unknown"
  else intercalate (ascii "->") (tiers.map fun t => hopText t.code)

def lastEight (tiers : List SourceTier) : List SourceTier := tiers.drop (tiers.length-8)

/-! ## The register -/

def wound (codes : List ℕ) : ℕ := codes.foldl (fun a c => 16*a+c) 0

lemma wound_concat (codes : List ℕ) (c : ℕ) : wound (codes++[c]) = 16*wound codes+c := by
  rw [wound, foldl_append]
  rfl

lemma wound_digit (codes : List ℕ) (h : ∀ c ∈ codes, c < 16) (i : ℕ) :
    wound codes / 16^i % 16 = codes.reverse.getD i 0 := by
  induction codes using List.reverseRecOn generalizing i with
  | nil => simp [wound]
  | append_singleton codes c ih =>
    have hc : c < 16 := h c (by simp)
    have hrest : ∀ c ∈ codes, c < 16 := fun x hx => h x (by simp [hx])
    rw [wound_concat, reverse_concat]
    cases i with
    | zero =>
      rw [pow_zero, Nat.div_one, List.getD_cons_zero]
      omega
    | succ i =>
      rw [pow_succ', ← Nat.div_div_eq_div_mul, List.getD_cons_succ, ← ih hrest i]
      congr 2
      omega

lemma code_lt (t : SourceTier) : t.code.toNat < 16 := by
  cases t <;> decide

lemma appendPath_tierPath (h : HcopHeader) (t : SourceTier) :
    (h.appendPath t.code).tierPath.toNat = (16*h.tierPath.toNat+t.code.toNat) % 2^32 := by
  have hlow : ((t.code &&& 0x0F).toUInt32).toNat = t.code.toNat := by cases t <;> rfl
  have hhigh : (h.tierPath <<< (4 : UInt32)).toNat = (h.tierPath.toNat % 2^28) <<< 4 := by
    rw [UInt32.toNat_shiftLeft, shiftLeft_eq, shiftLeft_eq]
    show h.tierPath.toNat*2^4 % 2^32 = _
    omega
  have hc := code_lt t
  calc (h.appendPath t.code).tierPath.toNat
      = (h.tierPath.toNat % 2^28) <<< 4 ||| t.code.toNat := by
        rw [HcopHeader.appendPath, UInt32.toNat_or, hhigh, hlow]
    _ = (h.tierPath.toNat % 2^28) <<< 4+t.code.toNat :=
        (shiftLeft_add_eq_or_of_lt (i := 4) hc _).symm
    _ = (16*h.tierPath.toNat+t.code.toNat) % 2^32 := by
        rw [shiftLeft_eq]
        omega

lemma routed_concat (tiers : List SourceTier) (t : SourceTier) :
    routed (tiers++[t]) = (routed tiers).appendPath t.code := by
  rw [routed, foldl_append]
  rfl

lemma routed_tierPath (tiers : List SourceTier) :
    (routed tiers).tierPath.toNat = wound (tiers.map fun t => t.code.toNat) % 2^32 := by
  induction tiers using reverseRecOn with
  | nil => rfl
  | append_singleton tiers t ih =>
    rw [routed_concat, appendPath_tierPath, ih, map_append, map_singleton, wound_concat]
    omega

lemma routed_crossings (tiers : List SourceTier) :
    (routed tiers).numTierCrossings.toNat = tiers.length % 256 := by
  induction tiers using reverseRecOn with
  | nil => rfl
  | append_singleton tiers t ih =>
    rw [routed_concat, length_append, length_singleton]
    show ((routed tiers).numTierCrossings+1).toNat = _
    rw [UInt8.toNat_add, ih]
    show (tiers.length % 256+1) % 256 = _
    omega

lemma nibbleAt_toNat (path : UInt32) {i : ℕ} (h : i < 8) :
    ∃ nibble, nibbleAt path i = some nibble ∧ nibble.toNat = path.toNat / 16^i % 16 := by
  refine ⟨_,if_pos (by omega),?_⟩
  have hshift : (UInt32.ofNat (i*4)).toNat % 32 = i*4 := by
    show i*4 % 2^32 % 32 = i*4
    omega
  rw [UInt32.toNat_toUInt8, UInt32.toNat_and, UInt32.toNat_shiftRight, hshift,
    shiftRight_eq_div_pow, mul_comm, pow_mul]
  show (path.toNat / 16^i &&& 2^4-1) % 2^8 = _
  rw [and_two_pow_sub_one_eq_mod]
  omega

variable {tiers : List SourceTier}

lemma routed_nibble {i : ℕ} (h8 : i < 8) {t : SourceTier} (ht : tiers.reverse[i]? = some t) :
    nibbleAt (routed tiers).tierPath i = some t.code := by
  obtain ⟨nibble,hn,hval⟩ := nibbleAt_toNat (routed tiers).tierPath h8
  have hcodes : ∀ c ∈ tiers.map fun t => t.code.toNat, c < 16 := by
    intro c hc
    obtain ⟨t,-,rfl⟩ := mem_map.mp hc
    exact code_lt t
  have hdigit : nibble.toNat = t.code.toNat := by
    calc nibble.toNat
        = wound (tiers.map fun t => t.code.toNat) % 2^32 / 16^i % 16 := by
          rw [hval, routed_tierPath]
      _ = wound (tiers.map fun t => t.code.toNat) / 16^i % 16 := by
          interval_cases i <;> omega
      _ = (tiers.map fun t => t.code.toNat).reverse.getD i 0 := wound_digit _ hcodes i
      _ = t.code.toNat := by simp [← map_reverse, ht]
  rw [hn, UInt8.toNat_inj.mp hdigit]

/-! ## The decoder -/

lemma decodeFrom_overshift {path : UInt32} {n : ℕ} (h : 8 < n) (res : Bytes) :
    decodeFrom path n res = none := by
  cases n with
  | zero => omega
  | succ i =>
    have hn : nibbleAt path i = none := if_neg (by omega)
    rw [decodeFrom, hn]
    rfl

lemma intercalate_cons {sep a : Bytes} {l : List Bytes} (h : l ≠ []) :
    intercalate sep (a :: l) = a++sep++intercalate sep l := by
  cases l with
  | nil => exact absurd rfl h
  | cons => simp [intercalate]

lemma decodeFrom_routed {n : ℕ} (h8 : n ≤ 8) (hn : n ≤ tiers.length) (res : Bytes) :
    decodeFrom (routed tiers).tierPath n res = some (res++intercalate (ascii "->")
        ((tiers.drop (tiers.length-n)).map fun t => hopText t.code)) := by
  induction n generalizing res with
  | zero => simp [decodeFrom]
  | succ i ih =>
    have hlt : tiers.length-(i+1) < tiers.length := by omega
    have hdrop : tiers.drop (tiers.length-(i+1)) =
        tiers[tiers.length-(i+1)] :: tiers.drop (tiers.length-i) := by
      rw [drop_eq_getElem_cons hlt, show tiers.length-(i+1)+1 = tiers.length-i by omega]
    have hrev : tiers.reverse[i]? = some tiers[tiers.length-(i+1)] := by
      rw [getElem?_reverse (by omega), show tiers.length-1-i = tiers.length-(i+1) by omega,
        getElem?_eq_getElem hlt]
    rw [decodeFrom, routed_nibble (by omega) hrev, hdrop]
    simp only [Option.bind_eq_bind, Option.bind_some, map_cons]
    rw [ih (by omega) (by omega)]
    by_cases hi : 0 < i
    · have hne : (tiers.drop (tiers.length-i)).map (fun t => hopText t.code) ≠ [] := by
        rw [ne_eq, map_eq_nil_iff, drop_eq_nil_iff]
        omega
      rw [if_pos hi, intercalate_cons hne]
      simp only [append_assoc]
    · obtain rfl : i = 0 := by omega
      simp

lemma decodeTierPath_routed (tiers : List SourceTier) : decodeTierPath (routed tiers).tierPath
    (routed tiers).numTierCrossings = if 8 < tiers.length % 256 then none else some
    (pathText (tiers.drop (tiers.length-tiers.length % 256))) := by
  have hc := routed_crossings tiers
  have hle := mod_le tiers.length 256
  rw [decodeTierPath, hc]
  by_cases h0 : tiers.length % 256 = 0
  · have hzero : (routed tiers).numTierCrossings = 0 := UInt8.toNat_inj.mp (hc.trans h0)
    rw [if_pos hzero, if_neg (by omega), h0, Nat.sub_zero, List.drop_length]
    rfl
  · have hpos : (routed tiers).numTierCrossings ≠ 0 := by
      intro h
      rw [h] at hc
      exact h0 hc.symm
    rw [if_neg hpos]
    by_cases h8 : 8 < tiers.length % 256
    · rw [if_pos h8, decodeFrom_overshift h8]
    · have hne : tiers.drop (tiers.length-tiers.length % 256) ≠ [] := by
        rw [ne_eq, drop_eq_nil_iff]
        omega
      rw [if_neg h8, decodeFrom_routed (by omega) hle, pathText, if_neg hne, nil_append]

lemma length_pathText (h : tiers ≠ []) : (pathText tiers).length+2 = 3*tiers.length := by
  rw [pathText, if_neg h]
  have hhop : ∀ t : SourceTier, (hopText t.code).length = 1 := by
    intro t
    cases t <;> rfl
  induction tiers with
  | nil => exact absurd rfl h
  | cons t rest ih =>
    by_cases hr : rest = []
    · subst hr
      simp [hhop]
    · have := ih hr
      have hsep : (ascii "->").length = 2 := rfl
      rw [map_cons, intercalate_cons (by simpa using hr)]
      simp only [length_append, hhop, hsep, length_cons]
      omega

/-- The route is printed, its last eight hops if it is longer, exactly when it
has at most eight hops or the counter stands at eight. -/
lemma decodes_iff (tiers : List SourceTier) :
    decodeTierPath (routed tiers).tierPath (routed tiers).numTierCrossings = some
    (pathText (lastEight tiers)) ↔ tiers.length ≤ 8 ∨ tiers.length % 256 = 8 := by
  rw [decodeTierPath_routed]
  constructor
  · intro h
    by_contra hcon
    rw [not_or] at hcon
    split_ifs at h with h8
    have htext := congrArg List.length (Option.some.inj h)
    have hlast : lastEight tiers ≠ [] := by
      rw [lastEight, ne_eq, drop_eq_nil_iff]
      omega
    have height := length_pathText hlast
    rw [lastEight, length_drop] at height
    rw [lastEight] at htext
    by_cases h0 : tiers.length % 256 = 0
    · have hunknown : (pathText (tiers.drop (tiers.length-tiers.length % 256))).length = 7 := by
        rw [h0, Nat.sub_zero, List.drop_length]
        rfl
      omega
    · have hshort : tiers.drop (tiers.length-tiers.length % 256) ≠ [] := by
        rw [ne_eq, drop_eq_nil_iff]
        omega
      have hlen := length_pathText hshort
      rw [length_drop] at hlen
      omega
  · intro h
    rw [if_neg (by omega), lastEight]
    rcases h with h | h
    · rw [Nat.mod_eq_of_lt (by omega), Nat.sub_self, Nat.sub_eq_zero_of_le h]
    · rw [h]

end SimBricks.Telemetry
