import Mathlib.Data.List.TakeWhile
import Mathlib.Data.Nat.Digits.Lemmas
import Mathlib.Tactic

/-!
# Text as bytes

Decimal numbers and the C string functions that read them. A string is the
list of its bytes without the terminating zero, a pointer into it a position.
-/

set_option autoImplicit false

namespace Library.Text
open List Nat

abbrev Bytes := List UInt8

def ascii (s : String) : Bytes := s.toList.map fun c => UInt8.ofNat c.toNat

/-! ## Decimal numbers -/

def isDigit (c : UInt8) : Bool := 48 ≤ c && c ≤ 57

def digit (d : ℕ) : UInt8 := UInt8.ofNat (48+d)

def decimal (n : ℕ) : Bytes := if n = 0 then [48] else (digits 10 n).reverse.map digit

def signed (i : ℤ) : Bytes := if i < 0 then 45::decimal i.natAbs else decimal i.natAbs

def valueOf (ds : Bytes) : ℕ := ds.foldl (fun a c => c.toNat-48+10*a) 0

lemma toNat_digit {d : ℕ} (h : d < 10) : (digit d).toNat = 48+d := by
  show (48+d) % 256 = 48+d
  exact mod_eq_of_lt (by omega)

lemma isDigit_iff (c : UInt8) : isDigit c ↔ 48 ≤ c.toNat ∧ c.toNat ≤ 57 := by
  simp [isDigit, UInt8.le_iff_toNat_le]

variable {c : UInt8} {s field rest : Bytes} {start : ℕ}

lemma decimal_isDigit {n : ℕ} (h : c ∈ decimal n) : isDigit c := by
  unfold decimal at h
  split_ifs at h with h0
  · rw [mem_singleton.mp h]
    rfl
  · obtain ⟨d,hd,rfl⟩ := mem_map.mp h
    have hlt : d < 10 := digits_lt_base (by decide) (mem_reverse.mp hd)
    rw [isDigit_iff, toNat_digit hlt]
    omega

lemma decimal_ne_nil (n : ℕ) : decimal n ≠ [] := by
  unfold decimal
  split_ifs with h0
  · simp
  · simp [digits_ne_nil_iff_ne_zero, h0]

lemma valueOf_digits (ds : List ℕ) (h : ∀ d ∈ ds, d < 10) :
    valueOf (ds.reverse.map digit) = ofDigits 10 ds := by
  rw [valueOf, foldl_map, foldl_reverse]
  induction ds with
  | nil => rfl
  | cons d ds ih =>
    rw [foldr_cons, ih fun x hx => h x (mem_cons_of_mem d hx),
      toNat_digit (h d mem_cons_self), ofDigits_cons]
    simp

lemma valueOf_decimal (n : ℕ) : valueOf (decimal n) = n := by
  unfold decimal
  split_ifs with h0
  · rw [h0]
    rfl
  · rw [valueOf_digits _ fun d hd => digits_lt_base (by decide) hd, ofDigits_digits]

lemma decimal_injective : Function.Injective decimal := by
  intro m n h
  rw [← valueOf_decimal m, h, valueOf_decimal]

lemma signed_injective : Function.Injective signed := by
  have hminus : ∀ n, 45 ∉ decimal n := by
    intro n hm
    have hd := decimal_isDigit hm
    cases hd
  intro i j h
  unfold signed at h
  split_ifs at h with hi hj hj
  · have := decimal_injective (cons.inj h).2
    omega
  · exact absurd (h ▸ mem_cons_self) (hminus _)
  · exact absurd (h ▸ mem_cons_self) (hminus _)
  · have := decimal_injective h
    omega

lemma signed_bytes {i : ℤ} (h : c ∈ signed i) : c = 45 ∨ isDigit c := by
  unfold signed at h
  split_ifs at h
  · rcases mem_cons.mp h with rfl | h
    · exact .inl rfl
    · exact .inr (decimal_isDigit h)
  · exact .inr (decimal_isDigit h)

lemma signed_ne_nil (i : ℤ) : signed i ≠ [] := by
  unfold signed
  split_ifs
  · simp
  · exact decimal_ne_nil _

lemma signed_natCast (n : ℕ) : signed n = decimal n := by
  simp [signed]

def cString (s : Bytes) : Bytes := s.takeWhile (· ≠ 0)

lemma cString_eq_self (h : 0 ∉ s) : cString s = s := by
  apply takeWhile_eq_self_iff.mpr
  intro c hc
  exact decide_eq_true fun h0 => h (h0 ▸ hc)

/-! ## Reading numbers -/

def isSpace (c : UInt8) : Bool := c = 32 || (9 ≤ c && c ≤ 13)

/-- What `strtoul` reports of a number it has found: the value, whether it is
out of range, and what follows it. -/
structure Scanned where
  value : UInt64
  range : Bool
  rest : Bytes
  deriving DecidableEq, Repr

/-- `strtoul` with base 10; without digits it converts nothing. -/
def strtoul (s : Bytes) : Option Scanned :=
  let t := s.dropWhile isSpace
  let negative := t.head? = some 45
  let t := if t.head? = some 45 ∨ t.head? = some 43 then t.tail else t
  let ds := t.takeWhile isDigit
  if ds = [] then none
  else
    let n := valueOf ds
    if 2^64 ≤ n then some ⟨0xFFFFFFFFFFFFFFFF,true,t.drop ds.length⟩
    else some ⟨if negative then 0-UInt64.ofNat n else UInt64.ofNat n,false,t.drop ds.length⟩

lemma strtoul_digit {cs : Bytes} (h : isDigit c) :
    strtoul (c::cs) =
      if 2^64 ≤ valueOf ((c::cs).takeWhile isDigit) then
        some ⟨0xFFFFFFFFFFFFFFFF,true,(c::cs).drop ((c::cs).takeWhile isDigit).length⟩
      else some ⟨UInt64.ofNat (valueOf ((c::cs).takeWhile isDigit)),false,
        (c::cs).drop ((c::cs).takeWhile isDigit).length⟩ := by
  obtain ⟨h48,-⟩ := (isDigit_iff c).mp h
  have hspace : isSpace c = false := by
    rw [Bool.eq_false_iff]
    intro hs
    simp only [isSpace, Bool.or_eq_true, Bool.and_eq_true, decide_eq_true_eq,
      UInt8.le_iff_toNat_le] at hs
    rcases hs with rfl | ⟨-,_⟩
    · exact absurd h48 (by decide)
    · have : (13 : UInt8).toNat = 13 := rfl
      omega
  have hsign : c ≠ 45 ∧ c ≠ 43 := by
    constructor
    · rintro rfl
      exact absurd h48 (by decide)
    · rintro rfl
      exact absurd h48 (by decide)
  have hdrop : (c::cs).dropWhile isSpace = c::cs := dropWhile_cons_of_neg (by simp [hspace])
  have hne : (c::cs).takeWhile isDigit ≠ [] := by simp [h]
  simp only [strtoul, hdrop, head?_cons, Option.some.injEq, hsign.1, hsign.2, or_self,
    if_false, hne]

lemma strtoul_decimal {n : ℕ} (h : n < 2^64) :
    strtoul (decimal n) = some ⟨UInt64.ofNat n,false,[]⟩ := by
  have hall : ∀ c ∈ decimal n, isDigit c := fun c hc => decimal_isDigit hc
  have hv := valueOf_decimal n
  cases hd : decimal n with
  | nil => exact absurd hd (decimal_ne_nil n)
  | cons c =>
    rw [hd] at hall hv
    rw [strtoul_digit (hall c mem_cons_self), takeWhile_eq_self_iff.mpr hall, hv,
      if_neg (not_le.mpr h), drop_length]

/-! ## Searching -/

def strchr (s : Bytes) (start : ℕ) (c : UInt8) : Option ℕ :=
  ((s.drop start).findIdx? fun x => x = c).map (start+·)

lemma strchr_found (h : s.drop start = field++c::rest) (hc : c ∉ field) :
    strchr s start c = some (start+field.length) := by
  have hidx : (field++c::rest).findIdx? (fun x => x = c) = some field.length := by
    rw [findIdx?_append, findIdx?_eq_none_iff.mpr]
    · simp [findIdx?_cons]
    · intro x hx
      have hne : x ≠ c := fun he => hc (he ▸ hx)
      simpa using hne
  rw [strchr, h, hidx]
  rfl

lemma strchr_missing (h : c ∉ s.drop start) : strchr s start c = none := by
  rw [strchr, findIdx?_eq_none_iff.mpr]
  · rfl
  · intro x hx
    have hne : x ≠ c := fun he => h (he ▸ hx)
    simpa using hne

lemma strchr_ge {p : ℕ} (h : strchr s start c = some p) : start ≤ p := by
  obtain ⟨i,-,rfl⟩ := Option.map_eq_some_iff.mp h
  exact le_add_right _ _

def slice (s : Bytes) (start stop : ℕ) : Bytes := (s.drop start).take (stop-start)

lemma slice_field (h : s.drop start = field++rest) :
    slice s start (start+field.length) = field := by
  rw [slice, h, Nat.add_sub_cancel_left, List.take_left']
  rfl

lemma drop_field (h : s.drop start = field++rest) : s.drop (start+field.length) = rest := by
  rw [← drop_drop, h, drop_left]

lemma last_field {a b x y : Bytes} (hx : c ∉ x) (hy : c ∉ y) (h : a++c::x = b++c::y) :
    a = b ∧ x = y := by
  rcases append_eq_append_iff.mp h with ⟨t,rfl,ht⟩ | ⟨t,rfl,ht⟩
  · cases t with
    | nil => simpa using ht
    | cons =>
      rw [cons_append] at ht
      exact absurd ((cons.inj ht).2 ▸ by simp) hx
  · cases t with
    | nil => simpa using ht.symm
    | cons =>
      rw [cons_append] at ht
      exact absurd ((cons.inj ht).2 ▸ by simp) hy

def hasAt (s : Bytes) (start : ℕ) (literal : Bytes) : Bool :=
  (s.drop start).take literal.length = literal

lemma hasAt_field {literal : Bytes} (h : s.drop start = literal++rest) :
    hasAt s start literal := by
  rw [hasAt, h, take_left']
  · simp
  · rfl

/-- A text written field by field, each with a delimiter before it, splits into
its fields. -/
lemma splitOnP_delimited {p : UInt8 → Bool} (hp : p c) {first : Bytes}
    {fields : List Bytes} (h : ∀ s ∈ first::fields, ∀ x ∈ s, p x = false) :
    (first++fields.flatMap (c::·)).splitOnP p = first::fields := by
  induction fields generalizing first with
  | nil =>
    rw [flatMap_nil, append_nil]
    exact splitOnP_eq_singleton (h first mem_cons_self)
  | cons field fields ih =>
    rw [flatMap_cons, cons_append, splitOnP_append_cons_of_forall_mem (h first mem_cons_self) c hp]
    exact congrArg _ (ih fun s hs => h s (mem_cons_of_mem first hs))

/-! ## Command lines -/

def isBlank (c : UInt8) : Bool := c = 32 || c = 9 || c = 13 || c = 10

/-- The words of a command line without quotes and escapes. -/
def words (s : Bytes) : List Bytes := (s.splitOnP isBlank).filter (· ≠ [])

/-- Text that is one word of a command line: no blank, quote or backslash. -/
structure Word (s : Bytes) : Prop where
  nonempty : s ≠ []
  plain : ∀ c ∈ s, isBlank c = false ∧ c ≠ 34 ∧ c ≠ 39 ∧ c ≠ 92

lemma Word.of_all (h : s ≠ [])
    (hall : (s.all fun c => isBlank c = false ∧ c ≠ 34 ∧ c ≠ 39 ∧ c ≠ 92)) : Word s :=
  ⟨h,fun c hc => of_decide_eq_true (all_eq_true.mp hall c hc)⟩

def blanked (ws : List Bytes) : Bytes := ws.flatMap (32::·)

lemma words_blanked {first : Bytes} (hfirst : Word first) {ws : List Bytes}
    (h : ∀ s ∈ ws, Word s) : words (first++blanked ws) = first::ws := by
  have hplain : ∀ s ∈ first::ws, ∀ c ∈ s, isBlank c = false := by
    intro s hs c hc
    rcases mem_cons.mp hs with rfl | hs
    · exact (hfirst.plain c hc).1
    · exact ((h s hs).plain c hc).1
  rw [words, blanked, splitOnP_delimited rfl hplain, filter_eq_self]
  intro s hs
  rcases mem_cons.mp hs with rfl | hs
  · simpa using hfirst.nonempty
  · simpa using (h s hs).nonempty

lemma word_signed (i : ℤ) : Word (signed i) := by
  refine ⟨signed_ne_nil i,fun c hc => ?_⟩
  rcases signed_bytes hc with rfl | hd
  · decide
  · refine ⟨?_,?_,?_,?_⟩
    · rw [Bool.eq_false_iff]
      intro hb
      simp only [isBlank, Bool.or_eq_true, decide_eq_true_eq] at hb
      rcases hb with ((rfl | rfl) | rfl) | rfl <;> exact absurd hd (by decide)
    · rintro rfl
      cases hd
    · rintro rfl
      cases hd
    · rintro rfl
      cases hd

end Library.Text
