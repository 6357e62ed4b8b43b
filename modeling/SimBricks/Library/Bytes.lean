import Mathlib.Tactic

/-!
# Little-endian fields in byte memory

A message is handed over as a pointer and a length, so a read past the
length is not an error of the model: it returns whatever byte lies there.
`view` places a byte string in front of such surroundings.
-/

set_option autoImplicit false

namespace Library.Bytes
open List Function Nat

abbrev Memory := ℕ → UInt8

def view (bytes : List UInt8) (beyond : Memory) : Memory := fun i => bytes.getD i (beyond i)

/-- The memory seen through a pointer moved forward by `o` bytes. -/
def advance (m : Memory) (o : ℕ) : Memory := fun i => m (o+i)

def load (m : Memory) (addr n : ℕ) : List UInt8 := (range n).map fun i => m (addr+i)

def store (m : Memory) (addr : ℕ) (data : List UInt8) : Memory :=
  fun i => if addr ≤ i then data.getD (i-addr) (m i) else m i

@[simp] lemma length_load (m : Memory) (addr n : ℕ) : (load m addr n).length = n := by
  simp [load]

lemma take_load (m : Memory) (addr n k : ℕ) : (load m addr n).take k = load m addr (min k n) := by
  simp [load, ← map_take, take_range]

lemma load_store_self (m : Memory) (addr : ℕ) (data : List UInt8) :
    load (store m addr data) addr data.length = data := by
  apply ext_getElem
  · simp
  · intro i hi hi'
    simp [load, store, hi']

variable {a : ℕ} {data : List UInt8} {i w : ℕ}

lemma store_of_outside (m : Memory) (h : i < a ∨ a+data.length ≤ i) : store m a data i = m i := by
  unfold store
  split_ifs with ha
  · rw [getD_eq_getElem?_getD, getElem?_eq_none (by omega), Option.getD_none]
  · rfl

lemma load_store_of_disjoint (m : Memory) {addr n : ℕ} (h : addr+n ≤ a ∨ a+data.length ≤ addr) :
    load (store m a data) addr n = load m addr n := by
  unfold load
  refine map_congr_left fun i hi => ?_
  have hlt : i < n := mem_range.mp hi
  exact store_of_outside m (by omega)

lemma store_inside (m : Memory) (hi : i < data.length) : store m a data (a+i) = data.getD i 0 := by
  simp [store, hi]

lemma store_nil (m : Memory) (a : ℕ) : store m a [] = m := by
  funext i
  exact store_of_outside m (by simp; omega)

lemma store_append (m : Memory) (a : ℕ) (x y : List UInt8) :
    store (store m a x) (a+x.length) y = store m a (x++y) := by
  funext i
  unfold store
  simp only [getD_eq_getElem?_getD]
  by_cases hx : a+x.length ≤ i
  · rw [if_pos hx, if_pos (by omega), if_pos (by omega), getElem?_append_right (by omega),
      Nat.sub_sub, List.getElem?_eq_none (l := x) (by omega), Option.getD_none]
  · rw [if_neg hx]
    split_ifs with ha
    · rw [getElem?_append_left (by omega)]
    · rfl

/-! Memory as a row of blocks of one length. -/

section
variable {len : ℕ}

def block (len : ℕ) (m : Memory) (i : ℕ) : List UInt8 := load m (i*len) len

@[simp] lemma length_block (m : Memory) (i : ℕ) : (block len m i).length = len :=
  length_load _ _ _

variable {off : ℕ}

lemma block_store_of_ne (m : Memory) {j : ℕ} (hoff : off+data.length ≤ len) (hij : j ≠ i) :
    block len (store m (i*len+off) data) j = block len m j := by
  apply load_store_of_disjoint
  rcases lt_or_gt_of_ne hij with h | h
  · have hle := mul_le_mul_right len (succ_le_of_lt h)
    rw [succ_mul] at hle
    omega
  · have hle := mul_le_mul_right len (succ_le_of_lt h)
    rw [succ_mul] at hle
    omega

lemma block_store (m : Memory) (i : ℕ) (h : data.length = len) :
    block len (store m (i*len) data) = update (block len m) i data := by
  funext j
  by_cases hj : j = i
  · subst hj
    rw [update_self, block, ← h, load_store_self]
  · rw [update_of_ne hj]
    have hzero : 0+data.length ≤ len := by omega
    exact block_store_of_ne m hzero hj

lemma block_store_byte (m : Memory) (i : ℕ) (hoff : off < len) (v : UInt8) :
    block len (store m (i*len+off) [v]) = update (block len m) i ((block len m i).set off v) := by
  funext j
  by_cases hj : j = i
  · subst hj
    rw [update_self]
    apply ext_getElem
    · simp
    · intro k hk hk'
      simp only [block, load, store, getElem_map, getElem_range, getElem_set]
      by_cases he : off = k
      · subst he
        simp
      · rw [if_neg he]
        split_ifs with ha
        · rw [getD_eq_getElem?_getD, getElem?_eq_none (by simp; omega), Option.getD_none]
        · rfl
  · rw [update_of_ne hj]
    exact block_store_of_ne m (by simpa using hoff) hj

lemma getD_block (m : Memory) (i : ℕ) (hoff : off < len) (x : UInt8) :
    (block len m i).getD off x = m (i*len+off) := by
  simp [block, load, hoff]

lemma load_add (m : Memory) (addr a b : ℕ) :
    load m addr (a+b) = load m addr a++load m (addr+a) b := by
  simp [load, range_add, add_assoc]

lemma load_blocks (m : Memory) (i n : ℕ) :
    load m (i*len) (n*len) = ((range n).map fun j => block len m (i+j)).flatten := by
  induction n with
  | zero => simp [load]
  | succ n ih =>
    rw [succ_mul, load_add, ih, range_succ, map_append, flatten_append, ← add_mul]
    simp [block]

lemma take_drop_flatten {bs : List (List UInt8)} (h : ∀ x ∈ bs, x.length = len) {x : List UInt8}
    (hx : bs[i]? = some x) : (bs.flatten.drop (i*len)).take len = x := by
  induction bs generalizing i with
  | nil => simp at hx
  | cons y bs ih =>
    have hy : y.length = len := h y (by simp)
    cases i with
    | zero =>
      obtain rfl : y = x := by simpa using hx
      simp [hy]
    | succ =>
      rw [flatten_cons, succ_mul, add_comm, ← hy, drop_length_add_append, hy]
      exact ih (fun z hz => h z (by simp [hz])) (by simpa using hx)

lemma length_flatten_blocks {bs : List (List UInt8)} (h : ∀ x ∈ bs, x.length = len) :
    bs.flatten.length = bs.length*len := by
  induction bs with
  | nil => simp
  | cons y bs ih =>
    rw [flatten_cons, length_append, ih fun z hz => h z (by simp [hz]),
      h y (by simp), length_cons, succ_mul, add_comm]

end

def natAt (m : Memory) : ℕ → ℕ → ℕ
  | 0, _ => 0
  | w+1, o => (m o).toNat+256*natAt m w (o+1)

def natBytes : ℕ → ℕ → List UInt8
  | 0, _ => []
  | w+1, x => UInt8.ofNat x :: natBytes w (x/256)

def u16At (m : Memory) (o : ℕ) : UInt16 := UInt16.ofNat (natAt m 2 o)
def u32At (m : Memory) (o : ℕ) : UInt32 := UInt32.ofNat (natAt m 4 o)
def u64At (m : Memory) (o : ℕ) : UInt64 := UInt64.ofNat (natAt m 8 o)

def u16Bytes (x : UInt16) : List UInt8 := natBytes 2 x.toNat
def u32Bytes (x : UInt32) : List UInt8 := natBytes 4 x.toNat
def u64Bytes (x : UInt64) : List UInt8 := natBytes 8 x.toNat

def beAt (m : Memory) : ℕ → ℕ → ℕ
  | 0, _ => 0
  | w+1, o => (m o).toNat*256^w+beAt m w (o+1)

def beBytes : ℕ → ℕ → List UInt8
  | 0, _ => []
  | w+1, x => UInt8.ofNat (x/256^w) :: beBytes w x

@[simp] lemma length_beBytes (w x : ℕ) : (beBytes w x).length = w := by
  induction w with
  | zero => rfl
  | succ w ih => simp [beBytes, ih]

lemma beAt_congr {m m' : Memory} {o : ℕ} (h : ∀ i, i < w → m (o+i) = m' (o+i)) :
    beAt m w o = beAt m' w o := by
  induction w generalizing o with
  | zero => rfl
  | succ w ih =>
    have h0 : m o = m' o := h 0 (succ_pos w)
    rw [beAt, beAt, h0, ih fun i hi => by
      rw [add_assoc, add_comm 1 i]
      exact h (i+1) (succ_lt_succ hi)]

lemma beAt_lt (m : Memory) (w o : ℕ) : beAt m w o < 256^w := by
  induction w generalizing o with
  | zero => simp [beAt]
  | succ w ih =>
    have hb : (m o).toNat*256^w ≤ 255*256^w := mul_le_mul_right _ (le_of_lt_succ (m o).toNat_lt)
    have hw := ih (o+1)
    rw [beAt, pow_succ]
    omega

lemma beAt_of_bytes (m : Memory) (w x o : ℕ)
    (h : ∀ i, i < w → m (o+i) = (beBytes w x).getD i 0) : beAt m w o = x % 256^w := by
  induction w generalizing o with
  | zero => simp [beAt, mod_one]
  | succ w ih =>
    have h0 : m o = UInt8.ofNat (x/256^w) := by simpa [beBytes] using h 0 (by omega)
    have hs : beAt m w (o+1) = x % 256^w := by
      apply ih
      intro i hi
      have := h (i+1) (by omega)
      rw [show o+1+i = o+(i+1) by omega, this]
      simp [beBytes]
    rw [beAt, h0, hs, pow_succ, mod_mul, UInt8.toNat_ofNat', mul_comm, add_comm]

lemma beAt_store (m : Memory) (w x o : ℕ) : beAt (store m o (beBytes w x)) w o = x % 256^w :=
  beAt_of_bytes _ w x o fun i hi => store_inside m (by simpa using hi)

lemma view_inside {bytes : List UInt8} (beyond beyond' : Memory) (h : i < bytes.length) :
    view bytes beyond i = view bytes beyond' i := by
  simp [view, h]

lemma view_append_right (a b : List UInt8) (beyond : Memory) (i : ℕ) :
    view (a++b) beyond (a.length+i) = view b (advance beyond a.length) i := by
  simp [view, advance, getElem?_append_right]

@[simp] lemma length_natBytes (w x : ℕ) : (natBytes w x).length = w := by
  induction w generalizing x with
  | zero => rfl
  | succ w ih => simp [natBytes, ih]

@[simp] lemma length_u16Bytes (x : UInt16) : (u16Bytes x).length = 2 := length_natBytes 2 _
@[simp] lemma length_u32Bytes (x : UInt32) : (u32Bytes x).length = 4 := length_natBytes 4 _

lemma natAt_of_bytes (m : Memory) (w x o : ℕ)
    (h : ∀ i, i < w → m (o+i) = (natBytes w x).getD i 0) : natAt m w o = x % 256^w := by
  induction w generalizing x o with
  | zero => simp [natAt, mod_one]
  | succ w ih =>
    have h0 : m o = UInt8.ofNat x := by simpa [natBytes] using h 0 (by omega)
    have hs : natAt m w (o+1) = (x/256) % 256^w := by
      apply ih
      intro i hi
      have := h (i+1) (by omega)
      rw [show o+1+i = o+(i+1) by omega, this]
      simp [natBytes]
    rw [natAt, h0, hs, pow_succ, mul_comm (256^w), mod_mul]
    simp

lemma u16At_of_bytes {m : Memory} {o : ℕ} {x : UInt16}
    (h : ∀ i, i < 2 → m (o+i) = (u16Bytes x).getD i 0) : u16At m o = x := by
  have hx : x.toNat < 256^2 := x.toNat_lt
  rw [u16At, natAt_of_bytes m 2 x.toNat o h, mod_eq_of_lt hx, UInt16.ofNat_toNat]

lemma u32At_of_bytes {m : Memory} {o : ℕ} {x : UInt32}
    (h : ∀ i, i < 4 → m (o+i) = (u32Bytes x).getD i 0) : u32At m o = x := by
  have hx : x.toNat < 256^4 := x.toNat_lt
  rw [u32At, natAt_of_bytes m 4 x.toNat o h, mod_eq_of_lt hx, UInt32.ofNat_toNat]

lemma u64At_of_bytes {m : Memory} {o : ℕ} {x : UInt64}
    (h : ∀ i, i < 8 → m (o+i) = (u64Bytes x).getD i 0) : u64At m o = x := by
  have hx : x.toNat < 256^8 := x.toNat_lt
  rw [u64At, natAt_of_bytes m 8 x.toNat o h, mod_eq_of_lt hx, UInt64.ofNat_toNat]

lemma natAt_congr {m m' : Memory} {o : ℕ} (h : ∀ i, i < w → m (o+i) = m' (o+i)) :
    natAt m w o = natAt m' w o := by
  induction w generalizing o with
  | zero => rfl
  | succ w ih =>
    have h0 : m o = m' o := h 0 (succ_pos w)
    rw [natAt, natAt, h0, ih fun i hi => by
      rw [add_assoc, add_comm 1 i]
      exact h (i+1) (succ_lt_succ hi)]

def Agree (len : ℕ) (m m' : Memory) : Prop := ∀ i, i < len → m i = m' i

section
variable {len o : ℕ} {m m' : Memory}

lemma Agree.natAt (h : Agree len m m') (ho : o+w ≤ len) : natAt m w o = natAt m' w o :=
  natAt_congr fun i hi => h (o+i) (by omega)

lemma Agree.u16At (h : Agree len m m') (ho : o+2 ≤ len) : u16At m o = u16At m' o :=
  congrArg UInt16.ofNat (h.natAt ho)

lemma Agree.u32At (h : Agree len m m') (ho : o+4 ≤ len) : u32At m o = u32At m' o :=
  congrArg UInt32.ofNat (h.natAt ho)

lemma Agree.u64At (h : Agree len m m') (ho : o+8 ≤ len) : u64At m o = u64At m' o :=
  congrArg UInt64.ofNat (h.natAt ho)

lemma Agree.view (bytes : List UInt8) (beyond beyond' : Memory) :
    Agree bytes.length (view bytes beyond) (view bytes beyond') :=
  fun _ hi => view_inside beyond beyond' hi

end

lemma view_middle (a b c : List UInt8) (beyond : Memory) (i : ℕ) (h : i < b.length) :
    view (a++(b++c)) beyond (a.length+i) = b.getD i 0 := by
  rw [view_append_right]
  simp [view, getElem?_append_left h, h]

end Library.Bytes
