import SimBricks.I40e.Transmit

/-!
# TCP segmentation

A context descriptor asks for segmentation; the data descriptors behind it are
cut into frames of `mss` payload bytes, each with the headers of the unit.
-/

set_option autoImplicit false

namespace SimBricks.I40eTx

open Library.Bytes List Option Nat

/-- A segmentation unit as a driver posts it. -/
structure TsoUnit where
  context : Desc
  front : List Desc
  last : Desc
  context_dtype : context.dtype = dtypeContext
  context_tso : context.tso
  data_dtype : ∀ d ∈ front++[last], d.dtype = dtypeData
  data_ne_nil : ∀ d ∈ front++[last], d.data ≠ []
  front_eop : ∀ d ∈ front, d.eop = false
  last_eop : last.eop
  mss_pos : 1 ≤ context.mss
  iplen_le : last.iplen ≤ 60
  l4len_le : last.l4len ≤ 60
  hdrlen_le : last.maclen+last.iplen+last.l4len ≤ ((front++[last]).flatMap Desc.data).length
  fits : last.maclen+last.iplen+last.l4len+context.mss ≤ mtu

namespace TsoUnit

variable (u : TsoUnit)

def datas : List Desc := u.front++[u.last]
def descs : List Desc := u.context::u.datas
def bytes : List UInt8 := u.datas.flatMap Desc.data
def mss : ℕ := u.context.mss
def hdrlen : ℕ := u.last.maclen+u.last.iplen+u.last.l4len

def idAt : ℕ := u.last.maclen+4
def seqAt : ℕ := u.last.maclen+u.last.iplen+4

end TsoUnit

def mem (bytes : List UInt8) : Memory := view bytes fun _ => 0

/-! ### Copying -/

lemma Desc.bufSz_eq {d : Desc} (h : d.dtype = dtypeData) : d.bufSz = d.data.length :=
  (d.length_data h).symm

section CopyLoop

variable {limit off dcnt : ℕ} {ds : List Desc} {t : Tx}

lemma copyLoop_stop (h : limit ≤ off) : t.copyLoop limit ds off dcnt = (t,dcnt) := by
  cases ds with
  | nil => rfl
  | cons => exact if_neg (not_lt.mpr h)

/-- The buffer takes the bytes between the offset and the limit, whatever
descriptors they come from. -/
lemma copyLoop_fst (hd : ∀ d ∈ ds, d.dtype = dtypeData) (hoff : off ≤ t.tsoOff)
    (hle : t.tsoOff ≤ limit) (hlimit : limit ≤ off+(ds.flatMap Desc.data).length) :
    (t.copyLoop limit ds off dcnt).1 = { t with
      pktbuf := store t.pktbuf t.tsoLen
        (((ds.flatMap Desc.data).drop (t.tsoOff-off)).take (limit-t.tsoOff))
      tsoOff := limit
      tsoLen := t.tsoLen+(limit-t.tsoOff) } := by
  induction ds generalizing off dcnt t with
  | nil =>
    obtain rfl : t.tsoOff = limit := by simp at hlimit; omega
    rw [Tx.copyLoop, Nat.sub_self, List.take_zero, store_nil]
    rfl
  | cons d ds ih =>
    have hsz := Desc.bufSz_eq (hd d (by simp))
    have hds : ∀ d ∈ ds, d.dtype = dtypeData := fun d h => hd d (by simp [h])
    rw [flatMap_cons, length_append] at hlimit
    by_cases hlt : off < limit
    swap
    · obtain rfl : t.tsoOff = limit := by omega
      rw [copyLoop_stop (by omega), Nat.sub_self, List.take_zero, store_nil]
      rfl
    rw [Tx.copyLoop, if_pos hlt, hsz]
    unfold Tx.copy
    rw [hsz]
    by_cases hin : t.tsoOff < off+d.data.length
    swap
    · -- this descriptor has been copied by earlier segments
      have hdrop : d.data.drop (t.tsoOff-off) = [] := drop_eq_nil_of_le (by omega)
      rw [if_neg (by omega), ih hds (by omega) hle (by omega), flatMap_cons,
        List.drop_append, hdrop, List.nil_append, Nat.sub_sub]
    rw [if_pos ⟨hoff,hin⟩]
    rcases lt_or_ge limit (off+d.data.length) with hl | hl
    · -- the segment ends in this descriptor
      rw [copyLoop_stop hl.le, min_eq_right hl.le, flatMap_cons,
        drop_append_of_le_length (by omega), take_append_of_le_length (by simp; omega)]
    · have hpiece : (d.data.drop (t.tsoOff-off)).length = off+d.data.length-t.tsoOff := by
        rw [length_drop]
        omega
      have htake : (d.data.drop (t.tsoOff-off)).take (off+d.data.length-t.tsoOff) =
          d.data.drop (t.tsoOff-off) := take_of_length_le hpiece.le
      have hstore := store_append t.pktbuf t.tsoLen (d.data.drop (t.tsoOff-off))
        ((ds.flatMap Desc.data).take (limit-(off+d.data.length)))
      have hrest := @ih (off+d.data.length) (dcnt+1) { t with
        pktbuf := store t.pktbuf t.tsoLen (d.data.drop (t.tsoOff-off))
        tsoOff := off+d.data.length
        tsoLen := t.tsoLen+(off+d.data.length-t.tsoOff) } hds le_rfl hl (by omega)
      rw [hpiece] at hstore
      dsimp only at hrest ⊢
      rw [Nat.min_eq_left hl, htake, hrest, Nat.sub_self, List.drop_zero, hstore, List.flatMap_cons,
        drop_append_of_le_length (by omega), take_append, hpiece,
        take_of_length_le (l := d.data.drop _) (by omega),
        (by omega : limit-t.tsoOff-(off+d.data.length-t.tsoOff) = limit-(off+d.data.length)),
        add_assoc t.tsoLen, (by omega : off+d.data.length-t.tsoOff+
          (limit-(off+d.data.length)) = limit-t.tsoOff)]

lemma copyLoop_snd (hd : ∀ d ∈ ds, 0 < d.bufSz) (hlimit : limit = off+(ds.map Desc.bufSz).sum) :
    (t.copyLoop limit ds off dcnt).2 = dcnt+ds.length := by
  induction ds generalizing off dcnt t with
  | nil => rfl
  | cons d ds ih =>
    have hpos := hd d (by simp)
    rw [map_cons, sum_cons] at hlimit
    rw [Tx.copyLoop, if_pos (by omega), ih (fun d h => hd d (by simp [h])) (by omega), length_cons]
    omega

end CopyLoop

/-! ### Finding the end of the unit -/

lemma findEop_front {ds : List Desc} (hd : ∀ d ∈ ds, d.dtype = dtypeData)
    (he : ∀ d ∈ ds, d.eop = false) {s : Scan} (hs : s.eop = false) :
    ∃ s' : Scan, s'.eop = false ∧ s'.totalLen = s.totalLen+(ds.flatMap Desc.data).length ∧ ∀ rest,
    findEop (ds++rest) s = findEop rest s' := by
  induction ds generalizing s with
  | nil => exact ⟨s,hs,rfl,fun _ => rfl⟩
  | cons d ds ih =>
    have hde := he d (by simp)
    have hadd : s.add d =
        { s with eop := false, totalLen := s.totalLen+d.bufSz, l4t := d.l4t } := by
      rw [Scan.add, hde]
      rfl
    obtain ⟨s',heop,hlen,hrest⟩ := ih (fun d h => hd d (by simp [h])) (fun d h =>
      he d (by simp [h]))
      (s := s.add d) (by rw [hadd])
    refine ⟨s',heop,?_,fun rest => ?_⟩
    · rw [hlen, hadd, flatMap_cons, length_append, Desc.bufSz_eq (hd d (by simp)), add_assoc]
    · rw [cons_append, findEop, hs, if_neg Bool.false_ne_true,
        if_neg (not_not.mpr (hd d (by simp))), hrest]

namespace TsoUnit

variable (u : TsoUnit)

def scan : Scan := ⟨true,u.bytes.length,u.last.maclen,u.last.iplen,u.last.l4len,u.last.l4t⟩

lemma findEop_datas : findEop u.datas {} = some u.scan := by
  obtain ⟨s,heop,hlen,hrest⟩ := findEop_front (s := {})
    (fun d hd => u.data_dtype d (by simp [hd])) u.front_eop rfl
  have hlast := u.data_dtype u.last (by simp)
  rw [datas, hrest, findEop, heop, if_neg Bool.false_ne_true, if_neg (not_not.mpr hlast), findEop,
    Scan.add, u.last_eop, if_pos rfl, hlen, Desc.bufSz_eq hlast]
  simp [scan, bytes, datas]

lemma triggerTxPacket_descs {t : Tx} (h : t.readySegments = u.descs) :
    t.triggerTxPacket = t.sendUnit u.scan u.datas 1 true u.context.tsyn u.mss := by
  unfold Tx.triggerTxPacket
  rw [h, descs]
  simp [u.context_dtype, u.context_tso, u.findEop_datas]
  rfl

/-! ### Headers -/

/-- The length and checksum fields that are set for every frame. -/
def Checked (i : ℕ) : Prop :=
  u.last.maclen+2 ≤ i ∧ i < u.last.maclen+4 ∨ u.last.maclen+10 ≤ i ∧ i < u.last.maclen+12 ∨
    u.last.maclen+u.last.iplen+16 ≤ i ∧ i < u.last.maclen+u.last.iplen+18

/-- The bytes of the headers in which frames may differ. -/
def Rewritten (i : ℕ) : Prop :=
  u.Checked i ∨ u.idAt ≤ i ∧ i < u.idAt+2 ∨ u.seqAt ≤ i ∧ i < u.seqAt+4

end TsoUnit

structure Header (u : TsoUnit) (k : ℕ) (m : Memory) : Prop where
  seq : beAt m 4 u.seqAt = (beAt (mem u.bytes) 4 u.seqAt+k*u.mss) % 2^32
  id : beAt m 2 u.idAt = (beAt (mem u.bytes) 2 u.idAt+k) % 2^16
  rest : ∀ i < u.hdrlen, ¬ u.Rewritten i → m i = mem u.bytes i

/-- Headers long enough for the fields that are written. -/
structure Framed (u : TsoUnit) : Prop where
  iplen : 8 ≤ u.last.iplen
  l4len : 18 ≤ u.last.l4len

section Headers

variable {u : TsoUnit} {k : ℕ} {m m' : Memory}

open TsoUnit

lemma Header.zero (hu : Framed u) (h : ∀ i < u.hdrlen, m i = mem u.bytes i) : Header u 0 m := by
  have h2 := hu.l4len
  refine ⟨?_,?_,fun i hi _ => h i hi⟩
  · have hlt : beAt (mem u.bytes) 4 u.seqAt < 2^32 := beAt_lt _ 4 _
    rw [zero_mul, add_zero, mod_eq_of_lt hlt]
    refine beAt_congr fun i hi => h _ ?_
    unfold seqAt hdrlen
    omega
  · have hlt : beAt (mem u.bytes) 2 u.idAt < 2^16 := beAt_lt _ 2 _
    rw [add_zero, mod_eq_of_lt hlt]
    refine beAt_congr fun i hi => h _ ?_
    unfold idAt hdrlen
    omega

/-- The id and the sequence number do not depend on the fields set per frame. -/
lemma Header.congr (hu : Framed u) (h : Header u k m)
    (hm : ∀ i < u.hdrlen, ¬ u.Checked i → m' i = m i) : Header u k m' := by
  have h1 := hu.iplen
  have h2 := hu.l4len
  refine ⟨?_,?_,fun i hi hr => ?_⟩
  · rw [← h.seq]
    refine beAt_congr fun i hi => hm _ ?_ ?_ <;>
      simp only [seqAt, hdrlen, TsoUnit.Checked] <;> omega
  · rw [← h.id]
    refine beAt_congr fun i hi => hm _ ?_ ?_ <;>
      simp only [idAt, hdrlen, TsoUnit.Checked] <;> omega
  · rw [hm i hi fun hc => hr (Or.inl hc)]
    exact h.rest i hi hr

lemma xsumTcpipTso_of_not_checked {l4len paylen i : ℕ} (h : ¬ u.Checked i) :
    xsumTcpipTso m u.last.maclen u.last.iplen l4len paylen i = m i := by
  unfold TsoUnit.Checked at h
  unfold xsumTcpipTso
  rw [store_of_outside, store_of_outside, store_of_outside, store_of_outside, store_of_outside] <;>
    simp only [cksumField, length_natBytes, length_beBytes, length_cons, length_nil] <;>
    omega

lemma Header.postupdate (hu : Framed u) (h : Header u k m) :
    Header u (k+1) (tsoPostupdateHeader m u.last.maclen u.last.iplen u.mss) := by
  have h1 := hu.iplen
  unfold tsoPostupdateHeader
  dsimp only
  set m₁ := store m (u.last.maclen+u.last.iplen+4)
    (beBytes 4 (beAt m 4 (u.last.maclen+u.last.iplen+4)+u.mss)) with hm₁
  refine ⟨?_,?_,fun i hi hr => ?_⟩
  · have hseq : ∀ x, beAt (store m₁ (u.last.maclen+4) (beBytes 2 x)) 4 u.seqAt =
        beAt m₁ 4 u.seqAt := fun x => beAt_congr fun i hi => store_of_outside _ (by
      simp only [seqAt, length_beBytes]; omega)
    rw [hseq, hm₁]
    change beAt (store m u.seqAt (beBytes 4 (beAt m 4 u.seqAt+u.mss))) 4 u.seqAt = _
    rw [beAt_store, h.seq, succ_mul, ← add_assoc]
    exact mod_add_mod _ _ _
  · have hid : beAt m₁ 2 u.idAt = beAt m 2 u.idAt := beAt_congr fun i hi => store_of_outside _ (by
      simp only [idAt, length_beBytes]; omega)
    change beAt (store m₁ u.idAt (beBytes 2 (beAt m₁ 2 u.idAt+1))) 2 u.idAt = _
    rw [beAt_store, hid, h.id, ← add_assoc]
    exact mod_add_mod _ _ _
  · rw [← h.rest i hi hr]
    simp only [TsoUnit.Rewritten, idAt, seqAt] at hr
    rw [store_of_outside _ (by simp only [length_beBytes]; omega), hm₁,
      store_of_outside _ (by simp only [length_beBytes]; omega)]

end Headers

/-! ### Segments -/

namespace TsoUnit

variable (u : TsoUnit)

def payload (k : ℕ) : List UInt8 := (u.bytes.drop (u.hdrlen+k*u.mss)).take u.mss

/-- The number of frames. A unit without payload is one frame. -/
def count : ℕ := (u.bytes.length-u.hdrlen-1)/u.mss+1

variable {u}

lemma hdrlen_le_length : u.hdrlen ≤ u.bytes.length := u.hdrlen_le

lemma succ_lt_count {k : ℕ} : k+1 < u.count ↔ u.hdrlen+(k+1)*u.mss < u.bytes.length := by
  have hpos : 0 < u.mss := u.mss_pos
  rw [count, add_lt_add_iff_right, lt_iff_add_one_le, le_div_iff_mul_le hpos]
  have : 0 < (k+1)*u.mss := mul_pos (succ_pos k) hpos
  omega

lemma start_le {k : ℕ} (hk : k < u.count) : u.hdrlen+k*u.mss ≤ u.bytes.length := by
  cases k with
  | zero =>
    rw [zero_mul]
    exact u.hdrlen_le_length
  | succ => exact (succ_lt_count.mp hk).le

lemma length_payload (k : ℕ) :
    (u.payload k).length = min u.mss (u.bytes.length-(u.hdrlen+k*u.mss)) := by
  rw [payload, length_take, length_drop]

end TsoUnit

structure Segment (u : TsoUnit) (k : ℕ) (f : List UInt8) : Prop where
  hdrlen_le : u.hdrlen ≤ f.length
  header : Header u k (mem f)
  payload : f.drop u.hdrlen = u.payload k

/-- The packet buffer holds the frame, apart from the fields set when it is sent. -/
structure Filled (u : TsoUnit) (k : ℕ) (m : Memory) : Prop where
  header : Header u k m
  payload : load m u.hdrlen (u.payload k).length = u.payload k

section Segments

variable {u : TsoUnit} {k : ℕ} {m : Memory} {t : Tx}

lemma filled_zero (hu : Framed u) :
    Filled u 0 (store m 0 (u.bytes.take (u.hdrlen+(u.payload 0).length))) := by
  have hle := u.hdrlen_le_length
  have hlen := TsoUnit.length_payload (u := u) 0
  rw [zero_mul, add_zero] at hlen
  set n := u.hdrlen+(u.payload 0).length with hn
  have hbyte : ∀ i < n, store m 0 (u.bytes.take n) i = mem u.bytes i := by
    intro i hi
    have hi' : i < (u.bytes.take n).length := by
      rw [length_take]
      omega
    have := store_inside m (a := 0) hi'
    rw [zero_add] at this
    rw [this, mem, view, getD_eq_getElem?_getD, getD_eq_getElem?_getD, getElem?_take_of_lt hi]
  refine ⟨Header.zero hu fun i hi => hbyte i (by omega),?_⟩
  apply ext_getElem
  · rw [length_load]
  · intro i hi hi'
    simp only [load, getElem_map, getElem_range]
    have hlt : u.hdrlen+i < u.bytes.length := by omega
    rw [hbyte _ (by omega)]
    simp only [TsoUnit.payload, getElem_take, getElem_drop, zero_mul, add_zero]
    simp [mem, view, hlt]

lemma filled_succ (hu : Framed u) (h : Header u k m) :
    Filled u k (store m u.hdrlen (u.payload k)) :=
  ⟨h.congr hu fun _ hi _ => store_of_outside m (Or.inl hi),load_store_self _ _ _⟩

/-- The state in which the `k`-th frame is built. -/
structure Before (u : TsoUnit) (k : ℕ) (t : Tx) : Prop where
  ready : t.readySegments = u.descs
  lt : k < u.count
  off : t.tsoOff = if k = 0 then 0 else u.hdrlen+k*u.mss
  len : t.tsoLen = if k = 0 then 0 else u.hdrlen
  header : k ≠ 0 → Header u k t.pktbuf

def TsoUnit.stop (u : TsoUnit) (k : ℕ) : ℕ := u.hdrlen+k*u.mss+(u.payload k).length

lemma Before.limit_eq (h : Before u k t) :
    min (if t.tsoOff = 0 then u.hdrlen+u.mss else t.tsoOff+u.mss) u.bytes.length = u.stop k := by
  have hpos : 0 < u.mss := u.mss_pos
  have hle := TsoUnit.start_le h.lt
  have hstart : (if t.tsoOff = 0 then u.hdrlen+u.mss else t.tsoOff+u.mss) =
      u.hdrlen+k*u.mss+u.mss := by
    rw [h.off]
    by_cases hk : k = 0
    · rw [hk, if_pos rfl, if_pos rfl, zero_mul, add_zero]
    · have := mul_pos (pos_of_ne_zero hk) hpos
      rw [if_neg hk, if_neg (by omega)]
  rw [hstart, TsoUnit.stop, TsoUnit.length_payload]
  omega

lemma Before.copied (hu : Framed u) (h : Before u k t) : ∃ m, Filled u k m ∧
    (t.copyLoop (u.stop k) u.datas 0 1).1 =
    { t with pktbuf := m, tsoOff := u.stop k, tsoLen := u.hdrlen+(u.payload k).length } := by
  have hle := TsoUnit.start_le h.lt
  have hlen := TsoUnit.length_payload (u := u) k
  have hstop : u.stop k = u.hdrlen+k*u.mss+(u.payload k).length := rfl
  have hoff : t.tsoOff ≤ u.stop k := by
    rw [h.off]
    split_ifs <;> omega
  have hcopy := @copyLoop_fst (u.stop k) 0 1 u.datas t u.data_dtype
    (zero_le _) hoff (by change u.stop k ≤ 0+u.bytes.length; omega)
  change (t.copyLoop (u.stop k) u.datas 0 1).1 = { t with
    pktbuf := store t.pktbuf t.tsoLen ((u.bytes.drop (t.tsoOff-0)).take (u.stop k-t.tsoOff))
    tsoOff := u.stop k
    tsoLen := t.tsoLen+(u.stop k-t.tsoOff) } at hcopy
  have htl : t.tsoLen+(u.stop k-t.tsoOff) = u.hdrlen+(u.payload k).length := by
    rw [h.len, h.off]
    split_ifs with hk
    · rw [hstop, hk]
      omega
    · omega
  rw [htl] at hcopy
  refine ⟨_,?_,hcopy⟩
  rw [h.len, h.off, Nat.sub_zero]
  by_cases hk : k = 0
  · rw [if_pos hk, if_pos hk, List.drop_zero, Nat.sub_zero, hstop, hk, Nat.zero_mul, Nat.add_zero]
    exact filled_zero hu
  · -- what is copied goes behind the headers of the previous frame
    have htake : (u.bytes.drop (u.hdrlen+k*u.mss)).take (u.stop k-(u.hdrlen+k*u.mss)) =
        u.payload k := by
      rw [hstop, Nat.add_sub_cancel_left]
      unfold TsoUnit.payload
      rw [take_eq_take_iff, length_take]
      omega
    rw [if_neg hk, if_neg hk, htake]
    exact filled_succ hu (h.header hk)

lemma mem_load {n i : ℕ} (hi : i < n) : mem (load m 0 n) i = m i := by
  simp [mem, view, load, hi]

lemma Filled.segment (hu : Framed u) (h : Filled u k m) {l4len paylen : ℕ} :
    Segment u k (load (xsumTcpipTso m u.last.maclen u.last.iplen l4len paylen) 0
      (u.hdrlen+(u.payload k).length)) := by
  have h2 := hu.l4len
  have hhdr : u.hdrlen = u.last.maclen+u.last.iplen+u.last.l4len := rfl
  refine ⟨by rw [length_load]; omega,h.header.congr hu fun i hi hc => ?_,?_⟩
  · rw [mem_load (by omega), xsumTcpipTso_of_not_checked hc]
  · rw [load_add, zero_add, drop_left' (length_load _ _ _)]
    refine Eq.trans ?_ h.payload
    refine map_congr_left fun i _ => xsumTcpipTso_of_not_checked ?_
    unfold TsoUnit.Checked
    omega

/-- Sending the `k`-th frame. Behind a full frame the headers are those of the next. -/
lemma sendSegment_eq (hu : Framed u) (h : Filled u k t.pktbuf)
    (hlen : t.tsoLen = u.hdrlen+(u.payload k).length) : ∃ f m, Segment u k f ∧
    ((u.payload k).length = u.mss → Header u (k+1) m) ∧ t.sendSegment u.scan u.mss = { t with
    pktbuf := m, out := t.out++[.frame f] } := by
  have hmss : u.hdrlen+u.mss ≤ mtu := u.fits
  have hple : (u.payload k).length ≤ u.mss := by
    rw [TsoUnit.length_payload]
    omega
  have hpaylen : min (Tx.sub32 t.tsoLen u.hdrlen) u.mss % 2^16 = (u.payload k).length := by
    unfold mtu at hmss
    unfold Tx.sub32
    omega
  have hip : u.last.iplen % 2^8 = u.last.iplen := mod_eq_of_lt (by have := u.iplen_le; omega)
  set m := xsumTcpipTso t.pktbuf u.last.maclen u.last.iplen (u.last.l4len % 2^8)
    (u.payload k).length with hm
  refine ⟨load m 0 t.tsoLen,tsoPostupdateHeader m u.last.maclen u.last.iplen (u.payload k).length,
    hlen ▸ h.segment hu,fun hfull => ?_,?_⟩
  · rw [hfull]
    exact (h.header.congr hu fun i _ hc => xsumTcpipTso_of_not_checked hc).postupdate hu
  · rw [hm, ← hip, ← hpaylen]
    rfl

structure Tx.Idle (t : Tx) : Prop where
  ready : t.readySegments = []
  off : t.tsoOff = 0
  len : t.tsoLen = 0

def TsoUnit.completion (u : TsoUnit) : List Output :=
  (if u.context.tsyn then [.timestamp] else [])++u.descs.map fun d => .processed d.index

lemma TsoUnit.stop_lt_iff : u.stop k < u.bytes.length ↔ k+1 < u.count := by
  rw [TsoUnit.succ_lt_count, TsoUnit.stop, TsoUnit.length_payload, succ_mul]
  omega

lemma Before.triggerTxPacket_eq (hu : Framed u) (h : Before u k t) : ∃ f m, Segment u k f ∧
    ((u.payload k).length = u.mss → Header u (k+1) m) ∧ t.triggerTxPacket = some (true,
      if u.stop k < u.bytes.length then
        { t with pktbuf := m, tsoOff := u.stop k, tsoLen := u.hdrlen, out := t.out++[.frame f] }
      else Tx.unitDone { t with
        pktbuf := m
        tsoOff := u.stop k
        tsoLen := u.hdrlen+(u.payload k).length
        out := t.out++[.frame f] } u.context.tsyn (t.copyLoop (u.stop k) u.datas 0 1).2) := by
  have hmss : u.hdrlen+u.mss ≤ mtu := u.fits
  have hple : (u.payload k).length ≤ u.mss := by
    rw [TsoUnit.length_payload]
    omega
  obtain ⟨m,hfilled,hcopy⟩ := h.copied hu
  obtain ⟨f,m',hseg,hnext,hsend⟩ := sendSegment_eq (t := { t with
    pktbuf := m, tsoOff := u.stop k, tsoLen := u.hdrlen+(u.payload k).length }) hu hfilled rfl
  refine ⟨f,m',hseg,hnext,?_⟩
  have hlimit : min (if t.tsoOff = 0 then u.scan.maclen+u.scan.iplen+u.scan.l4len+u.mss
      else t.tsoOff+u.mss) u.scan.totalLen = u.stop k := h.limit_eq
  rw [u.triggerTxPacket_descs h.ready, Tx.sendUnit, if_pos rfl]
  dsimp only
  rw [hlimit, hcopy, if_neg (by change ¬ mtu < u.hdrlen+(u.payload k).length; omega), hsend]
  change (if u.stop k < u.bytes.length then _ else _) = _
  split_ifs <;> rfl

lemma Before.next (hu : Framed u) (h : Before u k t) (hk : k+1 < u.count) :
    ∃ f t', Segment u k f ∧ t.triggerTxPacket = some (true,t') ∧ Before u (k+1) t' ∧
    t'.out = t.out++[.frame f] := by
  obtain ⟨f,m,hseg,hnext,hsend⟩ := h.triggerTxPacket_eq hu
  have hstop := TsoUnit.stop_lt_iff.mpr hk
  have hfull : (u.payload k).length = u.mss := by
    have hlen := TsoUnit.length_payload (u := u) k
    unfold TsoUnit.stop at hstop
    omega
  rw [if_pos hstop] at hsend
  refine ⟨f,_,hseg,hsend,⟨h.ready,hk,?_,rfl,fun _ => hnext hfull⟩,rfl⟩
  change u.stop k = u.hdrlen+(k+1)*u.mss
  rw [TsoUnit.stop, hfull, succ_mul, add_assoc]

lemma Before.final (hu : Framed u) (h : Before u k t) (hk : k+1 = u.count) :
    ∃ f t', Segment u k f ∧ t.triggerTxPacket = some (true,t') ∧ t'.Idle ∧
    t'.out = t.out++[.frame f]++u.completion := by
  obtain ⟨f,m,hseg,-,hsend⟩ := h.triggerTxPacket_eq hu
  have hstop : ¬ u.stop k < u.bytes.length := by
    rw [TsoUnit.stop_lt_iff]
    omega
  have hle := TsoUnit.start_le h.lt
  have hlen := TsoUnit.length_payload (u := u) k
  -- the last frame reaches into the last descriptor
  have hcount : (t.copyLoop (u.stop k) u.datas 0 1).2 = u.descs.length := by
    rw [copyLoop_snd, TsoUnit.descs, length_cons, add_comm]
    · intro d hd
      rw [Desc.bufSz_eq (u.data_dtype d hd)]
      exact length_pos_iff.mpr (u.data_ne_nil d hd)
    · have hsum : (u.datas.map Desc.bufSz).sum = u.bytes.length := by
        rw [TsoUnit.bytes, length_flatMap]
        exact congrArg sum (map_congr_left fun d hd => Desc.bufSz_eq (u.data_dtype d hd))
      unfold TsoUnit.stop at hstop ⊢
      omega
  rw [if_neg hstop, hcount] at hsend
  refine ⟨f,_,hseg,hsend,⟨?_,rfl,rfl⟩,?_⟩
  · change t.readySegments.drop u.descs.length = []
    rw [h.ready, drop_length]
  · change t.out++[.frame f]++_++(t.readySegments.take u.descs.length).map _ = _
    rw [h.ready, take_length, append_assoc]
    rfl

lemma Before.run (hu : Framed u) (n : ℕ) (h : Before u k t) (hn : k+n+1 = u.count) :
    ∃ (frames : List (List UInt8)) (t' : Tx), t.triggerTx (n+2) = some t' ∧ t'.Idle ∧
    t'.out = t.out++frames.map Output.frame++u.completion ∧ frames.length = n+1 ∧ ∀ j f,
    frames[j]? = some f → Segment u (k+j) f := by
  induction n generalizing k t with
  | zero =>
    obtain ⟨f,t',hseg,hsend,hidle,hout⟩ := h.final hu hn
    refine ⟨[f],t',?_,hidle,hout,rfl,fun j f' hj => ?_⟩
    · rw [Tx.triggerTx, hsend]
      dsimp only
      rw [Tx.triggerTx, Tx.triggerTxPacket, hidle.ready]
    · obtain ⟨rfl,rfl⟩ : j = 0 ∧ f' = f := by
        cases j with
        | zero => exact ⟨rfl,by simpa using hj.symm⟩
        | succ => simp at hj
      exact hseg
  | succ n ih =>
    obtain ⟨f,_,hseg,hsend,hnext,hout⟩ := h.next hu (by omega)
    obtain ⟨frames,t',hrun,hidle,hout',hlen,hframes⟩ := ih hnext (by omega)
    refine ⟨f::frames,t',?_,hidle,?_,by rw [length_cons, hlen],fun j f' hj => ?_⟩
    · rw [Tx.triggerTx, hsend]
      exact hrun
    · rw [hout', hout, map_cons]
      simp
    · cases j with
      | zero =>
        obtain rfl : f = f' := by simpa using hj
        exact hseg
      | succ j =>
        rw [add_comm j 1, ← add_assoc]
        exact hframes j f' (by simpa using hj)

end Segments

/-! ### Arrival -/

lemma triggerTx_mono {n m : ℕ} {t t' : Tx} (h : t.triggerTx n = some t') (hle : n ≤ m) :
    t.triggerTx m = some t' := by
  induction n generalizing m t with
  | zero => cases h
  | succ n ih =>
    obtain ⟨m,rfl⟩ := exists_eq_succ_of_ne_zero (by omega : m ≠ 0)
    rw [Tx.triggerTx] at h ⊢
    cases hp : t.triggerTxPacket with
    | none => rw [hp] at h; cases h
    | some r =>
      obtain ⟨again,_⟩ := r
      rw [hp] at h
      cases again with
      | false => exact h
      | true => exact ih h (by omega)

/-- The descriptors are processed one after the other, and every `trigger_tx` returns. -/
def Sends (ds : List Desc) (t t' : Tx) : Prop :=
  ∃ enough, ∀ fuel ≥ enough, ds.foldlM (Tx.process fuel) t = some t'

lemma sends_of_fuel (fuel : ℕ) {ds : List Desc} {t t' : Tx}
    (h : ds.foldlM (Tx.process fuel) t = some t') : Sends ds t t' := by
  refine ⟨fuel,fun m hm => ?_⟩
  induction ds generalizing t with
  | nil => exact h
  | cons d ds ih =>
    obtain ⟨t₁,hd,hds⟩ := bind_eq_some_iff.mp h
    exact bind_eq_some_iff.mpr ⟨t₁,triggerTx_mono hd hm,ih hds⟩

lemma Sends.unique {ds : List Desc} {t t₁ t₂ : Tx} (h₁ : Sends ds t t₁) (h₂ : Sends ds t t₂) :
    t₁ = t₂ := by
  obtain ⟨n,hn⟩ := h₁
  obtain ⟨m,hm⟩ := h₂
  exact some.inj ((hn (max n m) (le_max_left n m)).symm.trans (hm _ (le_max_right n m)))

lemma Sends.append {ds es : List Desc} {t t₁ t₂ : Tx} (h₁ : Sends ds t t₁) (h₂ : Sends es t₁ t₂) :
    Sends (ds++es) t t₂ := by
  obtain ⟨n,hn⟩ := h₁
  obtain ⟨m,hm⟩ := h₂
  refine ⟨max n m,fun fuel hf => ?_⟩
  rw [foldlM_append, hn fuel (by omega)]
  exact hm fuel (by omega)

section Arrival

variable {u : TsoUnit} {t : Tx}

lemma triggerTx_waiting {ds : List Desc} (hd : ∀ d ∈ ds, d.dtype = dtypeData)
    (he : ∀ d ∈ ds, d.eop = false) (fuel : ℕ) (ht : t.readySegments = u.context::ds) :
    t.triggerTx (fuel+1) = some t := by
  obtain ⟨s,heop,-,hrest⟩ := findEop_front hd he (s := {}) rfl
  have hfind : findEop ds {} = some s := by
    have := hrest []
    rwa [append_nil] at this
  have hpacket : t.triggerTxPacket = some (false,t) := by
    unfold Tx.triggerTxPacket
    rw [ht]
    simp [u.context_dtype, hfind, heop]
  rw [Tx.triggerTx, hpacket]

lemma process_front (fuel : ℕ) (rest : List Desc) : ∀ done, done++rest = u.front → rest.foldlM
    (Tx.process (fuel+1)) { t with readySegments := u.context::done } =
        some { t with readySegments := u.context::u.front } := by
  induction rest with
  | nil =>
    intro done hdone
    rw [append_nil] at hdone
    rw [hdone]
    rfl
  | cons d rest ih =>
    intro done hdone
    have hmem : ∀ x ∈ done++[d], x ∈ u.front := by
      intro x hx
      rw [← hdone]
      simp only [mem_append, mem_cons] at hx ⊢
      tauto
    have hwait := triggerTx_waiting (t := { t with readySegments := u.context::(done++[d]) })
      (fun x hx => u.data_dtype x (mem_append_left _ (hmem x hx)))
      (fun x hx => u.front_eop x (hmem x hx)) fuel rfl
    change ({ t with readySegments := u.context::(done++[d]) }.triggerTx (fuel+1)).bind _ = _
    rw [hwait]
    exact ih (done++[d]) (by rw [append_assoc]; exact hdone)

lemma sends_unit (hu : Framed u) (ht : t.Idle) :
    ∃ (frames : List (List UInt8)) (t' : Tx), Sends u.descs t t' ∧ t'.Idle ∧
    t'.out = t.out++frames.map Output.frame++u.completion ∧ frames.length = u.count ∧ ∀ j f,
    frames[j]? = some f → Segment u j f := by
  have hbefore : Before u 0 { t with readySegments := u.descs } :=
    ⟨rfl,succ_pos _,ht.off,ht.len,fun h => absurd rfl h⟩
  obtain ⟨frames,t',hrun,hidle,hout,hlen,hframes⟩ :=
    hbefore.run hu (u.count-1) (by rw [zero_add]; rfl)
  refine ⟨frames,t',sends_of_fuel (u.count-1+2) ?_,hidle,hout,hlen,fun j f hj => ?_⟩
  · have hcontext := @triggerTx_waiting u { t with readySegments := [u.context] } []
      (by simp) (by simp) (u.count-1+1) rfl
    change ({ t with readySegments := t.readySegments++[u.context] }.triggerTx _).bind _ = _
    rw [ht.ready, nil_append, hcontext, bind_some, TsoUnit.datas, foldlM_append,
      process_front _ _ [] rfl]
    change bind ({ t with readySegments := u.descs }.triggerTx (u.count-1+2)) _ = _
    rw [hrun]
    rfl
  · have := hframes j f hj
    rwa [zero_add] at this

end Arrival

/-! ### The frames of a unit -/

namespace TsoUnit

variable {u : TsoUnit}

lemma length_le_count : u.bytes.length ≤ u.hdrlen+u.count*u.mss := by
  have h : ¬ u.count-1+1 < u.count := by omega
  rw [succ_lt_count] at h
  exact not_lt.mp h

lemma flatten_payload (n : ℕ) :
    ((range n).map u.payload).flatten = (u.bytes.drop u.hdrlen).take (n*u.mss) := by
  induction n with
  | zero => simp
  | succ n ih =>
    rw [range_succ, map_append, flatten_append, ih, succ_mul, take_add, drop_drop]
    simp [payload]

end TsoUnit

/-- What the frames of a unit are, and what is put out after them. -/
structure Segmented (u : TsoUnit) (t t' : Tx) (frames : List (List UInt8)) : Prop where
  out : t'.out = t.out++frames.map Output.frame++u.completion
  idle : t'.Idle
  hdrlen_le : ∀ f ∈ frames, u.hdrlen ≤ f.length
  length_le : ∀ f ∈ frames, f.length ≤ u.hdrlen+u.mss
  length_eq : ∀ k f, frames[k]? = some f → k+1 < frames.length → f.length = u.hdrlen+u.mss
  payload : (frames.map fun f => f.drop u.hdrlen).flatten = u.bytes.drop u.hdrlen
  seq : ∀ k f, frames[k]? = some f → beAt (mem f) 4 u.seqAt = (beAt (mem u.bytes) 4 u.seqAt+
    ((frames.take k).map fun f => f.drop u.hdrlen).flatten.length) % 2^32
  id : ∀ k f, frames[k]? = some f → beAt (mem f) 2 u.idAt = (beAt (mem u.bytes) 2 u.idAt+k) % 2^16
  header : ∀ f ∈ frames, ∀ i < u.hdrlen, ¬ u.Rewritten i → mem f i = mem u.bytes i

section Frames

variable {u : TsoUnit} {frames : List (List UInt8)}

lemma payloads_eq (h : ∀ j f, frames[j]? = some f → Segment u j f) :
    frames.map (fun f => f.drop u.hdrlen) = (range frames.length).map u.payload := by
  apply ext_getElem
  · simp
  · intro j hj hj'
    have hlt : j < frames.length := by simpa using hj
    simpa using (h j _ (getElem?_eq_getElem hlt)).payload

lemma Segment.length_eq {k : ℕ} {f : List UInt8} (h : Segment u k f) :
    f.length = u.hdrlen+(u.payload k).length := by
  have hle := h.hdrlen_le
  rw [← h.payload, length_drop]
  omega

lemma exists_segment (h : ∀ j f, frames[j]? = some f → Segment u j f) {f : List UInt8}
    (hf : f ∈ frames) : ∃ k, Segment u k f := by
  obtain ⟨k,hk⟩ := mem_iff_getElem?.mp hf
  exact ⟨k,h k f hk⟩

end Frames

theorem tso_segments (u : TsoUnit) (hu : Framed u) (t : Tx) (ht : t.Idle) :
    ∃ t' frames, Sends u.descs t t' ∧ Segmented u t t' frames := by
  obtain ⟨frames,t',hsends,hidle,hout,hcount,hseg⟩ := sends_unit hu ht
  have hpay := payloads_eq hseg
  refine ⟨t',frames,hsends,hout,hidle,?_,?_,?_,?_,?_,?_,?_⟩
  · intro f hf
    obtain ⟨k,hk⟩ := exists_segment hseg hf
    exact hk.hdrlen_le
  · intro f hf
    obtain ⟨k,hk⟩ := exists_segment hseg hf
    rw [hk.length_eq, TsoUnit.length_payload]
    omega
  · intro k f hf hk
    rw [hcount, TsoUnit.succ_lt_count, succ_mul] at hk
    rw [(hseg k f hf).length_eq, TsoUnit.length_payload]
    omega
  · have hle := u.length_le_count
    rw [hpay, TsoUnit.flatten_payload, hcount, take_of_length_le]
    rw [length_drop]
    omega
  · intro k f hf
    -- the frames before it are full
    have hlt : k < u.count := hcount ▸ (List.getElem?_eq_some_iff.mp hf).1
    have hle := TsoUnit.start_le hlt
    have htake : ((frames.take k).map fun f => f.drop u.hdrlen).flatten.length = k*u.mss := by
      rw [map_take, hpay, ← map_take, take_range, min_eq_left (by omega),
        TsoUnit.flatten_payload, length_take, length_drop]
      omega
    rw [htake]
    exact (hseg k f hf).header.seq
  · exact fun k f hf => (hseg k f hf).header.id
  · intro f hf
    obtain ⟨k,hk⟩ := exists_segment hseg hf
    exact hk.header.rest

def sentFrames (out : List Output) : List (List UInt8) := out.filterMap fun o => match o with
    | .frame f => some f
    | _ => none

lemma sentFrames_append (a b : List Output) : sentFrames (a++b) = sentFrames a++sentFrames b :=
    filterMap_append

lemma sentFrames_map (frames : List (List UInt8)) :
    sentFrames (frames.map Output.frame) = frames := by
  rw [sentFrames, filterMap_map]
  exact filterMap_some

def idleTx : Tx := ⟨fun _ => 0,0,0,[],[]⟩

/-- Two data descriptors of 30 and 28 bytes, with an IP header of 20 bytes and a
TCP header of 20 bytes; the `mss` is 10. -/
def smallUnit : TsoUnit where
  context := ⟨0,1+1*2^4+10*2^50,[],by decide⟩
  front := [⟨1,30*2^34,replicate 30 1,by decide⟩]
  last := ⟨2,1*2^4+(5*2^7+5*2^14)*2^16+28*2^34,replicate 28 2,by decide⟩
  context_dtype := by decide
  context_tso := by decide
  data_dtype := by decide
  data_ne_nil := by decide
  front_eop := by decide
  last_eop := by decide
  mss_pos := by decide
  iplen_le := by decide
  l4len_le := by decide
  hdrlen_le := by decide
  fits := by decide

theorem tso_segments_small : (smallUnit.descs.foldlM (Tx.process 4) idleTx).map (fun t =>
      (sentFrames t.out).map length) = some [50,48] ∧
    ∃ t' frames, Sends smallUnit.descs idleTx t' ∧ Segmented smallUnit idleTx t' frames :=
  ⟨by decide +kernel,tso_segments smallUnit ⟨by decide,by decide⟩ idleTx ⟨rfl,rfl,rfl⟩⟩

/-- The segments of a unit, and then a report for each of its descriptors. -/
def Transmitted (u : TsoUnit) (out : List Output) : Prop := ∃ frames : List (List UInt8),
  out = frames.map .frame++u.completion ∧ frames.length = u.count ∧
  ∀ j f, frames[j]? = some f → Segment u j f

/-- Units that arrive one after the other are transmitted in that order, and the
queue is done with each of them. -/
theorem units_transmitted (us : List TsoUnit) (hus : ∀ u ∈ us, Framed u) (t : Tx) (ht : t.Idle) :
    ∃ t' outs, Sends (us.flatMap TsoUnit.descs) t t' ∧ t'.Idle ∧ t'.out = t.out++outs.flatten ∧
      Forall₂ Transmitted us outs := by
  induction us generalizing t with
  | nil => exact ⟨t,[],⟨0,fun _ _ => rfl⟩,ht,by simp,.nil⟩
  | cons u us ih =>
    obtain ⟨frames,t₁,hu,hidle,hout,hseg⟩ := sends_unit (hus u mem_cons_self) ht
    obtain ⟨t',outs,hs,hidle',hout',hall⟩ := ih (fun v hv => hus v (mem_cons_of_mem u hv)) t₁ hidle
    refine ⟨t',_::outs,hu.append hs,hidle',?_,.cons ⟨frames,rfl,hseg⟩ hall⟩
    rw [hout', hout, flatten_cons, append_assoc, append_assoc, append_assoc]

theorem units_transmitted_both :
    (((replicate 2 smallUnit).flatMap TsoUnit.descs).foldlM (Tx.process 4) idleTx).map (fun t =>
      (sentFrames t.out).map length) = some [50,48,50,48] ∧
    ∃ t' outs, Sends ((replicate 2 smallUnit).flatMap TsoUnit.descs) idleTx t' ∧ t'.Idle ∧
      t'.out = idleTx.out++outs.flatten ∧ Forall₂ Transmitted (replicate 2 smallUnit) outs := by
  have hframed : Framed smallUnit := ⟨by decide,by decide⟩
  refine ⟨by decide +kernel,units_transmitted _ ?_ idleTx ⟨rfl,rfl,rfl⟩⟩
  exact fun u hu => eq_of_mem_replicate hu ▸ hframed

/-- An IP header of 20 bytes and no TCP header in front of 20 bytes of payload. -/
def bareUnit : TsoUnit where
  context := ⟨0,1+1*2^4+20*2^50,[],by decide⟩
  front := []
  last := ⟨1,1*2^4+5*2^7*2^16+40*2^34,replicate 40 0,by decide⟩
  context_dtype := by decide
  context_tso := by decide
  data_dtype := by decide
  data_ne_nil := by decide
  front_eop := by decide
  last_eop := by decide
  mss_pos := by decide
  iplen_le := by decide
  l4len_le := by decide
  hdrlen_le := by decide
  fits := by decide

/-- The checksum of the missing TCP header is written into the payload. -/
theorem payload_overwritten :
    ¬ ∃ t' frames, Sends bareUnit.descs idleTx t' ∧ Segmented bareUnit idleTx t' frames := by
  rintro ⟨t',frames,hsends,hseg⟩
  have hrun : (bareUnit.descs.foldlM (Tx.process 3) idleTx).map (fun t =>
      ((sentFrames t.out).map fun f => f.drop 20).flatten) =
        some (replicate 16 0++[0xff,0xeb,0,0]) := by decide +kernel
  obtain ⟨_,ht₁,hframes⟩ := map_eq_some_iff.mp hrun
  obtain rfl := hsends.unique (sends_of_fuel 3 ht₁)
  have hsent : sentFrames t'.out = frames := by
    have hdone : sentFrames bareUnit.completion = [] := by decide
    rw [hseg.out, sentFrames_append, sentFrames_append, sentFrames_map, hdone, append_nil]
    rfl
  rw [hsent] at hframes
  have hpayload := hframes.symm.trans hseg.payload
  revert hpayload
  decide

end SimBricks.I40eTx
