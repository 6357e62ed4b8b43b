import SimBricks.Dist.Base
import SimBricks.Library.Ring

/-!
# One queue through the proxies

The ring of the producing simulator, its copy for the consuming simulator,
and what the two streams carry about them. Positions are counted without
bound here. They follow each other around the ring: cleaned, next to clean,
freed, taken, received, forwarded, produced, and the last is less than a
round ahead of the first.
-/

set_option autoImplicit false

namespace SimBricks.Flow
open Library Library.Bytes BaseIf Proxy List Nat

inductive Ahead where
  | entries (e : Entries)
  | written (pos : ℕ)

/-- From `received` and `last` on, the messages bring the receiving side up to
what was forwarded and reported. -/
def Carried (q : Queue) (produced : List (List UInt8)) (forwarded reported : ℕ) :
    ℕ → ℕ → List Ahead → Prop
  | received, last, [] => received = forwarded ∧ last = reported
  | received, last, .entries e::rest =>
    e.pos = received % q.enum ∧ received % q.enum+e.num ≤ q.enum ∧
    e.data = ((produced.drop received).take e.num).flatten ∧
    received+e.num ≤ produced.length ∧
    Carried q produced forwarded reported (received+e.num) last rest
  | received, last, .written pos::rest => ∃ w, pos = w % q.enum ∧ last ≤ w ∧ w ≤ received ∧
    Carried q produced forwarded reported received w rest

/-- From `cleaned` on, the reports bring the producing side up to what the
receiving side has reported. -/
def Returned (q : Queue) (reported : ℕ) : ℕ → List ℕ → Prop
  | cleaned, [] => cleaned = reported
  | cleaned, pos::rest => ∃ c, pos = c % q.enum ∧ cleaned ≤ c ∧ Returned q reported c rest

/-- The positions that the code keeps modulo the ring, without bound. -/
structure Counts where
  cleaned : ℕ := 0
  reported : ℕ := 0
  last : ℕ := 0
  next : ℕ := 0
  cleanReported : ℕ := 0

def Free (cell : List UInt8) : Prop := proOwned (cell.getD kOwnType 0)

structure FlowInv (q : Queue) (l : Local) (c : Cleanup) (ahead : List Ahead) (back : List ℕ)
    (k : Counts) : Prop where
  pos : l.pos = l.forwarded % q.enum
  posReported : l.posReported = k.reported % q.enum
  posCleaned : l.posCleaned = k.cleaned % q.enum
  lastSentPos : (l.lastSentPos+1) % 2^32 % q.enum = l.pos
  outPos : l.outPos = l.produced.length % q.enum
  posNext : c.posNext = k.next % q.enum
  posLast : c.posLast = k.last % q.enum
  cleanReported : c.posReported = k.cleanReported % q.enum
  inPos : c.inPos = c.consumed.length % q.enum
  cleanReported_le : k.cleanReported ≤ k.next
  next_le_freed : k.next ≤ c.freed
  next_le_last : k.next ≤ k.last
  last_le : k.last ≤ c.received
  freed_le : c.freed ≤ c.consumed.length
  taken_le : c.consumed.length ≤ c.received
  reported_le : k.reported ≤ l.forwarded
  forwarded_le : l.forwarded ≤ l.produced.length
  produced_le : l.produced.length ≤ k.cleaned+q.enum
  forwarded_lt : l.forwarded < k.cleaned+q.enum
  carried : Carried q l.produced l.forwarded k.reported c.received k.last ahead
  returned : Returned q k.cleanReported k.cleaned back
  sized : ∀ m ∈ l.produced, m.length = q.elen ∧ conOwned (m.getD kOwnType 0)
  localRing : Ring.Holds q.enum Eq Free k.cleaned l.produced (block q.elen l.mem)
  remoteRing : Ring.Holds q.enum Eq Free c.freed (l.produced.take c.received)
    (block q.elen c.mem)
  consumed : c.consumed = l.produced.take c.consumed.length

variable {e : Entries} {p : ℕ}

section
variable {q : Queue} {produced : List (List UInt8)} {forwarded reported received last : ℕ}
  {ahead : List Ahead}

variable (h : Carried q produced forwarded reported received last ahead)
include h

lemma Carried.le : received ≤ forwarded ∧ last ≤ reported := by
  induction ahead generalizing received last with
  | nil => exact ⟨h.1.le,h.2.le⟩
  | cons x rest ih =>
    cases x with
    | entries =>
      obtain ⟨-,-,-,-,h⟩ := h
      obtain ⟨hr,hl⟩ := ih h
      exact ⟨by omega,hl⟩
    | written =>
      obtain ⟨w,-,_,-,h⟩ := h
      obtain ⟨hr,hl⟩ := ih h
      exact ⟨hr,by omega⟩

lemma Carried.append_produced (entry : List UInt8) :
    Carried q (produced++[entry]) forwarded reported received last ahead := by
  induction ahead generalizing received last with
  | nil => exact h
  | cons x rest ih =>
    cases x with
    | entries =>
      obtain ⟨hpos,hround,hdata,_,h⟩ := h
      refine ⟨hpos,hround,?_,by simp; omega,ih h⟩
      rw [hdata, drop_append_of_le_length (by omega), take_append_of_le_length (by simp; omega)]
    | written =>
      obtain ⟨w,hpos,hw,hr,h⟩ := h
      exact ⟨w,hpos,hw,hr,ih h⟩

lemma Carried.append {forwarded' reported' : ℕ} {sent : List Ahead}
    (hsent : Carried q produced forwarded' reported' forwarded reported sent) :
    Carried q produced forwarded' reported' received last (ahead++sent) := by
  induction ahead generalizing received last with
  | nil =>
    obtain ⟨rfl,rfl⟩ := h
    exact hsent
  | cons x rest ih =>
    cases x with
    | entries =>
      obtain ⟨hpos,hround,hdata,hle',h⟩ := h
      exact ⟨hpos,hround,hdata,hle',ih h⟩
    | written =>
      obtain ⟨w,hpos,hw,hr,h⟩ := h
      exact ⟨w,hpos,hw,hr,ih h⟩

omit h

lemma Returned.le {cleaned : ℕ} {back : List ℕ} (h : Returned q reported cleaned back) :
    cleaned ≤ reported := by
  induction back generalizing cleaned with
  | nil => exact le_of_eq h
  | cons pos rest ih =>
    obtain ⟨c,-,hc,h⟩ := h
    exact hc.trans (ih h)

lemma Returned.append {cleaned next : ℕ} {back : List ℕ} (h : Returned q reported cleaned back)
    (hle : reported ≤ next) : Returned q next cleaned (back++[next % q.enum]) := by
  induction back generalizing cleaned with
  | nil =>
    obtain rfl := h
    exact ⟨next,rfl,hle,rfl⟩
  | cons pos rest ih =>
    obtain ⟨c,hpos,hc,h⟩ := h
    exact ⟨c,hpos,hc,ih h⟩

end

/-! ## Positions and cells -/

section
variable {q : Queue}

lemma Queue.own_lt (q : Queue) : kOwnType < q.elen := lt_of_lt_of_le (by decide) q.header

lemma Queue.pos_mod_lt (q : Queue) (p : ℕ) : p % q.enum < q.enum :=
  mod_lt p (lt_of_lt_of_le (by decide) q.two)

/-- All offsets of the queue fit in 32 bits. -/
def Small (q : Queue) : Prop := (q.enum-1)*q.elen < 2^32

lemma Small.offset (h : Small q) (hp : p < q.enum) : q.offset p = p*q.elen := by
  have hle : p*q.elen ≤ (q.enum-1)*q.elen := mul_le_mul_right _ (le_sub_one_of_lt hp)
  exact mod_eq_of_lt (hle.trans_lt h)

lemma Small.length (h : Small q) (hp : p < q.enum) : q.length p = p*q.elen := h.offset hp

lemma next_mod (q : Queue) (p : ℕ) : q.next (p % q.enum) = (p+1) % q.enum := by
  unfold Queue.next
  rw [add_mod_eq_ite, mod_eq_of_lt (by have := q.two; omega : 1 < q.enum)]

lemma mod_add_of_lt (q : Queue) {j : ℕ} (h : p % q.enum+j < q.enum) :
    (p+j) % q.enum = p % q.enum+j := by
  rw [add_mod, mod_eq_of_lt (by omega : j < q.enum), mod_eq_of_lt h]

lemma ownAt_block (m : Memory) (i : ℕ) :
    ownAt m (i*q.elen) = (block q.elen m i).getD kOwnType 0 :=
  (getD_block m i (Queue.own_lt q) 0).symm

lemma block_release (m : Memory) (i : ℕ) :
    ∃ cell, Free cell ∧
    block q.elen (release m (i*q.elen)) = Function.update (block q.elen m) i cell := by
  refine ⟨_,?_,block_store_byte m i (Queue.own_lt q) _⟩
  have hlt : kOwnType < (block q.elen m i).length := by simpa using Queue.own_lt q
  rw [Free, getD_eq_getElem?_getD, getElem?_set_self hlt, Option.getD_some]
  exact proOwned_doneType _

lemma free_iff (cell : List UInt8) : Free cell ↔ ¬ conOwned (cell.getD kOwnType 0) := by
  rw [Free, proOwned_eq_not]
  simp

end

section
variable {q : Queue} {l : Local} {c : Cleanup} {ahead : List Ahead} {back : List ℕ} {k : Counts}

namespace FlowInv

lemma init (q : Queue) : FlowInv q {} {} [] [] {} where
  pos := (zero_mod _).symm
  posReported := (zero_mod _).symm
  posCleaned := (zero_mod _).symm
  lastSentPos := by simp
  outPos := (zero_mod _).symm
  posNext := (zero_mod _).symm
  posLast := (zero_mod _).symm
  cleanReported := (zero_mod _).symm
  inPos := (zero_mod _).symm
  cleanReported_le := le_rfl
  next_le_freed := le_rfl
  next_le_last := le_rfl
  last_le := le_rfl
  freed_le := le_rfl
  taken_le := le_rfl
  reported_le := le_rfl
  forwarded_le := le_rfl
  produced_le := zero_le _
  forwarded_lt := by have := q.two; simp; omega
  carried := ⟨rfl,rfl⟩
  returned := rfl
  sized := by simp
  localRing := Ring.Holds.empty fun i => by
    rw [Free, ← ownAt_block]
    exact (by decide : proOwned 0)
  remoteRing := Ring.Holds.empty fun i => by
    rw [Free, ← ownAt_block]
    exact (by decide : proOwned 0)
  consumed := rfl

variable (h : FlowInv q l c ahead back k)
include h

lemma order :
    k.cleaned ≤ k.cleanReported ∧ k.cleanReported ≤ k.next ∧ k.next ≤ c.freed ∧
    c.freed ≤ c.consumed.length ∧ c.consumed.length ≤ c.received ∧ c.received ≤ l.forwarded ∧
    l.forwarded ≤ l.produced.length ∧ l.produced.length ≤ k.cleaned+q.enum ∧
    l.forwarded < k.cleaned+q.enum :=
  ⟨h.returned.le,h.cleanReported_le,h.next_le_freed,h.freed_le,h.taken_le,h.carried.le.1,
    h.forwarded_le,h.produced_le,h.forwarded_lt⟩

lemma local_cell (hp : k.cleaned ≤ p) (hlt : p < l.produced.length) :
    block q.elen l.mem (p % q.enum) = l.produced[p] :=
  (h.localRing.full p _ hp (getElem?_eq_getElem hlt)).symm

lemma local_con (hlt : p < k.cleaned+q.enum) (hcon : conOwned (ownAt l.mem (p % q.enum*q.elen))) :
    p < l.produced.length := by
  by_contra hge
  rw [ownAt_block] at hcon
  exact (free_iff _).mp (h.localRing.free p (by omega) hlt) hcon

lemma local_not_pro (hp : k.cleaned ≤ p) (hlt : p < l.produced.length) :
    ¬ proOwned (ownAt l.mem (p % q.enum*q.elen)) := by
  rw [ownAt_block, h.local_cell hp hlt]
  exact fun hpro => (free_iff _).mp hpro (h.sized _ (getElem_mem hlt)).2

/-- An entry that is received and not freed is in its cell of the remote ring. -/
lemma remote_cell (hp : c.freed ≤ p) (hlt : p < c.received) (hlt' : p < l.produced.length) :
    block q.elen c.mem (p % q.enum) = l.produced[p] := by
  refine (h.remoteRing.full p _ hp ?_).symm
  rw [getElem?_take_of_lt hlt, getElem?_eq_getElem hlt']

lemma length_received : (l.produced.take c.received).length = c.received := by
  have := h.order
  rw [length_take]
  omega

lemma remote_free (hp : c.received ≤ p) (hlt : p < c.freed+q.enum) :
    proOwned (ownAt c.mem (p % q.enum*q.elen)) := by
  rw [ownAt_block]
  exact h.remoteRing.free p (by rw [h.length_received]; exact hp) hlt

lemma remote_not_pro (hp : c.freed ≤ p) (hlt : p < c.received) :
    ¬ proOwned (ownAt c.mem (p % q.enum*q.elen)) := by
  have hlt' : p < l.produced.length := by have := h.order; omega
  rw [ownAt_block, h.remote_cell hp hlt hlt']
  exact fun hpro => (free_iff _).mp hpro (h.sized _ (getElem_mem hlt')).2

/-! ## The simulators -/

lemma produce (entry : List UInt8) : FlowInv q (l.produce q entry) c ahead back k := by
  unfold Local.produce
  split_ifs with hif
  · obtain ⟨hlen,hcon,hpro⟩ := hif
    have hord := h.order
    have hroom : l.produced.length < k.cleaned+q.enum := by
      by_contra hge
      have heq : l.produced.length = k.cleaned+q.enum := by omega
      rw [h.outPos, heq, add_mod_right] at hpro
      exact h.local_not_pro le_rfl (by omega) hpro
    have hring := h.localRing.push (m := entry) (by omega) hroom rfl
    rw [← block_store _ _ hlen, ← h.outPos] at hring
    exact { h with
      outPos := by
        rw [length_append, length_singleton, h.outPos, mod_add_mod]
      forwarded_le := by simp; omega
      produced_le := by simp; omega
      carried := h.carried.append_produced entry
      sized := by
        intro m hm
        rcases mem_append.mp hm with hm | hm
        · exact h.sized m hm
        · obtain rfl := mem_singleton.mp hm
          exact ⟨hlen,hcon⟩
      localRing := hring
      remoteRing := by
        rw [take_append_of_le_length (by omega)]
        exact h.remoteRing
      consumed := by
        rw [take_append_of_le_length (by omega)]
        exact h.consumed }
  · exact h

lemma take : FlowInv q l (c.take q) ahead back k := by
  unfold Cleanup.take
  split_ifs with hcon
  · have hord := h.order
    have hlt : c.consumed.length < c.received := by
      by_contra hge
      rw [h.inPos, ownAt_block] at hcon
      have hfree := h.remote_free (p := c.consumed.length) (by omega) (by omega)
      rw [ownAt_block] at hfree
      exact (free_iff _).mp hfree hcon
    have hlt' : c.consumed.length < l.produced.length := by omega
    have hcell := h.remote_cell (by omega) hlt hlt'
    exact { h with
      inPos := by
        rw [length_append, length_singleton, h.inPos, mod_add_mod]
      freed_le := by simp; omega
      taken_le := by simp; omega
      consumed := by
        rw [length_append, length_singleton, h.inPos]
        change c.consumed++[block q.elen c.mem (c.consumed.length % q.enum)] = _
        rw [hcell, take_succ_eq_append_getElem hlt', ← h.consumed] }
  · exact h

lemma free : FlowInv q l (c.free q) ahead back k := by
  unfold Cleanup.free
  split_ifs with hlt
  · have hord := h.order
    obtain ⟨_,hfree,hblock⟩ := block_release c.mem (c.freed % q.enum)
    have hring := h.remoteRing.pop (by rw [h.length_received]; omega)
      (by rw [h.length_received]; omega) hfree
    rw [← hblock] at hring
    exact { h with
      next_le_freed := by simp; omega
      freed_le := by simp; omega
      remoteRing := hring }
  · exact h

omit h

end FlowInv

/-! ## Polling -/

def Ready (q : Queue) (l : Local) (j : ℕ) : Prop :=
  l.pos+j < q.enum ∧ (l.pos+j+1) % q.enum ≠ l.posCleaned ∧
  conOwned (ownAt l.mem (q.offset (l.pos+j)))

lemma scan_spec (q : Queue) (l : Local) (left n : ℕ) :
    n ≤ l.scan q left n ∧ l.scan q left n ≤ n+left ∧
    (∀ j, n ≤ j → j < l.scan q left n → Ready q l j) ∧
    (l.scan q left n < n+left → ¬ Ready q l (l.scan q left n)) := by
  induction left generalizing n with
  | zero =>
    exact ⟨le_rfl,le_rfl,fun j hj hlt => absurd hlt (not_lt.mpr hj),by simp [Local.scan]⟩
  | succ left ih =>
    unfold Local.scan
    split_ifs with hif
    · obtain ⟨_,_,hall,hstop⟩ := ih (n+1)
      refine ⟨by omega,by omega,fun j hj hlt => ?_,fun hlt => hstop (by omega)⟩
      rcases eq_or_lt_of_le hj with rfl | hj
      · exact hif
      · exact hall j hj hlt
    · exact ⟨le_rfl,by omega,fun j hj hlt => by omega,fun _ => hif⟩

variable (h : FlowInv q l c ahead back k)
include h

/-- The entries that the loop passes are produced, and leave a gap to the cleaned ones. -/
lemma FlowInv.ready_room (hs : Small q) {n : ℕ} (hready : ∀ j, j < n → Ready q l j) :
    l.forwarded+n ≤ l.produced.length ∧ l.forwarded+n < k.cleaned+q.enum := by
  induction n with
  | zero => exact ⟨h.forwarded_le,h.forwarded_lt⟩
  | succ n ih =>
    obtain ⟨-,hroom⟩ := ih fun j hj => hready j (by omega)
    obtain ⟨hlt,hgap,hcon⟩ := hready n (by omega)
    rw [hs.offset hlt, h.pos, ← mod_add_of_lt q (h.pos ▸ hlt)] at hcon
    have hmade := h.local_con hroom hcon
    refine ⟨hmade,?_⟩
    have hne : l.forwarded+n+1 ≠ k.cleaned+q.enum := by
      intro heq
      apply hgap
      rw [h.posCleaned, h.pos, add_assoc, mod_add_mod, ← add_assoc, heq, add_mod_right]
    omega

lemma FlowInv.load_entries {n : ℕ} (hround : l.forwarded % q.enum+n ≤ q.enum)
    (hle : l.forwarded+n ≤ l.produced.length) :
    load l.mem (l.pos*q.elen) (n*q.elen) = ((l.produced.drop l.forwarded).take n).flatten := by
  rw [load_blocks]
  congr 1
  apply ext_getElem
  · simp
    omega
  · intro j hj hj'
    have hjn : j < n := by simpa using hj
    rw [getElem_map, getElem_range, getElem_take, getElem_drop, h.pos, ← mod_add_of_lt q (by omega)]
    exact h.local_cell (by have := h.order; omega) (by omega)

inductive Transferred (q : Queue) (l : Local) (c : Cleanup) (ahead : List Ahead) (back : List ℕ)
    (k : Counts) : Option (Local × Option Entries × Bool) → Prop
  | aborted (h : kTxbufSize < kPollMax*q.elen) : Transferred q l c ahead back k none
  | idle (h : ¬ Ready q l 0) : Transferred q l c ahead back k (some (l,none,false))
  | passed (l' : Local) (e : Entries) (hpos : 0 < e.num) (hmax : e.num ≤ kPollMax)
      (hround : l.forwarded % q.enum+e.num ≤ q.enum)
      (hforwarded : l'.forwarded = l.forwarded+e.num) (hreported : l'.posReported = l.posReported)
      (hproduced : l'.produced = l.produced)
      (hinv : FlowInv q l' c (ahead++[.entries e]) back k) :
      Transferred q l c ahead back k (some (l',some e,
        decide (q.unreported l'.pos l'.posReported ≥ kPollReportThreshold)))

lemma FlowInv.transfer (hs : Small q) : Transferred q l c ahead back k (l.transfer q) := by
  obtain ⟨-,hmax,hall,hstop⟩ := scan_spec q l kPollMax 0
  unfold Local.transfer
  generalize l.scan q kPollMax 0 = n at hmax hall hstop
  by_cases hn : n > 0
  · obtain ⟨hle,hlt⟩ := h.ready_room hs fun j hj => hall j (zero_le j) hj
    have hord := h.order
    have hround : l.forwarded % q.enum+n ≤ q.enum := by
      obtain ⟨hr,-⟩ := hall (n-1) (zero_le _) (by omega)
      rw [h.pos] at hr
      omega
    have hlen : q.length n = n*q.elen := hs.length (by omega)
    have hposlt : l.pos < q.enum := h.pos ▸ Queue.pos_mod_lt q _
    simp only [if_pos hn, Local.passEntries, hlen]
    by_cases hbig : n*q.elen > kTxbufSize
    · rw [if_pos hbig]
      exact .aborted (lt_of_lt_of_le hbig (mul_le_mul_right _ hmax))
    · have hlast : ¬ (l.lastSentPos+1) % 2^32 % q.enum ≠ l.pos := not_not.mpr h.lastSentPos
      have hnew : (if l.pos+n < q.enum then l.pos+n else l.pos+n-q.enum) =
          (l.forwarded+n) % q.enum := by
        rw [h.pos]
        split_ifs with hif
        · exact (mod_add_of_lt q hif).symm
        · have heq : l.forwarded % q.enum+n = q.enum := by omega
          rw [heq, Nat.sub_self, ← Nat.mod_add_mod, heq, Nat.mod_self]
      simp only [if_neg hbig, if_neg hlast, hnew]
      refine .passed _ ⟨n,l.pos,_⟩ hn hmax hround rfl rfl rfl ?_
      exact { h with
        pos := rfl
        lastSentPos := by
          have hfit : l.pos+n < 2^32 := by
            have := q.enumFits
            rw [h.pos]
            omega
          rw [Nat.sub_add_cancel (by omega), Nat.mod_eq_of_lt hfit, h.pos, Nat.mod_add_mod]
        reported_le := by have := h.reported_le; simp; omega
        forwarded_le := hle
        forwarded_lt := hlt
        carried := by
          refine h.carried.append ⟨h.pos,hround,?_,hle,rfl,rfl⟩
          rw [hs.offset hposlt]
          exact h.load_entries hround hle }
  · obtain rfl : n = 0 := by omega
    exact .idle (hstop (by decide))

/-- The loop of `PollPeerCleanup` passes freed entries only, and the first one if it is freed. -/
lemma FlowInv.cleanup_scan (hs : Small q) (left cnt p : ℕ) (hcnt : cnt+left = kCleanupMax+1)
    (hp : k.next ≤ p) (hlast : p < k.last) :
    ∃ m, m ≤ left ∧ c.scan q left (p % q.enum) cnt = ((p+m) % q.enum,cnt+m) ∧ p+m ≤ k.last ∧
    (p ≤ c.freed → p+m ≤ c.freed) ∧ (0 < left → p < c.freed → 0 < m) := by
  have hord := h.order
  have hlr := h.last_le
  induction left generalizing cnt p with
  | zero => exact ⟨0,le_rfl,rfl,hlast.le,id,fun hlt => absurd hlt (lt_irrefl 0)⟩
  | succ left ih =>
    unfold Cleanup.scan
    rw [hs.offset (Queue.pos_mod_lt q p), next_mod]
    by_cases hpro : proOwned (ownAt c.mem (p % q.enum*q.elen))
    · have hfreed : p < c.freed := by
        by_contra hge
        exact h.remote_not_pro (by omega) (by omega) hpro
      split_ifs with hif
      · have hne : p+1 ≠ k.last := by
          intro heq
          exact hif.2 (by rw [heq, h.posLast])
        obtain ⟨m,_,hscan,_,hfree,-⟩ := ih (cnt+1) (p+1) (by omega) (by omega) (by omega)
        refine ⟨m+1,by omega,?_,by omega,fun _ => by omega,by omega⟩
        rw [hscan, add_assoc, add_comm 1 m, add_assoc cnt, add_comm 1 m]
      · exact ⟨1,by omega,rfl,by omega,fun _ => by omega,by omega⟩
    · rw [if_neg hpro]
      refine ⟨0,by omega,rfl,hlast.le,id,fun _ hfreed => absurd ?_ hpro⟩
      have hfree := h.remote_free (p := p+q.enum) (by omega) (by omega)
      rwa [add_mod_right] at hfree

lemma FlowInv.poll (hs : Small q) : ∃ m, m ≤ kCleanupMax+1 ∧
    (k.next < k.last → k.next < c.freed → 0 < m) ∧
    c.poll q = ({ c with posNext := (k.next+m) % q.enum },
        decide (0 < m ∧ q.unreported ((k.next+m) % q.enum) c.posReported ≥ kCleanReportThreshold)) ∧
      FlowInv q l { c with posNext := (k.next+m) % q.enum } ahead back
        { k with next := k.next+m } := by
  have hord := h.order
  have hlr := h.last_le
  have hnl := h.next_le_last
  have hkeep : ∀ m, k.next+m ≤ k.last → k.next+m ≤ c.freed →
      FlowInv q l { c with posNext := (k.next+m) % q.enum } ahead back
        { k with next := k.next+m } := fun m hml hmf =>
    { h with
      posNext := rfl
      cleanReported_le := by simp; omega
      next_le_freed := hmf
      next_le_last := hml }
  unfold Cleanup.poll
  by_cases heq : c.posNext = c.posLast
  · have hsame : k.next = k.last := by
      rw [h.posNext, h.posLast] at heq
      exact (Ring.mod_eq_iff (by omega) (by omega)).mp heq
    refine ⟨0,by omega,by omega,?_,hkeep 0 (by omega) (by omega)⟩
    rw [if_pos heq, add_zero, ← h.posNext]
    simp
  · have hlt : k.next < k.last := by
      rcases eq_or_lt_of_le hnl with hsame | hlt
      · exact absurd (by rw [h.posNext, h.posLast, hsame]) heq
      · exact hlt
    obtain ⟨m,hm,hscan,hml,hmf,hpos⟩ :=
      h.cleanup_scan hs (kCleanupMax+1) 0 k.next (by omega) le_rfl hlt
    refine ⟨m,hm,fun _ => hpos (by omega),?_,hkeep m hml (hmf (by omega))⟩
    rw [if_neg heq, h.posNext, hscan, zero_add]

/-! ## Reporting -/

lemma FlowInv.report_written :
    FlowInv q { l with posReported := l.pos } c (ahead++[.written l.pos]) back
      { k with reported := l.forwarded } :=
  { h with
    posReported := h.pos
    reported_le := le_rfl
    carried := by
      rw [h.pos]
      exact h.carried.append ⟨_,rfl,h.reported_le,le_rfl,rfl,rfl⟩ }

lemma FlowInv.report_clean :
    FlowInv q l { c with posReported := c.posNext } ahead (back++[c.posNext])
      { k with cleanReported := k.next } :=
  { h with
    cleanReported := h.posNext
    cleanReported_le := le_rfl
    returned := by
      rw [h.posNext]
      exact h.returned.append h.cleanReported_le }

omit h

/-! ## Receiving -/

lemma FlowInv.written {pos : ℕ} (h : FlowInv q l c (.written pos::ahead) back k) :
    ∃ w, FlowInv q l { c with posLast := pos } ahead back { k with last := w } := by
  obtain ⟨w,hpos,hle,hr,hcarried⟩ := h.carried
  exact ⟨w,{ h with
    posLast := hpos
    next_le_last := h.next_le_last.trans hle
    last_le := hr
    carried := hcarried }⟩

/-- The loop of `BasePeerReport` ends, and has released the entries up to the reported one. -/
lemma clean_spec (hs : Small q) (left p cleaned : ℕ) (m : Memory) (hle : cleaned ≤ p)
    (hleft : p ≤ cleaned+left) (hround : p < cleaned+q.enum) {log : List (List UInt8)}
    (hlog : p ≤ log.length) (hlen : log.length ≤ cleaned+q.enum)
    (hring : Ring.Holds q.enum Eq Free cleaned log (block q.elen m)) :
    ∃ m', clean q (p % q.enum) left (cleaned % q.enum) m = some m' ∧
    Ring.Holds q.enum Eq Free p log (block q.elen m') := by
  induction left generalizing cleaned m with
  | zero =>
    obtain rfl : p = cleaned := by omega
    exact ⟨m,if_pos rfl,hring⟩
  | succ left ih =>
    unfold clean
    rcases eq_or_lt_of_le hle with rfl | hlt
    · exact ⟨m,if_pos rfl,hring⟩
    · have hne : ¬ cleaned % q.enum = p % q.enum := by
        rw [Ring.mod_eq_iff (by omega) (by omega)]
        omega
      obtain ⟨_,hfree,hblock⟩ := block_release m (cleaned % q.enum)
      have hpop := hring.pop (by omega) hlen hfree
      rw [← hblock] at hpop
      rw [if_neg hne, hs.offset (Queue.pos_mod_lt q cleaned), next_mod]
      exact ih (cleaned+1) _ (by omega) (by omega) (by omega) (by omega) hpop

lemma FlowInv.clean {pos : ℕ} (h : FlowInv q l c ahead (pos::back) k) (hs : Small q) : ∃ m p,
    clean q pos q.enum l.posCleaned l.mem = some m ∧
    FlowInv q { l with mem := m, posCleaned := pos } c ahead back { k with cleaned := p } := by
  have hord := h.order
  obtain ⟨p,rfl,hle,hreturned⟩ := h.returned
  have hple := hreturned.le
  obtain ⟨m,hclean,hring⟩ := clean_spec hs q.enum p k.cleaned l.mem hle (by omega) (by omega)
    (by omega) h.produced_le h.localRing
  refine ⟨m,p,by rw [h.posCleaned, hclean],?_⟩
  exact { h with
    posCleaned := rfl
    produced_le := by simp; omega
    forwarded_lt := by simp; omega
    returned := hreturned
    localRing := hring }

lemma length_entries {log : List (List UInt8)} {received n : ℕ}
    (hsized : ∀ m ∈ log, m.length = q.elen) (hle : received+n ≤ log.length) :
    ((log.drop received).take n).flatten.length = n*q.elen := by
  rw [length_flatten_blocks fun x hx => hsized x (mem_of_mem_drop (mem_of_mem_take hx)),
    length_take, length_drop, min_eq_left (by omega)]

/-- The loop of `SockMsgRxEntries` puts each entry into the cell of its position. -/
lemma rxLoop_spec (hs : Small q) {log : List (List UInt8)} {received : ℕ}
    (hsized : ∀ m ∈ log, m.length = q.elen) (hpos : e.pos = received % q.enum)
    (hround : received % q.enum+e.num ≤ q.enum) (hnum : e.num < q.enum)
    (hdata : e.data = ((log.drop received).take e.num).flatten) (hle : received+e.num ≤ log.length)
    (left i : ℕ) (c : Cleanup) (hi : i+left = e.num) (hc : c.received = received+i)
    (hfreed : c.freed ≤ received+i) (hroom : received+e.num ≤ c.freed+q.enum)
    (hring : Ring.Holds q.enum Eq Free c.freed (log.take (received+i)) (block q.elen c.mem)) :
    ∃ m, Cleanup.rxLoop q e left i c = some { c with mem := m, received := received+e.num } ∧
      Ring.Holds q.enum Eq Free c.freed (log.take (received+e.num)) (block q.elen m) := by
  induction left generalizing i c with
  | zero =>
    obtain rfl : i = e.num := by omega
    refine ⟨c.mem,?_,hring⟩
    rw [Cleanup.rxLoop, ← hc]
  | succ left ih =>
    have hlt : received+i < log.length := by omega
    have hget : ((log.drop received).take e.num)[i]? = some log[received+i] := by
      rw [getElem?_take_of_lt (by omega), getElem?_drop, getElem?_eq_getElem hlt]
    have hentry : (e.data.drop (i*q.elen)).take q.elen = log[received+i] := by
      rw [hdata]
      exact take_drop_flatten (fun x hx => hsized x (mem_of_mem_drop (mem_of_mem_take hx))) hget
    have hlong : i*q.elen+q.elen ≤ e.data.length := by
      rw [hdata, length_entries hsized hle, ← succ_mul]
      exact mul_le_mul_right _ (by omega)
    have hcell : e.pos+i = (received+i) % q.enum := by
      rw [hpos, mod_add_of_lt q (by omega)]
    have hpush := hring.push (m := log[received+i])
      (by rw [length_take]; omega) (by rw [length_take]; omega) rfl
    rw [length_take, min_eq_left hlt.le, ← take_succ_eq_append_getElem hlt,
      ← block_store _ _ (hsized _ (getElem_mem hlt)), ← hcell] at hpush
    unfold Cleanup.rxLoop
    rw [hs.length (by omega), if_pos hlong, hentry]
    exact ih (i+1) (c.entryReceived q (e.pos+i) log[received+i]) (by omega)
      (by rw [Cleanup.entryReceived, hc]; rfl) (by simp [Cleanup.entryReceived]; omega) hroom hpush

lemma FlowInv.entries (h : FlowInv q l c (.entries e::ahead) back k) (hs : Small q) :
    ∃ m, c.rxEntries q e = some { c with mem := m, received := c.received+e.num } ∧
      FlowInv q l { c with mem := m, received := c.received+e.num } ahead back k := by
  have hord := h.order
  obtain ⟨hpos,hround,hdata,hle,hcarried⟩ := h.carried
  have hforwarded := hcarried.le.1
  have hsized : ∀ m ∈ l.produced, m.length = q.elen := fun m hm => (h.sized m hm).1
  have hlen : e.data.length = q.length e.num := by
    rw [hs.length (by omega), hdata, length_entries hsized hle]
  obtain ⟨m,hloop,hring⟩ := rxLoop_spec hs hsized hpos hround (by omega) hdata hle e.num 0 c
    (zero_add _) rfl (by omega) (by omega) h.remoteRing
  refine ⟨m,?_,{ h with
    last_le := ?_
    taken_le := ?_
    carried := hcarried
    remoteRing := hring }⟩
  · rw [Cleanup.rxEntries, if_neg (not_not.mpr hlen), hloop]
  · have := h.last_le
    simp
    omega
  · simp
    omega

end

end SimBricks.Flow
