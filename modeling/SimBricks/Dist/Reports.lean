import SimBricks.Dist.Flow

/-!
# Reports with any contents

`BasePeerReport` walks around the local ring until it is at the position that
the message names, and frees the entries on its way.
-/

set_option autoImplicit false

namespace SimBricks.Reports
open Library Library.Bytes Proxy SimBricks.Flow Nat

/-- The positions that the loop of `BasePeerReport` frees; `none` if it does
not end in the given number of turns. -/
def freed (q : Queue) (cleanPos : ℕ) : ℕ → ℕ → Option (List ℕ)
  | 0, pos => if pos = cleanPos then some [] else none
  | left+1, pos =>
    if pos = cleanPos then some [] else (freed q cleanPos left (q.next pos)).map (pos::·)

def distance (q : Queue) (pos goal : ℕ) : ℕ := (goal+q.enum-pos) % q.enum

def positions (q : Queue) (pos k : ℕ) : List ℕ := (List.range' pos k).map (· % q.enum)

/-- The entries that were forwarded and not freed since. From `local_pos` on
they are still the consumer's, or not filled. -/
def forwarded (q : Queue) (l : Local) : List ℕ :=
  positions q l.posCleaned (distance q l.posCleaned l.pos)

/-- The loop ends after at most `local_enum` turns, and `BasePeerReport` has
freed forwarded entries only. -/
def Handled (q : Queue) (p : Peer) (writtenPos cleanPos : ℕ) : Prop :=
  ∃ ps, freed q cleanPos q.enum p.loc.posCleaned = some ps ∧ ps.length ≤ q.enum ∧
    (∀ i ∈ ps, i ∈ forwarded q p.loc) ∧
    p.report q writtenPos cleanPos = some
      ⟨{ p.loc with
          mem := ps.foldl (fun m i => release m (q.offset i)) p.loc.mem, posCleaned := cleanPos },
        { p.cleanup with posLast := writtenPos }⟩

variable {q : Queue} {pos cleanPos : ℕ}

lemma clean_eq (left : ℕ) (m : Memory) :
    clean q cleanPos left pos m = (freed q cleanPos left pos).map
    (·.foldl (fun m i => release m (q.offset i)) m) := by
  induction left generalizing pos m with
  | zero =>
    rw [clean, freed]
    split <;> rfl
  | succ left ih =>
    rw [clean, freed]
    split
    · rfl
    · rw [ih, Option.map_map]
      rfl

lemma freed_positions (left : ℕ) {c p : ℕ} (hle : c ≤ p) (hleft : p ≤ c+left)
    (hround : p < c+q.enum) :
    freed q (p % q.enum) left (c % q.enum) = some (positions q c (p-c)) := by
  induction left generalizing c with
  | zero =>
    obtain rfl : p = c := by omega
    rw [freed, if_pos rfl, Nat.sub_self]
    rfl
  | succ left ih =>
    rw [freed]
    rcases eq_or_lt_of_le hle with rfl | hlt
    · rw [if_pos rfl, Nat.sub_self]
      rfl
    · have hne : ¬ c % q.enum = p % q.enum := by
        rw [Ring.mod_eq_iff (by omega) (by omega)]
        omega
      rw [if_neg hne, next_mod, ih hlt (by omega) (by omega), (by omega : p-c = p-(c+1)+1)]
      rfl

/-- A position inside the ring is reached on the shortest way. -/
lemma freed_of_lt (hc : cleanPos < q.enum) (hpos : pos < q.enum) :
    freed q cleanPos q.enum pos = some (positions q pos (distance q pos cleanPos)) := by
  have hlt : distance q pos cleanPos < q.enum := mod_lt _ (by omega)
  have hgoal : (pos+distance q pos cleanPos) % q.enum = cleanPos := by
    rw [distance, add_mod_mod, (by omega : pos+(cleanPos+q.enum-pos) = cleanPos+q.enum),
      add_mod_right, mod_eq_of_lt hc]
  have h := freed_positions (q := q) q.enum (le_add_right pos (distance q pos cleanPos))
    (by omega) (by omega)
  rwa [hgoal, Nat.mod_eq_of_lt hpos, Nat.add_sub_cancel_left] at h

/-- A position outside is never reached. -/
lemma freed_of_ge (hc : q.enum ≤ cleanPos) (left : ℕ) (hpos : pos < q.enum) :
    freed q cleanPos left pos = none := by
  have hne : pos ≠ cleanPos := by omega
  induction left generalizing pos with
  | zero => exact if_neg hne
  | succ left ih =>
    have hnext : q.next pos < q.enum := by
      unfold Queue.next
      split <;> omega
    rw [freed, if_neg hne, ih hnext (by omega)]
    rfl

lemma positions_subset_iff {m n : ℕ} (hm : m < q.enum) :
    (∀ i ∈ positions q pos m, i ∈ positions q pos n) ↔ m ≤ n := by
  simp only [positions, List.mem_map, List.mem_range'_1]
  constructor
  · intro h
    by_contra hlt
    obtain ⟨x,hx,heq⟩ := h _ ⟨pos+n,by omega,rfl⟩
    rw [Ring.mod_eq_iff (by omega) (by omega)] at heq
    omega
  · rintro h i ⟨x,hx,rfl⟩
    exact ⟨x,by omega,rfl⟩

lemma handled_iff {p : Peer} {writtenPos : ℕ} (hpos : p.loc.posCleaned < q.enum) :
    Handled q p writtenPos cleanPos ↔ cleanPos < q.enum ∧
    distance q p.loc.posCleaned cleanPos ≤ distance q p.loc.posCleaned p.loc.pos := by
  rcases lt_or_ge cleanPos q.enum with hc | hc
  · have hlt : distance q p.loc.posCleaned cleanPos < q.enum := mod_lt _ (by omega)
    have hfreed := freed_of_lt hc hpos
    rw [and_iff_right hc, ← positions_subset_iff hlt]
    constructor
    · rintro ⟨ps,hps,-,hforwarded,-⟩
      rw [hfreed] at hps
      rwa [← Option.some.inj hps] at hforwarded
    · intro h
      refine ⟨_,hfreed,by simpa [positions] using hlt.le,h,?_⟩
      unfold Peer.report
      split
      next hsame =>
        obtain ⟨rfl,rfl⟩ := hsame
        rw [distance, Nat.add_sub_cancel_left, Nat.mod_self]
        rfl
      next =>
        rw [clean_eq, hfreed]
        rfl
  · refine iff_of_false ?_ (by omega)
    rintro ⟨ps,hps,-⟩
    rw [freed_of_ge hc _ hpos] at hps
    cases hps

/-- `SockMsgRxReport` handles its message for every valid peer exactly if it
frees no more than was forwarded, at positions of the ring. -/
theorem reports_handled_iff {n : ℕ} (cfg : Config n) (s : State n) (b : Bool)
    (valid : Fin n → Bool) (writtenPos cleanPos : Fin n → ℕ)
    (h : ∀ i, (s.peers b i).loc.posCleaned < (cfg b i).enum) :
    (∀ i, valid i → Handled (cfg b i) (s.peers b i) (writtenPos i) (cleanPos i)) ↔
    ∀ i, valid i → cleanPos i < (cfg b i).enum ∧
      distance (cfg b i) (s.peers b i).loc.posCleaned (cleanPos i) ≤
        distance (cfg b i) (s.peers b i).loc.posCleaned (s.peers b i).loc.pos :=
  forall_congr' fun i => imp_congr_right fun _ => handled_iff (h i)

def fourEntries : Queue := ⟨64,4,by decide,Queue.smallest_fits,by decide,by decide⟩

/-- Two of four entries were forwarded, one of them is reported. -/
theorem reports_handled_one : Handled fourEntries { loc := { pos := 2 } } 0 1 :=
  (reports_handled_iff (n := 1) (fun _ _ => fourEntries)
    { peers := fun _ _ => { loc := { pos := 2 } } } true (fun _ => true) (fun _ => 0) (fun _ => 1)
    fun _ => (by decide : 0 < 4)).mpr
      (fun _ _ => (by decide : 1 < 4 ∧ distance fourEntries 0 1 ≤ distance fourEntries 0 2)) 0 rfl

/-- The loop does not end for a position outside the ring, and frees an entry
that was not forwarded for one beyond `local_pos`. -/
theorem report_unchecked : (∀ left m, clean fourEntries 4 left 0 m = none) ∧
    freed fourEntries 1 4 0 = some [0] ∧ forwarded fourEntries {} = [] := by
  refine ⟨fun left m => ?_,by decide,by decide⟩
  rw [clean_eq, freed_of_ge (by decide) left (by decide)]
  rfl

end SimBricks.Reports
