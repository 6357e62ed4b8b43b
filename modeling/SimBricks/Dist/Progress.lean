import SimBricks.Dist.Transparency

/-!
# Whether the proxies can get stuck

`BasePoll` transfers and cleans up for every peer and sends one report for
all of them if a threshold is reached. The distance to the last report is
subtracted in 32 bits and then reduced by the size of the ring, which need
not divide 2^32.
-/

set_option autoImplicit false

namespace SimBricks.Progress
open Library Library.Run Function BaseIf Proxy SimBricks.Flow List Option
open Transparency

variable {n : ℕ}

def pollPeers (cfg : Config n) (b : Bool) : List (Fin n) → State n → Bool → Option (State n × Bool)
  | [], s, report => some (s,report)
  | i::rest, s, report =>
    match s.transfer cfg b i with
    | none => none
    | some (s,transferred) =>
      let (s,cleaned) := s.cleanup cfg b i
      pollPeers cfg b rest s (report || transferred || cleaned)

def basePoll (cfg : Config n) (s : State n) (b : Bool) : Option (State n) :=
  match pollPeers cfg b (List.finRange n) s false with
  | none => none
  | some (s,report) => if report then s.passReport b else some s

inductive Event (n : ℕ) where
  | produce (b : Bool) (i : Fin n) (entry : List UInt8)
  | take (b : Bool) (i : Fin n)
  | free (b : Bool) (i : Fin n)
  | basePoll (b : Bool)
  | report (b : Bool)
  | deliver (b : Bool)

def step (cfg : Config n) : Option (State n) → Event n → Option (State n)
  | some s, .basePoll b => basePoll cfg s b
  | s, .produce b i entry => Proxy.step cfg s (.produce b i entry)
  | s, .take b i => Proxy.step cfg s (.take b i)
  | s, .free b i => Proxy.step cfg s (.free b i)
  | s, .report b => Proxy.step cfg s (.report b)
  | s, .deliver b => Proxy.step cfg s (.deliver b)
  | none, .basePoll _ => none

def Event.isProxy : Event n → Bool
  | .basePoll _ | .deliver _ => true
  | _ => false

/-- Nothing is in the streams, the consumer has freed what it received, and
the producer has entries that are not forwarded. -/
def Waiting (s : State n) (b : Bool) (i : Fin n) : Prop :=
  (∀ b, s.stream b = []) ∧ (view s b i).cleanup.freed = (view s b i).cleanup.received ∧
  (view s b i).loc.forwarded < (view s b i).loc.produced.length
  deriving Decidable

def CanForward (cfg : Config n) (s : State n) (b : Bool) (i : Fin n) : Prop :=
  ∃ es s', (∀ e ∈ es, e.isProxy) ∧ run (step cfg) (some s) es = some s' ∧
    (view s b i).loc.forwarded < (view s' b i).loc.forwarded

/-- The guards of `BaseOpPassEntries` and `BaseOpPassReport` never abort. -/
structure Limits (cfg : Config n) : Prop where
  peers : n ≤ kMaxPeers
  small : ∀ b i, ((cfg b i).enum-1)*(cfg b i).elen < 2^32
  fits : ∀ b i, kPollMax*(cfg b i).elen ≤ kTxbufSize

/-- Two reports below their thresholds do not fill the ring. -/
def Good (enum : ℕ) : Prop := 256 ≤ enum ∧ (255 < 2^32 % enum ∨ 144 < enum-2^32 % enum)

/-! ## Distances to the last report -/

/-- A position that moves by at most `jump` and is reported as soon as the
distance computed reaches 128. Past the end of the ring the computed distance
is too large by `2^32 % enum`, so it can be small again once the sum has gone
round. -/
def Near (enum jump reported pos : ℕ) : Prop :=
  pos ≤ reported+127 ∨ (pos % enum < reported % enum ∧ enum+reported ≤ pos+2^32 % enum ∧
    pos+2^32 % enum < reported+enum+128 ∧ enum ≤ 2^32 % enum+127+jump)

lemma near_self (enum jump pos : ℕ) : Near enum jump pos pos := .inl (Nat.le_add_right _ _)

variable {pos reported : ℕ} {q : Queue} {v : View}

/-- Less than a round ahead, a position is ahead inside its round or in the next one. -/
lemma mod_cases (q : Queue) (hle : reported ≤ pos) (hlt : pos < reported+q.enum) :
    pos % q.enum = reported % q.enum+(pos-reported) ∨
    pos % q.enum+q.enum = reported % q.enum+(pos-reported) := by
  have hpos : 0 < q.enum := by omega
  have hdp := Nat.div_add_mod pos q.enum
  have hdr := Nat.div_add_mod reported q.enum
  have hlow : reported/q.enum ≤ pos/q.enum := Nat.div_le_div_right hle
  have hhigh : pos/q.enum ≤ reported/q.enum+1 := by
    rw [← Nat.add_div_right _ hpos]
    exact Nat.div_le_div_right hlt.le
  rcases (by omega : pos/q.enum = reported/q.enum ∨ pos/q.enum = reported/q.enum+1) with hd | hd
  · rw [hd] at hdp
    omega
  · rw [hd, Nat.mul_succ] at hdp
    omega

lemma unreported_eq (q : Queue) (hle : reported ≤ pos) (hlt : pos < reported+q.enum) :
    q.unreported (pos % q.enum) (reported % q.enum) = if pos % q.enum < reported % q.enum then
    (pos-reported+2^32 % q.enum) % q.enum else pos-reported := by
  have hfits := q.enumFits
  unfold Queue.unreported
  rcases mod_cases q hle hlt with h | h
  · rw [if_neg (by omega), show pos % q.enum+2^32-reported % q.enum = pos-reported+2^32 by omega,
      Nat.add_mod_right, Nat.mod_eq_of_lt (by omega : pos-reported < 2^32),
      Nat.mod_eq_of_lt (by omega)]
  · rw [if_pos (by omega), Nat.mod_eq_of_lt (by omega : pos % q.enum+2^32-reported % q.enum < 2^32),
      Nat.add_mod_mod, ← Nat.add_mod_right (pos % q.enum+2^32-reported % q.enum)]
    congr 1
    omega

lemma Near.step {jump pos' : ℕ} (h : Near q.enum jump reported pos) (hle : reported ≤ pos)
    (hpos : pos ≤ pos') (hjump : pos' ≤ pos+jump) (hlt : pos' < reported+q.enum)
    (hu : q.unreported (pos' % q.enum) (reported % q.enum) < 128) :
    Near q.enum jump reported pos' := by
  rw [unreported_eq q (hle.trans hpos) hlt] at hu
  split_ifs at hu with hwrap
  · have hr : 2^32 % q.enum < q.enum := Queue.pos_mod_lt q _
    rcases lt_or_ge (pos'-reported+2^32 % q.enum) q.enum with hsum | hsum
    · rw [Nat.mod_eq_of_lt hsum] at hu
      exact .inl (by omega)
    · rw [Nat.mod_eq_sub_mod hsum, Nat.mod_eq_of_lt (by omega)] at hu
      refine .inr ⟨hwrap,by omega,by omega,?_⟩
      rcases h with h | ⟨-,-,-,h⟩
      · omega
      · exact h
  · exact .inl (by omega)

/-- With both positions near their reports, a full ring is too small to be good. -/
lemma Good.not_full (h : Good q.enum) {cleanReported forwarded : ℕ}
    (hle : cleanReported ≤ reported) (hle' : reported ≤ forwarded)
    (hfull : forwarded+1 = cleanReported+q.enum) (hsent : Near q.enum kPollMax reported forwarded)
    (hclean : Near q.enum (kCleanupMax+1) cleanReported reported) : False := by
  obtain ⟨_,_⟩ := h
  unfold kPollMax at hsent
  unfold kCleanupMax at hclean
  rcases hsent with hsent | ⟨_,_,_,_⟩ <;> rcases hclean with hclean | ⟨_,_,_,_⟩
  · omega
  · omega
  · omega
  · -- both segments would have to pass the end of the ring
    have h1 := mod_cases q hle (by omega)
    have h2 := mod_cases q hle' (by omega)
    have hlt := Queue.pos_mod_lt q cleanReported
    omega

/-! ## Thresholds along a run -/

/-- The reports due for a queue are at most those named. -/
structure Calm (q : Queue) (v : View) (k : Counts) (sentDue cleanDue : Prop) : Prop where
  inv : ViewInv q v k
  sent : ¬ sentDue → Near q.enum kPollMax k.reported v.loc.forwarded
  clean : ¬ cleanDue → Near q.enum (kCleanupMax+1) k.cleanReported k.next

lemma Calm.mono {k : Counts} {p p' r r' : Prop} (h : Calm q v k p r) (hp : p → p') (hr : r → r') :
    Calm q v k p' r' :=
  ⟨h.inv,fun hn => h.sent fun hh => hn (hp hh),fun hn => h.clean fun hh => hn (hr hh)⟩

/-- No report is due, unless the proxy `b` is about to send one. -/
def Calmed (cfg : Config n) (b : Bool) (report : Bool) (s : State n) : Prop :=
  ∀ b' i, ∃ k, Calm (cfg b' i) (view s b' i) k (report ∧ b' = b) (report ∧ b' ≠ b)

lemma Calmed.toInv {cfg : Config n} {b report : Bool} {s : State n}
    (h : Calmed cfg b report s) : Inv cfg s := by
  intro b' i
  obtain ⟨k,hk⟩ := h b' i
  exact ⟨k,hk.inv⟩

section
variable {cfg : Config n} {s s' : State n} {b : Bool} {i : Fin n} {flag : Bool} {k : Counts}

lemma transfer_view (h : ViewInv (cfg b i) (view s b i) k) (hs : Small (cfg b i))
    (ht : s.transfer cfg b i = some (s',flag)) :
    ViewInv (cfg b i) (view s' b i) k ∧
    (flag = false → Near (cfg b i).enum kPollMax k.reported (view s b i).loc.forwarded →
      Near (cfg b i).enum kPollMax k.reported (view s' b i).loc.forwarded) ∧
    (Ready (cfg b i) (view s b i).loc 0 →
      (view s b i).loc.forwarded < (view s' b i).loc.forwarded) := by
  have hspec : Transferred (cfg b i) (s.peers b i).loc (view s b i).cleanup (view s b i).ahead
    (view s b i).back k ((s.peers b i).loc.transfer (cfg b i)) := h.transfer hs
  unfold State.transfer at ht
  generalize (s.peers b i).loc.transfer (cfg b i) = r at hspec ht
  cases hspec with
  | aborted => cases ht
  | idle hidle =>
    simp only [map_some, map_none, toList_none, view_send_nil,
      Option.some.injEq, Prod.mk.injEq] at ht
    obtain ⟨rfl,-⟩ := ht
    rw [view_setLocal, if_pos ⟨rfl,rfl⟩]
    exact ⟨h,fun _ => id,fun hready => absurd hready hidle⟩
  | passed l' e hpos hmax hround hforwarded hreported hproduced hinv =>
    simp only [map_some, toList_some, Option.some.injEq, Prod.mk.injEq] at ht
    obtain ⟨rfl,rfl⟩ := ht
    rw [view_send_entries, if_pos ⟨rfl,rfl⟩, view_setLocal, if_pos ⟨rfl,rfl⟩]
    have hmoved : l'.forwarded = (view s b i).loc.forwarded+e.num := hforwarded
    refine ⟨hinv,fun hflag hnear => ?_,fun _ => ?_⟩
    · have hord := hinv.order
      have hnl := hinv.next_le_last
      have hlr := hinv.carried.le.2
      simp only [decide_eq_false_iff_not, ge_iff_le, not_le] at hflag
      rw [hinv.pos, hinv.posReported] at hflag
      have hnear' : Near (cfg b i).enum kPollMax k.reported l'.forwarded :=
        hnear.step h.reported_le (by omega) (by omega) (by omega) hflag
      exact hnear'
    · change _ < l'.forwarded
      omega

lemma cleanup_view (h : ViewInv (cfg (!b) i) (view s (!b) i) k) (hs : Small (cfg (!b) i))
    (hc : s.cleanup cfg b i = (s',flag)) : ∃ m,
    (k.next < k.last → k.next < (view s (!b) i).cleanup.freed → 0 < m) ∧ ViewInv (cfg (!b) i)
    (view s' (!b) i) { k with next := k.next+m } ∧
      (flag = false → Near (cfg (!b) i).enum (kCleanupMax+1) k.cleanReported k.next →
        Near (cfg (!b) i).enum (kCleanupMax+1) k.cleanReported (k.next+m)) ∧
      (view s' (!b) i).loc = (view s (!b) i).loc ∧
      (view s' (!b) i).cleanup.freed = (view s (!b) i).cleanup.freed := by
  obtain ⟨m,hmax,hpos,hpoll,hinv⟩ := h.poll hs
  have hcleanup : (view s (!b) i).cleanup = (s.peers b i).cleanup := by simp [view]
  rw [hcleanup] at hpoll
  simp only [State.cleanup, hpoll, Prod.mk.injEq] at hc
  obtain ⟨rfl,rfl⟩ := hc
  rw [view_setCleanup, if_pos ⟨rfl,rfl⟩, ← hcleanup]
  refine ⟨m,hpos,hinv,fun hflag hnear => ?_,rfl,rfl⟩
  rcases eq_zero_or_pos m with rfl | hm
  · exact hnear
  · have hord := h.order
    have hfreed : k.next+m ≤ (view s (!b) i).cleanup.freed := hinv.next_le_freed
    simp only [decide_eq_false_iff_not, not_and, ge_iff_le, not_le] at hflag
    have hu := hflag hm
    rw [h.cleanReported] at hu
    exact hnear.step h.cleanReported_le (Nat.le_add_right _ _) (Nat.add_le_add_left hmax _)
      (by omega) hu

lemma view_transfer_other (ht : s.transfer cfg b i = some (s',flag)) {b' : Bool} {j : Fin n}
    (hne : ¬ (b' = b ∧ j = i)) : view s' b' j = view s b' j := by
  unfold State.transfer at ht
  obtain ⟨⟨l,msg,r⟩,-,hs'⟩ := map_eq_some_iff.mp ht
  cases hs'
  cases msg with
  | none =>
    rw [map_none, toList_none, view_send_nil, view_setLocal, if_neg hne]
  | some =>
    rw [map_some, toList_some, view_send_entries, if_neg hne, view_setLocal,
      if_neg hne]

lemma view_cleanup_other (hc : s.cleanup cfg b i = (s',flag)) {b' : Bool} {j : Fin n}
    (hne : ¬ (b' = !b ∧ j = i)) : view s' b' j = view s b' j := by
  unfold State.cleanup at hc
  cases hc
  rw [view_setCleanup, if_neg hne]

lemma transfer_isSome (h : Inv cfg s) (hl : Limits cfg) (b : Bool) (i : Fin n) :
    ∃ s' flag, s.transfer cfg b i = some (s',flag) := by
  have hsound := h.transfer hl.small b i
  cases ht : s.transfer cfg b i with
  | some x => exact ⟨x.1,x.2,rfl⟩
  | none =>
    rw [ht] at hsound
    rcases hsound with hn | ⟨b',i',hbig⟩
    · exact absurd hl.peers (not_le.mpr hn)
    · exact absurd (hl.fits b' i') (not_le.mpr hbig)

end

section
variable {cfg : Config n} {s s' : State n} {b : Bool} {i : Fin n} {report flag : Bool}

lemma Calmed.transfer (h : Calmed cfg b report s) (hl : Limits cfg)
    (ht : s.transfer cfg b i = some (s',flag)) : Calmed cfg b (report || flag) s' := by
  intro b' i'
  obtain ⟨k,hk⟩ := h b' i'
  by_cases hif : b' = b ∧ i' = i
  · obtain ⟨rfl,rfl⟩ := hif
    obtain ⟨hinv,hnear,-⟩ := transfer_view hk.inv (hl.small b' i') ht
    refine ⟨k,hinv,fun hdue => ?_,fun _ => hk.clean fun hdue => hdue.2 rfl⟩
    have hor : (report || flag) = false := by simpa using hdue
    obtain ⟨rfl,rfl⟩ := Bool.or_eq_false_iff.mp hor
    exact hnear rfl (hk.sent fun hdue => absurd hdue.1 (by decide))
  · rw [view_transfer_other ht hif]
    exact ⟨k,hk.mono (fun hdue => ⟨by simp [hdue.1],hdue.2⟩) fun hdue => ⟨by simp [hdue.1],hdue.2⟩⟩

lemma Calmed.cleanup (h : Calmed cfg b report s) (hl : Limits cfg)
    (hc : s.cleanup cfg b i = (s',flag)) : Calmed cfg b (report || flag) s' := by
  intro b' i'
  obtain ⟨k,hk⟩ := h b' i'
  by_cases hif : b' = !b ∧ i' = i
  · obtain ⟨rfl,rfl⟩ := hif
    obtain ⟨m,-,hinv,hnear,hloc,-⟩ := cleanup_view hk.inv (hl.small (!b) i') hc
    refine ⟨_,hinv,fun _ => ?_,fun hdue => ?_⟩
    · rw [hloc]
      exact hk.sent fun hdue => absurd hdue.2 (by cases b <;> decide)
    · have hor : (report || flag) = false := by
        by_contra hor
        exact hdue ⟨Bool.not_eq_false _ ▸ hor,by cases b <;> decide⟩
      obtain ⟨rfl,rfl⟩ := Bool.or_eq_false_iff.mp hor
      exact hnear rfl (hk.clean fun hdue => absurd hdue.1 (by decide))
  · rw [view_cleanup_other hc hif]
    exact ⟨k,hk.mono (fun hdue => ⟨by simp [hdue.1],hdue.2⟩) fun hdue => ⟨by simp [hdue.1],hdue.2⟩⟩

lemma Calmed.pollPeers (h : Calmed cfg b report s) (hl : Limits cfg) (is : List (Fin n)) :
    ∃ s' report', pollPeers cfg b is s report = some (s',report') ∧ Calmed cfg b report' s' ∧
    (report → report') ∧ ∀ b' j, j ∉ is → view s' b' j = view s b' j := by
  induction is generalizing s report with
  | nil => exact ⟨s,report,rfl,h,id,fun _ _ _ => rfl⟩
  | cons i is ih =>
    obtain ⟨s1,_,ht⟩ := transfer_isSome h.toInv hl b i
    cases hc : s1.cleanup cfg b i with
    | mk =>
      obtain ⟨s',report',hpoll,hcalm,hmono,hframe⟩ := ih ((h.transfer hl ht).cleanup hl hc)
      refine ⟨s',report',?_,hcalm,fun hr => hmono (by simp [hr]),fun b' j hj => ?_⟩
      · simp only [Progress.pollPeers, ht, hc]
        exact hpoll
      · obtain ⟨hji,hjs⟩ := not_or.mp (mt mem_cons.mpr hj)
        rw [hframe b' j hjs, view_cleanup_other hc fun hif => hji hif.2,
          view_transfer_other ht fun hif => hji hif.2]

lemma pollPeers_append (cfg : Config n) (b : Bool) (is js : List (Fin n)) (s : State n)
    (report : Bool) :
    pollPeers cfg b (is++js) s report = (pollPeers cfg b is s report).bind fun x => pollPeers cfg b
    js x.1 x.2 := by
  induction is generalizing s report with
  | nil => rfl
  | cons i is ih =>
    simp only [cons_append, Progress.pollPeers]
    cases s.transfer cfg b i with
    | none => rfl
    | some => exact ih _ _

lemma pollPeers_stream {is : List (Fin n)}
    (h : pollPeers cfg b is s report = some (s',flag)) : s'.stream (!b) = s.stream (!b) := by
  induction is generalizing s report with
  | nil =>
    cases h
    rfl
  | cons i is ih =>
    simp only [Progress.pollPeers, State.transfer] at h
    cases ht : (s.peers b i).loc.transfer (cfg b i) with
    | none => simp [ht] at h
    | some =>
      simp only [ht, map_some] at h
      rw [ih h]
      cases b <;> simp [State.cleanup, State.setCleanup, State.setPeer, State.setLocal, State.send]

end

def Quiet (cfg : Config n) (s : State n) : Prop :=
  ∀ b i, ∃ k, Calm (cfg b i) (view s b i) k False False

section
variable {cfg : Config n} {s s' : State n}

lemma Quiet.toCalmed (h : Quiet cfg s) (b report : Bool) : Calmed cfg b report s := by
  intro b' i
  obtain ⟨k,hk⟩ := h b' i
  exact ⟨k,hk.mono False.elim False.elim⟩

lemma Calmed.toQuiet {b : Bool} (h : Calmed cfg b false s) : Quiet cfg s := by
  intro b' i
  obtain ⟨k,hk⟩ := h b' i
  exact ⟨k,hk.mono (fun hdue => absurd hdue.1 (by decide)) fun hdue => absurd hdue.1 (by decide)⟩

lemma Calmed.passReport {b report : Bool} (h : Calmed cfg b report s)
    (hp : s.passReport b = some s') : Quiet cfg s' := by
  intro b' i
  rw [view_passReport s b b' i hp]
  obtain ⟨k,hk⟩ := h b' i
  split_ifs with hb
  · exact ⟨_,hk.inv.report_written,fun _ => near_self _ _ _,fun _ => hk.clean fun hdue => hdue.2 hb⟩
  · exact ⟨_,hk.inv.report_clean,fun _ => hk.sent fun hdue => hb hdue.2,fun _ => near_self _ _ _⟩

lemma passReport_isSome (hl : Limits cfg) (s : State n) (b : Bool) :
    ∃ s', s.passReport b = some s' ∧ s'.stream (!b) = s.stream (!b) := by
  refine ⟨_,if_neg (not_lt.mpr hl.peers),?_⟩
  cases b <;> simp [State.send]

lemma Calmed.settle {b report : Bool} (h : Calmed cfg b report s) (hl : Limits cfg) :
    ∃ s', (if report then s.passReport b else some s) = some s' ∧ Quiet cfg s' ∧
    s'.stream (!b) = s.stream (!b) := by
  cases report with
  | false => exact ⟨s,rfl,h.toQuiet,rfl⟩
  | true =>
    obtain ⟨s',hs',hstream⟩ := passReport_isSome hl s b
    exact ⟨s',hs',h.passReport hs',hstream⟩

/-- What one `BasePoll` does about a peer: a transfer, a cleanup, then perhaps a report. -/
lemma basePoll_peer (h : Quiet cfg s) (hl : Limits cfg) (b : Bool) (i : Fin n) :
    ∃ s' s1 s2 s3 s4 transferred cleaned report, basePoll cfg s b = some s' ∧ Quiet cfg s' ∧
    s'.stream (!b) = s.stream (!b) ∧ (∀ b', view s1 b' i = view s b' i) ∧
    s1.transfer cfg b i = some (s2,transferred) ∧ s2.cleanup cfg b i = (s3,cleaned) ∧
    (∀ b', view s4 b' i = view s3 b' i) ∧ (cleaned = true → report = true) ∧
    (if report then s4.passReport b else some s4) = some s' := by
  obtain ⟨l1,l2,hsplit⟩ := append_of_mem (mem_finRange i)
  have hnodup := nodup_finRange n
  rw [hsplit] at hnodup
  obtain ⟨h1,h2⟩ : i ∉ l1 ∧ i ∉ l2 := by
    rw [nodup_middle, nodup_cons, mem_append, not_or] at hnodup
    exact hnodup.1
  obtain ⟨s1,_,hp1,hc1,-,hf1⟩ := (h.toCalmed b false).pollPeers hl l1
  obtain ⟨s2,transferred,ht⟩ := transfer_isSome hc1.toInv hl b i
  cases hc : s2.cleanup cfg b i with
  | mk s3 cleaned =>
    obtain ⟨s4,report,hp4,hc4,hmono,hf4⟩ := ((hc1.transfer hl ht).cleanup hl hc).pollPeers hl l2
    have hpoll : pollPeers cfg b (List.finRange n) s false = some (s4,report) := by
      rw [hsplit, pollPeers_append, hp1, bind_some, pollPeers, ht]
      simp only [hc]
      exact hp4
    obtain ⟨s',hs',hquiet,hstream⟩ := hc4.settle hl
    refine ⟨s',s1,s2,s3,s4,transferred,cleaned,report,?_,hquiet,
      hstream.trans (pollPeers_stream hpoll),
      fun b' => hf1 b' i h1,ht,hc,fun b' => hf4 b' i h2,fun hcl => hmono (by simp [hcl]),hs'⟩
    rw [basePoll, hpoll]
    exact hs'

/-! ## Getting unstuck -/

structure Kept (v : View) (k : Counts) (v' : View) (k' : Counts) : Prop where
  reported : k'.reported = k.reported
  forwarded : v'.loc.forwarded = v.loc.forwarded
  produced : v'.loc.produced = v.loc.produced
  freed : v'.cleanup.freed = v.cleanup.freed

lemma Kept.trans {v' v'' : View} {k k' k'' : Counts} (h : Kept v k v' k')
    (h' : Kept v' k' v'' k'') : Kept v k v'' k'' :=
  ⟨h'.reported.trans h.reported,h'.forwarded.trans h.forwarded,h'.produced.trans h.produced,
    h'.freed.trans h.freed⟩

lemma ready_zero {k : Counts} (h : ViewInv q v k) (hs : Small q)
    (hmade : v.loc.forwarded < v.loc.produced.length)
    (hroom : v.loc.forwarded+1 < k.cleaned+q.enum) :
    Ready q v.loc 0 := by
  have hord := h.order
  have hcon := h.local_not_pro (by omega) hmade
  have hpos := Queue.pos_mod_lt q v.loc.forwarded
  unfold Ready
  rw [Nat.add_zero, h.pos, h.posCleaned, hs.offset hpos, Nat.mod_add_mod]
  refine ⟨hpos,fun heq => ?_,?_⟩
  · have := (Ring.mod_eq_iff (by omega) (by omega)).mp heq
    omega
  · rw [proOwned_eq_not] at hcon
    simpa using hcon

lemma basePoll_forwards (h : Quiet cfg s) (hl : Limits cfg) {b : Bool} {i : Fin n} {k : Counts}
    (hk : ViewInv (cfg b i) (view s b i) k)
    (hmade : (view s b i).loc.forwarded < (view s b i).loc.produced.length)
    (hroom : (view s b i).loc.forwarded+1 < k.cleaned+(cfg b i).enum) :
    ∃ s', basePoll cfg s b = some s' ∧
    (view s b i).loc.forwarded < (view s' b i).loc.forwarded := by
  obtain ⟨s',_,s2,s3,s4,_,_,report,hpoll,-,-,h1,ht,hc,h4,-,hend⟩ := basePoll_peer h hl b i
  have hready := ready_zero hk (hl.small b i) hmade hroom
  rw [← h1] at hk hready
  obtain ⟨-,-,hgrow⟩ := transfer_view hk (hl.small b i) ht
  have h3 : view s3 b i = view s2 b i :=
    view_cleanup_other hc fun hif => absurd hif.1 (by cases b <;> decide)
  have h5 : (view s' b i).loc.forwarded = (view s4 b i).loc.forwarded := by
    cases report with
    | false =>
      cases hend
      rfl
    | true =>
      rw [view_passReport s4 b b i hend, if_pos rfl]
      rfl
  refine ⟨s',hpoll,?_⟩
  rw [h5, h4, h3, ← h1]
  exact hgrow hready

lemma basePoll_cleans (h : Quiet cfg s) (hl : Limits cfg) {b : Bool} {i : Fin n} {k : Counts}
    (hk : Calm (cfg (!b) i) (view s (!b) i) k False False) (hlast : k.next < k.last)
    (hfreed : k.next < (view s (!b) i).cleanup.freed) :
    ∃ s' k', basePoll cfg s b = some s' ∧ Quiet cfg s' ∧ s'.stream (!b) = s.stream (!b) ∧
    Calm (cfg (!b) i) (view s' (!b) i) k' False False ∧ Kept (view s (!b) i) k (view s' (!b) i) k' ∧
    k.next < k'.next := by
  obtain ⟨s',_,s2,_,s4,_,cleaned,report,hpoll,hquiet,hstream,h1,ht,hc,h4,hmono,hend⟩ :=
    basePoll_peer h hl b i
  have h2 : view s2 (!b) i = view s (!b) i :=
    (view_transfer_other ht fun hif => absurd hif.1 (by cases b <;> decide)).trans (h1 _)
  rw [← h2] at hk hfreed
  obtain ⟨m,hpos,hinv,hnear,hloc,hsame⟩ := cleanup_view hk.inv (hl.small (!b) i) hc
  rw [← h4] at hinv hloc hsame
  have hsent := hk.sent id
  rw [← hloc] at hsent
  rw [← h2]
  cases report with
  | false =>
    cases hend
    have hflag : cleaned = false := Bool.eq_false_iff.mpr fun hcl => absurd (hmono hcl) (by decide)
    exact ⟨_,_,hpoll,hquiet,hstream, ⟨hinv,fun _ => hsent,fun _ => hnear hflag (hk.clean id)⟩,
      ⟨rfl,congrArg Local.forwarded hloc,congrArg Local.produced hloc,hsame⟩,
      Nat.lt_add_of_pos_right (hpos hlast hfreed)⟩
  | true =>
    have hview := view_passReport s4 b (!b) i hend
    rw [if_neg (by cases b <;> decide)] at hview
    refine ⟨s',{ k with next := k.next+m, cleanReported := k.next+m },hpoll,hquiet,hstream,?_,?_,
      Nat.lt_add_of_pos_right (hpos hlast hfreed)⟩
    · rw [hview]
      exact ⟨hinv.report_clean,fun _ => hsent,fun _ => near_self _ _ _⟩
    · rw [hview]
      exact ⟨rfl,congrArg Local.forwarded hloc,congrArg Local.produced hloc,hsame⟩

lemma Calm.received {v' : View} {k : Counts} (h : Calm q v k False False) (hr : Received q v v')
    (hs : Small q) : ∃ k', Calm q v' k' False False ∧ Kept v k v' k' ∧ k'.next = k.next := by
  obtain ⟨k',hinv,hreported,hnext,hclean,hforwarded,hproduced,hfreed⟩ := hr.inv h.inv hs
  refine ⟨k',⟨hinv,fun _ => ?_,fun _ => ?_⟩,⟨hreported,hforwarded,hproduced,hfreed⟩,hnext⟩
  · rw [hreported, hforwarded]
    exact h.sent id
  · rw [hclean, hnext]
    exact h.clean id

lemma Quiet.deliver (h : Quiet cfg s) (hl : Limits cfg) {b : Bool}
    (hd : s.deliver cfg b = some s') : Quiet cfg s' := by
  intro b' i
  obtain ⟨k,hk⟩ := h b' i
  obtain ⟨k',hk',-⟩ := hk.received (deliver_received hd b' i) (hl.small b' i)
  exact ⟨k',hk'⟩

lemma deliver_stream {b : Bool} (h : s.deliver cfg b = some s') :
    s'.stream b = (s.stream b).tail ∧ s'.stream (!b) = s.stream (!b) := by
  unfold State.deliver at h
  cases hq : s.stream b with
  | nil =>
    simp only [hq, Option.some.injEq] at h
    subst h
    exact ⟨hq,rfl⟩
  | cons msg =>
    simp only [hq] at h
    cases msg with
    | entries =>
      simp only [State.receive, map_eq_some_iff] at h
      obtain ⟨c,-,rfl⟩ := h
      cases b <;> simp [State.setCleanup, State.setPeer]
    | report =>
      simp only [State.receive] at h
      split_ifs at h
      cases h
      cases b <;> simp

lemma deliver_all (hl : Limits cfg) (c : Bool) {b : Bool} {i : Fin n} (m : ℕ) {k : Counts}
    (h : Quiet cfg s) (hk : Calm (cfg b i) (view s b i) k False False)
    (hm : (s.stream c).length ≤ m) :
    ∃ s' k', run (step cfg) (some s) (List.replicate m (.deliver c)) = some s' ∧ Quiet cfg s' ∧
    s'.stream c = [] ∧ s'.stream (!c) = s.stream (!c) ∧
    Calm (cfg b i) (view s' b i) k' False False ∧ Kept (view s b i) k (view s' b i) k' ∧
    k'.next = k.next := by
  induction m generalizing s k with
  | zero => exact ⟨s,k,rfl,h,length_eq_zero_iff.mp (Nat.le_zero.mp hm),rfl,hk,
      ⟨rfl,rfl,rfl,rfl⟩,rfl⟩
  | succ m ih =>
    obtain ⟨_,hd⟩ := (h.toCalmed b false).toInv.deliver_isSome hl.small c
    obtain ⟨htail,hother⟩ := deliver_stream hd
    obtain ⟨_,hk1,hkept1,hnext1⟩ := hk.received (deliver_received hd b i) (hl.small b i)
    obtain ⟨s',k',hrun,hquiet,hempty,hstream,hk',hkept,hnext⟩ := ih (h.deliver hl hd) hk1 (by
      rw [htail, length_tail]
      omega)
    refine ⟨s',k',?_,hquiet,hempty,hstream.trans hother,hk',hkept1.trans hkept, hnext.trans hnext1⟩
    rw [replicate_succ, run_cons]
    change run (step cfg) (s.deliver cfg c) _ = _
    rw [hd]
    exact hrun

lemma arrived {b : Bool} {i : Fin n} {k : Counts} (h : ViewInv q (view s b i) k)
    (hempty : ∀ c, s.stream c = []) :
    (view s b i).cleanup.received = (view s b i).loc.forwarded ∧ k.last = k.reported ∧
    k.cleaned = k.cleanReported := by
  have hcarried := h.carried
  have hreturned := h.returned
  rw [show (view s b i).ahead = [] by simp [view, hempty]] at hcarried
  rw [show (view s b i).back = [] by simp [view, hempty]] at hreturned
  exact ⟨hcarried.1,hcarried.2,hreturned⟩

lemma clean_round (hl : Limits cfg) {b : Bool} {i : Fin n} {k : Counts} (h : Quiet cfg s)
    (hk : Calm (cfg b i) (view s b i) k False False) (hempty : ∀ c, s.stream c = [])
    (hlast : k.next < k.last) (hfreed : k.next < (view s b i).cleanup.freed) :
    ∃ es s' k', (∀ e ∈ es, e.isProxy) ∧ run (step cfg) (some s) es = some s' ∧ Quiet cfg s' ∧
    (∀ c, s'.stream c = []) ∧ Calm (cfg b i) (view s' b i) k' False False ∧
    Kept (view s b i) k (view s' b i) k' ∧ k.next < k'.next := by
  have hb : (!!b) = b := Bool.not_not b
  obtain ⟨s1,_,hs1,hquiet1,hstream1,hk1,hkept1,hnext1⟩ :=
    basePoll_cleans (b := !b) (i := i) (k := k) h hl (by rw [hb]; exact hk) hlast
      (by rw [hb]; exact hfreed)
  rw [hb] at hk1 hkept1 hstream1
  obtain ⟨s2,k2,hs2,hquiet2,hempty2,hstream2,hk2,hkept2,hnext2⟩ :=
    deliver_all hl (!b) _ hquiet1 hk1 le_rfl
  rw [hb, hstream1, hempty] at hstream2
  refine ⟨.basePoll (!b)::List.replicate (s1.stream !b).length (.deliver (!b)),s2,k2,?_,?_,hquiet2,
    fun c => ?_,hk2,hkept1.trans hkept2,hnext2 ▸ hnext1⟩
  · intro e he
    rcases mem_cons.mp he with rfl | he
    · rfl
    · rw [eq_of_mem_replicate he]
      rfl
  · rw [run_cons]
    change run (step cfg) (basePoll cfg s !b) _ = _
    rw [hs1]
    exact hs2
  · by_cases hc : c = b
    · rw [hc]
      exact hstream2
    · rw [show c = !b by cases b <;> cases c <;> simp_all]
      exact hempty2

/-- Each round cleans up at least one more entry, until there is room; a ring
that stays full would be too small. -/
lemma canForward_of_quiet (hl : Limits cfg) {b : Bool} {i : Fin n} (hgood : Good (cfg b i).enum)
    {k : Counts} (h : Quiet cfg s) (hk : Calm (cfg b i) (view s b i) k False False)
    (hempty : ∀ c, s.stream c = [])
    (hfreed : (view s b i).cleanup.freed = (view s b i).loc.forwarded)
    (hmade : (view s b i).loc.forwarded < (view s b i).loc.produced.length) :
    CanForward cfg s b i := by
  generalize hleft : k.reported-k.next = left
  induction left using Nat.strong_induction_on generalizing s k with
  | h left ih =>
    have hord := hk.inv.order
    have hreported := hk.inv.reported_le
    have hnext := hk.inv.next_le_last
    obtain ⟨-,hlast,_⟩ := arrived hk.inv hempty
    rcases lt_or_ge ((view s b i).loc.forwarded+1) (k.cleaned+(cfg b i).enum) with hroom | hfull
    · obtain ⟨s',hs',hgrow⟩ := basePoll_forwards h hl hk.inv hmade hroom
      exact ⟨[.basePoll b],s',by simp [Event.isProxy],hs',hgrow⟩
    · have hlt : k.next < k.reported := by
        refine lt_of_le_of_ne (hlast ▸ hnext) fun heq => ?_
        have hclean := hk.clean id
        rw [heq] at hclean
        exact hgood.not_full (by omega) hreported (by omega) (hk.sent id) hclean
      obtain ⟨es1,_,k1,hes1,hrun1,hquiet1,hempty1,hk1,hkept,_⟩ :=
        clean_round hl h hk hempty (by omega) (by omega)
      have hr := hkept.reported
      obtain ⟨es,s',hes,hrun,hgrow⟩ := ih (k1.reported-k1.next) (by omega) hquiet1 hk1 hempty1
        (by rw [hkept.freed, hkept.forwarded]; exact hfreed)
        (by rw [hkept.forwarded, hkept.produced]; exact hmade) rfl
      refine ⟨es1++es,s',fun e he => (mem_append.mp he).elim (hes1 e) (hes e),?_,?_⟩
      · rw [run_append, hrun1]
        exact hrun
      · rw [← hkept.forwarded]
        exact hgrow

/-! ## Every run -/

lemma Quiet.setLocal (h : Quiet cfg s) {b : Bool} {i : Fin n} {l : Local} {k : Counts}
    (hl : Calm (cfg b i) { view s b i with loc := l } k False False) :
    Quiet cfg (s.setLocal b i l) :=
  views_setLocal (P := fun b i v => ∃ k, Calm (cfg b i) v k False False) h ⟨k,hl⟩

lemma Quiet.setCleanup (h : Quiet cfg s) {b : Bool} {i : Fin n} {c : Cleanup} {k : Counts}
    (hc : Calm (cfg (!b) i) { view s (!b) i with cleanup := c } k False False) :
    Quiet cfg (s.setCleanup b i c) :=
  views_setCleanup (P := fun b i v => ∃ k, Calm (cfg b i) v k False False) h ⟨k,hc⟩

lemma forwarded_produce (q : Queue) (l : Local) (entry : List UInt8) :
    (l.produce q entry).forwarded = l.forwarded := by
  unfold Local.produce
  split_ifs <;> rfl

lemma step_quiet (h : Quiet cfg s) (hl : Limits cfg) (e : Event n) :
    ∃ s', step cfg (some s) e = some s' ∧ Quiet cfg s' := by
  cases e with
  | produce b i entry =>
    obtain ⟨k,hk⟩ := h b i
    refine ⟨_,rfl,h.setLocal ⟨hk.inv.produce entry,fun _ => ?_,hk.clean⟩⟩
    have hsent := hk.sent id
    rw [← forwarded_produce (cfg b i) _ entry] at hsent
    exact hsent
  | take b i =>
    obtain ⟨k,hk⟩ := h (!b) i
    have htake := hk.inv.take
    exact ⟨_,rfl,h.setCleanup (k := k) ⟨by simpa [view] using htake,hk.sent,hk.clean⟩⟩
  | free b i =>
    obtain ⟨k,hk⟩ := h (!b) i
    have hfree := hk.inv.free
    exact ⟨_,rfl,h.setCleanup (k := k) ⟨by simpa [view] using hfree,hk.sent,hk.clean⟩⟩
  | basePoll b =>
    obtain ⟨_,report,hpoll,hcalm,-⟩ := (h.toCalmed b false).pollPeers hl (List.finRange n)
    obtain ⟨s',hs',hquiet,-⟩ := hcalm.settle hl
    refine ⟨s',?_,hquiet⟩
    change basePoll cfg s b = _
    rw [basePoll, hpoll]
    exact hs'
  | report b =>
    obtain ⟨s',hs',-⟩ := passReport_isSome hl s b
    exact ⟨s',hs',(h.toCalmed b true).passReport hs'⟩
  | deliver b =>
    obtain ⟨s',hs'⟩ := (h.toCalmed b false).toInv.deliver_isSome hl.small b
    exact ⟨s',hs',h.deliver hl hs'⟩

lemma run_quiet (hl : Limits cfg) (es : List (Event n)) :
    ∃ s, run (step cfg) (some {}) es = some s ∧ Quiet cfg s := by
  have hstart : Quiet cfg {} := fun b i =>
    ⟨{},FlowInv.init (cfg b i),fun _ => near_self _ _ _,fun _ => near_self _ _ _⟩
  generalize ({} : State n) = s at hstart
  induction es generalizing s with
  | nil => exact ⟨s,rfl,hstart⟩
  | cons e es ih =>
    obtain ⟨s',hs',hquiet⟩ := step_quiet hstart hl e
    rw [run_cons, hs']
    exact ih s' hquiet

/-- No run aborts, and no queue with a good size gets stuck. -/
theorem proxies_never_stuck (hl : Limits cfg) (es : List (Event n)) :
    ∃ s, run (step cfg) (some {}) es = some s ∧
      ∀ b i, Good (cfg b i).enum → Waiting s b i → CanForward cfg s b i := by
  obtain ⟨s,hs,hquiet⟩ := run_quiet hl es
  refine ⟨s,hs,?_⟩
  rintro b i hgood ⟨hempty,hfreed,hmade⟩
  obtain ⟨k,hk⟩ := hquiet b i
  exact canForward_of_quiet hl hgood hquiet hk hempty
    (hfreed.trans (arrived hk.inv hempty).1) hmade

end

def adequate : Queue := ⟨64,256,le_rfl,by decide,by decide,by decide⟩

/-- Two entries have come through when the third one is produced. -/
def third [NeZero n] : List (Event n) :=
  [.produce false 0 header,.produce false 0 header,.basePoll false,.deliver false,
    .take true 0,.take true 0,.free true 0,.free true 0,.produce false 0 header]

theorem proxies_never_stuck_adequate :
    let cfg : Config 1 := fun _ _ => adequate
    ∃ s, run (step cfg) (some {}) third = some s ∧ (view s false 0).loc.forwarded = 2 ∧
      Waiting s false 0 ∧ CanForward cfg s false 0 := by
  intro cfg
  have hl : Limits cfg := ⟨by decide,fun _ _ => by decide,fun _ _ => by decide⟩
  obtain ⟨s,hs,hall⟩ := proxies_never_stuck hl third
  have hw : ∀ t ∈ run (step cfg) (some {}) third,
      (view t false 0).loc.forwarded = 2 ∧ Waiting t false 0 := by decide +kernel
  obtain ⟨htwo,hwait⟩ := hw s hs
  exact ⟨s,hs,htwo,hwait,hall false 0 ⟨by decide,by decide⟩ hwait⟩

/-! A smaller ring: the entry that keeps it full is never reported. -/

def Idle (cfg : Config n) (s : State n) : Prop := ∀ b i, ¬ Ready (cfg b i) (s.peers b i).loc 0 ∧
    (s.peers b i).cleanup.posNext = (s.peers b i).cleanup.posLast

instance (q : Queue) (l : Local) (j : ℕ) : Decidable (Ready q l j) :=
  inferInstanceAs (Decidable (_ ∧ _))

instance (cfg : Config n) (s : State n) : Decidable (Idle cfg s) :=
  inferInstanceAs (Decidable (∀ _ _, _ ∧ _))

section
variable {cfg : Config n} {s : State n}

lemma transfer_idle {b : Bool} {i : Fin n} (h : ¬ Ready (cfg b i) (s.peers b i).loc 0) :
    s.transfer cfg b i = some (s,false) := by
  have hscan : (s.peers b i).loc.scan (cfg b i) kPollMax 0 = 0 := if_neg h
  simp [State.transfer, Local.transfer, hscan, view_send_nil, State.setLocal, State.setPeer]

lemma cleanup_idle {b : Bool} {i : Fin n}
    (h : (s.peers b i).cleanup.posNext = (s.peers b i).cleanup.posLast) :
    s.cleanup cfg b i = (s,false) := by
  simp [State.cleanup, Cleanup.poll, h, State.setCleanup, State.setPeer]

lemma Idle.basePoll (h : Idle cfg s) (b : Bool) : basePoll cfg s b = some s := by
  have hpeers : ∀ is, pollPeers cfg b is s false = some (s,false) := by
    intro is
    induction is with
    | nil => rfl
    | cons i is ih => simpa [pollPeers, transfer_idle (h b i).1, cleanup_idle (h b i).2] using ih
  simp [Progress.basePoll, hpeers]

/-- Two idle proxies stay as they are, whatever they poll. -/
lemma Idle.not_canForward (h : Idle cfg s) (hempty : ∀ b, s.stream b = []) (b : Bool)
    (i : Fin n) : ¬ CanForward cfg s b i := by
  rintro ⟨es,_,hes,hrun,hgrow⟩
  have hsame : run (step cfg) (some s) es = some s := by
    clear hrun
    induction es with
    | nil => rfl
    | cons e es ih =>
      have he : step cfg (some s) e = some s := by
        cases e with
        | basePoll c => exact h.basePoll c
        | deliver => simp [step, Proxy.step, State.deliver, hempty]
        | produce | take | free | report => exact Bool.noConfusion (hes _ mem_cons_self)
      rw [run_cons, he]
      exact ih fun e he => hes e (mem_cons_of_mem _ he)
  cases hsame.symm.trans hrun
  exact absurd hgrow (lt_irrefl _)

end

theorem small_ring_stuck :
    let cfg : Config 1 := fun _ _ => smallest
    let es : List (Event 1) := [.produce false 0 header,.produce false 0 header,.basePoll false,
      .deliver false,.take true 0,.free true 0]
    ∃ s, run (step cfg) (some {}) es = some s ∧ Waiting s false 0 ∧
      ∀ b i, ¬ CanForward cfg s b i := by
  intro cfg es
  have hseen : (run (step cfg) (some {}) es).map (fun s =>
      decide (Idle cfg s ∧ (∀ b, (s.stream b).isEmpty) ∧
        (view s false 0).cleanup.freed = (view s false 0).cleanup.received ∧
        (view s false 0).loc.forwarded < (view s false 0).loc.produced.length)) = some true := by
    decide +kernel
  obtain ⟨s,hs,hall⟩ := map_eq_some_iff.mp hseen
  obtain ⟨hidle,hempty,hfreed,hmade⟩ := of_decide_eq_true hall
  have hnil : ∀ b, s.stream b = [] := fun b => isEmpty_iff.mp (hempty b)
  exact ⟨s,hs,⟨hnil,hfreed,hmade⟩,hidle.not_canForward hnil⟩

end SimBricks.Progress
