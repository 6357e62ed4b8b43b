import SimBricks.Dist.Flow

/-!
# The proxies are transparent

Each queue of each peer is a flow of its own from one proxy to the other; an
event touches the flow it is about, a report one flow of every peer in each
direction.
-/

set_option autoImplicit false

namespace SimBricks.Transparency
open Library Library.Bytes Library.Run Function BaseIf Proxy SimBricks.Flow List Option Nat

variable {n : ℕ}

def aheadOf (i : Fin n) : Msg n → List Ahead
  | .entries id e => if id = i then [.entries e] else []
  | .report writtenPos _ => [.written (writtenPos i)]

def backOf (i : Fin n) : Msg n → List ℕ
  | .entries _ _ => []
  | .report _ cleanPos => [cleanPos i]

/-- One queue: both of its rings, and what the streams carry about it. -/
structure View where
  loc : Local
  cleanup : Cleanup
  ahead : List Ahead
  back : List ℕ

def view (s : State n) (b : Bool) (i : Fin n) : View where
  loc := (s.peers b i).loc
  cleanup := (s.peers (!b) i).cleanup
  ahead := (s.stream b).flatMap (aheadOf i)
  back := (s.stream (!b)).flatMap (backOf i)

section
variable (s : State n) (b b' : Bool) (i i' : Fin n)

open State

lemma view_setLocal (l : Local) : view (s.setLocal b i l) b' i' =
    if b' = b ∧ i' = i then { view s b i with loc := l } else view s b' i' := by
  by_cases hi : i' = i
  · subst hi
    cases b <;> cases b' <;> simp [view, setLocal, setPeer]
  · cases b <;> cases b' <;> simp [view, setLocal, setPeer, hi]

lemma view_setCleanup (c : Cleanup) : view (s.setCleanup b i c) b' i' =
    if b' = !b ∧ i' = i then { view s (!b) i with cleanup := c } else view s b' i' := by
  by_cases hi : i' = i
  · subst hi
    cases b <;> cases b' <;> simp [view, setCleanup, setPeer]
  · cases b <;> cases b' <;> simp [view, setCleanup, setPeer, hi]

lemma views_setLocal {P : Bool → Fin n → View → Prop} {s : State n}
    (h : ∀ b i, P b i (view s b i)) {b : Bool} {i : Fin n} {l : Local}
    (hl : P b i { view s b i with loc := l }) :
    ∀ b' i', P b' i' (view (s.setLocal b i l) b' i') := by
  intro b' i'
  rw [view_setLocal]
  split_ifs with hif
  · obtain ⟨rfl,rfl⟩ := hif
    exact hl
  · exact h b' i'

lemma views_setCleanup {P : Bool → Fin n → View → Prop} {s : State n}
    (h : ∀ b i, P b i (view s b i)) {b : Bool} {i : Fin n} {c : Cleanup}
    (hc : P (!b) i { view s (!b) i with cleanup := c }) :
    ∀ b' i', P b' i' (view (s.setCleanup b i c) b' i') := by
  intro b' i'
  rw [view_setCleanup]
  split_ifs with hif
  · obtain ⟨rfl,rfl⟩ := hif
    exact hc
  · exact h b' i'

lemma view_send_nil : s.send b [] = s := by
  simp [send]

lemma view_send_entries (e : Entries) : view (s.send b [.entries i e]) b' i' =
    if b' = b ∧ i' = i then { view s b i with ahead := (view s b i).ahead++[.entries e] }
    else view s b' i' := by
  by_cases hi : i' = i
  · subst hi
    cases b <;> cases b' <;> simp [view, send, aheadOf, backOf]
  · cases b <;> cases b' <;> simp [view, send, aheadOf, backOf, hi, Ne.symm hi]

def View.reportWritten (v : View) : View :=
  { v with loc := { v.loc with posReported := v.loc.pos }, ahead := v.ahead++[.written v.loc.pos] }

def View.reportClean (v : View) : View := { v with
    cleanup := { v.cleanup with posReported := v.cleanup.posNext }
    back := v.back++[v.cleanup.posNext] }

lemma view_passReport {s' : State n} (h : s.passReport b = some s') :
    view s' b' i' = if b' = b then (view s b' i').reportWritten else
    (view s b' i').reportClean := by
  unfold passReport at h
  split_ifs at h with hn
  cases h
  cases b <;> cases b' <;>
    simp [view, send, aheadOf, backOf, View.reportWritten, View.reportClean]

end

inductive Received (q : Queue) (v : View) : View → Prop
  | other : Received q v v
  | entries (e : Entries) (tail : List Ahead) (c : Cleanup) (hahead : v.ahead = .entries e::tail)
      (hrx : v.cleanup.rxEntries q e = some c) :
      Received q v { v with cleanup := c, ahead := tail }
  | written (pos : ℕ) (tail : List Ahead) (hahead : v.ahead = .written pos::tail) :
      Received q v { v with cleanup := { v.cleanup with posLast := pos }, ahead := tail }
  | cleaned (pos : ℕ) (tail : List ℕ) (m : Memory) (hback : v.back = pos::tail)
      (hclean : clean q pos q.enum v.loc.posCleaned v.loc.mem = some m) :
      Received q v { v with loc := { v.loc with mem := m, posCleaned := pos }, back := tail }

/-- The early return of `BasePeerReport` saves work and changes nothing. -/
lemma report_eq (q : Queue) (p : Peer) (writtenPos cleanPos : ℕ) :
    p.report q writtenPos cleanPos =
      (clean q cleanPos q.enum p.loc.posCleaned p.loc.mem).map fun mem =>
        ⟨{ p.loc with mem, posCleaned := cleanPos },{ p.cleanup with posLast := writtenPos }⟩ := by
  unfold Peer.report
  split_ifs with h
  · obtain ⟨rfl,rfl⟩ := h
    have hclean : clean q p.loc.posCleaned q.enum p.loc.posCleaned p.loc.mem = some p.loc.mem := by
      unfold clean
      split <;> exact if_pos rfl
    rw [hclean]
    rfl
  · rfl

lemma receive_report {cfg : Config n} {s : State n} {b : Bool} {w k : Fin n → ℕ}
    {p : Fin n → Peer} (h : ∀ i, (s.peers b i).report (cfg b i) (w i) (k i) = some (p i)) :
    s.receive cfg b (.report w k) = some { s with peers := update s.peers b p } := by
  have hall : ∀ i, ((s.peers b i).report (cfg b i) (w i) (k i)).isSome := fun i => by
    rw [h i]
    rfl
  have hget : (fun i => ((s.peers b i).report (cfg b i) (w i) (k i)).get (hall i)) = p :=
    funext fun i => get_of_eq_some _ (h i)
  exact (dif_pos hall).trans (by rw [hget])

variable {e : Entries} {k : Counts} {q : Queue} {r : ℕ}

section
variable {cfg : Config n} {s s' : State n} {b : Bool}

lemma deliver_entries {id : Fin n} {rest : List (Msg n)} (hq : s.stream b = .entries id e::rest)
    (h : s.deliver cfg b = some s') (b' : Bool) (i : Fin n) :
    Received (cfg b' i) (view s b' i) (view s' b' i) := by
  simp only [State.deliver, hq, State.receive, map_eq_some_iff, Bool.not_not] at h
  obtain ⟨c,hrx,rfl⟩ := h
  rw [view_setCleanup, Bool.not_not]
  split_ifs with hif
  · obtain ⟨rfl,rfl⟩ := hif
    have htail : (view s b' i).ahead = .entries e::rest.flatMap (aheadOf i) := by
      simp [view, hq, aheadOf]
    have hview := Received.entries (q := cfg b' i) (v := view s b' i) e _ c htail hrx
    have hsame : ({ view { s with stream := update s.stream b' rest } b' i with cleanup := c } :
        View) = { view s b' i with cleanup := c, ahead := rest.flatMap (aheadOf i) } := by
      cases b' <;> simp [view]
    rw [hsame]
    exact hview
  · have hsame : view { s with stream := update s.stream b rest } b' i = view s b' i := by
      by_cases hb : b' = b
      · subst hb
        have hi : id ≠ i := fun hi => hif ⟨rfl,hi.symm⟩
        cases b' <;> simp [view, hq, aheadOf, hi]
      · obtain rfl : b' = !b := by cases b <;> cases b' <;> simp_all
        cases b <;> simp_all [view, backOf]
    rw [hsame]
    exact .other

lemma view_receive (peers : Fin n → Peer) (rest : List (Msg n)) (i : Fin n) :
    view ⟨update s.peers (!b) peers,update s.stream b rest⟩ b i =
    ⟨(view s b i).loc,(peers i).cleanup,rest.flatMap (aheadOf i),(view s b i).back⟩ ∧ view
    ⟨update s.peers (!b) peers,update s.stream b rest⟩ (!b) i =
    ⟨(peers i).loc,(view s (!b) i).cleanup,(view s (!b) i).ahead,rest.flatMap (backOf i)⟩ := by
  cases b <;> simp [view]

lemma deliver_report {writtenPos cleanPos : Fin n → ℕ} {rest : List (Msg n)}
    (hq : s.stream b = .report writtenPos cleanPos::rest) (h : s.deliver cfg b = some s')
    (b' : Bool) (i : Fin n) : Received (cfg b' i) (view s b' i) (view s' b' i) := by
  simp only [State.deliver, hq, State.receive] at h
  split_ifs at h with hall
  cases h
  obtain ⟨p,hp⟩ := isSome_iff_exists.mp (hall i)
  have hget : ((s.peers (!b) i).report (cfg (!b) i) (writtenPos i) (cleanPos i)).get (hall i) = p :=
    get_of_eq_some _ hp
  rw [report_eq, map_eq_some_iff] at hp
  obtain ⟨m,hclean,rfl⟩ := hp
  obtain ⟨hahead,hback⟩ := view_receive (s := s) (b := b)
    (fun i => ((s.peers (!b) i).report (cfg (!b) i) (writtenPos i) (cleanPos i)).get (hall i))
    rest i
  by_cases hb : b' = b
  · subst hb
    have htail : (view s b' i).ahead = .written (writtenPos i)::rest.flatMap (aheadOf i) := by
      simp [view, hq, aheadOf]
    rw [hahead, hget]
    exact .written _ _ htail
  · obtain rfl : b' = !b := by cases b <;> cases b' <;> simp_all
    have htail : (view s (!b) i).back = cleanPos i::rest.flatMap (backOf i) := by
      simp [view, hq, backOf]
    rw [hback, hget]
    exact .cleaned _ _ m htail hclean

lemma deliver_received (h : s.deliver cfg b = some s') (b' : Bool) (i : Fin n) :
    Received (cfg b' i) (view s b' i) (view s' b' i) := by
  cases hq : s.stream b with
  | nil =>
    simp only [State.deliver, hq, some.injEq] at h
    rw [h]
    exact .other
  | cons msg =>
    cases msg with
    | entries => exact deliver_entries hq h b' i
    | report => exact deliver_report hq h b' i

end

/-! ## Steps and runs -/

abbrev ViewInv (q : Queue) (v : View) (k : Counts) : Prop :=
  FlowInv q v.loc v.cleanup v.ahead v.back k

def Inv (cfg : Config n) (s : State n) : Prop := ∀ b i, ∃ k, ViewInv (cfg b i) (view s b i) k

/-- An arrival moves neither what was forwarded nor what was freed, and no
report of it. -/
lemma Received.inv {v v' : View} (hr : Received q v v') (h : ViewInv q v k) (hs : Small q) :
    ∃ k', ViewInv q v' k' ∧ k'.reported = k.reported ∧ k'.next = k.next ∧
    k'.cleanReported = k.cleanReported ∧ v'.loc.forwarded = v.loc.forwarded ∧
    v'.loc.produced = v.loc.produced ∧ v'.cleanup.freed = v.cleanup.freed := by
  cases hr with
  | other => exact ⟨k,h,rfl,rfl,rfl,rfl,rfl,rfl⟩
  | entries e tail c hahead hrx =>
    unfold ViewInv at h
    rw [hahead] at h
    obtain ⟨m,hrx',hinv⟩ := h.entries hs
    cases hrx.symm.trans hrx'
    exact ⟨k,hinv,rfl,rfl,rfl,rfl,rfl,rfl⟩
  | written pos tail hahead =>
    unfold ViewInv at h
    rw [hahead] at h
    obtain ⟨w,hinv⟩ := h.written
    exact ⟨_,hinv,rfl,rfl,rfl,rfl,rfl,rfl⟩
  | cleaned pos tail m hback hclean =>
    unfold ViewInv at h
    rw [hback] at h
    obtain ⟨_,p,hclean',hinv⟩ := h.clean hs
    cases hclean.symm.trans hclean'
    exact ⟨_,hinv,rfl,rfl,rfl,rfl,rfl,rfl⟩

section
variable {cfg : Config n} {s : State n}

lemma Inv.deliver_isSome (h : Inv cfg s) (hs : ∀ b i, Small (cfg b i)) (b : Bool) :
    ∃ s', s.deliver cfg b = some s' := by
  unfold State.deliver
  cases hq : s.stream b with
  | nil => exact ⟨s,rfl⟩
  | cons msg rest =>
    cases msg with
    | entries id e =>
      obtain ⟨k,hk⟩ := h b id
      unfold ViewInv at hk
      rw [show (view s b id).ahead = .entries e::rest.flatMap (aheadOf id) by
        simp [view, hq, aheadOf]] at hk
      obtain ⟨m,hrx,-⟩ := hk.entries (hs b id)
      exact ⟨_,by simp only [State.receive, Bool.not_not]; exact congrArg (Option.map _) hrx⟩
    | report writtenPos cleanPos =>
      have hall : ∀ i, ∃ p, (s.peers (!b) i).report (cfg (!b) i) (writtenPos i) (cleanPos i) =
          some p := by
        intro i
        obtain ⟨k,hk⟩ := h (!b) i
        unfold ViewInv at hk
        rw [show (view s (!b) i).back = cleanPos i::rest.flatMap (backOf i) by
          simp [view, hq, backOf]] at hk
        obtain ⟨m,p,hclean,-⟩ := hk.clean (hs (!b) i)
        exact ⟨_,(report_eq _ _ _ _).trans (congrArg (Option.map _) hclean)⟩
      choose p hp using hall
      exact ⟨_,receive_report hp⟩

/-- A message does not fit the transmit buffer, or there are too many peers for a report. -/
def Exceeds (cfg : Config n) : Prop := kMaxPeers < n ∨ ∃ b i, kTxbufSize < kPollMax*(cfg b i).elen

def Sound (cfg : Config n) : Option (State n) → Prop
  | some s => Inv cfg s
  | none => Exceeds cfg

lemma Inv.setLocal (h : Inv cfg s) {b : Bool} {i : Fin n} {l : Local}
    (hl : ViewInv (cfg b i) { view s b i with loc := l } k) : Inv cfg (s.setLocal b i l) :=
  views_setLocal (P := fun b i v => ∃ k, ViewInv (cfg b i) v k) h ⟨k,hl⟩

lemma Inv.setCleanup (h : Inv cfg s) {b : Bool} {i : Fin n} {c : Cleanup}
    (hc : ViewInv (cfg (!b) i) { view s (!b) i with cleanup := c } k) :
    Inv cfg (s.setCleanup b i c) :=
  views_setCleanup (P := fun b i v => ∃ k, ViewInv (cfg b i) v k) h ⟨k,hc⟩

lemma Inv.transfer (h : Inv cfg s) (hs : ∀ b i, Small (cfg b i)) (b : Bool) (i : Fin n) :
    Sound cfg ((s.transfer cfg b i).map Prod.fst) := by
  obtain ⟨k,hk⟩ := h b i
  have hspec : Transferred (cfg b i) (s.peers b i).loc (view s b i).cleanup (view s b i).ahead
    (view s b i).back k ((s.peers b i).loc.transfer (cfg b i)) := hk.transfer (hs b i)
  unfold State.transfer
  generalize (s.peers b i).loc.transfer (cfg b i) = r at hspec
  cases hspec with
  | aborted hbig => exact .inr ⟨b,i,hbig⟩
  | idle =>
    simp only [map_some, map_none, toList_none, view_send_nil]
    exact h.setLocal hk
  | passed l' e hpos hmax hround hforwarded hreported hproduced hinv =>
    simp only [map_some, toList_some]
    intro b' i'
    rw [view_send_entries]
    split_ifs with hif
    · obtain ⟨rfl,rfl⟩ := hif
      refine ⟨k,?_⟩
      rw [view_setLocal, if_pos ⟨rfl,rfl⟩]
      exact hinv
    · rw [view_setLocal, if_neg hif]
      exact h b' i'

lemma step_sound (h : Inv cfg s) (hs : ∀ b i, Small (cfg b i)) (e : Event n) :
    Sound cfg (step cfg (some s) e) := by
  cases e with
  | produce b i entry =>
    obtain ⟨k,hk⟩ := h b i
    exact h.setLocal (hk.produce entry)
  | take b i =>
    obtain ⟨k,hk⟩ := h (!b) i
    refine h.setCleanup (k := k) ?_
    have htake := hk.take
    simpa [view] using htake
  | free b i =>
    obtain ⟨k,hk⟩ := h (!b) i
    refine h.setCleanup (k := k) ?_
    have hfree := hk.free
    simpa [view] using hfree
  | transfer b i => exact h.transfer hs b i
  | cleanup b i =>
    obtain ⟨k,hk⟩ := h (!b) i
    obtain ⟨m,-,-,hpoll,hinv⟩ := hk.poll (hs (!b) i)
    have hcleanup : (view s (!b) i).cleanup = (s.peers b i).cleanup := by simp [view]
    rw [hcleanup] at hpoll hinv
    change Inv cfg (s.setCleanup b i ((s.peers b i).cleanup.poll (cfg (!b) i)).1)
    rw [hpoll]
    exact h.setCleanup hinv
  | report b =>
    change Sound cfg (s.passReport b)
    cases hp : s.passReport b with
    | none =>
      unfold State.passReport at hp
      split_ifs at hp with hn
      exact .inl hn
    | some =>
      intro b' i
      rw [view_passReport s b b' i hp]
      obtain ⟨k,hk⟩ := h b' i
      split_ifs
      · exact ⟨_,hk.report_written⟩
      · exact ⟨_,hk.report_clean⟩
  | deliver b =>
    obtain ⟨s',hs'⟩ := h.deliver_isSome hs b
    change Sound cfg (s.deliver cfg b)
    rw [hs']
    intro b' i
    obtain ⟨k,hk⟩ := h b' i
    obtain ⟨k',hk',-⟩ := (deliver_received hs' b' i).inv hk (hs b' i)
    exact ⟨k',hk'⟩

lemma run_sound (hs : ∀ b i, Small (cfg b i)) (es : List (Event n)) :
    Sound cfg (run (step cfg) (some {}) es) := by
  have hstep : ∀ x e, Sound cfg x → True → Sound cfg (step cfg x e) := by
    intro x e hx _
    cases x with
    | none => exact hx
    | some => exact step_sound hx hs e
  exact run_invariant (I := Sound cfg) hstep (fun b i => ⟨{},FlowInv.init (cfg b i)⟩)
    (along_always (I := fun _ => True) (by simp) (by simp) trivial es)

end

/-! ## What the simulators see -/

def flying : List Ahead → List UInt8
  | [] => []
  | .entries e::rest => e.data++flying rest
  | .written _::rest => flying rest

lemma flying_carried {produced : List (List UInt8)} {forwarded reported received last : ℕ}
    {ahead : List Ahead} (h : Carried q produced forwarded reported received last ahead) :
    flying ahead = ((produced.drop received).take (forwarded-received)).flatten := by
  induction ahead generalizing received last with
  | nil =>
    obtain ⟨rfl,-⟩ := h
    simp [flying]
  | cons x rest ih =>
    cases x with
    | entries e =>
      obtain ⟨-,-,hdata,-,h⟩ := h
      have hle := h.le.1
      have hsplit : forwarded-received = e.num+(forwarded-(received+e.num)) := by omega
      rw [flying, ih h, hdata, hsplit, take_add, flatten_append, drop_drop]
    | written =>
      obtain ⟨w,-,-,-,h⟩ := h
      exact ih h

/-- The consumer's entries are the producer's, in order. Of the others, those
received stand in the remote ring, those forwarded in the stream and the rest
in the local ring, each at its position and unchanged; a slot of the local
ring is handed back once the consumer has freed the entry it had. -/
structure Faithful (q : Queue) (v : View) : Prop where
  inOrder : v.cleanup.consumed <+: v.loc.produced
  counts : v.cleanup.freed ≤ v.cleanup.consumed.length ∧
    v.cleanup.consumed.length ≤ v.cleanup.received ∧ v.cleanup.received ≤ v.loc.forwarded ∧
    v.loc.forwarded ≤ v.loc.produced.length
  remote : ∀ p (h : p < v.loc.produced.length), v.cleanup.freed ≤ p → p < v.cleanup.received →
    load v.cleanup.mem (p % q.enum*q.elen) q.elen = v.loc.produced[p]
  stream : flying v.ahead = ((v.loc.produced.drop v.cleanup.received).take
    (v.loc.forwarded-v.cleanup.received)).flatten
  held : ∀ p (h : p < v.loc.produced.length), v.loc.forwarded ≤ p →
    load v.loc.mem (p % q.enum*q.elen) q.elen = v.loc.produced[p]
  handedBack : ∀ p, p < v.loc.produced.length →
    proOwned (ownAt v.loc.mem (p % q.enum*q.elen)) → p < v.cleanup.freed

lemma faithful {v : View} (h : ViewInv q v k) : Faithful q v where
  inOrder := by
    rw [h.consumed]
    exact take_prefix _ _
  counts := by
    have := h.order
    omega
  remote p hlt hfreed hreceived := h.remote_cell hfreed hreceived hlt
  stream := flying_carried h.carried
  held p hlt hforwarded := h.local_cell (by have := h.order; omega) hlt
  handedBack := by
    intro p hlt hpro
    have hcleaned : p < k.cleaned := by
      by_contra hge
      exact h.local_not_pro (by omega) hlt hpro
    have := h.order
    omega

/-- If all offsets of the queues fit in 32 bits, the simulators see each other
through the proxies unchanged in every run; a proxy only aborts if entries are
too long for its buffer or there are too many peers. -/
theorem proxies_transparent (cfg : Config n)
    (hsmall : ∀ b i, ((cfg b i).enum-1)*(cfg b i).elen < 2^32) (es : List (Event n)) :
    (∀ s, run (step cfg) (some {}) es = some s → ∀ b i, Faithful (cfg b i) (view s b i)) ∧
    (run (step cfg) (some {}) es = none → Exceeds cfg) := by
  have hsound := run_sound hsmall es
  constructor
  · intro s hs b i
    rw [hs] at hsound
    obtain ⟨k,hk⟩ := hsound b i
    exact faithful hk
  · intro hnone
    rw [hnone] at hsound
    exact hsound

def smallest : Queue := ⟨64,2,le_rfl,Queue.smallest_fits,le_rfl,by decide⟩

def header : List UInt8 := replicate 63 7++[kOwnCon]

theorem proxies_transparent_smallest :
    let es : List (Event 1) :=
      [.produce false 0 header,.transfer false 0,.deliver false,.take true 0]
    ∃ s, run (step fun _ _ => smallest) (some {}) es = some s ∧
      (s.peers true 0).cleanup.consumed = [header] ∧ Faithful smallest (view s false 0) := by
  intro es
  have hone : (run (step fun _ _ => smallest) (some {}) es).map
      (fun s => (s.peers true 0).cleanup.consumed) = some [header] := by decide +kernel
  obtain ⟨s,hs,hconsumed⟩ := map_eq_some_iff.mp hone
  exact ⟨s,hs,hconsumed,
    (proxies_transparent (fun _ _ => smallest) (fun _ _ => by decide) es).1 s hs false 0⟩

/-! A ring of more than 4 GiB: the offset of its last entry does not fit in 32 bits. -/

def large : Queue := ⟨1600,2684356,by decide,by decide,by decide,by decide⟩

def full : List UInt8 := replicate 1600 kOwnCon

def sentMem (k : ℕ) : Memory := fun a => if a < k*1600 then kOwnCon else 0

def freedMem (k : ℕ) : Memory := fun a => if a < k*1600 ∧ a % 1600 ≠ 63 then kOwnCon else 0

def sender (r k : ℕ) : Local where
  mem := sentMem k
  pos := k
  posReported := r
  lastSentPos := (k+2^32-1) % 2^32
  outPos := k
  produced := replicate k full
  forwarded := k

def receiver (r k : ℕ) : Cleanup where
  mem := freedMem k
  posLast := r
  inPos := k
  consumed := replicate k full
  freed := k
  received := k

lemma getD_full (i : ℕ) (x : UInt8) : full.getD i x = if i < 1600 then kOwnCon else x := by
  rw [full, getD_eq_getElem?_getD, getElem?_replicate]
  split_ifs <;> rfl

lemma length_full : full.length = 1600 := length_replicate

lemma sentMem_store (k : ℕ) : store (sentMem k) (k*1600) full = sentMem (k+1) := by
  funext a
  simp only [store, getD_full, sentMem]
  split_ifs <;> first | rfl | omega

def filled (r k : ℕ) : Local :=
  { sender r k with mem := sentMem (k+1), outPos := k+1, produced := replicate (k+1) full }

lemma sender_produce {k : ℕ} (hk : k+1 < 2684356) :
    (sender r k).produce large full = filled r k := by
  have hown : proOwned (ownAt (sentMem k) (k*1600)) := by
    rw [ownAt, sentMem, if_neg (by omega)]
    decide
  have hcon : conOwned (full.getD kOwnType 0) := by
    rw [getD_full, if_pos (by decide)]
    decide
  rw [Local.produce, if_pos ⟨length_full,hcon,hown⟩]
  simp only [filled, sender, large, sentMem_store, mod_eq_of_lt hk, replicate_succ']

lemma transfer_one {l : Local} (hready : Ready q l 0) (hnext : ¬ Ready q l 1)
    (htx : q.length 1 ≤ kTxbufSize) (hlast : (l.lastSentPos+1) % 2^32 % q.enum = l.pos) :
    ∃ report, l.transfer q = some ({ l with
      lastSentPos := l.pos
      forwarded := l.forwarded+1
      pos := if l.pos+1 < q.enum then l.pos+1 else l.pos+1-q.enum },
      some ⟨1,l.pos,load l.mem (q.offset l.pos) (q.length 1)⟩,report) := by
  have hscan : l.scan q kPollMax 0 = 1 := by
    obtain ⟨-,-,hall,hstop⟩ := scan_spec q l kPollMax 0
    generalize l.scan q kPollMax 0 = m at hall hstop
    rcases lt_trichotomy m 1 with hm | hm | hm
    · obtain rfl : m = 0 := by omega
      exact absurd hready (hstop (by decide))
    · exact hm
    · exact absurd (hall 1 (zero_le 1) hm) hnext
  have hpass : l.passEntries q l.pos 1 =
      some ({ l with lastSentPos := l.pos, forwarded := l.forwarded+1 },
        load l.mem (q.offset l.pos) (q.length 1)) := by
    rw [Local.passEntries, if_neg (not_lt.mpr htx), if_neg (not_not.mpr hlast),
      Nat.add_sub_cancel]
  unfold Local.transfer
  rw [hscan]
  simp only [hpass, one_pos, gt_iff_lt, if_true]
  exact ⟨_,rfl⟩

lemma load_sentMem {k a : ℕ} (h : a+1600 ≤ k*1600) : load (sentMem k) a 1600 = full := by
  rw [full, eq_replicate_iff]
  refine ⟨length_load _ _ _,fun b hb => ?_⟩
  obtain ⟨i,hi,rfl⟩ := List.mem_map.mp hb
  have hlt := mem_range.mp hi
  exact if_pos (by omega)

lemma filled_transfer {k : ℕ} (hk : k+1 < 2684356) :
    ∃ report, (filled r k).transfer large = some (sender r (k+1),some ⟨1,k,full⟩,report) := by
  have hoff : large.offset k = k*1600 := mod_eq_of_lt (by change k*1600 < 2^32; omega)
  have hready : Ready large (filled r k) 0 := by
    refine ⟨by change k < 2684356; omega,?_,?_⟩
    · change (k+1) % 2684356 ≠ 0
      omega
    · change conOwned (ownAt (sentMem (k+1)) (large.offset k))
      rw [hoff, ownAt, sentMem, if_pos (by unfold kOwnType; omega)]
      decide
  have hnext : ¬ Ready large (filled r k) 1 := by
    rintro ⟨-,hgap,hcon⟩
    change (k+1+1) % 2684356 ≠ 0 at hgap
    change conOwned (ownAt (sentMem (k+1)) (large.offset (k+1))) = true at hcon
    have hoff' : large.offset (k+1) = (k+1)*1600 :=
      mod_eq_of_lt (by change (k+1)*1600 < 2^32; omega)
    rw [hoff', ownAt, sentMem, if_neg (by omega)] at hcon
    cases hcon
  have hlast : ((filled r k).lastSentPos+1) % 2^32 % large.enum = (filled r k).pos := by
    change ((k+2^32-1) % 2^32+1) % 2^32 % 2684356 = k
    omega
  obtain ⟨report,htransfer⟩ := transfer_one hready hnext (by decide) hlast
  have hload : load (sentMem (k+1)) (large.offset k) 1600 = full := by
    rw [hoff]
    exact load_sentMem (by omega)
  have hsent : (k+1+2^32-1) % 2^32 = k := by omega
  refine ⟨report,?_⟩
  rw [htransfer]
  have henum : large.enum = 2684356 := rfl
  have hlen : large.length 1 = 1600 := rfl
  simp only [filled, sender, hsent, henum, hlen, hload, if_pos hk]

lemma rx_one (c : Cleanup) (pos : ℕ) {data : List UInt8} (h : data.length = 1600) :
    c.rxEntries large ⟨1,pos,data⟩ = some (c.entryReceived large pos data) := by
  have hlen : large.length 1 = 1600 := rfl
  have hzero : large.length 0 = 0 := rfl
  have helen : large.elen = 1600 := rfl
  simp [Cleanup.rxEntries, Cleanup.rxLoop, hlen, hzero, helen, h, take_of_length_le h.le]

lemma receiver_round {k : ℕ} (hk : k+1 < 2684356) :
    (((receiver r k).entryReceived large k full).take large).free large = receiver r (k+1) := by
  have hmem : ∀ a, store (freedMem k) (k*1600) full a =
      if a < (k+1)*1600 ∧ (a % 1600 ≠ 63 ∨ k*1600 ≤ a) then kOwnCon else 0 := by
    intro a
    simp only [store, getD_full, freedMem]
    split_ifs <;> first | rfl | omega
  have hcon : conOwned (ownAt (store (freedMem k) (k*1600) full) (k*1600)) := by
    rw [ownAt, hmem, if_pos (by unfold kOwnType; omega)]
    decide
  have hload : load (store (freedMem k) (k*1600) full) (k*1600) 1600 = full := by
    have hself := load_store_self (freedMem k) (k*1600) full
    rwa [length_full] at hself
  have hrelease : release (store (freedMem k) (k*1600) full) (k*1600) = freedMem (k+1) := by
    have hdone : doneType (ownAt (store (freedMem k) (k*1600) full) (k*1600)) = 0 := by
      rw [ownAt, hmem, if_pos (by unfold kOwnType; omega)]
      decide
    rw [release, hdone]
    funext a
    have hone : ∀ (i : ℕ) (x : UInt8), [(0 : UInt8)].getD i x = if i = 0 then 0 else x := by
      intro i x
      cases i <;> rfl
    simp only [store.eq_1 (store _ _ _), hone, hmem, freedMem, kOwnType]
    split_ifs <;> first | rfl | omega
  have henum : large.enum = 2684356 := rfl
  have helen : large.elen = 1600 := rfl
  have hmod : k % 2684356 = k := mod_eq_of_lt (by omega)
  simp only [Cleanup.take, Cleanup.entryReceived, receiver, helen, henum, hcon, if_true, hload,
    mod_eq_of_lt hk, ← replicate_succ']
  simp only [Cleanup.free, length_replicate, henum, helen, hmod, hrelease, lt_add_one, if_true]

/-! Two proxies with one peer, whose simulator at `false` sends to the one at `true`. -/

def pair (l : Local) (c : Cleanup) (ahead back : List (Msg 1)) : State 1 where
  peers b _ := if b then ⟨{},c⟩ else ⟨l,{}⟩
  stream b := if b then back else ahead

abbrev largeConfig : Config 1 := fun _ _ => large

section
variable (l l' : Local) (c c' : Cleanup) (ahead back : List (Msg 1))

variable {l c ahead back} in
lemma eq_pair {s : State 1} (hf : s.peers false 0 = ⟨l,{}⟩) (ht : s.peers true 0 = ⟨{},c⟩)
    (ha : s.stream false = ahead) (hb : s.stream true = back) : s = pair l c ahead back := by
  obtain ⟨peers,stream⟩ := s
  unfold pair
  congr 1
  · funext b i
    rw [Subsingleton.elim i 0]
    cases b
    exacts [hf,ht]
  · funext b
    cases b
    exacts [ha,hb]

lemma pair_setLocal : (pair l c ahead back).setLocal false 0 l' = pair l' c ahead back :=
  eq_pair rfl rfl rfl rfl

lemma pair_setCleanup : (pair l c ahead back).setCleanup true 0 c' = pair l c' ahead back :=
  eq_pair rfl rfl rfl rfl

lemma pair_transfer {report : Bool} (h : l.transfer large = some (l',some e,report)) :
    step largeConfig (some (pair l c ahead back)) (.transfer false 0) = some
    (pair l' c (ahead++[.entries 0 e]) back) := by
  have hl : ((pair l c ahead back).peers false 0).loc = l := rfl
  simp only [step, State.transfer, hl, h, map_some, pair_setLocal, toList_some]
  exact congrArg some (eq_pair rfl rfl rfl rfl)

lemma pair_pop (m : Msg 1) :
    (⟨(pair l c (m::ahead) back).peers,update (pair l c (m::ahead) back).stream false ahead⟩ :
      State 1) = pair l c ahead back := eq_pair rfl rfl rfl rfl

lemma pair_deliver (h : c.rxEntries large e = some c') :
    step largeConfig (some (pair l c (.entries 0 e::ahead) back)) (.deliver false) = some
    (pair l c' ahead back) := by
  change State.receive largeConfig ⟨(pair l c (.entries 0 e::ahead) back).peers,
    update (pair l c (.entries 0 e::ahead) back).stream false ahead⟩ true (.entries 0 e) = _
  rw [pair_pop]
  change (c.rxEntries large e).map _ = _
  rw [h, map_some, pair_setCleanup]

lemma pair_report_sender : step largeConfig (some (pair l c ahead back)) (.report false) =
    some (pair { l with posReported := l.pos } c
      (ahead++[.report (fun _ => l.pos) fun _ => 0]) back) :=
  congrArg some (eq_pair rfl rfl rfl rfl)

lemma pair_report_receiver : step largeConfig (some (pair l c ahead back)) (.report true) =
    some (pair l { c with posReported := c.posNext } ahead
      (back++[.report (fun _ => 0) fun _ => c.posNext])) :=
  congrArg some (eq_pair rfl rfl rfl rfl)

lemma pair_deliver_written (w : ℕ) : step largeConfig
    (some (pair l c (.report (fun _ => w) (fun _ => 0)::ahead) back)) (.deliver false) = some (pair
    l { c with posLast := w } ahead back) := by
  change State.receive largeConfig
    ⟨(pair l c (.report (fun _ => w) (fun _ => 0)::ahead) back).peers,
    update (pair l c (.report (fun _ => w) (fun _ => 0)::ahead) back).stream false ahead⟩ true
    (.report (fun _ => w) fun _ => 0) = _
  rw [pair_pop, receive_report (p := fun _ => ⟨{},{ c with posLast := w }⟩)]
  · exact congrArg some (eq_pair rfl rfl rfl rfl)
  · intro i
    change (⟨{},c⟩ : Peer).report large w 0 = _
    rw [report_eq]
    rfl

lemma pair_deliver_clean (p : ℕ) {m : Memory}
    (h : clean large p large.enum l.posCleaned l.mem = some m) : step largeConfig
    (some (pair l c ahead [.report (fun _ => 0) fun _ => p])) (.deliver true) = some (pair { l with
    mem := m, posCleaned := p } c ahead []) := by
  have hpop : (⟨(pair l c ahead [.report (fun _ => 0) fun _ => p]).peers,
      update (pair l c ahead [.report (fun _ => 0) fun _ => p]).stream true []⟩ : State 1) =
      pair l c ahead [] := eq_pair rfl rfl rfl rfl
  change State.receive largeConfig ⟨(pair l c ahead [.report (fun _ => 0) fun _ => p]).peers,
    update (pair l c ahead [.report (fun _ => 0) fun _ => p]).stream true []⟩ false
    (.report (fun _ => 0) fun _ => p) = _
  rw [hpop, receive_report (p := fun _ => ⟨{ l with mem := m, posCleaned := p },{}⟩)]
  · exact congrArg some (eq_pair rfl rfl rfl rfl)
  · intro i
    change (⟨l,{}⟩ : Peer).report large 0 p = _
    rw [report_eq, h]
    rfl

end

def round : List (Event 1) :=
  [.produce false 0 full,.transfer false 0,.deliver false,.take true 0,.free true 0]

lemma run_round {k : ℕ} (hk : k+1 < 2684356) :
    run (step largeConfig) (some (pair (sender r k) (receiver r k) [] [])) round = some
    (pair (sender r (k+1)) (receiver r (k+1)) [] []) := by
  obtain ⟨_,htransfer⟩ := filled_transfer (r := r) hk
  have hproduce : step largeConfig (some (pair (sender r k) (receiver r k) [] []))
      (.produce false 0 full) = some (pair (filled r k) (receiver r k) [] []) := by
    rw [← sender_produce hk]
    exact congrArg some (pair_setLocal _ _ _ _ _)
  have hfree : step largeConfig (step largeConfig (some (pair (sender r (k+1))
      ((receiver r k).entryReceived large k full) [] [])) (.take true 0)) (.free true 0) =
      some (pair (sender r (k+1)) (receiver r (k+1)) [] []) := by
    rw [← receiver_round (r := r) hk]
    have htake : step largeConfig (some (pair (sender r (k+1))
        ((receiver r k).entryReceived large k full) [] [])) (.take true 0) = some (pair
        (sender r (k+1)) (((receiver r k).entryReceived large k full).take large) [] []) :=
      congrArg some (pair_setCleanup _ _ _ _ _)
    rw [htake]
    exact congrArg some (pair_setCleanup _ _ _ _ _)
  simp only [round, run_cons, run_nil]
  rw [hproduce, pair_transfer _ _ _ _ _ htransfer, nil_append,
    pair_deliver _ _ _ _ _ (rx_one _ _ length_full), hfree]

lemma run_rounds {k : ℕ} (m : ℕ) (hm : k+m < 2684356) :
    run (step largeConfig) (some (pair (sender r k) (receiver r k) [] []))
    (replicate m round).flatten = some (pair (sender r (k+m)) (receiver r (k+m)) [] []) := by
  induction m generalizing k with
  | zero => rfl
  | succ m ih =>
    rw [replicate_succ, flatten_cons, run_append, run_round (by omega),
      ih (by omega), add_right_comm, add_assoc]

lemma initial_pair : ({} : State 1) = pair (sender 0 0) (receiver 0 0) [] [] := by
  have hsent : sentMem 0 = fun _ => 0 := by
    funext a
    simp [sentMem]
  have hfreed : freedMem 0 = fun _ => 0 := by
    funext a
    simp [freedMem]
  unfold sender receiver
  rw [hsent, hfreed]
  exact eq_pair rfl rfl rfl rfl

def overrun : List (Event 1) :=
  round++[Event.report false,Event.deliver false]++(replicate 2684354 round).flatten++
    [Event.cleanup true 0,Event.report true,Event.deliver true,Event.transfer false 0,
      Event.deliver false,Event.take true 0]

lemma large_poll {k : ℕ} : ((receiver 1 k).poll large).1 = { receiver 1 k with posNext := 1 } := by
  have hpro : proOwned (ownAt (freedMem k) (large.offset 0)) := by
    rw [ownAt, freedMem, if_neg fun h => h.2 (by decide)]
    decide
  have hscan : (receiver 1 k).scan large (kCleanupMax+1) 0 0 = (1,1) := by
    rw [Cleanup.scan]
    exact (if_pos hpro).trans (if_neg fun h => h.2 (by rfl))
  have hne : ¬ (receiver 1 k).posNext = (receiver 1 k).posLast := by
    change ¬ 0 = 1
    decide
  unfold Cleanup.poll
  rw [if_neg hne]
  simp only [receiver] at hscan ⊢
  rw [hscan]

lemma large_clean (m : Memory) : clean large 1 large.enum 0 m = some (release m 0) := by
  change clean large 1 (2684354+1+1) 0 m = _
  rw [clean, if_neg (by decide), clean]
  exact if_pos rfl

/-- The offset of the last entry wraps around into the first one. -/
lemma offset_last : large.offset 2684355 = 704 := by decide

lemma release_first (a : ℕ) (h : a ≠ 63) : release (sentMem 2684355) 0 a = sentMem 2684355 a := by
  unfold release store
  split_ifs with hle
  · rw [getD_eq_getElem?_getD, getElem?_eq_none, getD_none]
    unfold kOwnType at hle ⊢
    simp
    omega
  · rfl

lemma length_take_consumed {c : Cleanup} (h : conOwned (ownAt c.mem (c.inPos*q.elen))) :
    (c.take q).consumed.length = c.consumed.length+1 := by
  rw [Cleanup.take, if_pos h, length_append, length_singleton]

def cleanedSender : Local :=
  { sender 1 2684355 with mem := release (sentMem 2684355) 0, posCleaned := 1 }

def cleaningReceiver : Cleanup := { receiver 1 2684355 with posNext := 1, posReported := 1 }

/-- The last position is taken for ready, by a byte inside the first entry. -/
lemma cleanedSender_transfer :
    ∃ l data report, data.length = 1600 ∧ data.getD kOwnType 0 = kOwnCon ∧
    l.produced = cleanedSender.produced ∧
    cleanedSender.transfer large = some (l,some ⟨1,2684355,data⟩,report) := by
  have hown : ownAt cleanedSender.mem (large.offset 2684355) = kOwnCon := by
    rw [offset_last]
    change release (sentMem 2684355) 0 767 = _
    rw [release_first 767 (by decide), sentMem, if_pos (by decide)]
  have hready : Ready large cleanedSender 0 := by
    refine ⟨by decide,by decide,?_⟩
    change conOwned (ownAt cleanedSender.mem (large.offset 2684355))
    rw [hown]
    decide
  have hnext : ¬ Ready large cleanedSender 1 := fun h => absurd h.1 (by decide)
  obtain ⟨report,htransfer⟩ := transfer_one hready hnext (by decide) (by decide)
  refine ⟨_,_,report,?_,?_,?_,htransfer⟩
  · exact length_load _ _ _
  · rw [← hown]
    change (load cleanedSender.mem (large.offset 2684355) 1600).getD 63 0 = _
    simp [load, ownAt, kOwnType]
  · rfl

/-- The consumer takes an entry that the producer has not put in its ring. -/
theorem large_ring_invents_entry : ∃ s, run (step largeConfig) (some {}) overrun = some s ∧
    ¬ (view s false 0).cleanup.consumed <+: (view s false 0).loc.produced := by
  obtain ⟨l,data,_,hlen,hown,hproduced,htransfer⟩ := cleanedSender_transfer
  have hfirst : run (step largeConfig) (some {}) (round++[.report false,.deliver false]) =
      some (pair (sender 1 1) (receiver 1 1) [] []) := by
    rw [run_append, initial_pair, run_round (by decide), run_cons, pair_report_sender, run_cons,
      nil_append, pair_deliver_written]
    rfl
  have hcleanup : step largeConfig (some (pair (sender 1 2684355) (receiver 1 2684355) [] []))
      (.cleanup true 0) = some (pair (sender 1 2684355)
        { receiver 1 2684355 with posNext := 1 } [] []) := by
    rw [← large_poll]
    exact congrArg some (pair_setCleanup _ _ _ _ _)
  have hdeliver : step largeConfig (some (pair (sender 1 2684355) cleaningReceiver []
      [.report (fun _ => 0) fun _ => 1])) (.deliver true) =
      some (pair cleanedSender cleaningReceiver [] []) :=
    pair_deliver_clean _ _ _ 1 (large_clean _)
  have hlast : run (step largeConfig)
      (some (pair (sender 1 2684355) (receiver 1 2684355) [] []))
      [.cleanup true 0,.report true,.deliver true,.transfer false 0,.deliver false,.take true 0] =
      some (pair l ((cleaningReceiver.entryReceived large 2684355 data).take large) [] []) := by
    rw [run_cons, hcleanup, run_cons, pair_report_receiver, run_cons, nil_append]
    change run _ (step largeConfig (some (pair (sender 1 2684355) cleaningReceiver []
      [.report (fun _ => 0) fun _ => 1])) (.deliver true)) _ = _
    rw [hdeliver, run_cons, pair_transfer _ _ _ _ _ htransfer, run_cons, nil_append,
      pair_deliver _ _ _ _ _ (rx_one _ _ hlen), run_cons, run_nil]
    exact congrArg some (pair_setCleanup _ _ _ _ _)
  have htake : ((cleaningReceiver.entryReceived large 2684355 data).take large).consumed.length =
      2684356 := by
    have hcon : conOwned (ownAt (cleaningReceiver.entryReceived large 2684355 data).mem
        ((cleaningReceiver.entryReceived large 2684355 data).inPos*large.elen)) := by
      change conOwned (ownAt (store (freedMem 2684355) (2684355*1600) data) (2684355*1600))
      have hlt : kOwnType < data.length := by
        rw [hlen]
        decide
      rw [ownAt, store, if_pos (Nat.le_add_right _ _), Nat.add_sub_cancel_left,
        getD_eq_getElem?_getD, getElem?_eq_getElem hlt, getD_some]
      rw [getD_eq_getElem?_getD, getElem?_eq_getElem hlt, getD_some] at hown
      rw [hown]
      decide
    rw [length_take_consumed hcon]
    exact congrArg (·+1) length_replicate
  refine ⟨pair l ((cleaningReceiver.entryReceived large 2684355 data).take large) [] [],?_,
    fun hpre => ?_⟩
  · unfold overrun
    rw [run_append, run_append, hfirst, run_rounds 2684354 (by decide)]
    exact hlast
  · have hle := hpre.length_le
    change ((cleaningReceiver.entryReceived large 2684355 data).take large).consumed.length ≤
      l.produced.length at hle
    rw [htake, hproduced] at hle
    change 2684356 ≤ (List.replicate 2684355 full).length at hle
    rw [length_replicate] at hle
    omega

end SimBricks.Transparency
