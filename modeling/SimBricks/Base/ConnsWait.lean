import Mathlib.Data.Fintype.Card
import Mathlib.Data.List.FinRange
import SimBricks.Library.Run

/-!
# Waiting for connections

`SimbricksBaseIfConnsWait` of `base/if.c` over `n` interfaces. The two arrays
hold whatever was on the stack before their entries are written, and keep
their entries from round to round. What the system calls return is an input
of each round; the descriptors only go to `poll` and are left out. An index
behind the interfaces has no meaning.
-/

set_option autoImplicit false

namespace SimBricks.ConnsWait
open Library.Run List Function Nat UInt32

inductive ConnState where
  | closed | listening | connecting | awaitHandshakeRxTx | awaitHandshakeRx | awaitHandshakeTx
  | opened
  deriving DecidableEq, Repr

namespace ConnState

def waits : ConnState → Bool
  | listening | connecting => true
  | _ => false

def past : ConnState → Bool
  | closed | listening | connecting => false
  | _ => true

end ConnState

/-- What `accept4`, or `poll` and `getsockopt` together, say about a socket:
connected, not yet, or an error. -/
inductive Answer where
  | ready | later | failed
  deriving DecidableEq, Repr

def connected : ConnState → Answer → ConnState × ℤ
  | .closed, _ => (.closed,-1)
  | .listening, .ready => (.awaitHandshakeRxTx,0)
  | .listening, .later => (.listening,1)
  | .listening, .failed => (.closed,-1)
  | .connecting, .ready => (.awaitHandshakeRxTx,0)
  | .connecting, .later => (.connecting,1)
  | .connecting, .failed => (.closed,-1)
  | c, _ => (c,0)

def kPollIn : UInt16 := 0x001
def kPollOut : UInt16 := 0x004

def errorEvent (revents : UInt16) : Bool := revents &&& ~~~(kPollIn ||| kPollOut) ≠ 0

/-- The system calls of one round: whether `poll` fails, the events it
reports, and the answers by index of the scan. -/
structure Env where
  pollFails : Bool
  revents : ℕ → UInt16
  answer : ℕ → Answer

abbrev Iface (n : UInt32) := Fin n.toNat

structure State (n : UInt32) where
  conn : Iface n → ConnState
  ids : ℕ → UInt32
  revents : ℕ → UInt16

variable {n : UInt32}

def State.fill (s : State n) (k : ℕ) (i : Iface n) : State n := { s with
    ids := update s.ids k (ofNat i.val)
    revents := update s.revents k 0 }

def prepare : List (Iface n) → ℕ → State n → Option (ℕ × State n)
  | [], nWait, s => some (nWait,s)
  | i::is, nWait, s =>
    match s.conn i with
    | .listening | .connecting => prepare is (nWait+1) (s.fill nWait i)
    | .awaitHandshakeRxTx | .awaitHandshakeRx | .awaitHandshakeTx | .opened => prepare is nWait s
    | .closed => none

/-- `calls` are the interfaces `Connected` was called on, `used` the entries
of the arrays that were read. -/
structure Scan (n : UInt32) where
  conn : Iface n → ConnState
  nWait : UInt32
  calls : List (Iface n) := []
  used : List ℕ := []

inductive End where
  | complete | failed | undefined
  deriving DecidableEq, Repr

def Scan.call (c : Scan n) (i : Iface n) (answer : Answer) : Scan n := { c with
    conn := update c.conn i (connected (c.conn i) answer).1
    calls := c.calls++[i]
    nWait := if (connected (c.conn i) answer).2 = 0 then c.nWait-1 else c.nWait }

def scan (s : State n) (env : Env) : List ℕ → Scan n → End × Scan n
  | [], c => (.complete,c)
  | i::is, c =>
    let c := { c with used := c.used++[i] }
    if h : (s.ids i).toNat < n.toNat then
      if errorEvent (s.revents i) then (.failed,c)
      else
        let iface : Iface n := ⟨(s.ids i).toNat,h⟩
        if (connected (c.conn iface) (env.answer i)).2 < 0 then
          (.failed,c.call iface (env.answer i))
        else scan s env is (c.call iface (env.answer i))
    else (.undefined,c)

inductive Verdict where
  | again | returned (v : ℤ) | undefined
  deriving DecidableEq, Repr

structure Round (n : UInt32) where
  verdict : Verdict
  state : State n
  calls : List (Iface n) := []
  used : List ℕ := []

def State.polled (s : State n) (nWait : ℕ) (env : Env) : State n :=
  { s with revents := fun i => if i < nWait then env.revents i else s.revents i }

def State.scanStart (s : State n) (nWait : ℕ) : Scan n := ⟨s.conn,ofNat nWait,[],[]⟩

def finish (s : State n) : End × Scan n → Round n
  | (.complete,c) => ⟨if c.nWait > 0 then .again else .returned 0,{ s with conn := c.conn },
      c.calls,c.used⟩
  | (.failed,c) => ⟨.returned (-1),{ s with conn := c.conn },c.calls,c.used⟩
  | (.undefined,c) => ⟨.undefined,{ s with conn := c.conn },c.calls,c.used⟩

def round (s : State n) (env : Env) : Round n :=
  match prepare (finRange n.toNat) 0 s with
  | none => ⟨.returned (-1),s,[],[]⟩
  | some (nWait,s) =>
    if nWait = 0 then ⟨.returned 0,s,[],[]⟩
    else if env.pollFails then ⟨.returned (-1),s,[],[]⟩
    else
      let s := s.polled nWait env
      finish s (scan s env (range n.toNat) (s.scanStart nWait))

inductive Call (n : UInt32) where
  | running (s : State n)
  | returned (v : ℤ) (s : State n)
  | undefined

def step : Call n → Env → Call n
  | .running s, env =>
    match (round s env).verdict with
    | .again => .running (round s env).state
    | .returned v => .returned v (round s env).state
    | .undefined => .undefined
  | c, _ => c

/-! ## Sound rounds and runs -/

def waiting (s : State n) : List (Iface n) := (finRange n.toNat).filter fun i => (s.conn i).waits

def AllPast (s : State n) : Prop := ∀ i, (s.conn i).past

/-- Only the entries filled in this round are read; each waiting interface is
called once and no other, except that an error ends the round; 0 is returned
exactly if every interface is past connection set-up. -/
structure RoundOk (s : State n) (env : Env) : Prop where
  used : ∀ i ∈ (round s env).used, i < (waiting s).length
  calls : (round s env).calls <+: waiting s
  all : (round s env).verdict ≠ .returned (-1) → (round s env).calls = waiting s
  zero : (round s env).verdict = .returned 0 ↔ AllPast (round s env).state

/-- Every round is in order, and so is the value returned. -/
structure Sound (s : State n) (envs : List Env) : Prop where
  rounds : ∀ earlier env later, envs = earlier++env::later →
    ∀ t, run step (.running s) earlier = .running t → RoundOk t env
  zero : ∀ v t, run step (.running s) envs = .returned v t → (v = 0 ↔ AllPast t)

def Fails (s : State n) (env : Env) : Prop :=
  ∃ i < (waiting s).length, errorEvent (env.revents i) ∨ env.answer i = .failed

/-- All interfaces wait, or none, or the round ends with an error in time. -/
def Clear (s : State n) (env : Env) : Prop :=
  (waiting s).length = n.toNat ∨ waiting s = [] ∨ (∃ i, s.conn i = .closed) ∨
  env.pollFails ∨ Fails s env

def RoundClear (c : Call n) (env : Env) : Prop := ∀ s, c = .running s → Clear s env

/-! ## Filling the arrays -/

variable {c : ConnState}

lemma waits_cases (h : c.waits) : c = .listening ∨ c = .connecting := by
  cases c <;> simp_all [ConnState.waits]

lemma past_iff : c.past ↔ c ≠ .closed ∧ c.waits = false := by
  cases c <;> simp [ConnState.past, ConnState.waits]

section
variable {i : Iface n} {is : List (Iface n)} {s : State n} (k : ℕ)

lemma prepare_waits (h : (s.conn i).waits) :
    prepare (i::is) k s = prepare is (k+1) (s.fill k i) := by
  rcases waits_cases h with hc | hc <;> simp only [prepare, hc]

lemma prepare_past (h : (s.conn i).past) : prepare (i::is) k s = prepare is k s := by
  cases hc : s.conn i <;> simp_all [prepare, ConnState.past]

lemma prepare_closed (h : ∃ i ∈ is, s.conn i = .closed) : prepare is k s = none := by
  induction is generalizing k s with
  | nil =>
    obtain ⟨i,hi,-⟩ := h
    cases hi
  | cons x is ih =>
    by_cases hx : s.conn x = .closed
    · simp [prepare, hx]
    · have hrest : ∃ i ∈ is, s.conn i = .closed := by
        obtain ⟨i,hi,hc⟩ := h
        rcases mem_cons.mp hi with rfl | hi
        · exact absurd hc hx
        · exact ⟨i,hi,hc⟩
      by_cases hw : (s.conn x).waits
      · rw [prepare_waits k hw]
        exact ih (k+1) hrest
      · rw [prepare_past k (past_iff.mpr ⟨hx,Bool.of_not_eq_true hw⟩)]
        exact ih k hrest

lemma prepare_spec (h : ∀ i ∈ is, s.conn i ≠ .closed) :
    ∃ t, prepare is k s = some (k+(is.filter fun i => (s.conn i).waits).length,t) ∧
    t.conn = s.conn ∧ (∀ j < k, t.ids j = s.ids j) ∧ ∀ x i,
    (is.filter fun i => (s.conn i).waits)[x]? = some i → (t.ids (k+x)).toNat = i.val := by
  induction is generalizing k s with
  | nil => exact ⟨s,rfl,rfl,fun _ _ => rfl,fun x i hi => by simp at hi⟩
  | cons y is ih =>
    have hrest : ∀ i ∈ is, s.conn i ≠ .closed := fun i hi => h i (mem_cons_of_mem y hi)
    by_cases hw : (s.conn y).waits
    · obtain ⟨t,ht,hconn,hbelow,hids⟩ := ih (s := s.fill k y) (k+1) hrest
      simp only [filter_cons, hw, if_true, length_cons]
      refine ⟨t,?_,hconn,?_,?_⟩
      · rw [prepare_waits k hw, ht]
        show some (k+1+(is.filter fun i => (s.conn i).waits).length,t) = _
        rw [add_right_comm, add_assoc]
      · intro j hj
        rw [hbelow j (by omega)]
        exact update_of_ne (by omega) _ _
      · intro x i hi
        cases x with
        | zero =>
          obtain rfl : y = i := by simpa using hi
          have hy : y.val < 2^32 := lt_trans y.isLt n.toNat_lt
          rw [add_zero, hbelow k (by omega)]
          show (Function.update s.ids k (UInt32.ofNat y.val) k).toNat = _
          rw [update_self, UInt32.toNat_ofNat', mod_eq_of_lt hy]
        | succ x =>
          have hx := hids x i hi
          rwa [add_right_comm] at hx
    · have hpast : (s.conn y).past :=
        past_iff.mpr ⟨h y mem_cons_self,Bool.of_not_eq_true hw⟩
      simp only [filter_cons, hw, prepare_past k hpast]
      exact ih k hrest

end

/-! ## The scan -/

section
variable {s : State n} {env : Env}

lemma scan_cons {i : ℕ} {is : List ℕ} {c : Scan n} {iface : Iface n}
    (hid : (s.ids i).toNat = iface.val) : scan s env (i::is) c = if errorEvent (s.revents i) then
    (.failed,{ c with used := c.used++[i] })
      else if (connected (c.conn iface) (env.answer i)).2 < 0 then
        (.failed,{ c with used := c.used++[i] }.call iface (env.answer i))
      else scan s env is ({ c with used := c.used++[i] }.call iface (env.answer i)) := by
  have h : (s.ids i).toNat < n.toNat := hid ▸ iface.isLt
  have he : (⟨(s.ids i).toNat,h⟩ : Iface n) = iface := Fin.ext hid
  rw [scan]
  simp [dif_pos h, he]

lemma used_scan (is : List ℕ) (c : Scan n) : c.used <+: (scan s env is c).2.used := by
  induction is generalizing c with
  | nil => exact prefix_rfl
  | cons i is ih =>
    have hmore : c.used <+: c.used++[i] := prefix_append _ _
    rw [scan]
    dsimp only
    split_ifs
    · exact hmore
    · exact hmore
    · exact hmore.trans (ih (Scan.call { c with used := c.used++[i] } _ _))
    · exact hmore

lemma head_used (i : ℕ) (is : List ℕ) (c : Scan n) : i ∈ (scan s env (i::is) c).2.used := by
  have hmem : i ∈ c.used++[i] := by simp
  rw [scan]
  dsimp only
  split_ifs
  · exact hmem
  · exact hmem
  · exact (used_scan _ _).subset hmem
  · exact hmem

end

def pending (conn : Iface n → ConnState) : Finset (Iface n) :=
  Finset.univ.filter fun i => (conn i).waits

/-- The counter counts what waits, and nothing is closed. -/
structure Counts (c : Scan n) : Prop where
  card : c.nWait.toNat = (pending c.conn).card
  live : ∀ i, c.conn i ≠ .closed

lemma pending_update {conn : Iface n → ConnState} {i : Iface n} (hc : c.waits = false) :
    pending (update conn i c) = (pending conn).erase i := by
  ext j
  by_cases hj : j = i
  · subst hj
    simp [pending, hc]
  · simp [pending, hj]

lemma Counts.call {c : Scan n} (h : Counts c) {i : Iface n} (hw : (c.conn i).waits)
    {answer : Answer} (ha : answer ≠ .failed) : Counts (c.call i answer) := by
  have hmem : i ∈ pending c.conn := by simp [pending, hw]
  have hone : 1 ≤ c.nWait.toNat := by
    rw [h.card]
    exact Finset.card_pos.mpr ⟨i,hmem⟩
  cases answer with
  | failed => exact absurd rfl ha
  | later =>
    have hsame : connected (c.conn i) .later = (c.conn i,1) := by
      rcases waits_cases hw with hc | hc <;> rw [hc] <;> rfl
    refine ⟨?_,?_⟩
    · simp only [Scan.call, hsame, update_eq_self]
      exact h.card
    · simp only [Scan.call, hsame, update_eq_self]
      exact h.live
  | ready =>
    have hdone : connected (c.conn i) .ready = (.awaitHandshakeRxTx,0) := by
      rcases waits_cases hw with hc | hc <;> rw [hc] <;> rfl
    have hsub : (c.nWait-1).toNat = c.nWait.toNat-1 := UInt32.toNat_sub_of_le _ _ (by exact hone)
    refine ⟨?_,?_⟩
    · simp only [Scan.call, hdone, if_true]
      rw [pending_update rfl, Finset.card_erase_of_mem hmem, ← h.card, hsub]
    · intro j
      simp only [Scan.call, hdone]
      by_cases hj : j = i
      · subst hj
        simp
      · rw [update_of_ne hj]
        exact h.live j

def Stops (s : State n) (env : Env) (i : ℕ) : Prop :=
  errorEvent (s.revents i) ∨ env.answer i = .failed

/-- The part of a scan that reads entries of interfaces that wait: it calls
them in order and goes on behind them, or ends at one of them. -/
lemma scan_filled {s : State n} (env : Env) (more : List ℕ) {ws : List (Iface n)} (j : ℕ)
    {c : Scan n} (hids : ∀ x i, ws[x]? = some i → (s.ids (j+x)).toNat = i.val) (hnodup : ws.Nodup)
    (hwait : ∀ i ∈ ws, (c.conn i).waits) (hcount : Counts c) :
    ((∃ x < ws.length, Stops s env (j+x)) ∧ ∃ c' m, m ≤ ws.length ∧
      scan s env (range' j ws.length++more) c = (.failed,c') ∧
      c'.used = c.used++range' j m ∧ c'.calls <+: c.calls++ws ∧
      ∃ i, (c'.conn i).past = false) ∨
    ((∀ x < ws.length, ¬ Stops s env (j+x)) ∧ ∃ c',
      scan s env (range' j ws.length++more) c = scan s env more c' ∧
      c'.used = c.used++range' j ws.length ∧ c'.calls = c.calls++ws ∧ Counts c') := by
  induction ws generalizing j c with
  | nil => exact .inr ⟨fun x hx => absurd hx (by simp),c,rfl,by simp,by simp,hcount⟩
  | cons i ws ih =>
    have hid : (s.ids j).toNat = i.val := hids 0 i rfl
    have hw := hwait i mem_cons_self
    simp only [length_cons, range'_succ, cons_append]
    rw [scan_cons hid]
    by_cases he : errorEvent (s.revents j)
    · rw [if_pos he]
      refine .inl ⟨⟨0,by omega,.inl he⟩,_,1,by omega,rfl,rfl,prefix_append _ _,i,?_⟩
      rcases waits_cases hw with hc | hc <;> simp [hc, ConnState.past]
    rw [if_neg he]
    by_cases ha : env.answer j = .failed
    · have hfail : connected (c.conn i) .failed = (.closed,-1) := by
        rcases waits_cases hw with hc | hc <;> rw [hc] <;> rfl
      rw [ha, if_pos (by simp [hfail])]
      refine .inl ⟨⟨0,by omega,.inr ha⟩,_,1,by omega,rfl,rfl,⟨ws,by simp [Scan.call]⟩,i,?_⟩
      simp [Scan.call, hfail, ConnState.past]
    have hret : ¬ (connected (c.conn i) (env.answer j)).2 < 0 := by
      rcases waits_cases hw with hc | hc <;> rw [hc] <;> cases hans : env.answer j <;>
        simp_all [connected]
    rw [if_neg hret]
    have hstart : ¬ Stops s env j := not_or.mpr ⟨he,ha⟩
    have hcount' : Counts { c with used := c.used++[j] } := ⟨hcount.card,hcount.live⟩
    have hnext := ih (j+1)
      (fun x k hk => by
        have := hids (x+1) k hk
        rwa [add_comm x, ← add_assoc] at this)
      (nodup_cons.mp hnodup).2
      (fun k hk => by
        have hne : k ≠ i := by
          rintro rfl
          exact (nodup_cons.mp hnodup).1 hk
        show (update c.conn i _ k).waits
        rw [update_of_ne hne]
        exact hwait k (mem_cons_of_mem i hk))
      (hcount'.call hw ha)
    rcases hnext with ⟨⟨x,hx,_⟩,c',m,_,hscan,hused,hcalls,hpast⟩ |
      ⟨hnone,c',hscan,hused,hcalls,hc'⟩
    · refine .inl ⟨⟨x+1,by omega,by rwa [add_comm x, ← add_assoc]⟩,c',m+1,by omega,hscan,
        ?_,?_,hpast⟩
      · rw [hused, range'_succ]
        simp [Scan.call]
      · simpa [Scan.call] using hcalls
    · refine .inr ⟨?_,c',hscan,?_,?_,hc'⟩
      · intro x hx
        cases x with
        | zero => exact hstart
        | succ x =>
          rw [add_comm x, ← add_assoc]
          exact hnone x (by omega)
      · rw [hused]
        simp [Scan.call]
      · rw [hcalls]
        simp [Scan.call]

/-! ## One round -/

section
variable {s : State n} {env : Env}

lemma mem_waiting {i : Iface n} : i ∈ waiting s ↔ (s.conn i).waits := by
  simp [waiting]

lemma waiting_nodup (s : State n) : (waiting s).Nodup := (nodup_finRange _).filter _

lemma waiting_length_le (s : State n) : (waiting s).length ≤ n.toNat := by
  have h := length_filter_le (fun i => (s.conn i).waits) (finRange n.toNat)
  rwa [length_finRange] at h

lemma card_pending (s : State n) : (pending s.conn).card = (waiting s).length := by
  rw [← toFinset_card_of_nodup (waiting_nodup s)]
  congr 1
  ext i
  simp [pending, mem_waiting]

lemma not_allPast_of_waiting (h : waiting s ≠ []) : ¬ AllPast s := by
  intro hp
  obtain ⟨i,hi⟩ := exists_mem_of_ne_nil _ h
  have hw := mem_waiting.mp hi
  rw [(past_iff.mp (hp i)).2] at hw
  cases hw

variable {t : State n}

/-- A round that ends with an error is in order if what it did is a part of
its work and something is left to do. -/
lemma roundOk_of_error {calls : List (Iface n)} {used : List ℕ}
    (hround : round s env = ⟨.returned (-1),t,calls,used⟩)
    (hused : ∀ i ∈ used, i < (waiting s).length) (hcalls : calls <+: waiting s)
    (hpast : ¬ AllPast t) : RoundOk s env := by
  refine ⟨?_,?_,?_,?_⟩ <;> rw [hround]
  · exact hused
  · exact hcalls
  · exact fun h => absurd rfl h
  · exact iff_of_false (by simp) hpast

lemma roundOk_closed (h : ∃ i, s.conn i = .closed) : RoundOk s env := by
  have hprep : prepare (finRange n.toNat) 0 s = none := by
    obtain ⟨i,hi⟩ := h
    exact prepare_closed 0 ⟨i,mem_finRange i,hi⟩
  apply roundOk_of_error (by unfold round; rw [hprep]) (by simp)
    nil_prefix
  intro hp
  obtain ⟨i,hi⟩ := h
  have hi' := hp i
  rw [hi] at hi'
  cases hi'

lemma finish_used (t : State n) (r : End × Scan n) : (finish t r).used = r.2.used := by
  obtain ⟨e,c⟩ := r
  cases e <;> rfl

lemma roundOk_of_complete {c : Scan n} (hround : round s env = finish t (.complete,c))
    (hused : ∀ i ∈ c.used, i < (waiting s).length) (hcalls : c.calls = waiting s)
    (hcount : Counts c) : RoundOk s env := by
  refine ⟨?_,?_,?_,?_⟩ <;> rw [hround]
  · exact hused
  · exact ⟨[],by simp [finish, hcalls]⟩
  · exact fun _ => hcalls
  · have hpast : AllPast (finish t (.complete,c)).state ↔ (pending c.conn).card = 0 := by
      rw [Finset.card_eq_zero, pending, Finset.filter_eq_empty_iff]
      constructor
      · intro hp i _ hw
        have hpi : (c.conn i).past := hp i
        rw [(past_iff.mp hpi).2] at hw
        cases hw
      · intro hnone i
        exact past_iff.mpr ⟨hcount.live i,Bool.of_not_eq_true (hnone (Finset.mem_univ i))⟩
    rw [hpast, ← hcount.card]
    simp only [finish]
    by_cases hw : c.nWait > 0
    · rw [if_pos hw]
      apply iff_of_false (by simp)
      have hpos : 0 < c.nWait.toNat := UInt32.lt_iff_toNat_lt.mp hw
      omega
    · rw [if_neg hw]
      apply iff_of_true rfl
      have hle : c.nWait.toNat ≤ 0 := UInt32.le_iff_toNat_le.mp (UInt32.not_lt.mp hw)
      omega

/-- The scan of a round whose arrays are filled. -/
lemma roundOk_scan_iff (hlive : ∀ i, s.conn i ≠ .closed) (hconn : t.conn = s.conn)
    (hids : ∀ x i, (waiting s)[x]? = some i → (t.ids x).toNat = i.val)
    (hrev : ∀ x < (waiting s).length, t.revents x = env.revents x)
    (hround : round s env =
      finish t (scan t env (range n.toNat) (t.scanStart (waiting s).length))) :
    RoundOk s env ↔ (waiting s).length = n.toNat ∨ Fails s env := by
  have hle := waiting_length_le s
  have hn := n.toNat_lt
  have hsplit : List.range n.toNat = List.range' 0 (waiting s).length++
      range' (waiting s).length (n.toNat-(waiting s).length) := by
    have h : range' 0 (waiting s).length++
        range' (0+(waiting s).length) (n.toNat-(waiting s).length) = _ :=
      range'_append_1
    rw [Nat.zero_add, Nat.add_sub_cancel' hle] at h
    rw [range_eq_range', h]
  have hcounts : Counts (t.scanStart (waiting s).length) := by
    refine ⟨?_,?_⟩
    · show (ofNat (waiting s).length).toNat = (pending t.conn).card
      rw [hconn, card_pending, toNat_ofNat', mod_eq_of_lt (by omega)]
    · show ∀ i, t.conn i ≠ .closed
      rw [hconn]
      exact hlive
  have hstops : ∀ x < (waiting s).length, (Stops t env (0+x) ↔
      errorEvent (env.revents x) ∨ env.answer x = .failed) := by
    intro x hx
    rw [Stops, zero_add, hrev x hx]
  have hscan := scan_filled env
    (range' (waiting s).length (n.toNat-(waiting s).length)) 0
    (fun x i hi => by rw [zero_add]; exact hids x i hi)
    (waiting_nodup s) (fun i hi => by
      show (t.conn i).waits
      rw [hconn]
      exact mem_waiting.mp hi) hcounts
  rw [← hsplit] at hscan
  have hbelow : ∀ (c : Scan n) (m : ℕ), m ≤ (waiting s).length →
      c.used = (t.scanStart (waiting s).length).used++range' 0 m →
      ∀ i ∈ c.used, i < (waiting s).length := by
    intro c m hm hused i hi
    rw [hused] at hi
    have := mem_range'_1.mp hi
    omega
  rcases hscan with ⟨⟨x,hx,hstop⟩,c,m,hm,hscan,hused,hcalls,i,hi⟩ |
    ⟨hnone,c,hscan,hused,hcalls,hc⟩
  · -- one of the filled entries ends the round
    rw [hscan] at hround
    refine iff_of_true ?_ (.inr ⟨x,hx,(hstops x hx).mp hstop⟩)
    apply roundOk_of_error hround (hbelow c m hm hused) hcalls
    intro hp
    have hpi : (c.conn i).past := hp i
    rw [hi] at hpi
    cases hpi
  have hfails : ¬ Fails s env := by
    rintro ⟨x,hx,hor⟩
    exact hnone x hx ((hstops x hx).mpr hor)
  rw [or_iff_left hfails]
  by_cases hall : (waiting s).length = n.toNat
  · -- the filled entries are all there are
    refine iff_of_true ?_ hall
    rw [show n.toNat-(waiting s).length = 0 by omega, range'_zero] at hscan
    rw [hscan] at hround
    exact roundOk_of_complete hround (hbelow c _ le_rfl hused) hcalls hc
  · -- the next entry is not one of this round
    refine iff_of_false ?_ hall
    intro hok
    have hlast : (waiting s).length ∈ (round s env).used := by
      rw [hround, finish_used, hscan, show n.toNat-(waiting s).length =
        (n.toNat-(waiting s).length-1)+1 by omega, range'_succ]
      exact head_used _ _ _
    exact absurd (hok.used _ hlast) (lt_irrefl _)

lemma roundOk_iff (s : State n) (env : Env) : RoundOk s env ↔ Clear s env := by
  unfold Clear
  by_cases hclosed : ∃ i, s.conn i = .closed
  · exact iff_of_true (roundOk_closed hclosed) (.inr (.inr (.inl hclosed)))
  have hlive : ∀ i, s.conn i ≠ .closed := fun i hi => hclosed ⟨i,hi⟩
  have hall : ∀ i ∈ finRange n.toNat, s.conn i ≠ .closed := fun i _ => hlive i
  obtain ⟨t,hprep,hconn,-,hids⟩ := prepare_spec 0 hall
  rw [zero_add] at hprep
  change prepare (finRange n.toNat) 0 s = some ((waiting s).length,t) at hprep
  have hround : round s env = if (waiting s).length = 0 then ⟨.returned 0,t,[],[]⟩
      else if env.pollFails then ⟨.returned (-1),t,[],[]⟩
      else finish (t.polled (waiting s).length env) (scan (t.polled (waiting s).length env) env
        (range n.toNat) ((t.polled (waiting s).length env).scanStart (waiting s).length)) := by
    unfold round
    rw [hprep]
  have hsame : waiting t = waiting s := by rw [waiting, hconn]; rfl
  by_cases hw : waiting s = []
  · refine iff_of_true ?_ (.inr (.inl hw))
    rw [if_pos (by simp [hw])] at hround
    refine ⟨?_,?_,?_,?_⟩ <;> rw [hround]
    · simp
    · exact nil_prefix
    · exact fun _ => hw.symm
    · refine iff_of_true rfl fun i => ?_
      rw [hconn]
      refine past_iff.mpr ⟨hlive i,Bool.of_not_eq_true fun hi => ?_⟩
      have hmem := mem_waiting.mpr hi
      rw [hw] at hmem
      cases hmem
  rw [if_neg (by simpa using hw)] at hround
  by_cases hpoll : env.pollFails
  · rw [if_pos hpoll] at hround
    refine iff_of_true ?_ (.inr (.inr (.inr (.inl hpoll))))
    exact roundOk_of_error hround (by simp) nil_prefix
      (not_allPast_of_waiting (hsame ▸ hw))
  · rw [if_neg hpoll] at hround
    rw [roundOk_scan_iff (t := t.polled (waiting s).length env) hlive hconn
      (fun x i hi => by simpa [State.polled] using hids x i hi) (fun x hx => if_pos hx) hround]
    tauto

end

/-! ## The whole call -/

lemma returned_of_roundOk {c : Call n} {env : Env} (hok : ∀ s, c = .running s → RoundOk s env)
    (h : ∀ v t, c = .returned v t → (v = 0 ↔ AllPast t)) (v : ℤ) (t : State n)
    (ht : step c env = .returned v t) : v = 0 ↔ AllPast t := by
  cases c with
  | returned => exact h v t ht
  | undefined => cases ht
  | running s =>
    simp only [step] at ht
    cases hv : (round s env).verdict with
    | again | undefined =>
      rw [hv] at ht
      cases ht
    | returned =>
      rw [hv] at ht
      obtain ⟨rfl,rfl⟩ := Call.returned.inj ht
      rw [← (hok s rfl).zero, hv, Verdict.returned.injEq]

theorem connsWait_sound_iff (s : State n) (envs : List Env) :
    Sound s envs ↔ Along step RoundClear (.running s) envs := by
  have hrounds : Along step (fun c env => ∀ t, c = .running t → RoundOk t env) (.running s) envs ↔
      Along step RoundClear (.running s) envs :=
    along_congr (I := fun _ => True) (fun _ _ _ => trivial)
      (fun c env _ => forall₂_congr fun t _ => roundOk_iff t env) trivial envs
  rw [← hrounds]
  constructor
  · intro h
    exact (along_iff _ _ _ _).mpr h.rounds
  · intro h
    refine ⟨(along_iff _ _ _ _).mp h,?_⟩
    apply run_invariant (I := fun c => ∀ v t, c = .returned v t → (v = 0 ↔ AllPast t))
      (fun c env hi hok => returned_of_roundOk hok hi) ?_ h
    intro v t ht
    cases ht

def events (ready : List ℕ) : Env :=
  ⟨false,fun _ => kPollIn,fun i => if i ∈ ready then .ready else .later⟩

def twoIfaces (a b : ConnState) (stack : UInt32) : State 2 :=
  ⟨fun i => if i.val = 0 then a else b,fun _ => stack,fun _ => 0⟩

/-- The second round reads an entry of the first one, finds interface 1
connected and counts it: 0 is returned while interface 0 is listening. With
interface 0 connected from the start the first round reads an entry that was
never written. -/
theorem stale_entries :
    (∃ t, run step (.running (twoIfaces .listening .listening 0)) [events [1],events []] =
      .returned 0 t ∧ t.conn ⟨0,by decide⟩ = .listening) ∧
    run step (.running (twoIfaces .opened .listening 7)) [events []] = .undefined ∧
    ¬ Sound (twoIfaces .listening .listening 0) [events [1],events []] := by
  have hrun : ∃ t, run step (.running (twoIfaces .listening .listening 0)) [events [1],events []] =
      .returned 0 t ∧ t.conn ⟨0,by decide⟩ = .listening := ⟨_,rfl,rfl⟩
  refine ⟨hrun,rfl,fun h => ?_⟩
  obtain ⟨t,ht,hc⟩ := hrun
  have hpast := (h.zero 0 t ht).mp rfl ⟨0,by decide⟩
  rw [hc] at hpast
  cases hpast

end SimBricks.ConnsWait
