import SimBricks.Library.Run

/-!
# The two senders of `net_sockets.c`

The I/O thread passes introductions on, the poll thread entries and reports,
as soon as some peer is ready. Each loops over `write` on the one socket.
-/

set_option autoImplicit false

namespace SimBricks.SharedSocket
open Library.Run List Function

inductive Thread where
  | io | poll
  deriving DecidableEq

def Thread.other : Thread → Thread
  | .io => .poll
  | .poll => .io

structure Send where
  buf : List UInt8
  pos : ℕ := 0

structure Proxy (n : ℕ) where
  introValidLocal : Fin n → Bool := fun _ => false
  ready : Fin n → Bool := fun _ => false
  sending : Thread → Option Send := fun _ => none
  stream : List UInt8 := []
  sent : List (List UInt8) := []

/-- `write` takes at most `k` bytes, none if it would block. When a peer's
introduction comes from the other side is open, a failing call ends the
program. -/
inductive Event (n : ℕ) where
  | peerEvent (p : Fin n) (buf : List UInt8)
  | ready (p : Fin n)
  | poll (buf : List UInt8)
  | write (t : Thread) (k : ℕ)

variable {n : ℕ}

def Proxy.sockSend (s : Proxy n) (t : Thread) (buf : List UInt8) : Proxy n :=
  { s with sending := update s.sending t (some { buf }), sent := s.sent++[buf] }

def Send.write (x : Send) (k : ℕ) : Option Send :=
  if x.pos+k < x.buf.length then some { x with pos := x.pos+k } else none

def step (s : Proxy n) : Event n → Proxy n
  | .peerEvent p buf =>
    if s.sending .io = none ∧ s.introValidLocal p = false then
      { s.sockSend .io buf with introValidLocal := update s.introValidLocal p true }
    else s
  | .ready p =>
    if s.sending .io = none ∧ s.introValidLocal p then
      { s with ready := update s.ready p true }
    else s
  | .poll buf => if s.sending .poll = none ∧ ∃ p, s.ready p then s.sockSend .poll buf else s
  | .write t k =>
    match s.sending t with
    | none => s
    | some x =>
      { s with
        stream := s.stream++(x.buf.drop x.pos).take k
        sending := update s.sending t (x.write k) }

/-- Between messages the stream holds each message once and whole. -/
def Whole (s : Proxy n) : Prop :=
  (∀ t, s.sending t = none) → ∃ msgs : List _, msgs.Perm s.sent ∧ s.stream = msgs.flatten

/-- No thread calls `SockSend` while the other is in it. -/
def apart (s : Proxy n) (e : Event n) : Bool :=
  (step s e).sent == s.sent || (s.sending .io).isNone && (s.sending .poll).isNone

/-- No `write` is short: it takes all that is left, or it would block. -/
def full (s : Proxy n) : Event n → Bool
  | .write t k => (s.sending t).all fun x => k == 0 || x.buf.length ≤ x.pos+k
  | _ => true

def part (x : Option Send) : List UInt8 := x.elim [] fun x => x.buf.take x.pos
def bufs (x : Option Send) : List (List UInt8) := x.elim [] fun x => [x.buf]

/-- At most one message has been written in part, that of `t`. -/
structure Inv (t : Thread) (msgs : List (List UInt8)) (s : Proxy n) : Prop where
  stream : s.stream = msgs.flatten++part (s.sending t)
  other : part (s.sending t.other) = []
  sent : s.sent.Perm (msgs++(bufs (s.sending t)++bufs (s.sending t.other)))

variable {s : Proxy n} {t u : Thread} {msgs : List (List UInt8)}

lemma Thread.other_ne (t : Thread) : t.other ≠ t := by
  cases t <;> decide

lemma Thread.other_other (t : Thread) : t.other.other = t := by
  cases t <;> rfl

lemma Inv.focus (h : Inv t msgs s) (hu : part (s.sending u.other) = []) : Inv u msgs s := by
  obtain rfl | rfl : u = t ∨ u = t.other := by cases u <;> cases t <;> simp [Thread.other]
  · exact h
  rw [t.other_other] at hu
  refine ⟨by rw [h.stream, hu, h.other],by rw [t.other_other, hu],?_⟩
  rw [t.other_other]
  exact h.sent.trans (perm_append_comm.append_left msgs)

lemma Inv.sockSend (h : Inv t msgs s) (hu : s.sending u = none) (buf : List UInt8) :
    Inv u.other msgs (s.sockSend u buf) := by
  have h' : Inv u.other msgs s := h.focus (by rw [u.other_other, hu]; rfl)
  have hsent := h'.sent.append_right [buf]
  refine ⟨?_,?_,?_⟩
  · simpa [Proxy.sockSend, update_of_ne u.other_ne] using h'.stream
  · simp [Proxy.sockSend, u.other_other, part]
  · simpa [Proxy.sockSend, update_of_ne u.other_ne, u.other_other, hu, bufs] using hsent

lemma Inv.write (h : Inv t msgs s) {x : Send} (hx : s.sending t = some x) (k : ℕ) :
    ∃ msgs, Inv t msgs (step s (.write t k)) := by
  have hstream : s.stream++(x.buf.drop x.pos).take k = msgs.flatten++x.buf.take (x.pos+k) := by
    rw [h.stream, hx, take_add, append_assoc]
    rfl
  have hsent := h.sent
  rw [hx] at hsent
  rw [SharedSocket.step, hx]
  dsimp only
  rw [hstream]
  by_cases hk : x.pos+k < x.buf.length
  · refine ⟨msgs,?_,?_,?_⟩
    · simp [Send.write, hk, part]
    · simpa [update_of_ne t.other_ne] using h.other
    · simpa [Send.write, hk, update_of_ne t.other_ne, bufs] using hsent
  · refine ⟨msgs++[x.buf],?_,?_,?_⟩
    · simp [Send.write, hk, part, take_of_length_le (Nat.le_of_not_lt hk)]
    · simpa [update_of_ne t.other_ne] using h.other
    · simpa [Send.write, hk, update_of_ne t.other_ne, bufs] using hsent

/-- While one thread is sending, the other has written no part of a message. -/
def Exclusive (s : Proxy n) : Prop := ∀ u x, s.sending u = some x → part (s.sending u.other) = []

lemma Inv.step (h : Inv t msgs s) (he : Exclusive s) (e : Event n) :
    ∃ t msgs, Inv t msgs (step s e) := by
  cases e with
  | peerEvent p buf =>
    rw [SharedSocket.step]
    split_ifs with hi
    · have h := h.sockSend hi.1 buf
      exact ⟨.poll,msgs,h.1,h.2,h.3⟩
    · exact ⟨t,msgs,h⟩
  | ready p =>
    rw [SharedSocket.step]
    split_ifs
    · exact ⟨t,msgs,h.1,h.2,h.3⟩
    · exact ⟨t,msgs,h⟩
  | poll buf =>
    rw [SharedSocket.step]
    split_ifs with hi
    · exact ⟨_,msgs,h.sockSend hi.1 buf⟩
    · exact ⟨t,msgs,h⟩
  | write u k =>
    cases hx : s.sending u with
    | none =>
      rw [SharedSocket.step, hx]
      exact ⟨t,msgs,h⟩
    | some x => exact ⟨u,(h.focus (he u x hx)).write hx k⟩

/-- An invariant that keeps the threads apart is enough. -/
lemma whole_of {J : Proxy n → Prop} {C : Proxy n → Event n → Bool} (h0 : J {})
    (hJ : ∀ s e, J s → C s e → J (step s e)) (hex : ∀ s, J s → Exclusive s) {es : List (Event n)}
    (h : Along step (C · ·) {} es) : Whole (run step {} es) := by
  obtain ⟨-,t,msgs,hinv⟩ := run_invariant (I := fun s => J s ∧ ∃ t msgs, Inv t msgs s)
    (fun s e ⟨hj,_,_,hi⟩ he => ⟨hJ s e hj he,hi.step (hex s hj) e⟩) ⟨h0,.io,[],rfl,rfl,.nil⟩ h
  refine fun hnone => ⟨msgs,?_,?_⟩
  · simpa [hnone, bufs] using hinv.sent.symm
  · simpa [hnone, part] using hinv.stream

lemma apart_step {e : Event n} (h : s.sending .io = none ∨ s.sending .poll = none)
    (he : apart s e) : (step s e).sending .io = none ∨ (step s e).sending .poll = none := by
  cases e with
  | ready p =>
    rw [step]
    split_ifs <;> exact h
  | peerEvent p buf =>
    by_cases hi : s.sending .io = none ∧ s.introValidLocal p = false
    · right
      simpa [step, hi, Proxy.sockSend, apart] using he
    · rwa [step, if_neg hi]
  | poll buf =>
    by_cases hi : s.sending .poll = none ∧ ∃ p, s.ready p
    · left
      simpa [step, hi, Proxy.sockSend, apart] using he
    · rwa [step, if_neg hi]
  | write t k =>
    cases hx : s.sending t with
    | none => simpa [step, hx] using h
    | some x => cases t <;> simp_all [step]

lemma full_step {e : Event n} (h : ∀ u, ∀ x ∈ s.sending u, x.pos = 0) (he : full s e) :
    ∀ u, ∀ x ∈ (step s e).sending u, x.pos = 0 := by
  cases e with
  | ready p =>
    rw [step]
    split_ifs <;> exact h
  | peerEvent p buf | poll buf =>
    rw [step]
    split_ifs
    · exact (forall_update_iff s.sending fun _ y => ∀ x ∈ y, x.pos = 0).mpr
        ⟨by simp,fun u _ => h u⟩
    · exact h
  | write t k =>
    cases hx : s.sending t with
    | none => simpa [step, hx] using h
    | some x =>
      simp only [full, hx, Option.all_some, Bool.or_eq_true, beq_iff_eq, decide_eq_true_eq] at he
      simp only [step, hx]
      refine (forall_update_iff s.sending fun _ y => ∀ x ∈ y, x.pos = 0).mpr
        ⟨fun y hy => ?_,fun u _ => h u⟩
      have h0 := h t x hx
      simp only [Send.write, Option.mem_def, Option.ite_none_right_eq_some] at hy
      obtain ⟨hlt,hy⟩ := hy
      cases hy
      rcases he with rfl | hk
      · exact h0
      · exact absurd hlt (not_lt.mpr hk)

/-- If the calls of the two threads do not overlap, or no `write` is short, the
stream is a concatenation of whole messages. -/
theorem messages_whole (es : List (Event n))
    (h : Along step (apart · ·) {} es ∨ Along step (full · ·) {} es) :
    Whole (run step {} es) := by
  rcases h with h | h
  · refine whole_of (.inl rfl) (fun s e => apart_step) (fun s hj u x hx => ?_) h
    cases u <;> simp_all [Thread.other, part]
  · refine whole_of nofun (fun s e => full_step) (fun s hj u x _ => ?_) h
    cases hy : s.sending u.other with
    | none => rfl
    | some y => rw [part, Option.elim, hj _ y hy, take_zero]

def handover : List (Event 2) :=
  [.peerEvent 0 (replicate 304 0),.write .io 304,.ready 0,.peerEvent 1 (replicate 304 1)]

/-- With short writes one after the other, and with both threads sending. -/
theorem messages_whole_in_turn :
    Whole (run step {} (handover++[.write .io 100,.write .io 0,.write .io 204,
      .poll (replicate 88 2),.write .poll 88])) ∧
    Whole (run step {} (handover++[.poll (replicate 88 2),.write .io 0,.write .poll 88,
      .write .io 304])) :=
  ⟨messages_whole _ (.inl (by decide +kernel)),messages_whole _ (.inr (by decide +kernel))⟩

/-- The entries are written into the second introduction. -/
theorem introduction_torn : ¬Whole (run step {}
    (handover++[.write .io 100,.poll (replicate 88 2),.write .poll 88,.write .io 204])) := by
  intro h
  obtain ⟨msgs,hp,hs⟩ := h fun t => by cases t <;> decide +kernel
  have hm : replicate 304 1 ∈ msgs := hp.mem_iff.mpr (by decide +kernel)
  have hi := infix_of_mem_flatten hm
  rw [← hs] at hi
  exact absurd hi (by decide +kernel)

end SimBricks.SharedSocket
