import SimBricks.Library.Text
import SimBricks.Mem.Interconnect

/-!
# The routes of the memory interconnect

The options of `interconnect.cc` and what `Lookup` makes of the routes. A
`struct TableEntry` of an `-m` option starts with whatever is on the stack.
-/

set_option autoImplicit false

namespace SimBricks.RouteTable
open Library Library.Text NetProto Interconnect UInt64

/-! ## Options -/

def digitValue (c : UInt8) : ℕ :=
  if isDigit c then c.toNat-48
  else if 65 ≤ c && c ≤ 70 then c.toNat-55
  else if 97 ≤ c && c ≤ 102 then c.toNat-87
  else 16

/-- The value of the digits of a base up to 16 at the front of a text. -/
def valueIn (base : ℕ) (s : Bytes) : ℕ :=
  (s.takeWhile (digitValue · < base)).foldl (fun v c => base*v+digitValue c) 0

def strtoull (s : Bytes) : UInt64 :=
  let s := s.dropWhile isSpace
  let negative := s.head? = some 45
  let s := if s.head? = some 45 ∨ s.head? = some 43 then s.tail else s
  let v := match s with
    | 48::x::c::s =>
      if (x = 120 ∨ x = 88) ∧ digitValue c < 16 then valueIn 16 (c::s) else valueIn 8 (x::c::s)
    | 48::s => valueIn 8 s
    | s => valueIn 10 s
  if 2^64 ≤ v then 0xFFFFFFFFFFFFFFFF else if negative then -ofNat v else ofNat v

inductive Opt where
  | d (optarg : Bytes)
  | h (optarg : Bytes)
  | p (optarg : Bytes)
  | m (optarg : Bytes)
  | unknown

inductive Port where
  | device (name url : Bytes)
  | host (url : Bytes)

/-- A device is given by its position among the ports; a name without a device
stands for the null pointer. -/
structure Config where
  devices : Table Bytes (Option ℕ) := ∅
  ports : List Port := []
  poolPath : Option Bytes := none
  mapTable : List (TableEntry (Option ℕ)) := []

def kUsage : String :=
  "Usage: interconnect -p POOL-PATH [-d DEV-NAME=DEV-URL ...] [-h HOST—URL ...] [-m ROUTE ...]\n"

def Config.token (x : Config × TableEntry (Option ℕ)) (t : Bytes × ℕ) :
    Except String (Config × TableEntry (Option ℕ)) :=
  let (cfg,ent) := x
  let (token,idx) := t
  match idx with
  | 0 => .ok (cfg,{ ent with vaddrStart := strtoull token })
  | 1 => .ok (cfg,{ ent with vaddrEnd := strtoull token })
  | 2 => .ok (cfg,{ ent with physStart := strtoull token })
  | 3 =>
    let dev := (cfg.devices.lookup token).join
    .ok ({ cfg with devices := Finmap.insert token dev cfg.devices },{ ent with dev := dev })
  | _ => .error "error parsing map config"

/-- One option; `ent` is what the entry of a route starts with. -/
def Config.opt (ent : TableEntry (Option ℕ)) (cfg : Config) : Opt → Except String Config
  | .d optarg =>
    if 61 ∉ optarg then .error "No equal sign found when parsing device"
    else
      let name := optarg.takeWhile (· ≠ 61)
      let url := (optarg.dropWhile (· ≠ 61)).tail
      .ok { cfg with
        devices := Finmap.insert name (some cfg.ports.length) cfg.devices
        ports := cfg.ports++[.device name url] }
  | .h optarg => .ok { cfg with ports := cfg.ports++[.host optarg] }
  | .p optarg => .ok { cfg with poolPath := some optarg }
  | .m optarg => do
    let tokens := (optarg.splitOnP (· = 44)).filter (· ≠ [])
    let (cfg,ent) ← tokens.zipIdx.foldlM Config.token (cfg,ent)
    return { cfg with mapTable := cfg.mapTable++[ent] }
  | .unknown => .error kUsage

/-- The options of `main`, each with what its entry would start with. -/
def parse (opts : List (TableEntry (Option ℕ) × Opt)) : Except String Config := do
  let cfg ← opts.foldlM (fun (cfg : Config) x => cfg.opt x.1 x.2) {}
  if cfg.devices = ∅ ∨ cfg.mapTable.isEmpty ∨ cfg.ports.isEmpty then .error kUsage
  else return cfg

/-! ## Windows -/

section
variable {H D : Type}

/-- Every byte of a request, counted without wrapping round, is in the window. -/
def Covers (te : TableEntry D) (r : H2M) : Prop :=
  ∀ k < r.len, te.vaddrStart.toNat ≤ r.addr.toNat+k ∧ r.addr.toNat+k < te.vaddrEnd.toNat

def Holds (te : TableEntry D) (addr : UInt64) (len : ℕ) : Prop :=
  ∀ k < len, te.physStart.toNat ≤ addr.toNat+k ∧
    addr.toNat+k < te.physStart.toNat+(te.vaddrEnd.toNat-te.vaddrStart.toNat)

/-- What `Lookup` selects is in both windows of one entry, and a request that
no entry covers stops the interconnect. -/
structure Contained (H : Type) [DecidableEq H] [DecidableEq D] (table : List (TableEntry D))
    (r : H2M) : Prop where
  selected : ∀ dev addr, target table r = .ok (dev,addr) →
    ∃ te, table.find? (·.contains r.addr) = some te ∧ te.dev = dev ∧ Covers te r ∧
      Holds te addr r.len
  refused : (∀ te ∈ table, ¬ Covers te r) → ∀ (s : State H D) h p t rest,
    s.hostIn h = (t,r)::rest → s.hostPoll table h p = none

/-- The end of the range does not wrap round, nor does the start of the
translated range if there is one. -/
def Fits (te : TableEntry D) (r : H2M) : Prop :=
  r.addr.toNat+r.len < 2^64 ∧ (0 < r.len → r.addr.toNat+r.len ≤ te.vaddrEnd.toNat →
    te.physStart.toNat+(r.addr.toNat-te.vaddrStart.toNat) < 2^64)

variable {te : TableEntry D} {table : List (TableEntry D)} {r : H2M}

/-- For the entry a request is found in, the check keeps to both windows
exactly when nothing wraps round. -/
lemma inside_iff (hc : te.contains r.addr) (hlen : r.len < 2^16) :
    (¬ r.addr+ofNat r.len > te.vaddrEnd →
      Covers te r ∧ Holds te (te.physStart+(r.addr-te.vaddrStart)) r.len) ↔ Fits te r := by
  simp only [TableEntry.contains, Bool.and_eq_true, decide_eq_true_eq] at hc
  obtain ⟨hlow,hhigh⟩ := hc
  have hlow' := le_iff_toNat_le.mp hlow
  have hhigh' := lt_iff_toNat_lt.mp hhigh
  have haddr := r.addr.toNat_lt
  have hphys : (te.physStart+(r.addr-te.vaddrStart)).toNat =
      (te.physStart.toNat+(r.addr.toNat-te.vaddrStart.toNat)) % 2^64 := by
    rw [UInt64.toNat_add, UInt64.toNat_sub_of_le _ _ hlow]
  have hp := te.physStart.toNat_lt
  have hsum : (r.addr+ofNat r.len).toNat = (r.addr.toNat+r.len) % 2^64 := by
    rw [UInt64.toNat_add, UInt64.toNat_ofNat', Nat.add_mod_mod]
  rw [gt_iff_lt, lt_iff_toNat_lt, hsum, Holds, hphys]
  constructor
  · intro h
    have hfit : r.addr.toNat+r.len < 2^64 := by
      by_contra hwrap
      obtain ⟨hc,-⟩ := h (by omega)
      have hlast := (hc (r.len-1) (by omega)).2
      have hend := te.vaddrEnd.toNat_lt
      omega
    refine ⟨hfit,fun h0 hle => ?_⟩
    rw [Nat.mod_eq_of_lt hfit] at h
    have hfirst := ((h (by omega)).2 0 h0).1
    omega
  · rintro ⟨hfit,hstart⟩ hle
    rw [Nat.mod_eq_of_lt hfit] at hle
    refine ⟨fun k hk => ⟨by omega,by omega⟩,fun k hk => ?_⟩
    rw [Nat.mod_eq_of_lt (hstart (by omega) (by omega))]
    exact ⟨by omega,by omega⟩

lemma target_of_find (hf : table.find? (·.contains r.addr) = some te) : target table r = if
    r.addr+ofNat r.len > te.vaddrEnd then .error .unsupported else .ok
    (te.dev,te.physStart+(r.addr-te.vaddrStart)) := by
  rw [target, lookup, hf]

variable [DecidableEq H] [DecidableEq D]

lemma hostPoll_of_error {s : State H D} {h : H} {p : UInt64} {t : ℕ} {rest : List (ℕ × H2M)}
    {e : LookupError} (hq : s.hostIn h = (t,r)::rest) (ht : target table r = .error e) :
    s.hostPoll table h p = none := by
  unfold State.hostPoll
  rw [hq]
  dsimp only
  rw [← target, ht]

/-- A request stays in the windows of its entry exactly if nothing wraps round
in the first entry whose window has its start. -/
theorem contained_iff (H : Type) [DecidableEq H] (table : List (TableEntry D)) (r : H2M)
    (hlen : r.len < 2^16) :
    Contained H table r ↔ ∀ te, table.find? (·.contains r.addr) = some te → Fits te r := by
  cases hf : table.find? (·.contains r.addr) with
  | none =>
    have ht : target table r = .error .noDevice := by rw [target, lookup, hf]
    refine iff_of_true ⟨fun dev addr hok => ?_,fun _ s h p t rest hq => hostPoll_of_error hq ht⟩
      fun te he => by cases he
    rw [ht] at hok
    cases hok
  | some te =>
    have ht := target_of_find hf
    have hc : te.contains r.addr := by simpa using List.find?_some hf
    have hin := inside_iff hc hlen
    constructor
    · rintro ⟨hsel,-⟩ te' he
      cases he
      refine hin.mp fun hle => ?_
      rw [if_neg hle] at ht
      obtain ⟨te',hf',-,hcov,hhold⟩ := hsel _ _ ht
      rw [hf] at hf'
      cases hf'
      exact ⟨hcov,hhold⟩
    · intro h
      have hboth := hin.mpr (h te rfl)
      refine ⟨fun dev addr hok => ?_,fun hno s h p t rest hq => ?_⟩
      · rw [ht] at hok
        split_ifs at hok with hle
        cases hok
        exact ⟨te,hf,rfl,hboth hle⟩
      · rw [if_pos] at ht
        · exact hostPoll_of_error hq ht
        · by_contra hle
          exact hno te (List.mem_of_find?_eq_some hf) (hboth hle).1

theorem contained_iff_small : Contained ℕ [(⟨0,16,32,()⟩ : TableEntry Unit)] (.read 0 0 8 4) :=
  (contained_iff ℕ _ (.read 0 0 8 4) (by decide)).mpr fun te he => by
    cases he
    exact ⟨by decide,fun _ _ => by decide⟩

end

def sampleOpts : List (TableEntry (Option ℕ) × Opt) := [.d (ascii "mem=a"),.h (ascii "b"),
    .m (ascii "0xfffffffffffff000,0xffffffffffffffff,0,mem")].map (⟨0,0,0,none⟩,·)

/-- A read that runs over the end of the addresses is forwarded, and so are the
bytes behind the end of the physical window. -/
theorem read_past_window : (parse sampleOpts).toOption.map Config.mapTable =
      some [⟨0xFFFFFFFFFFFFF000,0xFFFFFFFFFFFFFFFF,0,some 0⟩] ∧
    target [⟨0xFFFFFFFFFFFFF000,0xFFFFFFFFFFFFFFFF,0,some 0⟩]
      (.read 0 0 0xFFFFFFFFFFFFFFF0 64) = .ok (some 0,0xFF0) ∧
    ¬ Contained ℕ [(⟨0xFFFFFFFFFFFFF000,0xFFFFFFFFFFFFFFFF,0,some 0⟩ : TableEntry (Option ℕ))]
      (.read 0 0 0xFFFFFFFFFFFFFFF0 64) := by
  have ht : target [(⟨0xFFFFFFFFFFFFF000,0xFFFFFFFFFFFFFFFF,0,some 0⟩ : TableEntry (Option ℕ))]
      (.read 0 0 0xFFFFFFFFFFFFFFF0 64) = .ok (some 0,0xFF0) := by decide
  refine ⟨by decide,ht,fun hc => ?_⟩
  obtain ⟨_,hf,-,hcov,-⟩ := hc.selected _ _ ht
  cases hf
  exact absurd (hcov 63 (by decide)).2 (by decide)

end SimBricks.RouteTable
