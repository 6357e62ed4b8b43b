import SimBricks.Library.Run
import SimBricks.Parser.Parameters

/-!
# The two consumers of a parsed URL

`Runner::ParseArgs` of the behavioural NICs and `SimbricksParametersEstablish`
of the memory simulators fill the parameters of an interface from the same
structure. Both hand them to `SimbricksBaseIfInit`, which copies them.
-/

set_option autoImplicit false

namespace SimBricks.Consumers
open Library.Run Library.Text SimBricks.Parser

/-! ## Parameters of an interface -/

inductive SyncMode where
  | disabled | optional | required
  deriving DecidableEq, Repr

structure BaseIfParams where
  linkLatency : UInt64
  syncInterval : UInt64
  sockPath : Option Bytes
  syncMode : SyncMode
  blockingConn : Bool
  inNumEntries : ℕ
  inEntriesSize : ℕ
  outNumEntries : ℕ
  outEntriesSize : ℕ
  upperLayerProto : UInt64
  deriving DecidableEq, Repr

def kProtoIdBase : UInt64 := 0
def kProtoIdNet : UInt64 := 1
def kProtoIdPcie : UInt64 := 2
def kProtoIdMem : UInt64 := 3

def baseIfDefaultParams : BaseIfParams where
  linkLatency := 500*1000
  syncInterval := 500*1000
  sockPath := none
  syncMode := .optional
  blockingConn := false
  inNumEntries := 8192
  inEntriesSize := 2048
  outNumEntries := 8192
  outEntriesSize := 2048
  upperLayerProto := kProtoIdBase

def layerDefaultParams (proto : UInt64) (size : ℕ) : BaseIfParams := { baseIfDefaultParams with
    inEntriesSize := size, outEntriesSize := size, upperLayerProto := proto }

def netIfDefaultParams : BaseIfParams := layerDefaultParams kProtoIdNet (1536+64)
def pcieIfDefaultParams : BaseIfParams := layerDefaultParams kProtoIdPcie (9024+64)
def memIfDefaultParams : BaseIfParams := layerDefaultParams kProtoIdMem (8192+64)

/-! ## `SimbricksParametersEstablish` -/

/-- All URLs are parsed first; the error is the index of the first bad one.
`raw` is what the memory of each new structure holds. -/
def parseAll (raw : ℕ → UInt64 × UInt64) : ℕ → List Bytes → Except ℕ (List AdapterParams)
  | _, [] => .ok []
  | i, url::urls =>
    match parametersParse (raw i) url with
    | .error _ => .error i
    | .ok p => do
      let ps ← parseAll raw (i+1) urls
      pure (p::ps)

/-- Parsed parameters over those that the caller has set. -/
def applyParams (ap : AdapterParams) (bps : BaseIfParams) : BaseIfParams :=
  let bps := { bps with blockingConn := false, sockPath := some ap.socketPath }
  if ap.sync then
    { bps with
      syncMode := .required
      linkLatency := if ap.linkLatencySet then ap.linkLatency else bps.linkLatency
      syncInterval := if ap.syncIntervalSet then ap.syncInterval else bps.syncInterval }
  else { bps with syncMode := .disabled }

def parametersEstablish (raw : ℕ → UInt64 × UInt64) (ifs : List BaseIfParams)
    (urls : List Bytes) : Except ℕ (List BaseIfParams) := do
  let params ← parseAll raw 0 urls
  pure (List.zipWith applyParams params ifs)

/-! ## `Runner::ParseArgs` -/

inductive Port where
  | pcie | net
  deriving DecidableEq, Repr

structure Runner where
  pcieAdapterParams : Option AdapterParams
  netAdapterParams : Option AdapterParams
  pcieParams : BaseIfParams
  netParams : BaseIfParams
  shmPath : Option Bytes
  mainTime : UInt64
  macAddr : UInt64
  /-- The file of the log. -/
  log : Option Bytes
  deriving DecidableEq, Repr

def Runner.init (macAddr : UInt64) : Runner :=
  ⟨none,none,pcieIfDefaultParams,netIfDefaultParams,none,0,macAddr &&& ~~~3,none⟩

def Runner.params (r : Runner) : Port → BaseIfParams
  | .pcie => r.pcieParams
  | .net => r.netParams

def Port.arg : Port → ℕ
  | .pcie => 1
  | .net => 2

def getSyncMode (sync : Bool) : SyncMode := if sync then .required else .disabled

def fillParams (ap : AdapterParams) (bps : BaseIfParams) : BaseIfParams := { bps with
    sockPath := some ap.socketPath
    syncMode := getSyncMode ap.sync
    syncInterval := if ap.syncIntervalSet then ap.syncInterval*1000 else bps.syncInterval
    linkLatency := if ap.linkLatencySet then ap.linkLatency*1000 else bps.linkLatency }

section
variable (strtoull : ℕ → Bytes → UInt64) (raw : Port → UInt64 × UInt64)

def Runner.options (r : Runner) (args : List Bytes) : Runner := { r with
    mainTime := (args[0]?.map (strtoull 0)).getD r.mainTime
    macAddr := (args[1]?.map (strtoull 16)).getD r.macAddr
    log := args[2]?.or r.log }

def kUsage : String :=
  "Usage: corundum_bm PCI-PARAMS ETH-PARAMS [START-TICK] [MAC-ADDR] [LOG-FILE-PATH]\n"

/-- The runner after the call and, if it returns -1, what was logged. -/
def Runner.parseArgs (r : Runner) (argv : List Bytes) : Runner × Except String Unit :=
  if r.pcieAdapterParams.isSome ∨ r.netAdapterParams.isSome then
    (r,.error "Arguments are already parsed\n")
  else
    match argv with
    | _::pcie::net::rest =>
      if 3 < rest.length then (r,.error kUsage)
      else
        let r := { r.options strtoull rest with
          pcieAdapterParams := (parametersParse (raw .pcie) pcie).toOption
          netAdapterParams := (parametersParse (raw .net) net).toOption }
        match r.pcieAdapterParams, r.netAdapterParams with
        | some pcie, some net =>
          if pcie.listen ∧ net.listen then
            ({ r with
                pcieParams := fillParams pcie r.pcieParams
                netParams := fillParams net r.netParams
                shmPath := pcie.shmPath },.ok ())
          else (r,.error "Nicbm currently only supports listening adapters\n")
        | _, _ => (r,.error "Failed to parse PCIe or Ethernet parameters\n")
    | _ => (r,.error kUsage)

end

/-! ## Two parses of one URL -/

/-- The parameters agree except for numbers that were not set. -/
structure Agree (p q : AdapterParams) : Prop where
  sync : p.sync = q.sync
  latencySet : p.linkLatencySet = q.linkLatencySet
  latency : p.linkLatencySet → p.linkLatency = q.linkLatency
  intervalSet : p.syncIntervalSet = q.syncIntervalSet
  interval : p.syncIntervalSet → p.syncInterval = q.syncInterval

section
variable {url : Bytes} {start : ℕ} {p q p' q' : AdapterParams} {c c' : ℕ}

lemma parseArg_agree (h : Agree p q) (hp : parseArg url start p = .ok (p',c))
    (hq : parseArg url start q = .ok (q',c')) : Agree p' q' ∧ c = c' := by
  unfold parseArg at hp hq
  dsimp only at hp hq
  split_ifs at hp hq
  · split at hp
    · rename_i v hv
      rw [hv] at hq
      cases hp
      cases hq
      exact ⟨⟨h.sync,rfl,fun _ => rfl,h.intervalSet,h.interval⟩,rfl⟩
    · cases hp
  · split at hp
    · rename_i v hv
      rw [hv] at hq
      cases hp
      cases hq
      exact ⟨⟨h.sync,h.latencySet,h.latency,rfl,fun _ => rfl⟩,rfl⟩
    · cases hp

lemma parseArgs_agree (h : Agree p q) (hp : parseArgs url start p = .ok p')
    (hq : parseArgs url start q = .ok q') : Agree p' q' := by
  induction hn : url.length-start using Nat.strong_induction_on generalizing start p q with
  | h n ih =>
    by_cases hlt : start < url.length
    · rw [parseArgs, dif_pos hlt] at hp hq
      split at hp
      · cases hp
      · split at hq
        · cases hq
        · rename_i a c hs b c' hs'
          obtain ⟨hab,rfl⟩ := parseArg_agree h hs hs'
          have := parseArg_progress hlt hs
          exact ih _ (by omega) hab hp hq rfl
    · rw [parseArgs_done (by omega)] at hp hq
      cases hp
      cases hq
      exact h

lemma parametersParse_agree {raw raw' : UInt64 × UInt64} (hp : parametersParse raw url = .ok p)
    (hq : parametersParse raw' url = .ok q) : Agree p q := by
  obtain ⟨⟨listen,colon⟩,hty,hp⟩ := bind_eq_ok.mp hp
  obtain ⟨⟨socket,_⟩,hsocket,hp⟩ := bind_eq_ok.mp hp
  obtain ⟨⟨_,_⟩,hty',hq⟩ := bind_eq_ok.mp hq
  cases hty.symm.trans hty'
  obtain ⟨⟨_,_⟩,hsocket',hq⟩ := bind_eq_ok.mp hq
  cases hsocket.symm.trans hsocket'
  -- both parses are now at the same colon; only a listener reads another path
  have hrest : ∀ {shm : Option Bytes} {colon : ℕ},
      (do let x ← parseSync url colon
          parseArgs url (x.2+1) ⟨listen,socket,shm,x.1,false,raw.1,false,raw.2⟩) = .ok p →
      (do let x ← parseSync url colon
          parseArgs url (x.2+1) ⟨listen,socket,shm,x.1,false,raw'.1,false,raw'.2⟩) = .ok q →
      Agree p q := by
    intro shm colon hp hq
    obtain ⟨⟨sync,_⟩,hsync,hp⟩ := bind_eq_ok.mp hp
    obtain ⟨⟨_,_⟩,hsync',hq⟩ := bind_eq_ok.mp hq
    cases hsync.symm.trans hsync'
    have hstart : Agree ⟨listen,socket,shm,sync,false,raw.1,false,raw.2⟩
        ⟨listen,socket,shm,sync,false,raw'.1,false,raw'.2⟩ :=
      ⟨rfl,rfl,fun h => (by cases h),rfl,fun h => (by cases h)⟩
    exact parseArgs_agree hstart hp hq
  cases listen with
  | false => exact hrest hp hq
  | true =>
    obtain ⟨⟨shm,_⟩,hshm,hp⟩ := bind_eq_ok.mp hp
    obtain ⟨⟨_,_⟩,hshm',hq⟩ := bind_eq_ok.mp hq
    cases hshm.symm.trans hshm'
    exact hrest hp hq

end

/-! ## The same URL at both ends -/

section
variable {raws : ℕ → UInt64 × UInt64} {url : Bytes}

lemma parseAll_get {urls : List Bytes} {ps : List AdapterParams} {k i : ℕ}
    (h : parseAll raws k urls = .ok ps) (hi : urls[i]? = some url) :
    ∃ p, ps[i]? = some p ∧ parametersParse (raws (k+i)) url = .ok p := by
  induction urls generalizing k i ps with
  | nil => cases hi
  | cons first urls ih =>
    unfold parseAll at h
    split at h
    · cases h
    · rename_i p hp
      obtain ⟨_,hrest,hok⟩ := bind_eq_ok.mp h
      cases hok
      cases i with
      | zero =>
        cases hi
        exact ⟨p,rfl,hp⟩
      | succ =>
        obtain ⟨q,hq,hparse⟩ := ih hrest hi
        exact ⟨q,hq,by rwa [Nat.add_right_comm] at hparse⟩

lemma establish_get {ifs bparams : List BaseIfParams} {urls : List Bytes} {b : BaseIfParams}
    {i : ℕ} (h : parametersEstablish raws ifs urls = .ok bparams) (hi : urls[i]? = some url)
    (hb : bparams[i]? = some b) :
    ∃ p bps, parametersParse (raws i) url = .ok p ∧ b = applyParams p bps := by
  obtain ⟨_,hps,hok⟩ := bind_eq_ok.mp h
  cases hok
  obtain ⟨p,hp,hparse⟩ := parseAll_get hps hi
  rw [Nat.zero_add] at hparse
  obtain ⟨_,bps,hp',-,hb⟩ := List.getElem?_zipWith_eq_some.mp hb
  cases hp.symm.trans hp'
  exact ⟨p,bps,hparse,hb.symm⟩

lemma parseArgs_port {strtoull : ℕ → Bytes → UInt64} {raw : Port → UInt64 × UInt64}
    {r r' : Runner} {argv : List Bytes} {port : Port}
    (h : r.parseArgs strtoull raw argv = (r',.ok ())) (hu : argv[port.arg]? = some url) :
    ∃ p bps, parametersParse (raw port) url = .ok p ∧ r'.params port = fillParams p bps := by
  have hok : ∀ {x : Except String AdapterParams} {p}, x.toOption = some p → x = .ok p := by
    intro x p hx
    cases x with
    | error => cases hx
    | ok => rw [Option.some.inj hx]
  unfold Runner.parseArgs at h
  split_ifs at h with hparsed
  · cases h
  · split at h
    · dsimp only at h
      split_ifs at h
      · cases h
      · split at h
        · rename_i p q hp hq
          split_ifs at h
          · cases h
            cases port with
            | pcie =>
              cases hu
              exact ⟨p,_,hok hp,rfl⟩
            | net =>
              cases hu
              exact ⟨q,_,hok hq,rfl⟩
          · cases h
        · cases h
    · cases h

end

lemma thousand_eq_iff {v : UInt64} (h : v.toNat*1000 < 2^64) : v*1000 = v ↔ v = 0 := by
  constructor
  · intro he
    have := congrArg UInt64.toNat he
    rw [UInt64.toNat_mul, show (1000 : UInt64).toNat = 1000 from rfl, Nat.mod_eq_of_lt h] at this
    apply UInt64.toNat_inj.mp
    show v.toNat = 0
    omega
  · rintro rfl
    rfl

/-- Both ends of a channel take the same times from a URL exactly when the
times are zero: one of them reads nanoseconds, the other picoseconds. -/
theorem same_units_iff (strtoull : ℕ → Bytes → UInt64) (raw : Port → UInt64 × UInt64)
    (raws : ℕ → UInt64 × UInt64) {r r' : Runner} {argv : List Bytes} (port : Port) {url : Bytes}
    (hr : r.parseArgs strtoull raw argv = (r',.ok ())) (hport : argv[port.arg]? = some url)
    {ifs bparams : List BaseIfParams} {urls : List Bytes} {i : ℕ} {b : BaseIfParams}
    (he : parametersEstablish raws ifs urls = .ok bparams) (hi : urls[i]? = some url)
    (hb : bparams[i]? = some b) {memory : UInt64 × UInt64} {p : AdapterParams}
    (hp : parametersParse memory url = .ok p) (hsync : p.sync)
    (hlatency : p.linkLatencySet) (hinterval : p.syncIntervalSet)
    (hl : p.linkLatency.toNat*1000 < 2^64) (hs : p.syncInterval.toNat*1000 < 2^64) :
    ((r'.params port).linkLatency = b.linkLatency ∧
      (r'.params port).syncInterval = b.syncInterval) ↔
    p.linkLatency = 0 ∧ p.syncInterval = 0 := by
  obtain ⟨q,_,hq,hfill⟩ := parseArgs_port hr hport
  obtain ⟨q',bps',hq',rfl⟩ := establish_get he hi hb
  have ha := parametersParse_agree hp hq
  have ha' := parametersParse_agree hp hq'
  have hnic : (r'.params port).linkLatency = p.linkLatency*1000 ∧
      (r'.params port).syncInterval = p.syncInterval*1000 := by
    rw [hfill, fillParams, ← ha.latencySet, hlatency, ← ha.latency hlatency, ← ha.intervalSet,
      hinterval, ← ha.interval hinterval]
    exact ⟨rfl,rfl⟩
  have hmem : (applyParams q' bps').linkLatency = p.linkLatency ∧
      (applyParams q' bps').syncInterval = p.syncInterval := by
    rw [applyParams, ← ha'.sync, hsync, ← ha'.latencySet, hlatency, ← ha'.latency hlatency,
      ← ha'.intervalSet, hinterval, ← ha'.interval hinterval]
    exact ⟨rfl,rfl⟩
  rw [hnic.1, hnic.2, hmem.1, hmem.2, thousand_eq_iff hl, thousand_eq_iff hs]

def urlOf (t : ℕ) : Bytes :=
  ascii "listen"++kColon::(ascii "/s"++kColon::(ascii "/m"++fieldsText true t t))

def paramsOf (t : ℕ) : AdapterParams :=
  ⟨true,ascii "/s",some (ascii "/m"),true,true,UInt64.ofNat t,true,UInt64.ofNat t⟩

lemma parse_urlOf {t : ℕ} (ht : t < 2^64) (raw : UInt64 × UInt64) :
    parametersParse raw (urlOf t) = .ok (paramsOf t) :=
  parametersParse_listen raw (by decide) (by decide) ht ht (by decide) (by decide) rfl

def runnerOf (t : ℕ) : Runner := { Runner.init 0 with
    pcieAdapterParams := some (paramsOf t)
    netAdapterParams := some (paramsOf t)
    pcieParams := fillParams (paramsOf t) pcieIfDefaultParams
    netParams := fillParams (paramsOf t) netIfDefaultParams
    shmPath := some (ascii "/m") }

lemma parseArgs_urlOf {t : ℕ} (ht : t < 2^64) :
    (Runner.init 0).parseArgs (fun _ _ => 0) (fun _ => (0,0)) [ascii "nic",urlOf t,urlOf t] =
      (runnerOf t,.ok ()) := by
  simp only [Runner.parseArgs, parse_urlOf ht, Except.toOption]
  rfl

lemma establish_urlOf {t : ℕ} (ht : t < 2^64) :
    parametersEstablish (fun _ => (0,0)) [memIfDefaultParams] [urlOf t] = .ok
    [applyParams (paramsOf t) memIfDefaultParams] := by
  simp only [parametersEstablish, parseAll, parse_urlOf ht]
  rfl

/-- The usual 500 ns become 500000 ps at a NIC and 500 ps at a memory. -/
theorem thousandfold : ∃ r b, (Runner.init 0).parseArgs (fun _ _ => 0) (fun _ => (0,0))
        [ascii "nic",urlOf 500,urlOf 500] = (r,.ok ()) ∧
      parametersEstablish (fun _ => (0,0)) [memIfDefaultParams] [urlOf 500] = .ok [b] ∧
      r.pcieParams.linkLatency = 500000 ∧ r.pcieParams.syncInterval = 500000 ∧
      b.linkLatency = 500 ∧ b.syncInterval = 500 :=
  ⟨_,_,parseArgs_urlOf (by decide),establish_urlOf (by decide),rfl,rfl,rfl,rfl⟩

/-- A channel without latency is the same at both ends. -/
theorem same_units_zero :
    ∃ b, parametersEstablish (fun _ => (0,0)) [memIfDefaultParams] [urlOf 0] = .ok [b] ∧
      ((runnerOf 0).params .pcie).linkLatency = b.linkLatency ∧
      ((runnerOf 0).params .pcie).syncInterval = b.syncInterval := by
  have ht : 0 < 2^64 := by decide
  have hb : [applyParams (paramsOf 0) memIfDefaultParams][0]? = some _ := rfl
  exact ⟨_,establish_urlOf ht,(same_units_iff _ _ _ .pcie (parseArgs_urlOf ht) rfl
    (establish_urlOf ht) rfl hb (parse_urlOf ht (0,0)) rfl rfl rfl (by decide)
    (by decide)).mpr ⟨rfl,rfl⟩⟩

end SimBricks.Consumers
