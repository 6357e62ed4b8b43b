import SimBricks.Orchestration.SyncPeriods

/-!
# Command lines of `net_base.py`

A switch gets one latency for all its ports, folded from the channels. The
command is read as `shlex.split` and the arguments of `net_switch` read it.
-/

set_option autoImplicit false

namespace SimBricks.Orchestration
open Library Library.Run Library.Text List Option Except

structure NetSim where
  components : List ℕ
  executable : Bytes
  pcapFile : Option Bytes
  deriving DecidableEq, Repr

def switchCmd (net : NetSim) (sockets : List Socket) (latency syncPeriod : ℤ) (runSync : Bool) :
    Bytes :=
  let cmd := net.executable++ascii " -S "++signed syncPeriod++ascii " -E "++signed latency
  let cmd := if runSync then cmd else cmd++ascii " -u"
  let cmd := match net.pcapFile with
    | some pcapFile => cmd++ascii " -p "++pcapFile
    | none => cmd
  let listen := sockets.filter (·.type = .listen)
  let connect := sockets.filter (·.type = .connect)
  let cmd := connect.foldl (fun cmd sock => cmd++ascii " -s "++sock.path) cmd
  listen.foldl (fun cmd sock => cmd++ascii " -h "++sock.path) cmd

namespace World

def socksByAllComp (w : World) (getSocket : ℕ → Option Socket) (components : List ℕ) :
    List Socket :=
  components.flatMap fun component =>
    (w.interfaces.entries.filter fun x => x.2.component = component).filterMap
      fun x => getSocket x.1

/-- The first lines of `run_cmd`: the latency, the period and the mode. -/
def netParameters (w : World) (net : NetSim) : Except String (World × ℤ × ℤ × Bool) := do
  let (w,channels) ← getChannels (w,[]) net.components
  let x ← w.getUniqueLatencyPeriodSync (channels.filterMap w.chanMap.get?)
  return (w,x)

def switchRunCmd (w : World) (getSocket : ℕ → Option Socket) (net : NetSim) :
    Except String (World × Bytes) := do
  let (w,latency,syncPeriod,runSync) ← w.netParameters net
  return (w,switchCmd net (w.socksByAllComp getSocket net.components) latency syncPeriod runSync)

end World

/-! ## Reading a command -/

def hasArg (word : Bytes) : Option Bool :=
  if word ∈ [ascii "-s",ascii "-h",ascii "-S",ascii "-E",ascii "-p"] then some true
  else if word = ascii "-u" then some false
  else none

def getopt : List Bytes → List (Bytes × Option Bytes)
  | [] => []
  | word::rest =>
    match hasArg word, rest with
    | some true, arg::rest => (word,some arg)::getopt rest
    | some false, rest => (word,none)::getopt rest
    | _, _ => []

def switchLatency (cmd : Bytes) : Option Bytes := ((getopt (words cmd).tail).filterMap fun x =>
    if x.1 = ascii "-E" then x.2 else none).getLast?

def switchPorts (cmd : Bytes) : List Bytes := (getopt (words cmd).tail).filterMap fun x =>
    if x.1 = ascii "-s" ∨ x.1 = ascii "-h" then x.2 else none

/-! ## What the commands say -/

/-- The paths of a command are words of their own. -/
structure Plain (net : NetSim) (sockets : List Socket) : Prop where
  executable : Word net.executable
  pcapFile : ∀ pcapFile, net.pcapFile = some pcapFile → Word pcapFile
  sockets : ∀ sock ∈ sockets, Word sock.path

def switchOptions (net : NetSim) (sockets : List Socket) (latency syncPeriod : ℤ)
    (runSync : Bool) : List (Bytes × Option Bytes) :=
  [(ascii "-S",some (signed syncPeriod)),(ascii "-E",some (signed latency))]++
  (if runSync then [] else [(ascii "-u",none)])++
  (net.pcapFile.toList.map fun pcapFile => (ascii "-p",some pcapFile))++
  ((sockets.filter (·.type = .connect)).map fun sock => (ascii "-s",some sock.path))++
  (sockets.filter (·.type = .listen)).map fun sock => (ascii "-h",some sock.path)

def optionWords (x : Bytes × Option Bytes) : List Bytes := x.1::x.2.toList

lemma foldl_sockets (option : Bytes) (sockets : List Socket) (cmd : Bytes) :
    sockets.foldl (fun cmd sock => cmd++(32::(option++[32]))++sock.path) cmd = cmd++blanked
    ((sockets.map fun sock => (option,some sock.path)).flatMap optionWords) := by
  induction sockets generalizing cmd with
  | nil => simp [blanked]
  | cons sock sockets ih =>
    rw [foldl_cons, ih]
    simp [blanked, optionWords]

lemma switchCmd_eq (net : NetSim) (sockets : List Socket) (latency syncPeriod : ℤ)
    (runSync : Bool) :
    switchCmd net sockets latency syncPeriod runSync = net.executable++ blanked
    ((switchOptions net sockets latency syncPeriod runSync).flatMap optionWords) := by
  have hs := foldl_sockets (ascii "-s")
  have hh := foldl_sockets (ascii "-h")
  unfold switchCmd switchOptions
  dsimp only
  rw [show ascii " -s " = 32::(ascii "-s"++[32]) from rfl,
    show ascii " -h " = 32::(ascii "-h"++[32]) from rfl, hs, hh]
  cases runSync with
  | true | false =>
    cases net.pcapFile with
    | none => simp [blanked, optionWords, ascii]
    | some => simp [blanked, optionWords, ascii]

/-- Every option has its argument. -/
def WellFormed (x : Bytes × Option Bytes) : Prop := hasArg x.1 = some x.2.isSome

lemma getopt_optionWords {options : List (Bytes × Option Bytes)}
    (h : ∀ x ∈ options, WellFormed x) : getopt (options.flatMap optionWords) = options := by
  induction options with
  | nil => rfl
  | cons x options ih =>
    have hx : WellFormed x := h x mem_cons_self
    have hrest := ih fun y hy => h y (mem_cons_of_mem x hy)
    obtain ⟨word,arg⟩ := x
    cases arg with
    | none =>
      have hword : hasArg word = some false := hx
      simp [optionWords, getopt, hword, hrest]
    | some =>
      have hword : hasArg word = some true := hx
      simp [optionWords, getopt, hword, hrest]

lemma switchOptions_wellFormed (net : NetSim) (sockets : List Socket) (latency syncPeriod : ℤ)
    (runSync : Bool) :
    ∀ x ∈ switchOptions net sockets latency syncPeriod runSync, WellFormed x := by
  intro x hx
  simp only [switchOptions, List.mem_append, List.mem_cons, List.mem_map, List.not_mem_nil,
    or_false] at hx
  rcases hx with (((((rfl | rfl) | hx) | ⟨_,-,rfl⟩) | ⟨sock,-,rfl⟩) | ⟨sock,-,rfl⟩)
  · rfl
  · rfl
  · cases runSync with
    | true => simp at hx
    | false =>
      rw [List.mem_singleton.mp hx]
      rfl
  · rfl
  · rfl
  · rfl

lemma word_option {s : Bytes} {arg : Bool} (h : hasArg s = some arg) : Word s := by
  unfold hasArg at h
  split_ifs at h with harg hflag
  · simp only [mem_cons, not_mem_nil, or_false] at harg
    rcases harg with rfl | rfl | rfl | rfl | rfl <;> exact .of_all (by decide) (by decide)
  · rw [hflag]
    exact .of_all (by decide) (by decide)

lemma switchOptions_word {net : NetSim} {sockets : List Socket} (h : Plain net sockets)
    (latency syncPeriod : ℤ) (runSync : Bool) :
    ∀ s ∈ (switchOptions net sockets latency syncPeriod runSync).flatMap optionWords, Word s := by
  intro s hs
  obtain ⟨x,hx,hs⟩ := mem_flatMap.mp hs
  have hoption := word_option (switchOptions_wellFormed net sockets latency syncPeriod runSync x hx)
  have harg : ∀ arg, x.2 = some arg → Word arg := by
    simp only [switchOptions, List.mem_append, List.mem_cons, List.mem_map, List.not_mem_nil,
      or_false, Option.mem_toList] at hx
    rcases hx with (((((rfl | rfl) | hx) | ⟨file,hfile,rfl⟩) | ⟨sock,hsock,rfl⟩) | ⟨sock,hsock,rfl⟩)
    · exact fun arg harg => Option.some.inj harg ▸ word_signed _
    · exact fun arg harg => Option.some.inj harg ▸ word_signed _
    · cases runSync with
      | true => simp at hx
      | false =>
        rw [mem_singleton.mp hx]
        exact fun arg harg => by cases harg
    · exact fun arg harg => Option.some.inj harg ▸ h.pcapFile file hfile
    · exact fun arg harg => Option.some.inj harg ▸ h.sockets sock (mem_filter.mp hsock).1
    · exact fun arg harg => Option.some.inj harg ▸ h.sockets sock (mem_filter.mp hsock).1
  rcases mem_cons.mp hs with rfl | hs
  · exact hoption
  · exact harg s (mem_toList.mp hs)

section
variable {net : NetSim} {sockets : List Socket} (h : Plain net sockets) (latency syncPeriod : ℤ)
  (runSync : Bool)
include h

lemma switch_getopt :
    getopt (words (switchCmd net sockets latency syncPeriod runSync)).tail = switchOptions net
    sockets latency syncPeriod runSync := by
  rw [switchCmd_eq, words_blanked h.executable (switchOptions_word h latency syncPeriod runSync)]
  exact getopt_optionWords (switchOptions_wellFormed net sockets latency syncPeriod runSync)

lemma switchLatency_switchCmd :
    switchLatency (switchCmd net sockets latency syncPeriod runSync) = some (signed latency) := by
  have hS : ascii "-S" ≠ ascii "-E" := by decide
  have hu : ascii "-u" ≠ ascii "-E" := by decide
  have hp : ascii "-p" ≠ ascii "-E" := by decide
  have hs : ascii "-s" ≠ ascii "-E" := by decide
  have hh : ascii "-h" ≠ ascii "-E" := by decide
  rw [switchLatency, switch_getopt h, switchOptions]
  cases runSync with
  | true => simp [hS, hp, hs, hh]
  | false => simp [hS, hu, hp, hs, hh]

lemma switchPorts_switchCmd :
    switchPorts (switchCmd net sockets latency syncPeriod runSync) =
    (sockets.filter (·.type = .connect)).map (·.path)++ (sockets.filter (·.type = .listen)).map
    (·.path) := by
  have hS : ascii "-S" ≠ ascii "-s" ∧ ascii "-S" ≠ ascii "-h" := by decide
  have hE : ascii "-E" ≠ ascii "-s" ∧ ascii "-E" ≠ ascii "-h" := by decide
  have hu : ascii "-u" ≠ ascii "-s" ∧ ascii "-u" ≠ ascii "-h" := by decide
  have hp : ascii "-p" ≠ ascii "-s" ∧ ascii "-p" ≠ ascii "-h" := by decide
  rw [switchPorts, switch_getopt h, switchOptions]
  cases runSync with
  | true => simp [hS, hE, hp]
  | false => simp [hS, hE, hu, hp]

end

/-! ## The ports and their channels -/

namespace World
variable {w v : World} {net : NetSim}

/-- An interface of the network with a channel to another simulator. -/
structure Port (w : World) (net : NetSim) (inf c : ℕ) (ch : SysChannel) : Prop where
  intf : ∃ i, w.interfaces.get? inf = some i ∧ i.component ∈ net.components ∧ i.channel = some c
  channel : w.channels.get? c = some ch
  needs : w.chanNeedsInstance net.components ch

variable {c : ℕ} {components : List ℕ} {l : ℤ} {s : SimChannel} {p : ℤ}

lemma mem_componentChannels :
    c ∈ components.flatMap w.componentChannels ↔ ∃ inf i, w.interfaces.get? inf = some i ∧
    i.component ∈ components ∧ i.channel = some c := by
  simp only [componentChannels, mem_flatMap, mem_filterMap, mem_filter,
    decide_eq_true_eq, Prod.exists, Dict.mem_entries]
  constructor
  · rintro ⟨k,hk,inf,i,⟨hi,rfl⟩,hc⟩
    exact ⟨inf,i,hi,hk,hc⟩
  · rintro ⟨inf,i,hi,hk,hc⟩
    exact ⟨_,hk,inf,i,⟨hi,rfl⟩,hc⟩

lemma retrieveOrCreateChannel_spec (h : w.retrieveOrCreateChannel c = .ok v) :
    v.interfaces = w.interfaces ∧ (∃ s, v.chanMap.get? c = some s) ∧ ∀ d s,
    w.chanMap.get? d = some s → v.chanMap.get? d = some s := by
  unfold retrieveOrCreateChannel at h
  split_ifs at h with hold
  · cases h
    exact ⟨rfl,isSome_iff_exists.mp hold,fun _ _ hs => hs⟩
  · obtain ⟨_,-,h⟩ := bind_eq_ok.mp h
    split_ifs at h
    obtain ⟨m,hm,h⟩ := bind_eq_ok.mp h
    cases h
    rw [updateChannelMapping, if_neg hold] at hm
    cases hm
    have hnone : w.chanMap.get? c = none := by simpa [Dict.contains] using hold
    exact ⟨rfl,⟨_,Dict.get?_set_self ..⟩,fun d s hs => Dict.get?_set_new hnone hs _⟩

/-- What the loops of `get_channels` have collected from these channels. -/
structure Collected (w : World) (components visited : List ℕ) (x : World × List ℕ) : Prop where
  checked : Checked w x.1
  interfaces : x.1.interfaces = w.interfaces
  mem : ∀ c, c ∈ x.2 ↔ c ∈ visited ∧
    ∃ ch, w.channels.get? c = some ch ∧ w.chanNeedsInstance components ch
  instantiated : ∀ c ∈ x.2, ∃ s, x.1.chanMap.get? c = some s

lemma chanNeedsInstance_congr (h : v.interfaces = w.interfaces) (components : List ℕ)
    (ch : SysChannel) : v.chanNeedsInstance components ch = w.chanNeedsInstance components ch := by
  simp [chanNeedsInstance, endsIn, h]

lemma Collected.collect {visited : List ℕ} {x y : World × List ℕ}
    (hx : Collected w components visited x) (h : collect components x c = .ok y) :
    Collected w components (visited++[c]) y := by
  have hchecked := hx.checked.trans (collect_checked h)
  obtain ⟨⟨u,_⟩,hu,h⟩ := bind_eq_ok.mp h
  cases h
  obtain ⟨ch,hch,hu⟩ := bind_eq_ok.mp hu
  rw [getChan_eq_ok, hx.checked.channels] at hch
  rw [chanNeedsInstance_congr hx.interfaces] at hu
  have hmem : ∀ d, (∃ ch, w.channels.get? d = some ch ∧
      w.chanNeedsInstance components ch) → d = c →
      w.chanNeedsInstance components ch := by
    rintro d ⟨ch',hch',hneeds⟩ rfl
    cases hch.symm.trans hch'
    exact hneeds
  split_ifs at hu with hneeds
  · obtain ⟨_,hu',hu⟩ := bind_eq_ok.mp hu
    cases hu
    obtain ⟨hinf,hnew,hkept⟩ := retrieveOrCreateChannel_spec hu'
    refine ⟨hchecked,hinf.trans hx.interfaces,fun d => ?_,fun d hd => ?_⟩
    · simp only [if_true, mem_append, mem_singleton, hx.mem d]
      constructor
      · rintro (⟨hd,hn⟩ | rfl)
        · exact ⟨.inl hd,hn⟩
        · exact ⟨.inr rfl,ch,hch,hneeds⟩
      · rintro ⟨hd | hd,hn⟩
        · exact .inl ⟨hd,hn⟩
        · exact .inr hd
    · simp only [if_true, mem_append, mem_singleton] at hd
      rcases hd with hd | rfl
      · obtain ⟨s,hs⟩ := hx.instantiated d hd
        exact ⟨s,hkept d s hs⟩
      · exact hnew
  · cases hu
    refine ⟨hchecked,hx.interfaces,fun d => ?_,hx.instantiated⟩
    simp only [Bool.false_eq_true, if_false, mem_append, mem_singleton, hx.mem d]
    constructor
    · rintro ⟨hd,hn⟩
      exact ⟨.inl hd,hn⟩
    · rintro ⟨hd | hd,hn⟩
      · exact ⟨hd,hn⟩
      · exact absurd (hmem d hn hd) hneeds

lemma getChannels_collected {ids : List ℕ} (h : getChannels (w,[]) components = .ok (v,ids)) :
    Collected w components (components.flatMap w.componentChannels) (v,ids) := by
  have hnil : Collected w components [] (w,[]) :=
    ⟨.refl w,rfl,fun c => by simp,fun c hc => by cases hc⟩
  refine foldlM_ok_invariant
    (I := fun done x => Collected w components (done.flatMap w.componentChannels) x) ?_ hnil h
  intro done k rest x y _ hx hy
  have hsame : x.1.componentChannels k = w.componentChannels k := by
    rw [componentChannels, componentChannels, hx.interfaces]
  rw [hsame] at hy
  rw [flatMap_append, flatMap_singleton]
  refine foldlM_ok_invariant (I := fun inner x => Collected w components
    (done.flatMap w.componentChannels++inner) x) ?_ (by simpa using hx) hy
  intro inner c rest x y _ hx hy
  rw [← append_assoc]
  exact hx.collect hy

def HasLatency (w : World) (s : SimChannel) (l : ℤ) : Prop :=
  ∃ ch, w.channels.get? s.sysChannel = some ch ∧ ch.latency = l

lemma HasLatency.unique {l' : ℤ} (h : w.HasLatency s l) (h' : w.HasLatency s l') : l = l' := by
  obtain ⟨_,hch,rfl⟩ := h
  obtain ⟨_,hch',rfl⟩ := h'
  rw [some.inj (hch.symm.trans hch')]

lemma uniqueStep_latency {x y : Option ℤ × Option ℤ × Bool} (h : w.uniqueStep x s = .ok y) :
    ∃ l l', w.HasLatency s l ∧ y.1 = some l' ∧ (l' = l ∨ x.1 = some l') ∧
    (0 ≤ l → l ≤ l' ∧ ∀ old, x.1 = some old → 0 ≤ old → old ≤ l') := by
  obtain ⟨ch,hch,h⟩ := bind_eq_ok.mp h
  cases h
  refine ⟨ch.latency,_,⟨ch,getChan_eq_ok.mp hch,rfl⟩,rfl,?_⟩
  cases hx : x.1 with
  | none => exact ⟨.inl rfl,fun _ => ⟨le_rfl,fun old hold => by cases hold⟩⟩
  | some l =>
    dsimp only
    split_ifs with h0
    · refine ⟨?_,fun _ => ⟨le_max_right _ _,fun old hold _ => ?_⟩⟩
      · rcases max_choice l ch.latency with hm | hm
        · exact .inr (congrArg some hm.symm)
        · exact .inl hm
      · rw [← some.inj hold]
        exact le_max_left _ _
    · refine ⟨.inl rfl,fun hle => ⟨le_rfl,fun old hold _ => ?_⟩⟩
      have : l = old := some.inj hold
      omega

structure Folded (w : World) (done : List SimChannel) (latency : Option ℤ) : Prop where
  started : latency = none → done = []
  mem : ∀ l, latency = some l → ∃ s ∈ done, w.HasLatency s l
  bound : (∀ s ∈ done, ∀ l, w.HasLatency s l → 0 ≤ l) →
    ∀ l, latency = some l → ∀ s ∈ done, ∀ l', w.HasLatency s l' → l' ≤ l

lemma Folded.step {done : List SimChannel} {x y : Option ℤ × Option ℤ × Bool}
    (hx : w.Folded done x.1) (h : w.uniqueStep x s = .ok y) : w.Folded (done++[s]) y.1 := by
  obtain ⟨l,l',hl,hy,hfrom,hbound⟩ := uniqueStep_latency h
  rw [hy]
  refine ⟨fun h0 => (by cases h0),?_,?_⟩
  · rintro k ⟨⟩
    rcases hfrom with rfl | hold
    · exact ⟨s,by simp,hl⟩
    · obtain ⟨r,hr,hrl⟩ := hx.mem _ hold
      exact ⟨r,by simp [hr],hrl⟩
  · rintro hnonneg k ⟨⟩ r hr k hk
    obtain ⟨hle,hkept⟩ := hbound (hnonneg s (by simp) l hl)
    rcases mem_append.mp hr with hr | hr
    · cases hold : x.1 with
      | none =>
        rw [hx.started hold] at hr
        cases hr
      | some old =>
        have hdone : ∀ s ∈ done, ∀ l, w.HasLatency s l → 0 ≤ l :=
          fun s hs => hnonneg s (by simp [hs])
        obtain ⟨q,hq,hql⟩ := hx.mem old hold
        calc k ≤ old := hx.bound hdone old hold r hr k hk
          _ ≤ l' := hkept old hold (hdone q hq old hql)
    · rw [mem_singleton.mp hr] at hk
      rw [hk.unique hl]
      exact hle

/-- The folded latency is one of the latencies, and the largest one if none is
negative. -/
lemma getUniqueLatencyPeriodSync_latency {channels : List SimChannel} {sync : Bool}
    (h : w.getUniqueLatencyPeriodSync channels = .ok (l,p,sync)) : w.Folded channels (some l) := by
  obtain ⟨x,hx,h⟩ := bind_eq_ok.mp h
  have hfold : w.Folded channels x.1 := by
    refine foldlM_ok_invariant (I := fun done (x : Option ℤ × Option ℤ × Bool) =>
      w.Folded done x.1) ?_ ?_ hx
    · intro done s rest x y _ hx hy
      exact hx.step hy
    · exact ⟨fun _ => rfl,fun l hl => (by cases hl),fun _ l hl => by cases hl⟩
  split at h
  · obtain ⟨rfl,-⟩ := Prod.mk.inj (Except.ok.inj h)
    exact hfold
  · cases h

/-- Each port is given the latency of its channel. -/
def Reported (w : World) (net : NetSim) (given : Option Bytes) : Prop :=
  ∀ inf c ch, w.Port net inf c ch → given = some (signed ch.latency)

def Uniform (w : World) (net : NetSim) : Prop :=
  ∀ inf c ch inf' c' ch', w.Port net inf c ch → w.Port net inf' c' ch' → ch.latency = ch'.latency

lemma port_latency_iff {ids : List ℕ}
    (hcol : Collected w net.components (net.components.flatMap w.componentChannels) (v,ids))
    (hv : v.Consistent) (l : ℤ) :
    (∃ inf c ch, w.Port net inf c ch ∧ ch.latency = l) ↔ ∃ s ∈ ids.filterMap v.chanMap.get?,
    v.HasLatency s l := by
  have hsame : v.channels = w.channels := hcol.checked.channels
  constructor
  · rintro ⟨inf,c,ch,hport,rfl⟩
    have hmem : c ∈ ids := (hcol.mem c).mpr
      ⟨mem_componentChannels.mpr ⟨inf,hport.intf⟩,ch,hport.channel,hport.needs⟩
    obtain ⟨s,hs⟩ := hcol.instantiated c hmem
    refine ⟨s,mem_filterMap.mpr ⟨c,hmem,hs⟩,ch,?_,rfl⟩
    rw [(hv c s hs).1, hsame]
    exact hport.channel
  · rintro ⟨s,hs,ch,hch,rfl⟩
    obtain ⟨c,hc,hs⟩ := mem_filterMap.mp hs
    rw [(hv c s hs).1, hsame] at hch
    obtain ⟨hvisited,ch',hch',hneeds⟩ := (hcol.mem c).mp hc
    cases hch.symm.trans hch'
    obtain ⟨inf,hintf⟩ := mem_componentChannels.mp hvisited
    exact ⟨inf,c,ch,⟨hintf,hch,hneeds⟩,rfl⟩

/-- The latency for the command is the latency of a port, and the largest one
if none is negative. -/
lemma netParameters_latency {sync : Bool} (hw : w.Consistent)
    (h : w.netParameters net = .ok (v,l,p,sync)) :
    v.interfaces = w.interfaces ∧ (∃ inf c ch, w.Port net inf c ch ∧ ch.latency = l) ∧ ((∀ inf c ch,
    w.Port net inf c ch → 0 ≤ ch.latency) → ∀ inf c ch, w.Port net inf c ch → ch.latency ≤ l) := by
  obtain ⟨⟨u,_⟩,hu,h⟩ := bind_eq_ok.mp h
  obtain ⟨⟨l',_,_⟩,hunique,h⟩ := bind_eq_ok.mp h
  obtain ⟨rfl,hrest⟩ := Prod.mk.inj (Except.ok.inj h)
  obtain ⟨rfl,-⟩ := Prod.mk.inj hrest
  have hcol := getChannels_collected hu
  have hports := port_latency_iff hcol (hcol.checked.consistent hw)
  have hfold := getUniqueLatencyPeriodSync_latency hunique
  refine ⟨hcol.interfaces,(hports l').mpr (hfold.mem l' rfl),fun hnonneg inf c ch hport => ?_⟩
  obtain ⟨s,hs,hlat⟩ := (hports ch.latency).mp ⟨inf,c,ch,hport,rfl⟩
  refine hfold.bound (fun r hr k hk => ?_) l' rfl s hs ch.latency hlat
  obtain ⟨inf',c',ch',hport',rfl⟩ := (hports k).mpr ⟨r,hr,hk⟩
  exact hnonneg inf' c' ch' hport'

lemma reported_iff_uniform (h : ∃ inf c ch, w.Port net inf c ch ∧ ch.latency = l) :
    w.Reported net (some (signed l)) ↔ w.Uniform net := by
  constructor
  · intro hrep inf c ch inf' c' ch' hport hport'
    have hl := signed_injective (some.inj (hrep inf c ch hport))
    have hl' := signed_injective (some.inj (hrep inf' c' ch' hport'))
    exact hl.symm.trans hl'
  · intro huni inf c ch hport
    obtain ⟨inf',c',ch',hport',rfl⟩ := h
    rw [huni inf' c' ch' inf c ch hport' hport]

lemma getInterfaceUrl_latency {shmPath : Bytes} {socket : Socket} {intf : Interface} {url : Bytes}
    {ch : SysChannel} (hch : w.channels.get? c = some ch) (hintf : intf.channel = some c)
    (h : w.getInterfaceUrl shmPath socket components intf = .ok (url,v))
    (hreports : Reports url l p) : l = ch.latency := by
  obtain ⟨d,dh,s,hd,hdh,-,-,rfl⟩ := getInterfaceUrl_spec h
  cases hintf.symm.trans hd
  cases hch.symm.trans hdh
  exact (reports_unique hreports (urlText_reports _ _ _ _ _)).1

lemma socksByAllComp_congr (h : v.interfaces = w.interfaces) (getSocket : ℕ → Option Socket)
    (components : List ℕ) :
    v.socksByAllComp getSocket components = w.socksByAllComp getSocket components := by
  rw [socksByAllComp, socksByAllComp, h]

/-- A switch gets one latency for all ports, the largest one, which is right
exactly if all of them are the same. The simulator at the other end of a port
always gets the latency of the channel. -/
theorem network_latency (ops : List Op) (w : World) (hrun : run step (.ok initial) ops = .ok w)
    (net : NetSim) (getSocket : ℕ → Option Socket)
    (hplain : Plain net (w.socksByAllComp getSocket net.components)) :
    (∀ v cmd, w.switchRunCmd getSocket net = .ok (v,cmd) →
      switchPorts cmd =
        ((w.socksByAllComp getSocket net.components).filter (·.type = .connect)).map (·.path)++
        ((w.socksByAllComp getSocket net.components).filter (·.type = .listen)).map (·.path) ∧
      (w.Reported net (switchLatency cmd) ↔ w.Uniform net) ∧
      ∃ latency, switchLatency cmd = some (signed latency) ∧
        (∃ inf c ch, w.Port net inf c ch ∧ ch.latency = latency) ∧
        ((∀ inf c ch, w.Port net inf c ch → 0 ≤ ch.latency) →
          ∀ inf c ch, w.Port net inf c ch → ch.latency ≤ latency)) ∧
    ∀ inf c ch, w.Port net inf c ch → ∀ shmPath socket components intf url v l p,
      intf.channel = some c → w.getInterfaceUrl shmPath socket components intf = .ok (url,v) →
      Reports url l p → l = ch.latency := by
  have hw := run_consistent hrun
  refine ⟨fun v cmd h => ?_,fun inf c ch hport _ _ _ _ _ _ _ _ hintf h hr =>
    getInterfaceUrl_latency hport.channel hintf h hr⟩
  obtain ⟨⟨u,l,p,sync⟩,hu,h⟩ := bind_eq_ok.mp h
  obtain ⟨-,rfl⟩ := Prod.mk.inj (Except.ok.inj h)
  obtain ⟨hinf,hl,hmax⟩ := netParameters_latency hw hu
  rw [socksByAllComp_congr hinf]
  have hgiven := switchLatency_switchCmd hplain l p sync
  refine ⟨switchPorts_switchCmd hplain l p sync,?_,l,hgiven,hl,hmax⟩
  rw [hgiven]
  exact reported_iff_uniform hl

/-- A switch between two hosts, where these channels take 1000 ns. -/
def twoChannels (slow : List ℕ) : List Op :=
  [.addInterface 7,.addInterface 8,.newChannel .eth 0 1,.addInterface 7,.addInterface 9,
    .newChannel .eth 3 4]++slow.map (.setLatency · 1000 .nanoseconds)

def twoSockets (inf : ℕ) : Option Socket :=
  if inf = 0 then some ⟨.connect,ascii "a"⟩ else if inf = 3 then some ⟨.connect,ascii "b"⟩
  else none

def switchNet : NetSim := ⟨[7],ascii "net_switch",none⟩

/-- Both channels are slow, and both ports get their latency. -/
theorem network_latency_two : ∃ w v ch ch', run step (.ok initial) (twoChannels [2,5]) = .ok w ∧
    w.switchRunCmd twoSockets switchNet =
      .ok (v,ascii "net_switch -S 500 -E 1000 -u -s a -s b") ∧
    w.Port switchNet 0 2 ch ∧ w.Port switchNet 3 5 ch' ∧
    w.Reported switchNet (switchLatency (ascii "net_switch -S 500 -E 1000 -u -s a -s b")) := by
  refine ⟨_,_,⟨.eth,1000,0,1⟩,⟨.eth,1000,3,4⟩,rfl,rfl,
    ⟨⟨⟨7,some 2⟩,rfl,by decide,rfl⟩,rfl,rfl⟩,⟨⟨⟨7,some 5⟩,rfl,by decide,rfl⟩,rfl,rfl⟩,?_⟩
  refine ((network_latency (twoChannels [2,5]) _ rfl switchNet twoSockets
    ⟨.of_all (by decide) (by decide),fun _ h => (by cases h),?_⟩).1 _ _ rfl).2.1.mpr ?_
  · intro sock hsock
    change sock ∈ [⟨.connect,ascii "a"⟩,⟨.connect,ascii "b"⟩] at hsock
    revert sock
    simp only [forall_mem_cons]
    exact ⟨.of_all (by decide) (by decide),.of_all (by decide) (by decide),nofun⟩
  · intro inf c ch inf' c' ch' hport hport'
    have hslow : ∀ x ∈ [(2,(⟨.eth,1000,0,1⟩ : SysChannel)),(5,⟨.eth,1000,3,4⟩)],
        x.2.latency = 1000 := by decide
    exact (hslow (c,ch) (Dict.mem_entries.mpr hport.channel)).trans
      (hslow (c',ch') (Dict.mem_entries.mpr hport'.channel)).symm

/-- The switch is given the latency of the second channel for both ports, the
host at the first one gets the latency of the first. -/
theorem slower_channel_wins : ∃ w v u ch, run step (.ok initial) (twoChannels [5]) = .ok w ∧
    w.switchRunCmd twoSockets switchNet =
      .ok (v,ascii "net_switch -S 500 -E 1000 -u -s a -s b") ∧
    w.Port switchNet 0 2 ch ∧
    w.getInterfaceUrl (ascii "shm") ⟨.listen,ascii "a"⟩ [8] ⟨8,some 2⟩ =
      .ok (ascii "listen:a:shm:sync=false:latency=500:sync_interval=500",u) ∧
    ¬ w.Reported switchNet
      (switchLatency (ascii "net_switch -S 500 -E 1000 -u -s a -s b")) := by
  refine ⟨_,_,_,⟨.eth,500,0,1⟩,rfl,rfl,?_,rfl,fun h => ?_⟩
  · exact ⟨⟨⟨7,some 2⟩,rfl,by decide,rfl⟩,rfl,rfl⟩
  · have hgiven := h 0 2 ⟨.eth,500,0,1⟩ ⟨⟨⟨7,some 2⟩,rfl,by decide,rfl⟩,rfl,rfl⟩
    exact absurd hgiven (by decide +kernel)

end World
end SimBricks.Orchestration
