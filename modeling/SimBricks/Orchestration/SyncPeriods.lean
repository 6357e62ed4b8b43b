import SimBricks.Orchestration.Channels

/-!
# Synchronization periods and latencies

The period of an instance is checked against the latency of its channel when
the instance is created and when the period is set. Only the latency can
change behind it.
-/

set_option autoImplicit false

namespace SimBricks.Orchestration
open Library Library.Run Library.Text List Option Except

variable {c : ℕ} {amount : ℤ} {ratio : Time} {components : List ℕ} {l p : ℤ} {url shmPath : Bytes}
variable {socket : Socket}

namespace World
variable {w v : World}

/-- The instances refer to channels of the system, each to its own. -/
def Consistent (w : World) : Prop :=
  ∀ c s, w.chanMap.get? c = some s → s.sysChannel = c ∧ ∃ ch, w.channels.get? c = some ch

def Bounded (w : World) : Prop :=
  ∀ c s ch, w.chanMap.get? c = some s → w.channels.get? c = some ch → s.syncPeriod ≤ ch.latency

/-! ## What the operations do -/

structure Extends (w v : World) : Prop where
  channels : ∀ c ch, w.channels.get? c = some ch → v.channels.get? c = some ch
  chanMap : ∀ c, v.chanMap.get? c = w.chanMap.get? c

lemma Extends.consistent (h : Extends w v) (hw : w.Consistent) : v.Consistent := by
  intro c s hs
  rw [h.chanMap] at hs
  obtain ⟨hown,ch,hch⟩ := hw c s hs
  exact ⟨hown,ch,h.channels c ch hch⟩

lemma Extends.bounded (h : Extends w v) (hw : w.Consistent) (hb : w.Bounded) : v.Bounded := by
  intro c s ch hs hch
  rw [h.chanMap] at hs
  obtain ⟨-,old,hold⟩ := hw c s hs
  obtain rfl : old = ch := some.inj ((h.channels c old hold).symm.trans hch)
  exact hb c s old hs hold

/-- Instances may be created or get another period, both checked. -/
structure Checked (w v : World) : Prop where
  channels : v.channels = w.channels
  chanMap : ∀ c s, v.chanMap.get? c = some s →
    (∃ old, w.chanMap.get? c = some old ∧ s.sysChannel = old.sysChannel ∧
      s.syncPeriod = old.syncPeriod) ∨
    (s.sysChannel = c ∧ ∃ ch, w.channels.get? c = some ch ∧ s.syncPeriod ≤ ch.latency)

lemma Checked.refl (w : World) : Checked w w := ⟨rfl,fun _ s hs => .inl ⟨s,hs,rfl,rfl⟩⟩

lemma Checked.trans {u : World} (h : Checked w v) (h' : Checked v u) : Checked w u := by
  refine ⟨h'.channels.trans h.channels,fun c s hs => ?_⟩
  rcases h'.chanMap c s hs with ⟨mid,hmid,hown,hperiod⟩ | hnew
  · rw [hown, hperiod]
    exact h.chanMap c mid hmid
  · rw [h.channels] at hnew
    exact .inr hnew

lemma Checked.consistent (h : Checked w v) (hw : w.Consistent) : v.Consistent := by
  intro c s hs
  rw [h.channels]
  rcases h.chanMap c s hs with ⟨old,hold,hown,-⟩ | ⟨hown,ch,hch,-⟩
  · rw [hown]
    exact hw c old hold
  · exact ⟨hown,ch,hch⟩

lemma Checked.bounded (h : Checked w v) (hb : w.Bounded) : v.Bounded := by
  intro c s ch hs hch
  rw [h.channels] at hch
  rcases h.chanMap c s hs with ⟨old,hold,-,hperiod⟩ | ⟨-,new,hnew,hle⟩
  · rw [hperiod]
    exact hb c old ch hold hch
  · cases hnew.symm.trans hch
    exact hle

lemma getChan_eq_ok {ch : SysChannel} : w.getChan c = .ok ch ↔ w.channels.get? c = some ch := by
  unfold getChan
  cases w.channels.get? c with
  | none | some x => simp

lemma newChannel_extends {type : ChannelType} {a b : ℕ} (h : w.newChannel type a b = .ok v) :
    Extends w v := by
  obtain ⟨i,-,h⟩ := bind_eq_ok.mp h
  obtain ⟨j,-,h⟩ := bind_eq_ok.mp h
  obtain ⟨d,hd,h⟩ := bind_eq_ok.mp h
  cases h
  unfold addChannel at hd
  split_ifs at hd with hnew
  cases hd
  have hnone : w.channels.get? w.nextId = none := by simpa [Dict.contains] using hnew
  exact ⟨fun c ch hch => Dict.get?_set_new hnone hch _,fun _ => rfl⟩

lemma retrieveOrCreateChannel_checked (h : w.retrieveOrCreateChannel c = .ok v) : Checked w v := by
  unfold retrieveOrCreateChannel at h
  split_ifs at h with hold
  · cases h
    exact .refl w
  · obtain ⟨ch,hch,h⟩ := bind_eq_ok.mp h
    split_ifs at h with hle
    obtain ⟨m,hm,h⟩ := bind_eq_ok.mp h
    cases h
    rw [updateChannelMapping, if_neg hold] at hm
    cases hm
    refine ⟨rfl,fun d s hs => ?_⟩
    rcases Dict.get?_set_cases hs with ⟨rfl,rfl⟩ | hs
    · exact .inr ⟨rfl,ch,getChan_eq_ok.mp hch,hle⟩
    · exact .inl ⟨s,hs,rfl,rfl⟩

lemma setSyncPeriod_checked (hw : w.Consistent) (h : w.setSyncPeriod c amount ratio = .ok v) :
    Checked w v := by
  unfold setSyncPeriod at h
  cases hs : w.chanMap.get? c with
  | none =>
    rw [hs] at h
    cases h
  | some old =>
    rw [hs] at h
    obtain ⟨ch,hch,h⟩ := bind_eq_ok.mp h
    split_ifs at h with hle
    cases h
    obtain ⟨hown,-⟩ := hw c old hs
    have hch' : w.channels.get? c = some ch := hown ▸ getChan_eq_ok.mp hch
    refine ⟨rfl,fun d s hd => ?_⟩
    rcases Dict.get?_set_cases hd with ⟨rfl,rfl⟩ | hd
    · exact .inr ⟨hown,ch,hch',hle⟩
    · exact .inl ⟨s,hd,rfl,rfl⟩

lemma getChannel_checked {found : Bool} (h : w.getChannel components c = .ok (v,found)) :
    Checked w v := by
  obtain ⟨_,-,h⟩ := bind_eq_ok.mp h
  split_ifs at h with hneeds
  · obtain ⟨u,hu,h⟩ := bind_eq_ok.mp h
    obtain ⟨rfl,-⟩ := Prod.mk.inj (Except.ok.inj h)
    exact retrieveOrCreateChannel_checked hu
  · obtain ⟨rfl,-⟩ := Prod.mk.inj (Except.ok.inj h)
    exact .refl w

lemma collect_checked {x y : World × List ℕ} (h : collect components x c = .ok y) :
    Checked x.1 y.1 := by
  obtain ⟨⟨u,_⟩,hu,h⟩ := bind_eq_ok.mp h
  cases h
  exact getChannel_checked hu

lemma getAllChannels_checked {channels : List ℕ} (h : w.getAllChannels = .ok (v,channels)) :
    Checked w v := by
  refine foldlM_ok_invariant (I := fun _ x => Checked w x.1) ?_ (.refl w) h
  intro _ components _ x y _ hx hy
  refine foldlM_ok_invariant (I := fun _ x => Checked w x.1) ?_ hx hy
  intro _ component _ x y _ hx hy
  refine foldlM_ok_invariant (I := fun _ x => Checked w x.1) ?_ hx hy
  intro _ c _ x y _ hx hy
  exact hx.trans (collect_checked hy)

lemma synchronize_checked {amount : Option ℤ} {ratio : Option Time} (hw : w.Consistent)
    (h : synchronize amount ratio w c = .ok v) : Checked w v := by
  unfold synchronize at h
  cases hs : w.chanMap.get? c with
  | none =>
    rw [hs] at h
    cases h
  | some old =>
    rw [hs] at h
    have hmode : Checked w
        { w with chanMap := w.chanMap.set c { old with synchronized := true } } := by
      refine ⟨rfl,fun d s hd => .inl ?_⟩
      rcases Dict.get?_set_cases hd with ⟨rfl,rfl⟩ | hd
      · exact ⟨old,hs,rfl,rfl⟩
      · exact ⟨s,hd,rfl,rfl⟩
    dsimp only at h
    split at h
    · split_ifs at h with hset
      · exact hmode.trans (setSyncPeriod_checked (hmode.consistent hw) h)
      · cases h
        exact hmode
    · cases h
      exact hmode

lemma enableSynchronization_checked {amount : Option ℤ} {ratio : Option Time}
    (hw : w.Consistent) (h : w.enableSynchronization amount ratio = .ok v) : Checked w v := by
  obtain ⟨⟨u,_⟩,hu,h⟩ := bind_eq_ok.mp h
  refine foldlM_ok_invariant (I := fun _ x => Checked w x) ?_ (getAllChannels_checked hu) h
  intro _ c _ x y _ hx hy
  exact hx.trans (synchronize_checked (hx.consistent hw) hy)

/-! ## The round trip through JSON -/

lemma systemFromJSON_channels {json : SystemJson} {x : Dict ℕ Interface × Dict ℕ SysChannel}
    (hjson : w.systemToJSON = .ok json) (h : systemFromJSON json = .ok x) :
    x.2.entries = w.channels.entries := by
  obtain ⟨_,-,hjson⟩ := bind_eq_ok.mp hjson
  cases hjson
  obtain ⟨i,-,h⟩ := bind_eq_ok.mp h
  have hread : x.2.entries.map channelToJSON = w.channels.entries.map channelToJSON := by
    refine foldlM_ok_invariant (I := fun done (x : Dict ℕ Interface × Dict ℕ SysChannel) =>
      x.2.entries.map channelToJSON = done) ?_ rfl h
    intro done c rest x y _ hx hy
    obtain ⟨i,-,hy⟩ := bind_eq_ok.mp hy
    obtain ⟨j,-,hy⟩ := bind_eq_ok.mp hy
    obtain ⟨d,hd,hy⟩ := bind_eq_ok.mp hy
    cases hy
    unfold addChannel at hd
    split_ifs at hd with hnew
    cases hd
    rw [Dict.entries_set_new (Bool.eq_false_iff.mpr hnew), map_append, hx]
    rfl
  refine map_injective_iff.mpr ?_ hread
  rintro ⟨c,⟨_,l,a,b⟩⟩ ⟨_,⟨_,_,_,_⟩⟩ heq
  simpa [channelToJSON] using heq

lemma simChannelFromJSON_entries {x : ℕ × SimChannelJson} (h : w.simChannelFromJSON x = .ok v) :
    v.channels = w.channels ∧ v.chanMap.entries =
    w.chanMap.entries++[(x.1,⟨x.2.synchronized,x.2.syncPeriod,x.2.sysChannel⟩)] := by
  obtain ⟨-,-,h⟩ := bind_eq_ok.mp h
  obtain ⟨-,-,h⟩ := bind_eq_ok.mp h
  obtain ⟨d,hd,h⟩ := bind_eq_ok.mp h
  cases h
  unfold updateChannelMapping at hd
  split_ifs at hd with hnew
  cases hd
  exact ⟨rfl,Dict.entries_set_new (Bool.eq_false_iff.mpr hnew) _⟩

lemma jsonRoundTrip_entries (h : w.jsonRoundTrip = .ok v) :
    v.channels.entries = w.channels.entries ∧ v.chanMap.entries = w.chanMap.entries := by
  obtain ⟨_,hjson,h⟩ := bind_eq_ok.mp h
  obtain ⟨⟨i,d⟩,hsystem,h⟩ := bind_eq_ok.mp h
  have hchannels : d.entries = w.channels.entries := systemFromJSON_channels hjson hsystem
  have hread : v.channels = d ∧ v.chanMap.entries.map (fun x => (x.1,simChannelToJSON x.2)) =
      w.chanMap.entries.map fun x => (x.1,simChannelToJSON x.2) := by
    refine foldlM_ok_invariant (I := fun done (x : World) => x.channels = d ∧
      x.chanMap.entries.map (fun x => (x.1,simChannelToJSON x.2)) = done) ?_ ⟨rfl,rfl⟩ h
    rintro done c rest x y - ⟨hd,hx⟩ hy
    obtain ⟨hsame,hentries⟩ := simChannelFromJSON_entries hy
    refine ⟨hsame.trans hd,?_⟩
    rw [hentries, map_append, hx]
    rfl
  refine ⟨hread.1 ▸ hchannels,map_injective_iff.mpr ?_ hread.2⟩
  rintro ⟨c,⟨m,p,k⟩⟩ ⟨_,⟨_,_,_⟩⟩ heq
  simpa [simChannelToJSON] using heq

lemma jsonRoundTrip_extends (h : w.jsonRoundTrip = .ok v) : Extends w v := by
  obtain ⟨hchannels,hmap⟩ := jsonRoundTrip_entries h
  refine ⟨fun c ch hch => ?_,Dict.get?_congr hmap⟩
  rw [Dict.get?_congr hchannels]
  exact hch

/-! ## Latencies -/

lemma setLatency_eq_ok : w.setLatency c amount ratio = .ok v ↔ ∃ ch, w.channels.get? c = some ch ∧
    v = { w with channels := w.channels.set c { ch with latency := amount*ratio.value } } := by
  rw [setLatency, bind_eq_ok]
  constructor
  · rintro ⟨ch,hch,h⟩
    exact ⟨ch,getChan_eq_ok.mp hch,(ok.inj h).symm⟩
  · rintro ⟨ch,hch,rfl⟩
    exact ⟨ch,getChan_eq_ok.mpr hch,rfl⟩

def retimed (chans : List ℕ) (latency : ℤ) (c : ℕ) (ch : SysChannel) : SysChannel :=
  if c ∈ chans then { ch with latency := latency } else ch

lemma retimed_again (chans : List ℕ) (latency : ℤ) (c : ℕ) (ch : SysChannel) :
    { retimed chans latency c ch with latency := latency } = { ch with latency := latency } := by
  unfold retimed
  split_ifs
  · rfl
  · rfl

lemma setLatencies (w : World) (amount : ℤ) (ratio : Time) (l : List (ℕ × SysChannel))
    (hl : ∀ x ∈ l, x ∈ w.channels.entries) :
    ∃ v, l.foldlM (fun w x => w.setLatency x.1 amount ratio) w = .ok v ∧ v.chanMap = w.chanMap ∧
    ∀ c, v.channels.get? c = (w.channels.get? c).map
    (retimed (l.map Prod.fst) (amount*ratio.value) c) := by
  apply foldlM_ok_exists
  · rintro done ⟨k,ch⟩ rest u rfl ⟨hmap,hget⟩
    have hk : w.channels.get? k = some ch := Dict.mem_entries.mp (hl _ (by simp))
    have hu := hget k
    rw [hk] at hu
    refine ⟨_,setLatency_eq_ok.mpr ⟨_,hu,rfl⟩,hmap,fun c => ?_⟩
    rw [Dict.get?_set, retimed_again]
    by_cases hc : c = k
    · rw [if_pos hc, hc, hk]
      simp [retimed]
    · rw [if_neg hc, hget c]
      refine map_congr fun old _ => ?_
      simp only [retimed, map_append, map_singleton, mem_append, mem_singleton, hc, or_false]
  · refine ⟨rfl,fun c => ?_⟩
    cases w.channels.get? c with
    | none => rfl
    | some => simp [retimed]

lemma latencies_some (w : World) (amount : ℤ) (ratio : Time) (ty : ChannelType) :
    ∃ v, w.latencies amount ratio (some ty) = .ok v ∧ v.chanMap = w.chanMap ∧
      ∀ c, v.channels.get? c = (w.channels.get? c).map fun ch =>
        if checkType ch.type ty then { ch with latency := amount*ratio.value } else ch := by
  obtain ⟨v,hv,hmap,hget⟩ := setLatencies w amount ratio
    (w.channels.entries.filter fun x => checkType x.2.type ty)
    fun x hx => (mem_filter.mp hx).1
  refine ⟨v,hv,hmap,fun c => ?_⟩
  rw [hget c]
  refine map_congr fun ch hch => ?_
  have hmem : c ∈ (w.channels.entries.filter fun x => checkType x.2.type ty).map Prod.fst ↔
      checkType ch.type ty := by
    rw [List.mem_map]
    constructor
    · rintro ⟨⟨d,old⟩,hold,rfl⟩
      obtain ⟨hin,hty⟩ := mem_filter.mp hold
      cases (Dict.mem_entries.mp hin).symm.trans hch
      exact hty
    · intro hty
      exact ⟨(c,ch),mem_filter.mpr ⟨Dict.mem_entries.mpr hch,hty⟩,rfl⟩
  simp [retimed, hmem]

end World

/-! ## What reaches the simulators -/

def Reports (url : Bytes) (latency syncPeriod : ℤ) : Prop :=
  ∃ head, url = head++ascii ":latency="++signed latency++ascii ":sync_interval="++ signed syncPeriod

lemma urlText_reports (socket : Socket) (shmPath : Bytes) (sync : Bool) (latency syncPeriod : ℤ) :
    Reports (urlText socket shmPath sync latency syncPeriod) latency syncPeriod := by
  unfold urlText
  cases socket.type with
  | listen | connect => exact ⟨_,rfl⟩

lemma signed_equals (i : ℤ) : 61 ∉ signed i := by
  intro h
  exact absurd (signed_bytes h) (by decide)

lemma reports_unique {l' p' : ℤ} (h : Reports url l p) (h' : Reports url l' p') :
    l = l' ∧ p = p' := by
  obtain ⟨head,hurl⟩ := h
  obtain ⟨_,hurl'⟩ := h'
  have hshape : ∀ head (l p : ℤ),
      head++ascii ":latency="++signed l++ascii ":sync_interval="++signed p =
        (head++ascii ":latency"++61::signed l++ascii ":sync_interval")++61::signed p := by
    intro head l p
    simp [ascii]
  rw [hshape] at hurl hurl'
  obtain ⟨hrest,hp⟩ := last_field (signed_equals p) (signed_equals p') (hurl.symm.trans hurl')
  obtain ⟨-,hl⟩ := last_field (signed_equals l) (signed_equals l')
    (append_cancel_right hrest)
  exact ⟨signed_injective hl,signed_injective hp⟩

def UrlBounded (url : Bytes) : Prop := ∃ l p, Reports url l p ∧ p ≤ l

lemma urlText_bounded_iff {sync : Bool} : UrlBounded (urlText socket shmPath sync l p) ↔ p ≤ l := by
  constructor
  · rintro ⟨_,_,h,hle⟩
    obtain ⟨rfl,rfl⟩ := reports_unique h (urlText_reports socket shmPath sync l p)
    exact hle
  · intro h
    exact ⟨l,p,urlText_reports socket shmPath sync l p,h⟩

namespace World
variable {w v : World}

/-- No simulator gets a period that is larger than the latency. -/
structure Respected (w : World) : Prop where
  parameters : ∀ shmPath socket c s url, w.chanMap.get? c = some s →
    w.getParametersUrl shmPath socket (some s) none none none = .ok url → UrlBounded url
  interface : ∀ shmPath socket components intf url v,
    w.getInterfaceUrl shmPath socket components intf = .ok (url,v) → UrlBounded url
  unique : ∀ channels l p sync, (∀ s ∈ channels, ∃ c, w.chanMap.get? c = some s) →
    w.getUniqueLatencyPeriodSync channels = .ok (l,p,sync) → p ≤ l

lemma getParametersUrl_channel {s : SimChannel} {ch : SysChannel} (hw : w.Consistent)
    (hs : w.chanMap.get? c = some s) (hch : w.channels.get? c = some ch) :
    w.getParametersUrl shmPath socket (some s) none none none = .ok
    (urlText socket shmPath s.synchronized ch.latency s.syncPeriod) := by
  have hown : w.getChan s.sysChannel = .ok ch := by
    rw [(hw c s hs).1]
    exact getChan_eq_ok.mpr hch
  simp only [getParametersUrl, hown]
  rfl

lemma getInterfaceUrl_spec {intf : Interface}
    (h : w.getInterfaceUrl shmPath socket components intf = .ok (url,v)) :
    ∃ c ch s, intf.channel = some c ∧ w.channels.get? c = some ch ∧ Checked w v ∧
    v.chanMap.get? c = some s ∧
    url = urlText socket shmPath s.synchronized ch.latency s.syncPeriod := by
  unfold getInterfaceUrl at h
  cases hc : intf.channel with
  | none =>
    rw [hc] at h
    cases h
  | some c =>
    rw [hc] at h
    obtain ⟨ch,hch,h⟩ := bind_eq_ok.mp h
    obtain ⟨⟨u,found⟩,hu,h⟩ := bind_eq_ok.mp h
    cases found with
    | false => cases h
    | true =>
      cases hs : u.chanMap.get? c with
      | none =>
        dsimp only at h
        rw [hs] at h
        cases h
      | some s =>
        dsimp only at h
        rw [hs] at h
        cases h
        exact ⟨c,ch,s,rfl,getChan_eq_ok.mp hch,getChannel_checked hu,hs,rfl⟩

lemma getInterfaceUrl_bounded {intf : Interface} (hb : w.Bounded)
    (h : w.getInterfaceUrl shmPath socket components intf = .ok (url,v)) : UrlBounded url := by
  obtain ⟨c,ch,s,-,hch,hchecked,hs,rfl⟩ := getInterfaceUrl_spec h
  refine urlText_bounded_iff.mpr (hchecked.bounded hb c s ch hs ?_)
  rw [hchecked.channels]
  exact hch

lemma uniqueStep_bounds {x y : Option ℤ × Option ℤ × Bool} {s : SimChannel}
    (h : w.uniqueStep x s = .ok y) :
    ∃ ch l p, w.channels.get? s.sysChannel = some ch ∧ y.1 = some l ∧ y.2.1 = some p ∧
    p ≤ s.syncPeriod ∧ ch.latency ≤ l := by
  obtain ⟨ch,hch,h⟩ := bind_eq_ok.mp h
  cases h
  refine ⟨ch,_,_,getChan_eq_ok.mp hch,rfl,rfl,?_,?_⟩
  · split
    · split_ifs
      · exact min_le_right _ _
      · exact le_rfl
    · exact le_rfl
  · split
    · split_ifs
      · exact le_max_right _ _
      · exact le_rfl
    · exact le_rfl

lemma getUniqueLatencyPeriodSync_bounded {channels : List SimChannel} {sync : Bool}
    (hw : w.Consistent) (hb : w.Bounded)
    (hchannels : ∀ s ∈ channels, ∃ c, w.chanMap.get? c = some s)
    (h : w.getUniqueLatencyPeriodSync channels = .ok (l,p,sync)) : p ≤ l := by
  obtain ⟨x,hx,h⟩ := bind_eq_ok.mp h
  have hpair : ∀ l p, x.1 = some l → x.2.1 = some p → p ≤ l := by
    refine foldlM_ok_invariant (I := fun _ (x : Option ℤ × Option ℤ × Bool) =>
      ∀ l p, x.1 = some l → x.2.1 = some p → p ≤ l) ?_ (by simp) hx
    rintro done s rest x y rfl - hy l p hl hp
    obtain ⟨c,hs⟩ := hchannels s (by simp)
    obtain ⟨ch,l',p',hch,hl',hp',hple,hlle⟩ := uniqueStep_bounds hy
    obtain rfl : l' = l := Option.some.inj (hl'.symm.trans hl)
    obtain rfl : p' = p := Option.some.inj (hp'.symm.trans hp)
    rw [(hw c s hs).1] at hch
    calc p' ≤ s.syncPeriod := hple
      _ ≤ ch.latency := hb c s ch hs hch
      _ ≤ l' := hlle
  split at h
  · obtain ⟨rfl,hrest⟩ := Prod.mk.inj (Except.ok.inj h)
    obtain ⟨rfl,-⟩ := Prod.mk.inj hrest
    exact hpair _ _ rfl rfl
  · cases h

lemma respected_iff (hw : w.Consistent) : w.Respected ↔ w.Bounded := by
  constructor
  · intro h c s ch hs hch
    exact urlText_bounded_iff.mp
      (h.parameters [] ⟨.connect,[]⟩ c s _ hs (getParametersUrl_channel hw hs hch))
  · intro hb
    refine ⟨fun shmPath socket c s url hs h => ?_,
      fun _ _ _ _ _ _ h => getInterfaceUrl_bounded hb h,
      fun _ _ _ _ hchannels h => getUniqueLatencyPeriodSync_bounded hw hb hchannels h⟩
    obtain ⟨-,ch,hch⟩ := hw c s hs
    rw [getParametersUrl_channel hw hs hch] at h
    cases h
    exact urlText_bounded_iff.mpr (hb c s ch hs hch)

/-! ## Runs -/

inductive Op where
  | addInterface (component : ℕ)
  | addSimulator (components : List ℕ)
  | newChannel (type : ChannelType) (a b : ℕ)
  | setLatency (chan : ℕ) (amount : ℤ) (ratio : Time)
  | latencies (amount : ℤ) (ratio : Time) (channelType : Option ChannelType)
  | retrieveOrCreateChannel (chan : ℕ)
  | setSyncPeriod (chan : ℕ) (amount : ℤ) (ratio : Time)
  | enableSynchronization (amount : Option ℤ) (ratio : Option Time)
  | jsonRoundTrip
  deriving DecidableEq, Repr

def exec (w : World) : Op → Except String World
  | .addInterface component => .ok (w.addInterface component)
  | .addSimulator components => w.addSimulator components
  | .newChannel type a b => w.newChannel type a b
  | .setLatency chan amount ratio => w.setLatency chan amount ratio
  | .latencies amount ratio channelType => w.latencies amount ratio channelType
  | .retrieveOrCreateChannel chan => w.retrieveOrCreateChannel chan
  | .setSyncPeriod chan amount ratio => w.setSyncPeriod chan amount ratio
  | .enableSynchronization amount ratio => w.enableSynchronization amount ratio
  | .jsonRoundTrip => w.jsonRoundTrip

/-- A run ends with the first exception. -/
def step (x : Except String World) (op : Op) : Except String World := x >>= fun w => w.exec op

/-- A channel that already has an instance keeps a latency of at least the
period. -/
def LatencyKept (w : World) : Op → Prop
  | .setLatency chan amount ratio => ∀ s, w.chanMap.get? chan = some s →
      s.syncPeriod ≤ amount*ratio.value
  | .latencies amount ratio (some ty) => ∀ chan s c, w.chanMap.get? chan = some s →
      w.channels.get? chan = some c → checkType c.type ty →
      s.syncPeriod ≤ amount*ratio.value
  | _ => True

inductive Effect (w v : World) : Prop where
  | extended (h : Extends w v)
  | checked (h : Checked w v)

lemma Effect.consistent (h : Effect w v) (hw : w.Consistent) : v.Consistent := by
  cases h with
  | extended h | checked h => exact h.consistent hw

lemma Effect.bounded (h : Effect w v) (hw : w.Consistent) (hb : w.Bounded) : v.Bounded := by
  cases h with
  | extended h => exact h.bounded hw hb
  | checked h => exact h.bounded hb

lemma setLatency_consistent (hw : w.Consistent) (h : w.setLatency c amount ratio = .ok v) :
    v.Consistent := by
  obtain ⟨_,_,rfl⟩ := setLatency_eq_ok.mp h
  intro d s hs
  obtain ⟨hown,old,hold⟩ := hw d s hs
  refine ⟨hown,?_⟩
  rw [Dict.get?_set]
  split_ifs
  · exact ⟨_,rfl⟩
  · exact ⟨old,hold⟩

lemma setLatency_bounded_iff (hb : w.Bounded) (h : w.setLatency c amount ratio = .ok v) :
    v.Bounded ↔ ∀ s, w.chanMap.get? c = some s → s.syncPeriod ≤ amount*ratio.value := by
  obtain ⟨_,_,rfl⟩ := setLatency_eq_ok.mp h
  constructor
  · intro hv s hs
    exact hv c s _ hs (Dict.get?_set_self ..)
  · intro hkept d s new hs hnew
    rcases Dict.get?_set_cases hnew with ⟨rfl,rfl⟩ | hnew
    · exact hkept s hs
    · exact hb d s new hs hnew

lemma latencies_bounded_iff {ty : ChannelType} (hb : w.Bounded)
    (h : w.latencies amount ratio (some ty) = .ok v) :
    v.Bounded ↔ ∀ c s ch, w.chanMap.get? c = some s → w.channels.get? c = some ch →
    checkType ch.type ty → s.syncPeriod ≤ amount*ratio.value := by
  obtain ⟨u,hu,hmap,hget⟩ := latencies_some w amount ratio ty
  cases hu.symm.trans h
  constructor
  · intro hv c s ch hs hch hty
    have hnew := hget c
    rw [hch, map_some, if_pos hty] at hnew
    exact hv c s _ (hmap ▸ hs) hnew
  · intro hkept c s new hs hnew
    rw [hmap] at hs
    rw [hget c] at hnew
    obtain ⟨ch,hch,rfl⟩ := map_eq_some_iff.mp hnew
    split_ifs with hty
    · exact hkept c s ch hs hch hty
    · exact hb c s ch hs hch

lemma latencies_consistent {ty : ChannelType} (hw : w.Consistent)
    (h : w.latencies amount ratio (some ty) = .ok v) : v.Consistent := by
  obtain ⟨u,hu,hmap,hget⟩ := latencies_some w amount ratio ty
  cases hu.symm.trans h
  intro c s hs
  rw [hmap] at hs
  obtain ⟨hown,_,hch⟩ := hw c s hs
  refine ⟨hown,?_⟩
  rw [hget c, hch]
  exact ⟨_,rfl⟩

lemma Effect.spec (h : Effect w v) (hw : w.Consistent) {kept : Prop} (hkept : kept) :
    v.Consistent ∧ (w.Bounded → (v.Bounded ↔ kept)) :=
  ⟨h.consistent hw,fun hb => iff_of_true (h.bounded hw hb) hkept⟩

lemma exec_spec {op : Op} (hw : w.Consistent) (h : w.exec op = .ok v) :
    v.Consistent ∧ (w.Bounded → (v.Bounded ↔ LatencyKept w op)) := by
  cases op with
  | addInterface =>
    cases h
    exact Effect.spec (.extended ⟨fun _ _ hch => hch,fun _ => rfl⟩) hw trivial
  | addSimulator =>
    dsimp only [exec, addSimulator] at h
    split_ifs at h
    cases h
    exact Effect.spec (.extended ⟨fun _ _ hch => hch,fun _ => rfl⟩) hw trivial
  | newChannel => exact Effect.spec (.extended (newChannel_extends h)) hw trivial
  | setLatency =>
    exact ⟨setLatency_consistent hw h,fun hb => setLatency_bounded_iff hb h⟩
  | latencies amount ratio channelType =>
    cases channelType with
    | some => exact ⟨latencies_consistent hw h,fun hb => latencies_bounded_iff hb h⟩
    | none =>
      dsimp only [exec, latencies] at h
      split_ifs at h
      cases h
      exact Effect.spec (.checked (.refl w)) hw trivial
  | retrieveOrCreateChannel =>
    exact Effect.spec (.checked (retrieveOrCreateChannel_checked h)) hw trivial
  | setSyncPeriod =>
    exact Effect.spec (.checked (setSyncPeriod_checked hw h)) hw trivial
  | enableSynchronization =>
    exact Effect.spec (.checked (enableSynchronization_checked hw h)) hw trivial
  | jsonRoundTrip => exact Effect.spec (.extended (jsonRoundTrip_extends h)) hw trivial

lemma latencyKept_of_error {op : Op} {e : String} (hw : w.Consistent)
    (h : w.exec op = .error e) : LatencyKept w op := by
  cases op with
  | setLatency chan amount ratio =>
    intro s hs
    obtain ⟨-,ch,hch⟩ := hw chan s hs
    have hok : w.setLatency chan amount ratio = .ok _ := setLatency_eq_ok.mpr ⟨ch,hch,rfl⟩
    cases hok.symm.trans h
  | latencies amount ratio channelType =>
    cases channelType with
    | some ty =>
      obtain ⟨u,hu,-⟩ := latencies_some w amount ratio ty
      cases hu.symm.trans h
    | none => trivial
  | _ => trivial

lemma initial_consistent : initial.Consistent := by
  intro c s hs
  cases hs

lemma run_consistent {ops : List Op} (h : run step (.ok initial) ops = .ok w) : w.Consistent := by
  refine run_always (I := fun x : Except String World => ∀ w, x = .ok w → w.Consistent) ?_ ?_
    ops w h
  · intro x op hx v hv
    obtain ⟨w,rfl,hv⟩ := bind_eq_ok.mp hv
    exact (exec_spec (hx w rfl) hv).1
  · intro w hw
    cases hw
    exact initial_consistent

/-- Along a run from a new system, simulators get a period within the latency
exactly as long as no latency is set below the period of an instance. -/
theorem periods_respected_iff (ops : List Op) :
    (∀ earlier later, ops = earlier++later →
      ∀ w, run step (.ok initial) earlier = .ok w → w.Respected) ↔
    Along step (fun x op => ∀ w, x = .ok w → LatencyKept w op) (.ok initial) ops := by
  refine always_iff_along
    (I := fun x : Except String World => ∀ w, x = .ok w → w.Consistent)
    (P := fun x : Except String World => ∀ w, x = .ok w → w.Respected) ?_ ?_ ?_ ?_ ops
    fun _ _ => trivial
  · rintro x op - hx v hv
    obtain ⟨w,rfl,hv⟩ := bind_eq_ok.mp hv
    exact (exec_spec (hx w rfl) hv).1
  · rintro x op - hx hp
    cases x with
    | error => exact iff_of_true (fun w hw => by cases hw) fun w hw => by cases hw
    | ok w =>
      have hw := hx w rfl
      have hb := (respected_iff hw).mp (hp w rfl)
      simp only [ok.injEq, forall_eq']
      cases hv : w.exec op with
      | error =>
        refine iff_of_true (fun v h => ?_) (latencyKept_of_error hw hv)
        cases hv.symm.trans h
      | ok v =>
        obtain ⟨hcons,hiff⟩ := exec_spec hw hv
        rw [← hiff hb, ← respected_iff hcons]
        constructor
        · intro h
          exact h v hv
        · intro h u hu
          exact ok.inj (hv.symm.trans hu) ▸ h
  · intro w hw
    cases hw
    exact initial_consistent
  · intro w hw
    cases hw
    exact (respected_iff initial_consistent).mpr fun c s ch hs => by cases hs

/-- The latency of an instantiated channel is lowered without an exception. -/
theorem latency_below_period : ∃ w s, run step (.ok initial)
      [.addInterface 7,.addInterface 8,.newChannel .eth 0 1,.retrieveOrCreateChannel 2,
        .setLatency 2 100 .nanoseconds] = .ok w ∧
    w.chanMap.get? 2 = some s ∧
    w.getParametersUrl [] ⟨.connect,ascii "s"⟩ (some s) none none none =
      .ok (ascii "connect:s:sync=false:latency=100:sync_interval=500") ∧
    w.getUniqueLatencyPeriodSync [s] = .ok (100,500,false) ∧ ¬ w.Respected := by
  refine ⟨_,_,rfl,rfl,by decide +kernel,by decide +kernel,fun h => ?_⟩
  have := h.unique [⟨false,500,2⟩] 100 500 false (by
    intro s hs
    exact ⟨2,by rw [mem_singleton.mp hs]; rfl⟩) (by decide +kernel)
  omega

end World
end SimBricks.Orchestration
