import SimBricks.Library.Text

/-!
# The URL parser of `parser.c`

`SimbricksParametersParse` on a zero-terminated string, with pointers as
positions. Allocation succeeds; the two numbers of a new structure hold
whatever was in memory. An error is the text that goes to standard error
before the colon and the URL.
-/

set_option autoImplicit false

namespace SimBricks.Parser
open Library.Text List UInt64

structure AdapterParams where
  listen : Bool
  socketPath : Bytes
  shmPath : Option Bytes
  sync : Bool
  linkLatencySet : Bool
  linkLatency : UInt64
  syncIntervalSet : Bool
  syncInterval : UInt64
  deriving DecidableEq, Repr

def kColon : UInt8 := 58
def kEquals : UInt8 := 61

def nextDelimiter (url : Bytes) (start stop : ℕ) (c : UInt8) : ℕ :=
  match strchr url start c with
  | some p => if p < stop then p else stop
  | none => stop

def parseUInteger (str : Bytes) : Option UInt64 :=
  match strtoul str with
  | none => none
  | some n => if n.range ∨ n.rest ≠ [] then none else some n.value

def fieldIs (url : Bytes) (start stop : ℕ) (literal : Bytes) : Bool :=
  stop-start = literal.length && hasAt url start literal

def parseType (url : Bytes) : Except String (Bool × ℕ) :=
  let colon := nextDelimiter url 0 url.length kColon
  if fieldIs url 0 colon (ascii "connect") then .ok (false,colon)
  else if fieldIs url 0 colon (ascii "listen") then .ok (true,colon)
  else .error "Type is neither 'listen' nor 'connect'"

def parsePath (missing empty : String) (url : Bytes) (colon : ℕ) : Except String (Bytes × ℕ) :=
  let start := colon+1
  if url.length ≤ start then .error missing
  else
    let colon := nextDelimiter url start url.length kColon
    if colon = start then .error empty else .ok (slice url start colon,colon)

def parseSocketPath (url : Bytes) (colon : ℕ) : Except String (Bytes × ℕ) :=
  parsePath "Socket path is missing" "Socket path cannot be empty" url colon

def parseShmPath (url : Bytes) (colon : ℕ) : Except String (Bytes × ℕ) :=
  parsePath "Shared memory path is missing" "Shared memory path cannot be empty" url colon

def parseSync (url : Bytes) (colon : ℕ) : Except String (Bool × ℕ) :=
  let start := colon+1
  if url.length ≤ start then .error "Sync parameter is missing"
  else
    let colon := nextDelimiter url start url.length kColon
    let delim := nextDelimiter url start colon kEquals
    if delim = colon then .error "Sync parameter has an invalid format"
    else if !fieldIs url start delim (ascii "sync") then
      .error "Sync parameter has an invalid format"
    else
      let start := delim+1
      if colon ≤ start then .error "Sync parameter has an invalid format"
      else if fieldIs url start colon (ascii "true") then .ok (true,colon)
      else if fieldIs url start colon (ascii "false") then .ok (false,colon)
      else .error "Sync parameter has an invalid format"

def parseArg (url : Bytes) (start : ℕ) (params : AdapterParams) :
    Except String (AdapterParams × ℕ) :=
  let colon := nextDelimiter url start url.length kColon
  let delim := nextDelimiter url start colon kEquals
  if colon ≤ delim+1 then .error "Optional parameter has an invalid format"
  else
    let arg := slice url (delim+1) colon
    if fieldIs url start delim (ascii "latency") then
      match parseUInteger arg with
      | some v => .ok ({ params with linkLatency := v, linkLatencySet := true },colon)
      | none => .error "Failed to parse link latency value"
    else if fieldIs url start delim (ascii "sync_interval") then
      match parseUInteger arg with
      | some v => .ok ({ params with syncInterval := v, syncIntervalSet := true },colon)
      | none => .error "Failed to parse sync interval value"
    else .error "Invalid optional parameter"

variable {stop : ℕ}

lemma nextDelimiter_ge {url : Bytes} {start : ℕ} {c : UInt8} (h : start ≤ stop) :
    start ≤ nextDelimiter url start stop c := by
  unfold nextDelimiter
  cases hs : strchr url start c with
  | none => exact h
  | some =>
    dsimp only
    split_ifs
    · exact strchr_ge hs
    · exact h

/-- An argument ends behind its start, so the loop terminates. -/
lemma parseArg_progress {url : Bytes} {start colon : ℕ} {params next : AdapterParams}
    (hstart : start < url.length) (h : parseArg url start params = .ok (next,colon)) :
    start ≤ colon := by
  have hge : start ≤ nextDelimiter url start url.length kColon := nextDelimiter_ge hstart.le
  unfold parseArg at h
  dsimp only at h
  split_ifs at h
  · split at h
    · exact hge.trans_eq (Prod.mk.inj (Except.ok.inj h)).2
    · cases h
  · split at h
    · exact hge.trans_eq (Prod.mk.inj (Except.ok.inj h)).2
    · cases h

def parseArgs (url : Bytes) (start : ℕ) (params : AdapterParams) : Except String AdapterParams :=
  if _hstart : start < url.length then
    match h : parseArg url start params with
    | .error e => .error e
    | .ok (next,colon) => parseArgs url (colon+1) next
  else .ok params
termination_by url.length-start
decreasing_by
  have := parseArg_progress _hstart h
  omega

/-- `SimbricksParametersParse`; `raw` is what the two numbers hold before they
are set. -/
def parametersParse (raw : UInt64 × UInt64) (url : Bytes) : Except String AdapterParams := do
  let (listen,colon) ← parseType url
  let (socketPath,colon) ← parseSocketPath url colon
  let (shmPath,colon) ← if listen then do
      let (path,colon) ← parseShmPath url colon
      pure (some path,colon)
    else pure (none,colon)
  let (sync,colon) ← parseSync url colon
  parseArgs url (colon+1) ⟨listen,socketPath,shmPath,sync,false,raw.1,false,raw.2⟩

/-! ## Fields of a URL -/

section
variable {url field rest : Bytes} {start : ℕ} {c : UInt8}

lemma nextDelimiter_found (h : url.drop start = field++c::rest) (hc : c ∉ field)
    (hstop : start+field.length < stop) : nextDelimiter url start stop c = start+field.length := by
  rw [nextDelimiter, strchr_found h hc]
  exact if_pos hstop

lemma nextDelimiter_last (h : c ∉ url.drop start) : nextDelimiter url start stop c = stop := by
  rw [nextDelimiter, strchr_missing h]

lemma length_of_drop (h : url.drop start = field) (hne : field ≠ []) :
    url.length = start+field.length := by
  have hlen := congrArg length h
  rw [length_drop] at hlen
  have hpos : 0 < field.length := length_pos_iff.mpr hne
  omega

lemma fieldIs_field (h : url.drop start = field++rest) :
    fieldIs url start (start+field.length) field := by
  rw [fieldIs, hasAt_field h]
  simp

lemma fieldIs_length {literal : Bytes} (h : stop-start ≠ literal.length) :
    fieldIs url start stop literal = false := by
  simp [fieldIs, h]

lemma parsePath_field (missing empty : String) {colon : ℕ}
    (h : url.drop colon = kColon::(field++kColon::rest)) (hne : field ≠ []) (hc : kColon ∉ field) :
    parsePath missing empty url colon = .ok (field,colon+1+field.length) ∧ url.drop
    (colon+1+field.length) = kColon::rest := by
  have hfield : url.drop (colon+1) = field++kColon::rest := by
    rw [← drop_drop, h]
    rfl
  have hlen := length_of_drop hfield (by simp)
  have hpos : 0 < field.length := length_pos_iff.mpr hne
  simp only [length_append, length_cons] at hlen
  have hnext := nextDelimiter_found hfield hc (by omega : colon+1+field.length < url.length)
  constructor
  · rw [parsePath, if_neg (by omega)]
    simp only [hnext]
    rw [if_neg (by omega), slice_field hfield]
  · exact drop_field hfield

/-- A field `key=value`, the last one or with another one behind it. -/
structure KeyValue (url : Bytes) (start : ℕ) (key value tail : Bytes) : Prop where
  here : url.drop start = key++kEquals::(value++tail)
  keyEquals : kEquals ∉ key
  keyColon : kColon ∉ key
  valueColon : kColon ∉ value
  valueNonempty : value ≠ []
  tail : tail = [] ∨ ∃ rest, tail = kColon::rest

namespace KeyValue
variable {key value tail : Bytes} (h : KeyValue url start key value tail)
include h

lemma length : url.length = start+key.length+1+value.length+tail.length := by
  rw [length_of_drop h.here (by simp)]
  simp only [length_append, length_cons]
  omega

lemma colon : nextDelimiter url start url.length kColon = start+key.length+1+value.length := by
  have hlen := h.length
  have hfield : kColon ∉ key++kEquals::value := by
    simp only [mem_append, mem_cons, not_or]
    exact ⟨h.keyColon,by decide,h.valueColon⟩
  rcases h.tail with ht | ⟨rest,ht⟩
  · rw [nextDelimiter_last]
    · simpa [ht] using hlen
    · rw [h.here, ht, append_nil]
      exact hfield
  · have hd : url.drop start = (key++kEquals::value)++kColon::rest := by
      rw [h.here, ht]
      simp
    have hl : (key++kEquals::value).length = key.length+1+value.length := by
      simp only [length_append, length_cons]
      omega
    rw [ht, length_cons] at hlen
    rw [nextDelimiter_found hd hfield (by omega), hl]
    omega

lemma delim :
    nextDelimiter url start (start+key.length+1+value.length) kEquals = start+key.length :=
  nextDelimiter_found h.here h.keyEquals (by omega)

lemma keyIs : fieldIs url start (start+key.length) key := fieldIs_field h.here

lemma afterDelim : url.drop (start+key.length+1) = value++tail := by
  have hd : url.drop start = (key++[kEquals])++(value++tail) := by
    rw [h.here]
    simp
  have := drop_field hd
  simpa [add_assoc] using this

lemma afterValue : url.drop (start+key.length+1+value.length) = tail := drop_field h.afterDelim

lemma value_slice : slice url (start+key.length+1) (start+key.length+1+value.length) = value :=
  slice_field h.afterDelim

lemma valueIs : fieldIs url (start+key.length+1) (start+key.length+1+value.length) value :=
  fieldIs_field h.afterDelim

lemma follow {key' value' tail' : Bytes} (hkeys : tail = kColon::(key'++kEquals::(value'++tail')))
    (hk : kEquals ∉ key') (hk' : kColon ∉ key') (hv : kColon ∉ value') (hne : value' ≠ [])
    (ht : tail' = [] ∨ ∃ rest, tail' = kColon::rest) :
    KeyValue url (start+key.length+1+value.length+1) key' value' tail' := by
  refine ⟨?_,hk,hk',hv,hne,ht⟩
  rw [← drop_drop, h.afterValue, hkeys]
  rfl

lemma value_pos : 0 < value.length := length_pos_iff.mpr h.valueNonempty

end KeyValue

lemma parseSync_field {colon : ℕ} {sync : Bool} {tail : Bytes}
    (h : KeyValue url (colon+1) (ascii "sync") (ascii (if sync then "true" else "false")) tail) :
    parseSync url colon = .ok (sync,colon+1+(ascii "sync").length+1+
        (ascii (if sync then "true" else "false")).length) := by
  have hlen := h.length
  have hpos := h.value_pos
  have hval := h.valueIs
  rw [parseSync, if_neg (by omega)]
  simp only [h.colon, h.delim, h.keyIs]
  rw [if_neg (by omega), if_neg (by simp), if_neg (by omega)]
  cases sync with
  | true => exact if_pos hval
  | false =>
    have hother : fieldIs url (colon+1+(ascii "sync").length+1)
        (colon+1+(ascii "sync").length+1+(ascii "false").length) (ascii "true") =
        false := fieldIs_length (by
      rw [show (ascii "true").length = 4 from rfl, show (ascii "false").length = 5 from rfl]
      omega)
    exact (if_neg (by simp [hother])).trans (if_pos hval)

lemma parseType_field (listen : Bool)
    (h : url = ascii (if listen then "listen" else "connect")++kColon::rest) :
    parseType url = .ok (listen,(ascii (if listen then "listen" else "connect")).length) := by
  have hd : url.drop 0 = ascii (if listen then "listen" else "connect")++kColon::rest := h
  have hcolon : kColon ∉ ascii (if listen then "listen" else "connect") := by
    cases listen <;> decide
  have hlen := length_of_drop hd (by simp)
  rw [length_append, length_cons] at hlen
  have hnext : nextDelimiter url 0 url.length kColon = _ :=
    nextDelimiter_found hd hcolon (by omega)
  have hfield := fieldIs_field hd
  unfold parseType
  simp only [hnext]
  rw [zero_add] at hfield ⊢
  cases listen with
  | true =>
    have hother : fieldIs url 0 (ascii "listen").length (ascii "connect") = false :=
      fieldIs_length (by decide)
    exact (if_neg (by simp [hother])).trans (if_pos hfield)
  | false => exact if_pos hfield

/-! ## Optional arguments -/

lemma parseUInteger_decimal {n : ℕ} (h : n < 2^64) :
    parseUInteger (decimal n) = some (ofNat n) := by
  rw [parseUInteger, strtoul_decimal h]
  simp

lemma decimal_colon (n : ℕ) : kColon ∉ decimal n := by
  intro h
  exact absurd (decimal_isDigit h) (by decide)

section
variable {tail : Bytes} {n : ℕ} (params : AdapterParams) (hn : n < 2^64)
include hn

lemma parseArg_latency (h : KeyValue url start (ascii "latency") (decimal n) tail) :
    parseArg url start params = .ok ({ params with linkLatency := ofNat n, linkLatencySet := true },
        start+(ascii "latency").length+1+(decimal n).length) := by
  have hpos := h.value_pos
  unfold parseArg
  simp only [h.colon, h.delim, h.keyIs, h.value_slice, parseUInteger_decimal hn, if_true]
  rw [if_neg (by omega)]

lemma parseArg_syncInterval (h : KeyValue url start (ascii "sync_interval") (decimal n) tail) :
    parseArg url start params =
      .ok ({ params with syncInterval := ofNat n, syncIntervalSet := true },
        start+(ascii "sync_interval").length+1+(decimal n).length) := by
  have hpos := h.value_pos
  have hother : fieldIs url start (start+(ascii "sync_interval").length) (ascii "latency") =
      false := fieldIs_length (by
    rw [show (ascii "sync_interval").length = 13 from rfl,
      show (ascii "latency").length = 7 from rfl]
    omega)
  unfold parseArg
  simp only [h.colon, h.delim, h.keyIs, h.value_slice, parseUInteger_decimal hn, if_true, hother]
  rw [if_neg (by omega), if_neg (by simp)]

end

lemma parseArgs_step {colon : ℕ} {params next : AdapterParams} (hstart : start < url.length)
    (h : parseArg url start params = .ok (next,colon)) :
    parseArgs url start params = parseArgs url (colon+1) next := by
  rw [parseArgs, dif_pos hstart]
  split
  · rename_i e he
    rw [h] at he
    cases he
  · rename_i q c he
    rw [h] at he
    cases he
    rfl

lemma parseArgs_done {params : AdapterParams} (h : url.length ≤ start) :
    parseArgs url start params = .ok params := by
  rw [parseArgs, dif_neg (by omega)]

def fieldsText (sync : Bool) (latency interval : ℕ) : Bytes :=
  kColon::(ascii "sync"++kEquals::(ascii (if sync then "true" else "false")++
    kColon::(ascii "latency"++kEquals::(decimal latency++
      kColon::(ascii "sync_interval"++kEquals::decimal interval)))))

/-- The fields behind the address are read back, wherever they stand. -/
lemma parse_fields {colon latency interval : ℕ} {sync : Bool} (hl : latency < 2^64)
    (hi : interval < 2^64) (h : url.drop colon = fieldsText sync latency interval) :
    ∃ next, parseSync url colon = .ok (sync,next) ∧ ∀ params, parseArgs url (next+1) params =
      .ok { params with
        linkLatency := ofNat latency, linkLatencySet := true,
        syncInterval := ofNat interval, syncIntervalSet := true } := by
  have hsync : KeyValue url (colon+1) (ascii "sync") (ascii (if sync then "true" else "false"))
      (kColon::(ascii "latency"++kEquals::(decimal latency++
        kColon::(ascii "sync_interval"++kEquals::decimal interval)))) := by
    refine ⟨?_,by decide,by decide,by cases sync <;> decide,by cases sync <;> decide, .inr ⟨_,rfl⟩⟩
    rw [← drop_drop, h]
    rfl
  refine ⟨_,parseSync_field hsync,fun params => ?_⟩
  have hlatency := hsync.follow rfl (by decide) (by decide) (decimal_colon _) (decimal_ne_nil _)
    (.inr ⟨_,rfl⟩)
  have hinterval := hlatency.follow (by rw [append_nil]) (by decide) (by decide)
    (decimal_colon _) (decimal_ne_nil _) (.inl rfl)
  have hlen := hlatency.length
  have hlen' := hinterval.length
  rw [length_cons] at hlen
  rw [parseArgs_step (by omega) (parseArg_latency params hl hlatency),
    parseArgs_step (by omega) (parseArg_syncInterval _ hi hinterval), parseArgs_done]
  rw [hlen', length_nil]
  omega

/-! ## Whole URLs -/

section
variable (raw : UInt64 × UInt64) {path shm : Bytes} {sync : Bool} {latency interval : ℕ}
  (hpath : path ≠ []) (hcolon : kColon ∉ path) (hl : latency < 2^64) (hi : interval < 2^64)
include hpath hcolon

lemma parse_head (listen : Bool)
    (h : url = ascii (if listen then "listen" else "connect")++kColon::(path++kColon::rest)) :
    ∃ n, parseType url = .ok (listen,n) ∧ parseSocketPath url n = .ok (path,n+1+path.length) ∧
    url.drop (n+1+path.length) = kColon::rest := by
  refine ⟨_,parseType_field listen h,parsePath_field _ _ ?_ hpath hcolon⟩
  rw [h, drop_left]

include hl hi

lemma parametersParse_connect
    (h : url = ascii "connect"++kColon::(path++fieldsText sync latency interval)) :
    parametersParse raw url = .ok
      ⟨false,path,none,sync,true,UInt64.ofNat latency,true,UInt64.ofNat interval⟩ := by
  obtain ⟨_,htype,hsocket,hfields⟩ := parse_head hpath hcolon false h
  obtain ⟨_,hsync,hargs⟩ := parse_fields hl hi hfields
  simp only [parametersParse, htype, hsocket, hsync, hargs, bind, Except.bind, pure, Except.pure,
    Bool.false_eq_true, if_false]

lemma parametersParse_listen (hshm : shm ≠ []) (hcolon' : kColon ∉ shm)
    (h : url = ascii "listen"++kColon::(path++kColon::(shm++fieldsText sync latency interval))) :
    parametersParse raw url = .ok
      ⟨true,path,some shm,sync,true,UInt64.ofNat latency,true,UInt64.ofNat interval⟩ := by
  obtain ⟨_,htype,hsocket,hrest⟩ := parse_head hpath hcolon true h
  obtain ⟨hpool,hfields⟩ := parsePath_field "Shared memory path is missing"
    "Shared memory path cannot be empty" hrest hshm hcolon'
  obtain ⟨_,hsync,hargs⟩ := parse_fields hl hi hfields
  simp only [parametersParse, parseShmPath, htype, hsocket, hpool, hsync, hargs, bind, Except.bind,
    pure, Except.pure, if_true]

end

end

end SimBricks.Parser
