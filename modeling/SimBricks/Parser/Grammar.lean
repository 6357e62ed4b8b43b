import SimBricks.Library.Run
import SimBricks.Parser.Parameters

/-!
# The grammar of the URLs

What the comment above `SimbricksParametersParse` says of a URL, as values
that have a text, and what the parser takes for one. Both write the optional
fields one by one with a colon before each; they differ in what may stand
behind the equals sign and at the end.
-/

set_option autoImplicit false

namespace SimBricks.Parser
open Library.Run Library.Text List

/-! ## The grammar -/

abbrev Path := { path : Bytes // path ≠ [] ∧ kColon ∉ path }

/-- Decimal digits of a number that a `uint64_t` holds. -/
abbrev Number := { ds : Bytes // ds ≠ [] ∧ (∀ c ∈ ds, isDigit c) ∧ valueOf ds < 2^64 }

def Number.value (n : Number) : UInt64 := UInt64.ofNat (valueOf n.val)

inductive Address where
  | connect (socket : Path)
  | listen (socket shm : Path)

inductive Key where
  | latency | syncInterval
  deriving DecidableEq, Repr

def Key.name : Key → Bytes
  | .latency => ascii "latency"
  | .syncInterval => ascii "sync_interval"

def Key.field (key : Key) (value : Bytes) : Bytes := key.name++kEquals::value

def Address.text : Address → Bytes
  | .connect socket => ascii "connect"++kColon::socket.val
  | .listen socket shm => ascii "listen"++kColon::(socket.val++kColon::shm.val)

def syncValue (sync : Bool) : Bytes := ascii (if sync then "true" else "false")

def syncText (sync : Bool) : Bytes := ascii "sync"++kEquals::syncValue sync

/-- An address, whether it is synchronised, and further fields. -/
def textOf (address : Address) (sync : Bool) (fields : List Bytes) : Bytes :=
  address.text++kColon::(syncText sync++fields.flatMap (kColon::·))

structure Url where
  address : Address
  sync : Bool
  args : List (Key × Number)

namespace Url

def text (url : Url) : Bytes :=
  textOf url.address url.sync (url.args.map fun a => a.1.field a.2.val)

/-- The number of the last field with this key. -/
def last (key : Key) (args : List (Key × Number)) : Option UInt64 :=
  (args.reverse.find? fun a => a.1 = key).map fun a => a.2.value

/-- What a URL stands for; a number that it does not set stays as it was. -/
def params (raw : UInt64 × UInt64) (url : Url) : AdapterParams where
  listen := match url.address with
    | .connect _ => false
    | .listen _ _ => true
  socketPath := match url.address with
    | .connect socket => socket.val
    | .listen socket _ => socket.val
  shmPath := match url.address with
    | .connect _ => none
    | .listen _ shm => some shm.val
  sync := url.sync
  linkLatencySet := (last .latency url.args).isSome
  linkLatency := (last .latency url.args).getD raw.1
  syncIntervalSet := (last .syncInterval url.args).isSome
  syncInterval := (last .syncInterval url.args).getD raw.2

end Url

/-! ## Where a field ends -/

variable {value : Bytes}

section
variable {url field tail : Bytes} {start : ℕ} {c : UInt8}

/-- What stands where a field ends: nothing, or a colon and the next field. -/
def FieldEnd (tail : Bytes) : Prop := tail = [] ∨ ∃ rest, tail = kColon::rest

lemma FieldEnd.cons {colon : ℕ} (ht : FieldEnd tail) (hd : url.drop colon = tail)
    (hne : url.drop (colon+1) ≠ []) : tail = kColon::url.drop (colon+1) := by
  rw [← drop_drop, hd] at hne ⊢
  rcases ht with rfl | ⟨_,rfl⟩
  · exact absurd rfl hne
  · rfl

lemma nextDelimiter_beyond (h : url.drop start = field++tail) (hc : c ∉ field) :
    nextDelimiter url start (start+field.length) c = start+field.length := by
  by_cases ht : c ∈ tail
  · obtain ⟨more,rest,rfl,hm⟩ := eq_append_cons_of_mem ht
    have hd : url.drop start = (field++more)++c::rest := by
      rw [h, append_assoc]
    have hfield : c ∉ field++more := by simp [hc, hm]
    rw [nextDelimiter, strchr_found hd hfield, length_append]
    exact if_neg (by omega)
  · apply nextDelimiter_last
    rw [h]
    simp [hc, ht]

lemma colon_cases (hstart : start ≤ url.length) :
    ∃ field tail, url.drop start = field++tail ∧ kColon ∉ field ∧ FieldEnd tail ∧
    nextDelimiter url start url.length kColon = start+field.length := by
  by_cases hc : kColon ∈ url.drop start
  · obtain ⟨field,rest,hd,hfield⟩ := eq_append_cons_of_mem hc
    have hlen := length_of_drop hd (by simp)
    rw [length_append, length_cons] at hlen
    exact ⟨field,_,hd,hfield,.inr ⟨rest,rfl⟩,nextDelimiter_found hd hfield (by omega)⟩
  · refine ⟨url.drop start,[],by simp,hc,.inl rfl,?_⟩
    rw [nextDelimiter_last hc, length_drop]
    omega

lemma equals_cases (h : url.drop start = field++tail) :
    nextDelimiter url start (start+field.length) kEquals = start+field.length ∨ ∃ key value,
    field = key++kEquals::value ∧ kEquals ∉ key ∧
    nextDelimiter url start (start+field.length) kEquals = start+key.length := by
  by_cases hc : kEquals ∈ field
  · obtain ⟨key,value,rfl,hkey⟩ := eq_append_cons_of_mem hc
    refine .inr ⟨key,value,rfl,hkey,?_⟩
    have hd : url.drop start = key++kEquals::(value++tail) := by
      rw [h, append_assoc, cons_append]
    apply nextDelimiter_found hd hkey
    rw [length_append, length_cons]
    omega
  · exact .inl (nextDelimiter_beyond h hc)

lemma eq_of_fieldIs {literal : Bytes} (h : url.drop start = field++tail)
    (hf : fieldIs url start (start+field.length) literal) : field = literal := by
  simp only [fieldIs, hasAt, h, Bool.and_eq_true, decide_eq_true_eq] at hf
  obtain ⟨hlen,htake⟩ := hf
  rw [Nat.add_sub_cancel_left] at hlen
  rw [← htake, ← hlen, take_left']
  rfl

/-- A field that the parser splits at an equals sign with something behind it. -/
lemma keyValue_of_split {key : Bytes} (h : url.drop start = (key++kEquals::value)++tail)
    (hkey : kEquals ∉ key) (hcolon : kColon ∉ key++kEquals::value) (htail : FieldEnd tail)
    (hne : value ≠ []) : KeyValue url start key value tail := by
  simp only [mem_append, mem_cons, not_or] at hcolon
  refine ⟨?_,hkey,hcolon.1,hcolon.2.2,hne,htail⟩
  rw [h, append_assoc, cons_append]

lemma keyValue_cases (hstart : start ≤ url.length)
    (h : nextDelimiter url start (nextDelimiter url start url.length kColon) kEquals+1 <
      nextDelimiter url start url.length kColon) :
    ∃ key value tail, KeyValue url start key value tail := by
  obtain ⟨_,tail,hd,hcolon,htail,hnext⟩ := colon_cases hstart
  rw [hnext] at h
  rcases equals_cases hd with hnone | ⟨key,value,rfl,hkey,hdelim⟩
  · omega
  · refine ⟨key,value,tail,keyValue_of_split hd hkey hcolon htail ?_⟩
    rintro rfl
    rw [hdelim, length_append, length_cons, length_nil] at h
    omega

end

/-! ## What is accepted, field by field -/

section
variable {url : Bytes} {colon next : ℕ}

lemma parseType_inv {listen : Bool} (h : parseType url = .ok (listen,colon)) :
    ∃ tail, url = ascii (if listen then "listen" else "connect")++tail ∧ FieldEnd tail ∧
      colon = (ascii (if listen then "listen" else "connect")).length := by
  obtain ⟨_,tail,hd,-,htail,hnext⟩ := colon_cases (Nat.zero_le url.length)
  rw [parseType, hnext] at h
  split_ifs at h with hconnect hlisten
  · cases h
    cases eq_of_fieldIs hd hconnect
    exact ⟨tail,hd,htail,zero_add _⟩
  · cases h
    cases eq_of_fieldIs hd hlisten
    exact ⟨tail,hd,htail,zero_add _⟩

lemma parsePath_inv {missing empty : String} {path : Bytes}
    (h : parsePath missing empty url colon = .ok (path,next)) :
    ∃ tail, url.drop (colon+1) = path++tail ∧ path ≠ [] ∧ kColon ∉ path ∧ FieldEnd tail ∧
    next = colon+1+path.length ∧ colon+1 < url.length := by
  unfold parsePath at h
  dsimp only at h
  split_ifs at h with hlen hempty
  cases h
  have hlen : colon+1 < url.length := by omega
  obtain ⟨_,tail,hd,hcolon,htail,hnext⟩ := colon_cases hlen.le
  rw [hnext] at hempty ⊢
  rw [slice_field hd]
  exact ⟨tail,hd,by rintro rfl; simp at hempty,hcolon,htail,rfl,hlen⟩

lemma parseSync_inv {sync : Bool} (h : parseSync url colon = .ok (sync,next)) :
    ∃ tail, KeyValue url (colon+1) (ascii "sync") (syncValue sync) tail ∧
      next = colon+1+(syncText sync).length := by
  unfold parseSync at h
  dsimp only at h
  split_ifs at h with hlen hdelim hkey hpos htrue hfalse
  all_goals
    cases h
    have hstart : colon+1 ≤ url.length := by omega
    obtain ⟨_,_,tail,hkv⟩ := keyValue_cases hstart (by omega)
    rw [hkv.colon, hkv.delim, Bool.not_eq_true', Bool.not_eq_false] at hkey
    cases eq_of_fieldIs hkv.here hkey
  · rw [hkv.colon, hkv.delim] at htrue
    cases eq_of_fieldIs hkv.afterDelim htrue
    exact ⟨tail,hkv,hkv.colon⟩
  · rw [hkv.colon, hkv.delim] at hfalse
    cases eq_of_fieldIs hkv.afterDelim hfalse
    exact ⟨tail,hkv,hkv.colon⟩

def Key.set : Key → AdapterParams → UInt64 → AdapterParams
  | .latency, params, v => { params with linkLatency := v, linkLatencySet := true }
  | .syncInterval, params, v => { params with syncInterval := v, syncIntervalSet := true }

variable {params p : AdapterParams}

lemma parseArg_inv {start : ℕ} {after : AdapterParams} (hstart : start < url.length)
    (h : parseArg url start params = .ok (after,next)) :
    ∃ (key : Key) (value : Bytes) (v : UInt64) (tail : Bytes),
    KeyValue url start key.name value tail ∧ parseUInteger value = some v ∧
    after = key.set params v ∧ next = start+(key.field value).length := by
  unfold parseArg at h
  dsimp only at h
  split_ifs at h with hpos hlatency hinterval
  · obtain ⟨key,value,tail,hkv⟩ := keyValue_cases hstart.le (by omega)
    simp only [hkv.colon, hkv.delim, hkv.value_slice] at h hlatency
    cases eq_of_fieldIs hkv.here hlatency
    split at h
    · rename_i v hv
      cases h
      refine ⟨.latency,value,v,tail,hkv,hv,rfl,?_⟩
      rw [Key.field, length_append, length_cons, Key.name]
      omega
    · cases h
  · obtain ⟨key,value,tail,hkv⟩ := keyValue_cases hstart.le (by omega)
    simp only [hkv.colon, hkv.delim, hkv.value_slice] at h hinterval
    cases eq_of_fieldIs hkv.here hinterval
    split at h
    · rename_i v hv
      cases h
      refine ⟨.syncInterval,value,v,tail,hkv,hv,rfl,?_⟩
      rw [Key.field, length_append, length_cons, Key.name]
      omega
    · cases h

def store (params : AdapterParams) (arg : Key × Bytes) : AdapterParams :=
  match parseUInteger arg.2 with
  | some v => arg.1.set params v
  | none => params

/-- The optional fields of an accepted URL: arguments that `strtoul` reads to
their end, and an empty field behind a last colon. -/
structure Accepted (args : List (Key × Bytes)) (extra : List Bytes) : Prop where
  colon : ∀ a ∈ args, kColon ∉ a.2
  number : ∀ a ∈ args, (parseUInteger a.2).isSome
  extra : extra = [] ∨ extra = [[]]

def fieldsOf (args : List (Key × Bytes)) (extra : List Bytes) : List Bytes :=
  args.map (fun a => a.1.field a.2)++extra

lemma parseArgs_inv {tail : Bytes} (hd : url.drop colon = tail) (ht : FieldEnd tail)
    (h : parseArgs url (colon+1) params = .ok p) :
    ∃ args extra, tail = (fieldsOf args extra).flatMap (kColon::·) ∧ Accepted args extra ∧
    p = args.foldl store params := by
  induction hn : url.length-colon using Nat.strong_induction_on generalizing colon tail params with
  | h n ih =>
    by_cases hlt : colon+1 < url.length
    · rw [parseArgs, dif_pos hlt] at h
      split at h
      · cases h
      · rename_i after next hstep
        obtain ⟨key,value,v,_,hkv,hv,rfl,rfl⟩ := parseArg_inv hlt hstep
        have hnext : colon+1+(key.field value).length = colon+1+key.name.length+1+value.length := by
          rw [Key.field, length_append, length_cons]
          omega
        rw [hnext] at h
        obtain ⟨args,extra,rfl,hacc,rfl⟩ := ih _ (by omega) hkv.afterValue hkv.tail h rfl
        refine ⟨(key,value)::args,extra,?_,?_,?_⟩
        · rw [ht.cons hd (by simp [hkv.here]), hkv.here]
          simp [fieldsOf, Key.field]
        · refine ⟨?_,?_,hacc.extra⟩
          · intro a ha
            rcases mem_cons.mp ha with rfl | ha
            · exact hkv.valueColon
            · exact hacc.colon a ha
          · intro a ha
            rcases mem_cons.mp ha with rfl | ha
            · exact Option.isSome_of_eq_some hv
            · exact hacc.number a ha
        · rw [foldl_cons, store, hv]
    · rw [parseArgs_done (by omega)] at h
      cases h
      have hlen := congrArg length hd
      rw [length_drop] at hlen
      rcases ht with rfl | ⟨rest,rfl⟩
      · exact ⟨[],[],rfl,⟨by simp,by simp,.inl rfl⟩,rfl⟩
      · rw [length_cons] at hlen
        cases length_eq_zero_iff.mp (by omega : rest.length = 0)
        exact ⟨[],[[]],rfl,⟨by simp,by simp,.inr rfl⟩,rfl⟩

def Address.initial (raw : UInt64 × UInt64) (sync : Bool) : Address → AdapterParams
  | .connect socket => ⟨false,socket.val,none,sync,false,raw.1,false,raw.2⟩
  | .listen socket shm => ⟨true,socket.val,some shm.val,sync,false,raw.1,false,raw.2⟩

lemma parse_fields_inv {tail : Bytes} {sync : Bool} (hd : url.drop colon = tail)
    (ht : FieldEnd tail) (hs : parseSync url colon = .ok (sync,next))
    (h : parseArgs url (next+1) params = .ok p) :
    ∃ args extra, tail = kColon::(syncText sync++(fieldsOf args extra).flatMap (kColon::·)) ∧
    Accepted args extra ∧ p = args.foldl store params := by
  obtain ⟨_,hkv,rfl⟩ := parseSync_inv hs
  have hnext : colon+1+(syncText sync).length =
      colon+1+(ascii "sync").length+1+(syncValue sync).length := by
    rw [syncText, length_append, length_cons]
    omega
  rw [hnext] at h
  obtain ⟨args,extra,rfl,hacc,rfl⟩ := parseArgs_inv hkv.afterValue hkv.tail h
  refine ⟨args,extra,?_,hacc,rfl⟩
  rw [ht.cons hd (by simp [hkv.here]), hkv.here, syncText, append_assoc, cons_append]

/-- Every URL that the parser takes, with what it returns. -/
lemma parametersParse_inv {raw : UInt64 × UInt64} (h : parametersParse raw url = .ok p) :
    ∃ address sync args extra, url = textOf address sync (fieldsOf args extra) ∧
    Accepted args extra ∧ p = args.foldl store (address.initial raw sync) := by
  obtain ⟨⟨listen,colon⟩,hty,h⟩ := bind_eq_ok.mp h
  obtain ⟨⟨socket,_⟩,hsocket,h⟩ := bind_eq_ok.mp h
  obtain ⟨tail,hurl,htail,rfl⟩ := parseType_inv hty
  obtain ⟨_,hd',hne',hcolon',htail',rfl,_⟩ := parsePath_inv hsocket
  have hd : url.drop (ascii (if listen then "listen" else "connect")).length = tail := by
    rw [hurl, drop_left]
  have hcons := htail.cons hd (by simp [hd', hne'])
  rw [hd'] at hcons
  have hend' := drop_field hd'
  cases listen with
  | false =>
    obtain ⟨-,⟨⟩,h⟩ := bind_eq_ok.mp h
    obtain ⟨⟨sync,next⟩,hsync,hargs⟩ := bind_eq_ok.mp h
    obtain ⟨args,extra,rfl,hacc,rfl⟩ := parse_fields_inv hend' htail' hsync hargs
    refine ⟨.connect ⟨socket,hne',hcolon'⟩,sync,args,extra,?_,hacc,rfl⟩
    rw [hurl, hcons]
    simp [textOf, Address.text]
  | true =>
    obtain ⟨⟨path,colon⟩,hpath,h⟩ := bind_eq_ok.mp h
    obtain ⟨-,⟨⟩,h⟩ := bind_eq_ok.mp h
    obtain ⟨⟨sync,next⟩,hsync,hargs⟩ := bind_eq_ok.mp h
    obtain ⟨_,hd'',hne'',hcolon'',htail'',rfl,_⟩ := parsePath_inv hpath
    have hcons' := htail'.cons hend' (by rw [hd'']; simp [hne''])
    rw [hd''] at hcons'
    obtain ⟨args,extra,rfl,hacc,rfl⟩ := parse_fields_inv (drop_field hd'') htail'' hsync hargs
    refine ⟨.listen ⟨socket,hne',hcolon'⟩ ⟨path,hne'',hcolon''⟩,sync,args,extra,?_,hacc,rfl⟩
    rw [hurl, hcons, hcons']
    simp [textOf, Address.text]

end

/-! ## Numbers -/

lemma parseUInteger_number (n : Number) : parseUInteger n.val = some n.value := by
  obtain ⟨ds,hne,hall,hlt⟩ := n
  cases ds with
  | nil => exact absurd rfl hne
  | cons c cs =>
    show parseUInteger (c::cs) = some (UInt64.ofNat (valueOf (c::cs)))
    rw [parseUInteger, strtoul_digit (hall c mem_cons_self),
      takeWhile_eq_self_iff.mpr hall, if_neg (not_le.mpr hlt), drop_length]
    simp

def startsWithDigit (value : Bytes) : Bool := value.head?.any isDigit

/-- With a digit in front, `ParseUInteger` takes decimal digits only. -/
lemma number_of_parse (h : (parseUInteger value).isSome) (hd : startsWithDigit value) :
    ∃ n : Number, n.val = value := by
  cases value with
  | nil => cases hd
  | cons c cs =>
    have htaken : (c::cs).takeWhile isDigit <+: c::cs := takeWhile_prefix isDigit
    rw [parseUInteger, strtoul_digit hd] at h
    by_cases hrange : 2^64 ≤ valueOf ((c::cs).takeWhile isDigit)
    · rw [if_pos hrange] at h
      simp at h
    · by_cases hrest : (c::cs).drop ((c::cs).takeWhile isDigit).length = []
      · have hall := htaken.eq_of_length_le (drop_eq_nil_iff.mp hrest)
        rw [hall] at hrange
        exact ⟨⟨c::cs,by simp,takeWhile_eq_self_iff.mp hall,by omega⟩,rfl⟩
      · rw [if_neg hrange] at h
        simp only [hrest, ne_eq, not_false_eq_true, or_true, if_true, Option.isSome_none] at h
        cases h

lemma foldl_store (raw : UInt64 × UInt64) (url : Url) :
    (url.args.map fun a => (a.1,a.2.val)).foldl store (url.address.initial raw url.sync) =
    url.params raw := by
  obtain ⟨address,_,args⟩ := url
  dsimp only
  induction args using reverseRecOn with
  | nil => cases address <;> rfl
  | append_singleton args a ih =>
    obtain ⟨key,n⟩ := a
    rw [map_append, foldl_append, ih]
    cases key <;>
      simp [store, parseUInteger_number, Key.set, Url.params, Url.last]

/-! ## The optional fields of a text -/

def optionalFields (url : Bytes) : List Bytes :=
  let fields := url.splitOn kColon
  fields.drop (if fields.head? = some (ascii "listen") then 4 else 3)

def valueText (field : Bytes) : Bytes := (field.dropWhile (· ≠ kEquals)).drop 1

/-- In every optional field a digit stands directly behind the equals sign. -/
def Plain (url : Bytes) : Prop := ∀ field ∈ optionalFields url, startsWithDigit (valueText field)
  deriving Decidable

lemma valueText_field (key : Key) (value : Bytes) : valueText (key.field value) = value := by
  cases key <;> rfl

lemma optionalFields_textOf (address : Address) (sync : Bool) {fields : List Bytes}
    (h : ∀ field ∈ fields, kColon ∉ field) :
    optionalFields (textOf address sync fields) = fields := by
  have hsync : kColon ∉ syncText sync := by cases sync <;> decide
  -- the address is two fields or three, each without a colon
  have hsplit : ∀ (first : Bytes) (more : List Bytes), (∀ s ∈ first::more, kColon ∉ s) →
      (first++more.flatMap (kColon::·)).splitOn kColon = first::more := by
    intro first more hfree
    rw [splitOn_eq_splitOnP]
    apply splitOnP_delimited (by simp)
    intro s hs x hx
    exact beq_eq_false_iff_ne.mpr fun he => hfree s hs (he ▸ hx)
  cases address with
  | connect socket =>
    have hs := hsplit (ascii "connect") (socket.val::syncText sync::fields) (by
      simp only [forall_mem_cons]
      exact ⟨by decide,socket.property.2,hsync,h⟩)
    have htext : textOf (.connect socket) sync fields =
        ascii "connect"++(socket.val::syncText sync::fields).flatMap (kColon::·) := by
      simp [textOf, Address.text]
    rw [optionalFields, htext, hs]
    rfl
  | listen socket shm =>
    have hs := hsplit (ascii "listen") (socket.val::shm.val::syncText sync::fields) (by
      simp only [forall_mem_cons]
      exact ⟨by decide,socket.property.2,shm.property.2,hsync,h⟩)
    have htext : textOf (.listen socket shm) sync fields =
        ascii "listen"++(socket.val::shm.val::syncText sync::fields).flatMap (kColon::·) := by
      simp [textOf, Address.text]
    rw [optionalFields, htext, hs]
    rfl

lemma field_colon (key : Key) (h : kColon ∉ value) : kColon ∉ key.field value := by
  have hname : kColon ∉ key.name := by cases key <;> decide
  have hequals : kColon ≠ kEquals := by decide
  simp [Key.field, hname, h, hequals]

lemma Number.colon (n : Number) : kColon ∉ n.val := by
  intro hc
  exact absurd (n.property.2.1 _ hc) (by decide)

lemma Number.startsWithDigit (n : Number) : Parser.startsWithDigit n.val := by
  obtain ⟨ds,hne,hall,-⟩ := n
  cases ds with
  | nil => exact absurd rfl hne
  | cons c => exact hall c mem_cons_self

lemma Url.plain (url : Url) : Plain url.text := by
  intro field hf
  rw [Url.text, optionalFields_textOf] at hf
  · obtain ⟨a,-,rfl⟩ := mem_map.mp hf
    rw [valueText_field]
    exact a.2.startsWithDigit
  · intro field hf
    obtain ⟨a,-,rfl⟩ := mem_map.mp hf
    exact field_colon a.1 a.2.colon

/-- Arguments with a digit in front are arguments of the grammar. -/
lemma exists_numbers {args : List (Key × Bytes)}
    (h : ∀ a ∈ args, (parseUInteger a.2).isSome ∧ startsWithDigit a.2) :
    ∃ numbers : List (Key × Number), numbers.map (fun a => (a.1,a.2.val)) = args := by
  induction args with
  | nil => exact ⟨[],rfl⟩
  | cons a args ih =>
    obtain ⟨numbers,hn⟩ := ih fun x hx => h x (mem_cons_of_mem a hx)
    obtain ⟨hparse,hdigit⟩ := h a mem_cons_self
    obtain ⟨n,hv⟩ := number_of_parse hparse hdigit
    exact ⟨(a.1,n)::numbers,by rw [map_cons, hn, hv]⟩

/-- An accepted URL is one of the grammar, and what is returned is what it
stands for, exactly when a digit stands behind each equals sign of its optional
fields. -/
theorem accepted_in_grammar_iff {raw : UInt64 × UInt64} {url : Bytes} {p : AdapterParams}
    (h : parametersParse raw url = .ok p) :
    (∃ u : Url, u.text = url ∧ u.params raw = p) ↔ Plain url := by
  constructor
  · rintro ⟨u,rfl,-⟩
    exact u.plain
  · intro hplain
    obtain ⟨address,sync,args,extra,rfl,hacc,rfl⟩ := parametersParse_inv h
    have hfree : ∀ field ∈ fieldsOf args extra, kColon ∉ field := by
      intro field hf
      rcases mem_append.mp hf with hf | hf
      · obtain ⟨a,ha,rfl⟩ := mem_map.mp hf
        exact field_colon a.1 (hacc.colon a ha)
      · rcases hacc.extra with rfl | rfl
        · cases hf
        · rw [mem_singleton.mp hf]
          simp
    rw [Plain, optionalFields_textOf address sync hfree] at hplain
    have hextra : extra = [] := by
      apply hacc.extra.resolve_right
      rintro rfl
      exact absurd (hplain [] (by simp [fieldsOf])) (by decide)
    subst hextra
    obtain ⟨numbers,rfl⟩ := exists_numbers fun a ha => ⟨hacc.number a ha,by
      have := hplain (a.1.field a.2) (by
        rw [fieldsOf, append_nil]
        exact mem_map_of_mem ha)
      rwa [valueText_field] at this⟩
    refine ⟨⟨address,sync,numbers⟩,?_,(foldl_store raw ⟨address,sync,numbers⟩).symm⟩
    rw [Url.text, fieldsOf, append_nil, map_map]
    rfl

/-- A sign, blanks and a last colon are accepted: none of these is in the grammar. -/
theorem accepted_outside_grammar :
    (parametersParse (0,0) (ascii "connect:/p:sync=true:latency=-1") = .ok
        ⟨false,ascii "/p",none,true,true,18446744073709551615,false,0⟩ ∧
      ¬ ∃ u : Url, u.text = ascii "connect:/p:sync=true:latency=-1") ∧
    (parametersParse (0,0) (ascii "connect:/p:sync=true:sync_interval= +5") = .ok
        ⟨false,ascii "/p",none,true,false,0,true,5⟩ ∧
      ¬ ∃ u : Url, u.text = ascii "connect:/p:sync=true:sync_interval= +5") ∧
    (parametersParse (0,0) (ascii "connect:/p:sync=true:") = .ok
        ⟨false,ascii "/p",none,true,false,0,false,0⟩ ∧
      ¬ ∃ u : Url, u.text = ascii "connect:/p:sync=true:") := by
  have houtside : ∀ url : Bytes, ¬ Plain url → ¬ ∃ u : Url, u.text = url := by
    rintro url hplain ⟨u,rfl⟩
    exact hplain u.plain
  refine ⟨⟨?_,houtside _ (by decide)⟩,⟨?_,houtside _ (by decide)⟩,?_,houtside _ (by decide)⟩
  · show parseArgs (ascii "connect:/p:sync=true:latency=-1") 21
        ⟨false,ascii "/p",none,true,false,0,false,0⟩ = _
    rw [parseArgs_step (by decide) rfl, parseArgs_done (by decide)]
    rfl
  · show parseArgs (ascii "connect:/p:sync=true:sync_interval= +5") 21
        ⟨false,ascii "/p",none,true,false,0,false,0⟩ = _
    rw [parseArgs_step (by decide) rfl, parseArgs_done (by decide)]
    rfl
  · show parseArgs (ascii "connect:/p:sync=true:") 21
        ⟨false,ascii "/p",none,true,false,0,false,0⟩ = _
    rw [parseArgs_done (by decide)]

/-- The theorem on a URL with one number. -/
theorem accepted_in_grammar_latency : ∃ url p, parametersParse (0,0) url = .ok p ∧
      ∃ u : Url, u.text = url ∧ u.params (0,0) = p := by
  have hparse : parametersParse (0,0) (ascii "connect:/p:sync=true:latency=500") =
      .ok ⟨false,ascii "/p",none,true,true,500,false,0⟩ := by
    show parseArgs (ascii "connect:/p:sync=true:latency=500") 21
        ⟨false,ascii "/p",none,true,false,0,false,0⟩ = _
    rw [parseArgs_step (by decide) rfl, parseArgs_done (by decide)]
    rfl
  exact ⟨_,_,hparse,(accepted_in_grammar_iff hparse).mpr (by decide)⟩

end SimBricks.Parser
