import Mathlib.Data.List.Nodup
import Mathlib.Data.List.TakeWhile
import Sdr.Bridge.ScanLine

/-!
# RequestLine — the bridge's lookups against the request that was written

A request of the client is an object of scalars with at most one object in it, `udp`.  The scanner
knows nothing of nesting: it takes the first place where the key stands in quotes.  Where the keys of
both levels differ from each other and no string is one of the names the bridge looks up, that place
is the key's own entry, so that looking a name up in the text is looking it up in `flatEntries`.
-/

namespace Sdr
namespace Bridge

open Lib Lib.CString Protocol

/-- The names `sdr_control.c` looks up. -/
def bridgeFields : List String :=
  ["request_id", "cmd", "protocol_version", "iq_port", "psd_port", "status_port", "destination_ip",
    "attenuator_db", "lna", "filter", "enable", "stream_id", "adc_channel", "frequency_hz",
    "iq_sample_rate_hz", "bandwidth_hz", "sample_format", "mode", "client_time_ms"]

/-- The entries of an object and of the objects in it. -/
def flatEntries (entries : PyDict) : PyDict :=
  entries.flatMap fun entry =>
    match entry.2 with
    | .dict inner => entry :: inner
    | _ => [entry]

theorem mem_flatEntries {entry : PyStr × PyValue} {entries : PyDict} :
    entry ∈ flatEntries entries ↔
      entry ∈ entries ∨ ∃ k inner, (k, .dict inner) ∈ entries ∧ entry ∈ inner := by
  unfold flatEntries
  rw [List.mem_flatMap]
  constructor
  · rintro ⟨⟨k, v⟩, hmem, hentry⟩
    cases v with
    | dict inner =>
        rcases List.mem_cons.1 hentry with rfl | hentry
        · exact Or.inl hmem
        · exact Or.inr ⟨k, inner, hmem, hentry⟩
    | none | bool _ | int _ | float _ | str _ | list _ =>
        exact Or.inl (List.mem_singleton.1 hentry ▸ hmem)
  · rintro (hmem | ⟨k, inner, hmem, hentry⟩)
    · refine ⟨entry, hmem, ?_⟩
      split
      · exact List.mem_cons_self
      · exact List.mem_singleton_self entry
    · exact ⟨(k, .dict inner), hmem, List.mem_cons_of_mem _ hentry⟩

/-- What the requests of the client are made of: scalars and the addresses under `udp`, no key twice,
no escapes, and no string that is one of the names. -/
structure PlainRequest (entries : PyDict) : Prop where
  values : ∀ entry ∈ entries,
    Scalar entry.2 ∨ ∃ udp, entry = (py "udp", .dict udp) ∧ ∀ inner ∈ udp, Scalar inner.2
  distinct : ((flatEntries entries).map Prod.fst).Nodup
  plainKey : ∀ entry ∈ flatEntries entries, ∀ c ∈ entry.1, PlainChar c
  plainStr : ∀ k s, (k, PyValue.str s) ∈ flatEntries entries → ∀ c ∈ s, PlainChar c
  noName : ∀ k s, (k, PyValue.str s) ∈ flatEntries entries → ∀ name ∈ bridgeFields, s ≠ py name
  range : ∀ k n, (k, PyValue.int n) ∈ flatEntries entries → llongMin ≤ n ∧ n ≤ llongMax

/-! ## Passing over entries -/

section Search

variable {T : PyTables} {key : String}

/-- The search for the key passes over the entry, whatever stands behind its end. -/
def Passed (T : PyTables) (key : String) (entry : PyStr × PyValue) : Prop :=
  ∀ stop rest, stop = ',' ∨ stop = '\x7d' →
    found key.toList
        ('"' :: (strBody entry.1 ++ '"' :: ':' :: (valueText T entry.2 ++ stop :: rest))) =
      found key.toList rest

theorem isSep_of_stop {stop : Char} (h : stop = ',' ∨ stop = '\x7d') :
    stop ≠ '"' ∧ stop.isAlphanum = false ∧ stop ≠ '_' := by
  rcases h with rfl | rfl
  · decide
  · decide

/-- Entries that are passed over may as well not be there. -/
theorem found_append {before : PyDict} (hbefore : ∀ entry ∈ before, Passed T key entry)
    (after : PyDict) (rest : CString) :
    found key.toList (entriesText T (before ++ after) ++ rest) =
      found key.toList (entriesText T after ++ rest) := by
  induction before with
  | nil =>
      rfl
  | cons entry before ih =>
      rcases entry with ⟨k, v⟩
      have hhead : Passed T key (k, v) := hbefore (k, v) List.mem_cons_self
      rw [← ih fun e he => hbefore e (List.mem_cons_of_mem _ he), List.cons_append, entriesText_cons]
      cases hall : before ++ after with
      | nil =>
          have hskip : '"' ∉ ['\x7d'] := by decide
          have hlast := hhead '\x7d' rest (Or.inr rfl)
          rw [entriesText_nil, found_skip hskip]
          simpa [tailText] using hlast
      | cons next tail =>
          have hnext := hhead ',' (entriesText T (next :: tail) ++ rest) (Or.inl rfl)
          simpa [tailText] using hnext

variable (hkey : IsWord key.toList)
include hkey

/-- A key other than the wanted one is passed over. -/
theorem found_otherKey {k : PyStr} (hplain : ∀ c ∈ k, PlainChar c) (hk : k ≠ py key)
    (rest : CString) :
    found key.toList ('"' :: (strBody k ++ '"' :: rest)) = found key.toList ('"' :: rest) := by
  have hquote : '"' ∉ key.toList := hkey.notMem (by decide) (by decide)
  refine found_miss hquote (quote_notMem_strBody fun hmem => (hplain _ hmem).1 rfl) ?_
  intro heq
  exact hk ((strBody_eq_word_iff hkey).1 heq)

theorem passed_scalar {k : PyStr} {v : PyValue} (hplain : ∀ c ∈ k, PlainChar c) (hk : k ≠ py key)
    (hv : Scalar v) (hstr : ∀ s, v = .str s → (∀ c ∈ s, PlainChar c) ∧ s ≠ py key) :
    Passed T key (k, v) := by
  intro stop rest hstop
  have hsep := isSep_of_stop hstop
  rw [found_otherKey hkey hplain hk]
  by_cases hex : ∃ s, v = .str s
  · rcases hex with ⟨s, rfl⟩
    have htext : ':' :: (valueText T (.str s) ++ stop :: rest) =
        [':'] ++ '"' :: (strBody s ++ '"' :: stop :: rest) := by
      simp [valueText_str]
    rw [htext, found_behind hkey (by simp) (c := ':') (by simp) (by decide),
      found_otherKey hkey (hstr s rfl).1 (hstr s rfl).2]
    have hgap : '"' ∉ [stop] := by simp [Ne.symm hsep.1]
    exact found_behind hkey hgap (by simp) hsep.2 rest
  · push Not at hex
    have hgap : '"' ∉ ':' :: (valueText T v ++ [stop]) := by
      simp [quote_notMem_valueText T hv hex, Ne.symm hsep.1]
    have htext : ':' :: (valueText T v ++ stop :: rest) =
        ':' :: (valueText T v ++ [stop]) ++ rest := by
      simp
    rw [htext]
    exact found_behind hkey hgap (c := ':') (by simp) (by decide) rest

theorem found_ownKey (v : PyValue) (after : PyDict) (rest : CString) :
    found key.toList (entriesText T ((py key, v) :: after) ++ rest) =
      some (':' :: (valueText T v ++ (tailText T after ++ rest))) := by
  have hbody : strBody (py key) = key.toList := (strBody_eq_word_iff hkey).2 rfl
  have htext : entriesText T ((py key, v) :: after) ++ rest =
      '"' :: (key.toList ++ '"' :: (':' :: (valueText T v ++ (tailText T after ++ rest)))) := by
    simp [entriesText_cons, hbody]
  rw [htext, found_hit]
  rfl

/-- The search goes into an object as if it were part of the object around it. -/
theorem found_inner {k : PyStr} (hplain : ∀ c ∈ k, PlainChar c) (hk : k ≠ py key)
    (inner after : PyDict) (rest : CString) :
    found key.toList (entriesText T ((k, .dict inner) :: after) ++ rest) =
      found key.toList (entriesText T inner ++ (tailText T after ++ rest)) := by
  have htext : entriesText T ((k, .dict inner) :: after) ++ rest =
      '"' :: (strBody k ++ '"' :: ([':', '\x7b'] ++ (entriesText T inner ++
        (tailText T after ++ rest)))) := by
    simp [entriesText_cons, valueText, lineText_dumps_dict]
  rw [htext, found_otherKey hkey hplain hk]
  exact found_behind hkey (by simp) (c := ':') (by simp) (by decide) _

theorem passed_dict {k : PyStr} {inner : PyDict} (hplain : ∀ c ∈ k, PlainChar c) (hk : k ≠ py key)
    (hinner : ∀ entry ∈ inner, Passed T key entry) : Passed T key (k, .dict inner) := by
  intro stop rest hstop
  have hsep := isSep_of_stop hstop
  have htext : '"' :: (strBody k ++ '"' :: ':' :: (valueText T (.dict inner) ++ stop :: rest)) =
      '"' :: (strBody k ++ '"' :: ([':', '\x7b'] ++ (entriesText T inner ++ stop :: rest))) := by
    simp [valueText, lineText_dumps_dict]
  have hskip : '"' ∉ ['\x7d', stop] := by
    simp [Ne.symm hsep.1]
  have hinnerText := found_append hinner [] (stop :: rest)
  rw [List.append_nil, entriesText_nil] at hinnerText
  rw [htext, found_otherKey hkey hplain hk,
    found_behind hkey (by simp) (c := ':') (by simp) (by decide), hinnerText]
  exact found_skip hskip

end Search

/-! ## Where a name is found -/

theorem isWord_of_mem_bridgeFields {name : String} (h : name ∈ bridgeFields) :
    IsWord name.toList := by
  have hall : ∀ name ∈ bridgeFields, IsWord name.toList := by
    simp only [bridgeFields, List.forall_mem_cons, List.not_mem_nil, false_imp_iff, implies_true,
      and_true]
    repeat' apply And.intro
    all_goals
      apply CString.forall_mem_ofList
      decide
  exact hall name h

theorem flatEntries_append (before after : PyDict) :
    flatEntries (before ++ after) = flatEntries before ++ flatEntries after :=
  List.flatMap_append

theorem flatEntries_cons (entry : PyStr × PyValue) (rest : PyDict) :
    ∃ tail, flatEntries (entry :: rest) = entry :: tail := by
  unfold flatEntries
  rw [List.flatMap_cons]
  split
  · exact ⟨_, rfl⟩
  · exact ⟨_, rfl⟩

theorem flatEntries_inner (k : PyStr) (inner rest : PyDict) :
    flatEntries ((k, .dict inner) :: rest) = (k, .dict inner) :: (inner ++ flatEntries rest) :=
  rfl

/-- With distinct keys, what stands before a key's entry has other keys. -/
theorem ne_of_before {key : PyStr} {v : PyValue} {before after : PyDict}
    (h : ((before ++ (key, v) :: after).map Prod.fst).Nodup) : ∀ entry ∈ before, entry.1 ≠ key := by
  intro entry hentry heq
  rw [List.map_append, List.map_cons, List.nodup_append] at h
  exact h.2.2 entry.1 (List.mem_map_of_mem hentry) key List.mem_cons_self heq

section Request

variable {T : PyTables} {name : String} {entries : PyDict}
variable (h : PlainRequest entries) (hname : name ∈ bridgeFields)
include h hname

theorem passed_flat {k : PyStr} {v : PyValue} (hmem : (k, v) ∈ flatEntries entries)
    (hv : Scalar v) (hne : k ≠ py name) : Passed T name (k, v) := by
  refine passed_scalar (isWord_of_mem_bridgeFields hname) (h.plainKey _ hmem) hne hv ?_
  rintro s rfl
  exact ⟨h.plainStr k s hmem, h.noName k s hmem name hname⟩

theorem passed_entry {entry : PyStr × PyValue} (hmem : entry ∈ entries)
    (hne : ∀ other ∈ flatEntries [entry], other.1 ≠ py name) : Passed T name entry := by
  have hown : entry ∈ flatEntries [entry] := mem_flatEntries.2 (Or.inl List.mem_cons_self)
  have hflat : entry ∈ flatEntries entries := mem_flatEntries.2 (Or.inl hmem)
  rcases h.values entry hmem with hv | ⟨udp, rfl, hudp⟩
  · exact passed_flat h hname hflat hv (hne entry hown)
  · refine passed_dict (isWord_of_mem_bridgeFields hname) (h.plainKey _ hflat) (hne _ hown) ?_
    intro inner hinner
    have hin (other : PyDict) (hother : (py "udp", PyValue.dict udp) ∈ other) :
        inner ∈ flatEntries other := mem_flatEntries.2 (Or.inr ⟨_, udp, hother, hinner⟩)
    exact passed_flat h hname (hin entries hmem) (hudp inner hinner)
      (hne inner (hin _ List.mem_cons_self))

theorem passed_before {before : PyDict} (hsub : ∀ entry ∈ before, entry ∈ entries)
    (hne : ∀ entry ∈ flatEntries before, entry.1 ≠ py name) :
    ∀ entry ∈ before, Passed T name entry := by
  intro entry hentry
  refine passed_entry h hname (hsub entry hentry) ?_
  intro other hother
  apply hne
  rcases mem_flatEntries.1 hother with hother | ⟨k, inner, hinner, hother⟩
  · exact mem_flatEntries.2 (Or.inl (List.mem_singleton.1 hother ▸ hentry))
  · exact mem_flatEntries.2 (Or.inr ⟨k, inner, List.mem_singleton.1 hinner ▸ hentry, hother⟩)

/-- A name that no entry has is not found. -/
theorem found_absent (habsent : ∀ v, (py name, v) ∉ flatEntries entries) :
    found name.toList (entriesText T entries) = none := by
  have hpassed : ∀ entry ∈ entries, Passed T name entry := by
    refine passed_before h hname (fun entry hentry => hentry) ?_
    rintro ⟨k, v⟩ hentry rfl
    exact habsent v hentry
  have hall := found_append hpassed [] []
  rw [List.append_nil, List.append_nil, List.append_nil, entriesText_nil] at hall
  rw [hall]
  exact found_none (by decide)

/-- A name is found at its own entry, on either level. -/
theorem found_present {v : PyValue} (hmem : (py name, v) ∈ flatEntries entries) :
    ∃ stop rest, stop.isDigit = false ∧
      found name.toList (entriesText T entries) =
        some (':' :: (valueText T v ++ stop :: rest)) := by
  have hword := isWord_of_mem_bridgeFields hname
  have hdistinct := h.distinct
  rcases mem_flatEntries.1 hmem with hmem | ⟨k, inner, houter, hinner⟩
  · rcases List.append_of_mem hmem with ⟨before, after, hsplit⟩
    rcases flatEntries_cons (py name, v) after with ⟨flatAfter, hafter⟩
    rw [hsplit, flatEntries_append, hafter] at hdistinct
    have hpassed : ∀ entry ∈ before, Passed T name entry :=
      passed_before h hname (fun entry hentry => hsplit ▸ List.mem_append_left _ hentry)
        (ne_of_before hdistinct)
    have hfound := (found_append hpassed ((py name, v) :: after) []).trans
      (found_ownKey hword v after [])
    rcases tailText_cons (T := T) after with ⟨stop, rest, htail, hstop⟩
    refine ⟨stop, rest, hstop, ?_⟩
    simpa [hsplit, htail] using hfound
  · -- The entries before the inner object are passed over, then those before the name in it.
    rcases List.append_of_mem houter with ⟨before, after, hsplit⟩
    rcases List.append_of_mem hinner with ⟨innerBefore, innerAfter, hinnerSplit⟩
    have hflat : flatEntries entries =
        (flatEntries before ++ (k, .dict inner) :: innerBefore) ++
          (py name, v) :: (innerAfter ++ flatEntries after) := by
      rw [hsplit, flatEntries_append, flatEntries_inner, hinnerSplit]
      simp
    rw [hflat] at hdistinct
    have hne := ne_of_before hdistinct
    have hpassed : ∀ entry ∈ before, Passed T name entry :=
      passed_before h hname (fun entry hentry => hsplit ▸ List.mem_append_left _ hentry)
        (fun entry hentry => hne entry (List.mem_append_left _ hentry))
    have hudp : ∀ entry ∈ inner, Scalar entry.2 := by
      rcases h.values _ houter with hscalar | ⟨udp, heq, hudp⟩
      · exact hscalar.elim
      · cases heq
        exact hudp
    have hinnerPassed : ∀ entry ∈ innerBefore, Passed T name entry := by
      intro entry hentry
      have hmem : entry ∈ inner := hinnerSplit ▸ List.mem_append_left _ hentry
      exact passed_flat h hname (mem_flatEntries.2 (Or.inr ⟨k, inner, houter, hmem⟩))
        (hudp entry hmem) (hne entry (by simp [hentry]))
    have hk : k ≠ py name := hne (k, .dict inner) (by simp)
    have hplain : ∀ c ∈ k, PlainChar c :=
      h.plainKey _ (mem_flatEntries.2 (Or.inl houter))
    have hfound :=
      calc
        found name.toList (entriesText T (before ++ (k, .dict inner) :: after) ++ []) =
            found name.toList (entriesText T ((k, .dict inner) :: after) ++ []) :=
          found_append hpassed _ []
        _ = found name.toList (entriesText T (innerBefore ++ (py name, v) :: innerAfter) ++
              (tailText T after ++ [])) := by
          rw [found_inner hword hplain hk, hinnerSplit]
        _ = found name.toList (entriesText T ((py name, v) :: innerAfter) ++
              (tailText T after ++ [])) := found_append hinnerPassed _ _
        _ = some (':' :: (valueText T v ++ (tailText T innerAfter ++ (tailText T after ++ [])))) :=
          found_ownKey hword v innerAfter _
    rcases tailText_cons (T := T) innerAfter with ⟨stop, rest, htail, hstop⟩
    refine ⟨stop, rest ++ tailText T after, hstop, ?_⟩
    simpa [hsplit, htail] using hfound

theorem scalar_of_mem {v : PyValue} (hmem : (py name, v) ∈ flatEntries entries) : Scalar v := by
  rcases mem_flatEntries.1 hmem with hmem | ⟨k, inner, houter, hinner⟩
  · rcases h.values _ hmem with hv | ⟨udp, heq, _⟩
    · exact hv
    · have hudp : name = "udp" := py_inj.1 (congrArg Prod.fst heq)
      exact absurd (hudp ▸ hname) (by decide)
  · rcases h.values _ houter with hv | ⟨udp, heq, hudp⟩
    · exact hv.elim
    · cases heq
      exact hudp _ hinner

theorem jsonFindValue_present {v : PyValue} (hmem : (py name, v) ∈ flatEntries entries) :
    ∃ stop rest, stop.isDigit = false ∧
      jsonFindValue (objectLine T entries) name = some (valueText T v ++ stop :: rest) := by
  rcases found_present (T := T) h hname hmem with ⟨stop, rest, hstop, hfound⟩
  refine ⟨stop, rest, hstop, ?_⟩
  rw [jsonFindValue_eq_found, found_objectLine, hfound, Option.map_some, List.drop_one, List.tail_cons,
    dropWhile_valueText (scalar_of_mem h hname hmem)]

theorem jsonFindValue_absent (habsent : ∀ v, (py name, v) ∉ flatEntries entries) :
    jsonFindValue (objectLine T entries) name = none := by
  rw [jsonFindValue_eq_found, found_objectLine, found_absent h hname habsent, Option.map_none]

/-- A reader that is right on the values it is given is right on the line. -/
theorem reads_iff {α : Type} (read : CString → Option α) (as : PyValue → Option α)
    (hread : ∀ v, (py name, v) ∈ flatEntries entries → ∀ stop rest, stop.isDigit = false →
      read (valueText T v ++ stop :: rest) = as v) (a : α) :
    (jsonFindValue (objectLine T entries) name).bind read = some a ↔
      ∃ v, (py name, v) ∈ flatEntries entries ∧ as v = some a := by
  by_cases hpresent : ∃ v, (py name, v) ∈ flatEntries entries
  · rcases hpresent with ⟨v, hmem⟩
    rcases jsonFindValue_present (T := T) h hname hmem with ⟨stop, rest, hstop, hvalue⟩
    rw [hvalue, Option.bind_some, hread v hmem stop rest hstop]
    constructor
    · intro ha
      exact ⟨v, hmem, ha⟩
    · rintro ⟨w, hw, ha⟩
      -- The keys are distinct, so it is the same value.
      have hsame : w = v := by
        have heq := List.inj_on_of_nodup_map h.distinct hw hmem rfl
        exact congrArg Prod.snd heq
      rw [← hsame, ha]
  · push Not at hpresent
    rw [jsonFindValue_absent h hname hpresent, Option.bind_none]
    constructor
    · intro ha
      cases ha
    · rintro ⟨v, hmem, _⟩
      exact absurd hmem (hpresent v)

end Request

/-! ## The lookups -/

theorem asInt_eq_some {v : PyValue} {n : Int} : asInt v = some n ↔ v = .int n := by
  cases v <;> simp [asInt]

theorem asBool_eq_some {v : PyValue} {b : Bool} : asBool v = some b ↔ v = .bool b := by
  cases v <;> simp [asBool]

/-- A plain string is taken whole by a buffer that is longer. -/
theorem asText_plain {s : PyStr} (hplain : ∀ c ∈ s, PlainChar c) {valueSize : Nat}
    (hsize : (lineText s).length < valueSize) : asText valueSize (.str s) = some (lineText s) := by
  have hquote : '"' ∉ lineText s := by
    rw [← strBody_plain hplain]
    exact quote_notMem_strBody fun hmem => (hplain _ hmem).1 rfl
  have htake : (lineText s).takeWhile (· ≠ '"') = lineText s := by
    rw [List.takeWhile_eq_self_iff]
    intro c hc
    exact decide_eq_true fun heq => hquote (heq ▸ hc)
  rw [asText, strBody_plain hplain, htake, if_pos hsize]

/-- The bridge reads of a request what the client wrote: for each name it looks up, a number, a truth
value or a text is found exactly if the request has one under that name, on either level. -/
theorem lookups_read_request {T : PyTables} {requestId : Int} {cmd : String} {fields : PyDict}
    (h : PlainRequest (buildRequest requestId cmd fields)) {body : List UInt8}
    (hsent : encodeJsonLine T (buildRequest requestId cmd fields) = some (body ++ [10]))
    {name : String} (hname : name ∈ bridgeFields) :
    (∀ n, jsonFindNumber (ofBytes body) name = some n ↔
        (py name, .int n) ∈ flatEntries (buildRequest requestId cmd fields)) ∧
      (∀ b, jsonFindBool (ofBytes body) name = some b ↔
        (py name, .bool b) ∈ flatEntries (buildRequest requestId cmd fields)) ∧
      ∀ valueSize,
        (∀ s, (py name, .str s) ∈ flatEntries (buildRequest requestId cmd fields) →
          (lineText s).length < valueSize) →
        ∀ text, jsonFindString (ofBytes body) name valueSize = some text ↔
          ∃ s, (py name, .str s) ∈ flatEntries (buildRequest requestId cmd fields) ∧
            text = lineText s := by
  rw [ofBytes_sent hsent]
  refine ⟨?_, ?_, ?_⟩
  · intro n
    have hread := reads_iff (T := T) h hname strtoll asInt
      (fun v hmem stop rest hstop => strtoll_valueText (scalar_of_mem h hname hmem)
        (fun m hm => h.range (py name) m (hm ▸ hmem)) hstop rest) n
    simpa only [jsonFindNumber, asInt_eq_some, exists_eq_right] using hread
  · intro b
    have hread := reads_iff (T := T) h hname
      (fun p =>
        if "true".toList.isPrefixOf p then some true
        else if "false".toList.isPrefixOf p then some false
        else none)
      asBool
      (fun v hmem stop rest _ => trueFalse_valueText (scalar_of_mem h hname hmem) (stop :: rest)) b
    simpa only [jsonFindBool, asBool_eq_some, exists_eq_right] using hread
  · intro valueSize hlonger text
    have htext (v : PyValue)
        (hmem : (py name, v) ∈ flatEntries (buildRequest requestId cmd fields)) :
        asText valueSize v = some text ↔ ∃ s, v = .str s ∧ text = lineText s := by
      cases v with
      | str s =>
          rw [asText_plain (h.plainStr _ s hmem) (hlonger s hmem)]
          simp [eq_comm]
      | none | bool _ | int _ | float _ | list _ | dict _ =>
          simp [asText]
    by_cases hzero : valueSize = 0
    · -- No string is under that name, since none is shorter than nothing.
      rw [jsonFindString, if_pos hzero]
      constructor
      · intro hnone
        cases hnone
      · rintro ⟨s, hmem, _⟩
        exact absurd (hlonger s hmem) (by omega)
    · have hread := reads_iff (T := T) h hname (quotedText valueSize) (asText valueSize)
        (fun v hmem stop rest _ =>
          quotedText_valueText (scalar_of_mem h hname hmem) hzero (stop :: rest)) text
      rw [jsonFindString_eq hzero]
      refine hread.trans ?_
      constructor
      · rintro ⟨v, hmem, hv⟩
        rcases (htext v hmem).1 hv with ⟨s, rfl, heq⟩
        exact ⟨s, hmem, heq⟩
      · rintro ⟨s, hmem, heq⟩
        exact ⟨_, hmem, (htext _ hmem).2 ⟨s, rfl, heq⟩⟩

/-- The client's first request, short of two of its ports. -/
def helloFields : PyDict :=
  fieldsOf
    [("protocol_version", .int 1),
      ("udp", .dict (fieldsOf [("destination_ip", .str (py "10.0.0.2")), ("iq_port", .int 9001)])),
      ("client_name", .none)]

theorem flatEntries_hello :
    flatEntries (buildRequest 1 "hello" helloFields) =
      [(py "request_id", .int 1), (py "cmd", .str (py "hello")), (py "protocol_version", .int 1),
        (py "udp", .dict (fieldsOf [("destination_ip", .str (py "10.0.0.2")),
          ("iq_port", .int 9001)])),
        (py "destination_ip", .str (py "10.0.0.2")), (py "iq_port", .int 9001),
        (py "client_name", .none)] :=
  rfl

theorem plainRequest_hello : PlainRequest (buildRequest 1 "hello" helloFields) where
  values := by
    simp only [buildRequest, helloFields, fieldsOf, List.map_cons, List.map_nil,
      List.forall_mem_cons]
    refine ⟨Or.inl trivial, Or.inl trivial, Or.inl trivial, Or.inr ⟨_, rfl, ?_⟩, Or.inl trivial, ?_⟩
    · simp only [List.forall_mem_cons]
      exact ⟨trivial, trivial, by simp⟩
    · simp
  distinct := by
    decide +kernel
  plainKey := by
    have hall : (flatEntries (buildRequest 1 "hello" helloFields)).all
        (fun entry => entry.1.all fun c => decide (PlainChar c)) = true := by
      decide +kernel
    intro entry hentry c hc
    exact of_decide_eq_true (List.all_eq_true.1 (List.all_eq_true.1 hall entry hentry) c hc)
  plainStr := by
    have hall : ([py "hello", py "10.0.0.2"]).all (fun s => s.all fun c => decide (PlainChar c)) =
        true := by
      decide +kernel
    intro k s hmem c hc
    have hs : s ∈ [py "hello", py "10.0.0.2"] := by
      rw [flatEntries_hello] at hmem
      simp at hmem
      rcases hmem with ⟨_, rfl⟩ | ⟨_, rfl⟩
      · simp
      · simp
    exact of_decide_eq_true (List.all_eq_true.1 (List.all_eq_true.1 hall s hs) c hc)
  noName := by
    intro k s hmem
    rw [flatEntries_hello] at hmem
    simp at hmem
    rcases hmem with ⟨_, rfl⟩ | ⟨_, rfl⟩
    · decide +kernel
    · decide +kernel
  range := by
    intro k n hmem
    rw [flatEntries_hello] at hmem
    simp at hmem
    rcases hmem with ⟨_, rfl⟩ | ⟨_, rfl⟩ | ⟨_, rfl⟩
    · decide
    · decide
    · decide

theorem lookups_read_request_hello :
    ∃ body, encodeJsonLine PyTables.ascii (buildRequest 1 "hello" helloFields) =
        some (body ++ [10]) ∧
      jsonFindNumber (ofBytes body) "iq_port" = some 9001 ∧
      jsonFindString (ofBytes body) "destination_ip" 48 = some "10.0.0.2".toList ∧
      jsonFindBool (ofBytes body) "enable" = none := by
  have hsome : (encodeJsonLine PyTables.ascii (buildRequest 1 "hello" helloFields)).isSome = true :=
    (encodeJsonLine_isSome _ _).2 (by decide +kernel)
  rcases Option.isSome_iff_exists.1 hsome with ⟨data, hdata⟩
  rcases oneLine_encodeJsonLine _ hdata with ⟨body, rfl, _⟩
  have hhello {name : String} (hname : name ∈ bridgeFields) :=
    lookups_read_request plainRequest_hello hdata hname
  refine ⟨body, hdata, ?_, ?_, ?_⟩
  · exact ((hhello (by decide)).1 9001).2 (by rw [flatEntries_hello]; simp)
  · have hip : lineText (py "10.0.0.2") = "10.0.0.2".toList :=
      lineText_py (CString.forall_mem_ofList (by decide))
    refine ((hhello (by decide)).2.2 48 ?_ _).2 ⟨py "10.0.0.2", ?_, hip.symm⟩
    · intro s hs
      rw [flatEntries_hello] at hs
      have heq : s = py "10.0.0.2" := by simpa using hs
      rw [heq, hip]
      decide
    · rw [flatEntries_hello]
      simp
  · rw [Option.eq_none_iff_forall_not_mem]
    intro b hb
    have hmem := ((hhello (by decide)).2.1 b).1 hb
    rw [flatEntries_hello] at hmem
    simp at hmem

end Bridge
end Sdr
