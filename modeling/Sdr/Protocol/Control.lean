import Sdr.Lib.PyJson

/-!
# Control — the JSON Lines control messages

Model of `common/protocol/control.py`.  A message is a Python dictionary; on the wire it is one line of
JSON.  `decodeJsonLine` and `encodeJsonLine` are `none` where the code raises.
-/

namespace Sdr
namespace Protocol

open Lib

/-! ## Messages -/

def ERROR_CODES : List String :=
  ["invalid_json", "unsupported_version", "invalid_command", "invalid_field", "out_of_range", "busy",
    "hardware_fault", "timeout", "internal_error"]

/-- Entries with keys that are plain text. -/
def fieldsOf (fields : List (String × PyValue)) : PyDict :=
  fields.map fun field => (py field.1, field.2)

def buildRequest (requestId : Int) (cmd : String) (fields : PyDict) : PyDict :=
  (py "request_id", .int requestId) :: (py "cmd", .str (py cmd)) :: fields

def buildResponse (requestId : Option PyValue) (ok : Bool) (fields : List (String × PyValue)) :
    PyDict :=
  let message := (py "ok", .bool ok) :: fieldsOf fields
  match requestId with
  | some requestId => (py "request_id", requestId) :: message
  | none => message

def buildError (requestId : Option PyValue) (code : String) (message : PyStr) : PyDict :=
  let code := if code ∈ ERROR_CODES then code else "internal_error"
  buildResponse requestId false
    [("error", .dict (fieldsOf [("code", .str (py code)), ("message", .str message)]))]

/-! ## Lines -/

section Lines

variable (T : PyTables)

def encodeJsonLine (message : PyDict) : Option (List UInt8) :=
  encodeUtf8 (PyJson.dumps T (.dict message) ++ py "\n")

def decodeJsonLine (line : List UInt8) : Option PyDict :=
  match (decodeUtf8 line).bind (PyJson.loads T) with
  | some (.dict value) => some value
  | _ => none

/-- The bytes are one line: the only newline is the last of them. -/
def OneLine (data : List UInt8) : Prop :=
  ∃ body, data = body ++ [10] ∧ 10 ∉ body

theorem encodeJsonLine_isSome (message : PyDict) :
    (encodeJsonLine T message).isSome = true ↔ PyJson.encodable (.dict message) = true := by
  unfold encodeJsonLine encodeUtf8
  rw [← PyJson.encodable_dumps T]
  split_ifs with h
  · exact iff_of_true rfl (encodable_append.1 h).1
  · refine iff_of_false (by simp) ?_
    intro hmessage
    exact h (encodable_append.2 ⟨hmessage, encodable_py _⟩)

theorem oneLine_encodeJsonLine {message : PyDict} {data : List UInt8}
    (h : encodeJsonLine T message = some data) : OneLine data := by
  unfold encodeJsonLine encodeUtf8 at h
  split_ifs at h
  have hnewline : (py "\n").flatMap utf8Char = [10] := by decide +kernel
  refine ⟨(PyJson.dumps T (.dict message)).flatMap utf8Char, ?_, ?_⟩
  · rw [← Option.some.inj h, List.flatMap_append, hnewline]
  · intro hmem
    rcases List.mem_flatMap.1 hmem with ⟨c, hc, hbyte⟩
    rw [newline_mem_utf8Char hbyte] at hc
    exact PyJson.newline_notMem_dumps T _ hc

end Lines

/-! ## Responses that can be encoded -/

@[simp] theorem encodable_dict_fieldsOf (fields : List (String × PyValue)) :
    PyJson.encodable (.dict (fieldsOf fields)) = true ↔
      ∀ field ∈ fields, PyJson.encodable field.2 = true := by
  induction fields with
  | nil =>
      simp [fieldsOf, PyJson.encodable, PyJson.encodableEntries]
  | cons field fields ih =>
      have hstep : fieldsOf (field :: fields) = (py field.1, field.2) :: fieldsOf fields := rfl
      rw [hstep, PyJson.encodable_dict_cons, ih]
      simp [encodable_py]

theorem encodable_of_isInt {v : PyValue} (h : isInt v = true) : PyJson.encodable v = true := by
  cases v with
  | bool b => simp
  | int n => simp
  | none | float _ | str _ | list _ | dict _ => simp [isInt] at h

theorem encodable_buildResponse {requestId : Option PyValue}
    (hid : ∀ id, requestId = some id → isInt id = true) (ok : Bool)
    (fields : List (String × PyValue)) :
    PyJson.encodable (.dict (buildResponse requestId ok fields)) = true ↔
      ∀ field ∈ fields, PyJson.encodable field.2 = true := by
  have hmessage : PyJson.encodable (.dict ((py "ok", .bool ok) :: fieldsOf fields)) = true ↔
      ∀ field ∈ fields, PyJson.encodable field.2 = true := by
    simp [encodable_py]
  cases requestId with
  | none =>
      exact hmessage
  | some requestId =>
      rw [← hmessage]
      simp [buildResponse, encodable_py, encodable_of_isInt (hid requestId rfl)]

theorem encodable_buildError {requestId : Option PyValue}
    (hid : ∀ id, requestId = some id → isInt id = true) (code : String) (message : PyStr) :
    PyJson.encodable (.dict (buildError requestId code message)) = true ↔ Encodable message := by
  rw [buildError, encodable_buildResponse hid]
  simp [encodable_py]

/-! ## Reading a response -/

theorem lookup_fieldsOf (fields : List (String × PyValue)) (key : String) :
    List.lookup (py key) (fieldsOf fields) = fields.lookup key := by
  induction fields with
  | nil =>
      rfl
  | cons field fields ih =>
      rcases field with ⟨name, value⟩
      by_cases h : key = name
      · simp [fieldsOf, h]
      · have hkey : py key ≠ py name := fun heq => h (py_inj.1 heq)
        have hstep : fieldsOf ((name, value) :: fields) = (py name, value) :: fieldsOf fields := rfl
        rw [hstep, List.lookup_cons, List.lookup_cons]
        simp only [beq_eq_false_iff_ne.2 hkey, beq_eq_false_iff_ne.2 h]
        exact ih

theorem get?_fieldsOf (fields : List (String × PyValue)) (key : String) :
    PyDict.get? (fieldsOf fields) key = fields.lookup key :=
  lookup_fieldsOf fields key

/-- With distinct keys, each entry is the one found for its key. -/
theorem get?_fieldsOf_eq_some_iff {fields : List (String × PyValue)}
    (hnodup : (fields.map Prod.fst).Nodup) {key : String} {value : PyValue} :
    PyDict.get? (fieldsOf fields) key = some value ↔ (key, value) ∈ fields := by
  rw [get?_fieldsOf]
  induction fields with
  | nil =>
      simp
  | cons field fields ih =>
      rcases field with ⟨name, value'⟩
      rw [List.map_cons, List.nodup_cons] at hnodup
      by_cases h : key = name
      · subst h
        have hnotMem : (key, value) ∉ fields := fun hmem => hnodup.1 (List.mem_map.2 ⟨_, hmem, rfl⟩)
        simp [List.mem_cons, hnotMem, eq_comm]
      · rw [List.lookup_cons, beq_false_of_ne h, List.mem_cons, ih hnodup.2]
        simp [h]

section Records

variable {φ : Type} {name : φ → String} {value : φ → PyValue} {fields : List φ}

theorem mem_fieldsOf_map {entry : PyStr × PyValue}
    (h : entry ∈ fieldsOf (fields.map fun field => (name field, value field))) :
    ∃ field ∈ fields, entry = (py (name field), value field) := by
  simp only [fieldsOf, List.map_map, List.mem_map] at h
  rcases h with ⟨field, hfield, rfl⟩
  exact ⟨field, hfield, rfl⟩

/-- The same for records that have a name and a value. -/
theorem get?_fieldsOf_map_eq_some_iff (hnodup : (fields.map name).Nodup) {key : String} {v : PyValue} :
    PyDict.get? (fieldsOf (fields.map fun field => (name field, value field))) key = some v ↔
      ∃ field ∈ fields, name field = key ∧ value field = v := by
  have hkeys : ((fields.map fun field => (name field, value field)).map Prod.fst).Nodup := by
    rw [List.map_map]
    exact hnodup
  rw [get?_fieldsOf_eq_some_iff hkeys]
  simp

end Records

/-- The keys that a response adds to its fields are plain text too. -/
theorem buildResponse_some (requestId : PyValue) (ok : Bool) (fields : List (String × PyValue)) :
    buildResponse (some requestId) ok fields =
      fieldsOf (("request_id", requestId) :: ("ok", .bool ok) :: fields) := rfl

@[simp] theorem get?_ok_buildResponse (requestId : Option PyValue) (ok : Bool)
    (fields : List (String × PyValue)) :
    PyDict.get? (buildResponse requestId ok fields) "ok" = some (.bool ok) := by
  cases requestId with
  | none =>
      simp [buildResponse, PyDict.get?]
  | some requestId =>
      rw [buildResponse_some, get?_fieldsOf]
      rfl

@[simp] theorem get?_requestId_buildResponse (requestId : PyValue) (ok : Bool)
    (fields : List (String × PyValue)) :
    PyDict.get? (buildResponse (some requestId) ok fields) "request_id" = some requestId := by
  rw [buildResponse_some, get?_fieldsOf]
  rfl

end Protocol
end Sdr
