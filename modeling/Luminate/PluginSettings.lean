import Luminate.Checks
import Luminate.Segments

/-! # Plugin settings

`managed_config/settings.rs` and the reporting half of `plugins/catalogue.rs`. Settings
are nested TOML tables addressed by dotted keys: layers are flattened, checked against
the plugin's schema, put over each other and nested again. -/
namespace PluginSettings

open Checks List Std.ExtTreeMap

/-- `f64`: the conversion from integers, the comparison and the equality of its values. -/
class FloatFormat (F : Type) extends BEq F, ToString F where
  ofInt : Int → F
  le : F → F → Bool
  isFinite : F → Bool

mutual

inductive Value (F : Type) where
  | string (value : String)
  | integer (value : Int)
  | float (value : F)
  | boolean (value : Bool)
  | datetime (text : String)
  | array (values : Values F)
  | table (entries : Table F)
  deriving BEq, Repr

inductive Values (F : Type) where
  | nil
  | cons (value : Value F) (rest : Values F)
  deriving BEq, Repr

/-- Keys are in ascending order, as in the map the source keeps them in. -/
inductive Table (F : Type) where
  | nil
  | cons (key : String) (value : Value F) (rest : Table F)
  deriving BEq, Repr

end

section

variable {F : Type}

def Values.all (p : Value F → Bool) : Values F → Bool
  | .nil => true
  | .cons value rest => p value && rest.all p

def Values.any (p : Value F → Bool) : Values F → Bool
  | .nil => false
  | .cons value rest => p value || rest.any p

def Table.isEmpty : Table F → Bool
  | .nil => true
  | .cons .. => false

def Table.get (key : String) : Table F → Option (Value F)
  | .nil => none
  | .cons k value rest => if k = key then some value else rest.get key

def Table.insert (key : String) (value : Value F) : Table F → Table F
  | .nil => .cons key value .nil
  | .cons k old rest =>
    if k = key then .cons key value rest
    else if key < k then .cons key value (.cons k old rest)
    else .cons k old (rest.insert key value)

def Table.remove (key : String) : Table F → Table F
  | .nil => .nil
  | .cons k value rest => if k = key then rest else .cons k value (rest.remove key)

end

def Table.All {F : Type} (P : String → Value F → Prop) : Table F → Prop
  | .nil => True
  | .cons key value rest => P key value ∧ rest.All P

section

variable {F : Type} {tb : Table F} {key : String} {v : Value F}

theorem Table.All.get (h : tb.All P) (hg : tb.get key = some v) : P key v := by
  fun_induction Table.get key tb with
  | case1 => cases hg
  | case2 first rest =>
    cases hg
    exact h.1
  | case3 k first rest hk ih => exact ih h.2 hg

theorem Table.All.insert (h : tb.All P) (hv : P key v) : (tb.insert key v).All P := by
  fun_induction Table.insert key v tb with
  | case1 => exact ⟨hv, trivial⟩
  | case2 => exact ⟨hv, h.2⟩
  | case3 => exact ⟨hv, h⟩
  | case4 k old rest hne hlt ih => exact ⟨h.1, ih h.2⟩

theorem Table.All.remove (h : tb.All P) (key : String) : (tb.remove key).All P := by
  fun_induction Table.remove key tb with
  | case1 => exact h
  | case2 => exact h.2
  | case3 k first rest hne ih => exact ⟨h.1, ih h.2⟩

end

def keyParts (key : String) : List String := (key.toList.splitOn '.').map String.ofList

def dottedKeyContains (parent child : String) : Bool :=
  (parent.toList ++ ['.']).isPrefixOf child.toList

def validSettingKey (key : String) : Bool :=
  key != "" && (key.toList.splitOn '.').all fun part =>
    !part.isEmpty && part.all fun c => c.isAlphanum || c == '_' || c == '-'

def dotted (path : Option String) (key : String) : String :=
  match path with
  | none => key
  | some path => path ++ "." ++ key

section

variable {F : Type}

abbrev Settings (F : Type) := Std.ExtTreeMap String (Value F) compare

def flattenSettings (path : Option String) :
    Table F → Settings F → Except String (Settings F)
  | .nil, flattened => .ok flattened
  | .cons key (.table nested) rest, flattened => do
    let flattened ← flattenSettings (some (dotted path key)) nested flattened
    flattenSettings path rest flattened
  | .cons key value rest, flattened => do
    ensure (!flattened.contains (dotted path key))
      ("duplicate plugin setting " ++ dotted path key)
    flattenSettings path rest (flattened.insert (dotted path key) value)

def nestedTable (key : String) : Option (Value F) → Except String (Table F)
  | none => .ok .nil
  | some (.table nested) => .ok nested
  | some _ => .error ("conflicting plugin setting key " ++ key)

def insertParts (key : String) (value : Value F) : List String → Table F → Except String (Table F)
  | [], _ => .error "plugin setting key must not be empty"
  | [part], table => do
    ensure (table.get part).isNone ("conflicting plugin setting key " ++ key)
    .ok (table.insert part value)
  | part :: parts, table => do
    let nested ← nestedTable key (table.get part)
    let nested ← insertParts key value parts nested
    .ok (table.insert part (.table nested))

def insertDottedSetting (table : Table F) (key : String) (value : Value F) :
    Except String (Table F) := insertParts key value (keyParts key) table

/-- Tables that become empty are removed with their last setting. -/
def clearParts : List String → Table F → Table F
  | [], table => table
  | [head], table => table.remove head
  | head :: tail, table =>
    match table.get head with
    | some (.table child) =>
      if (clearParts tail child).isEmpty then table.remove head
      else table.insert head (.table (clearParts tail child))
    | _ => table

def clearDottedSetting (table : Table F) (key : String) : Table F := clearParts (keyParts key) table

def setDottedSetting (table : Table F) (key : String) (value : Value F) :
    Except String (Table F) := do
  ensure (validSettingKey key) ("invalid plugin setting key " ++ key.quote)
  insertDottedSetting (clearDottedSetting table key) key value

end

inductive PluginSettingKind where
  | boolean | integer | number | string | enumeration | array
  deriving DecidableEq, Repr

structure PluginSettingSchema (F : Type) where
  key : String
  kind : PluginSettingKind
  default : Option (Value F) := none
  required : Bool := false
  sensitive : Bool := false
  minimum : Option F := none
  maximum : Option F := none
  constraints : Option (Value F) := none

section

variable {F : Type}

def hasKind : PluginSettingKind → Value F → Bool
  | .boolean, .boolean _ | .integer, .integer _ => true
  | .number, .integer _ | .number, .float _ => true
  | .string, .string _ | .enumeration, .string _ => true
  | .array, .array _ => true
  | _, _ => false

def validateSettingKind (setting : PluginSettingSchema F) (value : Value F) :
    Except String Unit :=
  ensure (hasKind setting.kind value)
    ("plugin setting " ++ setting.key ++ " has the wrong value kind")

def settingValueHasNamedKind (kind : String) (value : Value F) : Bool :=
  match kind, value with
  | "boolean", .boolean _ => true
  | "integer", .integer _ => true
  | "number", .integer _ | "number", .float _ => true
  | "string", .string _ => true
  | _, _ => false

def constraint (setting : PluginSettingSchema F) (name : String) : Option (Value F) :=
  setting.constraints.bind fun constraints =>
    match constraints with
    | .table entries => entries.get name
    | _ => none

variable [FloatFormat F]

def numericValue : Value F → Option F
  | .float value => some value
  | .integer value => some (FloatFormat.ofInt value)
  | _ => none

def checkBound (holds : F → Bool) (message : String) : Option F → Except String Unit
  | some bound => ensure (holds bound) (message ++ toString bound)
  | none => .ok ()

def validateBounds (setting : PluginSettingSchema F) (value : Value F) : Except String Unit :=
  match numericValue value with
  | none => .ok ()
  | some number => do
    checkBound (FloatFormat.le · number)
      ("plugin setting " ++ setting.key ++ " is below its minimum ") setting.minimum
    checkBound (FloatFormat.le number)
      ("plugin setting " ++ setting.key ++ " exceeds its maximum ") setting.maximum

def validateConstraints (setting : PluginSettingSchema F) (value : Value F) :
    Except String Unit :=
  match setting.kind with
  | .enumeration =>
    if setting.constraints.isNone then .ok ()
    else match constraint setting "choices" with
      | some (.array choices) => ensure (choices.any (· == value))
          ("plugin setting " ++ setting.key ++ " is not one of its declared choices")
      | _ => .error "enumeration setting constraints must contain a choices array"
  | .array =>
    match constraint setting "element_kind" with
    | some (.string kind) =>
      match value with
      | .array values => ensure (values.all (settingValueHasNamedKind kind))
          ("plugin setting " ++ setting.key ++ " contains an element of the wrong kind")
      | _ => .error "array setting value is not an array"
    | _ => .ok ()
  | _ => .ok ()

def validateSettingValue (setting : PluginSettingSchema F) (value : Value F) :
    Except String Unit := do
  validateSettingKind setting value
  validateBounds setting value
  validateConstraints setting value

end

def daemonSettingLocked (locks : List String) (key : String) : Bool :=
  locks.any fun locked => locked == key || dottedKeyContains locked key

section

variable {F : Type} [FloatFormat F]

def declareSettings : List (PluginSettingSchema F) → List String → Settings F →
    Except String (Settings F)
  | [], _, values => .ok values
  | setting :: rest, declared, values => do
    ensure (validSettingKey setting.key)
      ("invalid plugin setting schema key " ++ setting.key.quote)
    ensure (declared.all fun other =>
        !dottedKeyContains other setting.key && !dottedKeyContains setting.key other)
      ("conflicting plugin setting schema key " ++ setting.key)
    ensure (!declared.contains setting.key)
      ("duplicate plugin setting schema key " ++ setting.key)
    match setting.default with
    | none => declareSettings rest (declared ++ [setting.key]) values
    | some default => do
      validateSettingValue setting default
      declareSettings rest (declared ++ [setting.key]) (values.insert setting.key default)

/-- One layer over the values so far. Values that do not apply are checked all the same. -/
def overlaySettings (layer : String) (schema : List (PluginSettingSchema F))
    (applies : String → Bool) :
    List (String × Value F) → Settings F → Except String (Settings F)
  | [], values => .ok values
  | (key, value) :: rest, values =>
    match schema.find? (·.key == key) with
    | none => .error (layer ++ " configuration contains undeclared setting " ++ key)
    | some setting => do
      validateSettingValue setting value
      overlaySettings layer schema applies rest
        (if applies key then values.insert key value else values)

def nestSettings : List (String × Value F) → Table F → Except String (Table F)
  | [], table => .ok table
  | (key, value) :: rest, table => do
    let table ← insertDottedSetting table key value
    nestSettings rest table

def mergePluginSettings (global managed : Table F) (lockedSettings : List String)
    (schema : List (PluginSettingSchema F)) : Except String (Table F) := do
  let values ← declareSettings schema [] ∅
  let globalValues ← flattenSettings none global ∅
  let values ← overlaySettings "global" schema (fun _ => true) globalValues.toList values
  let managedValues ← flattenSettings none managed ∅
  let values ← overlaySettings "managed" schema (!daemonSettingLocked lockedSettings ·)
    managedValues.toList values
  checkAll (fun setting => ensure (!setting.required || values.contains setting.key)
    ("required plugin setting " ++ setting.key ++ " has no value")) schema
  nestSettings values.toList .nil

end

mutual

/-- The values of the protocol; it has no date-times. -/
inductive SettingValue (F : Type) where
  | boolean (value : Bool)
  | integer (value : Int)
  | number (value : F)
  | string (value : String)
  | array (values : SettingValues F)
  | table (entries : SettingTable F)
  deriving Repr

inductive SettingValues (F : Type) where
  | nil
  | cons (value : SettingValue F) (rest : SettingValues F)
  deriving Repr

inductive SettingTable (F : Type) where
  | nil
  | cons (key : String) (value : SettingValue F) (rest : SettingTable F)
  deriving Repr

end

inductive ReportedSettingValue (F : Type) where
  | unset
  | redacted
  | visible (value : SettingValue F)
  deriving Repr

section

variable {F : Type}

mutual

def settingValue : Value F → Except String (SettingValue F)
  | .string value => .ok (.string value)
  | .integer value => .ok (.integer value)
  | .float value => .ok (.number value)
  | .boolean value => .ok (.boolean value)
  | .datetime _ => .error "plugin setting metadata contains an unsupported datetime value"
  | .array values => do
    let values ← settingValues values
    .ok (.array values)
  | .table entries => do
    let entries ← settingTable entries
    .ok (.table entries)

def settingValues : Values F → Except String (SettingValues F)
  | .nil => .ok .nil
  | .cons value rest => do
    let value ← settingValue value
    let rest ← settingValues rest
    .ok (.cons value rest)

def settingTable : Table F → Except String (SettingTable F)
  | .nil => .ok .nil
  | .cons key value rest => do
    let value ← settingValue value
    let rest ← settingTable rest
    .ok (.cons key value rest)

end

def reportedValue (value : Option (Value F)) (sensitive : Bool) :
    Except String (ReportedSettingValue F) :=
  match value with
  | none => .ok .unset
  | some value =>
    if sensitive then .ok .redacted
    else (settingValue value).map .visible

def reportedSettings (settings : Table F) (schema : List (PluginSettingSchema F)) :
    Except String (List (String × ReportedSettingValue F)) := do
  let flattened ← flattenSettings none settings ∅
  schema.mapM fun setting =>
    (reportedValue flattened[setting.key]? setting.sensitive).map ((setting.key, ·))

variable [FloatFormat F]

mutual

def settingValueToToml : SettingValue F → Except String (Value F)
  | .boolean value => .ok (.boolean value)
  | .integer value => .ok (.integer value)
  | .number value => do
    ensure (FloatFormat.isFinite value) "plugin setting numbers must be finite"
    .ok (.float value)
  | .string value => .ok (.string value)
  | .array values => do
    let values ← settingValuesToToml values
    .ok (.array values)
  | .table entries => do
    let entries ← settingTableToToml entries
    .ok (.table entries)

def settingValuesToToml : SettingValues F → Except String (Values F)
  | .nil => .ok .nil
  | .cons value rest => do
    let value ← settingValueToToml value
    let rest ← settingValuesToToml rest
    .ok (.cons value rest)

def settingTableToToml : SettingTable F → Except String (Table F)
  | .nil => .ok .nil
  | .cons key value rest => do
    let value ← settingValueToToml value
    let rest ← settingTableToToml rest
    .ok (.cons key value rest)

end

end

section

variable {F : Type}

mutual

def Value.dateFree : Value F → Bool
  | .datetime _ => false
  | .array values => values.dateFree
  | .table entries => entries.dateFree
  | _ => true

def Values.dateFree : Values F → Bool
  | .nil => true
  | .cons value rest => value.dateFree && rest.dateFree

def Table.dateFree : Table F → Bool
  | .nil => true
  | .cons _ value rest => value.dateFree && rest.dateFree

end

variable {value : Value F} {table : Table F}

@[simp] theorem Table.dateFree_cons {rest : Table F} :
    (Table.cons key value rest).dateFree = true ↔ value.dateFree = true ∧ rest.dateFree = true := by
  simp [Table.dateFree]

mutual

theorem settingValue_ok {value : Value F} (h : value.dateFree = true) :
    ∃ reported, settingValue value = .ok reported := by
  cases value with
  | string | integer | float | boolean => exact ⟨_, rfl⟩
  | datetime => cases h
  | array vs =>
    obtain ⟨reported, hr⟩ := settingValues_ok (show vs.dateFree = true from h)
    exact ⟨.array reported, by rw [settingValue, hr]; rfl⟩
  | table entries =>
    obtain ⟨reported, hr⟩ := settingTable_ok (show entries.dateFree = true from h)
    exact ⟨.table reported, by rw [settingValue, hr]; rfl⟩

theorem settingValues_ok {vs : Values F} (h : vs.dateFree = true) :
    ∃ reported, settingValues vs = .ok reported := by
  cases vs with
  | nil => exact ⟨.nil, rfl⟩
  | cons value rest =>
    obtain ⟨hv, hr⟩ := Bool.and_eq_true_iff.1 h
    obtain ⟨first, hf⟩ := settingValue_ok hv
    obtain ⟨others, ho⟩ := settingValues_ok hr
    exact ⟨.cons first others, by rw [settingValues, hf, ho]; rfl⟩

theorem settingTable_ok {entries : Table F} (h : entries.dateFree = true) :
    ∃ reported, settingTable entries = .ok reported := by
  cases entries with
  | nil => exact ⟨.nil, rfl⟩
  | cons key value rest =>
    obtain ⟨hv, hr⟩ := Table.dateFree_cons.1 h
    obtain ⟨first, hf⟩ := settingValue_ok hv
    obtain ⟨others, ho⟩ := settingTable_ok hr
    exact ⟨.cons key first others, by rw [settingTable, hf, ho]; rfl⟩

end

theorem Table.dateFree_iff :
    table.dateFree = true ↔ table.All fun _ value => value.dateFree = true := by
  fun_induction Table.All (fun (_ : String) (value : Value F) => value.dateFree = true) table with
  | case1 => simp [Table.dateFree]
  | case2 key value rest ih => rw [Table.dateFree_cons, ih]

theorem Table.dateFree_get (h : table.dateFree = true)
    (hg : table.get key = some value) : value.dateFree = true := (Table.dateFree_iff.1 h).get hg

theorem Table.dateFree_insert (h : table.dateFree = true) (hv : value.dateFree = true) :
    (table.insert key value).dateFree = true :=
  Table.dateFree_iff.2 ((Table.dateFree_iff.1 h).insert hv)

theorem Table.dateFree_remove (h : table.dateFree = true) : (table.remove key).dateFree = true :=
  Table.dateFree_iff.2 ((Table.dateFree_iff.1 h).remove key)

theorem nestedTable_cases {value : Option (Value F)} (h : nestedTable key value = .ok n) :
    n = .nil ∨ value = some (.table n) := by
  unfold nestedTable at h
  split at h
  · exact .inl (Except.ok.inj h).symm
  · exact .inr (congrArg _ (congrArg _ (Except.ok.inj h)))
  · cases h

theorem insertParts_dateFree {next : Table F} {parts : List String} (ht : table.dateFree = true)
    (hv : value.dateFree = true) (h : insertParts key value parts table = .ok next) :
    next.dateFree = true := by
  fun_induction insertParts key value parts table generalizing next with
  | case1 => cases h
  | case2 part table =>
    obtain ⟨-, h⟩ := then_ok_iff.1 h
    cases h
    exact Table.dateFree_insert ht hv
  | case3 part parts table hp ih =>
    obtain ⟨n, hn, h⟩ := bind_ok_iff.1 h
    obtain ⟨inner, hi, h⟩ := bind_ok_iff.1 h
    cases h
    have hfr : n.dateFree = true := by
      rcases nestedTable_cases hn with rfl | hf
      · rfl
      · exact Table.dateFree_get ht hf
    exact Table.dateFree_insert ht (ih n hfr hi)

theorem clearParts_dateFree (h : table.dateFree = true) :
    (clearParts parts table).dateFree = true := by
  fun_induction clearParts parts table with
  | case1 => exact h
  | case2 => exact Table.dateFree_remove h
  | case3 => exact Table.dateFree_remove h
  | case4 table head tail ht child hc _ ih =>
    exact Table.dateFree_insert h (ih (Table.dateFree_get h hc))
  | case5 => exact h

theorem flattenSettings_dateFree (ht : table.dateFree = true)
    (hf : ∀ (key : String) (value : Value F), flat[key]? = some value → value.dateFree = true)
    (h : flattenSettings path table flat = .ok vs) :
    ∀ (key : String) (value : Value F), vs[key]? = some value → value.dateFree = true := by
  fun_induction flattenSettings path table flat generalizing vs with
  | case1 =>
    cases h
    exact hf
  | case2 path key n rest flat ihnested ihrest =>
    obtain ⟨hfi, hr⟩ := Table.dateFree_cons.1 ht
    obtain ⟨between, hb, h⟩ := bind_ok_iff.1 h
    exact ihrest between hr (ihnested hfi hf hb) h
  | case3 path key value rest flat _ ih =>
    obtain ⟨hfi, hr⟩ := Table.dateFree_cons.1 ht
    obtain ⟨-, h⟩ := then_ok_iff.1 h
    refine ih hr (fun other fd hfo => ?_) h
    rw [Std.ExtTreeMap.getElem?_insert] at hfo
    split at hfo
    · cases hfo
      exact hfi
    · exact hf other fd hfo

variable [FloatFormat F]

mutual

theorem settingValueToToml_dateFree {value : SettingValue F}
    (h : settingValueToToml value = .ok toml) : toml.dateFree = true := by
  cases value with
  | boolean | integer | string =>
    cases h
    rfl
  | number =>
    obtain ⟨-, h⟩ := then_ok_iff.1 h
    cases h
    rfl
  | array vs =>
    obtain ⟨converted, hc, h⟩ := bind_ok_iff.1 h
    cases h
    exact settingValuesToToml_dateFree hc
  | table entries =>
    obtain ⟨converted, hc, h⟩ := bind_ok_iff.1 h
    cases h
    exact settingTableToToml_dateFree hc

theorem settingValuesToToml_dateFree {toml : Values F} (h : settingValuesToToml vs = .ok toml) :
    toml.dateFree = true := by
  cases vs with
  | nil =>
    cases h
    rfl
  | cons value rest =>
    obtain ⟨first, hf, h⟩ := bind_ok_iff.1 h
    obtain ⟨others, ho, h⟩ := bind_ok_iff.1 h
    cases h
    exact Bool.and_eq_true_iff.2 ⟨settingValueToToml_dateFree hf, settingValuesToToml_dateFree ho⟩

theorem settingTableToToml_dateFree {toml : Table F} (h : settingTableToToml entries = .ok toml) :
    toml.dateFree = true := by
  cases entries with
  | nil =>
    cases h
    rfl
  | cons key value rest =>
    obtain ⟨first, hf, h⟩ := bind_ok_iff.1 h
    obtain ⟨others, ho, h⟩ := bind_ok_iff.1 h
    cases h
    exact Table.dateFree_cons.2 ⟨settingValueToToml_dateFree hf, settingTableToToml_dateFree ho⟩

end

end

section

variable {F : Type}

def Table.keys : Table F → List String
  | .nil => []
  | .cons key _ rest => key :: rest.keys

variable {table : Table F} {value : Value F}

theorem Table.all_key {Q : String → Prop} :
    table.All (fun key _ => Q key) ↔ ∀ key ∈ table.keys, Q key := by
  fun_induction Table.keys table with
  | case1 => simp [Table.All]
  | case2 key value rest ih => simp [Table.All, ih]

mutual

/-- Keys are in order and have no dots, so that dotted keys name one value. -/
def Value.WellFormed : Value F → Prop
  | .table entries => entries.WellFormed
  | _ => True

def Table.WellFormed : Table F → Prop
  | .nil => True
  | .cons key value rest =>
    '.' ∉ key.toList ∧ rest.All (fun k _ => key < k) ∧ value.WellFormed ∧ rest.WellFormed

end

def isTable : Value F → Bool
  | .table _ => true
  | _ => false

theorem wellFormed_of_not_table (h : isTable value = false) : value.WellFormed := by
  cases value with
  | table entries => cases h
  | string | integer | float | boolean | datetime | array => trivial

variable {key name : String} {path : Option String}

theorem Table.WellFormed.get (h : table.WellFormed)
    (hg : table.get key = some value) : value.WellFormed := by
  fun_induction Table.get key table with
  | case1 => cases hg
  | case2 first rest =>
    cases hg
    exact h.2.2.1
  | case3 k first rest hk ih => exact ih h.2.2.2 hg

theorem Table.All.imp (h : table.All P) (hi : ∀ key value, P key value → Q key value) :
    table.All Q := by
  fun_induction Table.All P table with
  | case1 => trivial
  | case2 key value rest ih => exact ⟨hi key value h.1, ih h.2⟩

theorem Table.WellFormed.insert (h : table.WellFormed)
    (hke : '.' ∉ key.toList) (hv : value.WellFormed) : (table.insert key value).WellFormed := by
  fun_induction Table.insert key value table with
  | case1 => exact ⟨hke, trivial, hv, trivial⟩
  | case2 => exact ⟨hke, h.2.1, hv, h.2.2.2⟩
  | case3 k old rest hne hlt => exact ⟨hke, ⟨hlt, h.2.1.imp fun _ _ => lt_trans hlt⟩, hv, h⟩
  | case4 k old rest hne hlt ih =>
    have hk : k < key := lt_of_le_of_ne (not_lt.1 hlt) hne
    exact ⟨h.1, h.2.1.insert hk, h.2.2.1, ih h.2.2.2⟩

theorem insertParts_wellFormed {next : Table F} {parts : List String} (ht : table.WellFormed)
    (hv : value.WellFormed) (hp : ∀ part ∈ parts, '.' ∉ part.toList)
    (h : insertParts key value parts table = .ok next) : next.WellFormed := by
  fun_induction insertParts key value parts table generalizing next with
  | case1 => cases h
  | case2 part table =>
    obtain ⟨-, h⟩ := then_ok_iff.1 h
    cases h
    exact ht.insert (hp part mem_cons_self) hv
  | case3 part parts table _ ih =>
    obtain ⟨n, hn, h⟩ := bind_ok_iff.1 h
    obtain ⟨inner, hi, h⟩ := bind_ok_iff.1 h
    cases h
    obtain ⟨hpa, hr⟩ := forall_mem_cons.1 hp
    have hw : n.WellFormed := by
      rcases nestedTable_cases hn with rfl | hf
      · trivial
      · exact ht.get hf
    exact ht.insert hpa (ih n hw hr hi)

theorem keyParts_dotFree : ∀ part ∈ keyParts key, '.' ∉ part.toList := by
  intro part hp
  exact Segments.not_mem_of_mem_segments hp

/-- The dotted key `name` leads through `key` at `path`. -/
def Under (path : Option String) (key name : String) : Prop :=
  ∃ rest, name.toList = (dotted path key).toList ++ rest ∧ (rest = [] ∨ ∃ tail, rest = '.' :: tail)

theorem under_self : Under path key (dotted path key) :=
  ⟨[], (append_nil _).symm, .inl rfl⟩

theorem Under.of_nested (h : Under (some (dotted path key)) n name) : Under path key name := by
  obtain ⟨rest, hn, -⟩ := h
  refine ⟨'.' :: (n.toList ++ rest), ?_, .inr ⟨_, rfl⟩⟩
  rw [hn, dotted, String.toList_append]
  simp

theorem takeWhile_dotFree (ht : '.' ∉ text) (hr : rest = [] ∨ ∃ tail, rest = '.' :: tail) :
    (text ++ rest).takeWhile (· != '.') = text := by
  have hk : ∀ c ∈ text, (c != '.') = true := fun c hc => by
    rw [bne_iff_ne]
    rintro rfl
    exact ht hc
  rw [takeWhile_append_of_pos hk]
  rcases hr with rfl | ⟨tail, rfl⟩ <;> simp

theorem Under.unique (h : Under path key name) (ho : Under path other name) (hk : '.' ∉ key.toList)
    (hd : '.' ∉ other.toList) : key = other := by
  obtain ⟨rest, hn, hr⟩ := h
  obtain ⟨rest', hn', hr'⟩ := ho
  have heq : key.toList ++ rest = other.toList ++ rest' := by
    rw [hn] at hn'
    cases path with
    | none => exact hn'
    | some path =>
      simp only [dotted, String.toList_append, append_assoc] at hn'
      exact append_cancel_left (append_cancel_left hn')
  have hl : key.toList = other.toList := by
    rw [← takeWhile_dotFree hk hr, heq, takeWhile_dotFree hd hr']
  exact String.toList_injective hl

theorem Table.WellFormed.dotFree (h : table.WellFormed) : ∀ key ∈ table.keys, '.' ∉ key.toList := by
  fun_induction Table.keys table with
  | case1 => exact fun _ hk => absurd hk not_mem_nil
  | case2 key value rest ih => exact forall_mem_cons.2 ⟨h.1, ih h.2.2.2⟩

theorem Table.WellFormed.separate (h : (Table.cons key value rest).WellFormed)
    (hn : Under path key name) (ho : other ∈ rest.keys) : ¬ Under path other name := by
  intro hu
  obtain rfl := hn.unique hu h.1 (h.2.2.2.dotFree other ho)
  exact lt_irrefl key (Table.all_key.1 h.2.1 key ho)

theorem flattenSettings_ok (h : table.WellFormed)
    (hfr : ∀ key ∈ table.keys, ∀ name ∈ flat, ¬ Under path key name) :
    ∃ vs, flattenSettings path table flat = .ok vs ∧
      ∀ name ∈ vs, name ∈ flat ∨ ∃ key ∈ table.keys, Under path key name := by
  fun_induction flattenSettings path table flat with
  | case1 => exact ⟨_, rfl, fun name hn => .inl hn⟩
  | case2 path key n rest flat ihnested ihrest =>
    obtain ⟨hf, hl⟩ := forall_mem_cons.1 hfr
    obtain ⟨between, hbe, ha⟩ := ihnested h.2.2.1 fun _ _ name hn hu => hf name hn hu.of_nested
    have hu : ∀ name ∈ between, name ∈ flat ∨ Under path key name := by
      intro name hn
      apply (ha name hn).imp_right
      rintro ⟨inner, -, hi⟩
      exact hi.of_nested
    obtain ⟨vs, hv, hk⟩ := ihrest between h.2.2.2 fun other ho name hn => by
      rcases hu name hn with hol | hne
      · exact hl other ho name hol
      · exact h.separate hne ho
    refine ⟨vs, by rw [hbe]; exact hv, fun name hn => ?_⟩
    rcases hk name hn with hb | ⟨other, ho, hu'⟩
    · exact (hu name hb).imp_right fun hne => ⟨key, mem_cons_self, hne⟩
    · exact .inr ⟨other, mem_cons_of_mem _ ho, hu'⟩
  | case3 path key value rest flat _ ih =>
    obtain ⟨hf, hl⟩ := forall_mem_cons.1 hfr
    have hne : dotted path key ∉ flat := fun hol => hf _ hol under_self
    have ha : ∀ name ∈ flat.insert (dotted path key) value, name ∈ flat ∨ Under path key name := by
      intro name hn
      rcases mem_insert.1 hn with hke | hol
      · obtain rfl := compare_eq_iff_eq.1 hke
        exact .inr under_self
      · exact .inl hol
    obtain ⟨vs, hv, hk⟩ := ih h.2.2.2 fun other ho name hn => by
      rcases ha name hn with hol | hu
      · exact hl other ho name hol
      · exact h.separate hu ho
    refine ⟨vs, ?_, fun name hn => ?_⟩
    · have hc : flat.contains (dotted path key) = false := by rwa [← Bool.not_eq_true]
      rw [hc]
      exact hv
    · rcases hk name hn with hb | ⟨other, ho, hu⟩
      · exact (ha name hb).imp_right fun hs => ⟨key, mem_cons_self, hs⟩
      · exact .inr ⟨other, mem_cons_of_mem _ ho, hu⟩

end

section

variable {F : Type}

theorem reportedValue_ok {value : Option (Value F)} (h : ∀ v, value = some v → v.dateFree = true) :
    ∃ reported, reportedValue value sensitive = .ok reported := by
  cases value with
  | none => exact ⟨.unset, rfl⟩
  | some value =>
    cases sensitive with
    | true => exact ⟨.redacted, rfl⟩
    | false =>
      obtain ⟨reported, hr⟩ := settingValue_ok (h value rfl)
      exact ⟨.visible reported, by simp [reportedValue, hr, Except.map]⟩

theorem reportedSettings_ok (sch : List (PluginSettingSchema F)) (hfr : table.dateFree = true)
    (hf : flattenSettings none table ∅ = .ok flat) :
    ∃ reported, reportedSettings table sch = .ok reported := by
  have hv : ∀ (key : String) (value : Value F), flat[key]? = some value →
      value.dateFree = true := flattenSettings_dateFree hfr (by simp) hf
  have hr : ∀ st ∈ sch, ∃ reported,
      (reportedValue flat[st.key]? st.sensitive).map ((st.key, ·)) = .ok reported := by
    intro st _
    obtain ⟨reported, hva⟩ := reportedValue_ok (hv st.key)
    exact ⟨(st.key, reported), by rw [hva]; rfl⟩
  obtain ⟨results, hre⟩ := mapM_ok_of_forall hr
  exact ⟨results, by rw [reportedSettings, hf]; exact hre⟩

def Sound (entries : List (String × Value F)) : Prop :=
  ∀ entry ∈ entries, entry.2.WellFormed ∧ entry.2.dateFree = true

theorem sound_insert {vs : Settings F} (h : Sound vs.toList)
    (hv : value.WellFormed ∧ value.dateFree = true) : Sound (vs.insert key value).toList := by
  rintro ⟨other, fd⟩ hf
  rw [Std.ExtTreeMap.mem_toList_iff_getElem?_eq_some, Std.ExtTreeMap.getElem?_insert] at hf
  split at hf
  · cases hf
    exact hv
  · exact h (other, fd) (mem_toList_iff_getElem?_eq_some.2 hf)

theorem dateFree_of_flattened (hf : table.dateFree = true)
    (h : flattenSettings none table ∅ = .ok flat) :
    ∀ entry ∈ flat.toList, entry.2.dateFree = true := by
  rintro ⟨key, value⟩ he
  exact flattenSettings_dateFree hf (by simp) h key value (mem_toList_iff_getElem?_eq_some.1 he)

theorem nestSettings_sound {next : Table F} (he : Sound entries)
    (ht : table.WellFormed ∧ table.dateFree = true) (h : nestSettings entries table = .ok next) :
    next.WellFormed ∧ next.dateFree = true := by
  induction entries generalizing table with
  | nil =>
    cases h
    exact ht
  | cons entry rest ih =>
    obtain ⟨between, hb, h⟩ := bind_ok_iff.1 h
    obtain ⟨hf, hr⟩ := forall_mem_cons.1 he
    refine ih hr ⟨?_, ?_⟩ h
    · exact insertParts_wellFormed ht.1 hf.1 keyParts_dotFree hb
    · exact insertParts_dateFree ht.2 hf.2 hb

variable [FloatFormat F]

theorem isTable_of_valid {value : Value F} (h : validateSettingValue st value = .ok ()) :
    isTable value = false := by
  obtain ⟨hk, -⟩ := then_ok_iff.1 h
  cases value with
  | table entries =>
    rw [validateSettingKind] at hk
    cases hk' : st.kind <;> rw [hk'] at hk <;> cases hk
  | string | integer | float | boolean | datetime | array => rfl

theorem wellFormed_of_valid {value : Value F} (h : validateSettingValue st value = .ok ()) :
    value.WellFormed := wellFormed_of_not_table (isTable_of_valid h)

variable {sch : List (PluginSettingSchema F)}

theorem declareSettings_sound {declared : List String} {vs next : Settings F} (hv : Sound vs.toList)
    (hde : ∀ st ∈ sch, ∀ default, st.default = some default → default.dateFree = true)
    (h : declareSettings sch declared vs = .ok next) : Sound next.toList := by
  induction sch generalizing declared vs with
  | nil =>
    cases h
    exact hv
  | cons st rest ih =>
    obtain ⟨hf, hr⟩ := forall_mem_cons.1 hde
    simp only [declareSettings, then_ok_iff] at h
    obtain ⟨-, -, -, h⟩ := h
    cases hd : st.default with
    | none =>
      rw [hd] at h
      exact ih hv hr h
    | some default =>
      rw [hd] at h
      obtain ⟨hva, h⟩ := then_ok_iff.1 h
      exact ih (sound_insert hv ⟨wellFormed_of_valid hva, hf default hd⟩) hr h

theorem overlaySettings_sound {next : Settings F} {layer : String} {applies : String → Bool}
    (hv : Sound vs.toList) (he : ∀ entry ∈ entries, entry.2.dateFree = true)
    (h : overlaySettings layer sch applies entries vs = .ok next) : Sound next.toList := by
  induction entries generalizing vs with
  | nil =>
    cases h
    exact hv
  | cons entry rest ih =>
    obtain ⟨hf, hr⟩ := forall_mem_cons.1 he
    unfold overlaySettings at h
    split at h
    · cases h
    · obtain ⟨hva, h⟩ := then_ok_iff.1 h
      refine ih ?_ hr h
      split
      · exact sound_insert hv ⟨wellFormed_of_valid hva, hf⟩
      · exact hv

theorem mergePluginSettings_reportable (hgo : global.dateFree = true) (hma : mg.dateFree = true)
    (hdf : ∀ st ∈ sch, ∀ default, st.default = some default → default.dateFree = true)
    (h : mergePluginSettings global mg lockedSettings sch = .ok merged) :
    (∃ reported, reportedSettings mg sch = .ok reported) ∧
      ∃ reported, reportedSettings merged sch = .ok reported := by
  simp only [mergePluginSettings, bind_ok_iff] at h
  obtain ⟨defaults, hde, globalValues, hg, overGlobal, ho,
    managedValues, hm, vs, hv, -, -, hme⟩ := h
  have hs : Sound vs.toList := by
    have hd : Sound defaults.toList := declareSettings_sound (by simp [Sound]) hdf hde
    have hgl : Sound overGlobal.toList := overlaySettings_sound hd (dateFree_of_flattened hgo hg) ho
    exact overlaySettings_sound hgl (dateFree_of_flattened hma hm) hv
  have hn : (Table.nil : Table F).WellFormed ∧ (Table.nil : Table F).dateFree = true :=
    ⟨trivial, rfl⟩
  obtain ⟨hw, hfr⟩ := nestSettings_sound hs hn hme
  have hfl : ∃ flat, flattenSettings none merged ∅ = .ok flat ∧ _ := flattenSettings_ok hw (by simp)
  obtain ⟨flat, hf, -⟩ := hfl
  exact ⟨reportedSettings_ok sch hma hm, reportedSettings_ok sch hfr hf⟩

end

end PluginSettings
