import ShiftPV.Lib.Check

/-! Objects without a schema: trees of maps, lists and scalars, read by paths of keys. The functions that read, write and
    convert them belong to a client library; they are parameters here, and what is used of them is stated as laws. -/

namespace Unstructured
open Check

inductive Value where
  | null
  | bool (value : Bool)
  | int (value : Int)
  | string (value : String)
  | list (items : List Value)
  | map (fields : List (String × Value))

abbrev Map := List (String × Value)

namespace Map

def get (m : Map) (key : String) : Option Value := m.lookup key

def put (m : Map) (key : String) (value : Value) : Map := (key, value) :: m.filter fun field => field.1 ≠ key

def putSome (m : Map) (key : String) (value : Option Value) : Map :=
  match value with
  | none => m
  | some value => m.put key value

variable {m : Map} {key other : String} {value : Value}

@[simp] theorem get_nil : get [] key = none := rfl

@[simp] theorem get_cons : get ((other, value) :: m) key = if key = other then some value else get m key := by
  unfold get
  rw [List.lookup_cons]
  by_cases h : key = other
  · simp [h]
  · simp [h, beq_false_of_ne h]

theorem get_filter (h : key ≠ other) : get (m.filter fun field => field.1 ≠ other) key = m.get key := by
  induction m with
  | nil => rfl
  | cons field m ih =>
    obtain ⟨name, found⟩ := field
    by_cases hname : name = other
    · subst hname
      rw [List.filter_cons_of_neg (by simp), ih, get_cons, if_neg h]
    · rw [List.filter_cons_of_pos (by simpa using hname), get_cons, get_cons, ih]

@[simp] theorem get_put : (m.put other value).get key = if key = other then some value else m.get key := by
  rw [put, get_cons]
  split
  · rfl
  · exact get_filter ‹_›

theorem put_put {next : Value} : (m.put key value).put key next = m.put key next := by
  simp [put, List.filter_cons_of_neg]

@[simp] theorem get_putSome {found : Option Value} :
    (m.putSome other found).get key = if key = other then found.or (m.get key) else m.get key := by
  cases found with
  | none => simp [putSome]
  | some value => simp [putSome, get_put]

end Map

def Value.asString : Value → Option String
  | .string s => some s
  | _ => none

def Value.asInt : Value → Option Int
  | .int i => some i
  | _ => none

def Value.asBool : Value → Option Bool
  | .bool b => some b
  | _ => none

def Value.asMap : Value → Option Map
  | .map m => some m
  | _ => none

def Value.asStrings : Value → Option (List String)
  | .list items => items.mapM Value.asString
  | _ => none

def whenSet (text : String) : Option Value := if text = "" then none else some (.string text)

def strings (values : List String) : Value := .list (values.map .string)

theorem asStrings_strings (values : List String) : (strings values).asStrings = some values := by
  show (values.map Value.string).mapM Value.asString = some values
  induction values with
  | nil => rfl
  | cons value values ih => simp [ih, Value.asString]

/-! ### Reads -/

abbrev Read (α : Type) := Map → List String → Except String (Option α)

/-- What a read of values of one kind is relied on to do. A path that runs into a null finds nothing and one that runs into
    another value fails; `blocked` does not tell the two apart. -/
structure Read.Lawful {α : Type} (read : Read α) (kind : Value → Option α) : Prop where
  missing {m : Map} {key : String} (path : List String) : m.get key = none → read m (key :: path) = .ok none
  found {m : Map} {key : String} {value : Value} {a : α} :
    m.get key = some value → kind value = some a → read m [key] = .ok (some a)
  other {m : Map} {key : String} {value : Value} :
    m.get key = some value → kind value = none → ∃ e, read m [key] = .error e
  below {m inner : Map} {key : String} (next : String) (path : List String) :
    m.get key = some (.map inner) → (read m (key :: next :: path)).toOption = (read inner (next :: path)).toOption
  blocked {m : Map} {key : String} {value : Value} (next : String) (path : List String) :
    m.get key = some value → value.asMap = none → ∀ a, read m (key :: next :: path) ≠ .ok (some a)
  first {m m' : Map} {key : String} (path : List String) : m.get key = m'.get key → read m (key :: path) = read m' (key :: path)

def orZero {α : Type} (zero : α) : Except String (Option α) → α
  | .ok (some a) => a
  | _ => zero

theorem orZero_some {α : Type} {zero a : α} : orZero zero (.ok (some a)) = a := rfl

theorem orZero_of_ne {α : Type} {zero : α} {result : Except String (Option α)} (h : ∀ a, result ≠ .ok (some a)) :
    orZero zero result = zero := by
  unfold orZero
  split
  · exact absurd rfl (h _)
  · rfl

theorem orZero_congr {α : Type} {zero : α} {r s : Except String (Option α)} (h : r.toOption = s.toOption) :
    orZero zero r = orZero zero s := by
  cases r <;> cases s <;> simp_all [Except.toOption, orZero]

theorem ok_of_toOption {α : Type} {result : Except String α} {a : α} (h : result.toOption = some a) : result = .ok a := by
  cases result <;> simp_all [Except.toOption]

namespace Read.Lawful

variable {α : Type} {read : Read α} {kind : Value → Option α} {m inner : Map} {name key : String} {value : Value} {a : α}

theorem found_below (h : read.Lawful kind) (hget : inner.get key = some value) (hkind : kind value = some a) :
    read (m.put name (.map inner)) [name, key] = .ok (some a) := by
  have hbelow := h.below key [] (show (m.put name (.map inner)).get name = _ by rw [Map.get_put, if_pos rfl])
  rw [h.found hget hkind] at hbelow
  exact ok_of_toOption hbelow

theorem missing_below (h : read.Lawful kind) (hget : inner.get key = none) :
    read (m.put name (.map inner)) [name, key] = .ok none := by
  have hbelow := h.below key [] (show (m.put name (.map inner)).get name = _ by rw [Map.get_put, if_pos rfl])
  rw [h.missing [] hget] at hbelow
  exact ok_of_toOption hbelow

theorem orZero_below {zero : α} {path : List String} (h : read.Lawful kind) :
    orZero zero (read (m.put name (.map inner)) (name :: key :: path)) = orZero zero (read inner (key :: path)) :=
  orZero_congr (h.below key path (by rw [Map.get_put, if_pos rfl]))

end Read.Lawful

def textOf : Option Value → String
  | some (.string text) => text
  | _ => ""

theorem textOf_string {text : String} : textOf (some (.string text)) = text := rfl

theorem textOf_whenSet {text : String} : textOf (whenSet text) = text := by
  unfold whenSet
  split
  · simp [textOf, *]
  · rfl

theorem readString_put {read : Read String} {m inner : Map} {name key : String} (h : read.Lawful Value.asString) :
    orZero "" (read (m.put name (.map inner)) [name, key]) = textOf (inner.get key) := by
  rw [h.orZero_below]
  cases hget : inner.get key with
  | none => rw [h.missing [] hget]; rfl
  | some value =>
    cases hkind : value.asString with
    | some text =>
      rw [h.found hget hkind]
      cases value <;> simp_all [Value.asString, textOf, orZero]
    | none =>
      obtain ⟨e, he⟩ := h.other hget hkind
      rw [he]
      cases value <;> simp_all [Value.asString, textOf, orZero]

/-! ### The client library -/

structure Accessors where
  nestedFieldNoCopy : Read Value
  nestedString : Read String
  nestedInt64 : Read Int
  nestedBool : Read Bool
  nestedMap : Read Map
  nestedStringSlice : Read (List String)
  setNestedMap (object value : Map) (path : List String) : Except String Map

structure Accessors.Lawful (api : Accessors) : Prop where
  field : api.nestedFieldNoCopy.Lawful some
  string : api.nestedString.Lawful Value.asString
  int64 : api.nestedInt64.Lawful Value.asInt
  bool : api.nestedBool.Lawful Value.asBool
  map : api.nestedMap.Lawful Value.asMap
  stringSlice : api.nestedStringSlice.Lawful Value.asStrings
  set {object inner value : Map} {name key : String} : object.get name = some (.map inner) →
    api.setNestedMap object value [name, key] = .ok (object.put name (.map (inner.put key (.map value))))

structure Converter (α : Type) where
  toUnstructured : α → Except String Map
  fromUnstructured : Map → Except String α

namespace Converter

variable {α : Type} {converter : Converter α} {value : Option α}

/-- What a conversion whose failure is ignored leaves to be written. -/
def written (converter : Converter α) (value : Option α) : Option Value :=
  match value with
  | none => none
  | some a =>
    match converter.toUnstructured a with
    | .error _ => none
    | .ok data => some (.map data)

def Restores (converter : Converter α) (a : α) : Prop :=
  ∃ data, converter.toUnstructured a = .ok data ∧ converter.fromUnstructured data = .ok a

theorem written_read {read : Read Map} (m : Map) {inner : Map} (name : String) {key : String} (h : read.Lawful Value.asMap)
    (hrestores : ∀ a, value = some a → converter.Restores a) (hget : inner.get key = converter.written value) :
    value = none ∧ read (m.put name (.map inner)) [name, key] = .ok none ∨
      ∃ a data, value = some a ∧ read (m.put name (.map inner)) [name, key] = .ok (some data) ∧
        converter.fromUnstructured data = .ok a := by
  cases value with
  | none => exact .inl ⟨rfl, h.missing_below hget⟩
  | some a =>
    obtain ⟨data, hto, hfrom⟩ := hrestores a rfl
    rw [written, hto] at hget
    exact .inr ⟨a, data, rfl, h.found_below hget rfl, hfrom⟩

end Converter

/-! ### A plain library -/

def plainField : Map → List String → Except String (Option Value)
  | m, [] => return some (.map m)
  | m, [key] => return m.get key
  | m, key :: next :: path =>
    match m.get key with
    | none | some .null => return none
    | some (.map inner) => plainField inner (next :: path)
    | some _ => throw "accessor error: unexpected type"

def plainRead {α : Type} (kind : Value → Option α) : Read α := fun m path =>
  match plainField m path with
  | .error e => throw e
  | .ok none => return none
  | .ok (some value) =>
    match kind value with
    | none => throw "accessor error: unexpected type"
    | some a => return some a

theorem plainRead_lawful {α : Type} (kind : Value → Option α) : (plainRead kind).Lawful kind where
  missing path hget := by cases path <;> simp [plainRead, plainField, hget, pure, Except.pure]
  found hget hkind := by simp [plainRead, plainField, hget, hkind, pure, Except.pure]
  other hget hkind := ⟨_, by simp [plainRead, plainField, hget, hkind, pure, Except.pure, throw, throwThe, MonadExceptOf.throw]; rfl⟩
  below next path hget := by simp [plainRead, plainField, hget]
  blocked {m key value} next path hget hmap a := by
    cases value <;> simp_all [plainRead, plainField, Value.asMap, pure, Except.pure, throw, throwThe, MonadExceptOf.throw]
  first path hget := by cases path <;> simp [plainRead, plainField, hget]

def plain : Accessors where
  nestedFieldNoCopy := plainRead some
  nestedString := plainRead Value.asString
  nestedInt64 := plainRead Value.asInt
  nestedBool := plainRead Value.asBool
  nestedMap := plainRead Value.asMap
  nestedStringSlice := plainRead Value.asStrings
  setNestedMap object value path :=
    match path with
    | [name, key] =>
      match object.get name with
      | some (.map inner) => return object.put name (.map (Map.put inner key (.map value)))
      | none => return object.put name (.map [(key, .map value)])
      | some _ => throw "value cannot be set: unexpected type"
    | _ => throw "value cannot be set: unexpected path"

theorem plain_lawful : plain.Lawful where
  field := plainRead_lawful some
  string := plainRead_lawful _
  int64 := plainRead_lawful _
  bool := plainRead_lawful _
  map := plainRead_lawful _
  stringSlice := plainRead_lawful _
  set hget := by simp [plain, hget, pure, Except.pure]

/-- A field of a record that is decoded from a map; a missing field keeps its zero value. -/
def field {α : Type} (kind : Value → Option α) (zero : α) (m : Map) (key : String) : Except String α :=
  match m.get key with
  | none | some .null => return zero
  | some value =>
    match kind value with
    | none => throw (key ++ ": unexpected type")
    | some a => return a

def stringField : Map → String → Except String String := field Value.asString ""

end Unstructured
