import Mathlib.Data.List.Nodup
import Highlight.Definition.Json
import Highlight.Proofs.Definition.Shape

/-! Reading the fields of a rule. Fields are entered one after the other, each once; what is known in the end is what the
    value has for each field. -/

namespace Highlight

/-! ### Known fields -/

/-- What the value of a field is. -/
abbrev RuleField.Value : RuleField → Type
  | pattern | flags => String
  | lookbehind | greedy => Bool
  | aliasName => Option String
  | inside => Option InsideDefinition

namespace RuleFields
variable {fields fields' : RuleFields} {field other : RuleField}

def get (fields : RuleFields) : (field : RuleField) → Option field.Value
  | .pattern => fields.pattern
  | .flags => fields.flags
  | .lookbehind => fields.lookbehind
  | .greedy => fields.greedy
  | .aliasName => fields.aliasName
  | .inside => fields.inside

def set (fields : RuleFields) : (field : RuleField) → field.Value → RuleFields
  | .pattern, x => { fields with pattern := some x }
  | .flags, x => { fields with flags := some x }
  | .lookbehind, x => { fields with lookbehind := some x }
  | .greedy, x => { fields with greedy := some x }
  | .aliasName, x => { fields with aliasName := some x }
  | .inside, x => { fields with inside := some x }

theorem get_set_self (x : field.Value) : (fields.set field x).get field = some x := by
  cases field <;> rfl

theorem get_set_of_ne (h : other ≠ field) (x : field.Value) : (fields.set field x).get other = fields.get other := by
  cases field <;> cases other <;> first | rfl | exact absurd rfl h

theorem get_empty : ({} : RuleFields).get field = none := by
  cases field <;> rfl

theorem eq_of_get (h : ∀ field, fields.get field = fields'.get field) : fields = fields' := by
  cases fields
  cases fields'
  simp only [mk.injEq]
  exact ⟨h .pattern, h .flags, h .lookbehind, h .greedy, h .aliasName, h .inside⟩

end RuleFields

/-! ### Values of fields -/

def Datum.IsNumber : Datum → Prop
  | .natural _ | .number => True
  | _ => False

/-- The value of a field that a value stands for. -/
def Datum.value? : (field : RuleField) → Datum → Option field.Value
  | .pattern, .text s => some s
  | .flags, .text s => some s
  | .lookbehind, .bool b => some b
  | .greedy, .bool b => some b
  | .aliasName, .null => some none
  | .aliasName, .text s => some (some s)
  | .inside, d => Definition.inside? d
  | _, _ => none

namespace Json
variable {v : Json} {field : RuleField}

/-- Numbers stay numbers, if they have a value. -/
theorem isNumber_of_datum? {n : JsonNumber} {d : Datum} (h : (number n).datum? = some d) : d.IsNumber := by
  rw [datum?] at h
  split at h
  · exact Option.some.inj h ▸ trivial
  · split at h
    · exact Option.some.inj h ▸ trivial
    · cases h

theorem datum?_eq_null : v.datum? = some .null ↔ v = .null := by
  cases v with
  | number n => exact iff_of_false isNumber_of_datum? (by simp)
  | _ => simp [datum?]

theorem datum?_eq_bool {b : Bool} : v.datum? = some (.bool b) ↔ v = .bool b := by
  cases v with
  | number n => exact iff_of_false isNumber_of_datum? (by simp)
  | _ => simp [datum?]

theorem datum?_eq_text {s : String} : v.datum? = some (.text s) ↔ v = .string s := by
  cases v with
  | number n => exact iff_of_false isNumber_of_datum? (by simp)
  | _ => simp [datum?]

/-- The value of a field that a value stands for. -/
def value? (field : RuleField) (v : Json) : Option field.Value := v.datum?.bind (Datum.value? field)

end Json

namespace RuleFields
variable {fields fields' : RuleFields} {field : RuleField}

/-- Sets a field that is not known yet. -/
def put? (fields : RuleFields) (field : RuleField) (x : field.Value) : Option RuleFields :=
  if (fields.get field).isNone then some (fields.set field x) else none

theorem put?_eq_some {x : field.Value} : fields.put? field x = some fields' ↔ fields.get field = none ∧ fields' = fields.set field x := by
  unfold put?
  cases fields.get field <;> simp [eq_comm]

/-- Enters the value of any field. -/
def enterAny? (fields : RuleFields) (field : RuleField) (d : Datum) : Option RuleFields :=
  match field with
  | .inside => (Definition.inside? d).bind fields.enterInside?
  | field => fields.enter? field d

theorem enterAny?_eq {d : Datum} : fields.enterAny? field d = (d.value? field).bind (fields.put? field) := by
  have henter : ∀ {α : Type} (known : Option α) (x : α) (f : Option α → RuleFields),
      ((enter known x).bind fun y => some (f y)) = if known.isNone then some (f (some x)) else none := by
    intro α known x f
    cases known <;> rfl
  cases field with
  | inside =>
    refine congrArg (Option.bind _) (funext fun x => ?_)
    simp [enterInside?, put?, get, set, henter]
  | _ => cases d <;> simp [enterAny?, enter?, Datum.value?, put?, get, set, henter]

theorem enterAny?_eq_some {v : Json} : v.datum?.bind (fields.enterAny? field) = some fields' ↔
    ∃ x, v.value? field = some x ∧ fields.get field = none ∧ fields' = fields.set field x := by
  have hvalue : v.datum?.bind (fields.enterAny? field) = (v.value? field).bind (fields.put? field) := by
    rw [Json.value?, Option.bind_assoc]
    exact congrArg _ (funext fun d => enterAny?_eq)
  simp only [hvalue, Option.bind_eq_some_iff, put?_eq_some]

/-! ### Entering fields one after the other -/

def enterAll? (fields : RuleFields) : List (RuleField × Json) → Option RuleFields
  | [] => some fields
  | (field, v) :: values => (v.datum?.bind (fields.enterAny? field)).bind fun fields => fields.enterAll? values

/-- What entering does to a field: it is left alone if no value is given for it, and otherwise must not be known before. -/
def Entered (before after : Option field.Value) : Option Json → Prop
  | none => after = before
  | some v => before = none ∧ ∃ x, v.value? field = some x ∧ after = some x

theorem lookup_eq_none_iff {values : List (RuleField × Json)} : values.lookup field = none ↔ field ∉ values.map (·.1) := by
  simp only [List.lookup_eq_none_iff, List.mem_map, not_exists, not_and, bne_iff_ne]
  exact ⟨fun h p hp heq => h p hp heq.symm, fun h p hp heq => h p hp heq.symm⟩

/-- Values are entered if each is for another field, and then the fields are known that they are for. -/
theorem enterAll?_eq_some {values : List (RuleField × Json)} : fields.enterAll? values = some fields' ↔
    (values.map (·.1)).Nodup ∧ ∀ field, Entered (fields.get field) (fields'.get field) (values.lookup field) := by
  induction values generalizing fields with
  | nil =>
    constructor
    · intro h
      obtain rfl := Option.some.inj h
      exact ⟨List.nodup_nil, fun _ => rfl⟩
    · rintro ⟨-, h⟩
      exact congrArg some (eq_of_get fun field => (h field).symm)
  | cons m values ih =>
    obtain ⟨field, v⟩ := m
    rw [enterAll?, Option.bind_eq_some_iff, List.map_cons, List.nodup_cons]
    simp only [enterAny?_eq_some]
    constructor
    · rintro ⟨_, ⟨x, hx, hknown, rfl⟩, h⟩
      obtain ⟨hnodup, henter⟩ := ih.mp h
      -- The field is known by now, so that no further value is for it.
      have hlookup : values.lookup field = none := by
        have hfield := henter field
        rw [get_set_self] at hfield
        cases hv : values.lookup field with
        | none => rfl
        | some w =>
          rw [hv] at hfield
          cases hfield.1
      refine ⟨⟨lookup_eq_none_iff.mp hlookup, hnodup⟩, fun other => ?_⟩
      by_cases hother : other = field
      · subst hother
        have hfield := henter other
        rw [hlookup, get_set_self] at hfield
        rw [List.lookup_cons_self]
        exact ⟨hknown, x, hx, hfield⟩
      · have hne : (other == field) = false := beq_eq_false_iff_ne.mpr hother
        rw [List.lookup_cons, hne]
        exact get_set_of_ne hother x ▸ henter other
    · rintro ⟨⟨hmem, hnodup⟩, henter⟩
      have hfield := henter field
      rw [List.lookup_cons_self] at hfield
      obtain ⟨hknown, x, hx, hafter⟩ := hfield
      refine ⟨_, ⟨x, hx, hknown, rfl⟩, ih.mpr ⟨hnodup, fun other => ?_⟩⟩
      by_cases hother : other = field
      · subst hother
        rw [lookup_eq_none_iff.mpr hmem, get_set_self]
        exact hafter
      · have hstep := henter other
        have hne : (other == field) = false := beq_eq_false_iff_ne.mpr hother
        rw [List.lookup_cons, hne] at hstep
        exact (get_set_of_ne hother x).symm ▸ hstep

end RuleFields

/-! ### Fields of objects and arrays -/

namespace RuleField

theorem mem_all (field : RuleField) : field ∈ all := by
  cases field <;> decide

theorem name_injective {field other : RuleField} (h : field.name = other.name) : field = other := by
  cases field <;> cases other <;> first | rfl | exact absurd h (by decide)

theorem ofKey?_eq_some {key : String} {field : RuleField} : ofKey? (.text key) = some field ↔ field.name = key := by
  constructor
  · intro h
    have hfind : all.find? (·.name == key) = some field := h
    have hname := List.find?_some hfind
    exact eq_of_beq hname
  · rintro rfl
    cases field <;> rfl

end RuleField

namespace Definition
open RuleFields
variable {fields : RuleFields} {details : RuleDetails}

theorem named?_cons {key value : Datum} {members : List (Datum × Datum)} :
    named? fields ((key, value) :: members) = (RuleField.ofKey? key).bind fun field =>
      (fields.enterAny? field value).bind fun fields => named? fields members := by
  rw [named?]
  cases RuleField.ofKey? key with
  | none => rfl
  | some field => cases field <;> first | rfl | simp [enterAny?, Option.bind_assoc]

theorem positional?_cons {field : RuleField} {places : List RuleField} {value : Datum} {values : List Datum} :
    positional? fields (field :: places) (value :: values) =
      (fields.enterAny? field value).bind fun fields => positional? fields places values := by
  cases field <;> first | rfl | simp [positional?, enterAny?, Option.bind_assoc]

theorem bind_named?_cons {key : String} {v : Json} {members : List (String × Json)} :
    (Json.datumOfMembers? ((key, v) :: members)).bind (named? fields) = (RuleField.ofKey? (.text key)).bind fun field =>
      (v.datum?.bind (fields.enterAny? field)).bind fun fields => (Json.datumOfMembers? members).bind (named? fields) := by
  rw [Json.datumOfMembers?]
  cases v.datum? with
  | none => cases RuleField.ofKey? (.text key) <;> rfl
  | some d =>
    cases Json.datumOfMembers? members with
    | none => simp
    | some ds => exact named?_cons

theorem bind_positional?_cons {field : RuleField} {places : List RuleField} {v : Json} {items : List Json} :
    (Json.datumOfItems? (v :: items)).bind (positional? fields (field :: places)) =
      (v.datum?.bind (fields.enterAny? field)).bind fun fields => (Json.datumOfItems? items).bind (positional? fields places) := by
  rw [Json.datumOfItems?]
  cases v.datum? with
  | none => rfl
  | some d =>
    cases Json.datumOfItems? items with
    | none => simp
    | some ds => exact positional?_cons

/-- The members of an object are entered under the fields that their keys name. -/
theorem named?_eq_some {members : List (String × Json)} :
    (Json.datumOfMembers? members).bind (named? fields) = some details ↔
      ∃ values fields', values.map (fun m => (m.1.name, m.2)) = members ∧ fields.enterAll? values = some fields' ∧
        fields'.details? = some details := by
  induction members generalizing fields with
  | nil =>
    simp only [List.map_eq_nil_iff]
    constructor
    · exact fun h => ⟨[], fields, rfl, rfl, h⟩
    · rintro ⟨_, _, rfl, ⟨⟩, h⟩
      exact h
  | cons m members ih =>
    obtain ⟨key, v⟩ := m
    rw [bind_named?_cons, Option.bind_eq_some_iff]
    constructor
    · rintro ⟨field, hfield, h⟩
      obtain ⟨fields₁, hstep, h⟩ := Option.bind_eq_some_iff.mp h
      obtain ⟨values, fields', rfl, henter, hdetails⟩ := ih.mp h
      refine ⟨(field, v) :: values, fields', ?_, ?_, hdetails⟩
      · rw [List.map_cons, RuleField.ofKey?_eq_some.mp hfield]
      · rw [enterAll?, hstep]
        exact henter
    · rintro ⟨values, fields', hvalues, henter, hdetails⟩
      obtain ⟨⟨field, w⟩, values, rfl, hm, rfl⟩ := List.map_eq_cons_iff.mp hvalues
      obtain ⟨rfl, rfl⟩ := Prod.mk.inj hm
      obtain ⟨fields₁, hstep, henter⟩ := Option.bind_eq_some_iff.mp henter
      refine ⟨field, RuleField.ofKey?_eq_some.mpr rfl, ?_⟩
      rw [hstep]
      exact ih.mpr ⟨values, fields', rfl, henter, hdetails⟩

/-- The items of an array are entered under the fields at their places. -/
theorem positional?_eq_some {items : List Json} {places : List RuleField} :
    (Json.datumOfItems? items).bind (positional? fields places) = some details ↔
      items.length ≤ places.length ∧ ∃ fields', fields.enterAll? (places.zip items) = some fields' ∧
        fields'.details? = some details := by
  induction items generalizing fields places with
  | nil => cases places <;> simp [Json.datumOfItems?, positional?, enterAll?]
  | cons v items ih =>
    cases places with
    | nil =>
      rw [Json.datumOfItems?]
      cases v.datum? <;> cases Json.datumOfItems? items <;> simp [positional?]
    | cons field places =>
      rw [bind_positional?_cons, Option.bind_eq_some_iff, List.zip_cons_cons, enterAll?, List.length_cons, List.length_cons,
        Nat.add_le_add_iff_right]
      simp only [ih, Option.bind_eq_some_iff (x := v.datum?.bind _)]
      constructor
      · rintro ⟨fields₁, hstep, hlength, fields', henter, hdetails⟩
        exact ⟨hlength, fields', ⟨fields₁, hstep, henter⟩, hdetails⟩
      · rintro ⟨hlength, fields', ⟨fields₁, hstep, henter⟩, hdetails⟩
        exact ⟨fields₁, hstep, hlength, fields', henter, hdetails⟩

end Definition

namespace Json
open RuleFields Definition

/-- The rule whose fields a value has. -/
def details? : Json → Option RuleDetails
  | .object members => (datumOfMembers? members).bind (named? {})
  | .array items => (datumOfItems? items).bind (positional? {} RuleField.all)
  | _ => none

theorem lookup_names (values : List (RuleField × Json)) (field : RuleField) :
    (values.map fun m => (m.1.name, m.2)).lookup field.name = values.lookup field := by
  induction values with
  | nil => rfl
  | cons m values ih =>
    have hname : (field.name == m.1.name) = (field == m.1) := by
      rw [Bool.eq_iff_iff, beq_iff_eq, beq_iff_eq]
      exact ⟨RuleField.name_injective, congrArg _⟩
    rw [List.map_cons, List.lookup_cons, List.lookup_cons, hname, ih]

/-- The keys of an object are those of fields, none of them twice. -/
theorem hasFields_object {members : List (String × Json)} : (object members).HasFields ↔
    ∃ values : List (RuleField × Json), values.map (fun m => (m.1.name, m.2)) = members ∧ (values.map (·.1)).Nodup := by
  have hnames : (∀ m ∈ members, ∃ field : RuleField, field.name = m.1) ↔
      ∃ values : List (RuleField × Json), values.map (fun m => (m.1.name, m.2)) = members := by
    induction members with
    | nil => simp
    | cons m members ih =>
      rw [List.forall_mem_cons, ih]
      constructor
      · rintro ⟨⟨field, hfield⟩, values, rfl⟩
        exact ⟨(field, m.2) :: values, by rw [List.map_cons, hfield]⟩
      · rintro ⟨values, hvalues⟩
        obtain ⟨w, values, rfl, rfl, rfl⟩ := List.map_eq_cons_iff.mp hvalues
        exact ⟨⟨w.1, rfl⟩, values, rfl⟩
  have hnodup : ∀ values : List (RuleField × Json),
      ((values.map fun m => (m.1.name, m.2)).map (·.1)).Nodup ↔ (values.map (·.1)).Nodup := by
    intro values
    rw [List.map_map, ← List.nodup_map_iff (fun _ _ => RuleField.name_injective), List.map_map]
    rfl
  rw [HasFields, hnames]
  constructor
  · rintro ⟨hkeys, values, rfl⟩
    exact ⟨values, rfl, (hnodup values).mp hkeys⟩
  · rintro ⟨values, rfl, hkeys⟩
    exact ⟨(hnodup values).mpr hkeys, values, rfl⟩

theorem lookup_zip {places : List RuleField} {items : List Json} {field : RuleField} (h : field ∈ places) :
    (places.zip items).lookup field = items[places.idxOf field]? := by
  induction places generalizing items with
  | nil => cases h
  | cons place places ih =>
    cases items with
    | nil => rfl
    | cons v items =>
      rw [List.zip_cons_cons, List.lookup_cons, List.idxOf_cons]
      by_cases heq : field = place
      · simp [heq]
      · have hmem := List.mem_of_ne_of_mem heq h
        simp [beq_eq_false_iff_ne.mpr heq, beq_eq_false_iff_ne.mpr (Ne.symm heq), ih hmem]

theorem nodup_zip {places : List RuleField} (h : places.Nodup) (items : List Json) :
    ((places.zip items).map (·.1)).Nodup := by
  refine h.sublist ?_
  clear h
  induction places generalizing items with
  | nil => simp
  | cons place places ih => cases items <;> simp [ih]

/-- A value has the fields of a rule if it has nothing but fields, and what it has for each is the value of the field. -/
theorem details?_eq_some {v : Json} {details : RuleDetails} : v.details? = some details ↔
    v.HasFields ∧ ∃ fields : RuleFields, (∀ field, Entered none (fields.get field) (v.field? field)) ∧
      fields.details? = some details := by
  cases v with
  | object members =>
    simp only [details?, named?_eq_some, enterAll?_eq_some, get_empty, hasFields_object, field?]
    constructor
    · rintro ⟨values, fields, rfl, ⟨hnodup, henter⟩, hdetails⟩
      exact ⟨⟨values, rfl, hnodup⟩, fields, fun field => (lookup_names values field).symm ▸ henter field, hdetails⟩
    · rintro ⟨⟨values, rfl, hnodup⟩, fields, henter, hdetails⟩
      exact ⟨values, fields, rfl, ⟨hnodup, fun field => lookup_names values field ▸ henter field⟩, hdetails⟩
  | array items =>
    simp only [details?, positional?_eq_some, enterAll?_eq_some, get_empty, HasFields, field?,
      lookup_zip (RuleField.mem_all _), nodup_zip (by decide : RuleField.all.Nodup), true_and]
  | _ => exact iff_of_false (by simp [details?]) fun h => h.1

end Json
end Highlight
